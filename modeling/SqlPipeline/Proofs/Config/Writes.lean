import SqlPipeline.Config
import SqlPipeline.Proofs.Result
import SqlPipeline.Proofs.Value.IntegerText

/-!
# Writes to a configuration

A configuration is written setting by setting, by name and text, or replaced by what a JSON text
describes. A number is checked against the limits of its setting only in the first way: a handoff of
any 64-bit number of rows can be loaded, and stays until it is written again
(`Config.not_withinLimits_after_iff`). It cannot be set to its own text then
(`Config.changed_get`). **What holds after every list of writes to the default configuration** is
`Config.written_within_limits`.
-/

namespace SqlPipeline

theorem Setting.ofName_name (setting : Setting) : Setting.ofName setting.name = .ok setting := by
  cases setting <;> decide

theorem Setting.eq_name_of_ofName {name : String} {setting : Setting}
    (h : Setting.ofName name = .ok setting) : name = setting.name := by
  unfold Setting.ofName at h
  split at h
  · next found hfound =>
    have hname := List.find?_some hfound
    cases h
    exact (eq_of_beq hname).symm
  · cases h

namespace Config

inductive Write where
  /-- Sets the setting of a name to the value a text spells. -/
  | set (name value : String)
  /-- Replaces all settings by those a JSON text describes. -/
  | load (text : String)
deriving DecidableEq, Repr, Inhabited

inductive Refusal where
  | setting (error : Error)
  | text
deriving DecidableEq, Repr, Inhabited

def Write.changed (config : Config) : Write → Except Refusal Config
  | set name value => (config.setByName name value).mapError .setting
  | load text => (ofText? text).elim (.error .text) .ok

def Write.make (write : Write) : ExceptT Refusal (StateM Config) Unit := do
  let config ← getThe Config
  let changed ← MonadExcept.ofExcept (write.changed config)
  MonadState.set changed

/-- What comes of a write, and the configuration after it. -/
def made (config : Config) (write : Write) : Except Refusal Unit × Config :=
  (write.make.run).run config

/-- The configuration after writes, some of which may have been refused. -/
def after (config : Config) (writes : List Write) : Config :=
  writes.foldl (fun config write => (config.made write).2) config

/-- The number of rows of a handoff is one that can be set. -/
def WithinLimits (config : Config) : Prop :=
  minChannelBuffer ≤ config.channelBuffer ∧ config.channelBuffer ≤ maxChannelBuffer

instance (config : Config) : Decidable config.WithinLimits :=
  inferInstanceAs (Decidable (_ ∧ _))

/-- A write that changes how many rows a handoff can hold, wherever it is made. -/
def Write.SetsBuffer : Write → Prop
  | set name value => name = Setting.channelBuffer.name ∧
      ∃ n, readWord? (Text.trim value.toList) = some n ∧ minChannelBuffer ≤ n ∧ n ≤ maxChannelBuffer
  | load text => ∃ loaded, ofText? text = some loaded

/-- The last write that changes how many rows a handoff can hold loads a number beyond the
limits. -/
def LoadsBeyond (writes : List Write) : Prop :=
  ∃ earlier text later loaded, writes = earlier ++ .load text :: later ∧
    ofText? text = some loaded ∧ ¬ loaded.WithinLimits ∧ ∀ write ∈ later, ¬ write.SetsBuffer

variable {config other : Config} {setting : Setting} {name value text : String} {write : Write}
  {writes : List Write}

/-! ## Single writes -/

theorem made_of_ok (h : write.changed config = .ok other) :
    config.made write = (.ok (), other) := by
  have hrun : config.made write =
      ((do MonadState.set (← MonadExcept.ofExcept (write.changed config)) :
        ExceptT Refusal (StateM Config) Unit).run).run config := rfl
  rw [hrun, h]
  rfl

theorem made_of_error {refusal : Refusal} (h : write.changed config = .error refusal) :
    config.made write = (.error refusal, config) := by
  have hrun : config.made write =
      ((do MonadState.set (← MonadExcept.ofExcept (write.changed config)) :
        ExceptT Refusal (StateM Config) Unit).run).run config := rfl
  rw [hrun, h]
  rfl

theorem set_channelBuffer_eq_ok : config.set .channelBuffer value = .ok other ↔
    ∃ n, readWord? (Text.trim value.toList) = some n ∧
      (minChannelBuffer ≤ n ∧ n ≤ maxChannelBuffer) ∧
        { config with channelBuffer := n } = other := by
  unfold set
  dsimp only
  cases readWord? (Text.trim value.toList) with
  | none => simp
  | some n => by_cases hlimits : minChannelBuffer ≤ n ∧ n ≤ maxChannelBuffer <;> simp [hlimits]

theorem set_disableRecover_eq_ok : config.set .disableRecover value = .ok other ↔
    ∃ disabled, readSwitch? (Text.trim value.toList) = some disabled ∧
      { config with disableRecover := disabled } = other := by
  unfold set
  dsimp only
  cases readSwitch? (Text.trim value.toList) <;> simp

theorem changed_set (setting : Setting) (value : String) :
    (Write.set setting.name value).changed config =
      (config.set setting value).mapError .setting := by
  rw [Write.changed, setByName, Setting.ofName_name]
  rfl

theorem changed_set_eq_ok : (Write.set name value).changed config = .ok other ↔
    ∃ setting : Setting, name = setting.name ∧ config.set setting value = .ok other := by
  constructor
  · intro h
    cases hset : config.setByName name value with
    | error error => rw [Write.changed, hset] at h; cases h
    | ok found =>
      rw [Write.changed, hset] at h
      cases h
      obtain ⟨setting, hname, hset⟩ := Result.bind_eq_ok.mp hset
      exact ⟨setting, Setting.eq_name_of_ofName hname, hset⟩
  · rintro ⟨setting, rfl, hset⟩
    rw [changed_set, hset]
    rfl

/-- A write that changes how many rows a handoff can hold is never refused. -/
theorem exists_changed (h : write.SetsBuffer) (config : Config) :
    ∃ other, write.changed config = .ok other := by
  cases write with
  | set name value =>
    obtain ⟨rfl, n, hn, hlimits⟩ := h
    exact ⟨_, changed_set_eq_ok.mpr
      ⟨.channelBuffer, rfl, set_channelBuffer_eq_ok.mpr ⟨n, hn, hlimits, rfl⟩⟩⟩
  | load text =>
    obtain ⟨loaded, hloaded⟩ := h
    exact ⟨loaded, by rw [Write.changed, hloaded]; rfl⟩

/-- A setting is set to a number within the limits, or it is a switch. -/
theorem changed_set_cases (h : (Write.set name value).changed config = .ok other) :
    ((Write.set name value).SetsBuffer ∧ other.WithinLimits) ∨
      (¬ (Write.set name value).SetsBuffer ∧ other.channelBuffer = config.channelBuffer) := by
  obtain ⟨setting, rfl, hset⟩ := changed_set_eq_ok.mp h
  cases setting with
  | channelBuffer =>
    obtain ⟨n, hn, hlimits, rfl⟩ := set_channelBuffer_eq_ok.mp hset
    exact .inl ⟨⟨rfl, n, hn, hlimits⟩, hlimits⟩
  | disableRecover =>
    obtain ⟨disabled, -, rfl⟩ := set_disableRecover_eq_ok.mp hset
    exact .inr ⟨fun hbuffer => absurd hbuffer.1 (by decide), rfl⟩

/-- What one write does to the number of rows of a handoff: it loads one, sets one within the
limits, or leaves the one there is. -/
theorem made_cases (config : Config) (write : Write) :
    (∃ text, write = .load text ∧ ofText? text = some (config.made write).2) ∨
      ((∀ text, write ≠ .load text) ∧ write.SetsBuffer ∧ (config.made write).2.WithinLimits) ∨
      (¬ write.SetsBuffer ∧ (config.made write).2.channelBuffer = config.channelBuffer) := by
  cases h : write.changed config with
  | error refusal =>
    have hkept : ¬ write.SetsBuffer := by
      intro hbuffer
      obtain ⟨other, hother⟩ := exists_changed hbuffer config
      cases h.symm.trans hother
    rw [made_of_error h]
    exact .inr (.inr ⟨hkept, rfl⟩)
  | ok other =>
    rw [made_of_ok h]
    cases write with
    | set name value => exact .inr ((changed_set_cases h).imp_left fun hset => ⟨by simp, hset⟩)
    | load text =>
      cases hloaded : ofText? text with
      | none => rw [Write.changed, hloaded] at h; cases h
      | some loaded => rw [Write.changed, hloaded] at h; cases h; exact .inl ⟨text, rfl, hloaded⟩

/-! ## Lists of writes -/

theorem loadsBeyond_cons : LoadsBeyond (write :: writes) ↔
    (∃ text loaded, write = .load text ∧ ofText? text = some loaded ∧ ¬ loaded.WithinLimits ∧
      ∀ later ∈ writes, ¬ later.SetsBuffer) ∨ LoadsBeyond writes := by
  constructor
  · rintro ⟨earlier, text, later, loaded, hwrites, hloaded, hbeyond, hlater⟩
    cases earlier with
    | nil =>
      cases hwrites
      exact .inl ⟨text, loaded, rfl, hloaded, hbeyond, hlater⟩
    | cons first earlier =>
      cases hwrites
      exact .inr ⟨earlier, text, later, loaded, rfl, hloaded, hbeyond, hlater⟩
  · rintro (⟨text, loaded, rfl, hloaded, hbeyond, hlater⟩ | h)
    · exact ⟨[], text, writes, loaded, rfl, hloaded, hbeyond, hlater⟩
    · obtain ⟨earlier, text, later, loaded, rfl, hloaded, hbeyond, hlater⟩ := h
      exact ⟨write :: earlier, text, later, loaded, rfl, hloaded, hbeyond, hlater⟩

/-- After writes, the number of rows of a handoff is beyond the limits exactly if the last write
that changes it loads such a number, or if it was beyond them before and no write changes it. -/
theorem not_withinLimits_after_iff (config : Config) (writes : List Write) :
    ¬ (config.after writes).WithinLimits ↔
      LoadsBeyond writes ∨ (¬ config.WithinLimits ∧ ∀ write ∈ writes, ¬ write.SetsBuffer) := by
  induction writes generalizing config with
  | nil =>
    have hnone : ¬ LoadsBeyond [] := by
      rintro ⟨earlier, text, later, loaded, hwrites, -⟩
      cases earlier <;> cases hwrites
    simp [after, hnone]
  | cons write rest ih =>
    have hstep : config.after (write :: rest) = (config.made write).2.after rest := rfl
    rw [hstep, ih, loadsBeyond_cons, List.forall_mem_cons]
    rcases made_cases config write with
      ⟨text, rfl, hloaded⟩ | ⟨hother, hsets, hwithin⟩ | ⟨hkeeps, hsame⟩
    · have hsets : (Write.load text).SetsBuffer := ⟨_, hloaded⟩
      simp [hloaded, hsets, or_comm]
    · simp [hother, hsets, hwithin]
    · have hfirst : ¬ ∃ text loaded, write = .load text ∧ ofText? text = some loaded ∧
          ¬ loaded.WithinLimits ∧ ∀ later ∈ rest, ¬ later.SetsBuffer := by
        rintro ⟨text, loaded, rfl, hloaded, -⟩
        exact hkeeps ⟨loaded, hloaded⟩
      have hlimits : (config.made write).2.WithinLimits ↔ config.WithinLimits := by
        rw [WithinLimits, WithinLimits, hsame]
      simp only [hfirst, hlimits, hkeeps, false_or, not_false_eq_true, true_and]

/-! ## Numbers of 64 bits -/

/-- The integer that digits without a sign stand for has 64 bits. -/
theorem toNat_lt_of_value? {numeral : Json.Numeral} {m : Int} (h : numeral.value? = some (.int m)) :
    m.toNat < Number.wordCount := by
  have hdouble : ∀ found, numeral.double?.map Json.float ≠ some (.int found) := by
    intro found
    cases numeral.double? <;> simp
  unfold Json.Numeral.value? at h
  dsimp only at h
  split at h
  · split at h
    · split at h
      · cases h
        omega
      · exact absurd h (hdouble m)
    · split at h
      · next hlt =>
        cases h
        exact hlt
      · exact absurd h (hdouble m)
  · exact absurd h (hdouble m)

theorem word_lt {depth n : Nat} {draft : Json.Draft} (h : Json.Decoder.word depth draft = some n) :
    n < Number.wordCount := by
  unfold Json.Decoder.word at h
  split at h
  · next numeral =>
    split at h
    · next m hvalue =>
      split at h
      · cases h
        exact toNat_lt_of_value? hvalue
      · cases h
    · cases h
  · cases h

/-- The number of rows of a loaded handoff has 64 bits. -/
theorem lt_of_ofText? (h : ofText? text = some config) :
    config.channelBuffer < Number.wordCount := by
  obtain ⟨draft, -, hdraft⟩ := Option.bind_eq_some_iff.mp h
  obtain ⟨found, -, hfields⟩ := Option.bind_eq_some_iff.mp hdraft
  obtain ⟨rows, hrows, hfields⟩ := Option.bind_eq_some_iff.mp hfields
  obtain ⟨disabled, -, hconfig⟩ := Option.bind_eq_some_iff.mp hfields
  cases hconfig
  unfold Json.Decoder.Record.optional at hrows
  split at hrows
  · exact word_lt hrows
  · cases hrows
    exact (by decide : default.channelBuffer < Number.wordCount)

/-- The number of rows of a handoff keeps its 64 bits. -/
theorem after_lt (h : config.channelBuffer < Number.wordCount) (writes : List Write) :
    (config.after writes).channelBuffer < Number.wordCount := by
  induction writes generalizing config with
  | nil => exact h
  | cons write rest ih =>
    apply ih
    rcases made_cases config write with ⟨text, -, hloaded⟩ | ⟨-, -, hwithin⟩ | ⟨-, hsame⟩
    · exact lt_of_ofText? hloaded
    · exact lt_of_le_of_lt hwithin.2 (by decide)
    · exact hsame ▸ h

/-! ## Settings and their texts -/

/-- A text without blanks is trimmed to itself. -/
theorem trim_eq_self {cs : List Char} (h : ∀ c ∈ cs, Text.isBlank c = false) :
    Text.trim cs = cs := by
  have hfront : ∀ cs : List Char, (∀ c ∈ cs, Text.isBlank c = false) →
      cs.dropWhile Text.isBlank = cs := by
    intro cs h
    cases cs with
    | nil => rfl
    | cons c rest => rw [List.dropWhile_cons_of_neg (by simp [h c List.mem_cons_self])]
  unfold Text.trim Text.trimStart Text.trimEnd
  rw [hfront cs h, hfront cs.reverse (by simpa using h), List.reverse_reverse]

/-- The digits of a number of 64 bits spell it. -/
theorem readWord?_digitsOf {n : Nat} (h : n < Number.wordCount) :
    readWord? (Number.digitsOf n) = some n := by
  have hdigits : (Number.digitsOf n).all Char.isDigit = true :=
    List.all_eq_true.mpr fun _ hc => Number.isDigit_of_mem_digitsOf hc
  have hspelled := Number.natural?_digitsOf n
  -- the first digit is no sign
  generalize Number.digitsOf n = digits at hdigits hspelled ⊢
  unfold readWord?
  split
  · next rest => cases hdigits
  · dsimp only
    rw [hspelled]
    exact if_pos h

/-- Every setting can be set to its own text, unless that is a number beyond the limits. -/
theorem changed_get (h : config.channelBuffer < Number.wordCount) (setting : Setting) :
    (Write.set setting.name (config.get setting)).changed config =
      if setting = .channelBuffer ∧ ¬ config.WithinLimits then
        .error (.setting (.plan "channel_buffer must be between 1 and 65536"))
      else .ok config := by
  rw [changed_set]
  cases setting with
  | channelBuffer =>
    have htext :
        Text.trim (config.get .channelBuffer).toList = Number.digitsOf config.channelBuffer := by
      have hdigits : (config.get .channelBuffer).toList = Number.digitsOf config.channelBuffer := by
        show (config.channelBuffer.repr).toList = _
        rw [Nat.repr_eq_ofList_toDigits, String.toList_ofList]
        rfl
      rw [hdigits]
      exact trim_eq_self fun c hc => Text.isBlank_of_isDigit (Number.isDigit_of_mem_digitsOf hc)
    have hread := readWord?_digitsOf h
    by_cases hlimits : config.WithinLimits
    · rw [if_neg (by simp [hlimits])]
      rw [set_channelBuffer_eq_ok.mpr ⟨_, htext ▸ hread, hlimits, rfl⟩]
      rfl
    · have hbeyond : ¬ (minChannelBuffer ≤ config.channelBuffer ∧
          config.channelBuffer ≤ maxChannelBuffer) := hlimits
      rw [if_pos ⟨rfl, hlimits⟩, set, htext, hread]
      dsimp only
      rw [if_neg hbeyond]
      rfl
  | disableRecover =>
    rw [if_neg (by simp), set_disableRecover_eq_ok.mpr ⟨config.disableRecover, ?_, rfl⟩]
    · rfl
    · have hread : ∀ disabled,
          readSwitch? (Text.trim (if disabled then "true" else "false").toList) =
          some disabled := by decide
      exact hread config.disableRecover

theorem get_of_getByName (h : config.getByName name = .ok text) :
    ∃ setting : Setting, name = setting.name ∧ text = config.get setting := by
  obtain ⟨setting, hname, htext⟩ := Result.bind_eq_ok.mp h
  cases htext
  exact ⟨setting, Setting.eq_name_of_ofName hname, rfl⟩

/-! ## The main statement -/

/-- **Configurations and their limits.** After any writes to the default configuration, a handoff
can hold from 1 to 65536 rows unless the last write that changed this number loaded another one. A
write that is refused changes nothing. A setting can be set to its own text, which changes nothing,
unless it is a number beyond the limits. -/
theorem written_within_limits (writes : List Write) :
    let config := default.after writes
    (config.WithinLimits ↔ ¬ LoadsBeyond writes) ∧
      (∀ write refusal, (config.made write).1 = .error refusal →
        (config.made write).2 = config) ∧
      ∀ name text, config.getByName name = .ok text →
        config.made (.set name text) =
          if name = Setting.channelBuffer.name ∧ ¬ config.WithinLimits then
            (.error (.setting (.plan "channel_buffer must be between 1 and 65536")), config)
          else (.ok (), config) := by
  intro config
  have hbits : config.channelBuffer < Number.wordCount := after_lt (by decide) writes
  refine ⟨?limits, ?refused, ?readBack⟩
  case limits =>
    have hiff := not_withinLimits_after_iff default writes
    have hdefault : default.WithinLimits := by decide
    simp only [hdefault, not_true_eq_false, false_and, or_false] at hiff
    exact (not_iff_comm.mp hiff).symm
  case refused =>
    intro write refusal h
    cases hchanged : write.changed config with
    | error other => rw [made_of_error hchanged]
    | ok other => rw [made_of_ok hchanged] at h; cases h
  case readBack =>
    intro name text h
    obtain ⟨setting, rfl, rfl⟩ := get_of_getByName h
    have hchanged := changed_get hbits setting
    have hname : setting.name = Setting.channelBuffer.name ↔ setting = .channelBuffer := by
      cases setting <;> decide
    simp only [hname]
    split
    · next hbeyond => exact made_of_error (hchanged.trans (if_pos hbeyond))
    · next hwithin => exact made_of_ok (hchanged.trans (if_neg hwithin))

/-- A number beyond the limits is loaded, and the setting cannot be set to its text. -/
theorem loaded_beyond_limits :
    default.made (.load "\x7b\"channel_buffer\": 65537\x7d") = (.ok (), ⟨65537, false⟩) ∧
      ¬ WithinLimits ⟨65537, false⟩ ∧
      getByName ⟨65537, false⟩ "channel_buffer" = .ok "65537" ∧
      (made ⟨65537, false⟩ (.set "channel_buffer" "65537")).1 =
        .error (.setting (.plan "channel_buffer must be between 1 and 65536")) := by
  decide +kernel

end Config
end SqlPipeline
