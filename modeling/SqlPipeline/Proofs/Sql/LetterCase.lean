import SqlPipeline.Proofs.Sql.Printing

/-!
# Letter case

Texts are often compared without regard to the case of ASCII letters. Lower case (`Text.folded`)
goes well with the lexer: a letter stays a letter and every other character stays itself, so a text
in lower case is cut where the text itself is cut. **In lower case a text has its tokens in lower
case** (`Lexes.folded`), and texts that differ only in the case of letters have tokens that differ
only in that.
-/

namespace SqlPipeline

namespace Text

/-! ## Letters of ASCII -/

def capitalLetters : List Char :=
  (List.range 26).map fun n => Char.ofNat (65 + n)

/-- A character is its own lower case in ASCII, unless it is a capital. -/
theorem toLower_eq_self_or_mem (c : Char) : c.toLower = c ∨ c ∈ capitalLetters := by
  by_cases h : 65 ≤ c.toNat ∧ c.toNat ≤ 90
  · refine .inr (List.mem_map.mpr ⟨c.toNat - 65, List.mem_range.mpr (by omega), ?_⟩)
    rw [Nat.add_sub_cancel' h.1, Char.ofNat_toNat]
  · refine .inl ?_
    unfold Char.toLower
    rw [dif_neg]
    exact h

theorem toLower_induction {p : Char → Char → Prop} (hself : ∀ c, p c c)
    (hcapital : ∀ c ∈ capitalLetters, p c c.toLower) (c : Char) : p c c.toLower := by
  rcases toLower_eq_self_or_mem c with h | h
  · rw [h]
    exact hself c
  · exact hcapital c h

variable (c : Char)

theorem isBlank_toLower : isBlank c.toLower = isBlank c :=
  toLower_induction (p := fun c d => isBlank d = isBlank c) (fun _ => rfl) (by decide) c

theorem isDigit_toLower : c.toLower.isDigit = c.isDigit :=
  toLower_induction (p := fun c d => d.isDigit = c.isDigit) (fun _ => rfl) (by decide) c

theorem isWordStart_toLower : isWordStart c.toLower = isWordStart c :=
  toLower_induction (p := fun c d => isWordStart d = isWordStart c) (fun _ => rfl)
    (by decide +kernel) c

theorem isWordPart_toLower : isWordPart c.toLower = isWordPart c :=
  toLower_induction (p := fun c d => isWordPart d = isWordPart c) (fun _ => rfl)
    (by decide +kernel) c

theorem toUpper_toLower : c.toLower.toUpper = c.toUpper :=
  toLower_induction (p := fun c d => d.toUpper = c.toUpper) (fun _ => rfl) (by decide) c

theorem toLower_toLower : c.toLower.toLower = c.toLower := by
  have hcapitals : ∀ c ∈ capitalLetters, c.toLower.toLower = c.toLower := by decide
  rcases toLower_eq_self_or_mem c with h | h
  · rw [h, h]
  · exact hcapitals c h

/-- Only the character itself is lowered to one that is no letter. -/
theorem toLower_eq_iff {d : Char} (hd : d.isAlpha = false) : c.toLower = d ↔ c = d := by
  refine toLower_induction (p := fun c e => e = d ↔ c = d) (fun _ => Iff.rfl) (fun c hc => ?_) c
  have hletters : ∀ c ∈ capitalLetters, c.isAlpha = true ∧ c.toLower.isAlpha = true := by decide
  obtain ⟨hcapital, hsmall⟩ := hletters c hc
  exact iff_of_false (by rintro rfl; simp [hd] at hsmall) (by rintro rfl; simp [hd] at hcapital)

theorem toLower_of_not_isAlpha {d : Char} (hd : d.isAlpha = false) : d.toLower = d :=
  (toLower_eq_iff d hd).mpr rfl

theorem byteLength_toLower (cs : List Char) : byteLength (cs.map Char.toLower) = byteLength cs := by
  have hsize (c : Char) : c.toLower.utf8Size = c.utf8Size :=
    toLower_induction (p := fun c d => d.utf8Size = c.utf8Size) (fun _ => rfl) (by decide) c
  induction cs with
  | nil => rfl
  | cons c cs ih => rw [List.map_cons, byteLength_cons, byteLength_cons, hsize, ih]

/-! ## Texts in lower case -/

def folded (s : String) : String :=
  String.ofList (asciiLower s)

@[simp] theorem toList_folded (s : String) : (folded s).toList = s.toList.map Char.toLower :=
  String.toList_ofList

theorem folded_eq_iff {s t : String} : folded s = folded t ↔ sameAsciiCase s t = true := by
  rw [sameAsciiCase, beq_iff_eq]
  exact ⟨fun h => String.ofList_injective h, congrArg String.ofList⟩

@[simp] theorem folded_append (s t : String) : folded (s ++ t) = folded s ++ folded t := by
  apply String.toList_injective
  simp

theorem lower_of_ascii {s : String} (h : ∀ c ∈ s.toList, c.toNat < 0x80) : lower s = folded s := by
  apply String.toList_injective
  rw [toList_lower_ascii h, toList_folded]

/-- Names that differ only in the case of ASCII letters have the same lower case. -/
theorem lower_folded (s : String) : lower (folded s) = lower s := by
  have hignorable (c : Char) : isCaseIgnorable c.toLower = isCaseIgnorable c :=
    toLower_induction (p := fun c d => isCaseIgnorable d = isCaseIgnorable c) (fun _ => rfl)
      (by decide) c
  have hcased (c : Char) : isCased c.toLower = isCased c :=
    toLower_induction (p := fun c d => isCased d = isCased c) (fun _ => rfl) (by decide) c
  have hsigma (c : Char) : (c.toLower == 'Σ') = (c == 'Σ') :=
    toLower_induction (p := fun c d => (d == 'Σ') = (c == 'Σ')) (fun _ => rfl) (by decide) c
  have hlower (c : Char) : lowerChar c.toLower = lowerChar c :=
    toLower_induction (p := fun c d => lowerChar d = lowerChar c) (fun _ => rfl) (by decide) c
  have hmeets (cs : List Char) : meetsCased (cs.map Char.toLower) = meetsCased cs := by
    induction cs with
    | nil => rfl
    | cons c cs ih =>
      unfold meetsCased at ih ⊢
      rw [List.map_cons, List.dropWhile_cons, List.dropWhile_cons, hignorable]
      by_cases hc : isCaseIgnorable c = true
      · rw [if_pos hc, if_pos hc]
        exact ih
      · rw [if_neg hc, if_neg hc]
        exact hcased c
  have hafter : ∀ before cs : List Char,
      lowerAfter (before.map Char.toLower) (cs.map Char.toLower) = lowerAfter before cs := by
    intro before cs
    induction cs generalizing before with
    | nil => rfl
    | cons c cs ih =>
      rw [List.map_cons, lowerAfter, lowerAfter, hsigma, hlower, hmeets, hmeets]
      rw [← ih (c :: before), List.map_cons]
  unfold lower
  rw [toList_folded]
  exact congrArg String.ofList (hafter [] s.toList)

/-! ## Capitals do not survive being lowered -/

/-- A number that is no code point stands for the character of code point zero. -/
theorem toNat_ofNat (n : Nat) : (Char.ofNat n).toNat = n ∨ (Char.ofNat n).toNat = 0 := by
  by_cases hvalid : n.isValidChar
  · rw [Char.ofNat, dif_pos hvalid]
    exact .inl rfl
  · rw [Char.ofNat, dif_neg hvalid]
    exact .inr rfl

/-- No character beyond the capitals of ASCII is a capital of ASCII. -/
theorem toLower_ofNat {n : Nat} (h : 90 < n) : (Char.ofNat n).toLower = Char.ofNat n := by
  have hcapitals : ∀ c ∈ capitalLetters, 0 < c.toNat ∧ c.toNat ≤ 90 := by decide
  rcases toLower_eq_self_or_mem (Char.ofNat n) with hself | hmem
  · exact hself
  · have := hcapitals _ hmem
    have := toNat_ofNat n
    omega

/-- No run leads from outside ASCII to a capital of ASCII. -/
theorem shifted_above_capitals :
    ∀ run ∈ lowerRuns, 90 < (run.1 : Int) + run.2.2.2 := by
  decide +kernel

theorem exists_shiftChar {c : Char} (h : 90 < c.toNat) :
    ∃ n, 90 < n ∧ shiftChar lowerRuns c = Char.ofNat n := by
  unfold shiftChar shiftIn
  cases hrun : lowerRuns.find? _ with
  | none => exact ⟨c.toNat, h, (Char.ofNat_toNat c).symm⟩
  | some run =>
    have habove := shifted_above_capitals run (List.mem_of_find?_eq_some hrun)
    obtain ⟨first, last, step, shift⟩ := run
    dsimp only at habove
    have hin := List.find?_some hrun
    simp only [Bool.and_eq_true, decide_eq_true_eq] at hin
    refine ⟨((c.toNat : Int) + shift).toNat, ?_, rfl⟩
    omega

theorem toLower_shiftChar {c : Char} (h : 90 < c.toNat) :
    (shiftChar lowerRuns c).toLower = shiftChar lowerRuns c := by
  obtain ⟨n, hn, heq⟩ := exists_shiftChar h
  rw [heq]
  exact toLower_ofNat hn

theorem toLower_of_mem_lowerChar {c d : Char} (h : d ∈ lowerChar c) : d.toLower = d := by
  unfold lowerChar at h
  split at h
  · rw [List.mem_singleton.mp h, toLower_toLower]
  · split at h
    · exact (by decide : ∀ d ∈ ['i', '\u0307'], d.toLower = d) d h
    · next hascii _ =>
      rw [List.mem_singleton.mp h]
      exact toLower_shiftChar (by omega)

/-- A text in lower case has no capitals of ASCII. -/
theorem folded_lower (s : String) : folded (lower s) = lower s := by
  have hafter : ∀ before cs : List Char, ∀ c ∈ lowerAfter before cs, c.toLower = c := by
    intro before cs
    induction cs generalizing before with
    | nil => exact fun c hc => nomatch hc
    | cons d cs ih =>
      intro c hc
      rw [lowerAfter, List.mem_append] at hc
      rcases hc with hc | hc
      · split at hc
        · rw [List.mem_singleton] at hc
          subst hc
          split <;> decide
        · exact toLower_of_mem_lowerChar hc
      · exact ih _ c hc
  apply String.toList_injective
  rw [toList_folded, lower, String.toList_ofList]
  exact (List.map_congr_left (hafter [] s.toList)).trans (List.map_id' _)

/-! ## Signs come only from themselves -/

/-- What stands before the letters in ASCII is lowered from nothing else. -/
theorem eq_of_mem_lowerChar {c d : Char} (h : d ∈ lowerChar c) (hpos : 0 < d.toNat)
    (hd : d.toNat < 65) : c = d := by
  have halpha : d.isAlpha = false := by
    have hall : ∀ n < 65, (Char.ofNat n).isAlpha = false := by decide
    have hd := hall d.toNat hd
    rwa [Char.ofNat_toNat] at hd
  unfold lowerChar at h
  split at h
  · exact (toLower_eq_iff c halpha).mp (List.mem_singleton.mp h).symm
  · split at h
    · exact absurd hd ((by decide : ∀ d ∈ ['i', '\u0307'], ¬d.toNat < 65) d h)
    · next hascii _ =>
      obtain ⟨n, hn, heq⟩ := exists_shiftChar (c := c) (by omega)
      rw [List.mem_singleton.mp h, heq] at hpos hd
      have := toNat_ofNat n
      omega

theorem mem_of_mem_lower {s : String} {d : Char} (h : d ∈ (lower s).toList) (hpos : 0 < d.toNat)
    (hd : d.toNat < 65) : d ∈ s.toList := by
  have hafter : ∀ before cs : List Char, d ∈ lowerAfter before cs → d ∈ cs := by
    intro before cs
    induction cs generalizing before with
    | nil => exact id
    | cons c cs ih =>
      intro h
      rw [lowerAfter, List.mem_append] at h
      rcases h with h | h
      · split at h
        · rw [List.mem_singleton] at h
          subst h
          exfalso
          revert hd
          split <;> decide
        · exact eq_of_mem_lowerChar h hpos hd ▸ List.mem_cons_self
      · exact List.mem_cons_of_mem _ (ih _ h)
  rw [lower, String.toList_ofList] at h
  exact hafter [] s.toList h

end Text

namespace Sql

/-! ## Words and numbers in lower case -/

theorem isWord_toLower {word : List Char} (h : IsWord word) :
    IsWord (word.map Char.toLower) := by
  cases word with
  | nil => exact h
  | cons c cs =>
    refine ⟨(Text.isWordStart_toLower c).trans h.1, fun d hd => ?_⟩
    obtain ⟨e, he, rfl⟩ := List.mem_map.mp hd
    exact (Text.isWordPart_toLower e).trans (h.2 e he)

theorem IsNumber.map_toLower {digits : List Char} (h : IsNumber digits) :
    digits.map Char.toLower = digits := by
  have hsame : ∀ c ∈ digits, c.toLower = c := by
    intro c hc
    rcases h.mem hc with hdigit | rfl
    · have hall : ∀ d ∈ ['0', '1', '2', '3', '4', '5', '6', '7', '8', '9'], d.toLower = d := by
        decide
      exact hall c (Text.mem_digits_of_isDigit hdigit)
    · rfl
  rw [List.map_congr_left hsame, List.map_id']

theorem Keyword.ofWord?_toLower (word : List Char) :
    ofWord? (word.map Char.toLower) = ofWord? word := by
  have hword : (word.map Char.toLower).map Char.toUpper = word.map Char.toUpper := by
    rw [List.map_map]
    exact List.map_congr_left fun c _ => Text.toUpper_toLower c
  rw [ofWord?, hword, ofWord?]

/-! ## Tokens -/

/-- A token with its ASCII letters in lower case. A keyword stays the keyword it is. -/
def Token.folded : Token → Token
  | word w => word { w with value := Text.folded w.value }
  | string value => string (Text.folded value)
  | token => token

namespace Token

variable {token : Token}

@[simp] theorem keyword?_folded : token.folded.keyword? = token.keyword? := by
  cases token <;> rfl

@[simp] theorem reserved?_folded : token.folded.reserved? = token.reserved? := by
  rw [reserved?, keyword?_folded, reserved?]

theorem Lexed.folded (h : token.Lexed) : token.folded.Lexed := by
  match token, h with
  | .word ⟨value, true, keyword⟩, h => exact h
  | .word ⟨value, false, keyword⟩, h =>
    obtain ⟨hword, rfl⟩ : IsWord value.toList ∧ keyword = Keyword.ofWord? value.toList := h
    refine ⟨?_, ?_⟩
    · rw [Text.toList_folded]
      exact isWord_toLower hword
    · rw [Text.toList_folded, Keyword.ofWord?_toLower]
  | .number _, h => exact h
  | .string _, _ | .sign _, _ => trivial

/-- Quotes are written twice in lower case as well. -/
theorem enquote_folded {quote : Char} (hquote : quote.isAlpha = false) (value : String) :
    (Text.enquote quote (Text.folded value)).toList =
      (Text.enquote quote value).toList.map Char.toLower := by
  have hdoubled : ∀ cs : List Char, Segment.doubled quote (cs.map Char.toLower) =
      (Segment.doubled quote cs).map Char.toLower := by
    intro cs
    induction cs with
    | nil => rfl
    | cons c cs ih =>
      by_cases hc : c = quote
      · subst hc
        rw [List.map_cons, Text.toLower_of_not_isAlpha hquote, Segment.doubled_cons_self,
          Segment.doubled_cons_self, ih, List.map_cons, List.map_cons,
          Text.toLower_of_not_isAlpha hquote]
      · rw [List.map_cons, Segment.doubled_cons_of_ne ((Text.toLower_eq_iff c hquote).not.mpr hc),
          Segment.doubled_cons_of_ne hc, ih, List.map_cons]
  rw [Segment.toList_enquote, Segment.toList_enquote, Text.toList_folded, hdoubled]
  simp [Text.toLower_of_not_isAlpha hquote]

theorem spelling_folded (h : token.Lexed) :
    token.folded.spelling = token.spelling.map Char.toLower := by
  match token, h with
  | .word ⟨value, true, keyword⟩, _ => exact enquote_folded (by decide) value
  | .word ⟨value, false, keyword⟩, _ => exact Text.toList_folded value
  | .number digits, h => exact (IsNumber.map_toLower h).symm
  | .string value, _ => exact enquote_folded (by decide) value
  | .sign s, _ => cases s <;> decide

theorem spellings_folded (h : token.Lexed) {text : List Char} (htext : text ∈ token.spellings) :
    text.map Char.toLower ∈ token.folded.spellings := by
  match token, h with
  | .sign s, _ =>
    have hall : ∀ text ∈ (Token.sign s).spellings,
        text.map Char.toLower ∈ (Token.sign s).spellings := by
      cases s <;> decide
    exact hall text htext
  | .word w, h =>
    rw [List.mem_singleton.mp htext, ← spelling_folded h]
    exact spelling_mem_spellings _
  | .number digits, h =>
    rw [List.mem_singleton.mp htext, ← spelling_folded h]
    exact spelling_mem_spellings _
  | .string value, h =>
    rw [List.mem_singleton.mp htext, ← spelling_folded h]
    exact spelling_mem_spellings _

theorem isContinuedBy_folded (h : token.Lexed) {text : List Char}
    (htext : text ∈ token.spellings) (c : Char) :
    token.folded.isContinuedBy c.toLower (text.map Char.toLower) = token.isContinuedBy c text := by
  have hbeq {d : Char} (hd : d.isAlpha = false) : (c.toLower == d) = (c == d) := by
    rw [Bool.eq_iff_iff, beq_iff_eq, beq_iff_eq, Text.toLower_eq_iff c hd]
  match token, h with
  | .word ⟨value, true, keyword⟩, _ => exact hbeq (by decide)
  | .word ⟨value, false, keyword⟩, _ => exact Text.isWordPart_toLower c
  | .number digits, _ =>
    show (c.toLower.isDigit || (c.toLower == '.' && !digits.toList.contains '.')) = _
    rw [Text.isDigit_toLower, hbeq (by decide)]
    rfl
  | .string value, _ => exact hbeq (by decide)
  | .sign s, _ =>
    have hall : ∀ text ∈ (Token.sign s).spellings, text.map Char.toLower = text := by
      cases s <;> decide
    show signGoesOn c.toLower (text.map Char.toLower) = signGoesOn c text
    rw [hall text htext]
    have heq := hbeq (d := '=') (by decide)
    have hgt := hbeq (d := '>') (by decide)
    have hminus := hbeq (d := '-') (by decide)
    simp only [signGoesOn, heq, hgt, hminus]

end Token

/-! ## Texts -/

def Segment.folded : Segment → Segment
  | trivia text => trivia (text.map Char.toLower)
  | lexeme text token => lexeme (text.map Char.toLower) token.folded

theorem Segment.Before.folded {segment : Segment} {rest : List Char} (h : segment.Before rest) :
    segment.folded.Before (rest.map Char.toLower) := by
  have hhead {p : Char → Prop} (hrest : ∀ c ∈ rest.head?, p c) (q : Char → Prop)
      (hp : ∀ c, p c → q c.toLower) : ∀ c ∈ (rest.map Char.toLower).head?, q c := by
    intro c hc
    rw [List.head?_map] at hc
    obtain ⟨d, hd, rfl⟩ := Option.map_eq_some_iff.mp hc
    exact hp d (hrest d hd)
  cases h with
  | blanks hne hall hrest =>
    refine .blanks (by simpa using hne) (fun b hb => ?_)
      (hhead hrest _ fun c hc => (Text.isBlank_toLower c).trans hc)
    obtain ⟨c, hc, rfl⟩ := List.mem_map.mp hb
    exact (Text.isBlank_toLower c).trans (hall c hc)
  | comment hall hrest =>
    refine .comment (fun hmem => hall ?_) (hhead hrest _ fun c hc => ?_)
    · obtain ⟨c, hc, heq⟩ := List.mem_map.mp hmem
      rwa [(Text.toLower_eq_iff c (by decide)).mp heq] at hc
    · exact (Text.toLower_eq_iff c (by decide)).mpr hc
  | token hlexed htext hrest =>
    refine .token hlexed.folded (Token.spellings_folded hlexed htext) (hhead hrest _ fun c hc => ?_)
    exact (Token.isContinuedBy_folded hlexed htext c).trans hc

/-- **In lower case a text has its tokens in lower case.** -/
theorem Lexes.folded {offset : Nat} {text rest : List Char} {tokens : List Located}
    (h : Lexes offset text tokens rest) :
    Lexes offset (text.map Char.toLower) (tokens.map fun t => ⟨t.token.folded, t.offset⟩)
      (rest.map Char.toLower) := by
  induction h with
  | done => exact .done
  | trivia h _ ih =>
    have hbefore := h.folded
    rw [List.map_append] at hbefore ⊢
    refine .trivia hbefore ?_
    rwa [Text.byteLength_toLower]
  | token h _ ih =>
    have hbefore := h.folded
    rw [List.map_append] at hbefore ⊢
    refine .token hbefore ?_
    rwa [Text.byteLength_toLower]

/-- A text has only one list of tokens. -/
theorem Lexes.unique {text : List Char} {tokens others : List Located}
    (h : Lexes 0 text tokens []) (hothers : Lexes 0 text others []) : tokens = others := by
  rw [← String.toList_ofList (l := text), ← tokenize_eq_ok_iff] at h hothers
  exact Except.ok.inj (h.symm.trans hothers)

end Sql
end SqlPipeline
