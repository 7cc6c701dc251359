import SqlPipeline.Proofs.Network.Invariant

/-!
# Processes are never stuck

As long as a process of a tree is not done, one of them can do something, or a row of the job can be
taken (`Net.progress`, `Net.Delivers.advances`): a process that a join does not listen to only fills
up its channel and waits, and the one it listens to does not. Every move leaves less to be done
(`Net.Moves.weight_lt`), so that a run ends after finitely many of them, whatever their order; and
when it ends, the reader has all rows (`Net.Delivers.ended`).
-/

namespace SqlPipeline

/-- What a sending side has to do before its process goes on: rows to send, and an end to give up. -/
def Sender.weight (out : Sender) : Nat :=
  out.pending.length + out.channel.isOpen.toNat

theorem Sender.weight_of_send? {capacity : Nat} {out after : Sender}
    (h : out.send? capacity = some after) : out.weight = after.weight + 1 := by
  obtain ⟨row, rest, hpending, hopen, rfl⟩ := Sender.send?_eq_some h
  simp only [Sender.weight, Channel.push, hpending, hopen, List.length_cons, Bool.toNat_true]

theorem Sender.weight_close {out : Sender} (h : out.channel.isOpen = true) :
    out.weight = out.close.weight + 1 := by
  simp only [Sender.weight, Sender.close, Channel.close, h, Bool.toNat_true, Bool.toNat_false]

/-- How many inputs a join has to find ended. -/
def Merge.weight : Merge → Nat
  | .buffering _ => 2
  | .streaming _ => 1
  | .ended => 0

namespace Net

variable {capacity : Nat} {net after : Net} {rows : List Row}

/-! ### There is always something to do -/

/-- If there is no room on the channel of a tree, there is something to receive. -/
theorem exists_pull?_of_full (hcapacity : 0 < capacity)
    (hfull : capacity ≤ net.channel.queue.length) :
    ∃ message rest, net.channel.pull? = some (message, rest) := by
  apply Channel.exists_pull?
  intro hnone
  rw [hnone] at hfull
  exact absurd (Nat.lt_of_lt_of_le hcapacity hfull) (Nat.lt_irrefl 0)

/-- A process that has something to send sends it if there is room. -/
theorem send_or_full {row : Row} {rest : List Row} (hsound : net.Sound)
    (hpending : net.out.pending = row :: rest) :
    (∃ after, Moves capacity net after) ∨ capacity ≤ net.channel.queue.length := by
  have hopen : net.out.channel.isOpen = true := by
    rw [← Bool.not_eq_false]
    intro hclosed
    rw [(hsound.out.closed hclosed).2] at hpending
    cases hpending
  by_cases hroom : net.channel.queue.length < capacity
  · left
    have hsend : net.out.send? capacity =
        some ⟨rest, net.out.nextId + 1, net.out.channel.push ⟨net.out.nextId, row⟩⟩ := by
      unfold Sender.send?
      rw [hpending]
      exact if_pos ⟨hopen, hroom⟩
    exact ⟨_, .send hsend⟩
  · exact .inr (Nat.le_of_not_lt hroom)

/-- A process that waits for its input finds that it has ended, receives something, or has its input
do something. -/
theorem input_moves (hcapacity : 0 < capacity)
    (h : net.channel.isOpen = false ∨ (∃ after, Moves capacity net after) ∨
      capacity ≤ net.channel.queue.length) :
    net.channel.IsOver ∨ (∃ message rest, net.channel.pull? = some (message, rest)) ∨
      ∃ after, Moves capacity net after := by
  by_cases hqueue : net.channel.queue = []
  · rcases h with hclosed | hmoves | hfull
    · exact .inl ⟨hclosed, hqueue⟩
    · exact .inr (.inr hmoves)
    · exact .inr (.inl (exists_pull?_of_full hcapacity hfull))
  · exact .inr (.inl (Channel.exists_pull? hqueue))

/-- **A tree of processes is never stuck.** Unless its first process has given up its sending end,
one of its processes can do something, or there is no room on the channel out of the tree. -/
theorem progress (hcapacity : 0 < capacity) :
    ∀ {net : Net}, net.Sound → net.Safe →
      net.channel.isOpen = false ∨ (∃ after, Moves capacity net after) ∨
        capacity ≤ net.channel.queue.length := by
  intro net
  induction net with
  | source out =>
    intro hsound hsafe
    cases hpending : out.pending with
    | cons row rest => exact .inr (send_or_full hsound hpending)
    | nil =>
      cases hopen : out.channel.isOpen with
      | false => exact .inl hopen
      | true => exact .inr (.inl ⟨_, .close rfl hpending hopen⟩)
  | turning stage state out input ih =>
    intro hsound hsafe
    cases hpending : out.pending with
    | cons row rest => exact .inr (send_or_full hsound hpending)
    | nil =>
      cases state with
      | none =>
        cases hopen : out.channel.isOpen with
        | false => exact .inl hopen
        | true => exact .inr (.inl ⟨_, .close rfl hpending hopen⟩)
      | some state =>
        right
        left
        rcases input_moves hcapacity (ih hsound.2.2 hsafe.2) with hover | ⟨message, rest, hpull⟩ |
          ⟨after, hmoves⟩
        · exact ⟨_, .finish hpending hover⟩
        · -- the stage does not fail on what it receives, since it will not fail at all
          have hrun := hsafe.1
          rw [coming_of_pull? hpull] at hrun
          obtain ⟨rows, next, hstep⟩ := Stage.exists_step hrun
          exact ⟨_, .receive hpending hpull hstep⟩
        · exact ⟨_, .input hmoves⟩
  | joining kind on rightWidth phase out left right ihleft ihright =>
    intro hsound hsafe
    obtain ⟨hout, -, -, hleft, hright⟩ := id hsound
    cases hpending : out.pending with
    | cons row rest => exact .inr (send_or_full hsound hpending)
    | nil =>
      cases phase with
      | ended =>
        cases hopen : out.channel.isOpen with
        | false => exact .inl hopen
        | true => exact .inr (.inl ⟨_, .close rfl hpending hopen⟩)
      | buffering rights =>
        -- the left side may have to wait, but only the right side is listened to
        right
        left
        rcases input_moves hcapacity (ihright hright hsafe.2.2) with hover |
          ⟨message, rest, hpull⟩ | ⟨after, hmoves⟩
        · exact ⟨_, .endRight hover⟩
        · exact ⟨_, .receiveRight hpull⟩
        · exact ⟨_, .right hmoves⟩
      | streaming rights =>
        right
        left
        rcases input_moves hcapacity (ihleft hleft hsafe.2.1) with hover |
          ⟨message, rest, hpull⟩ | ⟨after, hmoves⟩
        · exact ⟨_, .endLeft hpending hover⟩
        · have hrun := hsafe.1
          rw [coming_of_pull? hpull] at hrun
          obtain ⟨rows, next, hstep⟩ := Stage.exists_step hrun
          exact ⟨_, .receiveLeft hpending hpull hstep⟩
        · exact ⟨_, .left hmoves⟩

/-! ### When everything is done -/

/-- When the first process of a tree has given up its sending end, so have all others, and all that
was sent between them was received. -/
theorem Sound.closed :
    ∀ {net : Net}, net.Sound → net.channel.isOpen = false →
      ∀ channel ∈ net.channels,
        channel.isOpen = false ∧ (channel = net.channel ∨ channel.queue = []) := by
  -- an input that is over is closed, and nothing is left on its channel
  have hinputs : ∀ {input : Net}, input.channel.IsOver →
      (∀ channel ∈ input.channels,
        channel.isOpen = false ∧ (channel = input.channel ∨ channel.queue = [])) →
      ∀ channel ∈ input.channels, channel.isOpen = false ∧ channel.queue = [] := by
    intro input hover h channel hchannel
    obtain ⟨hclosed, rfl | hqueue⟩ := h channel hchannel
    · exact hover
    · exact ⟨hclosed, hqueue⟩
  intro net
  induction net with
  | source out =>
    intro hsound hclosed channel hchannel
    rw [List.mem_singleton.mp hchannel]
    exact ⟨hclosed, .inl rfl⟩
  | turning stage state out input ih =>
    intro hsound hclosed channel hchannel
    have hnone : state = none := by simpa using (hsound.1.closed hclosed).1
    have hover := hsound.2.1 hnone
    rcases List.mem_cons.mp hchannel with rfl | hbelow
    · exact ⟨hclosed, .inl rfl⟩
    · obtain ⟨hopen, hqueue⟩ := hinputs hover (ih hsound.2.2 hover.1) channel hbelow
      exact ⟨hopen, .inr hqueue⟩
  | joining kind on rightWidth phase out left right ihleft ihright =>
    intro hsound hclosed channel hchannel
    obtain ⟨hout, hstreaming, hended, hleft, hright⟩ := hsound
    have hphase : phase = .ended := by simpa using (hout.closed hclosed).1
    have hleftOver := hended hphase
    have hrightOver := hstreaming (by rw [hphase]; simp)
    rcases List.mem_cons.mp hchannel with rfl | hbelow
    · exact ⟨hclosed, .inl rfl⟩
    · rcases List.mem_append.mp hbelow with hbelow | hbelow
      · obtain ⟨hopen, hqueue⟩ := hinputs hleftOver (ihleft hleft hleftOver.1) channel hbelow
        exact ⟨hopen, .inr hqueue⟩
      · obtain ⟨hopen, hqueue⟩ := hinputs hrightOver (ihright hright hrightOver.1) channel hbelow
        exact ⟨hopen, .inr hqueue⟩

/-- All channels of a sound tree are in order. -/
theorem Sound.ordered : ∀ {net : Net}, net.Sound → ∀ channel ∈ net.channels, channel.Ordered := by
  intro net
  induction net with
  | source out =>
    intro hsound channel hchannel
    rw [List.mem_singleton.mp hchannel]
    exact Sender.Sound.ordered hsound
  | turning stage state out input ih =>
    intro hsound channel hchannel
    rcases List.mem_cons.mp hchannel with rfl | hbelow
    · exact hsound.1.ordered
    · exact ih hsound.2.2 channel hbelow
  | joining kind on rightWidth phase out left right ihleft ihright =>
    intro hsound channel hchannel
    rcases List.mem_cons.mp hchannel with rfl | hbelow
    · exact hsound.1.ordered
    · rcases List.mem_append.mp hbelow with hbelow | hbelow
      · exact ihleft hsound.2.2.2.1 channel hbelow
      · exact ihright hsound.2.2.2.2 channel hbelow

/-- As long as some process is not done, something can happen. -/
theorem Delivers.advances (hcapacity : 0 < capacity) (hnet : net.Delivers rows)
    (h : ¬net.Finished ∨ net.channel.queue ≠ []) : ∃ after, Advances capacity net after := by
  by_cases hqueue : net.channel.queue = []
  · have hunfinished : ¬net.Finished := h.resolve_right (not_not_intro hqueue)
    rcases progress hcapacity hnet.sound hnet.safe with hclosed | ⟨after, hmoves⟩ | hfull
    · exact absurd (fun channel hchannel => (hnet.sound.closed hclosed channel hchannel).1)
        hunfinished
    · exact ⟨after, .moves hmoves⟩
    · obtain ⟨message, rest, hpull⟩ := exists_pull?_of_full hcapacity hfull
      exact ⟨_, .drain hpull⟩
  · obtain ⟨message, rest, hpull⟩ := Channel.exists_pull? hqueue
    exact ⟨_, .drain hpull⟩

/-- When nothing can happen any more, all processes are done, all that was sent was received, and the
reader has all rows. -/
theorem Delivers.ended (hcapacity : 0 < capacity) (hnet : net.Delivers rows)
    (hstuck : ∀ after, ¬Advances capacity net after) :
    net.Finished ∧ (∀ channel ∈ net.channels, channel.received = channel.sent) ∧
      net.channel.received.map Message.row = rows := by
  have hfinished : net.Finished := by
    by_contra hunfinished
    obtain ⟨after, hadvances⟩ := hnet.advances hcapacity (.inl hunfinished)
    exact hstuck after hadvances
  have hqueue : net.channel.queue = [] := by
    by_contra hleft
    obtain ⟨after, hadvances⟩ := hnet.advances hcapacity (.inr hleft)
    exact hstuck after hadvances
  have hclosed : net.channel.isOpen = false := by
    apply hfinished
    cases net <;> simp [channels, channel, Net.out]
  refine ⟨hfinished, ?_, ?_⟩
  · intro channel hchannel
    have hnone : channel.queue = [] := by
      rcases (hnet.sound.closed hclosed channel hchannel).2 with rfl | hnone
      · exact hqueue
      · exact hnone
    rw [(hnet.sound.ordered channel hchannel).sent_eq, hnone, List.append_nil]
  · rw [← hnet.total_eq, hnet.sound.coming_of_isOver ⟨hclosed, hqueue⟩, List.append_nil]

/-! ### Less and less is left to be done -/

/-- What is left to be done in a tree: each process has rows to send, now and later, rows to receive,
inputs to find ended, and a sending end to give up. -/
def weight : Net → Nat
  | source out => out.weight
  | turning stage state out input =>
    out.weight + (stage.runOn state input.coming).1.length + state.isSome.toNat +
      (input.coming.length + input.weight)
  | joining kind on rightWidth phase out left right =>
    out.weight + (phase.runOn kind on rightWidth left.coming right.coming).1.length + phase.weight +
      (left.coming.length + left.weight) + (right.coming.length + right.weight)

theorem weight_withOut (out : Sender) (net : Net) :
    (net.withOut out).weight + net.out.weight = net.weight + out.weight := by
  cases net with
  | source old =>
    show out.weight + old.weight = old.weight + out.weight
    omega
  | turning stage state old input =>
    simp only [withOut, weight, Net.out]
    omega
  | joining kind on rightWidth phase old left right =>
    simp only [withOut, weight, Net.out]
    omega

/-- Receiving from a tree leaves its processes as much to do. -/
theorem weight_of_pull? {message : Message} {rest : Channel}
    (hpull : net.channel.pull? = some (message, rest)) :
    (net.withChannel rest).weight = net.weight := by
  have hout : ({ net.out with channel := rest } : Sender).weight = net.out.weight := by
    have hopen : rest.isOpen = net.out.channel.isOpen := Channel.isOpen_of_pull? hpull
    rw [Sender.weight, Sender.weight, hopen]
  have hweight := weight_withOut { net.out with channel := rest } net
  rw [hout] at hweight
  exact Nat.add_right_cancel hweight

theorem length_coming_of_pull? {message : Message} {rest : Channel}
    (hpull : net.channel.pull? = some (message, rest)) :
    net.coming.length = (net.withChannel rest).coming.length + 1 := by
  rw [coming_of_pull? hpull, List.length_cons]

/-- What a stage passes on for the first of its rows, it need not pass on later. -/
theorem length_runFrom {σ : Type} {stage : Stage σ} {state next : σ} {message : Message}
    {rest : Channel} {made : List Row} (hpull : net.channel.pull? = some (message, rest))
    (hstep : stage.step state message.row = (made, .ok next)) :
    (stage.runFrom state net.coming).1.length =
      made.length + (stage.runFrom next (net.withChannel rest).coming).1.length := by
  rw [coming_of_pull? hpull, Stage.runFrom_cons hstep, List.length_append]

/-- **A move leaves less to be done.** -/
theorem Moves.weight_lt (h : Moves capacity net after) (hsound : net.Sound) (hsafe : net.Safe) :
    after.weight < net.weight := by
  induction h with
  | @send net out hsend =>
    have hweight := weight_withOut out net
    have hless := Sender.weight_of_send? hsend
    omega
  | @close net hdone hsent hopen =>
    have hweight := weight_withOut net.out.close net
    have hless := Sender.weight_close hopen
    omega
  | @receive σ stage state next out input message rest rows hsent hpull hstep =>
    have hmade := length_runFrom hpull hstep
    have hcoming := length_coming_of_pull? hpull
    have hweight := weight_of_pull? hpull
    simp only [weight, Sender.weight, Sender.load, Stage.runOn, Option.isSome_some, hsent,
      List.length_nil, hweight, hmade, hcoming]
    omega
  | @finish σ stage state out input hsent hover =>
    have hnone : input.coming = [] := hsound.2.2.coming_of_isOver hover
    simp only [weight, Sender.weight, Sender.load, Stage.runOn, Option.isSome_some,
      Option.isSome_none, hsent, hnone, Stage.runFrom_nil, List.length_nil, Bool.toNat_true,
      Bool.toNat_false]
    omega
  | @receiveRight kind on rightWidth rights out left right message rest hpull =>
    have hcoming := length_coming_of_pull? hpull
    have hweight := weight_of_pull? hpull
    simp only [weight, Merge.runOn, Merge.weight, hweight, ← append_coming_of_pull? rights hpull]
    omega
  | @endRight kind on rightWidth rights out left right hover =>
    have hnone : right.coming = [] := hsound.2.2.2.2.coming_of_isOver hover
    simp only [weight, Merge.runOn, Merge.weight, hnone, List.append_nil]
    omega
  | @receiveLeft kind on rightWidth rights out left right message rest rows hsent hpull hstep =>
    have hmade := length_runFrom hpull hstep
    have hcoming := length_coming_of_pull? hpull
    have hweight := weight_of_pull? hpull
    simp only [weight, Sender.weight, Sender.load, Merge.runOn, hsent, List.length_nil, hweight,
      hmade, hcoming]
    omega
  | @endLeft kind on rightWidth rights out left right hsent hover =>
    simp only [weight, Merge.runOn, Merge.weight, List.length_nil]
    omega
  | @input σ stage state out input after hinput ih =>
    have hless := ih hsound.2.2 hsafe.2
    have hcoming := (hinput.keeps hsound.2.2 hsafe.2).coming_eq
    simp only [weight, hcoming]
    omega
  | @left kind on rightWidth phase out left right after hmoves ih =>
    have hless := ih hsound.2.2.2.1 hsafe.2.1
    have hcoming := (hmoves.keeps hsound.2.2.2.1 hsafe.2.1).coming_eq
    simp only [weight, hcoming]
    omega
  | @right kind on rightWidth phase out left right after hmoves ih =>
    have hless := ih hsound.2.2.2.2 hsafe.2.2
    have hcoming := (hmoves.keeps hsound.2.2.2.2 hsafe.2.2).coming_eq
    simp only [weight, hcoming]
    omega

/-- Whatever happens leaves less to be done, for the processes or for the reader. -/
theorem Advances.weight_lt (h : Advances capacity net after) (hnet : net.Delivers rows) :
    after.weight + after.coming.length < net.weight + net.coming.length := by
  cases h with
  | moves hmoves =>
    rw [(hmoves.keeps hnet.sound hnet.safe).coming_eq]
    exact Nat.add_lt_add_right (hmoves.weight_lt hnet.sound hnet.safe) _
  | drain hpull =>
    rw [weight_of_pull? hpull, length_coming_of_pull? hpull]
    omega

/-- **Every run ends**, whatever the order in which the processes move. -/
theorem Delivers.ends (hnet : net.Delivers rows) {run : Nat → Net} (hrun : run 0 = net) :
    ∃ n, ¬Advances capacity (run n) (run (n + 1)) := by
  by_contra hforever
  have hadvances : ∀ n, Advances capacity (run n) (run (n + 1)) := by
    intro n
    by_contra hends
    exact hforever ⟨n, hends⟩
  have hdelivers : ∀ n, (run n).Delivers rows := by
    intro n
    induction n with
    | zero => rw [hrun]; exact hnet
    | succ n ih => exact (hadvances n).keeps ih
  -- by every step there is at least one thing less to do
  have hweight : ∀ n, (run n).weight + (run n).coming.length + n ≤ net.weight + net.coming.length := by
    intro n
    induction n with
    | zero => rw [hrun]; exact Nat.le_refl _
    | succ n ih =>
      have hless := (hadvances n).weight_lt (hdelivers n)
      omega
  have htoo := hweight (net.weight + net.coming.length + 1)
  omega

end Net
end SqlPipeline
