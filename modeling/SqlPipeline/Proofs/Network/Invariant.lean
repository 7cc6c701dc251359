import Mathlib.Logic.Relation
import SqlPipeline.Proofs.Network.Basic
import SqlPipeline.Proofs.Result

/-!
# What processes keep up

Whatever the order in which the processes of a tree move, and whatever room their channels have:

* the numbers on every channel are in order, nothing on it is lost or received twice, and a process
  that is done has received all that was sent to it (`Net.Sound`);
* the rows that are still to come out of a tree, those on its channel, those that its first process
  is to send, and what it will make of the rows that come to it, stay the same list until one of them
  is taken (`Net.coming`), and no stage will fail on them (`Net.Safe`).

`Net.Moves.keeps` is the step, `Net.Advances.keeps` the step of the tree with its reader, and
`Net.keeps_reachable` the run.
-/

namespace SqlPipeline

/-! ## Stages from the middle on -/

namespace Stage

variable {σ : Type} {stage : Stage σ}

/-- All rows that are passed on for the given rows from a state on, and the failure that stopped the
stage. -/
def runFrom (stage : Stage σ) (state : σ) (rows : List Row) : List Row × Result Unit :=
  match stage.feed state rows with
  | (outs, .ok last) => (outs.flatten ++ stage.finish last, .ok ())
  | (outs, .error error) => (outs.flatten, .error error)

theorem runFrom_start (stage : Stage σ) (rows : List Row) :
    stage.runFrom stage.start rows = stage.run rows := rfl

theorem runFrom_nil (stage : Stage σ) (state : σ) :
    stage.runFrom state [] = (stage.finish state, .ok ()) := rfl

theorem runFrom_cons {state next : σ} {row : Row} {out : List Row}
    (h : stage.step state row = (out, .ok next)) (rest : List Row) :
    stage.runFrom state (row :: rest) =
      (out ++ (stage.runFrom next rest).1, (stage.runFrom next rest).2) := by
  unfold runFrom
  rw [feed, h]
  dsimp only
  rcases stage.feed next rest with ⟨outs, error | last⟩
  · simp
  · simp

/-- A stage that does not fail on rows does not fail on the first of them. -/
theorem exists_step {state : σ} {row : Row} {rest : List Row}
    (h : (stage.runFrom state (row :: rest)).2 = .ok ()) :
    ∃ out next, stage.step state row = (out, .ok next) := by
  rcases hstep : stage.step state row with ⟨out, error | next⟩
  · unfold runFrom at h
    rw [feed, hstep] at h
    cases h
  · exact ⟨out, next, rfl⟩

/-- What is passed on from a state on, if the input has not ended yet. -/
def runOn (stage : Stage σ) : Option σ → List Row → List Row × Result Unit
  | some state, rows => stage.runFrom state rows
  | none, _ => ([], .ok ())

end Stage

/-- What a join passes on for the rows that come from both sides. -/
def Merge.runOn (kind : Sql.JoinKind) (on : Bound) (rightWidth : Nat) :
    Merge → (lefts rights : List Row) → List Row × Result Unit
  | .buffering buffered, lefts, rights =>
    (Stage.join kind on rightWidth (buffered ++ rights)).runFrom () lefts
  | .streaming rights, lefts, _ => (Stage.join kind on rightWidth rights).runFrom () lefts
  | .ended, _, _ => ([], .ok ())

/-! ## Channels -/

namespace Channel

variable {channel rest : Channel} {message : Message}

/-- Messages are numbered in the order in which they were sent, and they are received in that order,
each of them once. -/
structure Ordered (channel : Channel) : Prop where
  sent_eq : channel.sent = channel.received ++ channel.queue
  ids : channel.sent.map Message.id = List.range channel.sent.length

theorem Ordered.push (h : channel.Ordered) (row : Row) :
    (channel.push ⟨channel.sent.length, row⟩).Ordered := by
  constructor
  · simp [Channel.push, h.sent_eq]
  · simp [Channel.push, h.ids, List.range_succ]

theorem queue_of_pull? (h : channel.pull? = some (message, rest)) :
    channel.queue = message :: rest.queue := by
  unfold pull? at h
  split at h
  · cases h
  · next hqueue =>
    cases h
    exact hqueue

theorem rows_of_pull? (h : channel.pull? = some (message, rest)) :
    channel.rows = message.row :: rest.rows := by
  unfold rows
  rw [queue_of_pull? h]
  rfl

theorem isOpen_of_pull? (h : channel.pull? = some (message, rest)) :
    rest.isOpen = channel.isOpen := by
  unfold pull? at h
  split at h
  · cases h
  · cases h
    rfl

theorem sent_of_pull? (h : channel.pull? = some (message, rest)) : rest.sent = channel.sent := by
  unfold pull? at h
  split at h
  · cases h
  · cases h
    rfl

theorem received_of_pull? (h : channel.pull? = some (message, rest)) :
    rest.received = channel.received ++ [message] := by
  unfold pull? at h
  split at h
  · cases h
  · cases h
    rfl

theorem Ordered.pull? (hordered : channel.Ordered) (h : channel.pull? = some (message, rest)) :
    rest.Ordered := by
  constructor
  · rw [sent_of_pull? h, hordered.sent_eq, queue_of_pull? h, received_of_pull? h]
    simp
  · rw [sent_of_pull? h]
    exact hordered.ids

/-- There is something to receive unless nothing is there. -/
theorem exists_pull? (h : channel.queue ≠ []) : ∃ message rest,
    channel.pull? = some (message, rest) := by
  unfold Channel.pull?
  split
  · next hqueue => exact absurd hqueue h
  · exact ⟨_, _, rfl⟩

theorem IsOver.rows_eq (h : channel.IsOver) : channel.rows = [] := by
  unfold rows
  rw [h.2]
  rfl

end Channel

/-! ## Sending sides -/

namespace Sender

variable {capacity : Nat} {out after : Sender} {done : Bool}

/-- The rows that were or are to be sent and were not received. -/
def rows (out : Sender) : List Row :=
  out.channel.rows ++ out.pending

/-- The sending side of a process, of which it is known whether it receives anything any more. -/
structure Sound (done : Bool) (out : Sender) : Prop where
  ordered : out.channel.Ordered
  nextId_eq : out.nextId = out.channel.sent.length
  closed : out.channel.isOpen = false → done = true ∧ out.pending = []

/-- How a row is sent. -/
theorem send?_eq_some (h : out.send? capacity = some after) : ∃ row rest,
    out.pending = row :: rest ∧ out.channel.isOpen = true ∧
      after = ⟨rest, out.nextId + 1, out.channel.push ⟨out.nextId, row⟩⟩ := by
  unfold send? at h
  split at h
  · cases h
  · next row rest hpending =>
    split at h
    · next hroom =>
      cases h
      exact ⟨row, rest, hpending, hroom.1, rfl⟩
    · cases h

theorem rows_of_send? (h : out.send? capacity = some after) : after.rows = out.rows := by
  obtain ⟨row, rest, hpending, -, rfl⟩ := send?_eq_some h
  simp [rows, Channel.rows, Channel.push, hpending]

theorem Sound.send? (hout : out.Sound done) (h : out.send? capacity = some after) :
    after.Sound done := by
  obtain ⟨row, rest, hpending, hopen, rfl⟩ := send?_eq_some h
  refine ⟨?_, ?_, ?_⟩
  · rw [hout.nextId_eq]
    exact hout.ordered.push row
  · simp [Channel.push, hout.nextId_eq]
  · intro hclosed
    have hstill : out.channel.isOpen = false := hclosed
    rw [hopen] at hstill
    cases hstill

/-- A process that has sent everything and receives nothing may give up its sending end. -/
theorem Sound.close (hout : out.Sound done) (hdone : done = true) (hsent : out.pending = []) :
    out.close.Sound done :=
  ⟨⟨hout.ordered.sent_eq, hout.ordered.ids⟩, hout.nextId_eq, fun _ => ⟨hdone, hsent⟩⟩

/-- A process that still receives has its sending end, and may go on to send other rows. -/
theorem Sound.load (hout : out.Sound false) (rows : List Row) : (out.load rows).Sound done :=
  ⟨hout.ordered, hout.nextId_eq, fun hclosed => by cases (hout.closed hclosed).1⟩

/-- A process that still receives may find that it receives nothing any more. -/
theorem Sound.goesOn (hout : out.Sound false) : out.Sound done :=
  ⟨hout.ordered, hout.nextId_eq, fun hclosed => by cases (hout.closed hclosed).1⟩

theorem rows_load (hsent : out.pending = []) (rows : List Row) :
    (out.load rows).rows = out.rows ++ rows := by
  simp [Sender.rows, load, hsent]

theorem Sound.pull? {message : Message} {rest : Channel} (hout : out.Sound done)
    (h : out.channel.pull? = some (message, rest)) :
    Sound done { out with channel := rest } := by
  refine ⟨hout.ordered.pull? h, ?_, ?_⟩
  · rw [Channel.sent_of_pull? h]
    exact hout.nextId_eq
  · intro hclosed
    rw [Channel.isOpen_of_pull? h] at hclosed
    exact hout.closed hclosed

end Sender

/-! ## Trees of processes -/

namespace Net

variable {capacity : Nat} {net after : Net} {rows : List Row}

/-- What the first process will send after the rows that it is to send now, and whether it will fail
on the way: what it makes of all that comes to it. -/
def ahead : Net → List Row × Result Unit
  | source _ => ([], .ok ())
  | turning stage state _ input => stage.runOn state (input.out.rows ++ input.ahead.1)
  | joining kind on rightWidth phase _ left right =>
    phase.runOn kind on rightWidth (left.out.rows ++ left.ahead.1)
      (right.out.rows ++ right.ahead.1)

/-- All rows that are still to come out of the tree, in order. -/
def coming (net : Net) : List Row :=
  net.out.rows ++ net.ahead.1

/-- No process will fail. -/
def Safe : Net → Prop
  | source _ => True
  | turning stage state _ input => (stage.runOn state input.coming).2 = .ok () ∧ input.Safe
  | joining kind on rightWidth phase _ left right =>
    (phase.runOn kind on rightWidth left.coming right.coming).2 = .ok () ∧ left.Safe ∧ right.Safe

/-- The sending sides of all processes are as they should be, and a process that has found its input
to be over is right. -/
def Sound : Net → Prop
  | source out => out.Sound true
  | turning _ state out input =>
    out.Sound state.isNone ∧ (state = none → input.channel.IsOver) ∧ input.Sound
  | joining _ _ _ phase out left right =>
    out.Sound (decide (phase = .ended)) ∧
      ((∀ rights, phase ≠ .buffering rights) → right.channel.IsOver) ∧
      (phase = .ended → left.channel.IsOver) ∧ left.Sound ∧ right.Sound

/-! ### The first process -/

@[simp] theorem out_withOut (out : Sender) (net : Net) : (net.withOut out).out = out := by
  cases net <;> rfl

@[simp] theorem ahead_withOut (out : Sender) (net : Net) : (net.withOut out).ahead = net.ahead := by
  cases net <;> rfl

@[simp] theorem safe_withOut (out : Sender) (net : Net) : (net.withOut out).Safe ↔ net.Safe := by
  cases net <;> rfl

theorem coming_withOut (out : Sender) (net : Net) :
    (net.withOut out).coming = out.rows ++ net.ahead.1 := by
  rw [coming, out_withOut, ahead_withOut]

theorem Sound.out (h : net.Sound) : net.out.Sound net.isDone := by
  cases net with
  | source out => exact h
  | turning stage state out input => exact h.1
  | joining kind on rightWidth phase out left right => exact h.1

theorem Sound.withOut {out : Sender} (h : net.Sound) (hout : out.Sound net.isDone) :
    (net.withOut out).Sound := by
  cases net with
  | source _ => exact hout
  | turning stage state _ input => exact ⟨hout, h.2⟩
  | joining kind on rightWidth phase _ left right => exact ⟨hout, h.2⟩

/-- Receiving from a tree leaves it sound. -/
theorem Sound.pull? {message : Message} {rest : Channel} (h : net.Sound)
    (hpull : net.channel.pull? = some (message, rest)) : (net.withChannel rest).Sound :=
  h.withOut (h.out.pull? hpull)

theorem safe_withChannel (rest : Channel) : (net.withChannel rest).Safe ↔ net.Safe :=
  safe_withOut _ net

/-- What comes out of a tree is received from the front. -/
theorem coming_of_pull? {message : Message} {rest : Channel}
    (hpull : net.channel.pull? = some (message, rest)) :
    net.coming = message.row :: (net.withChannel rest).coming := by
  have hrows : net.out.channel.rows = message.row :: rest.rows := Channel.rows_of_pull? hpull
  rw [withChannel, coming_withOut, coming, Sender.rows, Sender.rows, hrows]
  rfl

/-- So what was received is among the rows that are buffered. -/
theorem append_coming_of_pull? {message : Message} {rest : Channel} (buffered : List Row)
    (hpull : net.channel.pull? = some (message, rest)) :
    buffered ++ net.coming = (buffered ++ [message.row]) ++ (net.withChannel rest).coming := by
  rw [coming_of_pull? hpull, List.append_assoc]
  rfl

/-- Nothing comes out of a tree whose channel is over. -/
theorem Sound.coming_of_isOver (h : net.Sound) (hover : net.channel.IsOver) : net.coming = [] := by
  obtain ⟨hdone, hpending⟩ := h.out.closed hover.1
  have hrows : net.out.channel.rows = [] := Channel.IsOver.rows_eq hover
  have hahead : net.ahead.1 = [] := by
    cases net with
    | source out => rfl
    | turning stage state out input =>
      cases state with
      | some state => cases hdone
      | none => rfl
    | joining kind on rightWidth phase out left right =>
      have hended : phase = .ended := by simpa [isDone] using hdone
      rw [hended]
      rfl
  rw [coming, Sender.rows, hrows, hpending, hahead]
  rfl

/-- A process that gave up its sending end does not send any more. -/
theorem Moves.channel_of_closed (h : Moves capacity net after)
    (hclosed : net.channel.isOpen = false) : after.channel = net.channel := by
  cases h with
  | send hsend =>
    obtain ⟨row, rest, -, hopen, -⟩ := Sender.send?_eq_some hsend
    have hstill : net.out.channel.isOpen = false := hclosed
    rw [hopen] at hstill
    cases hstill
  | close hdone hsent hopen =>
    rw [hopen] at hclosed
    cases hclosed
  | _ => rfl

/-- So what is over stays so. -/
theorem Moves.isOver (h : Moves capacity net after) (hover : net.channel.IsOver) :
    after.channel.IsOver := by
  rw [h.channel_of_closed hover.1]
  exact hover

/-! ### What a move keeps -/

/-- The state of a tree of processes that will still give the rows `rows` and not fail. -/
structure Gives (net : Net) (rows : List Row) : Prop where
  sound : net.Sound
  safe : net.Safe
  coming_eq : net.coming = rows

/-- A stage goes over to another state with another input. If it has in hand, as rows to be sent, what
it will not make any more, then what comes out of it does not change. -/
theorem turning_keeps {σ : Type} {stage : Stage σ} {state next : Option σ} {out left : Sender}
    {input rest : Net} {made : List Row} (hsafe : (turning stage state out input).Safe)
    (hsound : (turning stage next left rest).Sound) (hrest : rest.Safe)
    (hmade : left.rows = out.rows ++ made)
    (hrun : stage.runOn state input.coming =
      (made ++ (stage.runOn next rest.coming).1, (stage.runOn next rest.coming).2)) :
    (turning stage next left rest).Gives (turning stage state out input).coming := by
  refine ⟨hsound, ⟨?_, hrest⟩, ?_⟩
  · have hsecond := congrArg Prod.snd hrun
    exact hsecond.symm.trans hsafe.1
  · have hfirst := congrArg Prod.fst hrun
    show left.rows ++ (stage.runOn next rest.coming).1 =
      out.rows ++ (stage.runOn state input.coming).1
    rw [hfirst, hmade, List.append_assoc]

/-- So does a join with another phase and other sides. -/
theorem joining_keeps {kind : Sql.JoinKind} {on : Bound} {rightWidth : Nat} {phase next : Merge}
    {out sent : Sender} {left right leftRest rightRest : Net} {made : List Row}
    (hsafe : (joining kind on rightWidth phase out left right).Safe)
    (hsound : (joining kind on rightWidth next sent leftRest rightRest).Sound)
    (hleft : leftRest.Safe) (hright : rightRest.Safe) (hmade : sent.rows = out.rows ++ made)
    (hrun : phase.runOn kind on rightWidth left.coming right.coming =
      (made ++ (next.runOn kind on rightWidth leftRest.coming rightRest.coming).1,
        (next.runOn kind on rightWidth leftRest.coming rightRest.coming).2)) :
    (joining kind on rightWidth next sent leftRest rightRest).Gives
      (joining kind on rightWidth phase out left right).coming := by
  refine ⟨hsound, ⟨?_, hleft, hright⟩, ?_⟩
  · have hsecond := congrArg Prod.snd hrun
    exact hsecond.symm.trans hsafe.1
  · have hfirst := congrArg Prod.fst hrun
    show sent.rows ++ (next.runOn kind on rightWidth leftRest.coming rightRest.coming).1 =
      out.rows ++ (phase.runOn kind on rightWidth left.coming right.coming).1
    rw [hfirst, hmade, List.append_assoc]

/-- **A move keeps a tree of processes sound and safe, and changes nothing about the rows that will
come out of it.** -/
theorem Moves.keeps (h : Moves capacity net after) (hsound : net.Sound) (hsafe : net.Safe) :
    after.Gives net.coming := by
  induction h with
  | @send net out hsend =>
    refine ⟨hsound.withOut (hsound.out.send? hsend), (safe_withOut _ _).mpr hsafe, ?_⟩
    rw [coming_withOut, Sender.rows_of_send? hsend, coming]
  | @close net hdone hsent hopen =>
    have hout : net.out.close.Sound net.isDone := hsound.out.close hdone hsent
    refine ⟨hsound.withOut hout, (safe_withOut _ _).mpr hsafe, ?_⟩
    rw [coming_withOut, coming]
    rfl
  | @receive σ stage state next out input message rest rows hsent hpull hstep =>
    obtain ⟨hout, -, hinput⟩ := hsound
    apply turning_keeps hsafe
    case hsound => exact ⟨hout.load rows, (fun hnone => by cases hnone), hinput.pull? hpull⟩
    case hrest => exact (safe_withChannel rest).mpr hsafe.2
    case hmade => exact Sender.rows_load hsent rows
    case hrun =>
      rw [coming_of_pull? hpull]
      exact Stage.runFrom_cons hstep _
  | @finish σ stage state out input hsent hover =>
    obtain ⟨hout, -, hinput⟩ := hsound
    apply turning_keeps hsafe
    case hsound => exact ⟨hout.load _, (fun _ => hover), hinput⟩
    case hrest => exact hsafe.2
    case hmade => exact Sender.rows_load hsent _
    case hrun =>
      rw [hinput.coming_of_isOver hover, Stage.runOn, Stage.runFrom_nil, Stage.runOn,
        List.append_nil]
  | @receiveRight kind on rightWidth rights out left right message rest hpull =>
    obtain ⟨hout, -, -, hleft, hright⟩ := hsound
    apply joining_keeps hsafe
    case hsound =>
      exact ⟨hout.goesOn, (fun hphase => absurd rfl (hphase _)), (fun hphase => by cases hphase),
        hleft, hright.pull? hpull⟩
    case hleft => exact hsafe.2.1
    case hright => exact (safe_withChannel rest).mpr hsafe.2.2
    case hmade => exact (List.append_nil _).symm
    case hrun =>
      rw [Merge.runOn, Merge.runOn, append_coming_of_pull? rights hpull]
      rfl
  | @endRight kind on rightWidth rights out left right hover =>
    obtain ⟨hout, -, -, hleft, hright⟩ := hsound
    apply joining_keeps hsafe
    case hsound =>
      exact ⟨hout.goesOn, (fun _ => hover), (fun hphase => by cases hphase), hleft, hright⟩
    case hleft => exact hsafe.2.1
    case hright => exact hsafe.2.2
    case hmade => exact (List.append_nil _).symm
    case hrun =>
      rw [Merge.runOn, Merge.runOn, hright.coming_of_isOver hover, List.append_nil]
      rfl
  | @receiveLeft kind on rightWidth rights out left right message rest rows hsent hpull hstep =>
    obtain ⟨hout, hstreaming, -, hleft, hright⟩ := hsound
    apply joining_keeps hsafe
    case hsound =>
      exact ⟨hout.load rows, hstreaming, (fun hphase => by cases hphase), hleft.pull? hpull, hright⟩
    case hleft => exact (safe_withChannel rest).mpr hsafe.2.1
    case hright => exact hsafe.2.2
    case hmade => exact Sender.rows_load hsent rows
    case hrun =>
      rw [coming_of_pull? hpull]
      exact Stage.runFrom_cons hstep _
  | @endLeft kind on rightWidth rights out left right hsent hover =>
    obtain ⟨hout, hstreaming, -, hleft, hright⟩ := hsound
    apply joining_keeps hsafe
    case hsound =>
      exact ⟨hout.goesOn, (fun _ => hstreaming (by simp)), (fun _ => hover), hleft, hright⟩
    case hleft => exact hsafe.2.1
    case hright => exact hsafe.2.2
    case hmade => exact (List.append_nil _).symm
    case hrun =>
      rw [hleft.coming_of_isOver hover]
      rfl
  | @input σ stage state out input after hinput ih =>
    obtain ⟨hout, hended, hinputSound⟩ := hsound
    obtain ⟨hafterSound, hafterSafe, hcoming⟩ := ih hinputSound hsafe.2
    apply turning_keeps hsafe
    case hsound => exact ⟨hout, (fun hnone => hinput.isOver (hended hnone)), hafterSound⟩
    case hrest => exact hafterSafe
    case hmade => exact (List.append_nil _).symm
    case hrun =>
      rw [hcoming]
      rfl
  | @left kind on rightWidth phase out left right after hmoves ih =>
    obtain ⟨hout, hstreaming, hended, hleft, hright⟩ := hsound
    obtain ⟨hafterSound, hafterSafe, hcoming⟩ := ih hleft hsafe.2.1
    apply joining_keeps hsafe
    case hsound =>
      exact ⟨hout, hstreaming, (fun hphase => hmoves.isOver (hended hphase)), hafterSound, hright⟩
    case hleft => exact hafterSafe
    case hright => exact hsafe.2.2
    case hmade => exact (List.append_nil _).symm
    case hrun =>
      rw [hcoming]
      rfl
  | @right kind on rightWidth phase out left right after hmoves ih =>
    obtain ⟨hout, hstreaming, hended, hleft, hright⟩ := hsound
    obtain ⟨hafterSound, hafterSafe, hcoming⟩ := ih hright hsafe.2.2
    apply joining_keeps hsafe
    case hsound =>
      exact ⟨hout, (fun hphase => hmoves.isOver (hstreaming hphase)), hended, hleft, hafterSound⟩
    case hleft => exact hsafe.2.1
    case hright => exact hafterSafe
    case hmade => exact (List.append_nil _).symm
    case hrun =>
      rw [hcoming]
      rfl

/-! ### What all that can happen keeps -/

/-- The state of a tree of processes and their reader that has received or will receive the rows
`rows`, all in all. -/
structure Delivers (net : Net) (rows : List Row) : Prop where
  sound : net.Sound
  safe : net.Safe
  total_eq : net.channel.received.map Message.row ++ net.coming = rows

/-- A process receives nothing from its own channel. -/
theorem Moves.received_eq (h : Moves capacity net after) :
    after.channel.received = net.channel.received := by
  cases h with
  | send hsend =>
    obtain ⟨row, rest, -, -, rfl⟩ := Sender.send?_eq_some hsend
    rw [channel, out_withOut]
    rfl
  | close hdone hsent hopen =>
    rw [channel, out_withOut]
    rfl
  | _ => rfl

/-- **Nothing that can happen changes the rows that are delivered.** -/
theorem Advances.keeps (h : Advances capacity net after) (hnet : net.Delivers rows) :
    after.Delivers rows := by
  cases h with
  | moves hmoves =>
    obtain ⟨hsound, hsafe, hcoming⟩ := hmoves.keeps hnet.sound hnet.safe
    refine ⟨hsound, hsafe, ?_⟩
    rw [hmoves.received_eq, hcoming]
    exact hnet.total_eq
  | @drain message rest hpull =>
    refine ⟨hnet.sound.pull? hpull, (safe_withChannel rest).mpr hnet.safe, ?_⟩
    have hreceived : (net.withChannel rest).channel.received =
        net.channel.received ++ [message] := by
      rw [channel, withChannel, out_withOut]
      exact Channel.received_of_pull? hpull
    rw [← hnet.total_eq, coming_of_pull? hpull, hreceived]
    simp

theorem keeps_reachable (h : Relation.ReflTransGen (Advances capacity) net after)
    (hnet : net.Delivers rows) : after.Delivers rows := by
  induction h with
  | refl => exact hnet
  | tail _ hlast ih => exact hlast.keeps ih

end Net
end SqlPipeline
