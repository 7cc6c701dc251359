import SqlPipeline.Proofs.Result
import SqlPipeline.Task.Run

/-!
# What a ready task sends

A task that was set up is started with the flow of rows that feeds it, and one fact about the start
is all that the tasks around it need to know: whoever its consumer is, it is not refused, it sends a
certain flow of rows and leaves certain tables behind (`Task.Sends`). This file proves that fact for
the tasks a statement is made of, from the bottom up:

* a task without children sends the flow of its work (`Task.sends_ready`),
* a join sends the join of what its sides send (`Task.sends_join`),
* tasks that are wired to each other send what the last of them makes of what the others send
  (`Task.sends_chain`).
-/

namespace SqlPipeline

/-- The input of a task that is wired: the task before it, if it reads an input at all. -/
def Work.inlet (work : Work) : Option Inlet :=
  if work.readsInput then some .previous else none

/-- Whether work is one of the library's own that can be started: nothing of a back end, and no
source whose rows were not read. -/
def Work.isReady : Work → Bool
  | .source _ scanned => scanned.isSome
  | .custom _ => false
  | _ => true

/-- The work of a task that was started. The rows of a source are gone then. -/
def Work.spent : Work → Work
  | .source key _ => .source key none
  | other => other

namespace Leaf

/-- How a task is started whose ends are all right and whose input, if any, is another task. -/
theorem launch_of_start {leaf : Leaf} {ends : Ends} {signals : Signals} {input : Flow}
    {schema : Schema} (hready : leaf.work.isReady)
    (hstart : leaf.ends.start leaf.name leaf.work.readsInput = (.ok (), ends))
    (hinput : ∀ rows, leaf.ends.input ≠ some (.supplied rows)) :
    leaf.launch signals input schema =
      let (flow, after) := leaf.work.flow signals leaf.name input schema
      (.ok (ends.send flow).1, ⟨leaf.name, (ends.send flow).2, leaf.work.spent⟩, after) := by
  obtain ⟨name, old, work⟩ := leaf
  unfold launch
  cases work with
  | custom custom => cases hready
  | source key scanned =>
    cases scanned with
    | none => cases hready
    | some rows => simp only [hstart]; rfl
  | _ => simp only [hstart]; rfl

end Leaf

namespace Task

variable {signals : Signals} {input flow : Flow} {before after : Schema}

/-- A task without children once it is wired. -/
def ready (name : String) (work : Work) : Task :=
  leaf ⟨name, ⟨work.inlet, .new, false, false⟩, work⟩

/-- Whether a task is a sequence of at least one task. The rows of a job are taken from such a root
as they are from any other task. -/
def isChain : Task → Bool
  | sequence _ _ (_ :: _) => true
  | _ => false

/-- Started with `input` on the tables `before`, the task sends `flow` to any consumer that is still
there and leaves the tables `after`. It can be closed without an error then. -/
def Sends (signals : Signals) (input : Flow) (before : Schema) (task : Task) (flow : Flow)
    (after : Schema) : Prop :=
  ∀ receiver, receiver ≠ .dropped → ∃ ran,
    (task.mapOutlet (.moveTo receiver)).launch signals input before = (.ok flow, ran, after) ∧
      ran.outlet = Handoff.deliver ⟨[], false, receiver⟩ flow.rows ∧ ran.close.1 = .ok () ∧
      ran.isChain = task.isChain

/-! ## Tasks without children -/

/-- Work of the library's own is closed without an error. -/
theorem close_leaf {name : String} {ends : Ends} {work : Work} (h : work.isReady) :
    (leaf ⟨name, ends, work.spent⟩).close.1 = .ok () := by
  cases work with
  | custom custom => cases h
  | _ => rfl

/-- **A wired task without children sends the flow of its work.** -/
theorem sends_ready {name : String} {work : Work} (hready : work.isReady) :
    Sends signals input before (ready name work) (work.flow signals name input before).1
      (work.flow signals name input before).2 := by
  intro receiver hreceiver
  have hstart : Ends.start name work.readsInput ⟨work.inlet, .moveTo receiver .new, false, false⟩ =
      (.ok (), ⟨none, ⟨[], false, receiver⟩, true, false⟩) := by
    unfold Ends.start Work.inlet
    cases work.readsInput <;> rfl
  have hinput : ∀ rows, work.inlet ≠ some (.supplied rows) := by
    intro rows
    unfold Work.inlet
    split <;> simp
  refine ⟨leaf ⟨name, ⟨none, Handoff.deliver ⟨[], false, receiver⟩
    (work.flow signals name input before).1.rows, true, false⟩, work.spent⟩, ?_, rfl,
      close_leaf hready, rfl⟩
  · rw [ready, mapOutlet, launch, Leaf.launch_of_start hready hstart hinput]
    simp only [Ends.send, hreceiver, if_false]

/-! ## Joins -/

/-- **A join sends the join of what its sides send.** -/
theorem sends_join {kind : Sql.JoinKind} {on : Bound} {rightWidth : Nat} {left right : Task}
    {leftFlow rightFlow : Flow} {between : Schema}
    (hleft : Sends signals .empty before left leftFlow between)
    (hright : Sends signals .empty between right rightFlow after) :
    Sends signals input before
      (join kind on rightWidth .new true (left.mapOutlet (.moveTo .wired))
        (right.mapOutlet (.moveTo .wired)))
      (joinFlow signals kind on rightWidth input leftFlow rightFlow) after := by
  intro receiver hreceiver
  obtain ⟨leftRan, hleftLaunch, -, hleftClose, -⟩ := hleft .wired (by decide)
  obtain ⟨rightRan, hrightLaunch, -, hrightClose, -⟩ := hright .wired (by decide)
  have hstart : Ends.start (joinName kind) false
      { Ends.new with out := .moveTo receiver Ends.new.out } =
        (.ok (), ⟨none, ⟨[], false, receiver⟩, true, false⟩) := rfl
  refine ⟨join kind on rightWidth ⟨none, Handoff.deliver ⟨[], false, receiver⟩
    (joinFlow signals kind on rightWidth input leftFlow rightFlow).rows, true, false⟩ false
      leftRan rightRan, ?_, rfl, ?_, rfl⟩
  · rw [mapOutlet, launch]
    simp only [hstart, hleftLaunch, hrightLaunch, Ends.send, hreceiver, if_false, Bool.not_true]
    rfl
  · rw [close]
    simp only [hleftClose, hrightClose]
    rfl

/-! ## Sequences -/

/-- A wired task followed by tasks without children, each wired to the one before. -/
def chain (task : Task) : List (String × Work) → List Task
  | [] => [task]
  | (name, work) :: rest => task.mapOutlet (.moveTo .wired) :: chain (ready name work) rest

theorem chain_ne_nil (task : Task) (works : List (String × Work)) : chain task works ≠ [] := by
  cases works <;> simp [chain]

theorem isChain_sequence {name : String} {out : Handoff} {children : List Task}
    (h : children ≠ []) : (sequence name out children).isChain = true := by
  cases children with
  | nil => exact absurd rfl h
  | cons first rest => rfl

theorem mapLastOutlet_cons (f : Handoff → Handoff) (task : Task) {rest : List Task}
    (h : rest ≠ []) : mapLastOutlet f (task :: rest) = task :: mapLastOutlet f rest := by
  cases rest with
  | nil => exact absurd rfl h
  | cons next rest => rfl

/-- The flow out of the last of several tasks without children, of which the first is fed by the
given flow, and the tables they leave behind. -/
def feedAll (signals : Signals) (works : List (String × Work)) (flow : Flow) (schema : Schema) :
    Flow × Schema :=
  works.foldl (fun state own => own.2.flow signals own.1 state.1 state.2) (flow, schema)

/-- The tasks of a chain are started one after the other. -/
theorem launchAll_chain :
    ∀ {works : List (String × Work)} {task : Task} {input flow : Flow} {before between : Schema},
      (∀ own ∈ works, own.2.isReady) → Sends signals input before task flow between →
      ∀ receiver, receiver ≠ .dropped → ∃ ran, ran ≠ [] ∧
        launchAll signals input (mapLastOutlet (.moveTo receiver) (chain task works)) before =
            (.ok (feedAll signals works flow between).1, ran,
              (feedAll signals works flow between).2) ∧
          (∀ own, outletAfter own ran =
            Handoff.deliver ⟨[], false, receiver⟩ (feedAll signals works flow between).1.rows) ∧
          (closeAll .empty ran).1 = .empty
  | [], task, input, flow, before, between, _, hsends, receiver, hreceiver => by
    -- the last task sends to the receiver itself
    obtain ⟨ran, hlaunch, houtlet, hclose, -⟩ := hsends receiver hreceiver
    refine ⟨[ran], by simp, ?_, fun own => houtlet, ?_⟩
    · rw [chain, mapLastOutlet, launchAll, hlaunch]
      rfl
    · simp only [closeAll, hclose]
      rfl
  | (name, work) :: rest, task, input, flow, before, between, hready, hsends, receiver,
      hreceiver => by
    -- any other task sends to the one after it, which is still there
    obtain ⟨first, hlaunch, -, hclose, -⟩ := hsends .wired (by decide)
    have hnext : Sends signals flow between (ready name work)
        (work.flow signals name flow between).1 (work.flow signals name flow between).2 :=
      sends_ready (hready _ List.mem_cons_self)
    obtain ⟨ran, hne, hrest, houtlet, hcloseAll⟩ := launchAll_chain
      (fun own h => hready own (List.mem_cons_of_mem _ h)) hnext receiver hreceiver
    refine ⟨first :: ran, by simp, ?_, fun own => houtlet first.outlet, ?_⟩
    · rw [chain, mapLastOutlet_cons _ _ (chain_ne_nil _ _), launchAll, hlaunch]
      simp only [hrest]
      rfl
    · simp only [closeAll, hclose, ErrorList.appendResult, hcloseAll]

/-- **Wired tasks send what the last of them makes of what the others send.** -/
theorem sends_chain {name : String} {works : List (String × Work)} {task : Task}
    {between : Schema} (hready : ∀ own ∈ works, own.2.isReady)
    (hsends : Sends signals input before task flow between) :
    Sends signals input before (sequence name .new (chain task works))
      (feedAll signals works flow between).1 (feedAll signals works flow between).2 := by
  intro receiver hreceiver
  obtain ⟨ran, hne, hlaunch, houtlet, hclose⟩ :=
    launchAll_chain hready hsends receiver hreceiver
  have hmap : (sequence name .new (chain task works)).mapOutlet (.moveTo receiver) =
      sequence name .new (mapLastOutlet (.moveTo receiver) (chain task works)) := by
    cases hchain : chain task works with
    | nil => exact absurd hchain (chain_ne_nil _ _)
    | cons first rest => rfl
  -- a sequence of no tasks would be refused
  have hnonempty : (mapLastOutlet (.moveTo receiver) (chain task works)).isEmpty = false := by
    cases hchain : mapLastOutlet (.moveTo receiver) (chain task works) with
    | nil =>
      rw [hchain, launchAll] at hlaunch
      exact absurd (congrArg (·.2.1) hlaunch).symm hne
    | cons first rest => rfl
  refine ⟨sequence name (Handoff.close .new) ran, ?_, houtlet _, ?_, ?_⟩
  · rw [hmap, launch]
    simp only [hlaunch, hnonempty]
    rfl
  · rw [close]
    simp only [hclose]
    rfl
  · rw [isChain_sequence hne, isChain_sequence (chain_ne_nil _ _)]

end Task
end SqlPipeline
