import SqlPipeline.Proofs.Task.Sends

/-!
# What a task gives that is set up and run

Setting up a freshly made tree of tasks wires and prepares it, and running it lets the rows flow.
`Task.Gives` joins the two: it says of a task that was not touched yet which flow it gives, and
which tables it leaves behind, once it is set up and run. It follows the ways in which tasks are put
together:

* a task without children gives the flow of its prepared work (`Task.gives_work`),
* a join gives the join of its sides (`Task.gives_join`),
* a sequence gives what its last task makes of the flow through the others (`Task.gives_sequence`).
-/

namespace SqlPipeline

/-- What work becomes when it is prepared: a source reads its table, and a change is checked against
the table it is made to. -/
def Work.prepared (schema : Schema) : Work → Result Work
  | .source key _ => do return .source key (some (← Leaf.tableOf schema key >>= Table.scan))
  | .mutation key change => do
    let table ← Leaf.tableOf schema key
    Change.checkWritable table
    change.checkColumns table
    return .mutation key change
  | other => .ok other

namespace Work

variable {schema : Schema} {work prepared : Work}

/-- Preparing work does not change whether it reads an input. -/
theorem readsInput_of_prepared (h : work.prepared schema = .ok prepared) :
    prepared.readsInput = work.readsInput := by
  unfold Work.prepared at h
  split at h
  · obtain ⟨rows, -, h⟩ := Result.bind_eq_ok.mp h
    cases h
    rfl
  · obtain ⟨table, -, h⟩ := Result.bind_eq_ok.mp h
    obtain ⟨⟨⟩, -, h⟩ := Result.bind_eq_ok.mp h
    obtain ⟨⟨⟩, -, h⟩ := Result.bind_eq_ok.mp h
    cases h
    rfl
  · cases h
    rfl

theorem isReady_of_readsInput (h : work.readsInput = true) : work.isReady = true := by
  cases work <;> first | rfl | cases h

end Work

namespace Task

variable {signals : Signals} {flow : Flow} {before after : Schema}

/-- Set up and run on the tables `before`, the task gives `flow` and leaves the tables `after`. -/
def Gives (signals : Signals) (before : Schema) (task : Task) (flow : Flow) (after : Schema) :
    Prop :=
  task.outlet = .new ∧ ∃ prepared, task.setupFed before false = (.ok (), prepared) ∧
    prepared.outlet = .new ∧ prepared.isChain = task.isChain ∧
      prepared.Sends signals .empty before flow after

/-! ## Tasks without children -/

/-- A task without children is set up by preparing its work. -/
theorem setupFed_ofWork_eq {name : String} {work : Work} {fed : Bool}
    (hfed : fed = true ∨ work.readsInput = false) :
    (ofWork name work).setupFed before fed =
      ((work.prepared before).map fun _ => (),
        ofWork name ((work.prepared before).toOption.getD work)) := by
  -- a task without an input is refused only if it reads one and nothing feeds it
  have hinput : ¬(work.readsInput = true ∧ Ends.new.input.isNone = true ∧ !fed) := by
    rcases hfed with rfl | hreads
    · simp
    · simp [hreads]
  rw [ofWork, setupFed, Leaf.setup, if_neg hinput]
  unfold Work.prepared
  cases work with
  | source key scanned =>
    cases hrows : Leaf.tableOf before key >>= Table.scan <;> simp only [hrows] <;> rfl
  | mutation key change =>
    dsimp only
    cases Leaf.tableOf before key with
    | error error => rfl
    | ok table =>
      rw [Result.ok_bind, Result.ok_bind]
      cases Change.checkWritable table with
      | error error => rfl
      | ok done =>
        rw [Result.ok_bind, Result.ok_bind]
        cases change.checkColumns table <;> rfl
  | _ => rfl

/-- Preparing a task without children prepares its work. -/
theorem setupFed_ofWork {name : String} {work prepared : Work} {fed : Bool}
    (hfed : fed = true ∨ work.readsInput = false) (h : work.prepared before = .ok prepared) :
    (ofWork name work).setupFed before fed = (.ok (), ofWork name prepared) := by
  rw [setupFed_ofWork_eq hfed, h]
  rfl

/-- A task without children whose work cannot be prepared is refused for the same reason. -/
theorem setupFed_ofWork_error {name : String} {work : Work} {error : Error} {fed : Bool}
    (hfed : fed = true ∨ work.readsInput = false) (h : work.prepared before = .error error) :
    (ofWork name work).setupFed before fed = (.error error, ofWork name work) := by
  rw [setupFed_ofWork_eq hfed, h]
  rfl

/-- A task that reads no input is wired from the start. -/
theorem ofWork_eq_ready {name : String} {work : Work} (h : work.readsInput = false) :
    ofWork name work = ready name work := by
  unfold ofWork ready Ends.new Work.inlet
  rw [h]
  rfl

/-- **A task without children gives the flow of its prepared work.** -/
theorem gives_work {name : String} {work prepared : Work} (hreads : work.readsInput = false)
    (hprepared : work.prepared before = .ok prepared) (hready : prepared.isReady = true) :
    Gives signals before (ofWork name work) (prepared.flow signals name .empty before).1
      (prepared.flow signals name .empty before).2 := by
  have hnoInput : prepared.readsInput = false :=
    (Work.readsInput_of_prepared hprepared).trans hreads
  refine ⟨rfl, ofWork name prepared, setupFed_ofWork (Or.inr hreads) hprepared, rfl, rfl, ?_⟩
  rw [ofWork_eq_ready hnoInput]
  exact sends_ready hready

/-! ## Joins -/

/-- **A join gives the join of its sides.** -/
theorem gives_join {kind : Sql.JoinKind} {on : Bound} {rightWidth : Nat} {left right : Task}
    {leftFlow rightFlow : Flow} (hleft : Gives signals before left leftFlow before)
    (hright : Gives signals before right rightFlow before) :
    Gives signals before (joining kind on rightWidth left right)
      (joinFlow signals kind on rightWidth .empty leftFlow rightFlow) before := by
  obtain ⟨hleftOut, leftReady, hleftSetup, -, -, hleftSends⟩ := hleft
  obtain ⟨hrightOut, rightReady, hrightSetup, -, -, hrightSends⟩ := hright
  refine ⟨rfl, join kind on rightWidth .new true (leftReady.mapOutlet (.moveTo .wired))
    (rightReady.mapOutlet (.moveTo .wired)), ?_, rfl, rfl, sends_join hleftSends hrightSends⟩
  rw [joining, setupFed, hleftOut, hrightOut]
  simp only [hleftSetup, hrightSetup]
  rfl

/-! ## Sequences -/

/-- Tasks without children that read an input are wired to the task before them. -/
theorem wireAfter_map_ofWork :
    ∀ {works : List (String × Work)} {task : Task}, task.outlet = .new →
      (∀ own ∈ works, own.2.readsInput = true) →
      wireAfter task (works.map fun own => ofWork own.1 own.2) = (.ok (), chain task works)
  | [], task, _, _ => rfl
  | (name, work) :: rest, task, houtlet, hreads => by
    have hwork : work.readsInput = true := hreads _ List.mem_cons_self
    have hconnect : (ofWork name work).connect .previous = (.ok .wired, ready name work) := by
      rw [ready, Work.inlet, if_pos hwork]
      cases work with
      | source key scanned => cases hwork
      | values rows => cases hwork
      | custom custom => cases hwork
      | _ => rfl
    have hrest : wireAfter (ready name work) (rest.map fun own => ofWork own.1 own.2) =
        (.ok (), chain (ready name work) rest) :=
      wireAfter_map_ofWork rfl fun own h => hreads own (List.mem_cons_of_mem _ h)
    rw [List.map_cons, wireAfter, houtlet, hconnect]
    simp only [hrest]
    rfl

/-- Tasks without children whose work needs no preparation are prepared as they are. -/
theorem setupAll_map_ofWork :
    ∀ {works : List (String × Work)}, (∀ own ∈ works, own.2.prepared before = .ok own.2) →
      setupAll before true (works.map fun own => ofWork own.1 own.2) =
        (.ok (), works.map fun own => ofWork own.1 own.2)
  | [], _ => rfl
  | (name, work) :: rest, h => by
    rw [List.map_cons, setupAll, setupFed_ofWork (Or.inl rfl) (h _ List.mem_cons_self)]
    simp only [setupAll_map_ofWork fun own hown => h own (List.mem_cons_of_mem _ hown)]

/-- The outlet of a sequence is that of its last task, which nobody has taken before. -/
theorem outletAfter_map_ofWork (own : Handoff) (works : List (String × Work)) (h : own = .new) :
    outletAfter own (works.map fun own => ofWork own.1 own.2) = .new := by
  induction works generalizing own with
  | nil => exact h
  | cons next rest ih => exact ih _ rfl

/-- Nor has anybody taken it once the tasks are wired. -/
theorem outletAfter_chain (own : Handoff) (task : Task) (works : List (String × Work))
    (h : task.outlet = .new) : outletAfter own (chain task works) = .new := by
  induction works generalizing own task with
  | nil => exact h
  | cons next rest ih => exact ih _ _ rfl

/-- A sequence whose tasks can be prepared is set up by wiring them. -/
theorem setupFed_sequence {name : String} {task first : Task} {works : List (String × Work)}
    (houtlet : task.outlet = .new) (hfirst : first.outlet = .new)
    (hreads : ∀ own ∈ works, own.2.readsInput = true)
    (hsetup : task.setupFed before false = (.ok (), first))
    (hrest : setupAll before true (works.map fun own => ofWork own.1 own.2) =
      (.ok (), works.map fun own => ofWork own.1 own.2)) :
    (inSequence name (task :: works.map fun own => ofWork own.1 own.2)).setupFed before false =
      (.ok (), sequence name .new (chain first works)) := by
  rw [inSequence, setupFed, wire, wireAfter_map_ofWork houtlet hreads]
  simp only [setupAll, hsetup, hrest, wire, wireAfter_map_ofWork hfirst hreads]

/-- **A sequence gives what its last task makes of the flow through the others.** -/
theorem gives_sequence {name : String} {task : Task} {works : List (String × Work)}
    {between : Schema} (htask : Gives signals before task flow between)
    (hreads : ∀ own ∈ works, own.2.readsInput = true)
    (hprepared : ∀ own ∈ works, own.2.prepared before = .ok own.2) :
    Gives signals before
      (inSequence name (task :: works.map fun own => ofWork own.1 own.2))
      (feedAll signals works flow between).1 (feedAll signals works flow between).2 := by
  obtain ⟨houtlet, first, hsetup, hfirst, -, hsends⟩ := htask
  have hready : ∀ own ∈ works, own.2.isReady = true :=
    fun own h => Work.isReady_of_readsInput (hreads own h)
  exact ⟨outletAfter_map_ofWork _ works houtlet, sequence name .new (chain first works),
    setupFed_sequence houtlet hfirst hreads hsetup (setupAll_map_ofWork hprepared),
    outletAfter_chain _ _ works hfirst, isChain_sequence (chain_ne_nil _ _),
    sends_chain hready hsends⟩

end Task
end SqlPipeline
