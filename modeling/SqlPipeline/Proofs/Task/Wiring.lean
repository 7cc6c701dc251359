import SqlPipeline.Proofs.Task.Gives

/-!
# Wiring

The outputs of tasks are taken by other tasks, once each, and setting up a tree of tasks can go
wrong in as many ways as there are to take them twice or not at all. A tree that was just compiled
is of a shape in which none of this happens (`Task.Fresh`): nothing in it is connected, only tasks
that read an input follow another task, and every table and column that is named is there.

By induction on that shape, **setting up such a tree fails only because a table cannot be read or
cannot be written, and otherwise leaves a tree with which nothing is wrong**
(`Task.setupFed_fresh`): nobody has taken its output, and all its tasks start, whoever takes its rows
(`Task.Starts`).
-/

namespace SqlPipeline

/-! ## Work on tables that are there -/

namespace Work

variable {schema : Schema} {work : Work}

/-- The tables and the columns that the work is about are there, and the work is one of the
library's own. -/
def Stands (schema : Schema) : Work → Prop
  | .source key _ => ∃ table, schema.get? key = some table
  | .mutation key change => ∃ table, schema.get? key = some table ∧
      change.beyond? table.definition.columns.length = none
  | .custom _ => False
  | _ => True

/-- Why work can be refused though its tables are there: reading a table fails, or a table that is
to be changed can only be read. -/
inductive Refuses (schema : Schema) : Work → Error → Prop
  | scan {key : String} {scanned : Option (List Row)} {table : Table} {error : Error}
    (htable : schema.get? key = some table) (hscan : table.scan = .error error) :
    Refuses schema (.source key scanned) error
  | readOnly {key : String} {change : Change} {table : Table}
    (htable : schema.get? key = some table) (hreadOnly : table.isWritable = false) :
    Refuses schema (.mutation key change)
      (.runtime ("Table '" ++ table.definition.name ++ "' is read only"))

/-- Work on tables that are there is prepared or refused, and only a source has anything to
prepare. -/
theorem prepared_or_refuses (h : work.Stands schema) :
    (∃ prepared, work.prepared schema = .ok prepared ∧ prepared.isReady = true ∧
      (work.readsInput = true → prepared = work)) ∨
    ∃ error, work.prepared schema = .error error ∧ work.Refuses schema error := by
  cases work with
  | custom custom => exact absurd h id
  | source key scanned =>
    obtain ⟨table, htable⟩ := h
    have hprepared : (source key scanned).prepared schema =
        table.scan >>= fun rows => .ok (source key (some rows)) := by
      simp only [prepared, Leaf.tableOf, htable, Result.ok_bind]
      rfl
    rw [hprepared]
    cases hscan : table.scan with
    | error error => exact Or.inr ⟨error, rfl, .scan htable hscan⟩
    | ok rows => exact Or.inl ⟨_, rfl, rfl, fun hreads => by cases hreads⟩
  | mutation key change =>
    obtain ⟨table, htable, hcolumns⟩ := h
    have hprepared : (mutation key change).prepared schema =
        Change.checkWritable table >>= fun _ => .ok (mutation key change) := by
      simp only [prepared, Leaf.tableOf, htable, Result.ok_bind, Change.checkColumns, hcolumns]
      rfl
    rw [hprepared]
    unfold Change.checkWritable
    cases hwritable : table.isWritable with
    | true => exact Or.inl ⟨_, rfl, rfl, fun _ => rfl⟩
    | false => exact Or.inr ⟨_, rfl, .readOnly htable hwritable⟩
  | _ => exact Or.inl ⟨_, rfl, rfl, fun _ => rfl⟩

end Work

namespace Task

variable {schema : Schema}

/-! ## Trees that were just compiled -/

mutual

def works : Task → List Work
  | leaf own => [own.work]
  | join _ _ _ _ _ left right => left.works ++ right.works
  | sequence _ _ children => worksOf children
termination_by structural task => task

def worksOf : List Task → List Work
  | [] => []
  | task :: rest => task.works ++ worksOf rest
termination_by structural tasks => tasks

end

/-- A tree in which nothing is connected yet. Its first tasks read no input, all that follow another
task do, and the tables and columns of all of them are there. -/
inductive Fresh (schema : Schema) : Task → Prop
  | work {name : String} {work : Work} (hreads : work.readsInput = false)
    (hwork : work.Stands schema) : Fresh schema (ofWork name work)
  | join {kind : Sql.JoinKind} {on : Bound} {rightWidth : Nat} {left right : Task}
    (hleft : Fresh schema left) (hright : Fresh schema right) :
    Fresh schema (joining kind on rightWidth left right)
  | sequence {name : String} {first : Task} {works : List (String × Work)}
    (hfirst : Fresh schema first)
    (hworks : ∀ own ∈ works, own.2.readsInput = true ∧ own.2.Stands schema) :
    Fresh schema (inSequence name (first :: works.map fun own => ofWork own.1 own.2))

theorem worksOf_map_ofWork (works : List (String × Work)) :
    worksOf (works.map fun own => ofWork own.1 own.2) = works.map (·.2) := by
  induction works with
  | nil => rfl
  | cons own rest ih => exact congrArg (own.2 :: ·) ih

/-- Nobody has taken the output of a tree that was just compiled. -/
theorem Fresh.outlet_eq {task : Task} (h : task.Fresh schema) : task.outlet = .new := by
  induction h with
  | work hreads hwork => rfl
  | join hleft hright ihleft ihright => rfl
  | @sequence name first works hfirst hworks ih =>
    show outletAfter first.outlet (works.map fun own => ofWork own.1 own.2) = .new
    exact outletAfter_map_ofWork _ works ih

/-- A sequence of one task is such a tree if the task is. -/
theorem Fresh.single {name : String} {task : Task} (h : task.Fresh schema) :
    (inSequence name [task]).Fresh schema := by
  have hworks : ∀ own ∈ ([] : List (String × Work)),
      own.2.readsInput = true ∧ own.2.Stands schema := by
    intro own hown
    cases hown
  exact .sequence h hworks

/-! ## Trees that start -/

/-- Whatever the tasks are told, whatever feeds the first of them and whatever the tables are: none
of them is refused, so each finds its input and its sending end, and the tree sends a flow to any
consumer that is there. -/
def Starts (task : Task) : Prop :=
  ∀ signals input before, ∃ flow after, task.Sends signals input before flow after

theorem starts_ready {name : String} {work : Work} (h : work.isReady = true) :
    (ready name work).Starts := by
  intro signals input before
  exact ⟨_, _, sends_ready h⟩

theorem starts_join {kind : Sql.JoinKind} {on : Bound} {rightWidth : Nat} {left right : Task}
    (hleft : left.Starts) (hright : right.Starts) :
    (join kind on rightWidth .new true (left.mapOutlet (.moveTo .wired))
      (right.mapOutlet (.moveTo .wired))).Starts := by
  intro signals input before
  obtain ⟨leftFlow, between, hleftSends⟩ := hleft signals .empty before
  obtain ⟨rightFlow, after, hrightSends⟩ := hright signals .empty between
  exact ⟨_, after, sends_join hleftSends hrightSends⟩

theorem starts_chain {name : String} {works : List (String × Work)} {task : Task}
    (hready : ∀ own ∈ works, own.2.isReady = true) (htask : task.Starts) :
    (sequence name .new (chain task works)).Starts := by
  intro signals input before
  obtain ⟨flow, between, hsends⟩ := htask signals input before
  exact ⟨_, _, sends_chain hready hsends⟩

/-! ## Setting up -/

/-- The tasks that follow another are prepared as they are, up to the first whose table cannot be
changed. -/
theorem setupAll_or_refuses :
    ∀ {works : List (String × Work)},
      (∀ own ∈ works, own.2.readsInput = true ∧ own.2.Stands schema) →
      setupAll schema true (works.map fun own => ofWork own.1 own.2) =
          (.ok (), works.map fun own => ofWork own.1 own.2) ∨
        ∃ error failed, setupAll schema true (works.map fun own => ofWork own.1 own.2) =
          (.error error, failed) ∧ ∃ own ∈ works, own.2.Refuses schema error
  | [], _ => Or.inl rfl
  | (name, work) :: rest, h => by
    obtain ⟨hreads, hstands⟩ := h _ List.mem_cons_self
    rw [List.map_cons, setupAll]
    rcases Work.prepared_or_refuses hstands with ⟨prepared, hprepared, -, hsame⟩ |
      ⟨error, herror, hrefuses⟩
    · rw [hsame hreads] at hprepared
      rw [setupFed_ofWork (Or.inl rfl) hprepared]
      rcases setupAll_or_refuses fun own hown => h own (List.mem_cons_of_mem _ hown) with hrest |
        ⟨error, failed, hrest, own, hown, hrefuses⟩
      · left
        simp only [hrest]
      · right
        simp only [hrest]
        exact ⟨error, _, rfl, own, List.mem_cons_of_mem _ hown, hrefuses⟩
    · right
      rw [setupFed_ofWork_error (Or.inl rfl) herror]
      exact ⟨error, _, rfl, _, List.mem_cons_self, hrefuses⟩

/-- **A tree that was just compiled is set up, or a table of it refuses.** Nothing goes wrong with
its connections: if it is set up, nobody has taken its output and all its tasks start. -/
theorem setupFed_fresh {task : Task} (h : task.Fresh schema) :
    (∃ prepared, task.setupFed schema false = (.ok (), prepared) ∧ prepared.outlet = .new ∧
      prepared.isChain = task.isChain ∧ prepared.Starts) ∨
    ∃ error failed, task.setupFed schema false = (.error error, failed) ∧
      ∃ work ∈ task.works, work.Refuses schema error := by
  induction h with
  | @work name work hreads hwork =>
    rcases Work.prepared_or_refuses hwork with ⟨prepared, hprepared, hready, -⟩ |
      ⟨error, herror, hrefuses⟩
    · left
      have hnoInput : prepared.readsInput = false :=
        (Work.readsInput_of_prepared hprepared).trans hreads
      refine ⟨ofWork name prepared, setupFed_ofWork (Or.inr hreads) hprepared, rfl, rfl, ?_⟩
      rw [ofWork_eq_ready hnoInput]
      exact starts_ready hready
    · right
      exact ⟨error, _, setupFed_ofWork_error (Or.inr hreads) herror, work, List.mem_singleton.mpr rfl,
        hrefuses⟩
  | @join kind on rightWidth left right hleft hright ihleft ihright =>
    -- the outputs of both sides are free, so each of them can become an input of the join
    rw [joining, setupFed, hleft.outlet_eq, hright.outlet_eq]
    rcases ihleft with ⟨leftReady, hleftSetup, -, -, hleftStarts⟩ |
      ⟨error, failed, hleftSetup, work, hmem, hrefuses⟩
    · rcases ihright with ⟨rightReady, hrightSetup, -, -, hrightStarts⟩ |
        ⟨error, failed, hrightSetup, work, hmem, hrefuses⟩
      · left
        simp only [hleftSetup, hrightSetup]
        exact ⟨_, rfl, rfl, rfl, starts_join hleftStarts hrightStarts⟩
      · right
        simp only [hleftSetup, hrightSetup]
        exact ⟨error, _, rfl, work, List.mem_append_right _ hmem, hrefuses⟩
    · right
      simp only [hleftSetup]
      exact ⟨error, _, rfl, work, List.mem_append_left _ hmem, hrefuses⟩
  | @sequence name first works hfirst hworks ih =>
    have hreads : ∀ own ∈ works, own.2.readsInput = true := fun own hown => (hworks own hown).1
    rcases ih with ⟨ready, hsetup, houtlet, -, hstarts⟩ |
      ⟨error, failed, hsetup, work, hmem, hrefuses⟩
    · rcases setupAll_or_refuses hworks with hrest | ⟨error, failed, hrest, own, hown, hrefuses⟩
      · left
        exact ⟨_, setupFed_sequence hfirst.outlet_eq houtlet hreads hsetup hrest,
          outletAfter_chain _ _ works houtlet, isChain_sequence (chain_ne_nil _ _),
          starts_chain (fun own hown => Work.isReady_of_readsInput (hreads own hown)) hstarts⟩
      · right
        rw [inSequence, setupFed, wire, wireAfter_map_ofWork hfirst.outlet_eq hreads]
        simp only [setupAll, hsetup, hrest]
        refine ⟨error, _, rfl, own.2, List.mem_append_right _ ?_, hrefuses⟩
        rw [worksOf_map_ofWork]
        exact List.mem_map_of_mem hown
    · right
      rw [inSequence, setupFed, wire, wireAfter_map_ofWork hfirst.outlet_eq hreads]
      simp only [setupAll, hsetup]
      exact ⟨error, _, rfl, work, List.mem_append_left _ hmem, hrefuses⟩

end Task
end SqlPipeline
