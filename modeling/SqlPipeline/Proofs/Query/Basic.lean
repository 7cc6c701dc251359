import SqlPipeline.Proofs.Task.Flow
import SqlPipeline.Proofs.Task.Gives

/-!
# Queries

The tree of tasks of a query is built from few kinds of tasks in few ways, and `Query` is that tree
without what setting up and running writes into it. It is read in two ways: as the tasks that are
run (`Query.task`), and as the flow of rows that comes out of them (`Query.flow`). That the first
reading gives the second is `Query.gives`; everything else that is proved about a query is proved
about its flow.
-/

namespace SqlPipeline

/-! ## Steps and queries -/

/-- What is done to the rows of a query, all in turn. -/
inductive Step where
  | filter (predicate : Bound)
  | projection (exprs : List Bound)
  | groupBy (keys : List Bound) (aggregates : List Aggregate)
  | distinct

namespace Step

def own : Step → String × Work
  | filter predicate => ("filter", .filter predicate)
  | projection exprs => ("projection", .projection exprs)
  | groupBy keys aggregates => ("group_by", .groupBy keys aggregates)
  | distinct => ("distinct", .distinct)

def task (step : Step) : Task :=
  Task.ofWork step.own.1 step.own.2

def flow (input : Flow) : Step → Flow
  | filter predicate => (Stage.filter predicate).flow input
  | projection exprs => (Stage.projection exprs).flow input
  | groupBy keys aggregates => (Stage.groupBy keys aggregates).flow input
  | distinct => Stage.distinct.flow input

theorem readsInput (step : Step) : step.own.2.readsInput = true := by
  cases step <;> rfl

theorem prepared (schema : Schema) (step : Step) : step.own.2.prepared schema = .ok step.own.2 := by
  cases step <;> rfl

theorem readsInput_of_mem {steps : List Step} {own : String × Work}
    (h : own ∈ steps.map Step.own) : own.2.readsInput = true := by
  obtain ⟨step, -, rfl⟩ := List.mem_map.mp h
  exact step.readsInput

theorem prepared_of_mem {steps : List Step} {own : String × Work} (schema : Schema)
    (h : own ∈ steps.map Step.own) : own.2.prepared schema = .ok own.2 := by
  obtain ⟨step, -, rfl⟩ := List.mem_map.mp h
  exact step.prepared schema

/-- The tasks of steps are tasks without children. -/
theorem map_task (steps : List Step) :
    steps.map task = (steps.map own).map fun own => Task.ofWork own.1 own.2 := by
  rw [List.map_map]
  rfl

/-- A step whose task is not told to stop makes its flow. -/
theorem flow_own {signals : Signals} (hshutdown : signals.shutdown = false) (step : Step)
    (input : Flow) (schema : Schema) :
    step.own.2.flow signals step.own.1 input schema = (step.flow input, schema) := by
  cases step <;> simp only [own, Work.flow, Work.turning, hshutdown, flow] <;> rfl

end Step

/-- The rows of a table, of which there are none if there is no table. -/
def Schema.rowsOf (schema : Schema) (key : String) : List Row :=
  ((schema.get? key).map Table.rows).getD []

/-- A query as a tree: rows that are there already, the rows of a table, the rows of two queries
joined, and the rows of a query after some steps. -/
inductive Query where
  | values (rows : List Row)
  | source (binding key : String)
  | join (kind : Sql.JoinKind) (on : Bound) (rightWidth : Nat) (left right : Query)
  | sequence (name : String) (first : Query) (steps : List Step)

namespace Query

def task : Query → Task
  | values rows => Task.values rows
  | source binding key => Task.source binding key
  | join kind on rightWidth left right => Task.joining kind on rightWidth left.task right.task
  | sequence name first steps => Task.inSequence name (first.task :: steps.map Step.task)

def flow (schema : Schema) : Query → Flow
  | values rows => .ofRows rows
  | source _ key => .ofRows (schema.rowsOf key)
  | join kind on rightWidth left right =>
    Flow.join kind on rightWidth (left.flow schema) (right.flow schema)
  | sequence _ first steps => steps.foldl Step.flow (first.flow schema)

/-- Whether the tables that a query reads are there and can be read. -/
def Reads (schema : Schema) : Query → Prop
  | values _ => True
  | source _ key => ∃ table, schema.get? key = some table ∧ table.scan = .ok table.rows
  | join _ _ _ left right => left.Reads schema ∧ right.Reads schema
  | sequence _ first _ => first.Reads schema

variable {signals : Signals} {schema : Schema}

/-- Steps make of a flow what their tasks make of it. -/
theorem feedAll_steps (hshutdown : signals.shutdown = false) (steps : List Step) (flow : Flow) :
    Task.feedAll signals (steps.map Step.own) flow schema =
      (steps.foldl Step.flow flow, schema) := by
  induction steps generalizing flow with
  | nil => rfl
  | cons step rest ih =>
    show Task.feedAll signals (rest.map Step.own)
      (step.own.2.flow signals step.own.1 flow schema).1
      (step.own.2.flow signals step.own.1 flow schema).2 = _
    rw [step.flow_own hshutdown]
    exact ih (step.flow flow)

/-- Rows that are there already are sent as they are. -/
theorem sending_empty (hshutdown : signals.shutdown = false) (rows : List Row) :
    Work.sending signals .empty rows = .ofRows rows := by
  unfold Work.sending
  rw [if_neg (by simp [hshutdown])]
  rfl

theorem joinFlow_empty (hshutdown : signals.shutdown = false) (kind : Sql.JoinKind) (on : Bound)
    (rightWidth : Nat) (left right : Flow) :
    Task.joinFlow signals kind on rightWidth .empty left right =
      Flow.join kind on rightWidth left right := by
  unfold Task.joinFlow
  rw [if_neg (by simp [hshutdown])]
  rfl

/-- Preparing a source reads the rows of its table. -/
theorem prepared_source {key : String} {table : Table} (htable : schema.get? key = some table)
    (hscan : table.scan = .ok table.rows) :
    (Work.source key none).prepared schema = .ok (.source key (some (schema.rowsOf key))) := by
  simp only [Work.prepared, Leaf.tableOf, htable, Result.ok_bind, hscan, Schema.rowsOf]
  rfl

/-- **The tasks of a query give its flow**, and change no table. -/
theorem gives (hshutdown : signals.shutdown = false) :
    ∀ {query : Query}, query.Reads schema →
      query.task.Gives signals schema (query.flow schema) schema
  | values rows, _ => by
    have h : (Task.values rows).Gives signals schema
        ((Work.values rows).flow signals "values" .empty schema).1 schema :=
      Task.gives_work rfl rfl rfl
    rw [Work.flow, sending_empty hshutdown] at h
    exact h
  | source binding key, ⟨table, htable, hscan⟩ => by
    have h : (Task.source binding key).Gives signals schema
        ((Work.source key (some (schema.rowsOf key))).flow signals ("source(" ++ binding ++ ")")
          .empty schema).1 schema :=
      Task.gives_work rfl (prepared_source htable hscan) rfl
    rw [Work.flow, sending_empty hshutdown] at h
    exact h
  | join kind on rightWidth left right, ⟨hleft, hright⟩ => by
    have hleftGives : left.task.Gives signals schema (left.flow schema) schema :=
      gives hshutdown hleft
    have hrightGives : right.task.Gives signals schema (right.flow schema) schema :=
      gives hshutdown hright
    rw [flow, ← joinFlow_empty hshutdown]
    exact Task.gives_join hleftGives hrightGives
  | sequence name first steps, hfirst => by
    have hfirstGives : first.task.Gives signals schema (first.flow schema) schema :=
      gives hshutdown hfirst
    have h : (Task.inSequence name (first.task :: (steps.map Step.own).map fun own =>
        Task.ofWork own.1 own.2)).Gives signals schema _ _ :=
      Task.gives_sequence hfirstGives (fun _ hown => Step.readsInput_of_mem hown)
        (fun _ hown => Step.prepared_of_mem schema hown)
    rw [feedAll_steps hshutdown, ← Step.map_task] at h
    exact h

end Query
end SqlPipeline
