import SqlPipeline.Proofs.Job.Execution
import SqlPipeline.Proofs.Query.Binds
import SqlPipeline.Proofs.Table.InMemory

/-!
# Executing a select

On tables in memory the execution of a select is known once its query is: it fails to compile if
there is no query, and otherwise it comes to the flow of the query, changes no table and leaves the
layout of the query (`Execution.RunsAs`, `Execution.run_select`).

The same is shown for a select whose FROM and WHERE clauses are planned in another way
(`Execution.run_withOutputs`), so that two ways to plan them can be compared.
-/

namespace SqlPipeline

open Sql (Select)

namespace Query

variable {schema : Schema}

/-- A query that fits a layout reads only tables that are there. -/
theorem Binds.reads (hschema : schema.InMemory) {query : Query} {layout : Layout}
    (h : query.Binds schema layout) : query.Reads schema := by
  induction h with
  | values _ => trivial
  | source htable => exact ⟨_, htable, hschema.scan_eq htable⟩
  | join _ _ _ ihleft ihright => exact ⟨ihleft, ihright⟩
  | sequence _ _ ih => exact ih

end Query

/-! ## The execution of a select -/

namespace Execution

variable {spec : JobSpec} {schema : Schema} {select : Select}

/-- On a schema, the job comes to the query that was found for it: it fails to compile if there is
none, and otherwise comes to the flow of the query, leaves its layout and changes no table. -/
structure RunsAs (spec : JobSpec) (schema : Schema) (found : Result (Query × Layout)) : Prop where
  fails : ∀ error, found = .error error → ∃ last : World, last.schema = some schema ∧
    Execution.run spec (.start (some schema) spec.config) =
      (⟨.compile, none, none, none, some (.error error)⟩, last)
  runs : ∀ query layout, found = .ok (query, layout) → ∃ last : World,
    last.schema = some schema ∧ last.compilation.layout = layout ∧
      Execution.run spec (.start (some schema) spec.config) =
        (ofFlow query.task (query.flow schema), last)

/-- A select whose rows before grouping are known is compiled into the tasks of its query. -/
theorem does_outputs (hplanner : spec.planner = Planner.inMemory)
    (hparse : Compiling.parse spec.raw = .ok (.select select))
    {found : Result (Query × Option Step × Layout)}
    (hrows : Compiling.Does (startContext spec schema) .empty
      (Compiling.rows spec.visitor select) (found.map Query.rowTasks))
    (hstatement : Compiling.Leaves (startContext spec schema) spec.visitor
      (.statement (.select select)))
    (hclauses : ∀ call, (∀ statement, call ≠ .statement statement) →
      (∀ expr, call ≠ .condition expr) →
      Compiling.Leaves (startContext spec schema) spec.visitor call) :
    Compiling.Does (startContext spec schema) .empty (Compiling.compile spec.visitor)
      ((found >>= Query.withOutputs select).map fun query => (query.1.task, query.2)) := by
  have hselect : Compiling.Does (startContext spec schema) .empty
      (Compiling.statement spec.visitor (.select select))
      ((found >>= Query.withOutputs select).map fun query => (query.1.task, query.2)) :=
    Query.does_withOutputs hplanner hrows (hclauses _ (by simp) (by simp))
      (hclauses _ (by simp) (by simp)) (hclauses _ (by simp) (by simp))
  refine does_compile hparse hstatement hselect fun task htask => ?_
  cases hquery : found >>= Query.withOutputs select with
  | error error => rw [hquery] at htask; cases htask
  | ok query => rw [hquery] at htask; cases htask; exact Query.runnable_task query.1

/-- A select that is left to the job is compiled into the tasks of its query. -/
theorem does_select (hplanner : spec.planner = Planner.inMemory)
    (hparse : Compiling.parse spec.raw = .ok (.select select))
    (hstatement : Compiling.Leaves (startContext spec schema) spec.visitor
      (.statement (.select select)))
    (hclauses : ∀ call, (∀ statement, call ≠ .statement statement) →
      Compiling.Leaves (startContext spec schema) spec.visitor call) :
    Compiling.Does (startContext spec schema) .empty (Compiling.compile spec.visitor)
      ((Query.ofSelect schema select).map fun query => (query.1.task, query.2)) :=
  does_outputs hplanner hparse (Query.does_rows rfl hplanner (hclauses _ (by simp))) hstatement
    fun call hcall _ => hclauses call hcall

/-- **The execution of a select whose rows before grouping are known.** -/
theorem run_withOutputs (hplanner : spec.planner = Planner.inMemory)
    (hparse : Compiling.parse spec.raw = .ok (.select select))
    {found : Result (Query × Option Step × Layout)}
    (hfound : ∀ rows, found = .ok rows → rows.1.Reads schema)
    (hrows : Compiling.Does (startContext spec schema) .empty
      (Compiling.rows spec.visitor select) (found.map Query.rowTasks))
    (hleaves : ∀ call, (∀ expr, call ≠ .condition expr) →
      Compiling.Leaves (startContext spec schema) spec.visitor call) :
    RunsAs spec schema (found >>= Query.withOutputs select) := by
  have hcompile : Compiling.Does (startContext spec schema) .empty
      (Compiling.compile spec.visitor)
      ((found >>= Query.withOutputs select).map fun query => (query.1.task, query.2)) :=
    does_outputs hplanner hparse hrows (hleaves _ (by simp)) fun call _ hcall => hleaves call hcall
  constructor
  · intro error herror
    rw [herror] at hcompile
    exact run_of_does_error hcompile
  · intro query layout hquery
    rw [hquery] at hcompile
    obtain ⟨rows, hfoundRows, hsteps⟩ := Result.bind_eq_ok.mp hquery
    obtain ⟨steps, -, hsequence⟩ := Result.bind_eq_ok.mp hsteps
    cases hsequence
    have hreads : (Query.sequence "select" rows.1 (rows.2.1.toList ++ steps.1)).Reads schema :=
      hfound rows hfoundRows
    exact run_of_does rfl hcompile fun signals hshutdown => Query.gives hshutdown hreads

/-- **The execution of a select that no visitor is asked about.** -/
theorem run_select (hschema : schema.InMemory) (hplanner : spec.planner = Planner.inMemory)
    (hvisitor : spec.visitor = none)
    (hparse : Compiling.parse spec.raw = .ok (.select select)) :
    RunsAs spec schema (Query.ofSelect schema select) := by
  have hleaves : ∀ call, Compiling.Leaves (startContext spec schema) spec.visitor call := by
    rw [hvisitor]
    exact Compiling.leaves_none
  exact run_withOutputs hplanner hparse
    (fun rows hrows => (Query.binds_rows hrows).1.reads hschema)
    (Query.does_rows rfl hplanner (hleaves _)) fun call _ => hleaves call

end Execution
end SqlPipeline
