import SqlPipeline.Proofs.Plan.Does

/-!
# What compiling depends on

While a statement is compiled, things are told to the job and asked of the planner and the visitor,
and all of that is kept. None of it has a say in what is compiled. Two steps are alike if they come
to the same result, the same statement and the same layout from wherever the statement and the
layout so far are the same (`Compiling.Alike`). **Every step by which a job plans on its own is
alike to itself**, or steady (`Compiling.steady_condition`, `Compiling.steady_tables` and so on).

For a step of planning this means that the context settles what it comes to (`Planning.Settled`).
-/

namespace SqlPipeline

open Sql (Expr Select SelectItem)

variable {α β : Type} {context : Context}

/-! ## Planning -/

namespace Planning

/-- Whether the context alone settles what a step comes to. -/
def Settled (context : Context) (step : Planning α) : Prop :=
  ∃ result, Does context step result

theorem settled_pure (a : α) : Settled context (pure a : Planning α) :=
  ⟨_, does_pure a⟩

theorem settled_throw (error : Error) : Settled context (throw error : Planning α) :=
  ⟨_, does_throw error⟩

theorem settled_ofResult (result : Result α) : Settled context (ofResult result) :=
  ⟨_, does_ofResult result⟩

/-- The planner answers alike whatever it was asked before. -/
theorem settled_make (request : Request) : Settled context (make request) :=
  ⟨_, does_make request⟩

theorem settled_bind {step : Planning α} {next : α → Planning β} (hstep : Settled context step)
    (hnext : ∀ a, Settled context (next a)) : Settled context (step >>= next) := by
  obtain ⟨result, hresult⟩ := hstep
  choose f hf using hnext
  exact ⟨result >>= f, does_bind hresult fun a _ => hf a⟩

theorem settled_read {next : Context → Planning β} (hnext : Settled context (next context)) :
    Settled context (read >>= next) := by
  obtain ⟨result, hresult⟩ := hnext
  exact ⟨result, does_then does_read hresult⟩

theorem settled_collect {steps : List (Planning α)} (h : ∀ step ∈ steps, Settled context step) :
    Settled context (collect steps) := by
  have hall : ∃ results, List.Forall₂ (Does context) steps results := by
    induction steps with
    | nil => exact ⟨[], .nil⟩
    | cons step rest ih =>
      obtain ⟨result, hresult⟩ := h step List.mem_cons_self
      obtain ⟨results, hresults⟩ := ih fun other hother => h other (List.mem_cons_of_mem _ hother)
      exact ⟨result :: results, .cons hresult hresults⟩
  obtain ⟨results, hresults⟩ := hall
  exact ⟨_, does_collect hresults⟩

/-! ### Tables -/

theorem settled_resolveTable (name : Sql.ObjectName) : Settled context (resolveTable name) := by
  apply settled_read
  cases context.schema with
  | none => exact settled_throw .noSchemaSelected
  | some schema =>
    dsimp only
    split
    · exact settled_throw _
    · split
      · exact settled_throw _
      · exact settled_pure _

theorem settled_resolve (table : Sql.TableRef) : Settled context (SourcePlan.resolve table) := by
  apply settled_bind (settled_resolveTable table.name)
  intro found
  exact settled_pure _

theorem settled_filtered (plan : SourcePlan) (name : String) :
    Settled context (plan.filtered name) := by
  have hcondition : ∀ expr, Settled context (plan.condition expr) := by
    intro expr
    cases expr with
    | none => exact settled_pure none
    | some expr =>
      apply settled_bind (settled_ofResult _)
      intro predicate
      apply settled_bind (settled_make _)
      intro task
      exact settled_pure _
  apply settled_bind (settled_make _)
  intro scan
  apply settled_bind (hcondition plan.filter)
  intro filter
  exact settled_make _

theorem settled_extend (task : Task) (layout : Layout) (rest : List (Sql.Join × Task × Layout)) :
    Settled context (JoinPlan.extend task layout rest) := by
  induction rest generalizing task layout with
  | nil => exact settled_pure _
  | cons side rest ih =>
    apply settled_bind (settled_ofResult _)
    intro on
    apply settled_bind (settled_make _)
    intro joined
    exact ih joined _

theorem settled_ofFrom (clause : Sql.From) (condition : Option Expr) :
    Settled context (JoinPlan.ofFrom clause condition) := by
  have hresolve : ∀ step ∈ clause.tables.map SourcePlan.resolve, Settled context step := by
    intro step hstep
    obtain ⟨table, -, rfl⟩ := List.mem_map.mp hstep
    exact settled_resolve table
  have hjoinSides : ∀ plans : List SourcePlan,
      ∀ step ∈ plans.map SourcePlan.joinSide, Settled context step := by
    intro plans step hstep
    obtain ⟨plan, -, rfl⟩ := List.mem_map.mp hstep
    exact settled_filtered plan "join_side"
  apply settled_bind (settled_collect hresolve)
  intro plans
  -- how the condition is shared out among the tables does not matter here
  apply settled_bind (settled_collect (hjoinSides _))
  intro sides
  split
  · apply settled_bind (settled_extend _ _ _)
    intro joined
    exact settled_pure _
  · exact settled_throw _

end Planning

/-! ## Compiling -/

/-- Whether the statement and the layout so far are the same. What was told and asked may differ. -/
structure Compilation.Agrees (first second : Compilation) : Prop where
  statement_eq : first.statement = second.statement
  layout_eq : first.layout = second.layout

namespace Compiling

/-- From compilations that agree, both steps come to the same result, and to compilations that
agree. -/
def Alike (context : Context) (step other : Compiling α) : Prop :=
  ∀ first second : Compilation, first.Agrees second →
    (((step context).run).run first).1 = (((other context).run).run second).1 ∧
      (((step context).run).run first).2.Agrees (((other context).run).run second).2

/-- A step that is alike to itself depends on the statement and the layout so far only. -/
abbrev Steady (context : Context) (step : Compiling α) : Prop :=
  Alike context step step

theorem steady_pure (a : α) : Steady context (pure a) :=
  fun _ _ hagrees => ⟨rfl, hagrees⟩

theorem steady_throw (error : Error) : Steady context (throw error : Compiling α) :=
  fun _ _ hagrees => ⟨rfl, hagrees⟩

/-- After a failure nothing more is done, whatever was to come. -/
theorem steady_throw_bind (error : Error) (next : α → Compiling β) :
    Steady context ((throw error : Compiling α) >>= next) :=
  fun _ _ hagrees => ⟨rfl, hagrees⟩

/-- Steps that are alike may be followed by steps that are alike. -/
theorem alike_bind {step other : Compiling α} {next nextOther : α → Compiling β}
    (hstep : Alike context step other) (hnext : ∀ a, Alike context (next a) (nextOther a)) :
    Alike context (step >>= next) (other >>= nextOther) := by
  intro first second hagrees
  obtain ⟨hresult, hafter⟩ := hstep first second hagrees
  rw [run_bind, run_bind]
  generalize ((step context).run).run first = ran at hresult hafter ⊢
  generalize ((other context).run).run second = ranOther at hresult hafter ⊢
  obtain ⟨result, left⟩ := ran
  obtain ⟨_, leftOther⟩ := ranOther
  cases hresult
  cases result with
  | error error => exact ⟨rfl, hafter⟩
  | ok a => exact hnext a left leftOther hafter

/-- What is kept so far may be looked at if only the layout is used of it. -/
theorem steady_get {next : Compilation → Compiling β}
    (hnext : ∀ first second : Compilation, first.layout = second.layout →
      Alike context (next first) (next second)) : Steady context (get >>= next) :=
  fun first second hagrees => hnext first second hagrees.layout_eq first second hagrees

theorem steady_setLayout (layout : Layout) : Steady context (setLayout layout) :=
  fun _ _ hagrees => ⟨rfl, hagrees.statement_eq, rfl⟩

/-- A step of planning leaves the statement and the layout alone. -/
theorem steady_plan {step : Planning α} (hstep : Planning.Settled context step) :
    Steady context (plan step) := by
  intro first second hagrees
  obtain ⟨result, hresult⟩ := hstep
  obtain ⟨requests, hrun⟩ := hresult first.effects
  obtain ⟨others, hother⟩ := hresult second.effects
  rw [run_plan, run_plan, hrun, hother]
  exact ⟨rfl, hagrees.statement_eq, hagrees.layout_eq⟩

theorem steady_ofResult (result : Result α) : Steady context (ofResult result) :=
  steady_plan (Planning.settled_ofResult result)

/-- A value that is there is gone on with. -/
theorem alike_ofResult_bind {result : Result α} {next nextOther : α → Compiling β}
    (hnext : ∀ a, result = .ok a → Alike context (next a) (nextOther a)) :
    Alike context (ofResult result >>= next) (ofResult result >>= nextOther) := by
  cases result with
  | error error =>
    intro first second hagrees
    exact ⟨rfl, hagrees.statement_eq, hagrees.layout_eq⟩
  | ok a =>
    intro first second hagrees
    exact hnext a rfl first second hagrees

theorem steady_make (request : Request) : Steady context (make request) :=
  steady_plan (Planning.settled_make request)

/-! ### Clauses of a select -/

theorem steady_condition (expr : Option Expr) : Steady context (condition expr) := by
  cases expr with
  | none => exact steady_pure none
  | some expr =>
    apply steady_get
    intro first second hlayout
    rw [hlayout]
    apply alike_bind (steady_ofResult _)
    intro predicate
    apply alike_bind (steady_make _)
    intro task
    exact steady_pure (some task)

theorem steady_grouping (select : Select) : Steady context (grouping select) := by
  apply steady_get
  intro first second hlayout
  rw [hlayout]
  apply alike_bind (steady_ofResult _)
  intro aggregates
  split
  · exact steady_pure none
  · apply alike_bind (steady_ofResult _)
    intro keys
    apply alike_bind (steady_make _)
    intro task
    apply alike_bind (steady_setLayout _)
    intro done
    exact steady_pure (some task)

theorem steady_projection (items : List SelectItem) :
    Steady context (projection items) := by
  apply steady_get
  intro first second hlayout
  rw [hlayout]
  apply alike_bind (steady_ofResult _)
  intro columns
  apply alike_bind (steady_make _)
  intro task
  apply alike_bind (steady_setLayout _)
  intro done
  exact steady_pure (some task)

theorem steady_tables (clause : Sql.From) (filter : Option Expr) :
    Steady context (tables clause filter) := by
  unfold tables
  split
  · apply alike_bind (steady_plan (Planning.settled_resolve clause.table))
    intro source
    apply alike_bind (steady_setLayout source.layout)
    intro done
    apply alike_bind (steady_plan (Planning.settled_filtered _ _))
    intro task
    exact steady_pure _
  · apply alike_bind (steady_plan (Planning.settled_ofFrom clause filter))
    intro joined
    apply alike_bind (steady_setLayout joined.layout)
    intro done
    exact steady_pure _

/-! ### Changes -/

/-- An INSERT whose columns are known. -/
theorem steady_insertInto (upserts : Bool) (lists : List (List Expr)) (table : ResolvedTable)
    (columns : List Nat) :
    Steady context (do
      if upserts ∧ !columns.contains 0 then
        let key := (table.definition.columns.head?.map ColumnDef.name).getD ""
        throw (.plan ("UPSERT requires a value for key column '" ++ key ++ "'"))
      let rows ← ofResult (lists.mapM (insertRow columns.length))
      let values ← make (.values rows)
      let change := if upserts then Change.upsert columns else Change.insert columns
      let mutation ← make (.mutation table change)
      let task ← make (.sequence change.name [values, mutation])
      setLayout countLayout
      return task) := by
  by_cases hkey : upserts = true ∧ (!columns.contains 0) = true
  · rw [if_pos hkey]
    exact steady_throw_bind _ _
  · rw [if_neg hkey]
    apply alike_bind (steady_ofResult _)
    intro rows
    apply alike_bind (steady_make _)
    intro values
    apply alike_bind (steady_make _)
    intro mutation
    apply alike_bind (steady_make _)
    intro task
    apply alike_bind (steady_setLayout countLayout)
    intro done
    exact steady_pure task

theorem steady_insert (upserts : Bool) (rows : Sql.Insert) :
    Steady context (insert upserts rows) := by
  apply alike_bind (steady_setLayout .empty)
  intro done
  apply alike_bind (steady_plan (Planning.settled_resolveTable rows.table))
  intro table
  dsimp only
  by_cases hnone : rows.columns.isEmpty = true
  · rw [if_pos hnone]
    apply alike_bind (steady_pure _)
    intro columns
    exact steady_insertInto upserts rows.rows table columns
  · rw [if_neg hnone]
    apply alike_bind (steady_ofResult _)
    intro columns
    exact steady_insertInto upserts rows.rows table columns

theorem steady_tableCondition (name : Sql.ObjectName) (filter : Option Expr) :
    Steady context (tableCondition name filter) := by
  apply alike_bind (steady_plan (Planning.settled_resolveTable name))
  intro table
  apply alike_bind (steady_ofResult _)
  intro condition
  exact steady_pure _

theorem steady_changeTask (table : ResolvedTable) (change : Change) :
    Steady context (changeTask table change) := by
  apply alike_bind (steady_make _)
  intro mutation
  apply alike_bind (steady_make _)
  intro task
  apply alike_bind (steady_setLayout countLayout)
  intro done
  exact steady_pure task

theorem steady_update (change : Sql.Update) : Steady context (update change) := by
  apply alike_bind (steady_setLayout .empty)
  intro done
  apply alike_bind (steady_tableCondition change.table change.condition)
  intro found
  apply alike_bind (steady_ofResult _)
  intro assignments
  exact steady_changeTask _ _

theorem steady_delete (change : Sql.Delete) : Steady context (delete change) := by
  apply alike_bind (steady_setLayout .empty)
  intro done
  apply alike_bind (steady_tableCondition change.table change.condition)
  intro found
  exact steady_changeTask _ _

end Compiling
end SqlPipeline
