import SqlPipeline.Proofs.Plan.Does

/-!
# Steps of compiling, taken apart

Compiling a text is to parse it, to visit its statement and to see what became of the visit
(`Compiling.run_compile`), and compiling a select is to put together the tasks of its clauses
(`Compiling.select_eq`).

Much of what compiling keeps is of no concern to most of its steps. A relation on compilations is
kept up by a step if it holds between the compilation before the step and that after it, whether the
step fails or not (`Compiling.Leads`). Relations that are kept up by what the clauses of a select
are put together from (`Compiling.Admits`) are kept up by the clauses.
-/

namespace SqlPipeline

open Sql (Expr Select)

variable {α β : Type} {context : Context}

def Request.isSource : Request → Bool
  | .source _ _ => true
  | _ => false

namespace Compiling

/-- Two steps that succeed one after the other succeed each. -/
theorem run_bind_eq_ok {step : Compiling α} {next : α → Compiling β} {before last : Compilation}
    {b : β} (h : (((step >>= next) context).run).run before = (.ok b, last)) :
    ∃ a between, ((step context).run).run before = (.ok a, between) ∧
      ((next a context).run).run between = (.ok b, last) := by
  rw [run_bind] at h
  rcases hstep : ((step context).run).run before with ⟨error | a, between⟩
  · rw [hstep] at h
    cases h
  · rw [hstep] at h
    exact ⟨a, between, rfl, h⟩

theorem run_ofResult (result : Result α) (before : Compilation) :
    ((ofResult result context).run).run before = (result, before) := by
  cases result <;> rfl

/-- A step that succeeds does what it came to. -/
theorem Does.eq_ok {step : Compiling α} {before last : Compilation} {result : Result (α × Layout)}
    {a : α} (h : Does context before.layout step result)
    (hrun : ((step context).run).run before = (.ok a, last)) : result = .ok (a, last.layout) := by
  obtain ⟨left, hdoes, -, hlayout⟩ := h before rfl
  rw [hdoes] at hrun
  cases result with
  | error error => cases hrun
  | ok found =>
    cases hrun
    rw [hlayout found.1 found.2 rfl]

/-- A task that was made is the planner's answer. -/
theorem run_make_eq_ok {request : Request} {before last : Compilation} {task : Task}
    (h : ((make request context).run).run before = (.ok task, last)) :
    context.planner request = .ok task ∧ last.layout = before.layout := by
  have hdoes := (does_make request).eq_ok h
  cases htask : context.planner request with
  | error error => rw [htask] at hdoes; cases hdoes
  | ok made =>
    rw [htask] at hdoes
    obtain ⟨hmade, hlayout⟩ := Prod.mk.inj (Except.ok.inj hdoes)
    exact ⟨congrArg Except.ok hmade, hlayout.symm⟩

/-! ### Statements -/

/-- What becomes of the visit of a statement. -/
def conclude (raw : String) (visit : Visit) : Compiling Task :=
  match visit.task with
  | none => throw (.noTaskFound raw)
  | some task => ofResult task.runnable

/-- Compiling the text of a statement is to visit the statement. -/
theorem run_compile {query : Sql.Statement} (hparse : parse context.raw = .ok query)
    (visitor : Option Visitor) (before : Compilation) :
    ((compile visitor context).run).run before =
      (((visit visitor query >>= conclude context.raw) context).run).run
        { before with statement := some query } := by
  have hcompile : ((compile visitor context).run).run before =
    (((ofResult (parse context.raw) >>= fun query => _) context).run).run before := rfl
  rw [hcompile, run_bind, run_ofResult, hparse]
  rfl

/-! ### Relations on compilations -/

variable {R : Compilation → Compilation → Prop}

/-- Wherever it is taken, the step leads to a compilation related to that before it. -/
def Leads (context : Context) (R : Compilation → Compilation → Prop) (step : Compiling α) : Prop :=
  ∀ before, R before (((step context).run).run before).2

/-- The relation is kept up by steps that follow each other, that change the layout, or that ask for
a task, but not for the rows of a table. -/
structure Admits (context : Context) (R : Compilation → Compilation → Prop) : Prop where
  refl : ∀ before, R before before
  trans : ∀ before between after, R before between → R between after → R before after
  setLayout : ∀ layout, Leads context R (setLayout layout)
  make : ∀ request : Request, request.isSource = false → Leads context R (make request)

theorem leads_bind (hadmits : Admits context R) {step : Compiling α} {next : α → Compiling β}
    (hstep : Leads context R step) (hnext : ∀ a, Leads context R (next a)) :
    Leads context R (step >>= next) := by
  intro before
  have hfirst := hstep before
  rw [run_bind]
  generalize ((step context).run).run before = ran at hfirst ⊢
  obtain ⟨error | a, left⟩ := ran
  · exact hfirst
  · exact hadmits.trans _ _ _ hfirst (hnext a left)

theorem leads_pure (hadmits : Admits context R) (a : α) : Leads context R (pure a) :=
  fun before => hadmits.refl before

theorem leads_get (hadmits : Admits context R) : Leads context R get :=
  fun before => hadmits.refl before

theorem leads_ofResult (hadmits : Admits context R) (result : Result α) :
    Leads context R (ofResult result) := by
  cases result with
  | ok a => exact fun before => hadmits.refl before
  | error error => exact fun before => hadmits.refl before

/-! ### Clauses -/

theorem leads_condition (hadmits : Admits context R) (expr : Option Expr) :
    Leads context R (condition expr) := by
  cases expr with
  | none => exact leads_pure hadmits none
  | some expr =>
    refine leads_bind hadmits (leads_get hadmits) fun compilation => ?_
    refine leads_bind hadmits (leads_ofResult hadmits _) fun predicate => ?_
    exact leads_bind hadmits (hadmits.make _ rfl) fun task => leads_pure hadmits _

theorem leads_grouping (hadmits : Admits context R) (select : Select) :
    Leads context R (grouping select) := by
  refine leads_bind hadmits (leads_get hadmits) fun compilation => ?_
  refine leads_bind hadmits (leads_ofResult hadmits _) fun aggregates => ?_
  split
  · exact leads_pure hadmits none
  · refine leads_bind hadmits (leads_ofResult hadmits _) fun keys => ?_
    refine leads_bind hadmits (hadmits.make _ rfl) fun task => ?_
    exact leads_bind hadmits (hadmits.setLayout _) fun _ => leads_pure hadmits _

theorem leads_projection (hadmits : Admits context R) (items : List Sql.SelectItem) :
    Leads context R (projection items) := by
  refine leads_bind hadmits (leads_get hadmits) fun compilation => ?_
  refine leads_bind hadmits (leads_ofResult hadmits _) fun columns => ?_
  refine leads_bind hadmits (hadmits.make _ rfl) fun task => ?_
  exact leads_bind hadmits (hadmits.setLayout _) fun _ => leads_pure hadmits _

/-- Puts the tasks of a select together, with one for distinct rows at the end if that is asked
for. -/
def together (query : Select) (tasks : List Task) : Compiling Task := do
  let distinct ← if query.distinct then some <$> make .distinct else pure none
  make (.sequence "select" (tasks ++ distinct.toList))

/-- The tasks of a select are those of its clauses, put together. -/
theorem select_eq (visitor : Option Visitor) (query : Select) :
    select visitor query = setLayout .empty >>= fun _ => rows visitor query >>= fun rows =>
      clause visitor "GROUP BY" (.grouping query) (grouping query) >>= fun groups =>
      clause visitor "HAVING" (.having query.having) (condition query.having) >>= fun having =>
      clause visitor "projection" (.projection query.items) (projection query.items) >>=
        fun projected =>
          together query (rows ++ groups.toList ++ having.toList ++ projected.toList) := rfl

theorem leads_together (hadmits : Admits context R) (query : Select) (tasks : List Task) :
    Leads context R (together query tasks) := by
  unfold together
  by_cases hdistinct : query.distinct = true
  · rw [if_pos hdistinct]
    have hmake : Leads context R (some <$> make .distinct) :=
      leads_bind hadmits (hadmits.make _ rfl) fun task => leads_pure hadmits (some task)
    exact leads_bind hadmits hmake fun distinct => hadmits.make _ rfl
  · rw [if_neg hdistinct]
    exact leads_bind hadmits (leads_pure hadmits none) fun distinct => hadmits.make _ rfl

end Compiling
end SqlPipeline
