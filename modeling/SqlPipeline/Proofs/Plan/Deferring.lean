import Mathlib
import SqlPipeline.Plan.Metadata
import SqlPipeline.Proofs.Job.Calls
import SqlPipeline.Proofs.Job.Execution
import SqlPipeline.Proofs.Plan.Alike
import SqlPipeline.Proofs.Table.InMemory

/-!
# Visitors that defer

A visitor is asked before the job plans anything on its own, and for the WHERE clause even before
the tables are looked up. If it defers what it is asked, it is transparent all the same: a call that
is deferred is alike to no call (`Compiling.alike_consult`), and so is every step that makes one.

**Compiling with a visitor that defers comes to the same as compiling without one, be it an error or
a task and a layout** (`Execution.compile_deferring`). The visitor of metadata is of this kind for all
statements but those it answers.
-/

namespace SqlPipeline

open Sql (Statement Select)

/-- Whether a statement asks about tables or settings, or changes a setting. -/
def Sql.Statement.isMetadata : Statement → Bool
  | .showing _ | .describe _ | .set _ => true
  | _ => false

/-- The visitor defers a call, whatever it was asked before. On the way it may tell things to the
job and ask the planner. -/
def Visitor.Defers (visitor : Visitor) (context : Context) (call : Call) : Prop :=
  ∀ history effects, (((visitor history call context).run).run effects).1 = .ok .deferred

/-- The visitor of metadata defers all clauses. -/
theorem Metadata.defers_clause {context : Context} {call : Call}
    (h : ∀ statement, call ≠ .statement statement) : Metadata.visitor.Defers context call := by
  cases call with
  | statement statement => exact absurd rfl (h statement)
  | _ => intro history effects; rfl

/-- It defers all statements that it does not answer. -/
theorem Metadata.defers_statement {context : Context} {statement : Statement}
    (h : statement.isMetadata = false) :
    Metadata.visitor.Defers context (.statement statement) := by
  cases statement with
  | showing what => cases h
  | describe table => cases h
  | set change => cases h
  | _ => intro history effects; rfl

namespace Compiling

variable {context : Context} {visitor : Visitor}

/-! ## Calls that are deferred -/

/-- A call that is deferred is written down, and nothing else comes of it. -/
theorem run_consult_deferred {call : Call} (hdefers : visitor.Defers context call)
    (compilation : Compilation) :
    ∃ effects, ((consult (some visitor) call context).run).run compilation =
      (.ok none, { compilation with calls := compilation.calls ++ [call], effects }) := by
  have hvisit := hdefers compilation.calls compilation.effects
  rw [run_consult, hvisit]
  exact ⟨_, rfl⟩

/-- A call that is deferred is alike to no call. -/
theorem alike_consult {call : Call} (hdefers : visitor.Defers context call) :
    Alike context (consult (some visitor) call) (consult none call) := by
  intro first second hagrees
  obtain ⟨effects, hrun⟩ := run_consult_deferred hdefers first
  rw [hrun]
  exact ⟨rfl, hagrees.statement_eq, hagrees.layout_eq⟩

/-- A clause that is deferred is planned by the job. -/
theorem alike_clause {what : String} {call : Call} {own : Compiling (Option Task)}
    (hdefers : visitor.Defers context call) (hown : Steady context own) :
    Alike context (clause (some visitor) what call own) (clause none what call own) := by
  apply alike_bind (alike_consult hdefers)
  intro visit
  cases visit with
  | none => exact hown
  | some visit =>
    apply alike_bind (steady_ofResult _)
    intro checked
    exact steady_pure _

/-! ## Selects -/

/-- The WHERE clause is asked for after the one row there is without a FROM clause, but before the
tables of a FROM clause. -/
theorem alike_rows {select : Select}
    (hcondition : visitor.Defers context (.condition select.condition)) :
    Alike context (rows (some visitor) select) (rows none select) := by
  unfold rows
  cases select.source with
  | none =>
    apply alike_bind (steady_make _)
    intro values
    apply alike_bind (alike_clause hcondition (steady_condition _))
    intro filter
    exact steady_pure _
  | some source =>
    apply alike_bind (alike_consult hcondition)
    intro visit
    cases visit with
    | none =>
      apply alike_bind (steady_tables _ _)
      intro found
      apply alike_bind (steady_condition _)
      intro filter
      exact steady_pure _
    | some visit =>
      apply alike_bind (steady_tables _ _)
      intro found
      apply alike_bind (steady_ofResult _)
      intro checked
      exact steady_pure _

/-- A visitor that defers all clauses is transparent for a select. -/
theorem alike_select (select : Select)
    (hdefers : ∀ call, (∀ statement, call ≠ .statement statement) →
      visitor.Defers context call) :
    Alike context (Compiling.select (some visitor) select) (Compiling.select none select) := by
  have hdistinct : Steady context (some <$> make .distinct) :=
    alike_bind (steady_make _) fun task => steady_pure (some task)
  apply alike_bind (steady_setLayout .empty)
  intro done
  apply alike_bind (alike_rows (hdefers _ (by simp)))
  intro rows
  apply alike_bind (alike_clause (hdefers _ (by simp)) (steady_grouping select))
  intro groups
  apply alike_bind (alike_clause (hdefers _ (by simp)) (steady_condition select.having))
  intro having
  apply alike_bind (alike_clause (hdefers _ (by simp)) (steady_projection select.items))
  intro projected
  by_cases hasked : select.distinct = true
  · rw [if_pos hasked]
    apply alike_bind hdistinct
    intro distinct
    exact steady_make _
  · rw [if_neg hasked]
    apply alike_bind (steady_pure none)
    intro distinct
    exact steady_make _

/-! ## Statements -/

theorem alike_statement (statement : Statement)
    (hdefers : ∀ call, (∀ statement, call ≠ .statement statement) →
      visitor.Defers context call) :
    Alike context (Compiling.statement (some visitor) statement)
      (Compiling.statement none statement) := by
  cases statement with
  | select query => exact alike_select query hdefers
  | insert rows => exact steady_insert false rows
  | upsert rows => exact steady_insert true rows
  | update change => exact steady_update change
  | delete change => exact steady_delete change
  | _ => exact steady_throw _

/-- A visitor that defers the statement of a text and all clauses is transparent for the text. -/
theorem alike_compile
    (hstatement : ∀ statement, parse context.raw = .ok statement →
      visitor.Defers context (.statement statement))
    (hclauses : ∀ call, (∀ statement, call ≠ .statement statement) →
      visitor.Defers context call) :
    Alike context (compile (some visitor)) (compile none) := by
  have hvisit : ∀ statement, parse context.raw = .ok statement →
      Alike context (visit (some visitor) statement) (visit none statement) := by
    intro statement hparse
    apply alike_bind (alike_consult (hstatement statement hparse))
    intro found
    cases found with
    | none =>
      apply alike_bind (alike_statement statement hclauses)
      intro task
      exact steady_pure _
    | some visit => exact steady_ofResult _
  show Alike context (ofResult (parse context.raw) >>= _) (ofResult (parse context.raw) >>= _)
  apply alike_ofResult_bind
  intro statement hparse
  have hkept : Steady context (modify fun compilation : Compilation =>
      { compilation with statement := some statement }) :=
    fun first second hagrees => ⟨rfl, rfl, hagrees.layout_eq⟩
  apply alike_bind hkept
  intro done
  apply alike_bind (hvisit statement hparse)
  intro visit
  cases visit.task with
  | none => exact steady_throw _
  | some task => exact steady_ofResult _

end Compiling

/-! ## The main statement -/

namespace Execution

/-- What a job that compiles its statement shows of it: the result, the job with its root, the
statement, and the layout of the rows. -/
def outcome (spec : JobSpec) (world : World) :
    (Result Unit × StatementJob) × Option Statement × Layout :=
  let (compiled, last) := Job.new.compile spec.driving world
  (compiled, last.compilation.statement, last.compilation.layout)

theorem outcome_eq (spec : JobSpec) (world : World) :
    outcome spec world = (match compiled spec world with
      | (.error error, left) => ((.error error, Job.new), left.statement, left.layout)
      | (.ok root, left) => ((.ok (), ⟨.compiled, some root⟩), left.statement, left.layout)) := by
  have hcompile : spec.driving.compile world =
      ((compiled spec world).1, { world with compilation := (compiled spec world).2 }) := rfl
  unfold outcome
  rw [Job.compile_of_created rfl, hcompile]
  rcases compiled spec world with ⟨_ | root, left⟩ <;> rfl

/-- Visitors that are alike for compiling show the same outcome. -/
theorem outcome_of_alike {spec : JobSpec} {world : World} {visitor other : Option Visitor}
    (h : Compiling.Alike (context spec world) (Compiling.compile visitor)
      (Compiling.compile other)) :
    outcome { spec with visitor := visitor } world =
      outcome { spec with visitor := other } world := by
  have hcompiled : (compiled { spec with visitor := visitor } world).1 =
        (compiled { spec with visitor := other } world).1 ∧
      (compiled { spec with visitor := visitor } world).2.Agrees
        (compiled { spec with visitor := other } world).2 :=
    h world.compilation world.compilation ⟨rfl, rfl⟩
  rw [outcome_eq, outcome_eq]
  generalize compiled { spec with visitor := visitor } world = first at hcompiled ⊢
  generalize compiled { spec with visitor := other } world = second at hcompiled ⊢
  obtain ⟨result, left⟩ := first
  obtain ⟨_, leftOther⟩ := second
  obtain ⟨⟨⟩, hstatement, hlayout⟩ := hcompiled
  dsimp only at hstatement hlayout
  cases result with
  | error error => simp only [hstatement, hlayout]
  | ok root => simp only [hstatement, hlayout]

/-- **A visitor that defers is transparent.** Whatever the text, the schema, the configuration and
the planner: compiling with a visitor that defers every call, whatever else it does, shows the same
outcome as compiling without one: the same error, or the same root with all that is bound in it, and
the same layout. So does compiling with the visitor of metadata, unless the statement asks about
tables or settings or changes a setting. -/
theorem compile_deferring (spec : JobSpec) (world : World) :
    (∀ visitor : Visitor, (∀ call, visitor.Defers (context spec world) call) →
      outcome { spec with visitor := some visitor } world =
        outcome { spec with visitor := none } world) ∧
      ((∀ statement, Compiling.parse spec.raw = .ok statement → statement.isMetadata = false) →
        outcome { spec with visitor := some Metadata.visitor } world =
          outcome { spec with visitor := none } world) := by
  refine ⟨?deferring, ?metadata⟩
  case deferring =>
    intro visitor hdefers
    apply outcome_of_alike
    apply Compiling.alike_compile
    · intro statement hparse
      exact hdefers _
    · intro call hclause
      exact hdefers call
  case metadata =>
    intro hother
    apply outcome_of_alike
    apply Compiling.alike_compile
    · intro statement hparse
      exact Metadata.defers_statement (hother statement hparse)
    · intro call hclause
      exact Metadata.defers_clause hclause

/-- The visitor that defers every call, but not without having panics passed on. -/
def meddling : Visitor := fun _ _ => do
  modify fun effects => { effects with signals := { effects.signals with recoveryDisabled := true } }
  return .deferred

def ownedPets : Select :=
  ⟨false, [.expr (.ident ⟨"kind", false⟩)], none, some ⟨⟨⟨[⟨"pets", false⟩]⟩, none⟩, []⟩,
    some (.binary (.ident ⟨"owner", false⟩) .eq (.literal (.number "2"))), [], none⟩

/-- A select is compiled alike without a visitor, with one that meddles, and with the visitor of
metadata. -/
theorem compile_deferring_family :
    let spec : JobSpec := ⟨"SELECT kind FROM pets WHERE owner = 2", .default, .inMemory, none⟩
    let world : World := .start (some .family) .default
    ((∀ call, meddling.Defers (context spec world) call) ∧
      outcome { spec with visitor := some meddling } world = outcome spec world) ∧
        (∀ statement, Compiling.parse spec.raw = .ok statement → statement.isMetadata = false) ∧
          outcome { spec with visitor := some Metadata.visitor } world = outcome spec world := by
  intro spec world
  have hdefers : ∀ call, meddling.Defers (context spec world) call :=
    fun call history effects => rfl
  have hparse : Compiling.parse spec.raw = .ok (.select ownedPets) := by cbv
  have hother : ∀ statement, Compiling.parse spec.raw = .ok statement →
      statement.isMetadata = false := by
    intro statement hstatement
    rw [hparse] at hstatement
    cases hstatement
    rfl
  exact ⟨⟨hdefers, (compile_deferring spec world).1 meddling hdefers⟩, hother,
    (compile_deferring spec world).2 hother⟩

end Execution
end SqlPipeline
