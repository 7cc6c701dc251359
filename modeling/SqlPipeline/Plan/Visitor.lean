import SqlPipeline.Plan.Context

/-!
# Visitors

A visitor is asked for the task of a statement, or of a clause of a select, before the job plans
it by itself. It may know what it was asked before.
-/

namespace SqlPipeline

/-- What is to become of the task a visitor gives. -/
inductive VisitStatus where
  /-- Nothing was visited. No visit may end with it. -/
  | unknown
  /-- Planning failed, which a visitor reports by failing. No visit may end with it. -/
  | error
  /-- The task is used as it is. -/
  | final
  /-- The task may be extended, or made by the asker if there is none. -/
  | continuing
deriving DecidableEq, Repr, Inhabited

structure Visit where
  task : Option Task
  status : VisitStatus
deriving Repr, Inhabited

namespace Visit

/-- The task is left to the asker. -/
def deferred : Visit := ⟨none, .continuing⟩

def isDeferred (visit : Visit) : Bool :=
  visit.task.isNone && visit.status = .continuing

/-- A visit that ends with a task, or with none being needed. -/
def done (task : Option Task) : Visit := ⟨task, .final⟩

/-- Refuses statuses with which no visit may end. -/
def check (visit : Visit) (what : String) : Result Visit :=
  match visit.status with
  | .unknown => .error (.internal ("Visitor returned unknown status for " ++ what))
  | .error =>
    .error (.internal ("Visitor returned error status without an error for " ++ what))
  | .final | .continuing => .ok visit

end Visit

/-- What a visitor is asked for: a statement as a whole, or a clause of a select. -/
inductive Call where
  | statement (statement : Sql.Statement)
  | condition (expr : Option Sql.Expr)
  | grouping (select : Sql.Select)
  | having (expr : Option Sql.Expr)
  | projection (items : List Sql.SelectItem)
deriving DecidableEq, Repr, Inhabited

/-- Answers a call, knowing the calls before it. -/
abbrev Visitor := (history : List Call) → Call → Planning Visit

end SqlPipeline
