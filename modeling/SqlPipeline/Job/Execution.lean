import SqlPipeline.Job.Statement

/-!
# Executing statements

A statement is executed by a job of its own, from compiling to closing, on tables that later
statements find as it left them.
-/

namespace SqlPipeline

/-- How far the execution of a statement came. -/
inductive Phase where
  | compile | setup | run | close | done
deriving DecidableEq, Repr, Inhabited

structure Execution where
  /-- Where the execution failed, if it did. -/
  phase : Phase
  /-- The root of the compiled job. -/
  plan : Option Task
  /-- The state of the job before it was closed, if it was set up or that was tried. -/
  state : Option JobState
  /-- The rows of a job that ran to its end. -/
  rows : Option (List Row)
  failure : Option Failure
deriving Repr, Inhabited

namespace Execution

def failureOf {ε α : Type} (toFailure : ε → Failure) : Except ε α → Option Failure
  | .ok _ => none
  | .error error => some (toFailure error)

/-- The execution whose job was set up, or failed to, and is closed. The failure of closing counts
only if there is no other. -/
def closing (spec : JobSpec) (phase : Phase) (plan : Option Task) (rows : Option (List Row))
    (failure : Option Failure) (job : StatementJob) : Execution :=
  let (closed, _) := job.close spec.driving
  match failure, failureOf .error closed with
  | some failure, _ => ⟨phase, plan, some job.state, rows, some failure⟩
  | none, some failure => ⟨.close, plan, some job.state, rows, some failure⟩
  | none, none => ⟨.done, plan, some job.state, rows, none⟩

def run (spec : JobSpec) : StateM World Execution := do
  let (compiled, job) ← Job.new.compile spec.driving
  let plan := job.root
  match compiled with
  | .error error => return ⟨.compile, none, none, none, some (.error error)⟩
  | .ok () =>
    match ← job.setup spec.driving with
    | (.error error, job) => return closing spec .setup plan none (some (.error error)) job
    | (.ok (), job) =>
      let (result, job) ← job.collect spec.driving
      return closing spec .run plan result.toOption (failureOf id result) job

end Execution
end SqlPipeline
