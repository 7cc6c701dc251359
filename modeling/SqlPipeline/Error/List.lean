import SqlPipeline.Error
import SqlPipeline.Text.Basic

/-!
# Lists of errors

The errors of independent steps, which are reported together. A lone error is reported as it is;
several become one whose message has the message of each on a line of its own.
-/

namespace SqlPipeline

/-- Errors in the order they were met. -/
structure ErrorList where
  errors : List Error
deriving DecidableEq, Repr, Inhabited

namespace ErrorList

def empty : ErrorList := ⟨[]⟩

def append (list : ErrorList) (error : Option Error) : ErrorList :=
  ⟨list.errors ++ error.toList⟩

/-- Adds the error of a failed step; the value of one that succeeded is handed back. -/
def appendResult {α : Type} (list : ErrorList) : Result α → Option α × ErrorList
  | .ok value => (some value, list)
  | .error error => (none, list.append error)

/-- The messages, each on a line of its own. -/
def text (list : ErrorList) : String :=
  Text.join "\n" (list.errors.map Error.message)

/-- The one error that stands for all of them. -/
def error? (list : ErrorList) : Option Error :=
  match list.errors with
  | [] => none
  | [error] => some error
  | _ => some (.aggregate list.text)

/-- Succeeds if there is no error. -/
def toResult (list : ErrorList) : Result Unit :=
  match list.error? with
  | some error => .error error
  | none => .ok ()

theorem error?_eq_none_iff (list : ErrorList) : list.error? = none ↔ list.errors = [] := by
  unfold error?
  split <;> simp_all

end ErrorList
end SqlPipeline
