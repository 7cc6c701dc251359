import SqlPipeline.Text.LetterCase
import SqlPipeline.Value.Basic

/-!
# Functions

The functions that can be called on single values.
-/

namespace SqlPipeline

inductive Function where
  | lower | upper | length | abs | coalesce
deriving DecidableEq, Repr, Inhabited

namespace Function

def all : List Function :=
  [lower, upper, length, abs, coalesce]

def name : Function → String
  | lower => "lower"
  | upper => "upper"
  | length => "length"
  | abs => "abs"
  | coalesce => "coalesce"

def ofName? (name : String) : Option Function :=
  all.find? (·.name == name)

/-- Whether a function can be called with so many arguments. -/
def takes (function : Function) (count : Nat) : Bool :=
  match function with
  | coalesce => 1 ≤ count
  | _ => count == 1

/-- Applies a function of one argument; NULL gives NULL. -/
def applyTo (function : Function) (arg : Value) : Result Value :=
  match function, arg with
  | _, .null => .ok .null
  | lower, .utf8 s => .ok (.utf8 (Text.lower s))
  | upper, .utf8 s => .ok (.utf8 (Text.upper s))
  | length, .utf8 s => .ok (Value.count s.length)
  | abs, .int n =>
    match Value.ofInt? n.toInt.natAbs with
    | some value => .ok value
    | none => .error (.runtime ("Integer overflow evaluating abs(" ++ toString n.toInt ++ ")"))
  | abs, .float x => .ok (.float x.abs)
  | function, other =>
    .error (.runtime ("Invalid argument to " ++ function.name ++ ": " ++ other.text))

/-- Applies a function to its arguments. The first argument that is not NULL is the value of
`coalesce`; any other function has one argument. -/
def apply (function : Function) (args : List Value) : Result Value :=
  match function with
  | coalesce => .ok ((args.find? (!·.isNull)).getD .null)
  | _ => function.applyTo (args.getLast?.getD .null)

end Function
end SqlPipeline
