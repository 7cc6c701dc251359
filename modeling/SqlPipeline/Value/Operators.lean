import SqlPipeline.Sql.Expr
import SqlPipeline.Number.Arithmetic
import SqlPipeline.Value.Basic

/-!
# Comparing values, and operators on them

Values of one type are ordered by that type, numbers of different types as doubles, and nothing
can be compared with NULL.

Logic has three truth values, NULL being unknown. Arithmetic on integers is exact or fails;
a double as one operand makes it arithmetic on doubles. Any other operator gives NULL for a NULL
operand.
-/

namespace SqlPipeline.Value

open Sql (BinaryOp UnaryOp)

/-! ## Comparing -/

/-- The order of two texts, by code points. -/
def compareText (a b : String) : Ordering :=
  Ord.compare a b

/-- The order of two values, or nothing if one of them is NULL. -/
def compare? (a b : Value) : Result (Option Ordering) :=
  match a, b with
  | null, _ | _, null => .ok none
  | boolean x, boolean y => .ok (some (Ord.compare x.toNat y.toNat))
  | int x, int y => .ok (some (Ord.compare x.toInt y.toInt))
  | utf8 x, utf8 y => .ok (some (compareText x y))
  | a, b =>
    match a.toDouble?, b.toDouble? with
    | some x, some y => .ok (some (x.compare y))
    | _, _ => .error (.runtime ("Cannot compare " ++ a.text ++ " with " ++ b.text))

/-! ## Operators -/

def ofTruth? : Option Bool → Value
  | some value => boolean value
  | none => null

def andTruth : Option Bool → Option Bool → Option Bool
  | some false, _ | _, some false => some false
  | some true, some true => some true
  | _, _ => none

def orTruth : Option Bool → Option Bool → Option Bool
  | some true, _ | _, some true => some true
  | some false, some false => some false
  | _, _ => none

/-- Whether an order satisfies a comparison; other operators are satisfied by none. -/
def satisfies : BinaryOp → Ordering → Bool
  | .eq, order => order == .eq
  | .notEq, order => order != .eq
  | .lt, order => order == .lt
  | .ltEq, order => order != .gt
  | .gt, order => order == .gt
  | .gtEq, order => order != .lt
  | _, _ => false

/-- The exact result of integer arithmetic, if it has 64 bits. The least integer by minus one
counts as overflow, for the remainder too. -/
def intArith? (op : BinaryOp) (a b : Int) : Option Value :=
  match op with
  | .plus => ofInt? (a + b)
  | .minus => ofInt? (a - b)
  | .multiply => ofInt? (a * b)
  | .divide => ofInt? (a.tdiv b)
  | .modulo => if a = minInt64 ∧ b = -1 then none else ofInt? (a.tmod b)
  | _ => none

def intArith (op : BinaryOp) (a b : Int64) : Result Value :=
  if (op = .divide ∨ op = .modulo) ∧ b = 0 then .error (.runtime "Division by zero")
  else match intArith? op a.toInt b.toInt with
    | some value => .ok value
    | none => .error (.runtime ("Integer overflow evaluating " ++ toString a.toInt ++ " " ++ op.text
        ++ " " ++ toString b.toInt))

def doubleArith (op : BinaryOp) (a b : Number.Binary64) : Number.Binary64 :=
  match op with
  | .plus => a.add b
  | .minus => a.sub b
  | .multiply => a.mul b
  | .divide => a.div b
  | _ => a.rem b

def arith (op : BinaryOp) (a b : Value) : Result Value :=
  match a, b with
  | null, _ | _, null => .ok null
  | int x, int y => intArith op x y
  | a, b =>
    match op, a, b with
    | .plus, utf8 x, utf8 y => .ok (utf8 (x ++ y))
    | _, _, _ =>
      match a.toDouble?, b.toDouble? with
      | some x, some y => .ok (float (doubleArith op x y))
      | _, _ => .error (.runtime ("Cannot apply " ++ op.text ++ " to " ++ a.text ++ " and "
          ++ b.text))

def applyBinary (op : BinaryOp) (a b : Value) : Result Value :=
  match op with
  | .and => do
    let x ← a.truth?
    let y ← b.truth?
    return ofTruth? (andTruth x y)
  | .or => do
    let x ← a.truth?
    let y ← b.truth?
    return ofTruth? (orTruth x y)
  | .eq | .notEq | .lt | .ltEq | .gt | .gtEq => do
    match ← a.compare? b with
    | some order => return boolean (satisfies op order)
    | none => return null
  | .plus | .minus | .multiply | .divide | .modulo => arith op a b

def negate : Value → Result Value
  | null => .ok null
  | int value =>
    match ofInt? (-value.toInt) with
    | some negated => .ok negated
    | none => .error (.runtime ("Integer overflow negating " ++ toString value.toInt))
  | float value => .ok (float value.neg)
  | other => .error (.runtime ("Cannot negate " ++ other.text))

def not (value : Value) : Result Value := do
  return ofTruth? ((← value.truth?).map Bool.not)

def applyUnary (op : UnaryOp) (value : Value) : Result Value :=
  match op with
  | .plus => .ok value
  | .minus => value.negate
  | .not => value.not

end SqlPipeline.Value
