import SqlPipeline.Bound.Basic
import SqlPipeline.Proofs.Result

/-!
# Sides that are not looked at

`Bound.eval` does not look at the right side of a conjunction or disjunction that the left side
decides. Plain evaluation (`Bound.plain`) evaluates every operand and then applies the operator.
The two are compared on every expression and row:

* what plain evaluation gives is the value of the expression (`eval_of_plain`),
* the two are the same, errors included, if no part of the expression leaves out a right side that
  would have failed or has no truth value (`plain_eq_eval`),
* so a value where plain evaluation fails comes from such a part (`eval_refines_plain`).
-/

namespace SqlPipeline

open Result (bind_eq_ok)

/-! ## Decided operators -/

/-- A value has no truth value if it is neither a boolean nor NULL. -/
theorem Value.truth?_eq_error_iff {value : Value} :
    (∃ error, value.truth? = .error error) ↔ value ≠ .null ∧ ∀ b, value ≠ .boolean b := by
  cases value <;> simp [Value.truth?]

namespace Bound

/-- The left side decides the operator whatever truth value the right side has, but the right side
must have one. -/
theorem applyBinary_of_decided {op : Sql.BinaryOp} {left result : Value}
    (h : decided? op left = some result) (right : Value) :
    left.applyBinary op right = right.truth?.map fun _ => result := by
  have hside : (op = .and ∧ left = .boolean false ∧ result = .boolean false) ∨
      (op = .or ∧ left = .boolean true ∧ result = .boolean true) := by
    unfold decided? at h
    split at h
    · exact .inl ⟨rfl, rfl, by simpa using h.symm⟩
    · exact .inr ⟨rfl, rfl, by simpa using h.symm⟩
    · cases h
  obtain ⟨rfl, rfl, rfl⟩ | ⟨rfl, rfl, rfl⟩ := hside <;> cases right <;> rfl

/-! ## Plain evaluation -/

mutual

/-- The value of an expression on a row if both sides of every operator are evaluated. -/
def plain (row : Row) : Bound → Result Value
  | column position => (column position).eval row
  | literal value => .ok value
  | unary op operand => do
    Value.applyUnary op (← operand.plain row)
  | binary left op right => do
    let value ← left.plain row
    value.applyBinary op (← right.plain row)
  | isNull operand negated => do
    return .boolean ((← operand.plain row).isNull != negated)
  | call function args => do
    function.apply (← plainAll row args)
termination_by structural bound => bound

def plainAll (row : Row) : List Bound → Result (List Value)
  | [] => .ok []
  | bound :: rest => do
    let value ← bound.plain row
    return value :: (← plainAll row rest)
termination_by structural bounds => bounds

end

mutual

/-- **What plain evaluation gives is the value of the expression.** -/
theorem eval_of_plain {row : Row} : ∀ {bound : Bound} {value : Value},
    bound.plain row = .ok value → bound.eval row = .ok value
  | column _, _, h => h
  | literal _, _, h => h
  | unary op operand, value, h => by
    obtain ⟨inner, hinner, h⟩ := bind_eq_ok.mp h
    exact bind_eq_ok.mpr ⟨inner, eval_of_plain hinner, h⟩
  | binary left op right, value, h => by
    obtain ⟨a, ha, h⟩ := bind_eq_ok.mp h
    obtain ⟨b, hb, h⟩ := bind_eq_ok.mp h
    refine bind_eq_ok.mpr ⟨a, eval_of_plain ha, ?_⟩
    cases hdecided : decided? op a with
    | none => exact bind_eq_ok.mpr ⟨b, eval_of_plain hb, h⟩
    | some result =>
      -- the operator has succeeded, so its value is the one that was decided
      rw [applyBinary_of_decided hdecided] at h
      cases htruth : b.truth? with
      | error error => rw [htruth] at h; cases h
      | ok truth => rw [htruth] at h; exact h
  | isNull operand negated, value, h => by
    obtain ⟨inner, hinner, h⟩ := bind_eq_ok.mp h
    exact bind_eq_ok.mpr ⟨inner, eval_of_plain hinner, h⟩
  | call function args, value, h => by
    obtain ⟨values, hvalues, h⟩ := bind_eq_ok.mp h
    exact bind_eq_ok.mpr ⟨values, evalAll_of_plainAll hvalues, h⟩

theorem evalAll_of_plainAll {row : Row} : ∀ {bounds : List Bound} {values : List Value},
    plainAll row bounds = .ok values → evalAll row bounds = .ok values
  | [], _, h => h
  | bound :: rest, values, h => by
    obtain ⟨value, hvalue, h⟩ := bind_eq_ok.mp h
    obtain ⟨others, hothers, h⟩ := bind_eq_ok.mp h
    exact bind_eq_ok.mpr ⟨value, eval_of_plain hvalue,
      bind_eq_ok.mpr ⟨others, evalAll_of_plainAll hothers, h⟩⟩

end

/-! ## Where they differ -/

mutual

/-- An expression and all its parts, each before its own parts, from left to right. -/
def parts : Bound → List Bound
  | column position => [column position]
  | literal value => [literal value]
  | unary op operand => unary op operand :: operand.parts
  | binary left op right => binary left op right :: (left.parts ++ right.parts)
  | isNull operand negated => isNull operand negated :: operand.parts
  | call function args => call function args :: partsAll args

def partsAll : List Bound → List Bound
  | [] => []
  | bound :: rest => bound.parts ++ partsAll rest

end

/-- Plain evaluation of an expression fails, or gives a value that is neither a boolean nor NULL. -/
def HasNoTruth (row : Row) (bound : Bound) : Prop :=
  (∃ error, bound.plain row = .error error) ∨
    ∃ value, bound.plain row = .ok value ∧ value ≠ .null ∧ ∀ b, value ≠ .boolean b

/-- On this row the expression is a conjunction with a false left side or a disjunction with a true
one, and its right side has no truth value. -/
inductive LeavesOut (row : Row) : Bound → Prop where
  | conjunct {left right : Bound} (hleft : left.eval row = .ok (.boolean false))
      (hright : right.HasNoTruth row) : LeavesOut row (binary left .and right)
  | disjunct {left right : Bound} (hleft : left.eval row = .ok (.boolean true))
      (hright : right.HasNoTruth row) : LeavesOut row (binary left .or right)

/-- An operator that is decided leaves out a right side without truth value. -/
theorem leavesOut_of_decided {row : Row} {left right : Bound} {op : Sql.BinaryOp}
    {value result : Value} (hleft : left.eval row = .ok value)
    (hdecided : decided? op value = some result) (hright : right.HasNoTruth row) :
    (binary left op right).LeavesOut row := by
  unfold decided? at hdecided
  split at hdecided
  · exact .conjunct hleft hright
  · exact .disjunct hleft hright
  · cases hdecided

/-- If nothing is left out, the right side of a decided operator has a truth value. -/
theorem truth?_of_not_hasNoTruth {row : Row} {bound : Bound} (h : ¬ bound.HasNoTruth row) :
    ∃ value truth, bound.plain row = .ok value ∧ value.truth? = .ok truth := by
  cases hplain : bound.plain row with
  | error error => exact absurd (.inl ⟨error, hplain⟩) h
  | ok value =>
    cases htruth : value.truth? with
    | error error =>
      exact absurd (.inr ⟨value, hplain, Value.truth?_eq_error_iff.mp ⟨error, htruth⟩⟩) h
    | ok truth => exact ⟨value, truth, rfl, htruth⟩

mutual

/-- **If no part leaves out a right side without truth value, plain evaluation is evaluation**, with
the same value or the same error. -/
theorem plain_eq_eval {row : Row} : ∀ {bound : Bound},
    (∀ part ∈ bound.parts, ¬ part.LeavesOut row) → bound.plain row = bound.eval row
  | column _, _ => rfl
  | literal _, _ => rfl
  | unary op operand, h => by
    have hoperand : operand.plain row = operand.eval row :=
      plain_eq_eval fun part hpart => h part (.tail _ hpart)
    rw [plain, eval, hoperand]
  | binary left op right, h => by
    have hleft : left.plain row = left.eval row :=
      plain_eq_eval fun part hpart => h part (.tail _ (List.mem_append_left _ hpart))
    have hright : right.plain row = right.eval row :=
      plain_eq_eval fun part hpart => h part (.tail _ (List.mem_append_right _ hpart))
    rw [plain, eval, hleft]
    cases hvalue : left.eval row with
    | error error => rfl
    | ok value =>
      rw [Result.ok_bind, Result.ok_bind]
      cases hdecided : decided? op value with
      | none => rw [hright]
      | some result =>
        obtain ⟨other, truth, hother, htruth⟩ := truth?_of_not_hasNoTruth fun hnone =>
          h _ (.head _) (leavesOut_of_decided hvalue hdecided hnone)
        rw [hother, Result.ok_bind, applyBinary_of_decided hdecided, htruth]
        rfl
  | isNull operand negated, h => by
    have hoperand : operand.plain row = operand.eval row :=
      plain_eq_eval fun part hpart => h part (.tail _ hpart)
    rw [plain, eval, hoperand]
  | call function args, h => by
    have hargs : plainAll row args = evalAll row args :=
      plainAll_eq_evalAll fun part hpart => h part (.tail _ hpart)
    rw [plain, eval, hargs]

theorem plainAll_eq_evalAll {row : Row} : ∀ {bounds : List Bound},
    (∀ part ∈ partsAll bounds, ¬ part.LeavesOut row) → plainAll row bounds = evalAll row bounds
  | [], _ => rfl
  | bound :: rest, h => by
    have hfirst : bound.plain row = bound.eval row :=
      plain_eq_eval fun part hpart => h part (List.mem_append_left _ hpart)
    have hrest : plainAll row rest = evalAll row rest :=
      plainAll_eq_evalAll fun part hpart => h part (List.mem_append_right _ hpart)
    rw [plainAll, evalAll, hfirst, hrest]

end

/-- **Leaving out right sides agrees with evaluating them.** If plain evaluation gives a value, the
expression has this value; and if the expression has a value where plain evaluation fails, one of its
parts is a conjunction with a false left side, or a disjunction with a true one, whose right side
fails or is neither a boolean nor NULL. -/
theorem eval_refines_plain (row : Row) (bound : Bound) :
    (∀ value, bound.plain row = .ok value → bound.eval row = .ok value) ∧
    ∀ value error, bound.eval row = .ok value → bound.plain row = .error error →
      ∃ part ∈ bound.parts, part.LeavesOut row := by
  refine ⟨fun _ => eval_of_plain, fun value error hvalue herror => ?_⟩
  by_contra hnone
  have hsame := plain_eq_eval fun part hpart hleaves => hnone ⟨part, hpart, hleaves⟩
  rw [herror, hvalue] at hsame
  cases hsame

/-- `FALSE AND 1 / 0` is false, and the division by zero is what is left out. -/
theorem leavesOut_division :
    ∃ part ∈ (binary (literal (.boolean false)) .and
      (binary (literal (.int 1)) .divide (literal (.int 0)))).parts, part.LeavesOut [] :=
  (eval_refines_plain [] _).2 (.boolean false) (.runtime "Division by zero") rfl rfl

end Bound
end SqlPipeline
