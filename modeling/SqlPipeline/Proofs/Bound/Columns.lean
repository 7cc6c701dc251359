import SqlPipeline.Aggregate
import SqlPipeline.Proofs.Result

/-!
# Columns of bound expressions

A bound expression refers to the columns of a row by position, and evaluating it fails if there is
no such column. That never happens on rows of the layout it was bound to:

* **binding gives positions within the layout** (`Bound.within_of_bind`),
* **an expression within the width of a row never misses a column of it** (`Bound.eval_finds`,
  `Bound.accepts_finds`).

What else may go wrong in an evaluation is said by other messages, which are told from the one about
a missing column by how they begin (`Error.finds_of_take`).
-/

namespace SqlPipeline

/-! ## Failures that are not about columns -/

/-- The error is not about a column that a row does not have. -/
def Error.Finds (error : Error) : Prop :=
  ∀ i : Nat, error ≠ .runtime ("Column " ++ toString i ++ " out of range")

theorem Error.finds_of_take {message : String} (h : message.toList.take 2 ≠ ['C', 'o']) :
    (Error.runtime message).Finds := by
  intro i heq
  cases heq
  apply h
  rw [String.toList_append, String.toList_append]
  rfl

namespace Result

variable {α β : Type}

/-- If the result is a failure, it is not one about a column. -/
def Finds (result : Result α) : Prop :=
  ∀ error, result = .error error → error.Finds

theorem finds_ok (a : α) : Finds (.ok a : Result α) :=
  fun _ h => by cases h

theorem finds_error {error : Error} (h : error.Finds) : Finds (.error error : Result α) :=
  fun _ heq => by cases heq; exact h

theorem finds_bind {first : Result α} {next : α → Result β} (hfirst : Finds first)
    (hnext : ∀ a, first = .ok a → Finds (next a)) : Finds (first >>= next) := by
  cases first with
  | error error => exact finds_error (hfirst error rfl)
  | ok a => exact hnext a rfl

end Result

open Result

/-! ## Operators, functions and aggregates -/

namespace Value

theorem finds_truth? (value : Value) : Finds value.truth? := by
  cases value with
  | null => exact finds_ok _
  | boolean value => exact finds_ok _
  | _ => exact finds_error (Error.finds_of_take (by simp [String.toList_append]))

theorem finds_compare? (a b : Value) : Finds (a.compare? b) := by
  unfold compare?
  split
  all_goals try exact finds_ok _
  split
  · exact finds_ok _
  · exact finds_error (Error.finds_of_take (by simp [String.toList_append]))

theorem finds_comparison (op : Sql.BinaryOp) (a b : Value) : Finds (do
    match ← a.compare? b with
    | some order => return boolean (satisfies op order)
    | none => return null : Result Value) :=
  finds_bind (finds_compare? a b) fun order _ => by cases order <;> exact finds_ok _

theorem finds_intArith (op : Sql.BinaryOp) (a b : Int64) : Finds (intArith op a b) := by
  unfold intArith
  split
  · exact finds_error (Error.finds_of_take (by decide))
  · split
    · exact finds_ok _
    · exact finds_error (Error.finds_of_take (by simp [String.toList_append]))

theorem finds_arith (op : Sql.BinaryOp) (a b : Value) : Finds (arith op a b) := by
  unfold arith
  split
  · exact finds_ok _
  · exact finds_ok _
  · exact finds_intArith op _ _
  · split
    · exact finds_ok _
    · split
      · exact finds_ok _
      · exact finds_error (Error.finds_of_take (by simp [String.toList_append]))

theorem finds_applyBinary (op : Sql.BinaryOp) (a b : Value) : Finds (a.applyBinary op b) := by
  have hlogic : ∀ combine : Option Bool → Option Bool → Option Bool,
      Finds (do
        let x ← a.truth?
        let y ← b.truth?
        return ofTruth? (combine x y)) := fun combine =>
    finds_bind (finds_truth? a) fun _ _ => finds_bind (finds_truth? b) fun _ _ => finds_ok _
  cases op with
  | and => exact hlogic andTruth
  | or => exact hlogic orTruth
  | eq => exact finds_comparison _ a b
  | notEq => exact finds_comparison _ a b
  | lt => exact finds_comparison _ a b
  | ltEq => exact finds_comparison _ a b
  | gt => exact finds_comparison _ a b
  | gtEq => exact finds_comparison _ a b
  | _ => exact finds_arith _ a b

theorem finds_applyUnary (op : Sql.UnaryOp) (value : Value) : Finds (value.applyUnary op) := by
  cases op with
  | plus => exact finds_ok _
  | not => exact finds_bind (finds_truth? value) fun _ _ => finds_ok _
  | minus =>
    show Finds value.negate
    unfold negate
    split
    · exact finds_ok _
    · split
      · exact finds_ok _
      · exact finds_error (Error.finds_of_take (by simp [String.toList_append]))
    · exact finds_ok _
    · exact finds_error (Error.finds_of_take (by simp [String.toList_append]))

end Value

theorem Function.finds_apply (function : Function) (args : List Value) :
    Finds (function.apply args) := by
  have happlyTo : ∀ arg : Value, Finds (function.applyTo arg) := by
    intro arg
    unfold applyTo
    split
    all_goals try exact finds_ok _
    · split
      · exact finds_ok _
      · exact finds_error (Error.finds_of_take (by simp [String.toList_append]))
    · exact finds_error (Error.finds_of_take (by simp [String.toList_append]))
  cases function with
  | coalesce => exact finds_ok _
  | _ => exact happlyTo _

namespace Accumulator

theorem finds_replaces (wanted : Ordering) (value : Value) (present : Option Value) :
    Finds (replaces wanted value present) := by
  cases present with
  | none => exact finds_ok _
  | some present => exact finds_bind (Value.finds_compare? value present) fun _ _ => finds_ok _

theorem finds_add (acc : Accumulator) (value : Value) : Finds (acc.add value) := by
  unfold add
  split
  · exact finds_ok _
  · cases acc with
    | count n => exact finds_ok _
    | sum total =>
      cases total with
      | none => exact finds_ok _
      | some total =>
        exact finds_bind (Value.finds_applyBinary _ total value) fun _ _ => finds_ok _
    | min least =>
      exact finds_bind (finds_replaces .lt value least) fun replaced _ => by
        cases replaced <;> exact finds_ok _
    | max greatest =>
      exact finds_bind (finds_replaces .gt value greatest) fun replaced _ => by
        cases replaced <;> exact finds_ok _
    | avg total n =>
      rw [addValue]
      split
      · exact finds_ok _
      · exact finds_error fun i h => by cases h

end Accumulator

/-! ## Expressions -/

namespace Bound

mutual

/-- All columns of the expression are among the first `width`. -/
def Within (width : Nat) : Bound → Prop
  | column position => position < width
  | literal _ => True
  | unary _ operand => operand.Within width
  | binary left _ right => left.Within width ∧ right.Within width
  | isNull operand _ => operand.Within width
  | call _ args => AllWithin width args

def AllWithin (width : Nat) : List Bound → Prop
  | [] => True
  | bound :: rest => bound.Within width ∧ AllWithin width rest

end

theorem allWithin_iff {width : Nat} :
    ∀ {bounds : List Bound}, AllWithin width bounds ↔ ∀ bound ∈ bounds, bound.Within width
  | [] => by simp [AllWithin]
  | bound :: rest => by rw [AllWithin, allWithin_iff, List.forall_mem_cons]

mutual

/-- **An expression within the width of a row misses no column of it.** -/
theorem eval_finds {row : Row} :
    ∀ {bound : Bound}, bound.Within row.length → Finds (bound.eval row)
  | column position, h => by
    rw [eval, List.getElem?_eq_getElem h]
    exact finds_ok _
  | literal _, _ => finds_ok _
  | unary op operand, h =>
    finds_bind (eval_finds (show operand.Within row.length from h)) fun value _ =>
      Value.finds_applyUnary op value
  | binary left op right, h => by
    refine finds_bind (eval_finds h.1) fun value _ => ?_
    split
    · exact finds_ok _
    · exact finds_bind (eval_finds h.2) fun other _ => Value.finds_applyBinary op value other
  | isNull operand _, h =>
    finds_bind (eval_finds (show operand.Within row.length from h)) fun _ _ => finds_ok _
  | call function args, h =>
    finds_bind (evalAll_finds (show AllWithin row.length args from h)) fun values _ =>
      function.finds_apply values

theorem evalAll_finds {row : Row} :
    ∀ {bounds : List Bound}, AllWithin row.length bounds → Finds (evalAll row bounds)
  | [], _ => finds_ok _
  | _ :: _, h =>
    finds_bind (eval_finds h.1) fun _ _ => finds_bind (evalAll_finds h.2) fun _ _ => finds_ok _

end

theorem accepts_finds {bound : Bound} {row : Row} (h : bound.Within row.length) :
    Finds (bound.accepts row) :=
  finds_bind (eval_finds h) fun value _ => finds_bind (value.finds_truth?) fun _ _ => finds_ok _

/-- The values of expressions are as many as the expressions. -/
theorem length_evalAll {row : Row} :
    ∀ {bounds : List Bound} {values : List Value}, evalAll row bounds = .ok values →
      values.length = bounds.length
  | [], values, h => by cases h; rfl
  | bound :: rest, values, h => by
    obtain ⟨first, -, h⟩ := bind_eq_ok.mp h
    obtain ⟨others, hothers, h⟩ := bind_eq_ok.mp h
    cases h
    rw [List.length_cons, List.length_cons, length_evalAll hothers]

end Bound

/-! ## Binding -/

namespace Layout

variable {layout : Layout}

theorem width_append (left right : Layout) :
    (left.append right).width = left.width + right.width :=
  List.length_append

theorem mem_positions_iff {p : Column → Bool} {i : Nat} :
    i ∈ layout.positions p ↔ ∃ column, layout.columns[i]? = some column ∧ p column = true := by
  unfold positions
  rw [List.mem_filterMap]
  constructor
  · rintro ⟨⟨column, j⟩, hmem, hp⟩
    dsimp only at hp
    split at hp
    · next hcolumn =>
      cases hp
      exact ⟨column, List.mem_zipIdx_iff_getElem?.mp hmem, hcolumn⟩
    · cases hp
  · rintro ⟨column, hcolumn, hp⟩
    exact ⟨(column, i), List.mem_zipIdx_iff_getElem?.mpr hcolumn, if_pos hp⟩

theorem mem_positions {p : Column → Bool} {i : Nat} (h : i ∈ layout.positions p) :
    i < layout.width := by
  obtain ⟨column, hcolumn, -⟩ := mem_positions_iff.mp h
  exact (List.getElem?_eq_some_iff.mp hcolumn).1

theorem resolve_lt {relation : Option String} {name : String} {i : Nat}
    (h : layout.resolve relation name = .ok i) : i < layout.width := by
  unfold resolve at h
  split at h
  · cases h
  · next j hj =>
    cases h
    exact mem_positions (hj ▸ List.mem_singleton_self i)
  · cases h

theorem computed?_lt {text : String} {i : Nat} (h : layout.computed? text = some i) :
    i < layout.width := by
  obtain ⟨hi, -⟩ := List.findIdx?_eq_some_iff_findIdx_eq.mp h
  exact hi

end Layout

namespace Bound

variable {layout : Layout}

theorem within_of_ofQualified {parts : List Sql.Ident} {bound : Bound}
    (h : ofQualified layout parts = .ok bound) : bound.Within layout.width := by
  unfold ofQualified at h
  split at h
  · obtain ⟨i, hi, h⟩ := bind_eq_ok.mp h
    cases h
    exact Layout.resolve_lt hi
  · cases h

mutual

/-- **Binding gives positions within the layout.** -/
theorem within_of_bind :
    ∀ {expr : Sql.Expr} {bound : Bound}, bind layout expr = .ok bound → bound.Within layout.width
  | .ident name, bound, h => by
    obtain ⟨i, hi, h⟩ := bind_eq_ok.mp h
    cases h
    exact Layout.resolve_lt hi
  | .qualified parts, bound, h => within_of_ofQualified h
  | .literal value, bound, h => by
    obtain ⟨found, -, h⟩ := bind_eq_ok.mp h
    cases h
    trivial
  | .unary op operand, bound, h => by
    rw [bind] at h
    -- what was computed by a step before is a column like any other
    split at h
    · next hcomputed => cases h; exact Layout.computed?_lt hcomputed
    · obtain ⟨inner, hinner, h⟩ := bind_eq_ok.mp h
      cases h
      have hwithin : inner.Within layout.width := within_of_bind hinner
      exact hwithin
  | .binary left op right, bound, h => by
    rw [bind] at h
    split at h
    · next hcomputed => cases h; exact Layout.computed?_lt hcomputed
    · obtain ⟨first, hfirst, h⟩ := bind_eq_ok.mp h
      obtain ⟨second, hsecond, h⟩ := bind_eq_ok.mp h
      cases h
      exact ⟨within_of_bind hfirst, within_of_bind hsecond⟩
  | .isNull operand negated, bound, h => by
    rw [bind] at h
    split at h
    · next hcomputed => cases h; exact Layout.computed?_lt hcomputed
    · obtain ⟨inner, hinner, h⟩ := bind_eq_ok.mp h
      cases h
      have hwithin : inner.Within layout.width := within_of_bind hinner
      exact hwithin
  | .nested inner, bound, h => by
    rw [bind] at h
    split at h
    · next hcomputed => cases h; exact Layout.computed?_lt hcomputed
    · exact within_of_bind h
  | .call name args, bound, h => by
    rw [bind] at h
    split at h
    · next hcomputed => cases h; exact Layout.computed?_lt hcomputed
    · obtain ⟨function, -, h⟩ := bind_eq_ok.mp h
      obtain ⟨bounds, hbounds, h⟩ := bind_eq_ok.mp h
      cases h
      exact allWithin_of_bindArgs hbounds

theorem allWithin_of_bindArgs :
    ∀ {args : Sql.Args} {text : String} {bounds : List Bound},
      bindArgs layout text args = .ok bounds → AllWithin layout.width bounds
  | .nil, _, bounds, h => by cases h; trivial
  | .star _, _, bounds, h => by cases h
  | .value arg rest, text, bounds, h => by
    obtain ⟨first, hfirst, h⟩ := bind_eq_ok.mp h
    obtain ⟨others, hothers, h⟩ := bind_eq_ok.mp h
    cases h
    exact ⟨within_of_bind hfirst, allWithin_of_bindArgs hothers⟩

end

end Bound
end SqlPipeline
