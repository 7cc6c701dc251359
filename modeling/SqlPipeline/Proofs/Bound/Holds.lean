import SqlPipeline.Plan.Filter
import SqlPipeline.Proofs.Bound.Columns

/-!
# Conditions that hold

Of what a condition may come to on a row, a filter only asks whether it is true: `Layout.holds`. On
layouts without computed columns (`Layout.Stored`), which are those of tables and of joined tables,
this question goes through AND and parentheses:

* **a condition holds exactly if all its conjuncts do** (`Layout.holds_conjuncts`), unknown and
  false being the same here,
* **what conjuncts are put together to holds exactly if they do** (`Layout.holds_conjoin`),
* and both can be bound exactly if all conjuncts can be (`Layout.admits_conjuncts`,
  `Layout.admits_conjoin`).
-/

namespace SqlPipeline

open Sql (Expr)

/-! ## Bound conditions -/

namespace Bound

/-- Whether a condition is true on a row; it is not if it fails. -/
def holds (bound : Bound) (row : Row) : Bool :=
  match bound.accepts row with
  | .ok accepted => accepted
  | .error _ => false

theorem holds_iff_accepts {bound : Bound} {row : Row} :
    bound.holds row = true ↔ bound.accepts row = .ok true := by
  unfold holds
  cases bound.accepts row with
  | ok accepted => simp
  | error error => simp

/-- A condition holds if its value is the truth value `true`. -/
theorem holds_iff {bound : Bound} {row : Row} :
    bound.holds row = true ↔ bound.eval row = .ok (.boolean true) := by
  rw [holds_iff_accepts]
  unfold accepts
  cases bound.eval row with
  | error error => simp
  | ok value =>
    rw [Result.ok_bind]
    cases value with
    | null => simp [Value.truth?]
    | boolean value =>
      cases value <;> simp [Value.truth?]
    | _ => simp [Value.truth?]

/-- A conjunction of two values is true exactly if both are true. -/
theorem applyBinary_and_eq_true {a b : Value} :
    a.applyBinary .and b = .ok (.boolean true) ↔ a = .boolean true ∧ b = .boolean true := by
  have htruth : ∀ value : Value, value.truth? = .ok (some true) ↔ value = .boolean true := by
    intro value
    cases value <;> simp [Value.truth?]
  have hand : ∀ x y : Option Bool,
      Value.ofTruth? (Value.andTruth x y) = .boolean true ↔ x = some true ∧ y = some true := by
    rintro (_ | _ | _) (_ | _ | _) <;> decide
  rw [← htruth a, ← htruth b]
  show (a.truth? >>= fun x => b.truth? >>= fun y =>
    .ok (Value.ofTruth? (Value.andTruth x y))) = _ ↔ _
  cases a.truth? with
  | error error => simp
  | ok x =>
    cases b.truth? with
    | error error => simp
    | ok y => simpa using hand x y

/-- **A conjunction holds exactly if both sides do**, though the right one is not looked at if the
left one is false. -/
theorem holds_and (left right : Bound) (row : Row) :
    (binary left .and right).holds row = (left.holds row && right.holds row) := by
  rw [Bool.eq_iff_iff, Bool.and_eq_true, holds_iff, holds_iff, holds_iff, eval]
  cases left.eval row with
  | error error => simp
  | ok value =>
    rw [Result.ok_bind]
    by_cases hfalse : value = .boolean false
    · -- the right side is not evaluated
      subst hfalse
      simp [decided?, pure, Except.pure]
    · have hundecided : decided? .and value = none := by
        cases value with
        | boolean value => cases value <;> simp_all [decided?]
        | _ => rfl
      rw [hundecided]
      cases right.eval row with
      | error error => simp
      | ok other =>
        show value.applyBinary .and other = _ ↔ _
        rw [applyBinary_and_eq_true]
        simp

end Bound

/-! ## Layouts of stored columns -/

namespace Layout

/-- Every column of the layout is one of a table. -/
def Stored (layout : Layout) : Prop :=
  ∀ column ∈ layout.columns, column.relation.isSome = true

theorem stored_ofTable (binding : String) (definition : TableDef) :
    (ofTable binding definition).Stored := by
  intro column hcolumn
  obtain ⟨own, -, rfl⟩ := List.mem_map.mp hcolumn
  rfl

variable {layout : Layout}

/-- No expression is taken for a computed column. -/
theorem Stored.computed?_eq_none (h : layout.Stored) (text : String) :
    layout.computed? text = none := by
  refine List.findIdx?_eq_none_iff.mpr fun column hcolumn => ?_
  rw [Option.isNone_eq_false_iff.mpr (h column hcolumn)]
  rfl

/-! ## Conditions on a layout -/

/-- Whether a condition, bound to a layout, is true on a row. -/
def holds (layout : Layout) (row : Row) (expr : Expr) : Bool :=
  match Bound.bind layout expr with
  | .ok bound => bound.holds row
  | .error _ => false

/-- Whether an expression can be bound to a layout. -/
def Admits (layout : Layout) (expr : Expr) : Prop :=
  ∃ bound, Bound.bind layout expr = .ok bound

theorem holds_of_bind {row : Row} {expr : Expr} {bound : Bound}
    (h : Bound.bind layout expr = .ok bound) : layout.holds row expr = bound.holds row := by
  unfold holds
  rw [h]

theorem bindsTo_iff {expr : Expr} : bindsTo expr layout = true ↔ layout.Admits expr := by
  unfold bindsTo Admits
  cases Bound.bind layout expr <;> simp [Except.toBool]

variable {row : Row}

/-! ### Conjuncts -/

theorem bind_and (hstored : layout.Stored) (left right : Expr) :
    Bound.bind layout (.binary left .and right) =
      Bound.bind layout left >>= fun first => Bound.bind layout right >>= fun second =>
        .ok (.binary first .and second) := by
  rw [Bound.bind, hstored.computed?_eq_none]
  rfl

theorem bind_nested (hstored : layout.Stored) (inner : Expr) :
    Bound.bind layout (.nested inner) = Bound.bind layout inner := by
  rw [Bound.bind, hstored.computed?_eq_none]

theorem admits_and (hstored : layout.Stored) {left right : Expr} :
    layout.Admits (.binary left .and right) ↔ layout.Admits left ∧ layout.Admits right := by
  unfold Admits
  rw [bind_and hstored]
  cases Bound.bind layout left <;> cases Bound.bind layout right <;> simp

theorem holds_and (hstored : layout.Stored) (left right : Expr) :
    layout.holds row (.binary left .and right) =
      (layout.holds row left && layout.holds row right) := by
  unfold holds
  rw [bind_and hstored]
  cases Bound.bind layout left with
  | error error => rfl
  | ok first =>
    cases Bound.bind layout right with
    | error error => simp
    | ok second => exact Bound.holds_and first second row

/-- **A condition can be bound exactly if all its conjuncts can be.** -/
theorem admits_conjuncts (hstored : layout.Stored) (expr : Expr) :
    layout.Admits expr ↔ ∀ part ∈ conjuncts expr, layout.Admits part := by
  fun_induction conjuncts expr with
  | case1 left right ihleft ihright =>
    rw [admits_and hstored, ihleft, ihright, List.forall_mem_append]
  | case2 inner ih =>
    rw [← ih]
    unfold Admits
    rw [bind_nested hstored]
  | case3 => simp

/-- **A condition holds exactly if all its conjuncts do.** -/
theorem holds_conjuncts (hstored : layout.Stored) (expr : Expr) :
    layout.holds row expr = (conjuncts expr).all (layout.holds row) := by
  fun_induction conjuncts expr with
  | case1 left right ihleft ihright =>
    rw [holds_and hstored, ihleft, ihright, List.all_append]
  | case2 inner ih =>
    rw [← ih]
    unfold holds
    rw [bind_nested hstored]
  | case3 => simp

/-- **What can be bound can be put together and bound.** -/
theorem admits_conjoin (hstored : layout.Stored) {parts : List Expr} {expr : Expr}
    (h : conjoin parts = some expr) : layout.Admits expr ↔ ∀ part ∈ parts, layout.Admits part := by
  -- conjuncts are put together from the left, so what was built so far varies in the induction
  have hfold : ∀ (rest : List Expr) (first : Expr),
      layout.Admits (rest.foldl (fun left right => .binary left .and right) first) ↔
        layout.Admits first ∧ ∀ part ∈ rest, layout.Admits part := by
    intro rest
    induction rest with
    | nil => intro first; simp
    | cons next rest ih =>
      intro first
      rw [List.foldl_cons, ih, admits_and hstored, List.forall_mem_cons, and_assoc]
  cases parts with
  | nil => cases h
  | cons first rest =>
    cases h
    rw [hfold, List.forall_mem_cons]

/-- **What conjuncts are put together to holds exactly if they all do.** -/
theorem holds_conjoin (hstored : layout.Stored) (parts : List Expr) :
    (conjoin parts).all (layout.holds row) = parts.all (layout.holds row) := by
  have hfold : ∀ (rest : List Expr) (first : Expr),
      layout.holds row (rest.foldl (fun left right => .binary left .and right) first) =
        (layout.holds row first && rest.all (layout.holds row)) := by
    intro rest
    induction rest with
    | nil => intro first; simp
    | cons next rest ih =>
      intro first
      rw [List.foldl_cons, ih, holds_and hstored, List.all_cons, Bool.and_assoc]
  cases parts with
  | nil => rfl
  | cons first rest =>
    show layout.holds row (rest.foldl _ first) = _
    rw [hfold, List.all_cons]

end Layout
end SqlPipeline
