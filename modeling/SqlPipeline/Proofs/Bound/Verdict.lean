import SqlPipeline.Proofs.Bound.Holds

/-!
# What conditions come to

`Bound.holds` only tells whether a condition is true. A filter also has to do with conditions that
fail, and then it matters what is evaluated at all: the right side of a conjunction is not looked at
if the left one is false. The *verdict* of a condition on a row is true, false or unknown, or
nothing if finding it fails.

Verdicts are put together by `Verdict.both`, which is associative, so that the verdict on a
condition is that on the list of its conjuncts however they are nested (`Layout.verdict_conjuncts`),
and the same list can be put together again in any other way (`Layout.verdict_conjoin`). Conjuncts
that are true make no difference to it (`Verdict.all_eq_of_rest_true`).

So a condition that is split into its conjuncts and put together again accepts the same rows, rejects
the same rows and fails on the same rows (`Layout.rejoined_accepts`).
-/

namespace SqlPipeline

open Sql (Expr)

/-- True, false or unknown; nothing if a failure came first. -/
abbrev Verdict := Option (Option Bool)

namespace Verdict

/-- The verdict on a conjunction. The second part is not asked if the first is false. -/
def both (first second : Verdict) : Verdict :=
  first.bind fun truth =>
    if truth = some false then some (some false) else second.map (Value.andTruth truth)

/-- The verdict on several parts that are asked one after the other. -/
def all (verdicts : List Verdict) : Verdict :=
  verdicts.foldr both (some (some true))

theorem both_assoc (first second third : Verdict) :
    both (both first second) third = both first (both second third) := by
  rcases first with _ | _ | _ | _ <;> rcases second with _ | _ | _ | _ <;>
    rcases third with _ | _ | _ | _ <;> rfl

@[simp] theorem both_true (verdict : Verdict) : both verdict (some (some true)) = verdict := by
  rcases verdict with _ | _ | _ | _ <;> rfl

@[simp] theorem true_both (verdict : Verdict) : both (some (some true)) verdict = verdict := by
  rcases verdict with _ | _ | _ | _ <;> rfl

@[simp] theorem all_nil : all [] = some (some true) := rfl

@[simp] theorem all_cons (verdict : Verdict) (rest : List Verdict) :
    all (verdict :: rest) = both verdict (all rest) := rfl

theorem all_append (verdicts others : List Verdict) :
    all (verdicts ++ others) = both (all verdicts) (all others) := by
  induction verdicts with
  | nil => rw [List.nil_append, all_nil, true_both]
  | cons verdict rest ih => rw [List.cons_append, all_cons, ih, all_cons, both_assoc]

/-- **Parts that are true can be left out**, wherever they stand. -/
theorem all_eq_of_rest_true {α : Type} {verdict : α → Verdict} {p : α → Bool} {parts : List α}
    (h : ∀ part ∈ parts, p part = false → verdict part = some (some true)) :
    all ((parts.filter p).map verdict) = all (parts.map verdict) := by
  induction parts with
  | nil => rfl
  | cons part rest ih =>
    have hrest := ih fun other hother => h other (List.mem_cons_of_mem _ hother)
    rw [List.map_cons, all_cons, ← hrest, List.filter_cons]
    split
    · rw [List.map_cons, all_cons]
    · next hp => rw [h part List.mem_cons_self (by simpa using hp), true_both]

end Verdict

/-! ## Bound conditions -/

namespace Bound

/-- What a condition comes to on a row. -/
def verdict (bound : Bound) (row : Row) : Verdict :=
  (bound.eval row >>= Value.truth?).toOption

/-- A condition that comes to anything is accepted or not. -/
theorem accepts_eq (bound : Bound) (row : Row) :
    (bound.accepts row).toOption = (bound.verdict row).map (·.getD false) := by
  unfold accepts verdict
  cases bound.eval row with
  | error error => rfl
  | ok value =>
    rw [Result.ok_bind, Result.ok_bind]
    cases value.truth? <;> rfl

/-- A condition can be asked exactly if it comes to anything. -/
theorem accepts_ok_iff {bound : Bound} {row : Row} :
    (∃ accepted, bound.accepts row = .ok accepted) ↔ (bound.verdict row).isSome = true := by
  have heq := accepts_eq bound row
  have hsome : (bound.accepts row).toOption.isSome = (bound.verdict row).isSome := by
    rw [heq, Option.isSome_map]
  rw [← hsome]
  cases bound.accepts row <;> simp [Except.toOption]

/-- Whether a row is accepted can be read off the verdict. -/
theorem accepts_eq_ok_iff {bound : Bound} {row : Row} {accepted : Bool} :
    bound.accepts row = .ok accepted ↔
      (bound.verdict row).map (·.getD false) = some accepted := by
  rw [← accepts_eq]
  cases bound.accepts row <;> simp [Except.toOption]

theorem verdict_of_holds {bound : Bound} {row : Row} (h : bound.holds row = true) :
    bound.verdict row = some (some true) := by
  rw [verdict, holds_iff.mp h]
  rfl

/-- The right side of a conjunction is asked unless the left one is false. -/
theorem verdict_and (left right : Bound) (row : Row) :
    (binary left .and right).verdict row = (left.verdict row).both (right.verdict row) := by
  unfold verdict
  rw [eval]
  cases left.eval row with
  | error error => rfl
  | ok value =>
    rw [Result.ok_bind, Result.ok_bind]
    by_cases hfalse : value = .boolean false
    · subst hfalse
      rfl
    · have hundecided : decided? .and value = none := by
        cases value with
        | boolean value => cases value <;> simp_all [decided?]
        | _ => rfl
      rw [hundecided]
      dsimp only
      -- a left side that is no truth value fails in the end, whatever the right side is
      cases htruth : value.truth? with
      | error error => cases right.eval row <;> simp [Value.applyBinary, htruth] <;> rfl
      | ok truth =>
        have hne : truth ≠ some false := by
          rintro rfl
          cases value with
          | boolean value => cases htruth; exact hfalse rfl
          | _ => cases htruth
        cases right.eval row with
        | error error => simp [Except.toOption, Verdict.both, hne]
        | ok other =>
          cases hother : other.truth? with
          | error error =>
            simp [Value.applyBinary, htruth, hother, Except.toOption, Verdict.both, hne]
          | ok second =>
            have hvalue : (Value.ofTruth? (Value.andTruth truth second)).truth? =
                .ok (Value.andTruth truth second) := by
              cases Value.andTruth truth second <;> rfl
            simp [Value.applyBinary, htruth, hother, Except.toOption, Verdict.both, hne, hvalue,
              pure, Except.pure]

end Bound

/-! ## Conditions on a layout -/

namespace Layout

variable {layout : Layout} {row : Row}

/-- What a condition, bound to a layout, comes to on a row. -/
def verdict (layout : Layout) (row : Row) (expr : Expr) : Verdict :=
  match Bound.bind layout expr with
  | .ok bound => bound.verdict row
  | .error _ => none

theorem verdict_of_bind {expr : Expr} {bound : Bound} (h : Bound.bind layout expr = .ok bound) :
    layout.verdict row expr = bound.verdict row := by
  unfold verdict
  rw [h]

theorem verdict_of_holds {expr : Expr} (h : layout.holds row expr = true) :
    layout.verdict row expr = some (some true) := by
  unfold holds at h
  split at h
  · next bound hbound =>
    rw [verdict_of_bind hbound]
    exact Bound.verdict_of_holds h
  · cases h

theorem verdict_and (hstored : layout.Stored) {left right : Expr} (hleft : layout.Admits left)
    (hright : layout.Admits right) :
    layout.verdict row (.binary left .and right) =
      (layout.verdict row left).both (layout.verdict row right) := by
  obtain ⟨first, hfirst⟩ := hleft
  obtain ⟨second, hsecond⟩ := hright
  have hboth : Bound.bind layout (.binary left .and right) = .ok (.binary first .and second) := by
    rw [bind_and hstored, hfirst, hsecond]
    rfl
  rw [verdict_of_bind hfirst, verdict_of_bind hsecond, verdict_of_bind hboth]
  exact Bound.verdict_and first second row

/-- **A condition comes to what its conjuncts come to, one after the other.** -/
theorem verdict_conjuncts (hstored : layout.Stored) {expr : Expr} (hadmits : layout.Admits expr) :
    layout.verdict row expr = .all ((conjuncts expr).map (layout.verdict row)) := by
  fun_induction conjuncts expr with
  | case1 left right ihleft ihright =>
    obtain ⟨hleft, hright⟩ := (admits_and hstored).mp hadmits
    rw [verdict_and hstored hleft hright, ihleft hleft, ihright hright, List.map_append,
      Verdict.all_append]
  | case2 inner ih =>
    unfold Admits at hadmits
    rw [bind_nested hstored] at hadmits
    rw [← ih hadmits]
    unfold verdict
    rw [bind_nested hstored]
  | case3 => rw [List.map_singleton, Verdict.all_cons, Verdict.all_nil, Verdict.both_true]

/-- **What conjuncts are put together to comes to what they come to, one after the other.** -/
theorem verdict_conjoin (hstored : layout.Stored) {parts : List Expr} {expr : Expr}
    (hparts : ∀ part ∈ parts, layout.Admits part) (h : conjoin parts = some expr) :
    layout.verdict row expr = .all (parts.map (layout.verdict row)) := by
  -- conjuncts are put together from the left, so what was built so far varies in the induction
  have hfold : ∀ (rest : List Expr) (first : Expr), layout.Admits first →
      (∀ part ∈ rest, layout.Admits part) →
      layout.verdict row (rest.foldl (fun left right => .binary left .and right) first) =
        (layout.verdict row first).both (.all (rest.map (layout.verdict row))) := by
    intro rest
    induction rest with
    | nil => intro first _ _; simp
    | cons next rest ih =>
      intro first hfirst hrest
      obtain ⟨hnext, hrest⟩ := List.forall_mem_cons.mp hrest
      rw [List.foldl_cons, ih _ ((admits_and hstored).mpr ⟨hfirst, hnext⟩) hrest,
        verdict_and hstored hfirst hnext, Verdict.both_assoc, List.map_cons, Verdict.all_cons]
  cases parts with
  | nil => cases h
  | cons first rest =>
    cases h
    obtain ⟨hfirst, hrest⟩ := List.forall_mem_cons.mp hparts
    exact hfold rest first hfirst hrest

/-! ### Splitting and putting together again -/

theorem conjuncts_ne_nil (expr : Expr) : conjuncts expr ≠ [] := by
  fun_induction conjuncts expr with
  | case1 left right ihleft => exact List.append_ne_nil_of_left_ne_nil ihleft _
  | case2 inner ih => exact ih
  | case3 => exact List.cons_ne_nil _ _

theorem exists_rejoined (expr : Expr) : ∃ rejoined, conjoin (conjuncts expr) = some rejoined := by
  obtain ⟨first, rest, hconjuncts⟩ := List.exists_cons_of_ne_nil (conjuncts_ne_nil expr)
  rw [hconjuncts]
  exact ⟨_, rfl⟩

/-- **A condition that is split into its conjuncts and put together again is the same condition.**
There is one, it can be bound, and on every row both give the same answer or both fail. -/
theorem rejoined_accepts (hstored : layout.Stored) {expr : Expr} {bound : Bound}
    (h : Bound.bind layout expr = .ok bound) :
    ∃ rejoined other, conjoin (conjuncts expr) = some rejoined ∧
      Bound.bind layout rejoined = .ok other ∧
      ∀ row accepted, other.accepts row = .ok accepted ↔ bound.accepts row = .ok accepted := by
  have hadmits : layout.Admits expr := ⟨bound, h⟩
  have hparts : ∀ part ∈ conjuncts expr, layout.Admits part :=
    (admits_conjuncts hstored expr).mp hadmits
  obtain ⟨rejoined, hrejoined⟩ := exists_rejoined expr
  obtain ⟨other, hother⟩ := (admits_conjoin hstored hrejoined).mpr hparts
  refine ⟨rejoined, other, hrejoined, hother, fun row accepted => ?_⟩
  -- both come to what the conjuncts come to one after the other
  have hverdict : other.verdict row = bound.verdict row := by
    rw [← verdict_of_bind hother, ← verdict_of_bind h, verdict_conjoin hstored hparts hrejoined,
      verdict_conjuncts hstored hadmits]
  rw [Bound.accepts_eq_ok_iff, Bound.accepts_eq_ok_iff, hverdict]

def threeColumns : Layout :=
  ⟨[⟨some "t", "a"⟩, ⟨some "t", "b"⟩, ⟨some "t", "c"⟩]⟩

/-- `a AND (b AND c)` -/
def nestedConjunction : Expr :=
  .binary (.ident ⟨"a", false⟩) .and
    (.nested (.binary (.ident ⟨"b", false⟩) .and (.ident ⟨"c", false⟩)))

/-- The parentheses of `a AND (b AND c)` are dropped, and nothing is lost. -/
theorem rejoined_accepts_nested :
    threeColumns.Stored ∧
      Bound.bind threeColumns nestedConjunction =
        .ok (.binary (.column 0) .and (.binary (.column 1) .and (.column 2))) ∧
      ∃ rejoined other, conjoin (conjuncts nestedConjunction) = some rejoined ∧
        Bound.bind threeColumns rejoined = .ok other ∧
        ∀ row accepted, other.accepts row = .ok accepted ↔
          (Bound.binary (.column 0) .and (.binary (.column 1) .and (.column 2))).accepts row =
            .ok accepted := by
  have hstored : threeColumns.Stored := by simp [Stored, threeColumns]
  exact ⟨hstored, rfl, rejoined_accepts hstored rfl⟩

/-- Both fail on the same rows, but perhaps on another conjunct. -/
example :
    (Bound.binary (.column 0) .and (.binary (.column 1) .and (.column 2))).accepts
        [.int 1, .null, .int 5] = .error (.runtime "Expected a boolean value, got 5") ∧
      (Bound.binary (.binary (.column 0) .and (.column 1)) .and (.column 2)).accepts
        [.int 1, .null, .int 5] = .error (.runtime "Expected a boolean value, got 1") :=
  ⟨rfl, rfl⟩

end Layout
end SqlPipeline
