import SqlPipeline.Proofs.Bound.Holds
import SqlPipeline.Proofs.Query.Basic

/-!
# The rows of a flow that is complete

A stage that fails on no row treats each row by itself if it keeps nothing from row to row
(`Stage.run_eq_flatMap`), and it fails exactly if it does so on one of the rows
(`Stage.run_ok_iff`). So the rows of a complete flow are known without looking at how it ran:

* **a filter passes on the rows on which its condition holds** (`Step.rows_filter`),
* **an inner join puts every two rows together on which its condition holds**
  (`Flow.rows_join`).

Later steps see nothing of a flow but its rows (`Step.rows_foldl`).
-/

namespace SqlPipeline

/-! ## Stages that keep nothing -/

namespace Stage

/-- A stage without a state makes the rows for each row by themselves, as long as it does not
fail. -/
theorem run_eq_flatMap {stage : Stage Unit} {make : Row → List Row}
    (hstep : ∀ row, (stage.step () row).2 = .ok () → (stage.step () row).1 = make row)
    (hfinish : stage.finish () = []) {rows : List Row} (h : (stage.run rows).2 = .ok ()) :
    (stage.run rows).1 = rows.flatMap make := by
  -- there is only one state, so the induction needs no invariant
  have hfeed : ∀ rows, (stage.feed () rows).2 = .ok () →
      (stage.feed () rows).1.flatten = rows.flatMap make := by
    intro rows
    induction rows with
    | nil => intro _; rfl
    | cons row rest ih =>
      intro hrows
      have hrow := hstep row
      rw [feed] at hrows ⊢
      cases hresult : stage.step () row with
      | mk out result =>
        rw [hresult] at hrow hrows
        cases result with
        | error error => cases hrows
        | ok next =>
          have hout : out = make row := hrow rfl
          simp [hout, ih hrows]
  have hrows := hfeed rows
  unfold run at h ⊢
  split at h
  · next outs last heq =>
    rw [heq] at hrows
    simp only [hrows rfl, hfinish, List.append_nil]
  · cases h

theorem run_filter {predicate : Bound} {rows : List Row}
    (h : ((filter predicate).run rows).2 = .ok ()) :
    ((filter predicate).run rows).1 = rows.filter predicate.holds := by
  have hstep : ∀ row, ((filter predicate).step () row).2 = .ok () →
      ((filter predicate).step () row).1 = [row].filter predicate.holds := by
    intro row hrow
    unfold filter Bound.holds at *
    cases haccepts : predicate.accepts row with
    | error error => simp [haccepts] at hrow
    | ok accepted => cases accepted <;> simp [haccepts]
  rw [run_eq_flatMap hstep rfl h, ← List.filter_flatMap, List.flatMap_singleton']

/-- A row is joined to the rows of the right side with which the condition holds. -/
theorem matching_eq {on : Bound} {left : Row} :
    ∀ {rights : List Row}, (matching on left rights).2 = .ok () →
      (matching on left rights).1 = (rights.map (left ++ ·)).filter on.holds
  | [], _ => rfl
  | right :: rest, h => by
    rw [matching] at h ⊢
    cases haccepts : on.accepts (left ++ right) with
    | error error => simp [haccepts] at h
    | ok accepted =>
      have hrest : (matching on left rest).2 = .ok () := by simpa [haccepts] using h
      have hholds : on.holds (left ++ right) = accepted := by simp [Bound.holds, haccepts]
      simp [matching_eq hrest, List.filter_cons, hholds]

/-- The rows that a join makes of a row of the left side. -/
def joined (kind : Sql.JoinKind) (on : Bound) (rightWidth : Nat) (rights : List Row) (left : Row) :
    List Row :=
  let found := (rights.map (left ++ ·)).filter on.holds
  if kind = .left ∧ found = [] then [left ++ Row.nulls rightWidth] else found

theorem run_join {kind : Sql.JoinKind} {on : Bound} {rightWidth : Nat} {lefts rights : List Row}
    (h : ((join kind on rightWidth rights).run lefts).2 = .ok ()) :
    ((join kind on rightWidth rights).run lefts).1 =
      lefts.flatMap (joined kind on rightWidth rights) := by
  refine run_eq_flatMap (fun left hleft => ?_) rfl h
  have hmatching : (matching on left rights).2 = .ok () → _ := matching_eq
  unfold join at hleft ⊢
  unfold joined
  dsimp only at hleft ⊢
  split at hleft
  · next heq =>
    rw [heq] at hmatching
    simp [← hmatching rfl]
  · next joined last hne heq =>
    rw [heq] at hmatching
    have hfound : joined = _ := hmatching hleft
    have hsome : joined ≠ [] := by
      rintro rfl
      exact hne rfl hleft
    rw [← hfound, if_neg (by simp [hsome])]

/-! ### When they fail -/

/-- A stage without a state fails exactly if it fails on one of the rows. -/
theorem run_ok_iff {stage : Stage Unit} {rows : List Row} :
    (stage.run rows).2 = .ok () ↔ ∀ row ∈ rows, (stage.step () row).2 = .ok () := by
  have hfeed : ∀ rows : List Row, (stage.feed () rows).2 = .ok () ↔
      ∀ row ∈ rows, (stage.step () row).2 = .ok () := by
    intro rows
    induction rows with
    | nil => simp [feed]
    | cons row rest ih =>
      rw [List.forall_mem_cons, ← ih, feed]
      cases hstep : stage.step () row with
      | mk out result => cases result <;> simp
  rw [← hfeed rows, run, show stage.start = () from rfl]
  cases stage.feed () rows with
  | mk outs result => cases result <;> simp

theorem run_filter_ok_iff {predicate : Bound} {rows : List Row} :
    ((filter predicate).run rows).2 = .ok () ↔
      ∀ row ∈ rows, ∃ accepted, predicate.accepts row = .ok accepted := by
  rw [run_ok_iff]
  refine forall₂_congr fun row _ => ?_
  unfold filter
  dsimp only
  cases predicate.accepts row with
  | error error => simp
  | ok accepted => cases accepted <;> simp

theorem matching_ok_iff {on : Bound} {left : Row} {rights : List Row} :
    (matching on left rights).2 = .ok () ↔
      ∀ right ∈ rights, ∃ accepted, on.accepts (left ++ right) = .ok accepted := by
  induction rights with
  | nil => simp [matching]
  | cons right rest ih =>
    rw [List.forall_mem_cons, ← ih, matching]
    cases on.accepts (left ++ right) <;> simp

/-- A join fails exactly if its condition fails on a pair of rows. -/
theorem run_join_ok_iff {kind : Sql.JoinKind} {on : Bound} {rightWidth : Nat}
    {lefts rights : List Row} :
    ((join kind on rightWidth rights).run lefts).2 = .ok () ↔
      ∀ left ∈ lefts, ∀ right ∈ rights, ∃ accepted, on.accepts (left ++ right) = .ok accepted := by
  rw [run_ok_iff]
  refine forall₂_congr fun left _ => ?_
  rw [← matching_ok_iff]
  unfold join
  dsimp only
  cases matching on left rights with
  | mk joined last => cases joined <;> cases last <;> simp

/-- A filter stops at the first row of which it cannot be told whether it is accepted. -/
theorem run_filter_result (predicate : Bound) (rows : List Row) :
    ((filter predicate).run rows).2 = (rows.mapM predicate.accepts).map fun _ => () := by
  have hfeed : ∀ rows : List Row, ((filter predicate).feed () rows).2 =
      (rows.mapM predicate.accepts).map fun _ => () := by
    intro rows
    induction rows with
    | nil => rfl
    | cons row rest ih =>
      rw [feed, List.mapM_cons]
      unfold filter at ih ⊢
      dsimp only at ih ⊢
      cases predicate.accepts row with
      | error error => rfl
      | ok accepted =>
        cases accepted <;>
        · dsimp only
          rw [ih]
          cases rest.mapM predicate.accepts <;> rfl
  rw [← hfeed rows, run, show (filter predicate).start = () from rfl]
  cases (filter predicate).feed () rows with
  | mk outs result => cases result <;> rfl

end Stage

/-! ## All columns -/

/-- The columns of a row, one by one, are the row. -/
theorem Bound.evalAll_columns (row : Row) :
    ∀ (before rest : Row), row = before ++ rest →
      evalAll row ((List.range' before.length rest.length).map column) = .ok rest
  | _, [], _ => rfl
  | before, value :: rest, h => by
    have hrest := evalAll_columns row (before ++ [value]) rest (by simp [h])
    have hvalue : (column before.length).eval row = .ok value := by
      rw [eval, h, List.getElem?_append_right (Nat.le_refl _), Nat.sub_self]
      rfl
    rw [List.length_append, List.length_singleton] at hrest
    rw [List.length_cons, List.range'_succ, List.map_cons, evalAll, hvalue, hrest]
    rfl

/-- A projection whose expressions can be evaluated on all rows passes on their values. -/
theorem Stage.run_projection {exprs : List Bound} {make : Row → Row} {rows : List Row}
    (hrows : ∀ row ∈ rows, Bound.evalAll row exprs = .ok (make row)) :
    (projection exprs).run rows = (rows.map make, .ok ()) := by
  have hstep : ∀ row ∈ rows, (projection exprs).step () row = ([make row], .ok ()) := by
    intro row hrow
    unfold projection
    dsimp only
    rw [hrows row hrow]
  have hok : ((projection exprs).run rows).2 = .ok () :=
    run_ok_iff.mpr fun row hrow => congrArg Prod.snd (hstep row hrow)
  refine Prod.ext ?_ hok
  calc ((projection exprs).run rows).1
      = rows.flatMap fun row => ((projection exprs).step () row).1 :=
        run_eq_flatMap (fun _ _ => rfl) rfl hok
    _ = rows.flatMap fun row => [make row] :=
        List.flatMap_congr fun row hrow => congrArg Prod.fst (hstep row hrow)
    _ = rows.map make := List.map_eq_flatMap.symm

/-- A projection on all columns passes full rows on as they are. -/
theorem Stage.run_projection_all {width : Nat} {rows : List Row}
    (hrows : ∀ row ∈ rows, row.length = width) :
    (projection ((List.range width).map Bound.column)).run rows = (rows, .ok ()) := by
  have heval : ∀ row ∈ rows,
      Bound.evalAll row ((List.range width).map Bound.column) = .ok (id row) := by
    intro row hrow
    rw [← hrows row hrow, List.range_eq_range']
    exact Bound.evalAll_columns row [] row rfl
  rw [run_projection heval, List.map_id]

/-! ## Complete flows -/

theorem Step.rows_filter {predicate : Bound} {input : Flow}
    (h : ((Step.filter predicate).flow input).Complete) :
    ((Step.filter predicate).flow input).rows = input.rows.filter predicate.holds :=
  Stage.run_filter (Stage.complete_flow_iff.mp h).2

/-- A join makes the rows of each row of the left side by itself. -/
theorem Flow.rows_joined {kind : Sql.JoinKind} {on : Bound} {rightWidth : Nat} {left right : Flow}
    (h : (join kind on rightWidth left right).Complete) :
    (join kind on rightWidth left right).rows =
      left.rows.flatMap (Stage.joined kind on rightWidth right.rows) :=
  Stage.run_join (complete_join_iff.mp h).2.2

theorem Flow.rows_join {on : Bound} {rightWidth : Nat} {left right : Flow}
    (h : (join .inner on rightWidth left right).Complete) :
    (join .inner on rightWidth left right).rows =
      left.rows.flatMap fun row => (right.rows.map (row ++ ·)).filter on.holds :=
  (rows_joined h).trans (List.flatMap_congr fun row _ => by simp [Stage.joined])

namespace Step

variable {input other : Flow}

theorem complete_of_flow {step : Step} (h : (step.flow input).Complete) : input.Complete := by
  cases step <;> exact (Stage.complete_flow_iff.mp h).1

/-- Only the rows of a flow matter for the rows after a step. -/
theorem rows_flow (step : Step) (h : input.rows = other.rows) :
    (step.flow input).rows = (step.flow other).rows := by
  cases step with
  | filter predicate => exact congrArg (fun rows => ((Stage.filter predicate).run rows).1) h
  | projection exprs => exact congrArg (fun rows => ((Stage.projection exprs).run rows).1) h
  | groupBy keys aggregates =>
    exact congrArg (fun rows => ((Stage.groupBy keys aggregates).run rows).1) h
  | distinct => exact congrArg (fun rows => (Stage.distinct.run rows).1) h

theorem complete_of_foldl :
    ∀ {steps : List Step} {input : Flow}, (steps.foldl Step.flow input).Complete → input.Complete
  | [], _, h => h
  | _ :: _, _, h => complete_of_flow (complete_of_foldl h)

/-- Only the rows of a flow matter for the rows after any number of steps. -/
theorem rows_foldl :
    ∀ (steps : List Step) {input other : Flow}, input.rows = other.rows →
      (steps.foldl Step.flow input).rows = (steps.foldl Step.flow other).rows
  | [], _, _, h => h
  | step :: rest, _, _, h => rows_foldl rest (step.rows_flow h)

end Step
end SqlPipeline
