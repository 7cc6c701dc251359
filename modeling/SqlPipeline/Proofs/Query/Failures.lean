import SqlPipeline.Proofs.Bound.Verdict
import SqlPipeline.Proofs.Query.WherePlans
import SqlPipeline.Proofs.Sql.Scripts

/-!
# When pushing down a condition makes a select fail

The conjuncts of a WHERE clause that are left to a table are asked of all its rows, also of those
that are joined to nothing, and without the conjuncts before them that may have kept them from being
asked. So a select of which the plain plan runs to its end may fail. **It does so exactly if a
condition that was left to a table fails on a row of that table** (`Execution.push_down_failures`).
Nothing else can go wrong, since

* a join is asked about fewer pairs of rows (`Flow.complete_join_iff_sides`),
* what remains of the condition comes to the same on a joined row on which the rest is true
  (`Query.residual_verdict`),
* and the clauses after WHERE get the same rows.
-/

namespace SqlPipeline

open Sql (Expr Select)

/-! ## Joins on fewer rows -/

namespace Flow

/-- Complete, `limited` gives no rows that `full` does not give. -/
def Within (limited full : Flow) : Prop :=
  limited.Complete → full.Complete → limited.rows ⊆ full.rows

variable {on : Bound} {rightWidth : Nat} {left right fullLeft fullRight : Flow}

theorem within_join (hleft : left.Within fullLeft) (hright : right.Within fullRight) :
    (join .inner on rightWidth left right).Within
      (join .inner on rightWidth fullLeft fullRight) := by
  intro hlimited hfull row hrow
  obtain ⟨hleftComplete, hrightComplete, -⟩ := complete_join_iff.mp hlimited
  obtain ⟨hfullLeft, hfullRight, -⟩ := complete_join_iff.mp hfull
  rw [rows_join hlimited] at hrow
  rw [rows_join hfull]
  obtain ⟨first, hfirst, hmem⟩ := List.mem_flatMap.mp hrow
  obtain ⟨hjoined, hholds⟩ := List.mem_filter.mp hmem
  obtain ⟨second, hsecond, rfl⟩ := List.mem_map.mp hjoined
  refine List.mem_flatMap.mpr ⟨first, hleft hleftComplete hfullLeft hfirst, ?_⟩
  have hsecond : second ∈ fullRight.rows := hright hrightComplete hfullRight hsecond
  exact List.mem_filter.mpr ⟨List.mem_map.mpr ⟨second, hsecond, rfl⟩, hholds⟩

/-- **A join of fewer rows is asked about fewer pairs**, so it runs to its end if its sides do. -/
theorem complete_join_iff_sides (hleft : left.Within fullLeft) (hright : right.Within fullRight)
    (hfull : (join .inner on rightWidth fullLeft fullRight).Complete) :
    (join .inner on rightWidth left right).Complete ↔ left.Complete ∧ right.Complete := by
  obtain ⟨hfullLeft, hfullRight, hrun⟩ := complete_join_iff.mp hfull
  rw [complete_join_iff, ← and_assoc, and_iff_left_iff_imp]
  rintro ⟨hleftComplete, hrightComplete⟩
  rw [Stage.run_join_ok_iff] at hrun ⊢
  exact fun first hfirst second hsecond => hrun first (hleft hleftComplete hfullLeft hfirst) second
    (hright hrightComplete hfullRight hsecond)

end Flow

namespace Step

variable {input other : Flow}

/-- Only the rows of a flow matter for whether a step fails. -/
theorem complete_flow_of_rows (step : Step) (hrows : input.rows = other.rows)
    (hother : other.Complete) (h : (step.flow input).Complete) : (step.flow other).Complete := by
  cases step <;>
    exact Stage.complete_flow_iff.mpr ⟨hother, hrows ▸ (Stage.complete_flow_iff.mp h).2⟩

theorem complete_foldl_of_rows :
    ∀ (steps : List Step) {input other : Flow}, input.rows = other.rows → other.Complete →
      (steps.foldl Step.flow input).Complete → (steps.foldl Step.flow other).Complete
  | [], _, _, _, hother, _ => hother
  | step :: rest, input, other, hrows, hother, h => by
    have hstep : (step.flow input).Complete := complete_of_foldl h
    exact complete_foldl_of_rows rest (step.rows_flow hrows)
      (step.complete_flow_of_rows hrows hother hstep) h

end Step

/-- The condition under which the rows of a table are read fails on none of them. -/
def SourcePlan.FilterRuns (schema : Schema) (plan : SourcePlan) : Prop :=
  ∀ part, plan.filter = some part → ∃ filter, Bound.bind plan.layout part = .ok filter ∧
    ∀ row ∈ schema.rowsOf plan.table.key, ∃ accepted, filter.accepts row = .ok accepted

namespace Query

variable {schema : Schema}

/-! ## Tables -/

/-- A table runs to its end if its condition does not fail, and gives no rows that are not its
own. -/
theorem complete_source {name : String} {plan : SourcePlan} {side : Query}
    (h : plan.query name = .ok side) :
    ((side.flow schema).Complete ↔ plan.FilterRuns schema) ∧
      ((side.flow schema).Complete → (side.flow schema).rows ⊆ schema.rowsOf plan.table.key) := by
  obtain ⟨filter, hfilter, h⟩ := Result.bind_eq_ok.mp h
  cases h
  unfold SourcePlan.FilterRuns
  cases hpart : plan.filter with
  | none =>
    rw [hpart] at hfilter
    cases hfilter
    exact ⟨iff_of_true rfl (fun part heq => by cases heq), fun _ => List.Subset.refl _⟩
  | some part =>
    rw [hpart, Option.mapM_some] at hfilter
    cases hbound : Bound.bind plan.layout part with
    | error error => rw [hbound] at hfilter; cases hfilter
    | ok bound =>
      rw [hbound] at hfilter
      cases hfilter
      have hcomplete :
          ((Step.filter bound).flow (.ofRows (schema.rowsOf plan.table.key))).Complete ↔
            ∀ row ∈ schema.rowsOf plan.table.key, ∃ accepted, bound.accepts row = .ok accepted := by
        rw [← Stage.run_filter_ok_iff]
        exact Stage.complete_flow_iff.trans (and_iff_right rfl)
      constructor
      · refine hcomplete.trans ⟨fun h other heq => ?_, fun h => ?_⟩
        · cases heq
          exact ⟨bound, hbound, h⟩
        · obtain ⟨other, hother, h⟩ := h part rfl
          cases hbound.symm.trans hother
          exact h
      · intro h
        have hrows : ((Step.filter bound).flow (.ofRows (schema.rowsOf plan.table.key))).rows =
            (schema.rowsOf plan.table.key).filter bound.holds := Step.rows_filter h
        exact fun row hrow => (List.mem_filter.mp (hrows ▸ hrow)).1

/-- Whatever a table is filtered by, it gives no rows that it does not give unfiltered. -/
theorem within_source {name : String} {plan : SourcePlan} {filter : Option Expr} {side full : Query}
    (hnone : plan.filter = none) (hside : SourcePlan.query name { plan with filter } = .ok side)
    (hfull : plan.query name = .ok full) : (side.flow schema).Within (full.flow schema) := by
  intro hcomplete _
  have hrows : (full.flow schema).rows = schema.rowsOf plan.table.key := by
    unfold SourcePlan.query at hfull
    rw [hnone] at hfull
    cases hfull
    rfl
  rw [hrows]
  exact (complete_source hside).2 hcomplete

/-! ## Joined tables -/

/-- The first query is made of fewer rows than the second. If the second runs to its end, the first
does exactly if all of `sides` do. -/
def NeedsOnly (schema : Schema) (sides : List Query) (limited full : Query) : Prop :=
  (limited.flow schema).Within (full.flow schema) ∧
    ((full.flow schema).Complete →
      ((limited.flow schema).Complete ↔ ∀ side ∈ sides, (side.flow schema).Complete))

theorem needsOnly_side {side full : Query} (h : (side.flow schema).Within (full.flow schema)) :
    NeedsOnly schema [side] side full :=
  ⟨h, fun _ => by simp⟩

theorem needsOnly_join {on : Bound} {rightWidth : Nat} {sides : List Query}
    {query full side fullSide : Query} (h : NeedsOnly schema sides query full)
    (hside : (side.flow schema).Within (fullSide.flow schema)) :
    NeedsOnly schema (sides ++ [side]) (.join .inner on rightWidth query side)
      (.join .inner on rightWidth full fullSide) := by
  refine ⟨Flow.within_join h.1 hside, fun hfull => ?_⟩
  obtain ⟨hcomplete, -, -⟩ := Flow.complete_join_iff.mp hfull
  have hsides : ((join .inner on rightWidth query side).flow schema).Complete ↔
      (query.flow schema).Complete ∧ (side.flow schema).Complete :=
    Flow.complete_join_iff_sides h.1 hside hfull
  rw [hsides, h.2 hcomplete, List.forall_mem_append, List.forall_mem_singleton]

/-- **Joined tables of fewer rows run to their end if each of the tables does.** -/
theorem needsOnly_joinAll :
    ∀ {joins : List Sql.Join} {layouts : List Layout} {layout : Layout} {query full : Query}
      {rights fullRights sides : List Query}, (∀ join ∈ joins, join.kind = .inner) →
      joins.length = layouts.length → joins.length = rights.length →
      List.Forall₂ (fun side fullSide : Query =>
        (side.flow schema).Within (fullSide.flow schema)) rights fullRights →
      NeedsOnly schema sides query full →
      Result.Alike (fun limited full => NeedsOnly schema (sides ++ rights) limited.1 full.1)
        (joinAll query layout (joins.zip (rights.zip layouts)))
        (joinAll full layout (joins.zip (fullRights.zip layouts)))
  | [], [], layout, query, full, [], _, sides, _, _, _, .nil, hquery => by
    rw [List.append_nil]
    exact hquery
  | added :: joins, right :: layouts, layout, query, full, side :: rest, fullSide :: fullRest,
      sides, hinner, hlength, hrights, .cons hside hrest, hquery => by
    -- both queries bind the condition of the join to the same layouts
    refine Result.Alike.bind (Result.alike_self _) fun on _ _ _ heq => ?_
    subst heq
    have hkind : added.kind = .inner := hinner added List.mem_cons_self
    have hsides : sides ++ side :: rest = (sides ++ [side]) ++ rest := by simp
    rw [hsides, hkind]
    exact needsOnly_joinAll (fun join hjoin => hinner join (List.mem_cons_of_mem _ hjoin))
      (Nat.succ.inj hlength) (Nat.succ.inj hrights) hrest (needsOnly_join hquery hside)

section

variable {clause : Sql.From} {plans shared : List SourcePlan} {sides fullSides : List Query}
  {name : String}

/-- Filtered tables give fewer rows, one by one. -/
theorem within_sources (hnone : ∀ plan ∈ plans, plan.filter = none)
    (hshared : List.Forall₂ (fun old new => ∃ filter, new = { old with filter := filter }) plans
      shared)
    (hsides : List.Forall₂ (fun plan side => SourcePlan.query name plan = .ok side) shared sides)
    (hfull : List.Forall₂ (fun plan side => SourcePlan.query name plan = .ok side) plans
      fullSides) :
    List.Forall₂ (fun side full : Query => (side.flow schema).Within (full.flow schema)) sides
      fullSides := by
  induction hshared generalizing sides fullSides with
  | nil =>
    cases hsides
    cases hfull
    exact .nil
  | cons hfilter _ ih =>
    obtain ⟨filter, rfl⟩ := hfilter
    obtain ⟨hplan, hplans⟩ := List.forall_mem_cons.mp hnone
    cases hsides with
    | cons hside hsides =>
      cases hfull with
      | cons hfullSide hfull =>
        exact .cons (within_source hplan hside hfullSide) (ih hplans hsides hfull)

theorem complete_sources
    (hsides : List.Forall₂ (fun plan side => SourcePlan.query name plan = .ok side) shared sides) :
    (∀ side ∈ sides, (side.flow schema).Complete) ↔ ∀ plan ∈ shared, plan.FilterRuns schema := by
  induction hsides with
  | nil => simp
  | cons hside _ ih =>
    rw [List.forall_mem_cons, List.forall_mem_cons, (complete_source hside).1, ih]

/-- **The joined tables of which each is filtered run to their end if each table by itself does.** -/
theorem complete_joinSides (hinner : ∀ join ∈ clause.joins, join.kind = .inner)
    (hlength : plans.length = clause.joins.length + 1) (hnone : ∀ plan ∈ plans, plan.filter = none)
    (hshared : List.Forall₂ (fun old new => ∃ filter, new = { old with filter := filter }) plans
      shared)
    (hsides : List.Forall₂ (fun plan side => SourcePlan.query "join_side" plan = .ok side) shared
      sides)
    (hfull : List.Forall₂ (fun plan side => SourcePlan.query "join_side" plan = .ok side) plans
      fullSides) :
    Result.Alike (fun limited full => NeedsOnly schema sides limited.1 full.1)
      (joinSides clause shared) (joinSides clause plans) := by
  have hwithin : List.Forall₂ (fun side full : Query =>
      (side.flow schema).Within (full.flow schema)) sides fullSides :=
    within_sources hnone hshared hsides hfull
  have hlayouts : shared.map (·.layout) = plans.map (·.layout) := by
    rw [← List.forall₂_eq_eq_eq, List.forall₂_map_left_iff, List.forall₂_map_right_iff]
    refine List.Forall₂.flip (hshared.imp fun old new hfilter => ?_)
    obtain ⟨filter, rfl⟩ := hfilter
    rfl
  unfold joinSides
  rw [Result.collect_map_eq_ok_iff.mpr hsides, Result.collect_map_eq_ok_iff.mpr hfull, hlayouts,
    Result.ok_bind, Result.ok_bind]
  have hcount : sides.length = clause.joins.length + 1 := by
    rw [← hsides.length_eq, ← hshared.length_eq, hlength]
  rw [← List.length_map (·.layout)] at hlength
  generalize plans.map (·.layout) = layouts at hlength
  match layouts, hlength, hwithin with
  | layout :: rest, hlength, .cons hfirst hrest =>
    exact needsOnly_joinAll hinner (Nat.succ.inj hlength).symm (Nat.succ.inj hcount).symm hrest
      (needsOnly_side hfirst)

end

/-! ## What remains of the condition -/

/-- A conjunct that is left to one of the tables is among those that are shared out. -/
theorem mem_sharedOut {layouts : List Layout} {condition part : Expr} {i : Nat}
    (hpart : part ∈ conjuncts condition) (howner : ownerOf layouts part = some i) :
    part ∈ sharedOut layouts condition := by
  obtain ⟨layout, hlayout, -⟩ := admits_of_ownerOf howner
  refine List.mem_flatMap.mpr ⟨i, List.mem_range.mpr (List.getElem?_eq_some_iff.mp hlayout).1, ?_⟩
  exact List.mem_filter.mpr ⟨hpart, decide_eq_true howner⟩

/-- **On a row on which everything is true that is left to the tables, what remains of a condition
comes to what the whole condition comes to.** -/
theorem residual_verdict {layouts : List Layout} {whole : Layout} {condition rest : Expr}
    {row : Row} (hstored : whole.Stored) (hadmits : whole.Admits condition)
    (hrest : residual layouts condition = some rest)
    (hshared : ∀ part ∈ sharedOut layouts condition, whole.holds row part = true) :
    whole.verdict row rest = whole.verdict row condition := by
  have hparts := (Layout.admits_conjuncts hstored condition).mp hadmits
  have hrestParts : ∀ part ∈ (conjuncts condition).filter fun part => ownerOf layouts part = none,
      whole.Admits part := fun part hpart => hparts part (List.mem_filter.mp hpart).1
  rw [Layout.verdict_conjuncts hstored hadmits, Layout.verdict_conjoin hstored hrestParts hrest]
  apply Verdict.all_eq_of_rest_true
  intro part hpart howned
  cases howner : ownerOf layouts part with
  | none => simp [howner] at howned
  | some i => exact Layout.verdict_of_holds (hshared part (mem_sharedOut hpart howner))

section

variable {select : Select} {clause : Sql.From} {condition : Expr} {plans : List SourcePlan}
  {predicate : Bound}

/-- What is found of the tables of a FROM clause, each filtered by what is left to it, and of the
same tables unfiltered. -/
def Pushed (schema : Schema) (plans : List SourcePlan) (condition : Expr)
    (limited full : Query × Layout) : Prop :=
  let whole := Layout.joined (plans.map (·.layout))
  limited.2 = whole ∧ full.2 = whole ∧
    Flow.Narrows whole 0 whole.width (sharedOut (plans.map (·.layout)) condition)
      (limited.1.flow schema) (full.1.flow schema) ∧
    ((full.1.flow schema).Complete → ((limited.1.flow schema).Complete ↔
      ∀ plan ∈ (SourcePlan.pushDown plans condition).1, plan.FilterRuns schema))

theorem pushed_joinSides (hschema : schema.InMemory)
    (hinner : ∀ join ∈ clause.joins, join.kind = .inner)
    (hplans : Result.collect (clause.tables.map (SourcePlan.ofRef schema)) = .ok plans)
    (hadmits : (Layout.joined (plans.map (·.layout))).Admits condition) :
    Result.Alike (Pushed schema plans condition)
      (joinSides clause (SourcePlan.pushDown plans condition).1) (joinSides clause plans) := by
  obtain ⟨hstands, hstored, hlength⟩ := plans_of_refs hplans
  have hnone : ∀ plan ∈ plans, plan.filter = none := fun plan hplan => (hstands plan hplan).2
  have hshared : List.Forall₂ (fun old new => ∃ filter, new = { old with filter := filter }) plans
      (SourcePlan.pushDown plans condition).1 := by
    have hall : clause.joins.all (·.kind = .inner) = true := by simpa using hinner
    have h := share_forall₂ clause (some condition) plans
    simp only [share, hall, if_true] at h
    exact h
  obtain ⟨sides, fullSides, hsides, hfull, -⟩ :=
    narrowAll_pushDown hschema hstands hstored hadmits "join_side" (List.nil_append plans).symm
  have hsides : List.Forall₂ (fun plan side => SourcePlan.query "join_side" plan = .ok side)
      (SourcePlan.pushDown plans condition).1 sides := hsides
  have hneeds : Result.Alike (fun limited full => NeedsOnly schema sides limited.1 full.1)
      (joinSides clause (SourcePlan.pushDown plans condition).1) (joinSides clause plans) :=
    complete_joinSides hinner hlength hnone hshared hsides hfull
  have hboth := (narrows_joinSides hschema hinner hlength hstands hstored hadmits).and hneeds
  rw [← bind_pure (joinSides clause (SourcePlan.pushDown plans condition).1),
    ← bind_pure (joinSides clause plans)]
  refine hboth.bind fun limited full _ _ hfound => ?_
  obtain ⟨⟨hlimited, hfullLayout, hnarrows⟩, -, hcomplete⟩ := hfound
  exact ⟨hlimited, hfullLayout, hnarrows,
    fun h => (hcomplete h).trans (complete_sources hsides)⟩

/-- **What remains of a condition fails on no row that the filters of the tables leave,** if the
whole condition fails on no joined row. -/
theorem complete_residual {limited full : Query × Layout} {filter : Option Bound}
    (hstored : (Layout.joined (plans.map (·.layout))).Stored)
    (hpredicate : Bound.bind (.joined (plans.map (·.layout))) condition = .ok predicate)
    (h : Pushed schema plans condition limited full)
    (hfilter : (residual (plans.map (·.layout)) condition).mapM
      (Bound.bind (.joined (plans.map (·.layout)))) = .ok filter)
    (hplain : ((Step.filter predicate).flow (full.1.flow schema)).Complete) :
    ((filter.map Step.filter).toList.foldl Step.flow (limited.1.flow schema)).Complete ↔
      ∀ plan ∈ (SourcePlan.pushDown plans condition).1, plan.FilterRuns schema := by
  obtain ⟨-, -, hnarrows, hcomplete⟩ := h
  obtain ⟨hfull, hpredicateRuns⟩ := Stage.complete_flow_iff.mp hplain
  rw [Stage.run_filter_ok_iff] at hpredicateRuns
  rw [← hcomplete hfull]
  refine ⟨Step.complete_of_foldl, fun hlimited => ?_⟩
  cases hrest : residual (plans.map (·.layout)) condition with
  | none =>
    rw [hrest] at hfilter
    cases hfilter
    exact hlimited
  | some rest =>
    rw [hrest, Option.mapM_some] at hfilter
    cases hbound : Bound.bind (.joined (plans.map (·.layout))) rest with
    | error error => rw [hbound] at hfilter; cases hfilter
    | ok bound =>
      rw [hbound] at hfilter
      cases hfilter
      refine Stage.complete_flow_iff.mpr ⟨hlimited, Stage.run_filter_ok_iff.mpr fun row hrow => ?_⟩
      obtain ⟨hwide, keeps, hrows, hkeeps⟩ := hnarrows hlimited hfull
      rw [hrows] at hrow
      obtain ⟨hmem, hkept⟩ := List.mem_filter.mp hrow
      -- nothing stands before or after the joined rows
      have hshared : (sharedOut (plans.map (·.layout)) condition).all
          ((Layout.joined (plans.map (·.layout))).holds row) = true := by
        have heq := hkeeps [] row [] rfl (hwide row hmem)
        rw [List.nil_append, List.append_nil] at heq
        exact heq.symm.trans hkept
      have hverdict := residual_verdict hstored ⟨predicate, hpredicate⟩ hrest
        (List.all_eq_true.mp hshared)
      rw [Layout.verdict_of_bind hbound, Layout.verdict_of_bind hpredicate] at hverdict
      rw [Bound.accepts_ok_iff, hverdict, ← Bound.accepts_ok_iff]
      exact hpredicateRuns row hmem

/-- **Before they are grouped, the rows of a select are found if no filter fails on a row of its
table,** provided the plain plan finds them. -/
theorem complete_rows (hschema : schema.InMemory) (hsource : select.source = some clause)
    (hcondition : select.condition = some condition) (hjoins : clause.joins ≠ [])
    (hinner : ∀ join ∈ clause.joins, join.kind = .inner)
    (hplans : Result.collect (clause.tables.map (SourcePlan.ofRef schema)) = .ok plans)
    (hpredicate : Bound.bind (.joined (plans.map (·.layout))) condition = .ok predicate) :
    Result.Alike (fun pushed plain =>
        (plain.2.1.toList.foldl Step.flow (plain.1.flow schema)).Complete →
          ((pushed.2.1.toList.foldl Step.flow (pushed.1.flow schema)).Complete ↔
            ∀ plan ∈ (SourcePlan.pushDown plans condition).1, plan.FilterRuns schema))
      (rows schema select) (plainRows schema clause predicate) := by
  obtain ⟨-, hstored, -⟩ := plans_of_refs hplans
  have hadmits : (Layout.joined (plans.map (·.layout))).Admits condition := ⟨predicate, hpredicate⟩
  have hrestAdmits : ∀ rest, residual (plans.map (·.layout)) condition = some rest →
      (Layout.joined (plans.map (·.layout))).Admits rest := fun rest hrest =>
    (Layout.admits_conjoin hstored hrest).mpr fun part hpart =>
      (Layout.admits_conjuncts hstored condition).mp hadmits part (List.mem_filter.mp hpart).1
  obtain ⟨filter, hfilter, -⟩ := rows_condition hrestAdmits
  unfold rows plainRows
  rw [hsource, hcondition]
  dsimp only
  rw [ofTables_some hjoins hinner hplans, ofTables_none hjoins hplans, bind_assoc, bind_assoc]
  refine (pushed_joinSides hschema hinner hplans hadmits).bind fun limited full _ _ hfound => ?_
  have hstep : Query.condition limited.2 (residual (plans.map (·.layout)) condition) =
      .ok (filter.map Step.filter) := by
    unfold Query.condition
    rw [hfound.1, hfilter]
    rfl
  rw [Result.ok_bind, Result.ok_bind, hstep, Result.ok_bind]
  exact complete_residual hstored hpredicate hfound hfilter

end

/-- **The clauses after WHERE get the same rows,** so they fail in both plans or in none. -/
theorem complete_withOutputs (select : Select) {runs : Prop}
    {pushed plain : Result (Query × Option Step × Layout)}
    (h : Result.Alike (fun pushed plain => (pushed.2.2 = plain.2.2 ∧
        SameRows (pushed.2.1.toList.foldl Step.flow (pushed.1.flow schema))
          (plain.2.1.toList.foldl Step.flow (plain.1.flow schema))) ∧
        ((plain.2.1.toList.foldl Step.flow (plain.1.flow schema)).Complete →
          ((pushed.2.1.toList.foldl Step.flow (pushed.1.flow schema)).Complete ↔ runs)))
      pushed plain) :
    Result.Alike (fun pushed plain =>
        (plain.1.flow schema).Complete → ((pushed.1.flow schema).Complete ↔ runs))
      (pushed >>= withOutputs select) (plain >>= withOutputs select) := by
  refine h.bind fun pushed plain _ _ hfound => ?_
  obtain ⟨⟨hlayout, hsame⟩, hruns⟩ := hfound
  unfold withOutputs
  rw [hlayout]
  refine Result.Alike.bind (Result.alike_self _) fun steps _ _ _ heq => ?_
  subst heq
  intro hplain
  rw [flow, List.foldl_append] at hplain ⊢
  have hrows := Step.complete_of_foldl hplain
  rw [← hruns hrows]
  refine ⟨Step.complete_of_foldl, fun hpushed => ?_⟩
  exact Step.complete_foldl_of_rows steps.1 (hsame hpushed hrows).symm hpushed hplain

end Query

namespace Execution

variable {spec : JobSpec} {schema : Schema} {select : Select} {clause : Sql.From}
  {condition : Expr} {plans : List SourcePlan} {predicate : Bound}

theorem ofFlow_phase_iff {root : Task} {flow : Flow} :
    (ofFlow root flow).phase = .done ↔ flow.Complete := by
  unfold ofFlow Flow.Complete
  cases flow.failureAtEnd <;> simp

/-- **What pushing down a WHERE clause makes fail.** Execute a select from inner joins of tables in
memory, with a WHERE clause that can be bound to the joined columns, and execute it again with a
visitor that has the whole clause checked once on the joined rows. If that second run comes to its
end, the first does exactly if no condition that is left to a table fails on a row of that table. -/
theorem push_down_failures (hschema : schema.InMemory)
    (hplanner : spec.planner = Planner.inMemory) (hvisitor : spec.visitor = none)
    (hparse : Compiling.parse spec.raw = .ok (.select select))
    (hsource : select.source = some clause) (hjoins : clause.joins ≠ [])
    (hinner : ∀ join ∈ clause.joins, join.kind = .inner)
    (hcondition : select.condition = some condition)
    (hplans : Result.collect (clause.tables.map (SourcePlan.ofRef schema)) = .ok plans)
    (hpredicate : Bound.bind (.joined (plans.map (·.layout))) condition = .ok predicate) :
    let pushed := (Execution.run spec (.start (some schema) spec.config)).1
    let plain := (Execution.run (plainSpec spec predicate) (.start (some schema) spec.config)).1
    plain.phase = .done →
      (pushed.phase = .done ↔
        ∀ plan ∈ (SourcePlan.pushDown plans condition).1, plan.FilterRuns schema) := by
  intro pushed plain hplain
  have hwhole : schema.joinedLayout clause = .ok (.joined (plans.map (·.layout))) := by
    rw [Schema.joinedLayout, hplans]
    rfl
  have hboth := Query.complete_withOutputs select
    ((Query.sameRows_rows hschema hsource hcondition hjoins hinner hwhole hpredicate).and
      (Query.complete_rows hschema hsource hcondition hjoins hinner hplans hpredicate))
  obtain ⟨-, hpushedRuns⟩ := run_select hschema hplanner hvisitor hparse
  obtain ⟨hplainFails, hplainRuns⟩ :=
    @run_plain spec schema select clause condition predicate hschema hplanner hparse hsource
      hcondition
  cases hplainQuery : Query.plainRows schema clause predicate >>= Query.withOutputs select with
  | error error =>
    obtain ⟨last, -, hrun⟩ := hplainFails error hplainQuery
    have hplainEq : plain = _ := congrArg Prod.fst hrun
    rw [hplainEq] at hplain
    cases hplain
  | ok plainFound =>
    rw [hplainQuery] at hboth
    cases hquery : Query.rows schema select >>= Query.withOutputs select with
    | error error => rw [hquery] at hboth; exact hboth.elim
    | ok found =>
      rw [hquery] at hboth
      obtain ⟨last, -, -, hrun⟩ := hpushedRuns found.1 found.2 hquery
      obtain ⟨plainLast, -, -, hplainRun⟩ := hplainRuns plainFound.1 plainFound.2 hplainQuery
      have hpushedEq : pushed = _ := congrArg Prod.fst hrun
      have hplainEq : plain = _ := congrArg Prod.fst hplainRun
      rw [hplainEq, ofFlow_phase_iff] at hplain
      rw [hpushedEq, ofFlow_phase_iff]
      exact hboth hplain

/-- The tables of `FROM people JOIN pets ON id = owner`, unfiltered. -/
def ownersPlans : List SourcePlan :=
  [⟨"people", ⟨"people", ⟨"people", [⟨"id", .int64⟩, ⟨"name", .utf8⟩]⟩⟩,
      ⟨[⟨some "people", "id"⟩, ⟨some "people", "name"⟩]⟩, none⟩,
    ⟨"pets", ⟨"pets", ⟨"pets", [⟨"owner", .int64⟩, ⟨"kind", .utf8⟩]⟩⟩,
      ⟨[⟨some "pets", "owner"⟩, ⟨some "pets", "kind"⟩]⟩, none⟩]

/-- A condition that fails on no row of its table makes nothing fail. -/
theorem push_down_failures_family :
    let spec : JobSpec :=
      ⟨"SELECT kind FROM people JOIN pets ON id = owner WHERE id = 2", .default, .inMemory, none⟩
    let predicate : Bound := .binary (.column 0) .eq (.literal (.int 2))
    let pushed := (Execution.run spec (.start (some .family) spec.config)).1
    let plain :=
      (Execution.run (plainSpec spec predicate) (.start (some .family) spec.config)).1
    plain.phase = .done ∧
      (pushed.phase = .done ↔ ∀ plan ∈ (SourcePlan.pushDown ownersPlans
        (.binary (.ident ⟨"id", false⟩) .eq (.literal (.number "2")))).1,
          plan.FilterRuns .family) := by
  intro spec predicate pushed plain
  have hparse : Compiling.parse spec.raw = .ok (.select ownersSelect) :=
    Sql.Script.eq_ok_of_toOption (by decide +kernel)
  have hplainQuery : (Query.plainRows .family ownersClause
        (.binary (.column 0) .eq (.literal (.int 2))) >>= Query.withOutputs ownersSelect) =
      .ok (.sequence "select" (ownersQuery [])
        [.filter (.binary (.column 0) .eq (.literal (.int 2))), .projection [.column 3]],
        ⟨[⟨some "pets", "kind"⟩]⟩) := rfl
  have hplain : plain.phase = .done := by
    obtain ⟨-, hruns⟩ := run_plain Schema.inMemory_family rfl hparse rfl rfl
    obtain ⟨last, -, -, hrun⟩ := hruns _ _ hplainQuery
    exact (congrArg (fun found => found.1.phase) hrun).trans rfl
  exact ⟨hplain, push_down_failures Schema.inMemory_family rfl rfl hparse rfl (by decide)
    (by decide) rfl rfl rfl hplain⟩

/-- The condition `kind = 'cat' AND 1 / (id - 1) = 1`. -/
def catsCondition : Expr :=
  .binary (.binary (.ident ⟨"kind", false⟩) .eq (.literal (.string "cat"))) .and
    (.binary (.binary (.literal (.number "1")) .divide
      (.nested (.binary (.ident ⟨"id", false⟩) .minus (.literal (.number "1"))))) .eq
        (.literal (.number "1")))

/-- The same condition on the joined rows of people and pets. -/
def catsPredicate : Bound :=
  .binary (.binary (.column 3) .eq (.literal (.utf8 "cat"))) .and
    (.binary (.binary (.literal (.int 1)) .divide
      (.binary (.column 0) .minus (.literal (.int 1)))) .eq (.literal (.int 1)))

/-- The query of a select under this condition, each conjunct of which is left to a table. -/
def catsQuery : Query :=
  .sequence "select"
    (.join .inner (.binary (.column 0) .eq (.column 2)) 2
      (.sequence "join_side(people)" (.source "people" "people")
        [.filter (.binary (.binary (.literal (.int 1)) .divide
          (.binary (.column 0) .minus (.literal (.int 1)))) .eq (.literal (.int 1)))])
      (.sequence "join_side(pets)" (.source "pets" "pets")
        [.filter (.binary (.column 1) .eq (.literal (.utf8 "cat")))]))
    [.projection [.column 0, .column 1, .column 2, .column 3]]

/-- The first of the people has no cat. On the joined rows the second conjunct is not asked about
them, but it is about people only, and is asked there of everyone: it divides by zero. -/
theorem push_down_divides_by_zero :
    let spec : JobSpec :=
      ⟨"SELECT * FROM people JOIN pets ON id = owner WHERE kind = 'cat' AND 1 / (id - 1) = 1",
        .default, .inMemory, none⟩
    let pushed := (Execution.run spec (.start (some .family) spec.config)).1
    let plain :=
      (Execution.run (plainSpec spec catsPredicate) (.start (some .family) spec.config)).1
    Compiling.parse spec.raw =
        .ok (.select ⟨false, [.all], none, some ownersClause, some catsCondition, [], none⟩) ∧
      Bound.bind (.joined (ownersPlans.map (·.layout))) catsCondition = .ok catsPredicate ∧
      plain.phase = .done ∧
      plain.rows = some [[.int 2, .utf8 "bob", .int 2, .utf8 "cat"]] ∧
      pushed.phase = .run ∧
      pushed.failure = some (.error (.runtime "Division by zero")) := by
  intro spec pushed plain
  have hparse : Compiling.parse spec.raw =
      .ok (.select ⟨false, [.all], none, some ownersClause, some catsCondition, [], none⟩) :=
    Sql.Script.eq_ok_of_toOption (by decide +kernel)
  have hplainQuery : (Query.plainRows .family ownersClause catsPredicate >>= Query.withOutputs
        ⟨false, [.all], none, some ownersClause, some catsCondition, [], none⟩) =
      .ok (.sequence "select" (ownersQuery [])
        [.filter catsPredicate, .projection [.column 0, .column 1, .column 2, .column 3]],
        .joined (ownersPlans.map (·.layout))) := rfl
  have hquery : Query.ofSelect .family
        ⟨false, [.all], none, some ownersClause, some catsCondition, [], none⟩ =
      .ok (catsQuery, .joined (ownersPlans.map (·.layout))) := rfl
  obtain ⟨-, hplainRuns⟩ := run_plain Schema.inMemory_family rfl hparse rfl rfl
  obtain ⟨plainLast, -, -, hplainRun⟩ := hplainRuns _ _ hplainQuery
  obtain ⟨-, hruns⟩ := run_select Schema.inMemory_family rfl rfl hparse
  obtain ⟨last, -, -, hrun⟩ := hruns _ _ hquery
  refine ⟨hparse, rfl, ?_, ?_, ?_, ?_⟩
  · exact (congrArg (fun found => found.1.phase) hplainRun).trans rfl
  · exact (congrArg (fun found => found.1.rows) hplainRun).trans rfl
  · exact (congrArg (fun found => found.1.phase) hrun).trans rfl
  · exact (congrArg (fun found => found.1.failure) hrun).trans rfl

end Execution
end SqlPipeline
