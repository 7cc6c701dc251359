import SqlPipeline.Proofs.Bound.Shift
import SqlPipeline.Proofs.Query.Rows
import SqlPipeline.Proofs.Query.Width

/-!
# Conditions that are pushed down

The conjuncts of a WHERE clause that are about one table of an inner join are left to that table,
and the others are checked on the joined rows. To see that this changes no rows, the query with the
conjuncts left to its tables (`limited`) is compared with the same query without them (`full`), from
the tables up: at every point, the rows of the first are those of the second on which the conjuncts
hold that were left to the tables so far (`Flow.Narrows`).

* A table is filtered by the conjuncts that are about it alone (`Query.narrows_source`),
* an inner join keeps the rows that both sides keep (`Flow.narrows_join`),
* and every conjunct is left to one table or to the joined rows (`all_shared`).
-/

namespace SqlPipeline

open Sql (Expr Select)

/-! ## Whose a conjunct is -/

/-- A conjunct that is left to a layout can be bound to it. -/
theorem admits_of_ownerOf {layouts : List Layout} {part : Expr} {i : Nat}
    (h : ownerOf layouts part = some i) :
    ∃ layout, layouts[i]? = some layout ∧ layout.Admits part := by
  have hmem : i ∈ bindingPositions layouts part := by
    unfold ownerOf at h
    split at h
    · next hpositions => cases h; simp [hpositions]
    · cases h
  obtain ⟨⟨layout, j⟩, hlayout, hbinds⟩ := List.mem_filterMap.mp hmem
  dsimp only at hbinds
  split at hbinds
  · next hadmits =>
    cases hbinds
    exact ⟨layout, List.mem_zipIdx_iff_getElem?.mp hlayout, Layout.bindsTo_iff.mp hadmits⟩
  · cases hbinds

/-- The conjuncts of a condition that are left to the layout at a position. -/
def sharedParts (layouts : List Layout) (condition : Expr) (i : Nat) : List Expr :=
  (conjuncts condition).filter fun part => ownerOf layouts part = some i

/-- **Every conjunct is left to one of the layouts or to none**, so nothing is lost and nothing is
asked twice. -/
theorem all_shared (layouts : List Layout) (condition : Expr) (p : Expr → Bool) :
    (((List.range layouts.length).flatMap (sharedParts layouts condition)).all p &&
      ((conjuncts condition).filter fun part => ownerOf layouts part = none).all p) =
        (conjuncts condition).all p := by
  rw [Bool.eq_iff_iff, Bool.and_eq_true, List.all_eq_true, List.all_eq_true, List.all_eq_true]
  constructor
  · rintro ⟨hshared, hrest⟩ part hpart
    cases howner : ownerOf layouts part with
    | none => exact hrest part (by simp [hpart, howner])
    | some i =>
      obtain ⟨layout, hlayout, -⟩ := admits_of_ownerOf howner
      have hi : i < layouts.length := (List.getElem?_eq_some_iff.mp hlayout).1
      apply hshared
      simp [sharedParts, hpart, howner, hi]
  · intro hall
    constructor
    · intro part hpart
      obtain ⟨i, -, hmem⟩ := List.mem_flatMap.mp hpart
      exact hall part (List.mem_filter.mp hmem).1
    · intro part hpart
      exact hall part (List.mem_filter.mp hpart).1

namespace Layout

def joined (layouts : List Layout) : Layout :=
  ⟨layouts.flatMap (·.columns)⟩

theorem joined_cons (layout : Layout) (rest : List Layout) :
    joined (layout :: rest) = layout.append (joined rest) := rfl

theorem partOf_joined (front : List Layout) (layout : Layout) (rest : List Layout) :
    layout.PartOf (joined front).width (joined (front ++ layout :: rest)) := by
  refine ⟨joined front, joined rest, rfl, ?_⟩
  simp [joined, append]

theorem stored_joined {layouts : List Layout} (h : ∀ layout ∈ layouts, layout.Stored) :
    (joined layouts).Stored := by
  intro column hcolumn
  obtain ⟨layout, hlayout, hmem⟩ := List.mem_flatMap.mp hcolumn
  exact h layout hlayout column hmem

end Layout

/-! ## Flows that are narrowed -/

/-- Filtering the sides of a join filters the join, if the filter of the joined rows is that of both
sides. -/
theorem filter_joined {left right : List Row} {p q both on : Row → Bool}
    (hboth : ∀ row ∈ left, ∀ other ∈ right, both (row ++ other) = (p row && q other)) :
    ((left.filter p).flatMap fun row => ((right.filter q).map (row ++ ·)).filter on) =
      (left.flatMap fun row => (right.map (row ++ ·)).filter on).filter both := by
  induction left with
  | nil => rfl
  | cons row rest ih =>
    have hrest := ih fun row hrow => hboth row (List.mem_cons_of_mem _ hrow)
    -- the share of a single left row: what is filtered out of it, or nothing at all
    have hrow : ((right.map (row ++ ·)).filter on).filter both =
        if p row then ((right.filter q).map (row ++ ·)).filter on else [] := by
      rw [List.filter_map, List.filter_map, List.filter_map, List.filter_filter,
        List.filter_filter]
      split
      · next hp =>
        congr 1
        apply List.filter_congr
        intro other hother
        simp [hboth row List.mem_cons_self other hother, hp, Bool.and_comm]
      · next hp =>
        rw [List.map_eq_nil_iff, List.filter_eq_nil_iff]
        intro other hother
        simp [hboth row List.mem_cons_self other hother, hp]
    rw [List.flatMap_cons, List.filter_append, hrow, ← hrest, List.filter_cons]
    split
    · rw [List.flatMap_cons]
    · rfl

/-- Complete, `limited` gives the rows of `full` on which some parts of a condition hold. The parts
are conditions on rows of the layout `whole`; the rows of both flows are what is at `offset` in
them. -/
def Flow.Narrows (whole : Layout) (offset width : Nat) (parts : List Expr) (limited full : Flow) :
    Prop :=
  limited.Complete → full.Complete → (∀ row ∈ full.rows, row.length = width) ∧
    ∃ keeps : Row → Bool, limited.rows = full.rows.filter keeps ∧
      ∀ before row after : Row, before.length = offset → row.length = width →
        keeps row = parts.all (whole.holds (before ++ row ++ after))

/-- **An inner join of narrowed sides is narrowed by the parts of both.** -/
theorem Flow.narrows_join {whole : Layout} {offset width rightWidth : Nat} {parts more : List Expr}
    {on : Bound} {left right fullLeft fullRight : Flow}
    (hleft : Flow.Narrows whole offset width parts left fullLeft)
    (hright : Flow.Narrows whole (offset + width) rightWidth more right fullRight) :
    Flow.Narrows whole offset (width + rightWidth) (parts ++ more)
      (Flow.join .inner on rightWidth left right)
      (Flow.join .inner on rightWidth fullLeft fullRight) := by
  intro hlimited hfull
  obtain ⟨hleftComplete, hrightComplete, -⟩ := Flow.complete_join_iff.mp hlimited
  obtain ⟨hfullLeft, hfullRight, -⟩ := Flow.complete_join_iff.mp hfull
  obtain ⟨hleftWide, keepsLeft, hleftRows, hleftKeeps⟩ := hleft hleftComplete hfullLeft
  obtain ⟨hrightWide, keepsRight, hrightRows, hrightKeeps⟩ := hright hrightComplete hfullRight
  rw [Flow.rows_join hlimited, Flow.rows_join hfull, hleftRows, hrightRows]
  constructor
  · intro joined hjoined
    obtain ⟨row, hrow, hmem⟩ := List.mem_flatMap.mp hjoined
    obtain ⟨other, hother, rfl⟩ := List.mem_map.mp (List.mem_filter.mp hmem).1
    rw [List.length_append, hleftWide row hrow, hrightWide other hother]
  · refine ⟨fun row => keepsLeft (row.take width) && keepsRight (row.drop width),
      filter_joined fun row hrow other _ => ?_, fun before row after hbefore hrow => ?_⟩
    · rw [List.take_left' (hleftWide row hrow), List.drop_left' (hleftWide row hrow)]
    · -- a joined row is split where its sides were put together
      obtain ⟨first, second, hfirst, hsecond, rfl⟩ : ∃ first second : Row,
          first.length = width ∧ second.length = rightWidth ∧ row = first ++ second :=
        ⟨row.take width, row.drop width, by simp [hrow], by simp [hrow],
          (List.take_append_drop width row).symm⟩
      have hbetween : (before ++ first).length = offset + width := by simp [hbefore, hfirst]
      dsimp only
      rw [List.take_left' hfirst, List.drop_left' hfirst, List.all_append,
        hleftKeeps before first (second ++ after) hbefore hfirst,
        hrightKeeps (before ++ first) second after hbetween hsecond]
      simp only [List.append_assoc]

/-! ## Queries that are narrowed -/

namespace Query

variable {schema : Schema} {whole : Layout}

/-- A condition whose parts can be bound is a step, or none, that keeps the rows on which it
holds. -/
theorem rows_condition {layout : Layout} {expr : Option Expr}
    (h : ∀ found, expr = some found → layout.Admits found) :
    ∃ filter, expr.mapM (Bound.bind layout) = .ok filter ∧
      ∀ input : Flow, ((filter.map Step.filter).toList.foldl Step.flow input).Complete →
        ((filter.map Step.filter).toList.foldl Step.flow input).rows =
          input.rows.filter fun row => expr.all (layout.holds row) := by
  cases expr with
  | none =>
    refine ⟨none, rfl, fun input _ => ?_⟩
    simp
  | some expr =>
    obtain ⟨bound, hbound⟩ := h expr rfl
    refine ⟨some bound, ?_, fun input hcomplete => ?_⟩
    · rw [Option.mapM_some, hbound]
      rfl
    · have hrows : ((Step.filter bound).flow input).rows = input.rows.filter bound.holds :=
        Step.rows_filter hcomplete
      simp only [Option.all_some, Layout.holds_of_bind hbound]
      exact hrows

/-- **A table that is filtered by some parts of a condition is narrowed by them.** -/
theorem narrows_source (hschema : schema.InMemory) (hwhole : whole.Stored) {plan : SourcePlan}
    {offset : Nat} {parts : List Expr} (hstands : plan.Stands schema)
    (hfilter : plan.filter = none) (hpart : plan.layout.PartOf offset whole)
    (hparts : ∀ part ∈ parts, plan.layout.Admits part ∧ whole.Admits part) (name : String) :
    ∃ limited full : Query,
      SourcePlan.query name { plan with filter := conjoin parts } = .ok limited ∧
        plan.query name = .ok full ∧
          Flow.Narrows whole offset plan.layout.width parts (limited.flow schema)
            (full.flow schema) := by
  have hstored : plan.layout.Stored := hpart.stored hwhole
  have hadmits : ∀ expr, conjoin parts = some expr → plan.layout.Admits expr := fun expr hexpr =>
    (Layout.admits_conjoin hstored hexpr).mpr fun part hmem => (hparts part hmem).1
  obtain ⟨filter, hbound, hrows⟩ := rows_condition hadmits
  have hfull : plan.query name = .ok (.sequence (name ++ "(" ++ plan.binding ++ ")")
      (.source plan.binding plan.table.key) []) := by
    unfold SourcePlan.query
    rw [hfilter]
    rfl
  have hlimited : SourcePlan.query name { plan with filter := conjoin parts } =
      .ok (.sequence (name ++ "(" ++ plan.binding ++ ")") (.source plan.binding plan.table.key)
        (filter.map Step.filter).toList) := by
    unfold SourcePlan.query
    rw [hbound]
    rfl
  refine ⟨_, _, hlimited, hfull, fun hcomplete _ => ⟨fun row hrow => ?_, ?_⟩⟩
  · exact ((binds_sourceQuery hstands hfull).agrees hschema).2.wide row hrow
  · refine ⟨fun row => parts.all (plan.layout.holds row), ?_,
      fun before row after hbefore hrow => ?_⟩
    · have hconjoin : ∀ row, (conjoin parts).all (plan.layout.holds row) =
          parts.all (plan.layout.holds row) := fun row => Layout.holds_conjoin hstored parts
      simp only [← hconjoin]
      exact hrows _ hcomplete
    · -- what is bound to the table means the same columns in the joined rows
      rw [Bool.eq_iff_iff, List.all_eq_true, List.all_eq_true]
      refine forall₂_congr fun part hmem => ?_
      rw [hpart.holds_eq hwhole (hparts part hmem).1 (hparts part hmem).2 hbefore hrow]

/-- The queries `limited` are narrowed one by one, each by parts of its own. The layouts stand one
after the other from `offset` on. -/
inductive NarrowAll (schema : Schema) (whole : Layout) :
    Nat → List Layout → List Expr → (limited full : List Query) → Prop
  | nil {offset : Nat} : NarrowAll schema whole offset [] [] [] []
  | cons {offset : Nat} {layout : Layout} {layouts : List Layout} {parts more : List Expr}
    {first fullFirst : Query} {rest fullRest : List Query}
    (hfirst : Flow.Narrows whole offset layout.width parts (first.flow schema)
      (fullFirst.flow schema))
    (hrest : NarrowAll schema whole (offset + layout.width) layouts more rest fullRest) :
    NarrowAll schema whole offset (layout :: layouts) (parts ++ more) (first :: rest)
      (fullFirst :: fullRest)

/-- What is found of two queries for the same tables: the layout of all these tables, and that the
first is narrowed by some parts. -/
def NarrowsTo (schema : Schema) (whole layout : Layout) (parts : List Expr)
    (limited full : Query × Layout) : Prop :=
  limited.2 = layout ∧ full.2 = layout ∧
    Flow.Narrows whole 0 layout.width parts (limited.1.flow schema) (full.1.flow schema)

/-- **Joining narrowed sides to a narrowed query narrows the join by all their parts.** -/
theorem narrows_joinAll :
    ∀ {joins : List Sql.Join} {layouts : List Layout} {layout : Layout} {query full : Query}
      {rights fullRights : List Query} {parts more : List Expr},
      (∀ join ∈ joins, join.kind = .inner) → joins.length = layouts.length →
      NarrowAll schema whole layout.width layouts more rights fullRights →
      Flow.Narrows whole 0 layout.width parts (query.flow schema) (full.flow schema) →
      Result.Alike (NarrowsTo schema whole (layout.append (.joined layouts)) (parts ++ more))
        (joinAll query layout (joins.zip (rights.zip layouts)))
        (joinAll full layout (joins.zip (fullRights.zip layouts)))
  | [], [], layout, query, full, _, _, parts, _, _, _, .nil, hquery => by
    have hlayout : layout.append (.joined []) = layout := by simp [Layout.append, Layout.joined]
    rw [hlayout, List.append_nil]
    exact ⟨rfl, rfl, hquery⟩
  | added :: joins, right :: layouts, layout, query, full, _, _, parts, _, hinner, hlength,
      .cons hfirst hrest, hquery => by
    -- both queries bind the condition of the join to the same layouts
    refine Result.Alike.bind (Result.alike_self _) fun on _ _ _ heq => ?_
    subst heq
    have hkind : added.kind = .inner := hinner added List.mem_cons_self
    rw [← Nat.zero_add layout.width] at hfirst
    rw [← Layout.width_append] at hrest
    have hjoined : Flow.Narrows whole 0 (layout.width + right.width) _
        (Flow.join .inner on right.width _ _) (Flow.join .inner on right.width _ _) :=
      Flow.narrows_join hquery hfirst
    rw [← Layout.width_append] at hjoined
    have hlayout : layout.append (.joined (right :: layouts)) =
        (layout.append right).append (.joined layouts) := by
      simp [Layout.append, Layout.joined]
    rw [hlayout, ← List.append_assoc, hkind]
    exact narrows_joinAll (fun join hjoin => hinner join (List.mem_cons_of_mem _ hjoin))
      (Nat.succ.inj hlength) hrest hjoined

/-! ## The tables of a FROM clause -/

/-- The conjuncts that are left to the tables of the given layouts. -/
def sharedOut (layouts : List Layout) (condition : Expr) : List Expr :=
  (List.range layouts.length).flatMap (sharedParts layouts condition)

section

variable {plans : List SourcePlan} {condition : Expr}

/-- Tables that are filtered by what is left to them are narrowed by it, one after the other. -/
theorem narrowAll_pushDown (hschema : schema.InMemory)
    (hplans : ∀ plan ∈ plans, plan.Stands schema ∧ plan.filter = none)
    (hstored : (Layout.joined (plans.map (·.layout))).Stored)
    (hadmits : (Layout.joined (plans.map (·.layout))).Admits condition) (name : String) :
    ∀ {rest front : List SourcePlan}, plans = front ++ rest → ∃ limited full : List Query,
      List.Forall₂ (fun plan side => SourcePlan.query name plan = .ok side)
        ((rest.zipIdx front.length).map fun (plan, i) =>
          { plan with filter := pushedTo (plans.map (·.layout)) condition i }) limited ∧
      List.Forall₂ (fun plan side => SourcePlan.query name plan = .ok side) rest full ∧
      NarrowAll schema (.joined (plans.map (·.layout)))
        (Layout.joined (front.map (·.layout))).width (rest.map (·.layout))
        ((List.range' front.length rest.length).flatMap
          (sharedParts (plans.map (·.layout)) condition)) limited full
  | [], front, _ => ⟨[], [], .nil, .nil, .nil⟩
  | plan :: rest, front, heq => by
    have hmem : plan ∈ plans := by simp [heq]
    have hpart : plan.layout.PartOf (Layout.joined (front.map (·.layout))).width
        (.joined (plans.map (·.layout))) := by
      rw [heq, List.map_append, List.map_cons]
      exact Layout.partOf_joined _ _ _
    have hparts : ∀ part ∈ sharedParts (plans.map (·.layout)) condition front.length,
        plan.layout.Admits part ∧ (Layout.joined (plans.map (·.layout))).Admits part := by
      intro part hshared
      obtain ⟨hconjunct, howner⟩ := List.mem_filter.mp hshared
      obtain ⟨layout, hlayout, hown⟩ := admits_of_ownerOf (of_decide_eq_true howner)
      refine ⟨?_, (Layout.admits_conjuncts hstored condition).mp hadmits part hconjunct⟩
      -- the owner is found by its position among all tables, which is that of this one
      have hat : (plans.map (·.layout))[front.length]? = some plan.layout := by simp [heq]
      rw [hat] at hlayout
      cases hlayout
      exact hown
    obtain ⟨first, fullFirst, hfirst, hfullFirst, hnarrows⟩ := narrows_source hschema hstored
      (hplans plan hmem).1 (hplans plan hmem).2 hpart hparts name
    have hfront : plans = (front ++ [plan]) ++ rest := by simp [heq]
    obtain ⟨limited, full, hlimited, hfull, hall⟩ :=
      narrowAll_pushDown hschema hplans hstored hadmits name hfront
    have hlength : (front ++ [plan]).length = front.length + 1 := by simp
    have hwidth : (Layout.joined ((front ++ [plan]).map (·.layout))).width =
        (Layout.joined (front.map (·.layout))).width + plan.layout.width := by
      simp [Layout.joined, Layout.width]
    rw [hlength] at hlimited hall
    rw [hwidth] at hall
    exact ⟨first :: limited, fullFirst :: full, .cons hfirst hlimited, .cons hfullFirst hfull,
      .cons hnarrows hall⟩

theorem map_layout_pushDown (plans : List SourcePlan) (condition : Expr) :
    (SourcePlan.pushDown plans condition).1.map (·.layout) = plans.map (·.layout) := by
  have hfst : plans.zipIdx.map (fun entry => entry.1.layout) =
      (plans.zipIdx.map Prod.fst).map (·.layout) := List.map_map.symm
  rw [List.zipIdx_map_fst] at hfst
  unfold SourcePlan.pushDown
  rw [List.map_map]
  exact hfst

/-- **The joined tables of which each is filtered by what is left to it are narrowed by all that is
left to them.** -/
theorem narrows_joinSides (hschema : schema.InMemory) {clause : Sql.From}
    (hinner : ∀ join ∈ clause.joins, join.kind = .inner)
    (hlength : plans.length = clause.joins.length + 1)
    (hplans : ∀ plan ∈ plans, plan.Stands schema ∧ plan.filter = none)
    (hstored : (Layout.joined (plans.map (·.layout))).Stored)
    (hadmits : (Layout.joined (plans.map (·.layout))).Admits condition) :
    Result.Alike
      (NarrowsTo schema (.joined (plans.map (·.layout))) (.joined (plans.map (·.layout)))
        (sharedOut (plans.map (·.layout)) condition))
      (joinSides clause (SourcePlan.pushDown plans condition).1) (joinSides clause plans) := by
  obtain ⟨limited, full, hlimited, hfull, hall⟩ :=
    narrowAll_pushDown hschema hplans hstored hadmits "join_side" (List.nil_append plans).symm
  have hcollect : Result.collect
      ((SourcePlan.pushDown plans condition).1.map (SourcePlan.query "join_side")) = .ok limited :=
    Result.collect_map_eq_ok_iff.mpr hlimited
  have hcollectFull : Result.collect (plans.map (SourcePlan.query "join_side")) = .ok full :=
    Result.collect_map_eq_ok_iff.mpr hfull
  have hnarrow : NarrowAll schema (.joined (plans.map (·.layout))) 0 (plans.map (·.layout))
      (sharedOut (plans.map (·.layout)) condition) limited full := by
    unfold sharedOut
    rw [List.range_eq_range', List.length_map]
    exact hall
  unfold joinSides
  rw [map_layout_pushDown, hcollect, hcollectFull, Result.ok_bind, Result.ok_bind]
  rw [← List.length_map (·.layout)] at hlength
  generalize sharedOut (plans.map (·.layout)) condition = parts at hnarrow ⊢
  generalize plans.map (·.layout) = layouts at hlength hnarrow ⊢
  cases hnarrow with
  | nil => cases hlength
  | @cons _ layout rest _ _ _ _ _ _ hfirst hrest =>
    have hwidth : layout.width = 0 + layout.width := (Nat.zero_add _).symm
    rw [Layout.joined_cons]
    exact narrows_joinAll hinner (Nat.succ.inj hlength).symm (hwidth ▸ hrest) hfirst

end

end Query
end SqlPipeline
