import SqlPipeline.Proofs.Query.OfSelect

/-!
# Queries and their layouts

A query fits a layout if every expression in it was bound to the layout of the rows it is evaluated
on. `Query.Binds` is this relation as a set of rules, one for each way to build a query, in the
manner of a typing judgement: a table has the layout of its columns, a join that of both sides, and
each step turns one layout into another (`Step.Binds`).

The layout that is kept while a select is compiled is always that of the query so far:
**the query of a select fits the layout that compiling leaves** (`Query.binds_ofSelect`).
-/

namespace SqlPipeline

open Sql (Expr Select SelectItem)

/-! ## The rules -/

/-- The expressions of a step are bound to the layout `before`, and its rows have the layout
`after`. -/
inductive Step.Binds (before : Layout) : Step → (after : Layout) → Prop
  | filter {expr : Expr} {predicate : Bound} (h : Bound.bind before expr = .ok predicate) :
    Binds before (.filter predicate) before
  | projection {items : List SelectItem} {columns : List (List (Bound × Layout.Column))}
    (h : items.mapM (Compiling.itemColumns before) = .ok columns) :
    Binds before (.projection (columns.flatten.map (·.1))) ⟨columns.flatten.map (·.2)⟩
  | groupBy {exprs parts : List Expr} {keys : List (Bound × Layout.Column)}
    {aggregates : List Aggregate} (hkeys : Compiling.groupKeys before exprs = .ok keys)
    (haggregates : Aggregate.collect before parts = .ok aggregates) :
    Binds before (.groupBy (keys.map (·.1)) aggregates)
      ⟨keys.map (·.2) ++ aggregates.map fun aggregate => ⟨none, aggregate.name⟩⟩
  | distinct : Binds before .distinct before

/-- The steps turn rows of the layout `before` into rows of the layout `after`, each bound to the
layout of the rows it gets. -/
inductive Step.BindAll : Layout → List Step → Layout → Prop
  | nil {layout : Layout} : BindAll layout [] layout
  | cons {before between after : Layout} {step : Step} {rest : List Step}
    (hstep : step.Binds before between) (hrest : BindAll between rest after) :
    BindAll before (step :: rest) after

theorem Step.BindAll.append {before between after : Layout} {first rest : List Step}
    (hfirst : Step.BindAll before first between) (hrest : Step.BindAll between rest after) :
    Step.BindAll before (first ++ rest) after := by
  induction hfirst with
  | nil => exact hrest
  | cons hstep _ ih => exact .cons hstep (ih hrest)

theorem Step.BindAll.single {before after : Layout} {step : Step} (h : step.Binds before after) :
    Step.BindAll before [step] after :=
  .cons h .nil

/-- Every expression of a query is bound to the layout of the rows it is evaluated on, and the rows
of the query have the given layout. -/
inductive Query.Binds (schema : Schema) : Query → Layout → Prop
  | values {rows : List Row} {layout : Layout} (h : ∀ row ∈ rows, row.length = layout.width) :
    Binds schema (.values rows) layout
  | source {binding key : String} {table : Table} (h : schema.get? key = some table) :
    Binds schema (.source binding key) (.ofTable binding table.definition)
  | join {kind : Sql.JoinKind} {expr : Expr} {on : Bound} {left right : Query}
    {leftLayout rightLayout : Layout} (hleft : Binds schema left leftLayout)
    (hright : Binds schema right rightLayout)
    (hon : Bound.bind (leftLayout.append rightLayout) expr = .ok on) :
    Binds schema (.join kind on rightLayout.width left right) (leftLayout.append rightLayout)
  | sequence {name : String} {first : Query} {steps : List Step} {before after : Layout}
    (hfirst : Binds schema first before) (hsteps : Step.BindAll before steps after) :
    Binds schema (.sequence name first steps) after

/-! ## Tables -/

/-- A table of a query is one of the schema, under the layout of its columns. -/
def SourcePlan.Stands (schema : Schema) (plan : SourcePlan) : Prop :=
  ∃ table, schema.get? plan.table.key = some table ∧
    plan.layout = .ofTable plan.binding table.definition

theorem SourcePlan.Stands.filtered {schema : Schema} {plan : SourcePlan} (h : plan.Stands schema)
    (filter : Option Expr) : SourcePlan.Stands schema { plan with filter := filter } :=
  h

namespace Query

variable {schema : Schema}

theorem stands_of_ofRef {ref : Sql.TableRef} {plan : SourcePlan}
    (h : SourcePlan.ofRef schema ref = .ok plan) : plan.Stands schema := by
  obtain ⟨found, hfound, h⟩ := Result.bind_eq_ok.mp h
  cases h
  obtain ⟨table, htable, hdefinition⟩ := Schema.exists_of_resolve hfound
  exact ⟨table, htable, by rw [hdefinition]⟩

theorem stands_of_refs {refs : List Sql.TableRef} {plans : List SourcePlan}
    (h : List.Forall₂ (fun ref plan => SourcePlan.ofRef schema ref = .ok plan) refs plans) :
    ∀ plan ∈ plans, plan.Stands schema := by
  intro plan hplan
  obtain ⟨ref, -, href⟩ := exists_mem_of_forall₂ h hplan
  exact stands_of_ofRef href

/-- A condition that was bound to a layout is a step on its rows. -/
theorem bindAll_filter {layout : Layout} {expr : Option Expr} {filter : Option Bound}
    (h : expr.mapM (Bound.bind layout) = .ok filter) :
    Step.BindAll layout (filter.map Step.filter).toList layout := by
  cases expr with
  | none => cases h; exact .nil
  | some expr =>
    rw [Option.mapM_some] at h
    cases hbound : Bound.bind layout expr with
    | error error => rw [hbound] at h; cases h
    | ok bound => rw [hbound] at h; cases h; exact .single (.filter hbound)

theorem bindAll_condition {layout : Layout} {expr : Option Expr} {step : Option Step}
    (h : condition layout expr = .ok step) : Step.BindAll layout step.toList layout := by
  obtain ⟨filter, hfilter, h⟩ := Result.bind_eq_ok.mp h
  cases h
  exact bindAll_filter hfilter

/-- The rows of a table have the layout of its columns, whatever they are filtered by. -/
theorem binds_sourceQuery {name : String} {plan : SourcePlan} {query : Query}
    (hplan : plan.Stands schema) (h : plan.query name = .ok query) :
    query.Binds schema plan.layout := by
  obtain ⟨filter, hfilter, h⟩ := Result.bind_eq_ok.mp h
  cases h
  obtain ⟨table, htable, hlayout⟩ := hplan
  refine .sequence ?_ (bindAll_filter hfilter)
  rw [hlayout]
  exact .source htable

theorem binds_joinAll :
    ∀ {rest : List (Sql.Join × Query × Layout)} {query : Query} {layout : Layout}
      {joined : Query × Layout}, query.Binds schema layout →
      (∀ side ∈ rest, side.2.1.Binds schema side.2.2) →
      joinAll query layout rest = .ok joined → joined.1.Binds schema joined.2
  | [], query, layout, joined, hquery, _, h => by
    cases h
    exact hquery
  | (added, right, rightLayout) :: rest, query, layout, joined, hquery, hrest, h => by
    obtain ⟨on, hon, h⟩ := Result.bind_eq_ok.mp h
    have hright : right.Binds schema rightLayout :=
      hrest (added, right, rightLayout) List.mem_cons_self
    exact binds_joinAll (.join hquery hright hon)
      (fun side hside => hrest side (List.mem_cons_of_mem _ hside)) h

/-- Sharing a condition out among tables changes nothing but what they are filtered by. -/
theorem share_forall₂ (clause : Sql.From) (condition : Option Expr) (plans : List SourcePlan) :
    List.Forall₂ (fun old new => ∃ filter, new = { old with filter := filter }) plans
      (share clause condition plans).1 := by
  have hsame : List.Forall₂ (fun old new => ∃ filter, new = { old with filter := filter })
      plans plans := List.forall₂_same.mpr fun plan _ => ⟨plan.filter, rfl⟩
  -- positions are counted from any number on, for the sake of the induction
  have hpush : ∀ (filter : Nat → Option Expr) (plans : List SourcePlan) (first : Nat),
      List.Forall₂ (fun old new => ∃ filter, new = { old with filter := filter }) plans
        ((plans.zipIdx first).map fun entry => { entry.1 with filter := filter entry.2 }) := by
    intro filter plans
    induction plans with
    | nil => intro _; exact .nil
    | cons plan rest ih => intro first; exact .cons ⟨filter first, rfl⟩ (ih (first + 1))
  unfold share
  split
  · split
    · exact hpush _ plans 0
    · exact hsame
  · exact hsame

theorem stands_share {clause : Sql.From} {condition : Option Expr} {plans : List SourcePlan}
    (hplans : ∀ plan ∈ plans, plan.Stands schema) :
    ∀ plan ∈ (share clause condition plans).1, plan.Stands schema := by
  intro plan hplan
  obtain ⟨old, hold, filter, rfl⟩ :=
    exists_mem_of_forall₂ (share_forall₂ clause condition plans) hplan
  exact (hplans old hold).filtered filter

/-- The queries of tables have the layouts of these tables. -/
theorem binds_sides {plans : List SourcePlan} {sides : List Query} {name : String}
    (hplans : ∀ plan ∈ plans, plan.Stands schema)
    (h : List.Forall₂ (fun plan side => SourcePlan.query name plan = .ok side) plans sides) :
    List.Forall₂ (fun side layout => Query.Binds schema side layout) sides
      (plans.map (·.layout)) := by
  induction h with
  | nil => exact .nil
  | cons hquery _ ih =>
    exact .cons (binds_sourceQuery (hplans _ List.mem_cons_self) hquery)
      (ih fun plan hplan => hplans plan (List.mem_cons_of_mem _ hplan))

theorem binds_joinSides {clause : Sql.From} {plans : List SourcePlan} {joined : Query × Layout}
    (hplans : ∀ plan ∈ plans, plan.Stands schema) (h : joinSides clause plans = .ok joined) :
    joined.1.Binds schema joined.2 := by
  obtain ⟨sides, hsides, h⟩ := Result.bind_eq_ok.mp h
  have hbinds := binds_sides hplans (Result.collect_map_eq_ok_iff.mp hsides)
  generalize plans.map (·.layout) = layouts at hbinds h
  cases hbinds with
  | nil => cases h
  | cons hfirst hrest =>
    refine binds_joinAll hfirst (fun side hside => ?_) h
    exact List.forall₂_zip hrest (List.of_mem_zip hside).2

theorem binds_ofTables {clause : Sql.From} {condition : Option Expr}
    {found : Query × Layout × Option Expr} (h : ofTables schema clause condition = .ok found) :
    found.1.Binds schema found.2.1 := by
  unfold ofTables at h
  split at h
  · obtain ⟨source, hsource, h⟩ := Result.bind_eq_ok.mp h
    obtain ⟨query, hquery, h⟩ := Result.bind_eq_ok.mp h
    cases h
    have hbinds := binds_sourceQuery ((stands_of_ofRef hsource).filtered condition) hquery
    exact hbinds
  · obtain ⟨plans, hplans, h⟩ := Result.bind_eq_ok.mp h
    obtain ⟨joined, hjoined, h⟩ := Result.bind_eq_ok.mp h
    cases h
    exact binds_joinSides
      (stands_share (stands_of_refs (Result.collect_map_eq_ok_iff.mp hplans))) hjoined

/-! ## Clauses -/

theorem binds_rows {select : Select} {found : Query × Option Step × Layout}
    (h : rows schema select = .ok found) :
    found.1.Binds schema found.2.2 ∧
      Step.BindAll found.2.2 found.2.1.toList found.2.2 := by
  unfold rows at h
  split at h
  · obtain ⟨filter, hfilter, h⟩ := Result.bind_eq_ok.mp h
    cases h
    refine ⟨.values fun row hrow => ?_, bindAll_condition hfilter⟩
    rw [List.mem_singleton.mp hrow]
    rfl
  · obtain ⟨tables, htables, h⟩ := Result.bind_eq_ok.mp h
    obtain ⟨filter, hfilter, h⟩ := Result.bind_eq_ok.mp h
    cases h
    exact ⟨binds_ofTables htables, bindAll_condition hfilter⟩

theorem bindAll_grouping {before : Layout} {select : Select} {found : Option Step × Layout}
    (h : grouping before select = .ok found) :
    Step.BindAll before found.1.toList found.2 := by
  obtain ⟨aggregates, haggregates, h⟩ := Result.bind_eq_ok.mp h
  split at h
  · cases h
    exact .nil
  · obtain ⟨keys, hkeys, h⟩ := Result.bind_eq_ok.mp h
    cases h
    exact .single (.groupBy hkeys haggregates)

/-- The clauses after WHERE turn the layout of the rows before them into that of the select. -/
theorem bindAll_outputs {before : Layout} {select : Select} {found : List Step × Layout}
    (h : outputs before select = .ok found) : Step.BindAll before found.1 found.2 := by
  obtain ⟨groups, hgroups, h⟩ := Result.bind_eq_ok.mp h
  obtain ⟨having, hhaving, h⟩ := Result.bind_eq_ok.mp h
  obtain ⟨projected, hprojected, h⟩ := Result.bind_eq_ok.mp h
  obtain ⟨columns, hcolumns, hprojected⟩ := Result.bind_eq_ok.mp hprojected
  cases hprojected
  cases h
  have hdistinct : ∀ layout, Step.BindAll layout (distinctStep select).toList layout := by
    intro layout
    unfold distinctStep
    split
    · exact .single .distinct
    · exact .nil
  exact (((bindAll_grouping hgroups).append (bindAll_condition hhaving)).append
    (.single (.projection hcolumns))).append (hdistinct _)

/-- **The query of a select fits its layout.** -/
theorem binds_ofSelect {select : Select} {query : Query} {layout : Layout}
    (h : ofSelect schema select = .ok (query, layout)) : query.Binds schema layout := by
  obtain ⟨found, hfound, h⟩ := Result.bind_eq_ok.mp h
  obtain ⟨steps, hsteps, h⟩ := Result.bind_eq_ok.mp h
  cases h
  obtain ⟨hfirst, hfilter⟩ := binds_rows hfound
  exact .sequence hfirst (hfilter.append (bindAll_outputs hsteps))

end Query
end SqlPipeline
