import Mathlib
import SqlPipeline.Proofs.Bound.Columns
import SqlPipeline.Proofs.Query.Run

/-!
# Rows as wide as their layout

The layout of a query is kept while it is compiled, and the widths of its rows come about while it
runs: a table gives rows as it stores them, a join puts two rows together or pads one with NULLs,
groups give a row of keys and aggregates, and a projection one value for each expression. The two
never part. For a query that fits a layout in the sense of the rules (`Query.Binds`),

* every row that reaches a step or a join condition is as wide as the layout the expressions there
  were bound to (`Query.Agrees`),
* every row that comes out is as wide as the layout of the query, and nothing that goes wrong is
  about a column that a row does not have (`Flow.Fits`).

Both follow from one lemma for each stage, which looks at one row only (`Stage.Turns`).
-/

namespace SqlPipeline

open Sql (Expr Select)

/-! ## What is within a layout -/

namespace Compiling

variable {layout : Layout}

theorem within_of_groupKeys :
    ∀ {exprs : List Expr} {keys : List (Bound × Layout.Column)},
      groupKeys layout exprs = .ok keys → Bound.AllWithin layout.width (keys.map (·.1))
  | [], keys, h => by cases h; trivial
  | expr :: rest, keys, h => by
    obtain ⟨key, hkey, h⟩ := Result.bind_eq_ok.mp h
    obtain ⟨column, -, h⟩ := Result.bind_eq_ok.mp h
    obtain ⟨others, hothers, h⟩ := Result.bind_eq_ok.mp h
    cases h
    exact ⟨Bound.within_of_bind hkey, within_of_groupKeys hothers⟩

theorem within_of_columnsAt {positions : List Nat}
    (hpositions : ∀ i ∈ positions, i < layout.width) :
    ∀ column ∈ columnsAt layout positions, column.1.Within layout.width := by
  intro column hcolumn
  obtain ⟨i, hi, hmap⟩ := List.mem_filterMap.mp hcolumn
  obtain ⟨found, -, rfl⟩ := Option.map_eq_some_iff.mp hmap
  exact hpositions i hi

theorem within_of_itemColumns {item : Sql.SelectItem} {columns : List (Bound × Layout.Column)}
    (h : itemColumns layout item = .ok columns) :
    ∀ column ∈ columns, column.1.Within layout.width := by
  cases item with
  | all =>
    cases h
    exact within_of_columnsAt fun i hi => List.mem_range.mp hi
  | allOf table =>
    rw [itemColumns] at h
    split at h
    · cases h
    · cases h
      exact within_of_columnsAt fun i hi => Layout.mem_positions hi
  | expr value =>
    obtain ⟨bound, hbound, h⟩ := Result.bind_eq_ok.mp h
    obtain ⟨column, -, h⟩ := Result.bind_eq_ok.mp h
    cases h
    intro column hcolumn
    rw [List.mem_singleton.mp hcolumn]
    exact Bound.within_of_bind hbound
  | aliased value name =>
    obtain ⟨bound, hbound, h⟩ := Result.bind_eq_ok.mp h
    cases h
    intro column hcolumn
    rw [List.mem_singleton.mp hcolumn]
    exact Bound.within_of_bind hbound

theorem within_of_items {items : List Sql.SelectItem}
    {columns : List (List (Bound × Layout.Column))}
    (h : items.mapM (itemColumns layout) = .ok columns) :
    Bound.AllWithin layout.width (columns.flatten.map (·.1)) := by
  rw [Bound.allWithin_iff]
  intro bound hbound
  obtain ⟨column, hcolumn, rfl⟩ := List.mem_map.mp hbound
  obtain ⟨found, hfound, hmem⟩ := List.mem_flatten.mp hcolumn
  obtain ⟨item, -, hitem⟩ := exists_mem_of_forall₂ (Result.mapM_eq_ok_iff.mp h) hfound
  exact within_of_itemColumns hitem column hmem

end Compiling

namespace Aggregate

/-- The columns of the argument, if there is one, are among the first `width`. -/
def Within (width : Nat) (aggregate : Aggregate) : Prop :=
  ∀ arg, aggregate.arg = some arg → arg.Within width

variable {layout : Layout}

theorem within_of_ofCall? {expr : Expr} {aggregate : Aggregate}
    (h : ofCall? layout expr = .ok (some aggregate)) : aggregate.Within layout.width := by
  intro arg harg
  unfold ofCall? at h
  split at h
  · dsimp only at h
    split at h
    · cases h
    · split at h
      · cases h; cases harg
      · obtain ⟨bound, hbound, h⟩ := Result.bind_eq_ok.mp h
        cases h
        cases harg
        exact Bound.within_of_bind hbound
      · cases h
  · cases h

/-- Aggregates are gathered one by one, each of which was bound when it was found. -/
theorem within_of_gathered :
    ∀ {parts : List Expr} {found last : List Aggregate},
      (∀ aggregate ∈ found, aggregate.Within layout.width) →
      parts.foldlM (fun found part => do
        match ← ofCall? layout part with
        | some aggregate => return addNew found aggregate
        | none => return found) found = (.ok last : Result _) →
      ∀ aggregate ∈ last, aggregate.Within layout.width
  | [], found, last, hfound, h => by
    cases h
    exact hfound
  | part :: rest, found, last, hfound, h => by
    rw [List.foldlM_cons] at h
    obtain ⟨next, hnext, h⟩ := Result.bind_eq_ok.mp h
    obtain ⟨call, hcall, hnext⟩ := Result.bind_eq_ok.mp hnext
    refine within_of_gathered ?_ h
    cases call with
    | none =>
      cases hnext
      exact hfound
    | some aggregate =>
      cases hnext
      unfold addNew
      split
      · exact hfound
      · intro other hother
        rcases List.mem_append.mp hother with hold | hnew
        · exact hfound other hold
        · rw [List.mem_singleton.mp hnew]
          exact within_of_ofCall? hcall

theorem within_of_collect {exprs : List Expr} {aggregates : List Aggregate}
    (h : collect layout exprs = .ok aggregates) :
    ∀ aggregate ∈ aggregates, aggregate.Within layout.width :=
  within_of_gathered (List.forall_mem_nil _) h

theorem addRow_finds {aggregate : Aggregate} {row : Row} (h : aggregate.Within row.length)
    (acc : Accumulator) : Result.Finds (aggregate.addRow acc row) := by
  unfold addRow
  split
  · next arg harg =>
    exact Result.finds_bind (Bound.eval_finds (h arg harg)) fun value _ => acc.finds_add value
  · exact acc.finds_add _

end Aggregate

/-! ## One row of a stage -/

namespace Stage

variable {width : Nat}

abbrev Wide (width : Nat) (row : Row) : Prop :=
  row.length = width

theorem turns_filter {predicate : Bound} (h : predicate.Within width) :
    (filter predicate).Turns (fun _ => True) (Wide width) (Wide width) Error.Finds where
  start := trivial
  sends {_ row} _ hrow out hout := by
    unfold filter at hout
    dsimp only at hout
    split at hout
    · rw [List.mem_singleton.mp hout]
      exact hrow
    · cases hout
    · cases hout
  next _ _ _ := trivial
  fails {_ row error} _ hrow herror := by
    unfold filter at herror
    dsimp only at herror
    split at herror
    · cases herror
    · cases herror
    · next found hfound =>
      cases herror
      exact Bound.accepts_finds (hrow ▸ h) error hfound
  finish _ out hout := by cases hout

theorem turns_projection {exprs : List Bound} (h : Bound.AllWithin width exprs) :
    (projection exprs).Turns (fun _ => True) (Wide width) (Wide exprs.length) Error.Finds where
  start := trivial
  sends {_ row} _ hrow out hout := by
    unfold projection at hout
    dsimp only at hout
    split at hout
    · next values hvalues =>
      rw [List.mem_singleton.mp hout]
      exact Bound.length_evalAll hvalues
    · cases hout
  next _ _ _ := trivial
  fails {_ row error} _ hrow herror := by
    unfold projection at herror
    dsimp only at herror
    split at herror
    · cases herror
    · next found hfound =>
      cases herror
      exact Bound.evalAll_finds (hrow ▸ h) error hfound
  finish _ out hout := by cases hout

theorem turns_distinct :
    distinct.Turns (fun _ => True) (Wide width) (Wide width) Error.Finds where
  start := trivial
  sends {seen row} _ hrow out hout := by
    unfold distinct at hout
    dsimp only at hout
    split at hout
    · cases hout
    · rw [List.mem_singleton.mp hout]
      exact hrow
  next _ _ _ := trivial
  fails {seen row error} _ _ herror := by
    unfold distinct at herror
    dsimp only at herror
    split at herror <;> cases herror
  finish _ out hout := by cases hout

/-! ### Joins -/

/-- A row that a left row is joined to is one of the right side. -/
theorem mem_matching {on : Bound} {left : Row} :
    ∀ {rights : List Row}, ∀ out ∈ (matching on left rights).1,
      ∃ right ∈ rights, out = left ++ right
  | [], out, hout => by cases hout
  | right :: rest, out, hout => by
    have hrest : out ∈ (matching on left rest).1 →
        ∃ other ∈ right :: rest, out = left ++ other := by
      intro hmem
      obtain ⟨other, hother, heq⟩ := mem_matching out hmem
      exact ⟨other, List.mem_cons_of_mem _ hother, heq⟩
    rw [matching] at hout
    split at hout
    · cases hout
    · dsimp only at hout
      split at hout
      · rcases List.mem_cons.mp hout with rfl | hmem
        · exact ⟨right, List.mem_cons_self, rfl⟩
        · exact hrest hmem
      · exact hrest hout

/-- A join fails with what the condition fails with on a pair of rows. -/
theorem error_matching {on : Bound} {left : Row} {error : Error} :
    ∀ {rights : List Row}, (matching on left rights).2 = .error error →
      ∃ right ∈ rights, on.accepts (left ++ right) = .error error
  | [], h => by cases h
  | right :: rest, h => by
    rw [matching] at h
    split at h
    · next found hfound =>
      cases h
      exact ⟨right, List.mem_cons_self, hfound⟩
    · have hrest : (matching on left rest).2 = .error error := h
      obtain ⟨other, hother, herror⟩ := error_matching hrest
      exact ⟨other, List.mem_cons_of_mem _ hother, herror⟩

theorem turns_join {kind : Sql.JoinKind} {on : Bound} {leftWidth rightWidth : Nat}
    {rights : List Row} (hon : on.Within (leftWidth + rightWidth))
    (hrights : ∀ right ∈ rights, Wide rightWidth right) :
    (join kind on rightWidth rights).Turns (fun _ => True) (Wide leftWidth)
      (Wide (leftWidth + rightWidth)) Error.Finds where
  start := trivial
  sends {_ left} _ hleft out hout := by
    have hmatching : ∀ out ∈ (matching on left rights).1, Wide (leftWidth + rightWidth) out := by
      intro out hout
      obtain ⟨right, hright, rfl⟩ := mem_matching out hout
      unfold Wide
      rw [List.length_append, hleft, hrights right hright]
    unfold join at hout
    dsimp only at hout
    split at hout
    · split at hout
      · -- a left row without a match is padded by as many NULLs as the right side is wide
        rw [List.mem_singleton.mp hout]
        unfold Wide Row.nulls
        rw [List.length_append, List.length_replicate, hleft]
      · cases hout
    · next joined last heq =>
      rw [heq] at hmatching
      exact hmatching out hout
  next _ _ _ := trivial
  fails {_ left error} _ hleft herror := by
    unfold join at herror
    dsimp only at herror
    split at herror
    · cases herror
    · next joined last heq =>
      obtain ⟨right, hright, haccepts⟩ := error_matching ((congrArg Prod.snd heq).trans herror)
      refine Bound.accepts_finds ?_ error haccepts
      rw [List.length_append, hleft, hrights right hright]
      exact hon
  finish _ out hout := by cases hout

/-! ### Groups -/

/-- Every group has a value for each key and a state for each aggregate. -/
def Grouped (keys aggregates : Nat) (groups : List Group) : Prop :=
  ∀ group ∈ groups, group.1.length = keys ∧ group.2.length = aggregates

theorem length_addRow {row : Row} :
    ∀ {aggregates : List Aggregate} {accs next : List Accumulator},
      accs.length = aggregates.length → addRow row aggregates accs = .ok next →
      next.length = aggregates.length
  | [], [], next, _, h => by cases h; rfl
  | aggregate :: aggregates, acc :: accs, next, hlen, h => by
    obtain ⟨first, -, h⟩ := Result.bind_eq_ok.mp h
    obtain ⟨others, hothers, h⟩ := Result.bind_eq_ok.mp h
    cases h
    exact congrArg (· + 1) (length_addRow (Nat.succ.inj hlen) hothers)

theorem addRow_finds {row : Row} :
    ∀ {aggregates : List Aggregate} {accs : List Accumulator},
      (∀ aggregate ∈ aggregates, aggregate.Within row.length) →
      Result.Finds (addRow row aggregates accs)
  | [], _, _ => Result.finds_ok _
  | _ :: _, [], _ => Result.finds_ok _
  | aggregate :: _, acc :: _, h =>
    Result.finds_bind (Aggregate.addRow_finds (h aggregate List.mem_cons_self) acc) fun _ _ =>
      Result.finds_bind (addRow_finds fun other hother => h other (List.mem_cons_of_mem _ hother))
        fun _ _ => Result.finds_ok _

theorem grouped_addToGroup {aggregates : List Aggregate} {keys row : Row} {width : Nat}
    (hkeys : keys.length = width) :
    ∀ {groups next : List Group}, Grouped width aggregates.length groups →
      addToGroup aggregates keys row groups = .ok next → Grouped width aggregates.length next
  | [], next, _, h => by
    obtain ⟨accs, haccs, h⟩ := Result.bind_eq_ok.mp h
    cases h
    intro group hgroup
    rw [List.mem_singleton.mp hgroup]
    exact ⟨hkeys, length_addRow (by simp [startAll]) haccs⟩
  | group :: groups, next, hgroups, h => by
    have hrest : Grouped width aggregates.length groups :=
      fun other hother => hgroups other (List.mem_cons_of_mem _ hother)
    rw [addToGroup] at h
    split at h
    · obtain ⟨accs, haccs, h⟩ := Result.bind_eq_ok.mp h
      cases h
      intro other hother
      rcases List.mem_cons.mp hother with rfl | hmem
      · exact ⟨hkeys, length_addRow (hgroups group List.mem_cons_self).2 haccs⟩
      · exact hrest other hmem
    · obtain ⟨others, hothers, h⟩ := Result.bind_eq_ok.mp h
      cases h
      intro other hother
      rcases List.mem_cons.mp hother with rfl | hmem
      · exact hgroups _ List.mem_cons_self
      · exact grouped_addToGroup hkeys hrest hothers other hmem

theorem addToGroup_finds {aggregates : List Aggregate} {keys row : Row}
    (h : ∀ aggregate ∈ aggregates, aggregate.Within row.length) :
    ∀ groups : List Group, Result.Finds (addToGroup aggregates keys row groups)
  | [] => Result.finds_bind (addRow_finds h) fun _ _ => Result.finds_ok _
  | group :: groups => by
    rw [addToGroup]
    split
    · exact Result.finds_bind (addRow_finds h) fun _ _ => Result.finds_ok _
    · exact Result.finds_bind (addToGroup_finds h groups) fun _ _ => Result.finds_ok _

theorem turns_groupBy {keys : List Bound} {aggregates : List Aggregate}
    (hkeys : Bound.AllWithin width keys)
    (haggregates : ∀ aggregate ∈ aggregates, aggregate.Within width) :
    (groupBy keys aggregates).Turns (Grouped keys.length aggregates.length) (Wide width)
      (Wide (keys.length + aggregates.length)) Error.Finds where
  start := by
    unfold groupBy
    dsimp only
    -- without keys there is one group from the start, even if no row comes
    split
    · next hempty =>
      intro group hgroup
      rw [List.mem_singleton.mp hgroup, List.isEmpty_iff.mp hempty]
      exact ⟨rfl, List.length_map _⟩
    · intro group hgroup
      cases hgroup
  sends _ _ out hout := by cases hout
  next {groups row after} hgroups _ hafter := by
    obtain ⟨values, hvalues, hafter⟩ := Result.bind_eq_ok.mp hafter
    exact grouped_addToGroup (Bound.length_evalAll hvalues) hgroups hafter
  fails {groups row error} _ hrow herror := by
    have hfinds : Result.Finds
        (Bound.evalAll row keys >>= fun values => addToGroup aggregates values row groups) :=
      Result.finds_bind (Bound.evalAll_finds (hrow ▸ hkeys)) fun values _ =>
        addToGroup_finds (hrow ▸ haggregates) groups
    exact hfinds error herror
  finish {groups} hgroups out hout := by
    obtain ⟨group, hgroup, rfl⟩ := List.mem_map.mp hout
    obtain ⟨hkeysLength, haccsLength⟩ := hgroups group hgroup
    unfold Wide
    rw [List.length_append, List.length_map, hkeysLength, haccsLength]

end Stage

/-! ## Flows of rows of a layout -/

/-- If the failure is an error, it is not one about a column. -/
def Failure.Finds : Failure → Prop
  | .error found => found.Finds
  | .panic _ => True

/-- Every row of the flow is as wide as the layout, and no failure of it is about a column. -/
structure Flow.Fits (layout : Layout) (flow : Flow) : Prop where
  wide : ∀ row ∈ flow.rows, row.length = layout.width
  finds : ∀ taken failure, flow.failure taken = some failure → failure.Finds

theorem Flow.fits_ofRows {layout : Layout} {rows : List Row}
    (h : ∀ row ∈ rows, row.length = layout.width) : (Flow.ofRows rows).Fits layout :=
  ⟨h, fun _ _ hfailure => by cases hfailure⟩

/-- What comes out of a stage fits, if what it does to one row does. -/
theorem Stage.fits_flow {σ : Type} {stage : Stage σ} {Keeps : σ → Prop} {before after : Layout}
    {input : Flow} (hturns : stage.Turns Keeps (Wide before.width) (Wide after.width) Error.Finds)
    (hinput : input.Fits before) : (stage.flow input).Fits after := by
  obtain ⟨hwide, hfinds⟩ := hturns.run hinput.wide
  refine ⟨hwide, fun taken failure hfailure => ?_⟩
  rcases Stage.failure_flow hfailure with ⟨reads, hreads⟩ | ⟨error, herror, rfl⟩
  · exact hinput.finds reads failure hreads
  · exact hfinds error herror

/-- A step that is bound to the layout of the rows it gets gives rows of its own layout. -/
theorem Step.Binds.fits {step : Step} {before after : Layout} {input : Flow}
    (h : step.Binds before after) (hinput : input.Fits before) : (step.flow input).Fits after := by
  cases h with
  | filter hbind => exact Stage.fits_flow (Stage.turns_filter (Bound.within_of_bind hbind)) hinput
  | @projection items columns hitems =>
    have hwidth : (columns.flatten.map (·.1)).length = (columns.flatten.map (·.2)).length := by
      rw [List.length_map, List.length_map]
    have hturns := Stage.turns_projection (Compiling.within_of_items hitems)
    rw [hwidth] at hturns
    exact Stage.fits_flow hturns hinput
  | @groupBy exprs parts keys aggregates hkeys haggregates =>
    have hwidth : (keys.map (·.1)).length + aggregates.length =
        (keys.map (·.2) ++ aggregates.map fun aggregate =>
          (⟨none, aggregate.name⟩ : Layout.Column)).length := by
      rw [List.length_append, List.length_map, List.length_map, List.length_map]
    have hturns := Stage.turns_groupBy (Compiling.within_of_groupKeys hkeys)
      (Aggregate.within_of_collect haggregates)
    rw [hwidth] at hturns
    exact Stage.fits_flow hturns hinput
  | distinct => exact Stage.fits_flow Stage.turns_distinct hinput

/-- A join whose condition is bound to the layouts of both sides gives rows of both layouts. -/
theorem Flow.fits_join {kind : Sql.JoinKind} {expr : Expr} {on : Bound} {left right : Flow}
    {leftLayout rightLayout : Layout}
    (hon : Bound.bind (leftLayout.append rightLayout) expr = .ok on) (hleft : left.Fits leftLayout)
    (hright : right.Fits rightLayout) :
    (Flow.join kind on rightLayout.width left right).Fits (leftLayout.append rightLayout) := by
  have hwidth := Layout.width_append leftLayout rightLayout
  have hwithin : on.Within (leftLayout.width + rightLayout.width) :=
    hwidth ▸ Bound.within_of_bind hon
  have hturns : (Stage.join kind on rightLayout.width right.rows).Turns (fun _ => True)
      (Stage.Wide leftLayout.width) (Stage.Wide (leftLayout.append rightLayout).width)
      Error.Finds := hwidth ▸ Stage.turns_join hwithin hright.wide
  refine Stage.fits_flow hturns ⟨hleft.wide, fun taken failure hfailure => ?_⟩
  dsimp only at hfailure
  cases hread : left.failure taken with
  | some found =>
    rw [hread] at hfailure
    cases hfailure
    exact hleft.finds taken failure hread
  | none =>
    rw [hread] at hfailure
    exact hright.finds _ failure hfailure

/-! ## Queries -/

/-- The steps turn rows of the layout `before` into rows of the layout `after`, and every row that
reaches one of them is as wide as the layout it is bound to. -/
inductive Step.AgreeAll : Flow → Layout → List Step → Layout → Prop
  | nil {input : Flow} {layout : Layout} : AgreeAll input layout [] layout
  | cons {input : Flow} {before between after : Layout} {step : Step} {rest : List Step}
    (hstep : step.Binds before between) (hwide : ∀ row ∈ input.rows, row.length = before.width)
    (hrest : AgreeAll (step.flow input) between rest after) :
    AgreeAll input before (step :: rest) after

/-- The query fits the layout, and wherever a row reaches an expression of it, the row is as wide as
the layout the expression was bound to. -/
inductive Query.Agrees (schema : Schema) : Query → Layout → Prop
  | values {rows : List Row} {layout : Layout} (h : ∀ row ∈ rows, row.length = layout.width) :
    Agrees schema (.values rows) layout
  | source {binding key : String} {table : Table} (h : schema.get? key = some table)
    (hwide : ∀ row ∈ table.rows, row.length = (Layout.ofTable binding table.definition).width) :
    Agrees schema (.source binding key) (.ofTable binding table.definition)
  | join {kind : Sql.JoinKind} {expr : Expr} {on : Bound} {left right : Query}
    {leftLayout rightLayout : Layout} (hleft : Agrees schema left leftLayout)
    (hright : Agrees schema right rightLayout)
    (hon : Bound.bind (leftLayout.append rightLayout) expr = .ok on)
    (hwide : ∀ row ∈ (left.flow schema).rows, ∀ other ∈ (right.flow schema).rows,
      (row ++ other).length = (leftLayout.append rightLayout).width) :
    Agrees schema (.join kind on rightLayout.width left right) (leftLayout.append rightLayout)
  | sequence {name : String} {first : Query} {steps : List Step} {before after : Layout}
    (hfirst : Agrees schema first before)
    (hsteps : Step.AgreeAll (first.flow schema) before steps after) :
    Agrees schema (.sequence name first steps) after

/-- Steps that are bound to each other's layouts keep the widths of rows in step with them. -/
theorem Step.BindAll.agree {before after : Layout} {steps : List Step}
    (h : Step.BindAll before steps after) :
    ∀ {input : Flow}, input.Fits before →
      Step.AgreeAll input before steps after ∧ (steps.foldl Step.flow input).Fits after := by
  induction h with
  | nil => intro input hinput; exact ⟨.nil, hinput⟩
  | cons hstep _ ih =>
    intro input hinput
    obtain ⟨hagree, hfits⟩ := ih (hstep.fits hinput)
    exact ⟨.cons hstep hinput.wide hagree, hfits⟩

/-- **A query that fits a layout keeps the widths of its rows in step with it.** -/
theorem Query.Binds.agrees {schema : Schema} (hschema : schema.InMemory) {query : Query}
    {layout : Layout} (h : query.Binds schema layout) :
    query.Agrees schema layout ∧ (query.flow schema).Fits layout := by
  induction h with
  | values h => exact ⟨.values h, Flow.fits_ofRows h⟩
  | @source binding key table htable =>
    have hwide : ∀ row ∈ table.rows,
        row.length = (Layout.ofTable binding table.definition).width := by
      intro row hrow
      rw [(hschema.sound htable row hrow).length_eq]
      exact (List.length_map _).symm
    refine ⟨.source htable hwide, ?_⟩
    rw [Query.flow, show schema.rowsOf key = table.rows by rw [Schema.rowsOf, htable]; rfl]
    exact Flow.fits_ofRows hwide
  | join _ _ hon ihleft ihright =>
    obtain ⟨hleftAgrees, hleft⟩ := ihleft
    obtain ⟨hrightAgrees, hright⟩ := ihright
    refine ⟨.join hleftAgrees hrightAgrees hon fun row hrow other hother => ?_,
      Flow.fits_join hon hleft hright⟩
    rw [List.length_append, hleft.wide row hrow, hright.wide other hother]
    exact (Layout.width_append _ _).symm
  | sequence _ hsteps ih =>
    obtain ⟨hagree, hfits⟩ := hsteps.agree ih.2
    exact ⟨.sequence ih.1 hagree, hfits⟩

/-! ## The main statement -/

namespace Execution

/-- **Layouts and rows agree through the whole plan.** Execute any select on tables in memory. If it
compiles, its root is the tasks of a query that fits the layout left by compiling, in which every
row that reaches an expression is as wide as the layout the expression was bound to. The execution
never fails because a row does not have some column, and all rows that come out are as wide as the
layout. -/
theorem select_widths {spec : JobSpec} {schema : Schema} {select : Select}
    (hschema : schema.InMemory) (hplanner : spec.planner = Planner.inMemory)
    (hvisitor : spec.visitor = none)
    (hparse : Compiling.parse spec.raw = .ok (.select select)) :
    let (execution, last) := Execution.run spec (.start (some schema) spec.config)
    ∀ root, execution.plan = some root →
      (∃ query : Query, root = query.task ∧ query.Agrees schema last.compilation.layout) ∧
        (∀ i : Nat, execution.failure ≠
          some (.error (.runtime ("Column " ++ toString i ++ " out of range")))) ∧
        ∀ rows, execution.rows = some rows →
          ∀ row ∈ rows, row.length = last.compilation.layout.width := by
  obtain ⟨hfails, hruns⟩ := run_select hschema hplanner hvisitor hparse
  cases hquery : Query.ofSelect schema select with
  | error error =>
    obtain ⟨last, -, hrun⟩ := hfails error hquery
    rw [hrun]
    intro root hroot
    cases hroot
  | ok found =>
    obtain ⟨query, layout⟩ := found
    obtain ⟨last, -, hlayout, hrun⟩ := hruns query layout hquery
    obtain ⟨hagrees, hfits⟩ := (Query.binds_ofSelect hquery).agrees hschema
    rw [hrun]
    intro root hroot
    rw [hlayout]
    unfold ofFlow at hroot ⊢
    cases hend : (query.flow schema).failureAtEnd with
    | none =>
      rw [hend] at hroot
      cases hroot
      refine ⟨⟨query, rfl, hagrees⟩, (fun i h => by cases h), fun rows hrows => ?_⟩
      cases hrows
      exact hfits.wide
    | some failure =>
      rw [hend] at hroot
      cases hroot
      refine ⟨⟨query, rfl, hagrees⟩, fun i h => ?_, fun rows hrows => by cases hrows⟩
      cases h
      exact hfits.finds _ _ hend i rfl

/-- The select `SELECT name, COUNT(*) FROM people LEFT JOIN pets ON id = owner GROUP BY name`. -/
def petCounts : Select :=
  ⟨false, [.expr (.ident ⟨"name", false⟩), .expr (.call ⟨"COUNT", false⟩ (.star .nil))], none,
    some ⟨⟨⟨[⟨"people", false⟩]⟩, none⟩, [⟨.left, ⟨⟨[⟨"pets", false⟩]⟩, none⟩,
      .binary (.ident ⟨"id", false⟩) .eq (.ident ⟨"owner", false⟩)⟩]⟩,
    none, [.ident ⟨"name", false⟩], none⟩

/-- A left join, groups and a select list keep rows and layouts in step. -/
theorem select_widths_family :
    let spec : JobSpec :=
      ⟨"SELECT name, COUNT(*) FROM people LEFT JOIN pets ON id = owner GROUP BY name", .default,
        .inMemory, none⟩
    let (execution, last) := Execution.run spec (.start (some .family) spec.config)
    ∃ root, execution.plan = some root ∧
      (∃ query : Query, root = query.task ∧ query.Agrees .family last.compilation.layout) ∧
        (∀ i : Nat, execution.failure ≠
          some (.error (.runtime ("Column " ++ toString i ++ " out of range")))) ∧
        ∀ rows, execution.rows = some rows →
          ∀ row ∈ rows, row.length = last.compilation.layout.width := by
  intro spec
  have hparse : Compiling.parse spec.raw = .ok (.select petCounts) := by cbv
  have hquery : Query.ofSelect .family petCounts = .ok (.sequence "select"
      (.join .left (.binary (.column 0) .eq (.column 2)) 2
        (.sequence "join_side(people)" (.source "people" "people") [])
        (.sequence "join_side(pets)" (.source "pets" "pets") []))
      [.groupBy [.column 1] [⟨.count, none, "count(*)"⟩], .projection [.column 0, .column 1]],
    ⟨[⟨some "people", "name"⟩, ⟨none, "count(*)"⟩]⟩) := rfl
  obtain ⟨-, hruns⟩ := run_select Schema.inMemory_family rfl rfl hparse
  obtain ⟨last, -, -, hrun⟩ := hruns _ _ hquery
  have hplan : ∃ root,
      (Execution.run spec (.start (some .family) spec.config)).1.plan = some root :=
    ⟨_, (congrArg (fun found => found.1.plan) hrun).trans rfl⟩
  obtain ⟨root, hroot⟩ := hplan
  exact ⟨root, hroot, select_widths Schema.inMemory_family rfl rfl hparse root hroot⟩

end Execution
end SqlPipeline
