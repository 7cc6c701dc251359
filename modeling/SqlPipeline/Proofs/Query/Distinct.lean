import SqlPipeline.Proofs.Bound.Shift
import SqlPipeline.Proofs.Change.Selection
import SqlPipeline.Proofs.Query.Rows
import SqlPipeline.Proofs.Task.Grouping

/-!
# DISTINCT and GROUP BY

Rows without repetitions can be asked for in two ways. DISTINCT projects the rows on the columns of
the select list and then drops each row that was there before. GROUP BY takes the rows into groups
first, whose keys are the same columns, and projects one row per group afterwards, with the names of
the select list looked up in the columns of the groups.

The stages come to one thing: rows that are projected, each once, where it comes first
(`Stage.run_distinct`, `Stage.run_groupBy_keys`). The names mean the same columns in both layouts
because a choice of columns keeps the names apart that the layout keeps apart
(`Layout.Picks.pick`). So **both selects give the same rows in the same order, or fail alike**
(`Execution.distinct_groupBy`).
-/

namespace SqlPipeline

open Sql (Expr ObjectName Select SelectItem)

/-! ## The stages -/

namespace Stage

theorem step_distinct (seen : List Row) (row : Row) :
    distinct.step seen row = if row ∈ seen then ([], .ok seen) else ([row], .ok (row :: seen)) := by
  unfold distinct
  simp only [List.contains_iff_mem]

/-- The rows that were passed on are those that are not passed on again. -/
theorem feed_distinct : ∀ rows seen : List Row,
    (distinct.feed seen rows).1.flatten = rows.eraseDups.filter (fun row => row ∉ seen) ∧
      ∃ last, (distinct.feed seen rows).2 = .ok last
  | [], seen => ⟨by simp [feed], seen, rfl⟩
  | row :: rest, seen => by
    have hrest : (row :: rest).eraseDups =
        row :: rest.eraseDups.filter fun other => !other == row := by
      rw [List.eraseDups_cons, eraseDups_filter]
    rw [feed, hrest, List.filter_cons, List.filter_filter, step_distinct]
    by_cases hseen : row ∈ seen
    · obtain ⟨hout, hlast⟩ := feed_distinct rest seen
      rw [if_pos hseen]
      refine ⟨?_, hlast⟩
      rw [if_neg (by simpa using hseen), List.flatten_cons, List.nil_append, hout]
      refine List.filter_congr fun other _ => ?_
      by_cases hother : other = row
      · simp [hother, hseen]
      · simp [hother]
    · obtain ⟨hout, hlast⟩ := feed_distinct rest (row :: seen)
      rw [if_neg hseen]
      refine ⟨?_, hlast⟩
      rw [if_pos (by simpa using hseen), List.flatten_cons, List.singleton_append, hout]
      refine congrArg (row :: ·) (List.filter_congr fun other _ => ?_)
      by_cases hother : other = row <;> simp [hother]

/-- **DISTINCT passes on each row once, where it comes first.** -/
theorem run_distinct (rows : List Row) : distinct.run rows = (rows.eraseDups, .ok ()) := by
  obtain ⟨hout, last, hlast⟩ := feed_distinct rows []
  have hall : rows.eraseDups.filter (fun row => row ∉ ([] : List Row)) = rows.eraseDups :=
    List.filter_eq_self.mpr fun row _ => by simp
  unfold run
  rw [show distinct.start = [] from rfl]
  rcases hfeed : distinct.feed [] rows with ⟨outs, result⟩
  rw [hfeed] at hout hlast
  obtain rfl : result = .ok last := hlast
  dsimp only at hout ⊢
  rw [hout, hall]
  exact congrArg (·, _) (List.append_nil _)

/-- **Grouping without aggregates passes on each key once, where a row first has it.** -/
theorem run_groupBy_keys {keys : List Bound} {make : Row → Row} {rows : List Row}
    (hkeys : keys ≠ []) (hrows : ∀ row ∈ rows, Bound.evalAll row keys = .ok (make row)) :
    (groupBy keys []).run rows = ((rows.map make).eraseDups, .ok ()) := by
  obtain ⟨hfails, hgives⟩ := run_groupBy keys [] rows
  have hok : ((groupBy keys []).run rows).2 = .ok () := by
    cases hresult : ((groupBy keys []).run rows).2 with
    | ok done => rfl
    | error error =>
      rcases hfails.mp ⟨error, hresult⟩ with ⟨row, hrow, other, hother⟩ | ⟨_, _, _, hnone, _⟩
      · cases (hrows row hrow).symm.trans hother
      · cases hnone
  have hfound : Grouping.keysOf keys rows = (rows.map make).eraseDups := by
    unfold Grouping.keysOf
    rw [if_neg (by simpa using hkeys), List.nil_append]
    congr 1
    rw [← List.filterMap_eq_map]
    exact List.filterMap_congr fun row hrow => Grouping.key?_eq_some_iff.mpr (hrows row hrow)
  refine Prod.ext ?_ hok
  rw [← hfound]
  have hsame : List.Forall₂ (· = ·) (Grouping.keysOf keys rows) ((groupBy keys []).run rows).1 := by
    refine (hgives hok).imp fun key out hout => ?_
    obtain ⟨values, hvalues, rfl⟩ := hout
    cases hvalues
    exact (List.append_nil key).symm
  rw [List.forall₂_eq_eq_eq] at hsame
  exact hsame.symm

end Stage

/-! ## Names of columns -/

def Sql.Expr.isName : Expr → Bool
  | .ident _ | .qualified _ => true
  | _ => false

theorem Bound.exists_resolve_of_bind {name : Expr} (hname : name.isName = true) {layout : Layout}
    {bound : Bound} (h : bind layout name = .ok bound) :
    ∃ relation key i, bound = .column i ∧ layout.resolve relation key = .ok i ∧
      ∀ (other : Layout) (j : Nat), other.resolve relation key = .ok j →
        bind other name = .ok (.column j) := by
  cases name with
  | ident ident =>
    rw [bind] at h
    obtain ⟨i, hi, h⟩ := Result.bind_eq_ok.mp h
    cases h
    refine ⟨none, ident.key, i, rfl, hi, fun other j hj => ?_⟩
    rw [bind, hj]
    rfl
  | qualified parts =>
    rw [bind] at h
    unfold ofQualified at h
    split at h
    · next own relation others hparts =>
      obtain ⟨i, hi, h⟩ := Result.bind_eq_ok.mp h
      cases h
      refine ⟨some relation.key, own.key, i, rfl, hi, fun other j hj => ?_⟩
      rw [bind, ofQualified, hparts]
      dsimp only
      rw [hj]
      rfl
    · cases h
  | _ => cases hname

namespace Layout

variable {layout : Layout} {names : List Expr} {positions : List Nat}

/-- Whether an expression is the name of the column at a position. -/
def Means (layout : Layout) (name : Expr) (i : Nat) : Prop :=
  name.isName = true ∧ Bound.bind layout name = .ok (.column i)

theorem Means.exists_column {name : Expr} {i : Nat} (h : layout.Means name i) :
    ∃ column, layout.columns[i]? = some column :=
  ⟨_, List.getElem?_eq_getElem (Bound.within_of_bind h.2)⟩

/-- Names of different columns of a layout, at the given positions. -/
structure Picks (layout : Layout) (names : List Expr) (positions : List Nat) : Prop where
  distinct : positions.Nodup
  means : List.Forall₂ layout.Means names positions

def pick (layout : Layout) (positions : List Nat) : Layout :=
  ⟨positions.filterMap fun i => layout.columns[i]?⟩

/-- The column at a place of the choice is the one at the position that was chosen there. -/
theorem getElem?_pick (hlt : ∀ i ∈ positions, i < layout.width) (k : Nat) :
    (layout.pick positions).columns[k]? = positions[k]?.bind fun i => layout.columns[i]? := by
  unfold pick
  induction positions generalizing k with
  | nil => simp
  | cons i rest ih =>
    obtain ⟨hi, hrest⟩ := List.forall_mem_cons.mp hlt
    have hcolumn := List.getElem?_eq_getElem hi
    rw [List.filterMap_cons_some hcolumn]
    cases k with
    | zero => exact hcolumn.symm
    | succ k => exact ih hrest k

/-- A name that means a column of a layout means that column in a choice of its columns. -/
theorem resolve_pick (hdistinct : positions.Nodup) (hlt : ∀ i ∈ positions, i < layout.width)
    {relation : Option String} {key : String} {i k : Nat}
    (h : layout.resolve relation key = .ok i) (hk : positions[k]? = some i) :
    (layout.pick positions).resolve relation key = .ok k := by
  obtain ⟨⟨column, hcolumn, hanswers⟩, honly⟩ := resolve_eq_ok_iff_only.mp h
  refine resolve_eq_ok_iff_only.mpr ⟨⟨column, ?_, hanswers⟩, fun j other hother hothers => ?_⟩
  · rw [getElem?_pick hlt, hk]
    exact hcolumn
  · rw [getElem?_pick hlt] at hother
    obtain ⟨i', hj, hi'⟩ := Option.bind_eq_some_iff.mp hother
    obtain rfl := honly i' other hi' hothers
    exact (List.getElem?_inj (List.getElem?_eq_some_iff.mp hj).1 hdistinct).mp (hj.trans hk.symm)

namespace Picks

theorem lt (h : layout.Picks names positions) : ∀ i ∈ positions, i < layout.width := by
  intro i hi
  obtain ⟨name, -, -, hbind⟩ := exists_mem_of_forall₂ h.means hi
  exact Bound.within_of_bind hbind

theorem length_eq (h : layout.Picks names positions) : names.length = positions.length :=
  h.means.length_eq

/-- The names mean, in order, the columns of the choice. -/
theorem pick (h : layout.Picks names positions) :
    (layout.pick positions).Picks names (List.range names.length) := by
  refine ⟨List.nodup_range, List.forall₂_iff_get.mpr ⟨by simp, fun k hk hk' => ?_⟩⟩
  have hlt : k < positions.length := h.length_eq ▸ hk
  obtain ⟨hname, hbind⟩ := h.means.get hk hlt
  obtain ⟨relation, key, i, hi, hresolve, hothers⟩ := Bound.exists_resolve_of_bind hname hbind
  cases hi
  refine ⟨hname, ?_⟩
  have hk : positions[k]? = some (positions.get ⟨k, hlt⟩) := List.getElem?_eq_getElem hlt
  have hplace : (List.range names.length).get ⟨k, hk'⟩ = k := List.getElem_range hk'
  rw [hplace]
  exact hothers _ k (resolve_pick h.distinct h.lt hresolve hk)

end Picks
end Layout

namespace Compiling

variable {layout : Layout} {names : List Expr} {positions : List Nat}

theorem columnFor_name {name : Expr} (hname : name.isName = true) {i : Nat}
    {column : Layout.Column} (hcolumn : layout.columns[i]? = some column) :
    columnFor layout name (.column i) = .ok column := by
  cases name with
  | ident _ | qualified _ => rw [columnFor, hcolumn]
  | _ => cases hname

theorem map_fst_columnsAt (hlt : ∀ i ∈ positions, i < layout.width) :
    (columnsAt layout positions).map (·.1) = positions.map Bound.column := by
  unfold columnsAt
  rw [List.map_filterMap, ← List.filterMap_eq_map]
  refine List.filterMap_congr fun i hi => ?_
  rw [List.getElem?_eq_getElem (hlt i hi)]
  rfl

theorem map_snd_columnsAt (layout : Layout) (positions : List Nat) :
    (columnsAt layout positions).map (·.2) = (layout.pick positions).columns := by
  unfold columnsAt Layout.pick
  rw [List.map_filterMap]
  refine List.filterMap_congr fun i _ => ?_
  rw [Option.map_map]
  exact Option.map_id'

/-- The columns at positions, one after the other. -/
theorem columnsAt_cons {i : Nat} {column : Layout.Column}
    (hcolumn : layout.columns[i]? = some column) (rest : List Nat) :
    columnsAt layout (i :: rest) = (.column i, column) :: columnsAt layout rest := by
  have hfirst : (layout.columns[i]?).map (Bound.column i, ·) = some (.column i, column) := by
    rw [hcolumn]
    rfl
  exact List.filterMap_cons_some hfirst

theorem itemColumns_names (h : List.Forall₂ layout.Means names positions) :
    (names.map SelectItem.expr).mapM (itemColumns layout) =
      .ok ((columnsAt layout positions).map fun column => [column]) := by
  induction h with
  | nil => rfl
  | @cons name i names positions hname _ ih =>
    obtain ⟨column, hcolumn⟩ := hname.exists_column
    obtain ⟨hname, hbind⟩ := hname
    have hitem : itemColumns layout (.expr name) = .ok [(.column i, column)] := by
      rw [itemColumns, hbind, Result.ok_bind, columnFor_name hname hcolumn]
      rfl
    rw [List.map_cons, List.mapM_cons, hitem, ih, columnsAt_cons hcolumn]
    rfl

theorem groupKeys_names (hstored : layout.Stored)
    (h : List.Forall₂ layout.Means names positions) :
    groupKeys layout names = .ok (columnsAt layout positions) := by
  induction h with
  | nil => rfl
  | @cons name i names positions hname _ ih =>
    obtain ⟨column, hcolumn⟩ := hname.exists_column
    obtain ⟨hname, hbind⟩ := hname
    have hkey : keyColumn layout name (.column i) = .ok column := by
      have hisSome := hstored _ (List.mem_of_getElem? hcolumn)
      rw [keyColumn, columnFor_name hname hcolumn, Result.ok_bind,
        Option.isNone_eq_false_iff.mpr hisSome]
      rfl
    rw [groupKeys, hbind, Result.ok_bind, hkey, Result.ok_bind, ih, columnsAt_cons hcolumn]
    rfl

end Compiling

/-- Names are no calls of aggregate functions. -/
theorem Aggregate.collect_names {layout : Layout} {names : List Expr}
    (hnames : ∀ name ∈ names, name.isName = true) : collect layout names = .ok [] := by
  unfold collect
  have hparts : ∀ part ∈ names.flatMap Expr.parts, ofCall? layout part = .ok none := by
    intro part hpart
    obtain ⟨name, hname, hpart⟩ := List.mem_flatMap.mp hpart
    have hisName := hnames name hname
    cases name with
    | ident _ | qualified _ =>
      rw [Expr.parts, List.mem_singleton] at hpart
      subst hpart
      rfl
    | _ => cases hisName
  generalize names.flatMap Expr.parts = parts at hparts ⊢
  induction parts with
  | nil => rfl
  | cons part rest ih =>
    obtain ⟨hfirst, hrest⟩ := List.forall_mem_cons.mp hparts
    rw [List.foldlM_cons, hfirst]
    exact ih hrest

namespace Query

variable {layout : Layout} {names : List Expr} {positions : List Nat}

/-- The select `SELECT names FROM name WHERE condition`, with DISTINCT or groups. -/
def pickWhere (distinct : Bool) (name : ObjectName) (names : List Expr) (condition : Option Expr)
    (groups : List Expr) : Select :=
  ⟨distinct, names.map SelectItem.expr, none, some ⟨⟨name, none⟩, []⟩, condition, groups, none⟩

theorem projection_names (h : layout.Picks names positions) :
    projection layout (names.map SelectItem.expr) =
      .ok (.projection (positions.map Bound.column), layout.pick positions) := by
  have hflatten : ((Compiling.columnsAt layout positions).map fun column => [column]).flatten =
      Compiling.columnsAt layout positions := by
    rw [← List.flatMap_def, List.flatMap_singleton']
  unfold projection
  rw [Compiling.itemColumns_names h.means, Result.ok_bind, hflatten,
    Compiling.map_fst_columnsAt h.lt, Compiling.map_snd_columnsAt]
  rfl

/-- There are no aggregates among the items. -/
theorem collect_pickWhere (h : layout.Picks names positions) (distinct : Bool) (name : ObjectName)
    (condition : Option Expr) (groups : List Expr) :
    let select := pickWhere distinct name names condition groups
    Aggregate.collect layout (select.items.filterMap SelectItem.expr? ++ select.having.toList) =
      .ok [] := by
  have hexprs : (names.map SelectItem.expr).filterMap SelectItem.expr? ++ [] = names := by
    rw [List.append_nil, List.filterMap_map]
    exact List.filterMap_some
  show Aggregate.collect layout ((names.map SelectItem.expr).filterMap SelectItem.expr? ++ []) = _
  rw [hexprs]
  refine Aggregate.collect_names fun own hown => ?_
  obtain ⟨i, -, hmeans⟩ := exists_mem_of_forall₂ h.means.flip hown
  exact hmeans.1

/-- Without groups the names are projected as they are, and repeated rows are dropped if that is
asked for. -/
theorem outputs_ungrouped (h : layout.Picks names positions) (distinct : Bool) (name : ObjectName)
    (condition : Option Expr) :
    outputs layout (pickWhere distinct name names condition []) =
      .ok (.projection (positions.map Bound.column) ::
        (if distinct then [.distinct] else []), layout.pick positions) := by
  have hgrouping : grouping layout (pickWhere distinct name names condition []) =
      .ok (none, layout) := by
    unfold grouping
    dsimp only
    rw [collect_pickWhere h]
    rfl
  unfold outputs
  rw [hgrouping, Result.ok_bind]
  show (projection layout (names.map SelectItem.expr) >>= fun projected => _) = _
  rw [projection_names h]
  cases distinct <;> rfl

/-- With the names for groups, the rows are grouped by them and projected on all keys. -/
theorem outputs_grouped (h : layout.Picks names positions) (hstored : layout.Stored)
    (hsome : names ≠ []) (name : ObjectName) (condition : Option Expr) :
    ∃ last, outputs layout (pickWhere false name names condition names) =
      .ok ([.groupBy (positions.map Bound.column) [],
        .projection ((List.range names.length).map Bound.column)], last) := by
  have hgrouping : grouping layout (pickWhere false name names condition names) =
      .ok (some (.groupBy (positions.map Bound.column) []), layout.pick positions) := by
    unfold grouping
    dsimp only
    rw [collect_pickWhere h, Result.ok_bind]
    have hkeys : Compiling.groupKeys layout (pickWhere false name names condition names).groupBy =
        .ok (Compiling.columnsAt layout positions) := Compiling.groupKeys_names hstored h.means
    rw [if_neg (by simpa [pickWhere] using hsome), hkeys, Result.ok_bind,
      Compiling.map_fst_columnsAt h.lt, Compiling.map_snd_columnsAt, List.map_nil, List.append_nil]
    rfl
  refine ⟨(layout.pick positions).pick (List.range names.length), ?_⟩
  unfold outputs
  rw [hgrouping, Result.ok_bind]
  show (projection (layout.pick positions) (names.map SelectItem.expr) >>= fun projected => _) = _
  rw [projection_names h.pick]
  rfl

end Query

/-! ## Rows -/

def Row.pick (row : Row) (positions : List Nat) : Row :=
  positions.filterMap fun i => row[i]?

theorem Bound.evalAll_pick {row : Row} : ∀ {positions : List Nat},
    (∀ i ∈ positions, i < row.length) →
      evalAll row (positions.map column) = .ok (row.pick positions)
  | [], _ => rfl
  | i :: rest, h => by
    obtain ⟨hi, hrest⟩ := List.forall_mem_cons.mp h
    have hvalue := List.getElem?_eq_getElem hi
    have hpick : row.pick (i :: rest) = row[i] :: row.pick rest := List.filterMap_cons_some hvalue
    rw [List.map_cons, evalAll, eval, hvalue, hpick, evalAll_pick hrest]
    rfl

theorem Row.length_pick {row : Row} {positions : List Nat} (h : ∀ i ∈ positions, i < row.length) :
    (row.pick positions).length = positions.length := by
  unfold pick
  rw [List.length_filterMap_eq_countP, List.countP_eq_length]
  exact fun i hi => by rw [List.getElem?_eq_getElem (h i hi)]; rfl

/-- A stage that does not fail ends a flow as it was to end, with the rows it makes. -/
theorem Stage.flow_of_run {σ : Type} {stage : Stage σ} {input : Flow} {rows : List Row}
    (h : stage.run input.rows = (rows, .ok ())) :
    (stage.flow input).rows = rows ∧ (stage.flow input).failureAtEnd = input.failureAtEnd :=
  ⟨congrArg Prod.fst h, failureAtEnd_of_ok (congrArg Prod.snd h)⟩

namespace Step

variable {input : Flow} {width : Nat} {positions : List Nat}

/-- Rows projected on some columns. -/
theorem flow_pick (hrows : ∀ row ∈ input.rows, row.length = width)
    (hlt : ∀ i ∈ positions, i < width) :
    let flow := (projection (positions.map Bound.column)).flow input
    flow.rows = input.rows.map (·.pick positions) ∧ flow.failureAtEnd = input.failureAtEnd :=
  Stage.flow_of_run (Stage.run_projection fun row hrow =>
    Bound.evalAll_pick fun i hi => hrows row hrow ▸ hlt i hi)

/-- Rows projected on some columns, each of them once. -/
theorem flow_distinct (hrows : ∀ row ∈ input.rows, row.length = width)
    (hlt : ∀ i ∈ positions, i < width) :
    let flow := distinct.flow ((projection (positions.map Bound.column)).flow input)
    flow.rows = (input.rows.map (·.pick positions)).eraseDups ∧
      flow.failureAtEnd = input.failureAtEnd := by
  obtain ⟨hpicked, hend⟩ := flow_pick hrows hlt
  obtain ⟨hdistinct, hend'⟩ := Stage.flow_of_run (Stage.run_distinct
    ((projection (positions.map Bound.column)).flow input).rows)
  exact ⟨hpicked ▸ hdistinct, hend'.trans hend⟩

/-- Rows grouped by some columns and projected on all keys. -/
theorem flow_grouped (hrows : ∀ row ∈ input.rows, row.length = width)
    (hlt : ∀ i ∈ positions, i < width) (hsome : positions ≠ []) :
    let flow := (projection ((List.range positions.length).map Bound.column)).flow
      ((groupBy (positions.map Bound.column) []).flow input)
    flow.rows = (input.rows.map (·.pick positions)).eraseDups ∧
      flow.failureAtEnd = input.failureAtEnd := by
  have hwithin : ∀ row ∈ input.rows, ∀ i ∈ positions, i < row.length :=
    fun row hrow i hi => hrows row hrow ▸ hlt i hi
  obtain ⟨hgroups, hend⟩ := Stage.flow_of_run (Stage.run_groupBy_keys
    (by simpa using hsome : positions.map Bound.column ≠ []) fun row hrow =>
      Bound.evalAll_pick (hwithin row hrow))
  have hwide : ∀ key ∈ (input.rows.map (·.pick positions)).eraseDups,
      key.length = positions.length := by
    intro key hkey
    obtain ⟨row, hrow, rfl⟩ := List.mem_map.mp (List.mem_eraseDups.mp hkey)
    exact Row.length_pick (hwithin row hrow)
  rw [← hgroups] at hwide
  obtain ⟨hall, hend'⟩ := Stage.flow_of_run (Stage.run_projection_all hwide)
  exact ⟨hall.trans hgroups, hend'.trans hend⟩

end Step

/-! ## The three selects -/

namespace Execution

variable {config : Config} {schema : Schema} {name : ObjectName} {names : List Expr}
  {condition : Option Expr} {raw : String}

/-- The rows of a table that a condition selects, as a query. -/
def sourceWhere (name : ObjectName) (found : ResolvedTable) (filter : Option Bound) : Query :=
  .sequence ("source_select(" ++ name.baseKey ++ ")") (.source name.baseKey found.key)
    (filter.map Step.filter).toList

/-- Such a select is compiled into the steps of its outputs on the rows of its table. -/
theorem ofSelect_pickWhere (schema : Schema) (distinct : Bool) (name : ObjectName)
    (names : List Expr) (condition : Option Expr) (groups : List Expr) :
    Query.ofSelect schema (Query.pickWhere distinct name names condition groups) =
      schema.bindWhere name condition >>= fun found =>
        Query.outputs (name.layout found.1.definition)
            (Query.pickWhere distinct name names condition groups) >>= fun outputs =>
          .ok (.sequence "select" (sourceWhere name found.1 found.2) outputs.1, outputs.2) := by
  have hrows : Query.rows schema (Query.pickWhere distinct name names condition groups) =
      Query.rows schema (readWhere name condition) := rfl
  rw [Query.ofSelect, hrows, rows_readWhere]
  cases schema.bindWhere name condition <;> rfl

/-- It fails to compile if its condition cannot be bound. -/
theorem run_pickWhere_error (config : Config) (hschema : schema.InMemory) {distinct : Bool}
    {groups : List Expr}
    (hparse : Compiling.parse raw =
      .ok (.select (Query.pickWhere distinct name names condition groups))) {error : Error}
    (hbind : schema.bindWhere name condition = .error error) :
    (ofText config schema raw).1 = ⟨.compile, none, none, none, some (.error error)⟩ := by
  have hrun : RunsAs ⟨raw, config, .inMemory, none⟩ schema
      (Query.ofSelect schema (Query.pickWhere distinct name names condition groups)) :=
    run_select hschema rfl rfl hparse
  have hselect := ofSelect_pickWhere schema distinct name names condition groups
  rw [hbind] at hselect
  obtain ⟨last, -, hrun⟩ := hrun.fails error hselect
  rw [ofText, hrun]

/-- It comes to what its outputs make of the rows of its table. -/
theorem run_pickWhere (config : Config) (hschema : schema.InMemory) {distinct : Bool}
    {groups : List Expr}
    (hparse : Compiling.parse raw =
      .ok (.select (Query.pickWhere distinct name names condition groups)))
    {found : ResolvedTable} {filter : Option Bound}
    (hbind : schema.bindWhere name condition = .ok (found, filter)) {steps : List Step}
    {layout : Layout} (houtputs : Query.outputs (name.layout found.definition)
      (Query.pickWhere distinct name names condition groups) = .ok (steps, layout)) :
    ∃ root, (ofText config schema raw).1 =
      ofFlow root (steps.foldl Step.flow ((sourceWhere name found filter).flow schema)) := by
  have hrun : RunsAs ⟨raw, config, .inMemory, none⟩ schema
      (Query.ofSelect schema (Query.pickWhere distinct name names condition groups)) :=
    run_select hschema rfl rfl hparse
  have hselect := ofSelect_pickWhere schema distinct name names condition groups
  rw [hbind, Result.ok_bind, houtputs, Result.ok_bind] at hselect
  obtain ⟨last, -, -, hrun⟩ := hrun.runs _ _ hselect
  exact ⟨_, by rw [ofText, hrun]; rfl⟩

/-- The rows of a table that a condition selects are full. -/
theorem wide_sourceWhere (hschema : schema.InMemory) {found : ResolvedTable}
    {filter : Option Bound} (hbind : schema.bindWhere name condition = .ok (found, filter)) :
    ∀ row ∈ ((sourceWhere name found filter).flow schema).rows,
      row.length = (name.layout found.definition).width := by
  obtain ⟨-, table, htable, hdefinition, hfilter⟩ := Schema.bound_of_bindWhere hbind
  have hbinds : (sourceWhere name found filter).Binds schema (name.layout table.definition) :=
    .sequence (.source htable) (Query.bindAll_filter hfilter)
  rw [hdefinition]
  exact (hbinds.agrees hschema).2.wide

/-- **DISTINCT and GROUP BY agree.** Execute `SELECT DISTINCT names FROM name WHERE condition` and
`SELECT names FROM name WHERE condition GROUP BY names` on tables in memory, where the names are
those of different columns. Both fail in the same phase with the same failure, or both give the same
rows in the same order: those that `SELECT names FROM name WHERE condition` gives, each of them once,
where it comes first. That select fails as they do. -/
theorem distinct_groupBy {distinctText groupText plainText : String} (hschema : schema.InMemory)
    (hsome : names ≠ [])
    (hdistinct : Compiling.parse distinctText =
      .ok (.select (Query.pickWhere true name names condition [])))
    (hgroup : Compiling.parse groupText =
      .ok (.select (Query.pickWhere false name names condition names)))
    (hplain : Compiling.parse plainText =
      .ok (.select (Query.pickWhere false name names condition [])))
    (hnames : ∀ found, schema.resolve name = .ok found →
      ∃ positions, (name.layout found.definition).Picks names positions) :
    let distinct := (ofText config schema distinctText).1
    let grouped := (ofText config schema groupText).1
    let plain := (ofText config schema plainText).1
    grouped.phase = distinct.phase ∧ grouped.failure = distinct.failure ∧
      grouped.rows = distinct.rows ∧
      plain.phase = distinct.phase ∧ plain.failure = distinct.failure ∧
      (distinct.failure = none → ∃ all rows, plain.rows = some all ∧ distinct.rows = some rows ∧
        rows = all.eraseDups ∧ rows.Nodup ∧ ∀ row, row ∈ rows ↔ row ∈ all) := by
  intro distinct grouped plain
  cases hbind : schema.bindWhere name condition with
  | error error =>
    rw [show distinct = _ from run_pickWhere_error config hschema hdistinct hbind,
      show grouped = _ from run_pickWhere_error config hschema hgroup hbind,
      show plain = _ from run_pickWhere_error config hschema hplain hbind]
    exact ⟨rfl, rfl, rfl, rfl, rfl, fun hnone => absurd hnone (Option.some_ne_none _)⟩
  | ok bound =>
    obtain ⟨found, filter⟩ := bound
    obtain ⟨positions, hpicks⟩ := hnames found (Schema.bound_of_bindWhere hbind).1
    have hpositions : positions ≠ [] := by
      rintro rfl
      exact hsome (List.length_eq_zero_iff.mp hpicks.length_eq)
    obtain ⟨last, houtputs⟩ := Query.outputs_grouped hpicks (Layout.stored_ofTable _ _) hsome name
      condition
    rw [hpicks.length_eq] at houtputs
    obtain ⟨_, hrunDistinct⟩ := run_pickWhere config hschema hdistinct hbind
      (Query.outputs_ungrouped hpicks true name condition)
    obtain ⟨_, hrunGrouped⟩ := run_pickWhere config hschema hgroup hbind houtputs
    obtain ⟨_, hrunPlain⟩ := run_pickWhere config hschema hplain hbind
      (Query.outputs_ungrouped hpicks false name condition)
    -- all three end as the rows of the table do
    have hwide := wide_sourceWhere hschema hbind
    obtain ⟨hdistinctRows, hdistinctEnd⟩ := Step.flow_distinct hwide hpicks.lt
    obtain ⟨hgroupedRows, hgroupedEnd⟩ := Step.flow_grouped hwide hpicks.lt hpositions
    obtain ⟨hplainRows, hplainEnd⟩ := Step.flow_pick hwide hpicks.lt
    rw [show distinct = ofFlow _ (Step.distinct.flow ((Step.projection _).flow _)) from hrunDistinct,
      show grouped = ofFlow _ ((Step.projection _).flow ((Step.groupBy _ _).flow _)) from hrunGrouped,
      show plain = ofFlow _ ((Step.projection _).flow _) from hrunPlain, ofFlow, ofFlow, ofFlow,
      hdistinctEnd, hgroupedEnd, hplainEnd, hdistinctRows, hgroupedRows, hplainRows]
    cases ((sourceWhere name found filter).flow schema).failureAtEnd with
    | some failure =>
      exact ⟨rfl, rfl, rfl, rfl, rfl, fun hnone => absurd hnone (Option.some_ne_none _)⟩
    | none =>
      exact ⟨rfl, rfl, rfl, rfl, rfl, fun _ => ⟨_, _, rfl, rfl, rfl, nodup_eraseDups _,
        fun row => List.mem_eraseDups⟩⟩

/-- The condition `owner < 9`. -/
def ownedBelowNine : Expr :=
  .binary (.ident ⟨"owner", false⟩) .lt (.literal (.number "9"))

/-- Two of the three pets have the same owner, who is given once. -/
theorem distinct_groupBy_family :
    let distinct := (ofText .default .family "SELECT DISTINCT owner FROM pets WHERE owner < 9").1
    let grouped := (ofText .default .family "SELECT owner FROM pets WHERE owner < 9 GROUP BY owner").1
    let plain := (ofText .default .family "SELECT owner FROM pets WHERE owner < 9").1
    distinct.failure = none ∧ grouped.failure = none ∧ plain.failure = none ∧
      plain.rows = some [[.int 2], [.int 1], [.int 2]] ∧
      distinct.rows = some [[.int 2], [.int 1]] ∧ grouped.rows = some [[.int 2], [.int 1]] := by
  have hdistinct : Compiling.parse "SELECT DISTINCT owner FROM pets WHERE owner < 9" =
      .ok (.select (Query.pickWhere true ⟨[⟨"pets", false⟩]⟩ [.ident ⟨"owner", false⟩]
        (some ownedBelowNine) [])) := Sql.Script.eq_ok_of_toOption (by decide +kernel)
  have hgroup : Compiling.parse "SELECT owner FROM pets WHERE owner < 9 GROUP BY owner" =
      .ok (.select (Query.pickWhere false ⟨[⟨"pets", false⟩]⟩ [.ident ⟨"owner", false⟩]
        (some ownedBelowNine) [.ident ⟨"owner", false⟩])) :=
    Sql.Script.eq_ok_of_toOption (by decide +kernel)
  have hplain : Compiling.parse "SELECT owner FROM pets WHERE owner < 9" =
      .ok (.select (Query.pickWhere false ⟨[⟨"pets", false⟩]⟩ [.ident ⟨"owner", false⟩]
        (some ownedBelowNine) [])) := Sql.Script.eq_ok_of_toOption (by decide +kernel)
  have hpicks (definition : TableDef)
      (h : Schema.family.resolve ⟨[⟨"pets", false⟩]⟩ = .ok ⟨"pets", definition⟩) :
      (ObjectName.layout ⟨[⟨"pets", false⟩]⟩ definition).Picks [.ident ⟨"owner", false⟩] [0] := by
    cases h
    exact ⟨List.nodup_singleton 0, .cons ⟨rfl, rfl⟩ .nil⟩
  have hnames : ∀ found, Schema.family.resolve ⟨[⟨"pets", false⟩]⟩ = .ok found →
      ∃ positions, (ObjectName.layout ⟨[⟨"pets", false⟩]⟩ found.definition).Picks
        [.ident ⟨"owner", false⟩] positions := by
    intro found hfound
    cases hfound
    exact ⟨[0], hpicks _ rfl⟩
  have hbind : Schema.family.bindWhere ⟨[⟨"pets", false⟩]⟩ (some ownedBelowNine) =
      .ok (⟨"pets", (petsWith []).definition⟩,
        some (.binary (.column 0) .lt (.literal (.int 9)))) := rfl
  obtain ⟨root, hrun⟩ := run_pickWhere .default Schema.inMemory_family hplain hbind
    (Query.outputs_ungrouped (hpicks _ rfl) false _ _)
  have hrows : (ofText .default .family "SELECT owner FROM pets WHERE owner < 9").1.rows =
      some [[.int 2], [.int 1], [.int 2]] := by
    rw [hrun]
    rfl
  have hfailure : (ofText .default .family "SELECT owner FROM pets WHERE owner < 9").1.failure =
      none := by
    rw [hrun]
    rfl
  obtain ⟨-, hgroupFails, hgroupRows, -, hplainFails, hgives⟩ :=
    @distinct_groupBy .default _ _ _ _ _ _ _ Schema.inMemory_family (List.cons_ne_nil _ _) hdistinct
      hgroup hplain hnames
  have hdistinctFails := hplainFails.symm.trans hfailure
  obtain ⟨all, rows, hall, hdistinctRows, rfl, -, -⟩ := hgives hdistinctFails
  obtain rfl := Option.some.inj (hall.symm.trans hrows)
  exact ⟨hdistinctFails, hgroupFails.trans hdistinctFails, hfailure, hrows,
    hdistinctRows.trans (by decide), hgroupRows.trans (hdistinctRows.trans (by decide))⟩

end Execution
end SqlPipeline
