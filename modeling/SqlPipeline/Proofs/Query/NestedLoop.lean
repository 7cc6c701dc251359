import SqlPipeline.Proofs.Bound.Verdict
import SqlPipeline.Proofs.Query.WherePlans

/-!
# Nested loops

What joining tables is to give, written down from the rows of the tables alone: the tables are taken
in the order of the FROM clause, each of the rows so far is put together with the rows of the next
table on which the ON condition is true, and in a left join a row without a match is kept with NULLs
(`NestedLoop.run`). The reference keeps what each table contributed to a joined row (`Share`), which
the rows of the program do not.

* The query of a FROM clause gives the rows of the nested loop, in its order, unless an ON condition
  fails (`Query.flow_tables`).
* A column that the final layout finds under the name of a table holds what that table contributed
  (`NestedLoop.shows_of_isOf`).

**Compiling a FROM clause gives tasks with these rows under these names** (`Compiling.nested_loop`).
-/

namespace SqlPipeline

open Sql (Expr)

/-! ## Lists of parts -/

section

variable {α β : Type} {f : α → List β} {xs : List α}

/-- An element of a part, found by its position in the whole. -/
theorem getElem?_flatMap {k j : Nat} {x : α} (hx : xs[k]? = some x) (hj : j < (f x).length) :
    (xs.flatMap f)[((xs.take k).flatMap f).length + j]? = (f x)[j]? := by
  obtain ⟨hk, rfl⟩ := List.getElem?_eq_some_iff.mp hx
  have hsplit : xs.flatMap f =
      (xs.take k).flatMap f ++ (f xs[k] ++ (xs.drop (k + 1)).flatMap f) := by
    rw [← List.flatMap_cons, List.getElem_cons_drop, ← List.flatMap_append, List.take_append_drop]
  rw [hsplit, List.getElem?_append_right (Nat.le_add_right _ _), Nat.add_sub_cancel_left,
    List.getElem?_append_left hj]

/-- Every element of the whole is one of a part. -/
theorem exists_of_getElem?_flatMap :
    ∀ {xs : List α} {i : Nat} {y : β}, (xs.flatMap f)[i]? = some y →
      ∃ (k : Nat) (x : α) (j : Nat), xs[k]? = some x ∧ (f x)[j]? = some y
  | [], i, y, h => by cases h
  | x :: rest, i, y, h => by
    rw [List.flatMap_cons] at h
    by_cases hi : i < (f x).length
    · rw [List.getElem?_append_left hi] at h
      exact ⟨0, x, i, rfl, h⟩
    · rw [List.getElem?_append_right (Nat.le_of_not_lt hi)] at h
      obtain ⟨k, other, j, hother, hj⟩ := exists_of_getElem?_flatMap h
      exact ⟨k + 1, other, j, hother, hj⟩

theorem length_flatMap_eq {γ δ : Type} {g : γ → List δ} {ys : List γ}
    (h : List.Forall₂ (fun x y => (f x).length = (g y).length) xs ys) :
    (xs.flatMap f).length = (ys.flatMap g).length := by
  induction h with
  | nil => rfl
  | cons hfirst _ ih =>
    rw [List.flatMap_cons, List.flatMap_cons, List.length_append, List.length_append, hfirst, ih]

theorem forall₂_zip_same {γ δ : Type} {R : γ → δ → Prop} :
    ∀ {xs : List α} {ys : List γ} {zs : List δ}, List.Forall₂ R ys zs →
      List.Forall₂ (fun p q => p.1 = q.1 ∧ R p.2 q.2) (xs.zip ys) (xs.zip zs)
  | [], _, _, _ => .nil
  | _ :: _, _, _, .nil => .nil
  | _ :: _, _, _, .cons hfirst hrest => .cons ⟨rfl, hfirst⟩ (forall₂_zip_same hrest)

end

/-! ## The reference -/

/-- A table of a FROM clause: the name by which the statement refers to it, its columns and rows. -/
structure Source where
  binding : String
  definition : TableDef
  rows : List Row

namespace Source

def ofRef (schema : Schema) (ref : Sql.TableRef) : Result Source := do
  let found ← schema.resolve ref.name
  return ⟨ref.binding, found.definition, schema.rowsOf found.key⟩

def layout (source : Source) : Layout :=
  .ofTable source.binding source.definition

/-- Whether a qualified name is that of the column at a position. -/
def Names (source : Source) (relation name : String) (position : Nat) : Prop :=
  ∃ column, source.definition.columns[position]? = some column ∧
    Text.sameAsciiCase source.binding relation ∧
    Text.sameAsciiCase (Text.lower column.name) name

def Full (source : Source) : Prop :=
  ∀ row ∈ source.rows, row.length = source.definition.columns.length

end Source

/-- What a table contributes to a joined row: one of its rows, or none if there was no match. -/
structure Share where
  source : Source
  row : Option Row

namespace Share

def values (share : Share) : Row :=
  share.row.getD (Row.nulls share.source.definition.columns.length)

def Has (share : Share) (column : Nat) (value : Value) : Prop :=
  match share.row with
  | some row => row[column]? = some value
  | none => value = .null

/-- A share of a table is one of its rows, or nothing. -/
def IsOf (share : Share) (source : Source) : Prop :=
  share.source = source ∧ ∀ row, share.row = some row → row ∈ source.rows

end Share

/-- A joined row, as what each table contributed to it. -/
abbrev Shares := List Share

namespace NestedLoop

def row (shares : Shares) : Row :=
  shares.flatMap Share.values

/-- The joined rows that one of the rows so far comes to in the next join. -/
def extend (layout : Layout) (join : Sql.Join) (source : Source) (shares : Shares) : List Shares :=
  let found := source.rows.filter fun right => layout.holds (row shares ++ right) join.on
  if join.kind = .left ∧ found = [] then [shares ++ [⟨source, none⟩]]
  else found.map fun right => shares ++ [⟨source, some right⟩]

def start (source : Source) : List Shares :=
  source.rows.map fun own => [⟨source, some own⟩]

/-- Joins further tables to the rows so far, from left to right. -/
def run (layout : Layout) : List (Sql.Join × Source) → List Shares → List Shares
  | [], sofar => sofar
  | (join, source) :: rest, sofar =>
    run (layout.append source.layout) rest
      (sofar.flatMap (extend (layout.append source.layout) join source))

/-- No ON condition fails on the rows that the nested loop puts together. -/
def Evaluates (layout : Layout) : List (Sql.Join × Source) → List Shares → Prop
  | [], _ => True
  | (join, source) :: rest, sofar =>
    (∀ shares ∈ sofar, ∀ right ∈ source.rows,
      ((layout.append source.layout).verdict (row shares ++ right) join.on).isSome) ∧
    Evaluates (layout.append source.layout) rest
      (sofar.flatMap (extend (layout.append source.layout) join source))

/-- What the layout finds under the name of a table is a column of that table, and each of the
joined rows has in its place what the table contributed. -/
def Shows (sources : List Source) (layout : Layout) (found : List Shares) : Prop :=
  ∀ (relation name : String) (i : Nat), layout.resolve (some relation) name = .ok i →
    (∃ (k : Nat) (source : Source) (j : Nat), sources[k]? = some source ∧
      source.Names relation name j) ∧
    ∀ (k : Nat) (source : Source) (j : Nat), sources[k]? = some source →
      source.Names relation name j → ∀ shares ∈ found, ∃ (share : Share) (value : Value),
        shares[k]? = some share ∧ share.source = source ∧ share.Has j value ∧
          (row shares)[i]? = some value

/-! ## Rows and shares -/

section

variable {layout : Layout} {join : Sql.Join} {source : Source} {shares : Shares}

theorem row_concat (shares : Shares) (share : Share) :
    row (shares ++ [share]) = row shares ++ share.values := by
  unfold row
  rw [List.flatMap_append, List.flatMap_singleton]

/-- What a join makes of a row are the rows of what the reference makes of its shares. -/
theorem joined_eq {on : Bound} (hon : Bound.bind layout join.on = .ok on) :
    Stage.joined join.kind on source.definition.columns.length source.rows (row shares) =
      (extend layout join source shares).map row := by
  have hfound : (source.rows.map (row shares ++ ·)).filter on.holds =
      (source.rows.filter fun right => layout.holds (row shares ++ right) join.on).map
        (row shares ++ ·) := by
    rw [List.filter_map]
    congr 1
    exact List.filter_congr fun right _ => (Layout.holds_of_bind hon).symm
  unfold Stage.joined extend
  dsimp only
  rw [hfound]
  simp only [List.map_eq_nil_iff]
  split
  · rw [List.map_singleton, row_concat]
    rfl
  · rw [List.map_map]
    exact List.map_congr_left fun right _ => (row_concat shares ⟨source, some right⟩).symm

/-- The shares of a joined row are one of each table so far. -/
theorem isOf_extend {sources : List Source} (hshares : List.Forall₂ Share.IsOf shares sources) :
    ∀ next ∈ extend layout join source shares,
      List.Forall₂ Share.IsOf next (sources ++ [source]) := by
  intro next hnext
  have hconcat : ∀ share : Share, share.IsOf source →
      List.Forall₂ Share.IsOf (shares ++ [share]) (sources ++ [source]) := fun share hshare =>
    List.rel_append hshares (.cons hshare .nil)
  unfold extend at hnext
  dsimp only at hnext
  split at hnext
  · rw [List.mem_singleton.mp hnext]
    exact hconcat _ ⟨rfl, fun row hrow => by cases hrow⟩
  · obtain ⟨right, hright, rfl⟩ := List.mem_map.mp hnext
    refine hconcat _ ⟨rfl, fun row hrow => ?_⟩
    cases hrow
    exact (List.mem_filter.mp hright).1

/-- **Every joined row has one share of each table**, in the order of the tables. -/
theorem isOf_run :
    ∀ {rest : List (Sql.Join × Source)} {layout : Layout} {sofar : List Shares}
      {sources : List Source}, (∀ shares ∈ sofar, List.Forall₂ Share.IsOf shares sources) →
      ∀ shares ∈ run layout rest sofar,
        List.Forall₂ Share.IsOf shares (sources ++ rest.map (·.2))
  | [], layout, sofar, sources, hsofar, shares, hshares => by
    rw [List.map_nil, List.append_nil]
    exact hsofar shares hshares
  | (join, source) :: rest, layout, sofar, sources, hsofar, shares, hshares => by
    have hnext : ∀ next ∈ sofar.flatMap (extend (layout.append source.layout) join source),
        List.Forall₂ Share.IsOf next (sources ++ [source]) := by
      intro next hmem
      obtain ⟨before, hbefore, hextend⟩ := List.mem_flatMap.mp hmem
      exact isOf_extend (hsofar before hbefore) next hextend
    have hall := isOf_run hnext shares hshares
    rwa [List.append_assoc] at hall

end

theorem map_row_start (source : Source) : (start source).map row = source.rows := by
  unfold start
  rw [List.map_map]
  exact (List.map_congr_left fun own _ => List.flatMap_singleton _ _).trans (List.map_id _)

theorem isOf_start (source : Source) :
    ∀ shares ∈ start source, List.Forall₂ Share.IsOf shares [source] := by
  intro shares hshares
  obtain ⟨own, hown, rfl⟩ := List.mem_map.mp hshares
  exact .cons ⟨rfl, fun row hrow => by cases hrow; exact hown⟩ .nil

/-! ## Names and positions -/

section

variable {sources : List Source} {shares : Shares} {relation name : String} {i : Nat}

/-- The columns of all tables, one table after the other. -/
def layoutOf (sources : List Source) : Layout :=
  .joined (sources.map Source.layout)

theorem columns_layoutOf (sources : List Source) :
    (layoutOf sources).columns = sources.flatMap fun source => source.layout.columns :=
  List.flatMap_map _ _ _

theorem layoutOf_singleton (source : Source) : layoutOf [source] = source.layout := by
  simp [layoutOf, Layout.joined]

/-- The columns of a table that a qualified name means. -/
theorem answers_iff_names {source : Source} {j : Nat} :
    (∃ column, source.layout.columns[j]? = some column ∧ column.answers (some relation) name) ↔
      source.Names relation name j := by
  unfold Source.layout Layout.ofTable Source.Names
  rw [List.getElem?_map]
  constructor
  · rintro ⟨column, hcolumn, hanswers⟩
    obtain ⟨own, hown, rfl⟩ := Option.map_eq_some_iff.mp hcolumn
    obtain ⟨hname, hrelation⟩ := (Bool.and_eq_true _ _).mp hanswers
    exact ⟨own, hown, hrelation, hname⟩
  · rintro ⟨own, hown, hrelation, hname⟩
    exact ⟨_, Option.map_eq_some_iff.mpr ⟨own, hown, rfl⟩,
      (Bool.and_eq_true _ _).mpr ⟨hname, hrelation⟩⟩

/-- A name that means one column of the joined rows is that of a column of some table. -/
theorem exists_names (h : (layoutOf sources).resolve (some relation) name = .ok i) :
    ∃ (k : Nat) (source : Source) (j : Nat), sources[k]? = some source ∧
      source.Names relation name j := by
  have hmem : i ∈ (layoutOf sources).positions (·.answers (some relation) name) := by
    rw [Layout.resolve_eq_ok_iff.mp h]
    exact List.mem_singleton_self i
  obtain ⟨column, hcolumn, hanswers⟩ := Layout.mem_positions_iff.mp hmem
  rw [columns_layoutOf] at hcolumn
  obtain ⟨k, source, j, hsource, hj⟩ := exists_of_getElem?_flatMap hcolumn
  exact ⟨k, source, j, hsource, answers_iff_names.mp ⟨column, hj, hanswers⟩⟩

/-- It stands behind the columns of the tables before. -/
theorem position_of_names (h : (layoutOf sources).resolve (some relation) name = .ok i)
    {k j : Nat} {source : Source} (hsource : sources[k]? = some source)
    (hnames : source.Names relation name j) :
    i = ((sources.take k).flatMap fun source => source.layout.columns).length + j := by
  obtain ⟨column, hcolumn, hanswers⟩ := answers_iff_names.mpr hnames
  have hj : j < source.layout.columns.length := (List.getElem?_eq_some_iff.mp hcolumn).1
  have hat : (layoutOf sources).columns[((sources.take k).flatMap
      fun source => source.layout.columns).length + j]? = some column := by
    rw [columns_layoutOf, getElem?_flatMap hsource hj, hcolumn]
  -- there is only one column that the name means
  have hmem : _ ∈ (layoutOf sources).positions (·.answers (some relation) name) :=
    Layout.mem_positions_iff.mpr ⟨column, hat, hanswers⟩
  rw [Layout.resolve_eq_ok_iff.mp h] at hmem
  exact (List.mem_singleton.mp hmem).symm

theorem length_values {share : Share} {source : Source} (hfull : source.Full)
    (h : share.IsOf source) : share.values.length = source.definition.columns.length := by
  obtain ⟨rfl, hrow⟩ := h
  unfold Share.values
  cases hshare : share.row with
  | none => exact List.length_replicate
  | some row => exact hfull row (hrow row hshare)

theorem has_of_values {share : Share} {j : Nat} {value : Value}
    (h : share.values[j]? = some value) : share.Has j value := by
  unfold Share.values at h
  unfold Share.Has
  cases hrow : share.row with
  | some row => rwa [hrow] at h
  | none =>
    rw [hrow] at h
    obtain ⟨_, hvalue⟩ := List.getElem?_eq_some_iff.mp h
    exact hvalue.symm.trans (List.getElem_replicate _)

/-- The share of a table has the value that stands at the position of the column. -/
theorem has_of_isOf (hfull : ∀ source ∈ sources, source.Full)
    (hshares : List.Forall₂ Share.IsOf shares sources) {k j : Nat} {source : Source}
    (hsource : sources[k]? = some source) (hj : j < source.definition.columns.length) :
    ∃ share value, shares[k]? = some share ∧ share.source = source ∧ share.Has j value ∧
      (row shares)[((sources.take k).flatMap fun source => source.layout.columns).length + j]? =
        some value := by
  obtain ⟨share, hshare, hisOf⟩ := exists_getElem?_of_forall₂ hshares hsource
  have hlength : share.values.length = source.definition.columns.length :=
    length_values (hfull source (List.mem_of_getElem? hsource)) hisOf
  -- the shares before are as wide as the columns before
  have hwide : List.Forall₂ (fun (share : Share) (source : Source) =>
      share.values.length = source.layout.columns.length) shares sources := by
    refine (((List.forall₂_and_left _ _).mpr ⟨hfull, hshares.flip⟩).imp
      fun own share hown => ?_).flip
    exact (length_values hown.1 hown.2).trans (List.length_map _).symm
  have hvalue : (row shares)[((shares.take k).flatMap Share.values).length + j]? =
      share.values[j]? := getElem?_flatMap hshare (by omega)
  rw [length_flatMap_eq (List.forall₂_take k hwide)] at hvalue
  have hat : j < share.values.length := by omega
  have hfound : share.values[j]? = some share.values[j] := List.getElem?_eq_getElem hat
  exact ⟨share, _, hshare, hisOf.1, has_of_values hfound, hvalue.trans hfound⟩

/-- **Rows with one share of each table show the columns of the tables under their names.** -/
theorem shows_of_isOf {found : List Shares} (hfull : ∀ source ∈ sources, source.Full)
    (hfound : ∀ shares ∈ found, List.Forall₂ Share.IsOf shares sources) :
    Shows sources (layoutOf sources) found := by
  intro relation name i hresolve
  refine ⟨exists_names hresolve, fun k source j hsource hnames shares hshares => ?_⟩
  have hj : j < source.definition.columns.length := by
    obtain ⟨column, hcolumn, -⟩ := hnames
    exact (List.getElem?_eq_some_iff.mp hcolumn).1
  rw [position_of_names hresolve hsource hnames]
  exact has_of_isOf hfull (hfound shares hshares) hsource hj

end

end NestedLoop

/-! ## Joins of queries -/

namespace Query

open NestedLoop

variable {schema : Schema}

/-- The query of one side of a join reads all rows of a table, in its layout. -/
structure Scans (schema : Schema) (source : Source) (side : Query × Layout) : Prop where
  layout_eq : side.2 = source.layout
  flow_eq : side.1.flow schema = .ofRows source.rows

/-- One more join fails on nothing but its condition, and gives the rows of the reference. -/
theorem flow_join {added : Sql.Join} {on : Bound} {source : Source} {side : Query × Layout}
    {query : Query} {layout : Layout} {sofar : List Shares} (hscans : Scans schema source side)
    (hon : Bound.bind (layout.append source.layout) added.on = .ok on)
    (hcomplete : (query.flow schema).Complete) (hrows : (query.flow schema).rows = sofar.map row) :
    let joined := (Query.join added.kind on side.2.width query side.1).flow schema
    (joined.Complete ↔ ∀ shares ∈ sofar, ∀ right ∈ source.rows,
      ((layout.append source.layout).verdict (row shares ++ right) added.on).isSome) ∧
    (joined.Complete → joined.rows =
      (sofar.flatMap (extend (layout.append source.layout) added source)).map row) := by
  intro joined
  have hwidth : side.2.width = source.definition.columns.length := by
    rw [hscans.layout_eq]
    exact List.length_map _
  have hjoined : joined = Flow.join added.kind on source.definition.columns.length
      (query.flow schema) (.ofRows source.rows) := by
    rw [← hwidth, ← hscans.flow_eq]
    rfl
  have hright : (Flow.ofRows source.rows).Complete := rfl
  rw [hjoined]
  constructor
  · rw [Flow.complete_join_iff, Stage.run_join_ok_iff, hrows, List.forall_mem_map]
    simp only [hcomplete, hright, true_and, Bound.accepts_ok_iff, Layout.verdict_of_bind hon]
    rfl
  · intro hjoins
    rw [Flow.rows_joined hjoins, hrows, List.flatMap_map, List.map_flatMap]
    exact List.flatMap_congr fun shares _ => joined_eq hon

/-- Joins that fail on nothing are made of a query that does not fail. -/
theorem complete_of_joinAll :
    ∀ {sides : List (Sql.Join × Query × Layout)} {query : Query} {layout : Layout}
      {found : Query × Layout}, joinAll query layout sides = .ok found →
      (found.1.flow schema).Complete → (query.flow schema).Complete
  | [], query, layout, found, h, hfound => by
    cases h
    exact hfound
  | (added, right, rightLayout) :: rest, query, layout, found, h, hfound => by
    obtain ⟨on, hon, h⟩ := Result.bind_eq_ok.mp h
    have hjoined := complete_of_joinAll h hfound
    exact (Flow.complete_join_iff.mp hjoined).1

/-- **Joining tables from left to right fails on nothing but the conditions and gives the rows of
the nested loop**, under the columns of all tables. -/
theorem flow_joinAll {sides : List (Sql.Join × Query × Layout)} {others : List (Sql.Join × Source)}
    (hsides : List.Forall₂ (fun side other => side.1 = other.1 ∧ Scans schema other.2 side.2)
      sides others) :
    ∀ {query : Query} {sources : List Source} {found : Query × Layout},
      joinAll query (layoutOf sources) sides = .ok found →
      found.2 = layoutOf (sources ++ others.map (·.2)) ∧
        ∀ sofar : List Shares, (query.flow schema).Complete →
          (query.flow schema).rows = sofar.map row →
          ((found.1.flow schema).Complete ↔ Evaluates (layoutOf sources) others sofar) ∧
            ((found.1.flow schema).Complete →
              (found.1.flow schema).rows = (run (layoutOf sources) others sofar).map row) := by
  -- on the joins that are left, for any query and any rows that were joined before
  induction hsides with
  | nil =>
    intro query sources found h
    cases h
    rw [List.map_nil, List.append_nil]
    exact ⟨rfl, fun sofar hcomplete hrows => ⟨iff_of_true hcomplete trivial, fun _ => hrows⟩⟩
  | @cons side other sides others hside _ ih =>
    intro query sources found h
    obtain ⟨added, right, rightLayout⟩ := side
    obtain ⟨join, table⟩ := other
    obtain ⟨rfl, hscans⟩ : added = join ∧ Scans schema table (right, rightLayout) := hside
    have hlayout : (layoutOf sources).append table.layout = layoutOf (sources ++ [table]) := by
      simp [layoutOf, Layout.append, Layout.joined]
    have hright : rightLayout = table.layout := hscans.layout_eq
    subst hright
    obtain ⟨on, hon, h⟩ := Result.bind_eq_ok.mp h
    rw [hlayout] at h
    obtain ⟨hall, hflow⟩ := ih h
    refine ⟨hall.trans (by simp), fun sofar hcomplete hrows => ?_⟩
    obtain ⟨hjoins, hjoinRows⟩ := flow_join hscans hon hcomplete hrows
    rw [hlayout] at hjoins hjoinRows
    rw [run, Evaluates, hlayout]
    constructor
    · constructor
      · intro hfound
        have hjoined := complete_of_joinAll h hfound
        exact ⟨hjoins.mp hjoined, (hflow _ hjoined (hjoinRows hjoined)).1.mp hfound⟩
      · rintro ⟨hfirst, hothers⟩
        have hjoined := hjoins.mpr hfirst
        exact (hflow _ hjoined (hjoinRows hjoined)).1.mpr hothers
    · intro hfound
      have hjoined := complete_of_joinAll h hfound
      exact (hflow _ hjoined (hjoinRows hjoined)).2 hfound

end Query

/-! ## The tables of a FROM clause -/

/-- No part of a condition is left to a single table of a FROM clause: there is no condition, or a
left join keeps it whole, or none of its parts is about one of several tables alone. -/
inductive PushesNothing (schema : Schema) (clause : Sql.From) : Option Expr → Prop
  | absent : PushesNothing schema clause none
  | outer {filter : Expr} {join : Sql.Join} (hjoin : join ∈ clause.joins)
    (hleft : join.kind = .left) : PushesNothing schema clause (some filter)
  | joined {filter : Expr} (hjoins : clause.joins ≠ [])
    (hparts : ∀ sources, clause.tables.mapM (Source.ofRef schema) = .ok sources →
      ∀ part ∈ conjuncts filter, ownerOf (sources.map Source.layout) part = none) :
    PushesNothing schema clause (some filter)

def Source.ofPlan (schema : Schema) (plan : SourcePlan) : Source :=
  ⟨plan.binding, plan.table.definition, schema.rowsOf plan.table.key⟩

namespace Query

open NestedLoop

variable {schema : Schema} {clause : Sql.From} {condition : Option Expr}

theorem source_of_plan {ref : Sql.TableRef} {plan : SourcePlan}
    (h : SourcePlan.ofRef schema ref = .ok plan) :
    Source.ofRef schema ref = .ok (.ofPlan schema plan) ∧
      plan.layout = (Source.ofPlan schema plan).layout := by
  obtain ⟨found, hfound, h⟩ := Result.bind_eq_ok.mp h
  cases h
  refine ⟨?_, rfl⟩
  rw [Source.ofRef, hfound]
  rfl

/-- The query of a table without a filter reads all its rows. -/
theorem scans_query {ref : Sql.TableRef} {plan : SourcePlan} {query : Query} {name : String}
    (hplan : SourcePlan.ofRef schema ref = .ok plan) (h : plan.query name = .ok query) :
    Scans schema (.ofPlan schema plan) (query, plan.layout) := by
  rw [SourcePlan.query, filter_of_ofRef hplan] at h
  cases h
  exact ⟨(source_of_plan hplan).2, rfl⟩

theorem sources_of_plans {refs : List Sql.TableRef} {plans : List SourcePlan}
    (h : List.Forall₂ (fun ref plan => SourcePlan.ofRef schema ref = .ok plan) refs plans) :
    refs.mapM (Source.ofRef schema) = .ok (plans.map (.ofPlan schema)) := by
  rw [Result.mapM_eq_ok_iff, List.forall₂_map_right_iff]
  exact h.imp fun _ _ hplan => (source_of_plan hplan).1

theorem scans_sides {refs : List Sql.TableRef} {plans : List SourcePlan} {sides : List Query}
    {name : String}
    (hplans : List.Forall₂ (fun ref plan => SourcePlan.ofRef schema ref = .ok plan) refs plans)
    (hsides : List.Forall₂ (fun plan side => SourcePlan.query name plan = .ok side) plans sides) :
    List.Forall₂ (Scans schema) (plans.map (.ofPlan schema))
      (sides.zip (plans.map (·.layout))) := by
  induction hplans generalizing sides with
  | nil => cases hsides; exact .nil
  | cons hplan _ ih =>
    cases hsides with
    | cons hside hrest => exact .cons (scans_query hplan hside) (ih hrest)

/-- The tables are read as if there was no condition. -/
theorem share_of_pushesNothing (hpushes : PushesNothing schema clause condition)
    {plans : List SourcePlan}
    (hplans : Result.collect (clause.tables.map (SourcePlan.ofRef schema)) = .ok plans) :
    (share clause condition plans).1 = plans := by
  cases hpushes with
  | absent => rfl
  | outer hjoin hleft =>
    have hall : ¬clause.joins.all (·.kind = .inner) = true := by
      intro hall
      have hinner := of_decide_eq_true (List.all_eq_true.mp hall _ hjoin)
      rw [hleft] at hinner
      cases hinner
    simp only [share, hall]
    rfl
  | joined hjoins hparts =>
    next filter =>
    have hrefs := Result.collect_map_eq_ok_iff.mp hplans
    have hlayouts : plans.map (·.layout) =
        (plans.map (Source.ofPlan schema)).map Source.layout := by
      rw [List.map_map]
      refine List.map_congr_left fun plan hplan => ?_
      obtain ⟨ref, -, href⟩ := exists_mem_of_forall₂ hrefs hplan
      exact (source_of_plan href).2
    have hpushed : ∀ i, pushedTo (plans.map (·.layout)) filter i = none := by
      intro i
      have hnone : (conjuncts filter).filter
          (fun part => ownerOf (plans.map (·.layout)) part = some i) = [] := by
        rw [List.filter_eq_nil_iff]
        intro part hpart
        rw [hlayouts, hparts _ (sources_of_plans hrefs) part hpart]
        simp
      unfold pushedTo
      rw [hnone]
      rfl
    -- a filter that stays away leaves the plan as it was made
    have hsame : (SourcePlan.pushDown plans filter).1 = plans := by
      refine (List.map_congr_left fun entry hentry => ?_).trans (List.zipIdx_map_fst 0 plans)
      obtain ⟨plan, i⟩ := entry
      have hplan : plan ∈ plans := List.mem_of_getElem? (List.mem_zipIdx_iff_getElem?.mp hentry)
      have hfilter : plan.filter = none := ((plans_of_refs hplans).1 plan hplan).2
      dsimp only
      rw [hpushed, ← hfilter]
    unfold share
    dsimp only
    split
    · exact hsame
    · rfl

/-- **The query of a FROM clause whose tables are not filtered joins the tables as they are.** -/
theorem scans_tables (hpushes : PushesNothing schema clause condition)
    {found : Query × Layout × Option Expr} (h : ofTables schema clause condition = .ok found) :
    ∃ (first : Source) (rest : List Source) (query : Query) (sides : List (Query × Layout)),
      clause.tables.mapM (Source.ofRef schema) = .ok (first :: rest) ∧
        Scans schema first (query, first.layout) ∧ List.Forall₂ (Scans schema) rest sides ∧
          joinAll query first.layout (clause.joins.zip sides) = .ok (found.1, found.2.1) := by
  unfold ofTables at h
  split at h
  · next hempty =>
    have hnone : condition = none := by
      cases hpushes with
      | absent => rfl
      | outer hjoin _ => rw [List.isEmpty_iff.mp hempty] at hjoin; cases hjoin
      | joined hjoins _ => exact absurd (List.isEmpty_iff.mp hempty) hjoins
    obtain ⟨plan, hplan, h⟩ := Result.bind_eq_ok.mp h
    obtain ⟨query, hquery, h⟩ := Result.bind_eq_ok.mp h
    cases h
    rw [hnone, ← filter_of_ofRef hplan] at hquery
    obtain ⟨hsource, hlayout⟩ := source_of_plan hplan
    have hscans := scans_query hplan hquery
    rw [hlayout] at hscans ⊢
    refine ⟨.ofPlan schema plan, [], query, [], ?_, hscans, .nil, ?_⟩
    · rw [Sql.From.tables, List.isEmpty_iff.mp hempty, List.map_nil, List.mapM_cons, hsource]
      rfl
    · rw [List.zip_nil_right]
      rfl
  · obtain ⟨plans, hplans, h⟩ := Result.bind_eq_ok.mp h
    obtain ⟨joined, hjoined, h⟩ := Result.bind_eq_ok.mp h
    cases h
    rw [share_of_pushesNothing hpushes hplans] at hjoined
    obtain ⟨sides, hsides, hjoined⟩ := Result.bind_eq_ok.mp hjoined
    have hrefs := Result.collect_map_eq_ok_iff.mp hplans
    have hqueries := Result.collect_map_eq_ok_iff.mp hsides
    have hmapM := sources_of_plans hrefs
    cases hrefs with
    | cons hplan hrefs =>
      cases hqueries with
      | cons hquery hqueries =>
        have hfirst := scans_query hplan hquery
        rw [List.map_cons] at hjoined
        dsimp only at hjoined
        rw [(source_of_plan hplan).2] at hfirst hjoined
        exact ⟨_, _, _, _, hmapM, hfirst, scans_sides hrefs hqueries, hjoined⟩

/-- **The query of such a clause gives the rows of the nested loop**, under the columns of all
tables, unless a condition fails. -/
theorem flow_tables (hpushes : PushesNothing schema clause condition)
    {found : Query × Layout × Option Expr} (h : ofTables schema clause condition = .ok found) :
    ∃ (first : Source) (rest : List Source),
      clause.tables.mapM (Source.ofRef schema) = .ok (first :: rest) ∧
        [first] ++ (clause.joins.zip rest).map (·.2) = first :: rest ∧
        found.2.1 = layoutOf (first :: rest) ∧
        ((found.1.flow schema).Complete ↔
          Evaluates first.layout (clause.joins.zip rest) (start first)) ∧
        ((found.1.flow schema).Complete → (found.1.flow schema).rows =
          (run first.layout (clause.joins.zip rest) (start first)).map row) := by
  obtain ⟨first, rest, query, sides, hsources, hscans, hsides, hjoined⟩ := scans_tables hpushes h
  rw [← layoutOf_singleton] at hjoined
  obtain ⟨hall, hflow⟩ := flow_joinAll (forall₂_zip_same hsides.flip) hjoined
  -- every table but the first is the right side of a join
  have hrest : [first] ++ (clause.joins.zip rest).map (·.2) = first :: rest := by
    have hlength := (Result.mapM_eq_ok_iff.mp hsources).length_eq
    simp only [Sql.From.tables, List.length_cons, List.length_map] at hlength
    rw [List.map_snd_zip (by omega)]
    rfl
  have hstart : query.flow schema = .ofRows first.rows := hscans.flow_eq
  have hrows : (query.flow schema).rows = (start first).map row := by
    rw [hstart, map_row_start]
    rfl
  have hjoins := hflow (start first) (by rw [hstart]; rfl) hrows
  rw [layoutOf_singleton] at hjoins
  exact ⟨first, rest, hsources, hrest, hrest ▸ hall, hjoins⟩

theorem full_of_ofRef (hschema : schema.InMemory) {ref : Sql.TableRef} {source : Source}
    (h : Source.ofRef schema ref = .ok source) : source.Full := by
  obtain ⟨found, hfound, h⟩ := Result.bind_eq_ok.mp h
  cases h
  obtain ⟨table, htable, hdefinition⟩ := Schema.exists_of_resolve hfound
  intro row hrow
  rw [Schema.rowsOf, htable] at hrow
  rw [hdefinition]
  exact (hschema.sound htable row hrow).length_eq

end Query

/-! ## The main statement -/

namespace Compiling

open NestedLoop

variable {context : Context} {schema : Schema} {clause : Sql.From} {condition : Option Expr}

/-- **The tasks of a FROM clause give the rows of the nested loop, under the names of their tables.**
Take the tables of any FROM clause, in memory and with any number of inner and left joins, and
compile them so that no part of a condition is left to a single table. The tasks fail exactly if an
ON condition fails on the rows that it is asked about, and otherwise they give exactly the rows of
the nested loop, in its order; and each column of the final layout that is found under the name of a
table holds, in every row, what that table contributed: a value of one of its rows, or NULL in place
of a missing match. -/
theorem nested_loop {before compiled : Compilation} {task : Task} {residual : Option Expr}
    (hschema : schema.InMemory) (hcontext : context.schema = some schema)
    (hplanner : context.planner = Planner.inMemory)
    (hpushes : PushesNothing schema clause condition)
    (hcompiled : ((tables clause condition context).run).run before =
      (.ok (task, residual), compiled)) :
    ∃ (first : Source) (rest : List Source),
      clause.tables.mapM (Source.ofRef schema) = .ok (first :: rest) ∧
        let joins := clause.joins.zip rest
        let found := run first.layout joins (start first)
        (∀ world : World, world.schema = some schema → world.signals.shutdown = false →
          (Evaluates first.layout joins (start first) →
            (task.collect world).1.1 = .ok (some (found.map row))) ∧
          (¬Evaluates first.layout joins (start first) →
            ∃ failure, (task.collect world).1.1 = .error failure)) ∧
        Shows (first :: rest) compiled.layout found := by
  obtain ⟨left, hrun, -, hlayout⟩ :=
    Query.does_tables hcontext hplanner clause condition before rfl
  obtain ⟨hresult, rfl⟩ := Prod.mk.inj (hrun.symm.trans hcompiled)
  obtain ⟨tables, htables⟩ : ∃ tables, Query.ofTables schema clause condition = .ok tables := by
    cases htables : Query.ofTables schema clause condition with
    | error error => rw [htables] at hresult; cases hresult
    | ok tables => exact ⟨tables, rfl⟩
  rw [htables] at hresult hlayout
  cases hresult
  obtain ⟨first, rest, hsources, hrest, hall, hcomplete, hrows⟩ :=
    Query.flow_tables hpushes htables
  refine ⟨first, rest, hsources, fun world hworld hshutdown => ?_, ?_⟩
  · have hreads := (Query.binds_ofTables htables).reads hschema
    rw [Execution.collect_of_gives hworld hshutdown (Query.gives hshutdown hreads), Flow.outcome]
    refine ⟨fun hevaluates => ?_, fun hfails => ?_⟩
    · have hjoined := hcomplete.mpr hevaluates
      rw [hrows hjoined, hjoined]
      rfl
    · cases hend : (tables.1.flow schema).failureAtEnd with
      | none => exact absurd (hcomplete.mp hend) hfails
      | some failure => exact ⟨failure, rfl⟩
  · rw [show left.layout = layoutOf (first :: rest) from (hlayout _ _ rfl).trans hall]
    refine shows_of_isOf (fun source hsource => ?_) (hrest ▸ isOf_run (isOf_start first))
    obtain ⟨ref, -, href⟩ := exists_mem_of_forall₂ (Result.mapM_eq_ok_iff.mp hsources) hsource
    exact Query.full_of_ofRef hschema href

/-- The clause `people LEFT JOIN pets AS pet ON id = pet.owner AND kind = 'dog'`. -/
def dogOwners : Sql.From :=
  ⟨⟨⟨[⟨"people", false⟩]⟩, none⟩, [⟨.left, ⟨⟨[⟨"pets", false⟩]⟩, some ⟨"pet", false⟩⟩,
    .binary (.binary (.ident ⟨"id", false⟩) .eq
      (.qualified [⟨"pet", false⟩, ⟨"owner", false⟩])) .and
        (.binary (.ident ⟨"kind", false⟩) .eq (.literal (.string "dog")))⟩]⟩

/-- The first person has a dog, and the second one is kept without a pet. -/
theorem nested_loop_family :
    ∃ (task : Task) (residual : Option Expr) (compiled : Compilation),
      ((tables dogOwners (some (.ident ⟨"name", false⟩))
        ⟨"", some .family, .default, .inMemory⟩).run).run (.start .default) =
          (.ok (task, residual), compiled) ∧
        (task.collect (.start (some .family) .default)).1.1 =
          .ok (some [[.int 1, .utf8 "ann", .int 1, .utf8 "dog"],
            [.int 2, .utf8 "bob", .null, .null]]) ∧
        compiled.layout.resolve (some "pet") "kind" = .ok 3 ∧
        ∃ found : List Shares, found.map row = [[.int 1, .utf8 "ann", .int 1, .utf8 "dog"],
            [.int 2, .utf8 "bob", .null, .null]] ∧
          ∀ shares ∈ found, ∃ (share : Share) (value : Value), shares[1]? = some share ∧
            share.Has 1 value ∧ (row shares)[3]? = some value := by
  let people : Source := ⟨"people", ⟨"people", [⟨"id", .int64⟩, ⟨"name", .utf8⟩]⟩,
    [[.int 1, .utf8 "ann"], [.int 2, .utf8 "bob"]]⟩
  let pet : Source := ⟨"pet", ⟨"pets", [⟨"owner", .int64⟩, ⟨"kind", .utf8⟩]⟩,
    [[.int 2, .utf8 "cat"], [.int 1, .utf8 "dog"], [.int 2, .null]]⟩
  have hsources : dogOwners.tables.mapM (Source.ofRef .family) = .ok [people, pet] := rfl
  obtain ⟨task, residual, compiled, hcompiled, hresolve⟩ :
      ∃ (task : Task) (residual : Option Expr) (compiled : Compilation),
        ((tables dogOwners (some (.ident ⟨"name", false⟩))
          ⟨"", some .family, .default, .inMemory⟩).run).run (.start .default) =
            (.ok (task, residual), compiled) ∧
          compiled.layout.resolve (some "pet") "kind" = .ok 3 := ⟨_, _, _, rfl, rfl⟩
  obtain ⟨first, rest, hfound, hrows, hshows⟩ := nested_loop Schema.inMemory_family rfl rfl
    (.outer (List.mem_singleton_self _) rfl) hcompiled
  cases hsources.symm.trans hfound
  have hmap : (run people.layout (dogOwners.joins.zip [pet]) (start people)).map row =
      [[.int 1, .utf8 "ann", .int 1, .utf8 "dog"], [.int 2, .utf8 "bob", .null, .null]] := by
    decide
  have hcollect := (hrows (.start (some .family) .default) rfl rfl).1 ⟨by decide, trivial⟩
  rw [hmap] at hcollect
  refine ⟨task, residual, compiled, hcompiled, hcollect, hresolve, _, hmap, ?_⟩
  intro shares hshares
  obtain ⟨share, value, hshare, -, hhas, hvalue⟩ :=
    (hshows "pet" "kind" 3 hresolve).2 1 pet 1 rfl ⟨_, rfl, by decide, by decide⟩ shares hshares
  exact ⟨share, value, hshare, hhas, hvalue⟩

end Compiling

end SqlPipeline
