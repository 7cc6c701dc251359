import SqlPipeline.Proofs.Bound.Holds
import SqlPipeline.Proofs.Bound.Spellings
import SqlPipeline.Proofs.Query.Run
import SqlPipeline.Proofs.Sql.Precedence
import SqlPipeline.Proofs.Sql.RoundTrip
import SqlPipeline.Proofs.Task.Grouping

/-!
# The columns that grouped expressions read

Behind GROUP BY an expression is bound to the column of a group key or of an aggregate by its text.
Each call of an aggregate finds such a column (`Grouping.exists_computed?`). The column found is
made up by an expression of the same text up to letter case (`Grouping.exists_produces`), which
differs from the one looked up in the letters of names and of quoted texts at most. The value read
is what that other expression comes to over the group. It is the expression's own value if both have
the same in quotes (`Compiling.grouped_reads_own`).

Of two calls whose strings differ in letter case only, the second one reads the column of the first
(`Execution.grouped_reads_other`).
-/

namespace SqlPipeline

open Sql (Expr Args Select SelectItem)

namespace Sql

/-! ## Expressions of a select that was read -/

theorem Listed.of_mem {α : Type} {Spelled : α → List Token → Prop} {items : List α}
    {tokens : List Token} (h : Listed Spelled items tokens) :
    ∀ item ∈ items, ∃ own, Spelled item own := by
  induction h with
  | one h => exact fun item hitem => ⟨_, List.mem_singleton.mp hitem ▸ h⟩
  | cons h _ ih =>
    intro item hitem
    rcases List.mem_cons.mp hitem with rfl | hitem
    · exact ⟨_, h⟩
    · exact ih item hitem

theorem Clause.of_mem {α : Type} {Spelled : α → List Token → Prop} {keyword : Keyword}
    {found : Option α} {tokens : List Token} (h : Clause keyword Spelled found tokens) :
    ∀ a ∈ found.toList, ∃ own, Spelled a own := by
  cases h with
  | none => exact fun a ha => by cases ha
  | some _ h => exact fun a ha => ⟨_, List.mem_singleton.mp ha ▸ h⟩

theorem Groups.of_mem {groups : List Expr} {tokens : List Token} (h : Groups groups tokens) :
    ∀ expr ∈ groups, ∃ own, expr.Spelled own := by
  cases h with
  | none => exact fun a ha => by cases ha
  | some _ _ h => exact h.of_mem

def Select.outputs (select : Select) : List Expr :=
  select.items.filterMap SelectItem.expr? ++ select.having.toList

/-- The keys and outputs of a select are grouped as they are written. -/
theorem Select.Spelled.grouped {select : Select} {tokens : List Token} (h : select.Spelled tokens) :
    ∀ expr ∈ select.groupBy ++ select.outputs, expr.Grouped 0 := by
  obtain ⟨-, hitems, -, -, -, hgroups, hhaving⟩ := h
  intro expr hexpr
  rcases List.mem_append.mp hexpr with hexpr | hexpr
  · obtain ⟨own, hown⟩ := hgroups.of_mem expr hexpr
    exact hown.2
  rcases List.mem_append.mp hexpr with hexpr | hexpr
  · obtain ⟨item, hitem, hvalue⟩ := List.mem_filterMap.mp hexpr
    obtain ⟨own, hown⟩ := hitems.of_mem item hitem
    cases hown with
    | @named value name _ _ hspelled _ => cases name <;> cases hvalue <;> exact hspelled.2
    | allOf _ => cases hvalue
    | all => cases hvalue
  · obtain ⟨own, hown⟩ := hhaving.of_mem expr hexpr
    exact hown.2

theorem Script.grouped_of_parse {sql : String} {statements : List Statement} {select : Select}
    (h : parse sql = .ok statements) (hselect : .select select ∈ statements) :
    ∀ expr ∈ select.groupBy ++ select.outputs, expr.Grouped 0 := by
  obtain ⟨founds, hfounds, rfl⟩ := parse_eq_ok_iff.mp h
  obtain ⟨found, hfound, hstatement⟩ := List.mem_map.mp hselect
  obtain ⟨_, _, _, used, -, -, -, -, hspelled⟩ := exists_slice hfounds hfound
  rw [hstatement] at hspelled
  generalize tokensOf used = tokens at hspelled
  cases hspelled with
  | select _ hselect _ => exact hselect.grouped

end Sql

/-! ## The columns of groups -/

namespace Aggregate

variable {before : Layout}

/-- Each aggregate that is collected is that of a call. -/
theorem exists_call_of_collect {exprs : List Expr} {aggregates : List Aggregate}
    (h : collect before exprs = .ok aggregates) {aggregate : Aggregate}
    (haggregate : aggregate ∈ aggregates) :
    ∃ call ∈ exprs.flatMap Expr.parts, ofCall? before call = .ok (some aggregate) := by
  unfold collect at h
  generalize exprs.flatMap Expr.parts = parts at h ⊢
  -- what was found before varies in the induction
  suffices hfound : aggregate ∈ ([] : List Aggregate) ∨
      ∃ call ∈ parts, ofCall? before call = .ok (some aggregate) from
    hfound.resolve_left List.not_mem_nil
  generalize ([] : List Aggregate) = found at h ⊢
  induction parts generalizing found with
  | nil =>
    cases h
    exact .inl haggregate
  | cons part parts ih =>
    rw [List.foldlM_cons] at h
    obtain ⟨next, hnext, hrest⟩ := Result.bind_eq_ok.mp h
    obtain ⟨own, hown, hnext⟩ := Result.bind_eq_ok.mp hnext
    rcases ih next hrest with hmem | ⟨call, hcall, hof⟩
    · cases own with
      | none =>
        cases hnext
        exact .inl hmem
      | some own =>
        cases hnext
        unfold addNew at hmem
        split at hmem
        · exact .inl hmem
        rcases List.mem_append.mp hmem with hmem | hmem
        · exact .inl hmem
        · rw [List.mem_singleton.mp hmem]
          exact .inr ⟨part, List.mem_cons_self, hown⟩
    · exact .inr ⟨call, List.mem_cons_of_mem _ hcall, hof⟩

theorem subset_addNew (found : List Aggregate) (aggregate : Aggregate) :
    found ⊆ addNew found aggregate := by
  unfold addNew
  split
  · exact List.Subset.refl _
  · exact List.subset_append_left _ _

theorem exists_mem_addNew (found : List Aggregate) (aggregate : Aggregate) :
    ∃ own ∈ addNew found aggregate, own.name = aggregate.name := by
  unfold addNew
  split
  · next hany =>
    obtain ⟨own, hown, heq⟩ := List.any_eq_true.mp hany
    exact ⟨own, hown, beq_iff_eq.mp heq⟩
  · exact ⟨aggregate, List.mem_append_right _ List.mem_cons_self, rfl⟩

/-- Of each call of an aggregate, one of the same text is collected. -/
theorem exists_mem_collect {exprs : List Expr} {aggregates : List Aggregate}
    (h : collect before exprs = .ok aggregates) {call : Expr}
    (hcall : call ∈ exprs.flatMap Expr.parts) {aggregate : Aggregate}
    (hof : ofCall? before call = .ok (some aggregate)) :
    ∃ own ∈ aggregates, own.name = aggregate.name := by
  unfold collect at h
  generalize exprs.flatMap Expr.parts = parts at h hcall
  -- what is found once stays in what is found, so the call may as well be behind
  suffices hfound : (∃ own ∈ ([] : List Aggregate), own.name = aggregate.name) ∨ call ∈ parts →
      ∃ own ∈ aggregates, own.name = aggregate.name from hfound (.inr hcall)
  clear hcall
  generalize ([] : List Aggregate) = found at h ⊢
  induction parts generalizing found with
  | nil =>
    cases h
    exact fun hfound => hfound.resolve_right List.not_mem_nil
  | cons part parts ih =>
    rw [List.foldlM_cons] at h
    obtain ⟨next, hnext, hrest⟩ := Result.bind_eq_ok.mp h
    obtain ⟨own, hown, hnext⟩ := Result.bind_eq_ok.mp hnext
    refine fun hfound => ih next hrest ?_
    rcases hfound with ⟨present, hpresent, hname⟩ | hcall
    · refine .inl ⟨present, ?_, hname⟩
      cases own with
      | none =>
        cases hnext
        exact hpresent
      | some own =>
        cases hnext
        exact subset_addNew found own hpresent
    rcases List.mem_cons.mp hcall with rfl | hcall
    · cases hof.symm.trans hown
      cases hnext
      exact .inl (exists_mem_addNew found aggregate)
    · exact .inr hcall

end Aggregate

namespace Grouping

variable {before after : Layout} {select : Select}

/-- The expression that makes up a computed column of the groups of a select: an expression to group
by, or the call of an aggregate. -/
inductive Produces (before : Layout) (select : Select) (aggregates : List Aggregate) :
    Nat → Expr → Prop
  | key {i : Nat} {own : Expr} (h : select.groupBy[i]? = some own) :
    Produces before select aggregates i own
  | call {j : Nat} {own : Expr} {aggregate : Aggregate}
    (hown : own ∈ select.outputs.flatMap Expr.parts) (haggregate : aggregates[j]? = some aggregate)
    (hcall : Aggregate.ofCall? before own = .ok (some aggregate)) :
    Produces before select aggregates (select.groupBy.length + j) own

theorem Produces.mem {aggregates : List Aggregate} {i : Nat} {own : Expr}
    (h : Produces before select aggregates i own) :
    own ∈ (select.groupBy ++ select.outputs).flatMap Expr.parts := by
  rw [List.flatMap_append, List.mem_append]
  cases h with
  | key h => exact .inl (List.mem_flatMap.mpr ⟨own, List.mem_of_getElem? h, own.self_mem_parts⟩)
  | call hown _ _ => exact .inr hown

/-- The keys of groups are bound to the columns before, each with a column of its own. -/
theorem groupKeys_eq_ok {exprs : List Expr} :
    ∀ {keys : List (Bound × Layout.Column)}, Compiling.groupKeys before exprs = .ok keys →
      List.Forall₂ (fun expr key => Bound.bind before expr = .ok key.1 ∧
        Compiling.keyColumn before expr key.1 = .ok key.2) exprs keys := by
  induction exprs with
  | nil =>
    intro keys h
    cases h
    exact .nil
  | cons expr rest ih =>
    intro keys h
    obtain ⟨key, hkey, h⟩ := Result.bind_eq_ok.mp h
    obtain ⟨column, hcolumn, h⟩ := Result.bind_eq_ok.mp h
    obtain ⟨others, hothers, h⟩ := Result.bind_eq_ok.mp h
    cases h
    exact .cons ⟨hkey, hcolumn⟩ (ih hothers)

/-- A computed column of a key has the text of the key for its name. -/
theorem name_of_keyColumn {expr : Expr} {bound : Bound} {column : Layout.Column}
    (h : Compiling.keyColumn before expr bound = .ok column) (hrelation : column.relation = none) :
    column.name = expr.text := by
  obtain ⟨own, -, h⟩ := Result.bind_eq_ok.mp h
  cases h
  split
  · rfl
  · next hsome =>
    rw [if_neg hsome] at hrelation
    exact absurd (by rw [hrelation]; rfl) hsome

variable {keys : List Bound} {aggregates : List Aggregate}

/-- A select that is grouped has keys and aggregates, which make the columns of its groups. -/
theorem of_grouping
    (h : Query.grouping before select = .ok (some (.groupBy keys aggregates), after)) :
    ∃ columns, Compiling.groupKeys before select.groupBy = .ok columns ∧
      Aggregate.collect before select.outputs = .ok aggregates ∧ keys = columns.map (·.1) ∧
      after = ⟨columns.map (·.2) ++ aggregates.map fun aggregate => ⟨none, aggregate.name⟩⟩ := by
  obtain ⟨found, hfound, h⟩ := Result.bind_eq_ok.mp h
  split at h
  · cases h
  · obtain ⟨columns, hcolumns, h⟩ := Result.bind_eq_ok.mp h
    cases h
    exact ⟨columns, hcolumns, hfound, rfl, rfl⟩

theorem computed?_eq_some {layout : Layout} {text : String} {i : Nat}
    (h : layout.computed? text = some i) :
    ∃ column, layout.columns[i]? = some column ∧ column.relation = none ∧
      Text.sameAsciiCase column.name text = true := by
  obtain ⟨hi, hcolumn, -⟩ := List.findIdx?_eq_some_iff_getElem.mp h
  rw [Bool.and_eq_true, Option.isNone_iff_eq_none] at hcolumn
  exact ⟨_, List.getElem?_eq_getElem hi, hcolumn⟩

/-- **A computed column of groups is made up by an expression of the same text,** if texts are
compared without regard to letter case. -/
theorem exists_produces
    (hgrouping : Query.grouping before select = .ok (some (.groupBy keys aggregates), after))
    {text : String} {i : Nat} (h : after.computed? text = some i) :
    ∃ own, Produces before select aggregates i own ∧
      Text.sameAsciiCase own.text text = true := by
  obtain ⟨columns, hkeys, haggregates, -, rfl⟩ := of_grouping hgrouping
  have hforall := groupKeys_eq_ok hkeys
  obtain ⟨column, hcolumn, hrelation, htext⟩ := computed?_eq_some h
  have hlength : (columns.map (·.2)).length = select.groupBy.length := by
    rw [List.length_map, hforall.length_eq]
  by_cases hi : i < (columns.map (·.2)).length
  · rw [List.getElem?_append_left hi, List.getElem?_map] at hcolumn
    obtain ⟨key, hkey, rfl⟩ := Option.map_eq_some_iff.mp hcolumn
    obtain ⟨own, hown, -, hname⟩ := exists_getElem?_of_forall₂ hforall hkey
    exact ⟨own, .key hown, name_of_keyColumn hname hrelation ▸ htext⟩
  · rw [List.getElem?_append_right (Nat.le_of_not_lt hi), List.getElem?_map] at hcolumn
    obtain ⟨aggregate, haggregate, rfl⟩ := Option.map_eq_some_iff.mp hcolumn
    obtain ⟨own, hown, hcall⟩ :=
      Aggregate.exists_call_of_collect haggregates (List.mem_of_getElem? haggregate)
    have hproduces := Produces.call hown haggregate hcall
    rw [← hlength, Nat.add_sub_cancel' (Nat.le_of_not_lt hi)] at hproduces
    obtain ⟨hname, -⟩ := Aggregate.ofCall?_eq_some_iff.mp hcall
    exact ⟨own, hproduces, hname ▸ htext⟩

/-- **Each call of an aggregate among the outputs is found** among the computed columns of the
groups. -/
theorem exists_computed?
    (hgrouping : Query.grouping before select = .ok (some (.groupBy keys aggregates), after))
    {call : Expr} (hcall : call ∈ select.outputs.flatMap Expr.parts) {aggregate : Aggregate}
    (hof : Aggregate.ofCall? before call = .ok (some aggregate)) :
    ∃ i, after.computed? call.text = some i := by
  obtain ⟨columns, -, haggregates, -, rfl⟩ := of_grouping hgrouping
  obtain ⟨own, hown, hname⟩ := Aggregate.exists_mem_collect haggregates hcall hof
  obtain ⟨htext, -⟩ := Aggregate.ofCall?_eq_some_iff.mp hof
  rw [← Option.isSome_iff_exists, Layout.computed?, List.findIdx?_isSome, List.any_eq_true]
  refine ⟨⟨none, own.name⟩, List.mem_append_right _ (List.mem_map_of_mem hown), ?_⟩
  rw [hname, htext]
  exact Bool.and_eq_true_iff.mpr ⟨rfl, beq_self_eq_true _⟩

/-! ## What an expression comes to over a group -/

/-- Over a group, an expression to group by comes to its value on each of the rows, and a call of an
aggregate to what the aggregate comes to over the rows. -/
inductive ComesTo (before : Layout) (group : List Row) (expr : Expr) (value : Value) : Prop
  | key {own : Bound} (hown : Bound.bind before expr = .ok own) (hne : group ≠ [])
    (hvalue : ∀ row ∈ group, own.eval row = .ok value)
  | call {own : Aggregate} (hown : Aggregate.ofCall? before expr = .ok (some own))
    (hvalue : own.valueOver group = .ok value)

theorem ComesTo.of_spelledAlike {group : List Row} {expr own : Expr} {value : Value}
    (h : ComesTo before group own value) (halike : expr.SpelledAlike own) :
    ComesTo before group expr value := by
  cases h with
  | key hown hne hvalue => exact .key (Bound.bind_eq_ok_of_spelledAlike halike hown) hne hvalue
  | call hown hvalue => exact .call (Aggregate.ofCall?_of_spelledAlike halike hown) hvalue

/-- The values of expressions are those of each of them. -/
theorem evalAll_eq_ok {row : Row} : ∀ {bounds : List Bound} {values : List Value},
    Bound.evalAll row bounds = .ok values →
      List.Forall₂ (fun bound value => bound.eval row = .ok value) bounds values
  | [], _, h => by cases h; exact .nil
  | bound :: rest, _, h => by
    obtain ⟨first, hfirst, h⟩ := Result.bind_eq_ok.mp h
    obtain ⟨others, hothers, h⟩ := Result.bind_eq_ok.mp h
    cases h
    exact .cons hfirst (evalAll_eq_ok hothers)

theorem mem_rowsOf {keys : List Bound} {rows : List Row} {key row : Row} :
    row ∈ rowsOf keys rows key ↔ row ∈ rows ∧ Bound.evalAll row keys = .ok key := by
  rw [rowsOf, List.mem_filter, decide_eq_true_iff, key?_eq_some_iff]

/-- A key has a value for each expression to group by, and rows if there is such an expression. -/
theorem length_of_mem_keysOf {keys : List Bound} {rows : List Row} {key : Row}
    (h : key ∈ keysOf keys rows) :
    key.length = keys.length ∧ (keys ≠ [] → rowsOf keys rows key ≠ []) := by
  rcases mem_keysOf.mp h with ⟨rfl, rfl⟩ | ⟨row, hrow, hkey⟩
  · exact ⟨rfl, fun hne => absurd rfl hne⟩
  · have heval := key?_eq_some_iff.mp hkey
    exact ⟨(evalAll_eq_ok heval).length_eq.symm,
      fun _ => List.ne_nil_of_mem (mem_rowsOf.mpr ⟨hrow, heval⟩)⟩

/-- **A computed column holds what the expression that makes it up comes to over the group.** -/
theorem Produces.value {rows : List Row} {key out : Row} {i : Nat} {own : Expr}
    (hgrouping : Query.grouping before select = .ok (some (.groupBy keys aggregates), after))
    (hproduces : Produces before select aggregates i own) (hkey : key ∈ keysOf keys rows)
    (hout : Gives keys aggregates rows key out) :
    ∃ value, (Bound.column i).eval out = .ok value ∧
      ComesTo before (rowsOf keys rows key) own value := by
  obtain ⟨columns, hkeys, -, rfl, -⟩ := of_grouping hgrouping
  have hforall := groupKeys_eq_ok hkeys
  obtain ⟨values, hvalues, rfl⟩ := hout
  obtain ⟨hlength, hrows⟩ := length_of_mem_keysOf hkey
  rw [List.length_map, ← hforall.length_eq] at hlength
  have hcolumn {i : Nat} {value : Value} (h : (key ++ values)[i]? = some value) :
      (Bound.column i).eval (key ++ values) = .ok value := by
    rw [Bound.eval, h]
  cases hproduces with
  | @key i own hown =>
    obtain ⟨column, hat, hbind, -⟩ := exists_getElem?_of_forall₂ hforall.flip hown
    obtain ⟨hi, -⟩ := List.getElem?_eq_some_iff.mp hown
    have hvalue : key[i]? = some key[i] := List.getElem?_eq_getElem (by omega)
    refine ⟨key[i], hcolumn ?_, .key hbind (hrows ?_) fun row hrow => ?_⟩
    · rw [List.getElem?_append_left (by omega), hvalue]
    · exact List.ne_nil_of_mem (List.mem_map.mpr ⟨column, List.mem_of_getElem? hat, rfl⟩)
    · have heval := evalAll_eq_ok (mem_rowsOf.mp hrow).2
      obtain ⟨bound, hbound, hrow⟩ := exists_getElem?_of_forall₂ heval hvalue
      rw [List.getElem?_map, hat] at hbound
      cases hbound
      exact hrow
  | @call j own aggregate hown haggregate hcall =>
    obtain ⟨value, hvalue, hover⟩ := exists_getElem?_of_forall₂ hvalues.flip haggregate
    refine ⟨value, hcolumn ?_, .call hcall hover⟩
    rw [← hlength, List.getElem?_append_right (Nat.le_add_right _ _), Nat.add_sub_cancel_left]
    exact hvalue

/-- On stored columns, an expression comes to one value at most. -/
theorem ComesTo.unique (hstored : before.Stored) {group : List Row} {expr : Expr}
    {value other : Value} (h : ComesTo before group expr value)
    (hother : ComesTo before group expr other) : value = other := by
  have hcall {own : Aggregate} (hown : Aggregate.ofCall? before expr = .ok (some own)) :
      ∀ bound, Bound.bind before expr ≠ .ok bound := by
    intro bound hbound
    obtain ⟨-, name, args, rfl, hcalls⟩ := Aggregate.ofCall?_eq_some_iff.mp hown
    have hname : aggregateNames.contains name.key = true := by
      obtain ⟨function, hfunction⟩ :
          ∃ function, AggregateFunction.ofName? name.key = some function := by
        cases hcalls with
        | rows hcount => exact ⟨_, hcount⟩
        | values hfunction _ => exact ⟨_, hfunction⟩
      have heq := List.find?_some hfunction
      rw [← AggregateFunction.map_name_all, List.contains_iff_mem, List.mem_map]
      exact ⟨function, List.mem_of_find?_eq_some hfunction, beq_iff_eq.mp heq⟩
    rw [Bound.bind, hstored.computed?_eq_none, Bound.functionOf, if_pos hname] at hbound
    cases hbound
  cases h with
  | key hown hne hvalue =>
    cases hother with
    | key hown' _ hvalue' =>
      obtain ⟨row, hrow⟩ := List.exists_mem_of_ne_nil _ hne
      cases hown.symm.trans hown'
      exact Except.ok.inj ((hvalue row hrow).symm.trans (hvalue' row hrow))
    | call hown' _ => exact absurd hown (hcall hown' _)
  | call hown hvalue =>
    cases hother with
    | key hown' _ _ => exact absurd hown' (hcall hown _)
    | call hown' hvalue' =>
      cases hown.symm.trans hown'
      exact Except.ok.inj (hvalue.symm.trans hvalue')

end Grouping

/-- Anything but a name or a literal. -/
def Sql.Expr.IsComposed : Expr → Prop
  | .ident _ | .qualified _ | .literal _ => False
  | _ => True

instance : DecidablePred Sql.Expr.IsComposed
  | .ident _ | .qualified _ | .literal _ => .isFalse id
  | .unary _ _ | .binary _ _ _ | .isNull _ _ | .call _ _ | .nested _ => .isTrue trivial

theorem Bound.bind_of_computed? {layout : Layout} {expr : Expr} {i : Nat}
    (hcomposed : expr.IsComposed) (h : layout.computed? expr.text = some i) :
    Bound.bind layout expr = .ok (.column i) := by
  cases expr with
  | ident _ | qualified _ | literal _ => exact hcomposed.elim
  | unary _ _ | binary _ _ _ | isNull _ _ | call _ _ | nested _ => rw [Bound.bind, h]

namespace Compiling

variable {context : Context} {compilation left : Compilation} {task : Task} {select : Select}
  {raw : String}

/-- Grouping that leaves a task leaves the task and the layout of a grouping step. -/
theorem grouping_of_run (hplanner : context.planner = Planner.inMemory)
    (hrun : ((Compiling.grouping select context).run).run compilation = (.ok (some task), left)) :
    ∃ keys aggregates, Query.grouping compilation.layout select =
      .ok (some (.groupBy keys aggregates), left.layout) ∧ task = Task.groupBy keys aggregates := by
  obtain ⟨last, hlast, -, hlayout⟩ := Query.does_grouping hplanner select compilation rfl
  rw [hrun] at hlast
  obtain ⟨hresult, rfl⟩ := Prod.mk.inj hlast
  cases hgrouping : Query.grouping compilation.layout select with
  | error error => rw [hgrouping] at hresult; cases hresult
  | ok found =>
    obtain ⟨step, after⟩ := found
    rw [hgrouping] at hresult hlayout
    cases step with
    | none => cases hresult
    | some step =>
      obtain ⟨aggregates, -, h⟩ := Result.bind_eq_ok.mp hgrouping
      split at h
      · cases h
      · obtain ⟨columns, -, h⟩ := Result.bind_eq_ok.mp h
        cases h
        refine ⟨_, aggregates, ?_, Option.some.inj (Except.ok.inj hresult)⟩
        rw [hlayout _ _ rfl]

/-- A text of one statement is a script of this statement. -/
theorem statements_of_parse {statement : Sql.Statement} (h : Compiling.parse raw = .ok statement) :
    Sql.Script.parse raw = .ok [statement] := by
  unfold Compiling.parse at h
  split at h
  · cases h
  · next hparse =>
    cases h
    exact hparse
  · cases h
  · cases h

/-- **A grouped expression reads its own column,** unless it differs from another one in the letter
case of what stands in quotes. An expression of the select list or of HAVING that is found among the
computed columns of the groups is bound to a column that is made up by a key or a call of an
aggregate, which differs from the expression in letters at most; if it has the same in quotes, it is
the same expression up to the letter case of names without quotes. For each group of any rows, the
value of the column is what the key or aggregate comes to over the rows of the group, and in the
latter case this is what the expression itself comes to over them. -/
theorem grouped_reads_own (hplanner : context.planner = Planner.inMemory)
    (hparse : Compiling.parse raw = .ok (.select select))
    (hplain : ∀ expr ∈ select.groupBy ++ select.outputs, expr.IsPlain)
    (hrun : ((Compiling.grouping select context).run).run compilation = (.ok (some task), left)) :
    ∃ keys aggregates, task = Task.groupBy keys aggregates ∧
      ∀ e ∈ select.outputs.flatMap Expr.parts, e.IsComposed →
      ∀ i, left.layout.computed? e.text = some i →
        Bound.bind left.layout e = .ok (.column i) ∧
        ∃ own, Grouping.Produces compilation.layout select aggregates i own ∧
          e.respelled .folding = own.respelled .folding ∧
          (e.quotations = own.quotations → e.SpelledAlike own) ∧
          ∀ rows, ((Stage.groupBy keys aggregates).run rows).2 = .ok () →
            List.Forall₂ (fun key out => ∃ value, (Bound.column i).eval out = .ok value ∧
              let group := Grouping.rowsOf keys rows key
              Grouping.ComesTo compilation.layout group own value ∧
              (e.quotations = own.quotations →
                Grouping.ComesTo compilation.layout group e value))
              (Grouping.keysOf keys rows) ((Stage.groupBy keys aggregates).run rows).1 := by
  obtain ⟨keys, aggregates, hgrouping, rfl⟩ := grouping_of_run hplanner hrun
  refine ⟨keys, aggregates, rfl, fun e he hcomposed i hi => ?_⟩
  obtain ⟨own, hproduces, htext⟩ := Grouping.exists_produces hgrouping hi
  have hread {part : Expr} (h : part ∈ (select.groupBy ++ select.outputs).flatMap Expr.parts) :
      (∃ level, part.Grouped level) ∧ part.IsPlain := by
    obtain ⟨expr, hexpr, hpart⟩ := List.mem_flatMap.mp h
    have hgrouped := Sql.Script.grouped_of_parse (statements_of_parse hparse) List.mem_cons_self
    exact ⟨(hgrouped expr hexpr).of_mem_parts hpart,
      fun inner hinner => hplain expr hexpr inner (Expr.parts_subset hpart hinner)⟩
  obtain ⟨⟨level, he'⟩, hplainPart⟩ := hread (by
    rw [List.flatMap_append]
    exact List.mem_append_right _ he)
  obtain ⟨⟨levelOwn, hown⟩, hplainOwn⟩ := hread hproduces.mem
  have hfolded := (hown.eq_of_sameAsciiCase he' hplainOwn hplainPart htext).symm
  have halike (hquotations : e.quotations = own.quotations) : e.SpelledAlike own :=
    Expr.spelledAlike_of_folded hfolded hquotations
  refine ⟨Bound.bind_of_computed? hcomposed hi, own, hproduces, hfolded, halike, fun rows hok => ?_⟩
  have hgives := (Stage.run_groupBy keys aggregates rows).2 hok
  refine ((List.forall₂_and_left _ _).mpr ⟨fun _ hkey => hkey, hgives⟩).imp fun key out hout => ?_
  obtain ⟨value, hvalue, hcomes⟩ := hproduces.value hgrouping hout.1 hout.2
  exact ⟨value, hvalue, hcomes, fun hquotations => hcomes.of_spelledAlike (halike hquotations)⟩

def sumOfId : Expr :=
  .call ⟨"sum", false⟩ (.value (.ident ⟨"id", false⟩) .nil)

/-- The select `SELECT Sum(ID) FROM people HAVING sum(id) > 1`. -/
def largeSum : Select :=
  ⟨false, [.expr (.call ⟨"Sum", false⟩ (.value (.ident ⟨"ID", false⟩) .nil))], none,
    some ⟨⟨⟨[⟨"people", false⟩]⟩, none⟩, []⟩, none, [],
    some (.binary sumOfId .gt (.literal (.number "1")))⟩

/-- Compiling after the rows of the people are read. -/
def peopleCompilation : Compilation :=
  ⟨⟨⟨false, false⟩, []⟩, none, ⟨[⟨some "people", "id"⟩, ⟨some "people", "name"⟩]⟩, []⟩

/-- In HAVING, `sum(id)` is bound to the first column, which is made up by `Sum(ID)`: the same
expression up to the letter case of names. -/
theorem grouped_reads_own_sum :
    parse "SELECT Sum(ID) FROM people HAVING sum(id) > 1" = .ok (.select largeSum) ∧
    (∀ expr ∈ largeSum.groupBy ++ largeSum.outputs, expr.IsPlain) ∧
    ∃ task left, ((grouping largeSum ⟨"", none, .default, .inMemory⟩).run).run peopleCompilation =
        (.ok (some task), left) ∧
      Bound.bind left.layout sumOfId = .ok (.column 0) ∧
      ∃ aggregates own, Grouping.Produces peopleCompilation.layout largeSum aggregates 0 own ∧
        sumOfId.respelled .folding = own.respelled .folding := by
  have hparse : parse "SELECT Sum(ID) FROM people HAVING sum(id) > 1" = .ok (.select largeSum) :=
    Sql.Script.eq_ok_of_toOption (by decide +kernel)
  have hplain : ∀ expr ∈ largeSum.groupBy ++ largeSum.outputs, expr.IsPlain := by decide +kernel
  have hgrouping : Query.grouping peopleCompilation.layout largeSum =
      .ok (some (.groupBy [] [⟨.sum, some (.column 0), "sum(ID)"⟩,
        ⟨.sum, some (.column 0), "sum(id)"⟩]), ⟨[⟨none, "sum(ID)"⟩, ⟨none, "sum(id)"⟩]⟩) := rfl
  obtain ⟨left, hrun, -, hlayout⟩ :=
    @Query.does_grouping ⟨"", none, .default, .inMemory⟩ _ rfl largeSum peopleCompilation rfl
  rw [hgrouping] at hrun hlayout
  have hleft := hlayout _ _ rfl
  obtain ⟨keys, aggregates, -, hreads⟩ := grouped_reads_own rfl hparse hplain hrun
  have hcomputed : left.layout.computed? sumOfId.text = some 0 := by
    rw [hleft]
    rfl
  obtain ⟨hbind, own, hproduces, hfolded, -⟩ :=
    hreads sumOfId (by decide +kernel) trivial 0 hcomputed
  exact ⟨hparse, hplain, _, left, hrun, hbind, aggregates, own, hproduces, hfolded⟩

end Compiling

namespace Execution

/-- The call `min` of a string. -/
def least (text : String) : Expr :=
  .call ⟨"min", false⟩ (.value (.literal (.string text)) .nil)

/-- The job of `SELECT min('A'), min('a') FROM people`. -/
def leastSpec : JobSpec :=
  ⟨"SELECT min('A'), min('a') FROM people", .default, .inMemory, none⟩

/-- Strings that differ in letter case only are not told apart: the second call reads the column of
the first. -/
theorem grouped_reads_other :
    Compiling.parse leastSpec.raw = .ok (.select ⟨false, [.expr (least "A"), .expr (least "a")],
      none, some ⟨⟨⟨[⟨"people", false⟩]⟩, none⟩, []⟩, none, [], none⟩) ∧
    (Execution.run leastSpec (.start (some .family) leastSpec.config)).1.rows =
      some [[.utf8 "A", .utf8 "A"]] ∧
    ∃ own, Aggregate.ofCall? (.ofTable "people" ⟨"people", [⟨"id", .int64⟩, ⟨"name", .utf8⟩]⟩)
        (least "a") = .ok (some own) ∧
      own.valueOver (Schema.family.rowsOf "people") = .ok (.utf8 "a") := by
  have hparse : Compiling.parse leastSpec.raw =
      .ok (.select ⟨false, [.expr (least "A"), .expr (least "a")],
        none, some ⟨⟨⟨[⟨"people", false⟩]⟩, none⟩, []⟩, none, [], none⟩) :=
    Sql.Script.eq_ok_of_toOption (by decide +kernel)
  have hquery : Query.ofSelect .family ⟨false, [.expr (least "A"), .expr (least "a")],
        none, some ⟨⟨⟨[⟨"people", false⟩]⟩, none⟩, []⟩, none, [], none⟩ =
      .ok (.sequence "select"
        (.sequence "source_select(people)" (.source "people" "people") [])
        [.groupBy [] [⟨.min, some (.literal (.utf8 "A")), "min('A')"⟩,
            ⟨.min, some (.literal (.utf8 "a")), "min('a')"⟩],
          .projection [.column 0, .column 0]],
        ⟨[⟨none, "min('A')"⟩, ⟨none, "min('a')"⟩]⟩) := rfl
  obtain ⟨-, hruns⟩ := run_select Schema.inMemory_family rfl rfl hparse
  obtain ⟨last, -, -, hrun⟩ := hruns _ _ hquery
  refine ⟨hparse, (congrArg (fun found => found.1.rows) hrun).trans rfl, _, rfl, rfl⟩

end Execution
end SqlPipeline
