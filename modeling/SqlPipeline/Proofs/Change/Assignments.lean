import SqlPipeline.Proofs.Change.Exact
import SqlPipeline.Proofs.Change.Selection

/-!
# The order of assignments

An UPDATE evaluates all its assignments on the row as it was and writes the values one after the
other. So the order in which assignments to different columns are written down does not matter, but
a column that is assigned twice has the value that comes last.

Orders of assignments that keep those to one column in their order (`Reordered`) are therefore
alike: on the same tables the statements fail in the same phase, or they give the same number and
leave the same tables (`Execution.update_reordered`). What fails may fail with another error, since
the first of several errors is the one that is reported.
-/

namespace SqlPipeline

open Sql (Assignment Expr ObjectName)

/-! ## Reordered lists -/

/-- Taking a step on all elements gives what the steps give, in order. -/
theorem Result.mapM_eq_ok_iff_filterMap {α β : Type} {f : α → Result β} :
    ∀ {xs : List α} {ys : List β}, xs.mapM f = .ok ys ↔
      (∀ x ∈ xs, ∃ y, f x = .ok y) ∧ ys = xs.filterMap fun x => (f x).toOption
  | [], ys => by
    rw [mapM_eq_ok_iff, List.forall₂_nil_left_iff]
    exact ⟨fun h => ⟨List.forall_mem_nil _, h⟩, fun h => h.2⟩
  | x :: xs, ys => by
    rw [List.mapM_cons, bind_eq_ok, List.forall_mem_cons, List.filterMap_cons]
    constructor
    · rintro ⟨y, hy, h⟩
      obtain ⟨rest, hrest, h⟩ := bind_eq_ok.mp h
      cases h
      obtain ⟨hall, rfl⟩ := mapM_eq_ok_iff_filterMap.mp hrest
      rw [hy]
      exact ⟨⟨⟨y, rfl⟩, hall⟩, rfl⟩
    · rintro ⟨⟨⟨y, hy⟩, hall⟩, rfl⟩
      rw [hy]
      exact ⟨y, rfl, bind_eq_ok.mpr ⟨_, mapM_eq_ok_iff_filterMap.mpr ⟨hall, rfl⟩, rfl⟩⟩

section

variable {α β : Type} {among : Nat → α → Bool} {xs ys : List α}

/-- The same elements, perhaps in another order, but those of one class in the same order. -/
structure Reordered (among : Nat → α → Bool) (xs ys : List α) : Prop where
  perm : xs.Perm ys
  kept : ∀ i, xs.filter (among i) = ys.filter (among i)

namespace Reordered

theorem symm (h : Reordered among xs ys) : Reordered among ys xs :=
  ⟨h.perm.symm, fun i => (h.kept i).symm⟩

theorem reverse (h : Reordered among xs ys) : Reordered among xs.reverse ys.reverse :=
  ⟨(List.reverse_perm xs).trans (h.perm.trans (List.reverse_perm ys).symm), fun i => by
    rw [List.filter_reverse, List.filter_reverse, h.kept]⟩

/-- Any order is a reordering if no two elements are in one class. -/
theorem of_perm (h : xs.Perm ys)
    (hdistinct : xs.Pairwise fun x y => ∀ i, among i x = true → among i y = false) :
    Reordered among xs ys := by
  refine ⟨h, fun i => ?_⟩
  have hone : (xs.filter (among i)).length ≤ 1 := by
    clear h
    induction xs with
    | nil => exact Nat.zero_le _
    | cons x rest ih =>
      obtain ⟨hfirst, hrest⟩ := List.pairwise_cons.mp hdistinct
      by_cases hx : among i x = true
      · have hnone : rest.filter (among i) = [] :=
          List.filter_eq_nil_iff.mpr fun y hy => by simp [hfirst y hy i hx]
        rw [List.filter_cons_of_pos hx, hnone]
        exact Nat.le_refl 1
      · rw [List.filter_cons_of_neg hx]
        exact ih hrest
  match hfilter : xs.filter (among i), hone with
  | [], _ => exact (List.nil_perm.mp (hfilter ▸ h.filter _)).symm
  | [x], _ => exact (List.singleton_perm.mp (hfilter ▸ h.filter _))

/-- What is made of the elements one by one is reordered with them, if it stays in their class. -/
theorem mapM {of : Nat → β → Bool} {f : α → Result β} (h : Reordered among xs ys)
    (hclass : ∀ x y, f x = .ok y → ∀ i, of i y = among i x) {made : List β}
    (hmade : xs.mapM f = .ok made) : ∃ others, ys.mapM f = .ok others ∧ Reordered of made others := by
  obtain ⟨hall, rfl⟩ := Result.mapM_eq_ok_iff_filterMap.mp hmade
  refine ⟨_, Result.mapM_eq_ok_iff_filterMap.mpr
    ⟨fun y hy => hall y (h.perm.mem_iff.mpr hy), rfl⟩, h.perm.filterMap _, fun i => ?_⟩
  have hfilter : ∀ zs : List α, (zs.filterMap fun x => (f x).toOption).filter (of i) =
      (zs.filter (among i)).filterMap fun x => (f x).toOption := by
    intro zs
    rw [List.filter_filterMap, List.filterMap_filter]
    refine List.filterMap_congr fun x _ => ?_
    cases hx : f x with
    | error error => simp [Except.toOption]
    | ok y => simp [Except.toOption, Option.filter, hclass x y hx i]
  rw [hfilter, hfilter, h.kept]

end Reordered

end

/-! ## Setting columns in another order -/

namespace Change

variable {old row changed : Row}

theorem lookup_filter (i : Nat) : ∀ pairs : List (Nat × Value),
    (pairs.filter fun pair => i == pair.1).lookup i = pairs.lookup i
  | [] => rfl
  | (j, value) :: rest => by
    rw [List.filter_cons, List.lookup_cons]
    cases h : i == j with
    | true => rw [if_pos rfl, List.lookup_cons, h]
    | false => exact lookup_filter i rest

/-- Columns can be set exactly if the row has them. -/
theorem exists_setAll_iff : ∀ {pairs : List (Nat × Value)} {row : Row},
    (∃ changed, setAll row pairs = .ok changed) ↔ ∀ pair ∈ pairs, pair.1 < row.length
  | [], row => ⟨fun _ => List.forall_mem_nil _, fun _ => ⟨row, rfl⟩⟩
  | (column, value) :: rest, row => by
    have hstep : setAll row ((column, value) :: rest) =
        setColumn row column value >>= fun next => setAll next rest := List.foldlM_cons
    rw [hstep, List.forall_mem_cons]
    unfold setColumn
    by_cases hcolumn : column < row.length
    · rw [if_pos hcolumn, Result.ok_bind, exists_setAll_iff, List.length_set]
      exact (and_iff_right hcolumn).symm
    · rw [if_neg hcolumn]
      refine iff_of_false ?_ fun h => hcolumn h.1
      rintro ⟨changed, h⟩
      cases h

/-- Values are set alike in every order that keeps those for one column in theirs. -/
theorem setAll_reordered {pairs others : List (Nat × Value)}
    (h : Reordered (fun i pair => i == pair.1) pairs others)
    (hset : setAll row pairs = .ok changed) : setAll row others = .ok changed := by
  have hcolumns : ∀ pair ∈ others, pair.1 < row.length := fun pair hpair =>
    exists_setAll_iff.mp ⟨changed, hset⟩ pair (h.perm.mem_iff.mpr hpair)
  obtain ⟨result, hresult⟩ := exists_setAll_iff.mpr hcolumns
  have hsame : result = changed := by
    refine List.ext_getElem? fun i => ?_
    rw [getElem?_setAll hset, getElem?_setAll hresult, ← lookup_filter i pairs.reverse,
      h.reverse.kept i, lookup_filter i others.reverse]
  rw [hresult, hsame]

def evaluated (old : Row) (assignment : Nat × Bound) : Result (Nat × Value) :=
  (assignment.2.eval old).map fun value => (assignment.1, value)

/-- Assignments are carried out if all can be evaluated and their values can be set. -/
theorem assign_eq_ok_iff : ∀ {assignments : List (Nat × Bound)} {row changed : Row},
    assign old assignments row = .ok changed ↔
      ∃ pairs, assignments.mapM (evaluated old) = .ok pairs ∧ setAll row pairs = .ok changed
  | [], row, changed => by
    rw [assign]
    constructor
    · exact fun h => ⟨[], rfl, h⟩
    · rintro ⟨pairs, hpairs, hset⟩
      cases hpairs
      exact hset
  | (column, expr) :: rest, row, changed => by
    rw [assign, List.mapM_cons]
    constructor
    · intro h
      obtain ⟨value, hvalue, h⟩ := Result.bind_eq_ok.mp h
      obtain ⟨next, hnext, h⟩ := Result.bind_eq_ok.mp h
      obtain ⟨pairs, hpairs, hset⟩ := assign_eq_ok_iff.mp h
      refine ⟨(column, value) :: pairs, ?_, ?_⟩
      · rw [evaluated, hvalue, hpairs]
        rfl
      · rw [setAll, List.foldlM_cons]
        exact Result.bind_eq_ok.mpr ⟨next, hnext, hset⟩
    · rintro ⟨pairs, hpairs, hset⟩
      obtain ⟨pair, hpair, h⟩ := Result.bind_eq_ok.mp hpairs
      obtain ⟨others, hothers, h⟩ := Result.bind_eq_ok.mp h
      cases h
      rw [evaluated] at hpair
      cases hvalue : expr.eval old with
      | error error => rw [hvalue] at hpair; cases hpair
      | ok value =>
        rw [hvalue] at hpair
        cases hpair
        rw [setAll, List.foldlM_cons] at hset
        obtain ⟨next, hnext, hset⟩ := Result.bind_eq_ok.mp hset
        have hrest := assign_eq_ok_iff.mpr ⟨others, hothers, hset⟩
        exact Result.bind_eq_ok.mpr ⟨value, rfl, Result.bind_eq_ok.mpr ⟨next, hnext, hrest⟩⟩

theorem assign_reordered {assignments others : List (Nat × Bound)}
    (h : Reordered (fun i assignment => i == assignment.1) assignments others)
    (hassign : assign old assignments row = .ok changed) :
    assign old others row = .ok changed := by
  obtain ⟨pairs, hpairs, hset⟩ := assign_eq_ok_iff.mp hassign
  have hcolumn : ∀ own pair, evaluated old own = .ok pair → ∀ i : Nat,
      (i == pair.1) = (i == own.1) := by
    intro own pair hown i
    rw [evaluated] at hown
    cases hvalue : own.2.eval old with
    | error error => rw [hvalue] at hown; cases hown
    | ok value => rw [hvalue] at hown; cases hown; rfl
  obtain ⟨otherPairs, hothers, hreordered⟩ := h.mapM hcolumn hpairs
  exact assign_eq_ok_iff.mpr ⟨otherPairs, hothers, setAll_reordered hreordered hset⟩

variable {assignments others : List (Nat × Bound)} {filter : Option Bound}

theorem rewrite_reordered (h : Reordered (fun i assignment => i == assignment.1) assignments others)
    {answer : Option Row} (hanswer : rewrite assignments filter row = .ok answer) :
    rewrite others filter row = .ok answer := by
  obtain ⟨selected, hselected, hanswer⟩ := Result.bind_eq_ok.mp hanswer
  refine Result.bind_eq_ok.mpr ⟨selected, hselected, ?_⟩
  cases selected with
  | false => exact hanswer
  | true =>
    obtain ⟨changed, hchanged, hanswer⟩ := Result.bind_eq_ok.mp hanswer
    exact Result.bind_eq_ok.mpr ⟨changed, assign_reordered h hchanged, hanswer⟩

end Change

namespace Table

/-- An update that gives each row what another update gives it, where that does not fail, gives the
table what the other gives it. -/
theorem updateRows_mono {definition : TableDef} {change other : Row → Result (Option Row)}
    (h : ∀ row answer, change row = .ok answer → other row = .ok answer) :
    ∀ {rows : List Row} {found : (Nat × List Row) × Unit},
      (updateRows definition (fun row => StateT.lift (change row)) rows).run () = .ok found →
      (updateRows definition (fun row => StateT.lift (other row)) rows).run () = .ok found
  | [], found, hfound => hfound
  | row :: rest, found, hfound => by
    rw [updateRows, StateT.run_bind, Result.bind_eq_ok] at hfound ⊢
    obtain ⟨⟨answer, state⟩, hask, hfound⟩ := hfound
    have hanswer := (Result.run_lift_eq_ok.mp hask).1
    refine ⟨(answer, state), Result.run_lift_eq_ok.mpr ⟨h row answer hanswer, rfl⟩, ?_⟩
    cases answer with
    | none =>
      simp only [StateT.run_bind, Result.bind_eq_ok] at hfound ⊢
      obtain ⟨pair, hrest, hfound⟩ := hfound
      exact ⟨pair, updateRows_mono h hrest, hfound⟩
    | some changed =>
      simp only [StateT.run_bind, Result.bind_eq_ok] at hfound ⊢
      obtain ⟨stored, hstored, pair, hrest, hfound⟩ := hfound
      exact ⟨stored, hstored, pair, updateRows_mono h hrest, hfound⟩

end Table

namespace Change

variable {assignments others : List (Nat × Bound)} {filter : Option Bound} {rows : List Row}
  {table left : Table} {n : Nat}

/-- An update that succeeds does so with its assignments in every order that keeps those to one
column in theirs, and makes the same of the table. -/
theorem apply_reordered (h : Reordered (fun i assignment => i == assignment.1) assignments others)
    (happly : (update assignments filter).apply rows table = (.ok n, left)) :
    (update others filter).apply rows table = (.ok n, left) := by
  simp only [apply, Table.update] at happly ⊢
  split at happly
  · cases happly
  · next count found hfound =>
    cases happly
    obtain ⟨last, hrun⟩ := Result.run'_eq_ok.mp hfound
    have hother := Table.updateRows_mono (fun row answer => rewrite_reordered h) hrun
    rw [show (Table.updateRows table.definition (Asking.each (rewrite others filter)).ask
      table.rows).run' (Asking.each (rewrite others filter)).start = .ok (n, found) from
        Result.run'_eq_ok.mpr ⟨last, hother⟩]

end Change

/-! ## Statements -/

/-- Whether an assignment is to the column at a position. -/
def Sql.Assignment.isTo (layout : Layout) (i : Nat) (assignment : Assignment) : Bool :=
  layout.resolve none assignment.column.key = .ok i

namespace ChangePlan

variable {schema : Schema} {name : ObjectName} {condition : Option Expr}
  {assignments others : List Assignment} {plan : ChangePlan}

/-- An assignment is bound to the column it is to. -/
theorem isTo_of_assignment {layout : Layout} {assignment : Assignment} {bound : Nat × Bound}
    (h : Compiling.assignment layout assignment = .ok bound) (i : Nat) :
    (i == bound.1) = assignment.isTo layout i := by
  obtain ⟨column, hcolumn, h⟩ := Result.bind_eq_ok.mp h
  obtain ⟨value, -, h⟩ := Result.bind_eq_ok.mp h
  cases h
  rw [Sql.Assignment.isTo, hcolumn, Bool.eq_iff_iff, beq_iff_eq, decide_eq_true_iff]
  exact ⟨fun hsame => by rw [hsame], fun hsame => (Except.ok.inj hsame).symm⟩

/-- An UPDATE that can be planned can be planned with its assignments in another order, and what
the plan makes of a table is what the other makes of it. -/
theorem ofUpdate_reordered
    (h : ∀ found, schema.resolve name = .ok found →
      Reordered (Assignment.isTo (name.layout found.definition)) assignments others)
    (hplan : ofUpdate schema ⟨name, assignments, condition⟩ = .ok plan) :
    ∃ other, ofUpdate schema ⟨name, others, condition⟩ = .ok other ∧ other.table = plan.table ∧
      ∀ table n left, plan.change.apply plan.rows table = (.ok n, left) →
        other.change.apply other.rows table = (.ok n, left) := by
  obtain ⟨found, hfound, hplan⟩ := Result.bind_eq_ok.mp hplan
  obtain ⟨filter, hfilter, hplan⟩ := Result.bind_eq_ok.mp hplan
  obtain ⟨bound, hbound, hplan⟩ := Result.bind_eq_ok.mp hplan
  cases hplan
  obtain ⟨otherBound, hothers, hreordered⟩ :=
    (h found hfound).mapM (fun _ _ => isTo_of_assignment) hbound
  refine ⟨⟨found, .update otherBound filter, []⟩, ?_, rfl,
    fun table n left => Change.apply_reordered hreordered⟩
  exact Result.bind_eq_ok.mpr ⟨found, hfound, Result.bind_eq_ok.mpr ⟨filter, hfilter,
    Result.bind_eq_ok.mpr ⟨otherBound, hothers, rfl⟩⟩⟩

end ChangePlan

namespace Execution

variable {config : Config} {schema : Schema} {raw : String} {statement : Sql.Statement}
  {name : ObjectName}

/-- The ways in which the execution of a statement that changes a table ends: it cannot be planned,
the change fails, or the change is made. -/
inductive Changes (schema : Schema) (statement : Sql.Statement) : Execution × World → Prop
  | compile {error : Error} {last : World}
    (hplan : ChangePlan.ofStatement schema statement = .error error)
    (hlast : last.schema = some schema) :
    Changes schema statement (⟨.compile, none, none, none, some (.error error)⟩, last)
  | run {plan : ChangePlan} {table : Table} {error : Error} {root : Option Task}
    {state : Option JobState} {last : World}
    (hplan : ChangePlan.ofStatement schema statement = .ok plan)
    (htable : schema.get? plan.table.key = some table)
    (happly : (plan.change.apply plan.rows table).1 = .error error)
    (hlast : last.schema = some schema) :
    Changes schema statement (⟨.run, root, state, none, some (.error error)⟩, last)
  | done {plan : ChangePlan} {table left : Table} {n : Nat} {root : Option Task} {last : World}
    (hplan : ChangePlan.ofStatement schema statement = .ok plan)
    (htable : schema.get? plan.table.key = some table)
    (happly : plan.change.apply plan.rows table = (.ok n, left))
    (hlast : last.schema = some (schema.put plan.table.key left)) :
    Changes schema statement
      (⟨.done, root, some .finished, some [[Value.count n]], none⟩, last)

theorem changes_ofText (hschema : schema.InMemory)
    (hparse : Compiling.parse raw = .ok statement) (htarget : statement.target? = some name) :
    Changes schema statement (ofText config schema raw) := by
  obtain ⟨hfails, hruns⟩ :=
    @run_change ⟨raw, config, .inMemory, none⟩ _ _ _ hschema rfl rfl hparse htarget
  cases hplan : ChangePlan.ofStatement schema statement with
  | error error =>
    obtain ⟨last, hlast, hrun⟩ := hfails error hplan
    rw [ofText, hrun]
    exact .compile hplan hlast
  | ok plan =>
    obtain ⟨-, table, htable, -, hstands⟩ := ChangePlan.exists_stands htarget hplan
    obtain ⟨last, hlast, hrun⟩ := hruns plan table hplan htable hstands
    rw [ofText, hrun]
    rcases happly : plan.change.apply plan.rows table with ⟨result, left⟩
    rw [happly] at hlast
    cases result with
    | error error =>
      -- the change was not made, so the table is set to itself
      dsimp only at hlast
      rw [Change.apply_of_error happly, Schema.put_get? htable] at hlast
      exact .run hplan htable (congrArg Prod.fst happly) hlast
    | ok n => exact .done hplan htable happly hlast

/-- The change is made if it can be planned and does not fail. -/
theorem Changes.of_apply {outcome : Execution × World} {plan : ChangePlan} {table left : Table}
    {n : Nat} (h : Changes schema statement outcome)
    (hplan : ChangePlan.ofStatement schema statement = .ok plan)
    (htable : schema.get? plan.table.key = some table)
    (happly : plan.change.apply plan.rows table = (.ok n, left)) :
    outcome.1.phase = .done ∧ outcome.1.failure = none ∧
      outcome.1.rows = some [[Value.count n]] ∧
      outcome.2.schema = some (schema.put plan.table.key left) := by
  cases h with
  | compile hplan' _ => cases hplan.symm.trans hplan'
  | run hplan' htable' happly' _ =>
    cases hplan.symm.trans hplan'
    cases htable.symm.trans htable'
    rw [happly] at happly'
    cases happly'
  | done hplan' htable' happly' hlast =>
    cases hplan.symm.trans hplan'
    cases htable.symm.trans htable'
    cases happly.symm.trans happly'
    exact ⟨rfl, rfl, rfl, hlast⟩

/-- **The order of assignments to different columns does not matter.** Execute an UPDATE on tables
in memory, and again with its assignments in another order in which those to one column stay in
their order. Both fail in the same phase and leave all tables as they were, or both give the same
number and leave the same tables. -/
theorem update_reordered {other : String} {condition : Option Expr}
    {assignments others : List Assignment} (hschema : schema.InMemory)
    (hparse : Compiling.parse raw = .ok (.update ⟨name, assignments, condition⟩))
    (hother : Compiling.parse other = .ok (.update ⟨name, others, condition⟩))
    (horder : ∀ found, schema.resolve name = .ok found →
      Reordered (Assignment.isTo (name.layout found.definition)) assignments others) :
    let (first, afterFirst) := ofText config schema raw
    let (second, afterSecond) := ofText config schema other
    second.phase = first.phase ∧ (second.failure = none ↔ first.failure = none) ∧
      second.rows = first.rows ∧ afterSecond.schema = afterFirst.schema ∧
      (first.failure ≠ none → afterFirst.schema = some schema) := by
  have hfirst : Changes schema _ (ofText config schema raw) := changes_ofText hschema hparse rfl
  have hsecond : Changes schema _ (ofText config schema other) := changes_ofText hschema hother rfl
  have hforth {plan} := @ChangePlan.ofUpdate_reordered schema name condition _ _ plan horder
  have hback {plan} := @ChangePlan.ofUpdate_reordered schema name condition _ _ plan
    fun found hfound => (horder found hfound).symm
  generalize ofText config schema raw = first at hfirst
  generalize ofText config schema other = second at hsecond
  cases hfirst with
  | compile hplan hlast =>
    cases hsecond with
    | compile _ hlast' =>
      exact ⟨rfl, iff_of_false nofun nofun, rfl, hlast'.trans hlast.symm, fun _ => hlast⟩
    | run hplan' _ _ _ | done hplan' _ _ _ =>
      obtain ⟨plan, hok, -⟩ := hback hplan'
      cases hplan.symm.trans hok
  | run hplan htable happly hlast =>
    obtain ⟨plan', hok, hsame, -⟩ := hforth hplan
    cases hsecond with
    | compile hplan' _ => cases hok.symm.trans hplan'
    | run _ _ _ hlast' =>
      exact ⟨rfl, iff_of_false nofun nofun, rfl, hlast'.trans hlast.symm, fun _ => hlast⟩
    | done hplan' htable' happly' _ =>
      -- the change would have been made in the first order as well
      obtain ⟨plan, hok', hsame', hmade⟩ := hback hplan'
      cases hplan.symm.trans hok'
      rw [hsame'] at htable
      cases htable.symm.trans htable'
      rw [hmade _ _ _ happly'] at happly
      cases happly
  | done hplan htable happly hlast =>
    obtain ⟨plan', hok, hsame, hmade⟩ := hforth hplan
    rw [← hsame] at htable hlast
    obtain ⟨hphase, hfailure, hrows, hlast'⟩ := hsecond.of_apply hok htable (hmade _ _ _ happly)
    exact ⟨hphase, iff_of_true hfailure rfl, hrows, hlast'.trans hlast.symm,
      fun hfails => absurd rfl hfails⟩

/-- The people of `Schema.family`, with other rows. -/
def peopleWith (rows : List Row) : Table :=
  ⟨⟨"people", [⟨"id", .int64⟩, ⟨"name", .utf8⟩]⟩, .readWrite, rows⟩

/-- An update of all the people, or of those with a given number. -/
def setPeople (assignments : List Assignment) (id : Option String) : Sql.Statement :=
  .update ⟨⟨[⟨"people", false⟩]⟩, assignments,
    id.map fun digits => .binary (.ident ⟨"id", false⟩) .eq (.literal (.number digits))⟩

def toId : Assignment := ⟨⟨"id", false⟩, .literal (.number "7")⟩

def toName : Assignment := ⟨⟨"name", false⟩, .ident ⟨"id", false⟩⟩

/-- An assignment to a column and one that reads it, in both orders. -/
theorem update_reordered_family :
    let (first, afterFirst) :=
      ofText .default .family "UPDATE people SET id = 7, name = id WHERE id = 2"
    let (second, afterSecond) :=
      ofText .default .family "UPDATE people SET name = id, id = 7 WHERE id = 2"
    first.failure = none ∧ second.failure = none ∧ first.rows = some [[.int 1]] ∧
      second.rows = some [[.int 1]] ∧ afterSecond.schema = afterFirst.schema ∧
      afterFirst.schema = some (Schema.family.put "people"
        (peopleWith [[.int 1, .utf8 "ann"], [.int 7, .utf8 "2"]])) := by
  have hparse : Compiling.parse "UPDATE people SET id = 7, name = id WHERE id = 2" =
      .ok (setPeople [toId, toName] (some "2")) :=
    Sql.Script.eq_ok_of_toOption (by decide +kernel)
  have hother : Compiling.parse "UPDATE people SET name = id, id = 7 WHERE id = 2" =
      .ok (setPeople [toName, toId] (some "2")) :=
    Sql.Script.eq_ok_of_toOption (by decide +kernel)
  have horder : ∀ found, Schema.family.resolve ⟨[⟨"people", false⟩]⟩ = .ok found →
      Reordered (Assignment.isTo (ObjectName.layout ⟨[⟨"people", false⟩]⟩ found.definition))
        [toId, toName] [toName, toId] := by
    intro found hfound
    cases hfound
    refine .of_perm (List.Perm.swap _ _ _) (List.pairwise_pair.mpr fun i hi => ?_)
    obtain rfl : 0 = i := Except.ok.inj (of_decide_eq_true hi)
    rfl
  have hplan : ChangePlan.ofStatement .family (setPeople [toId, toName] (some "2")) =
      .ok ⟨⟨"people", (peopleWith []).definition⟩,
        .update [(0, .literal (.int 7)), (1, .column 0)]
          (some (.binary (.column 0) .eq (.literal (.int 2)))), []⟩ := rfl
  have hchanges : Changes .family (setPeople [toId, toName] (some "2"))
      (ofText .default .family "UPDATE people SET id = 7, name = id WHERE id = 2") :=
    changes_ofText Schema.inMemory_family hparse rfl
  obtain ⟨-, hfailure, hrows, hafter⟩ := hchanges.of_apply hplan rfl rfl
  obtain ⟨-, hsame, hrows', hafter', -⟩ :=
    @update_reordered .default _ _ _ _ _ _ _ Schema.inMemory_family hparse hother horder
  exact ⟨hfailure, hsame.mpr hfailure, hrows, hrows'.trans hrows, hafter', hafter⟩

def toText (value : String) : Assignment := ⟨⟨"name", false⟩, .literal (.string value)⟩

/-- Two assignments to one column leave what the last of them gives, so that their order shows. -/
theorem update_repeated_column :
    let (first, afterFirst) :=
      ofText .default .family "UPDATE people SET name = 'x', name = 'y'"
    let (second, afterSecond) :=
      ofText .default .family "UPDATE people SET name = 'y', name = 'x'"
    first.failure = none ∧ second.failure = none ∧
      afterFirst.schema = some (Schema.family.put "people"
        (peopleWith [[.int 1, .utf8 "y"], [.int 2, .utf8 "y"]])) ∧
      afterSecond.schema = some (Schema.family.put "people"
        (peopleWith [[.int 1, .utf8 "x"], [.int 2, .utf8 "x"]])) := by
  have hfirst : Compiling.parse "UPDATE people SET name = 'x', name = 'y'" =
      .ok (setPeople [toText "x", toText "y"] none) :=
    Sql.Script.eq_ok_of_toOption (by decide +kernel)
  have hsecond : Compiling.parse "UPDATE people SET name = 'y', name = 'x'" =
      .ok (setPeople [toText "y", toText "x"] none) :=
    Sql.Script.eq_ok_of_toOption (by decide +kernel)
  have hplan : ChangePlan.ofStatement .family (setPeople [toText "x", toText "y"] none) =
      .ok ⟨⟨"people", (peopleWith []).definition⟩,
        .update [(1, .literal (.utf8 "x")), (1, .literal (.utf8 "y"))] none, []⟩ := rfl
  have hplan' : ChangePlan.ofStatement .family (setPeople [toText "y", toText "x"] none) =
      .ok ⟨⟨"people", (peopleWith []).definition⟩,
        .update [(1, .literal (.utf8 "y")), (1, .literal (.utf8 "x"))] none, []⟩ := rfl
  have hchanges : Changes .family (setPeople [toText "x", toText "y"] none)
      (ofText .default .family "UPDATE people SET name = 'x', name = 'y'") :=
    changes_ofText Schema.inMemory_family hfirst rfl
  have hchanges' : Changes .family (setPeople [toText "y", toText "x"] none)
      (ofText .default .family "UPDATE people SET name = 'y', name = 'x'") :=
    changes_ofText Schema.inMemory_family hsecond rfl
  obtain ⟨-, hfailure, -, hafter⟩ := hchanges.of_apply hplan rfl rfl
  obtain ⟨-, hfailure', -, hafter'⟩ := hchanges'.of_apply hplan' rfl rfl
  exact ⟨hfailure, hfailure', hafter, hafter'⟩

end Execution
end SqlPipeline
