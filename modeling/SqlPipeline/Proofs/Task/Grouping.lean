import Mathlib.Data.List.Induction
import SqlPipeline.Job.Statement
import SqlPipeline.Proofs.Task.Flow

/-!
# Grouping

A grouping task keeps all groups at once: each row is taken into the group of its key, between rows
of other groups. What it comes to is what each group comes to alone. There is one row per key, in
the order in which the keys first appear, and it holds the key and what each aggregate comes to over
the rows of that key, taken in one after the other from a fresh state (`Task.collect_groupBy`).

The invariant is `Grouping.Holds`: after some rows, the groups are those of the rows so far. One row
keeps it (`Grouping.holds_concat_iff`), and so do all rows (`Grouping.foldlM_eq_ok_iff`), backwards
as well as forwards, so that the task fails only if a key or the state of a group cannot be found.
-/

namespace SqlPipeline

variable {keys : List Bound} {aggregates : List Aggregate} {rows : List Row} {row key : Row}

/-! ## One aggregate over rows -/

namespace Aggregate

def accumulate (aggregate : Aggregate) (rows : List Row) : Result Accumulator :=
  rows.foldlM aggregate.addRow aggregate.start

/-- What an aggregate comes to over rows. -/
def valueOver (aggregate : Aggregate) (rows : List Row) : Result Value :=
  (aggregate.accumulate rows).map Accumulator.finish

theorem accumulate_concat (aggregate : Aggregate) (rows : List Row) (row : Row) :
    aggregate.accumulate (rows ++ [row]) =
      aggregate.accumulate rows >>= fun acc => aggregate.addRow acc row := by
  simp only [accumulate, List.foldlM_append, List.foldlM_cons, List.foldlM_nil, bind_pure]

end Aggregate

/-! ## The groups of rows -/

namespace Grouping

/-- The key of a row, unless finding it fails. -/
def key? (keys : List Bound) (row : Row) : Option Row :=
  (Bound.evalAll row keys).toOption

def rowsOf (keys : List Bound) (rows : List Row) (key : Row) : List Row :=
  rows.filter fun row => key? keys row = some key

/-- The keys of rows in order of first appearance. Without expressions to group by, the empty key is
there before any row. -/
def keysOf (keys : List Bound) (rows : List Row) : List Row :=
  ((if keys.isEmpty then [[]] else []) ++ rows.filterMap (key? keys)).eraseDups

theorem key?_eq_some_iff : key? keys row = some key ↔ Bound.evalAll row keys = .ok key := by
  unfold key?
  cases Bound.evalAll row keys <;> simp [Except.toOption]

theorem key?_eq_none_iff :
    key? keys row = none ↔ ∃ error, Bound.evalAll row keys = .error error := by
  unfold key?
  cases Bound.evalAll row keys <;> simp [Except.toOption]

/-! ### Keys and rows when one more row comes -/

theorem nodup_keysOf (keys : List Bound) (rows : List Row) : (keysOf keys rows).Nodup :=
  nodup_eraseDups _

/-- A key is there if a row has it, or from the start. -/
theorem mem_keysOf : key ∈ keysOf keys rows ↔
    (keys = [] ∧ key = []) ∨ ∃ row ∈ rows, key? keys row = some key := by
  rw [keysOf, List.mem_eraseDups, List.mem_append, List.mem_filterMap]
  cases keys <;> simp

/-- Without expressions to group by, there is one key. -/
theorem keysOf_nil (rows : List Row) : keysOf [] rows = [[]] := by
  have hmem : ∀ key, key ∈ keysOf [] rows ↔ key = [] := by
    intro key
    rw [mem_keysOf]
    constructor
    · rintro (⟨-, rfl⟩ | ⟨row, -, hkey⟩)
      · rfl
      · exact ((Option.some.inj hkey).symm : key = [])
    · exact fun hkey => Or.inl ⟨rfl, hkey⟩
  have hnodup := nodup_keysOf [] rows
  match hkeys : keysOf [] rows with
  | [] => exact absurd ((hmem []).mpr rfl) (by simp [hkeys])
  | [key] => rw [(hmem key).mp (by simp [hkeys])]
  | first :: second :: rest =>
    have hfirst : first = [] := (hmem first).mp (by simp [hkeys])
    have hsecond : second = [] := (hmem second).mp (by simp [hkeys])
    simp [hkeys, hfirst, hsecond] at hnodup

/-- A key is added at the end by the first row that has it. -/
theorem keysOf_concat (hkey : key? keys row = some key) :
    keysOf keys (rows ++ [row]) =
      if key ∈ keysOf keys rows then keysOf keys rows else keysOf keys rows ++ [key] := by
  have hfound : [row].filterMap (key? keys) = [key] := by simp [hkey]
  unfold keysOf
  rw [List.filterMap_append, hfound, ← List.append_assoc, List.eraseDups_append]
  generalize (if keys.isEmpty then [[]] else []) ++ rows.filterMap (key? keys) = before
  by_cases hmem : key ∈ before
  · simp [List.removeAll, hmem]
  · simp [List.removeAll, hmem, List.eraseDups_cons]

theorem rowsOf_concat_self (hkey : key? keys row = some key) :
    rowsOf keys (rows ++ [row]) key = rowsOf keys rows key ++ [row] := by
  simp [rowsOf, hkey]

theorem rowsOf_concat_other {other : Row} (h : key? keys row ≠ some other) :
    rowsOf keys (rows ++ [row]) other = rowsOf keys rows other := by
  simp [rowsOf, h]

/-- Without rows, a key that is not there has no rows. -/
theorem rowsOf_eq_nil (h : key ∉ keysOf keys rows) : rowsOf keys rows key = [] := by
  rw [rowsOf, List.filter_eq_nil_iff]
  intro row hrow hkey
  exact h (mem_keysOf.mpr (Or.inr ⟨row, hrow, of_decide_eq_true hkey⟩))

/-! ## What a group holds -/

/-- The states of aggregates that took in rows. -/
def Accumulated (aggregates : List Aggregate) (rows : List Row) (accs : List Accumulator) : Prop :=
  List.Forall₂ (fun aggregate acc => aggregate.accumulate rows = .ok acc) aggregates accs

theorem Accumulated.unique {accs others : List Accumulator} (h : Accumulated aggregates rows accs)
    (hothers : Accumulated aggregates rows others) : accs = others := by
  refine List.right_unique_forall₂' (fun aggregate acc other hacc hother => ?_) h hothers
  exact Except.ok.inj (hacc.symm.trans hother)

/-- Before any row, the states are those of the start. -/
theorem accumulated_nil {accs : List Accumulator} :
    Accumulated aggregates [] accs ↔ accs = Stage.startAll aggregates := by
  have hstart : Accumulated aggregates [] (Stage.startAll aggregates) :=
    List.forall₂_map_right_iff.mpr (List.forall₂_same.mpr fun _ _ => rfl)
  exact ⟨fun h => h.unique hstart, fun h => h ▸ hstart⟩

/-- Taking a row into all states takes it into each. -/
theorem addRow_eq_ok_iff {aggregates : List Aggregate} {accs next : List Accumulator}
    (h : Accumulated aggregates rows accs) :
    Stage.addRow row aggregates accs = .ok next ↔ Accumulated aggregates (rows ++ [row]) next := by
  induction h generalizing next with
  | nil =>
    rw [Accumulated, List.forall₂_nil_left_iff]
    exact ⟨fun h => (Except.ok.inj h).symm, fun h => congrArg Except.ok h.symm⟩
  | @cons aggregate acc aggregates accs hacc _ ih =>
    have hstate : aggregate.accumulate (rows ++ [row]) = aggregate.addRow acc row := by
      rw [aggregate.accumulate_concat, hacc, Result.ok_bind]
    rw [Stage.addRow, Accumulated, List.forall₂_cons_left_iff, Result.bind_eq_ok]
    constructor
    · rintro ⟨first, hfirst, hrest⟩
      obtain ⟨rest, hrest', heq⟩ := Result.bind_eq_ok.mp hrest
      cases heq
      exact ⟨first, rest, hstate.trans hfirst, ih.mp hrest', rfl⟩
    · rintro ⟨first, rest, hfirst, hrest, rfl⟩
      exact ⟨first, hstate.symm.trans hfirst, Result.bind_eq_ok.mpr ⟨rest, ih.mpr hrest, rfl⟩⟩

/-- States that took in one more row took in those before. -/
theorem Accumulated.before {aggregates : List Aggregate} {accs : List Accumulator}
    (h : Accumulated aggregates (rows ++ [row]) accs) :
    ∃ before, Accumulated aggregates rows before := by
  induction h with
  | nil => exact ⟨[], .nil⟩
  | @cons aggregate acc aggregates accs hacc _ ih =>
    obtain ⟨before, hbefore⟩ := ih
    rw [aggregate.accumulate_concat] at hacc
    obtain ⟨first, hfirst, -⟩ := Result.bind_eq_ok.mp hacc
    exact ⟨first :: before, .cons hfirst hbefore⟩

/-- A group has a key and the states of the aggregates over the rows of that key. -/
def IsGroup (keys : List Bound) (aggregates : List Aggregate) (rows : List Row) (key : Row)
    (group : Stage.Group) : Prop :=
  group.1 = key ∧ Accumulated aggregates (rowsOf keys rows key) group.2

theorem IsGroup.unique {group other : Stage.Group} (h : IsGroup keys aggregates rows key group)
    (hother : IsGroup keys aggregates rows key other) : group = other :=
  Prod.ext (h.1.trans hother.1.symm) (h.2.unique hother.2)

/-- A row makes no difference to the group of another key. -/
theorem isGroup_concat_other {other : Row} {group : Stage.Group}
    (h : key? keys row ≠ some other) :
    IsGroup keys aggregates (rows ++ [row]) other group ↔
      IsGroup keys aggregates rows other group := by
  rw [IsGroup, IsGroup, rowsOf_concat_other h]

/-- The group of the key of a row takes in the row. -/
theorem isGroup_concat_self {accs next : List Accumulator} (hkey : key? keys row = some key)
    (h : Accumulated aggregates (rowsOf keys rows key) accs) :
    IsGroup keys aggregates (rows ++ [row]) key (key, next) ↔
      Stage.addRow row aggregates accs = .ok next := by
  rw [IsGroup, rowsOf_concat_self hkey, addRow_eq_ok_iff h]
  exact and_iff_right rfl

/-- The groups of given keys. -/
abbrev AreGroups (keys : List Bound) (aggregates : List Aggregate) (rows held : List Row)
    (groups : List Stage.Group) : Prop :=
  List.Forall₂ (IsGroup keys aggregates rows) held groups

theorem areGroups_iff_eq {held : List Row} {groups others : List Stage.Group}
    (h : AreGroups keys aggregates rows held groups) :
    AreGroups keys aggregates rows held others ↔ others = groups :=
  ⟨fun hothers => List.right_unique_forall₂' (fun _ _ _ h h' => h.unique h') hothers h,
    fun heq => heq ▸ h⟩

theorem areGroups_concat_others {held : List Row} {groups : List Stage.Group}
    (hkey : key? keys row = some key) (hnotMem : key ∉ held) :
    AreGroups keys aggregates (rows ++ [row]) held groups ↔
      AreGroups keys aggregates rows held groups := by
  induction held generalizing groups with
  | nil => simp [AreGroups]
  | cons other held ih =>
    obtain ⟨hother, hnotMem⟩ := not_or.mp (mt List.mem_cons.mpr hnotMem)
    have hne : key? keys row ≠ some other := fun h => hother (Option.some.inj (hkey.symm.trans h))
    rw [AreGroups, AreGroups, List.forall₂_cons_left_iff, List.forall₂_cons_left_iff]
    simp only [isGroup_concat_other hne, ih hnotMem]

/-- A row is taken into the group of its key, and into no other: into one that is there, or into a
new one at the end. -/
theorem addToGroup_eq_ok_iff {held : List Row} {groups next : List Stage.Group}
    (hkey : key? keys row = some key) (hnodup : held.Nodup)
    (hnew : key ∉ held → rowsOf keys rows key = [])
    (h : AreGroups keys aggregates rows held groups) :
    Stage.addToGroup aggregates key row groups = .ok next ↔
      AreGroups keys aggregates (rows ++ [row])
        (if key ∈ held then held else held ++ [key]) next := by
  induction h generalizing next with
  | nil =>
    have hstart : Accumulated aggregates (rowsOf keys rows key) (Stage.startAll aggregates) := by
      rw [hnew List.not_mem_nil]
      exact accumulated_nil.mpr rfl
    rw [if_neg List.not_mem_nil, List.nil_append, AreGroups, List.forall₂_cons_left_iff,
      Stage.addToGroup, Result.bind_eq_ok]
    constructor
    · rintro ⟨accs, haccs, heq⟩
      cases heq
      exact ⟨(key, accs), [], (isGroup_concat_self hkey hstart).mpr haccs, .nil, rfl⟩
    · rintro ⟨⟨own, accs⟩, rest, hgroup, hrest, rfl⟩
      cases hrest
      obtain rfl : own = key := hgroup.1
      exact ⟨accs, (isGroup_concat_self hkey hstart).mp hgroup, rfl⟩
  | @cons first group held groups hgroup hgroups ih =>
    obtain ⟨own, accs⟩ := group
    obtain rfl : own = first := hgroup.1
    obtain ⟨hnotMem, hnodup⟩ := List.nodup_cons.mp hnodup
    rw [Stage.addToGroup]
    dsimp only
    split
    · -- the group is found, and those behind it are of other keys
      next hown =>
      subst hown
      rw [if_pos List.mem_cons_self, AreGroups, List.forall₂_cons_left_iff, Result.bind_eq_ok]
      constructor
      · rintro ⟨accs', haccs, heq⟩
        cases heq
        exact ⟨(own, accs'), groups, (isGroup_concat_self hkey hgroup.2).mpr haccs,
          (areGroups_concat_others hkey hnotMem).mpr hgroups, rfl⟩
      · rintro ⟨⟨own', accs'⟩, rest, hgroup', hrest, rfl⟩
        obtain rfl : own' = own := hgroup'.1
        have hsame := (areGroups_concat_others hkey hnotMem).mp hrest
        obtain rfl := (areGroups_iff_eq hgroups).mp hsame
        exact ⟨accs', (isGroup_concat_self hkey hgroup.2).mp hgroup', rfl⟩
    · next hown =>
      have hne : key? keys row ≠ some own := fun h => hown (Option.some.inj (h.symm.trans hkey))
      have hheld : (if key ∈ own :: held then own :: held else own :: held ++ [key]) =
          own :: if key ∈ held then held else held ++ [key] := by
        have hmem : key ∈ own :: held ↔ key ∈ held := by simp [Ne.symm hown]
        simp only [hmem]
        split <;> rfl
      have hnewHeld : key ∉ held → rowsOf keys rows key = [] := fun h =>
        hnew (List.not_mem_cons_of_ne_of_not_mem (Ne.symm hown) h)
      rw [hheld, AreGroups, List.forall₂_cons_left_iff, Result.bind_eq_ok]
      constructor
      · rintro ⟨rest, hrest, heq⟩
        cases heq
        exact ⟨(own, accs), rest, (isGroup_concat_other hne).mpr hgroup,
          (ih hnodup hnewHeld).mp hrest, rfl⟩
      · rintro ⟨group', rest, hgroup', hrest, rfl⟩
        obtain rfl := ((isGroup_concat_other hne).mp hgroup').unique hgroup
        exact ⟨rest, (ih hnodup hnewHeld).mpr hrest, rfl⟩

/-! ## All rows -/

/-- What the groups are after some rows: each row has a key, and there is one group per key. -/
structure Holds (keys : List Bound) (aggregates : List Aggregate) (rows : List Row)
    (groups : List Stage.Group) : Prop where
  keyed : ∀ row ∈ rows, ∃ key, key? keys row = some key
  groups : AreGroups keys aggregates rows (keysOf keys rows) groups

abbrev step (keys : List Bound) (aggregates : List Aggregate) (groups : List Stage.Group)
    (row : Row) : Result (List Stage.Group) :=
  ((Stage.groupBy keys aggregates).step groups row).2

theorem holds_start : Holds keys aggregates [] (Stage.groupBy keys aggregates).start := by
  refine ⟨(fun row hrow => by cases hrow), ?_⟩
  unfold keysOf Stage.groupBy
  dsimp only
  split
  · exact .cons ⟨rfl, accumulated_nil.mpr rfl⟩ .nil
  · exact .nil

/-- **One row keeps the groups right.** -/
theorem holds_concat_iff {groups next : List Stage.Group} (h : Holds keys aggregates rows groups) :
    step keys aggregates groups row = .ok next ↔ Holds keys aggregates (rows ++ [row]) next := by
  have hadd : ∀ key, key? keys row = some key →
      (Stage.addToGroup aggregates key row groups = .ok next ↔
        AreGroups keys aggregates (rows ++ [row]) (keysOf keys (rows ++ [row])) next) := by
    intro key hkey
    rw [keysOf_concat hkey]
    exact addToGroup_eq_ok_iff hkey (nodup_keysOf keys rows) rowsOf_eq_nil h.groups
  have hstep : step keys aggregates groups row =
      Bound.evalAll row keys >>= fun key => Stage.addToGroup aggregates key row groups := rfl
  rw [hstep, Result.bind_eq_ok]
  constructor
  · rintro ⟨key, hkey, hnext⟩
    have hkey := key?_eq_some_iff.mpr hkey
    refine ⟨fun other hother => ?_, (hadd key hkey).mp hnext⟩
    rcases List.mem_append.mp hother with hother | hother
    · exact h.keyed other hother
    · exact ⟨key, List.mem_singleton.mp hother ▸ hkey⟩
  · intro hnext
    obtain ⟨key, hkey⟩ := hnext.keyed row (by simp)
    exact ⟨key, key?_eq_some_iff.mp hkey, (hadd key hkey).mpr hnext.groups⟩

/-- If there are groups after one more row, there are groups before it. -/
theorem Holds.before {groups : List Stage.Group}
    (h : Holds keys aggregates (rows ++ [row]) groups) :
    ∃ before, Holds keys aggregates rows before := by
  have hgroup : ∀ key ∈ keysOf keys rows, ∃ group, IsGroup keys aggregates rows key group := by
    intro key hkey
    have hmem : key ∈ keysOf keys (rows ++ [row]) := by
      rw [mem_keysOf] at hkey ⊢
      exact hkey.imp_right fun ⟨other, hother, h⟩ => ⟨other, List.mem_append_left _ hother, h⟩
    obtain ⟨⟨own, accs⟩, hown, haccs⟩ := exists_forall₂_iff.mp ⟨_, h.groups⟩ key hmem
    by_cases hrow : key? keys row = some key
    · obtain ⟨before, hbefore⟩ := Accumulated.before (rowsOf_concat_self hrow ▸ haccs)
      exact ⟨(key, before), rfl, hbefore⟩
    · exact ⟨(own, accs), hown, rowsOf_concat_other hrow ▸ haccs⟩
  obtain ⟨before, hbefore⟩ := exists_forall₂_iff.mpr hgroup
  exact ⟨before, fun other hother => h.keyed other (List.mem_append_left _ hother), hbefore⟩

/-- **All rows keep the groups right,** and if there are right groups, grouping finds them. -/
theorem foldlM_eq_ok_iff {groups : List Stage.Group} :
    rows.foldlM (step keys aggregates) (Stage.groupBy keys aggregates).start = .ok groups ↔
      Holds keys aggregates rows groups := by
  induction rows using List.reverseRecOn generalizing groups with
  | nil =>
    have hstart : Holds keys aggregates [] (Stage.groupBy keys aggregates).start := holds_start
    rw [List.foldlM_nil]
    exact ⟨fun h => Except.ok.inj h ▸ hstart,
      fun h => congrArg Except.ok ((areGroups_iff_eq h.groups).mp hstart.groups)⟩
  | append_singleton rows row ih =>
    rw [List.foldlM_append, Result.bind_eq_ok]
    simp only [List.foldlM_cons, List.foldlM_nil, bind_pure]
    constructor
    · rintro ⟨before, hbefore, hstep⟩
      exact (holds_concat_iff (ih.mp hbefore)).mp hstep
    · intro h
      obtain ⟨before, hbefore⟩ := h.before
      exact ⟨before, ih.mpr hbefore, (holds_concat_iff hbefore).mpr h⟩

/-- What comes out for a key: the key and what the aggregates come to over its rows. -/
def Gives (keys : List Bound) (aggregates : List Aggregate) (rows : List Row) (key out : Row) :
    Prop :=
  ∃ values, List.Forall₂
      (fun aggregate value => aggregate.valueOver (rowsOf keys rows key) = .ok value)
        aggregates values ∧
    out = key ++ values

theorem IsGroup.gives {group : Stage.Group} (h : IsGroup keys aggregates rows key group) :
    Gives keys aggregates rows key (group.1 ++ group.2.map Accumulator.finish) := by
  refine ⟨group.2.map Accumulator.finish, ?_, by rw [h.1]⟩
  refine List.forall₂_map_right_iff.mpr (h.2.imp fun aggregate acc hacc => ?_)
  rw [Aggregate.valueOver, hacc]
  rfl

/-- There are groups exactly if no key and no aggregate over the rows of a key fails. -/
theorem exists_holds_iff : (∃ groups, Holds keys aggregates rows groups) ↔
    ¬((∃ row ∈ rows, ∃ error, Bound.evalAll row keys = .error error) ∨
      ∃ key ∈ keysOf keys rows, ∃ aggregate ∈ aggregates, ∃ error,
        aggregate.valueOver (rowsOf keys rows key) = .error error) := by
  have hkeyed : (∀ row ∈ rows, ∃ key, key? keys row = some key) ↔
      ¬∃ row ∈ rows, ∃ error, Bound.evalAll row keys = .error error := by
    simp only [← key?_eq_none_iff, not_exists, not_and, ← ne_eq, Option.ne_none_iff_exists']
  have hover : ∀ (aggregate : Aggregate) (key : Row),
      (∃ acc, aggregate.accumulate (rowsOf keys rows key) = .ok acc) ↔
        ¬∃ error, aggregate.valueOver (rowsOf keys rows key) = .error error := by
    intro aggregate key
    unfold Aggregate.valueOver
    cases aggregate.accumulate (rowsOf keys rows key) <;> simp [Except.map]
  have hgroups : (∃ groups, AreGroups keys aggregates rows (keysOf keys rows) groups) ↔
      ¬∃ key ∈ keysOf keys rows, ∃ aggregate ∈ aggregates, ∃ error,
        aggregate.valueOver (rowsOf keys rows key) = .error error := by
    have hgroup : ∀ key, (∃ group, IsGroup keys aggregates rows key group) ↔
        ∀ aggregate ∈ aggregates, ∃ acc,
          aggregate.accumulate (rowsOf keys rows key) = .ok acc := by
      intro key
      rw [← exists_forall₂_iff]
      constructor
      · rintro ⟨group, h⟩
        exact ⟨group.2, h.2⟩
      · rintro ⟨accs, h⟩
        exact ⟨(key, accs), rfl, h⟩
    rw [exists_forall₂_iff]
    simp only [hgroup, hover, not_exists, not_and]
  rw [not_or, ← hkeyed, ← hgroups]
  constructor
  · rintro ⟨groups, h⟩
    exact ⟨h.keyed, groups, h.groups⟩
  · rintro ⟨hkeyed, groups, hgroups⟩
    exact ⟨groups, hkeyed, hgroups⟩

end Grouping

/-! ## The stage and the task -/

namespace Stage

/-- A stage that passes nothing on before the end only goes from state to state. -/
theorem run_of_silent {σ : Type} {stage : Stage σ}
    (hsilent : ∀ state row, (stage.step state row).1 = []) (rows : List Row) :
    stage.run rows =
      match rows.foldlM (fun state row => (stage.step state row).2) stage.start with
      | .ok last => (stage.finish last, .ok ())
      | .error error => ([], .error error) := by
  have hfeed : ∀ (rows : List Row) (state : σ), (stage.feed state rows).1.flatten = [] ∧
      (stage.feed state rows).2 =
        rows.foldlM (fun state row => (stage.step state row).2) state := by
    intro rows
    induction rows with
    | nil => exact fun _ => ⟨rfl, rfl⟩
    | cons row rest ih =>
      intro state
      have hout := hsilent state row
      rw [feed, List.foldlM_cons]
      cases hstep : stage.step state row with
      | mk out result =>
        obtain rfl : out = [] := by rw [hstep] at hout; exact hout
        cases result with
        | error error => exact ⟨rfl, rfl⟩
        | ok next => exact ih next
  obtain ⟨houts, hlast⟩ := hfeed rows stage.start
  rw [← hlast]
  unfold run
  cases heq : stage.feed stage.start rows with
  | mk outs result =>
    rw [heq] at houts
    dsimp only at houts ⊢
    cases result <;> simp only [houts, List.nil_append]

/-- **Grouping gives a row for each key, and fails only if a key or an aggregate over the rows of a
key does.** -/
theorem run_groupBy (keys : List Bound) (aggregates : List Aggregate) (rows : List Row) :
    ((∃ error, ((groupBy keys aggregates).run rows).2 = .error error) ↔
      (∃ row ∈ rows, ∃ error, Bound.evalAll row keys = .error error) ∨
        ∃ key ∈ Grouping.keysOf keys rows, ∃ aggregate ∈ aggregates, ∃ error,
          aggregate.valueOver (Grouping.rowsOf keys rows key) = .error error) ∧
    (((groupBy keys aggregates).run rows).2 = .ok () →
      List.Forall₂ (Grouping.Gives keys aggregates rows) (Grouping.keysOf keys rows)
        ((groupBy keys aggregates).run rows).1) := by
  have hrun : (groupBy keys aggregates).run rows = _ := run_of_silent (fun _ _ => rfl) rows
  have hgroups := @Grouping.exists_holds_iff keys aggregates rows
  simp only [← Grouping.foldlM_eq_ok_iff] at hgroups
  rw [hrun, ← not_iff_not, ← hgroups]
  cases hlast : rows.foldlM (fun state row => ((groupBy keys aggregates).step state row).2)
      (groupBy keys aggregates).start with
  | error error => simp
  | ok groups =>
    have hholds : Grouping.Holds keys aggregates rows groups := Grouping.foldlM_eq_ok_iff.mp hlast
    refine ⟨by simp, fun _ => ?_⟩
    exact List.forall₂_map_right_iff.mpr (hholds.groups.imp fun key group h => h.gives)

end Stage

namespace Task

/-- A grouping task that is given rows comes to what grouping the rows comes to. -/
theorem collect_supplied_groupBy (keys : List Bound) (aggregates : List Aggregate)
    (rows : List Row) (schema : Option Schema) (config : Config) :
    (((groupBy keys aggregates).connect (.supplied rows)).2.collect (.start schema config)).1.1 =
      ((Stage.groupBy keys aggregates).flow (.ofRows rows)).outcome.map
        fun _ => some ((Stage.groupBy keys aggregates).flow (.ofRows rows)).rows := by
  have hrows : ∀ sent : List Row, (Handoff.number sent).map Message.row = sent := by
    intro sent
    rw [Handoff.number, List.map_map]
    exact List.zipIdx_map_fst 0 sent
  have hcollect :
      (((groupBy keys aggregates).connect (.supplied rows)).2.collect (.start schema config)).1.1 =
        ((Stage.groupBy keys aggregates).flow (.ofRows rows)).outcome.map fun _ =>
          some ((Handoff.number ((Stage.groupBy keys aggregates).flow (.ofRows rows)).rows).map
            Message.row) := rfl
  rw [hcollect, hrows]

/-- **A grouping task gives one row per key, in order of first appearance: the key and what each
aggregate comes to over exactly the rows of that key.** It fails exactly if a key cannot be found or
an aggregate fails on the rows of a key. Without expressions to group by there is one row, even for
no rows; with such expressions there is none for no rows. -/
theorem collect_groupBy (keys : List Bound) (aggregates : List Aggregate) (rows : List Row)
    (schema : Option Schema) (config : Config) :
    let result :=
      (((groupBy keys aggregates).connect (.supplied rows)).2.collect (.start schema config)).1.1
    ((∃ failure, result = .error failure) ↔
      (∃ row ∈ rows, ∃ error, Bound.evalAll row keys = .error error) ∨
        ∃ key ∈ Grouping.keysOf keys rows, ∃ aggregate ∈ aggregates, ∃ error,
          aggregate.valueOver (Grouping.rowsOf keys rows key) = .error error) ∧
    (∀ sent, result = .ok sent → ∃ out, sent = some out ∧
      List.Forall₂ (Grouping.Gives keys aggregates rows) (Grouping.keysOf keys rows) out ∧
      (keys = [] → out.length = 1) ∧
      (keys ≠ [] → rows = [] → out = [])) := by
  obtain ⟨hfails, hgives⟩ := Stage.run_groupBy keys aggregates rows
  have hcomplete : ((Stage.groupBy keys aggregates).flow (.ofRows rows)).Complete ↔
      ((Stage.groupBy keys aggregates).run rows).2 = .ok () :=
    Stage.complete_flow_iff.trans (and_iff_right rfl)
  intro result
  have hresult : result = _ := collect_supplied_groupBy keys aggregates rows schema config
  rw [hresult, ← hfails, Flow.outcome]
  cases hfailure : ((Stage.groupBy keys aggregates).flow (.ofRows rows)).failureAtEnd with
  | some failure =>
    have hnot : ((Stage.groupBy keys aggregates).run rows).2 ≠ .ok () :=
      fun h => by cases hfailure.symm.trans (hcomplete.mpr h)
    refine ⟨⟨fun _ => ?_, fun _ => ⟨failure, rfl⟩⟩, (fun sent h => by cases h)⟩
    cases hrun : ((Stage.groupBy keys aggregates).run rows).2 with
    | ok done => exact absurd hrun hnot
    | error error => exact ⟨error, rfl⟩
  | none =>
    have hok : ((Stage.groupBy keys aggregates).run rows).2 = .ok () := hcomplete.mp hfailure
    have hout : List.Forall₂ (Grouping.Gives keys aggregates rows) (Grouping.keysOf keys rows)
        ((Stage.groupBy keys aggregates).flow (.ofRows rows)).rows := hgives hok
    refine ⟨⟨(fun ⟨failure, h⟩ => by cases h), (fun ⟨error, h⟩ => by cases hok.symm.trans h)⟩,
      fun sent hsent => ⟨_, (Except.ok.inj hsent).symm, hout, ?_, ?_⟩⟩
    · rintro rfl
      rw [← hout.length_eq, Grouping.keysOf_nil]
      rfl
    · rintro hkeys rfl
      have hnone : Grouping.keysOf keys [] = [] := by simp [Grouping.keysOf, hkeys]
      rw [hnone] at hout
      exact List.forall₂_nil_left_iff.mp hout

end Task
end SqlPipeline
