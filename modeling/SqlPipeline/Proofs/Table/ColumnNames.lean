import SqlPipeline.Plan.Compile
import SqlPipeline.Proofs.Bound.Shift
import SqlPipeline.Proofs.Change.Reference
import SqlPipeline.Proofs.Sql.LetterCase

/-!
# Looking columns up by name

An INSERT looks the columns it names up in the definition of the table, an UPDATE in the layout of
its rows. Both compare up to the case of ASCII letters, but the definition has the names as they were
given, and the layout has them in lower case, which changes other letters too.

Both are one search (`TableDef.find`) for a spelling of the names. **They agree about a table exactly
if lower case changes nothing but ASCII letters in its names** (`TableDef.finds_alike_iff`).
-/

namespace SqlPipeline

open Sql (Ident ObjectName)

/-! ## Positions -/

namespace Layout

variable {layout : Layout}

/-- If at most one column is meant by a name, that column is found or none is. -/
theorem resolve_of_unique {relation : Option String} {name : String}
    (hunique : ∀ (i j : Nat) (column other : Column), layout.columns[i]? = some column →
      layout.columns[j]? = some other → column.answers relation name = true →
        other.answers relation name = true → i = j) :
    layout.resolve relation name =
      match layout.columns.findIdx? (·.answers relation name) with
      | some i => .ok i
      | none => .error (.columnNotFound (qualified relation name)) := by
  cases hfirst : layout.columns.findIdx? (·.answers relation name) with
  | none =>
    have hnone : layout.positions (·.answers relation name) = [] := by
      refine List.eq_nil_iff_forall_not_mem.mpr fun i hi => ?_
      obtain ⟨column, hcolumn, hanswers⟩ := mem_positions_iff.mp hi
      have hnot := List.findIdx?_eq_none_iff.mp hfirst column (List.mem_of_getElem? hcolumn)
      exact absurd hanswers (by simp [hnot])
    rw [resolve, hnone]
  | some i =>
    obtain ⟨hi, hanswers, -⟩ := List.findIdx?_eq_some_iff_getElem.mp hfirst
    have hcolumn := List.getElem?_eq_getElem hi
    exact resolve_eq_ok_iff_only.mpr ⟨⟨_, hcolumn, hanswers⟩,
      fun j column hj hother => hunique j i column _ hj hcolumn hother hanswers⟩

end Layout

/-! ## One search -/

namespace TableDef

variable {definition : TableDef}

/-- The first column whose name, so spelled, is the given one up to the case of ASCII letters. -/
def find (definition : TableDef) (spelling : String → String) (key : String) : Result Nat :=
  match definition.columns.findIdx? fun column =>
    Text.sameAsciiCase (spelling column.name) key with
  | some i => .ok i
  | none => .error (.columnNotFound key)

/-- No two columns have, so spelled, the same name up to the case of ASCII letters. -/
def Distinguishes (definition : TableDef) (spelling : String → String) : Prop :=
  (definition.columns.map fun column => Text.folded (spelling column.name)).Nodup

theorem Distinguishes.unique {spelling : String → String} (h : definition.Distinguishes spelling)
    {i j : Nat} {column other : ColumnDef} (hi : definition.columns[i]? = some column)
    (hj : definition.columns[j]? = some other)
    (hsame : Text.folded (spelling column.name) = Text.folded (spelling other.name)) : i = j := by
  have hlt : i < definition.columns.length := (List.getElem?_eq_some_iff.mp hi).1
  refine (List.getElem?_inj (by rwa [List.length_map]) h).mp ?_
  rw [List.getElem?_map, List.getElem?_map, hi, hj]
  exact congrArg some hsame

/-- Where no two columns have the same name, the search finds the one column of a name. -/
theorem find_eq_ok_iff {spelling : String → String} (h : definition.Distinguishes spelling)
    {key : String} {i : Nat} :
    definition.find spelling key = .ok i ↔ ∃ column, definition.columns[i]? = some column ∧
      Text.sameAsciiCase (spelling column.name) key = true := by
  unfold find
  constructor
  · intro hfind
    split at hfind
    · next hfirst =>
      cases hfind
      obtain ⟨hi, hsame, -⟩ := List.findIdx?_eq_some_iff_getElem.mp hfirst
      exact ⟨_, List.getElem?_eq_getElem hi, hsame⟩
    · cases hfind
  · rintro ⟨column, hcolumn, hsame⟩
    split
    · next j hfirst =>
      obtain ⟨hj, hfound, -⟩ := List.findIdx?_eq_some_iff_getElem.mp hfirst
      have hboth := (Text.folded_eq_iff.mpr hfound).trans (Text.folded_eq_iff.mpr hsame).symm
      rw [h.unique (List.getElem?_eq_getElem hj) hcolumn hboth]
    · next hnone =>
      have hnot := List.findIdx?_eq_none_iff.mp hnone column (List.mem_of_getElem? hcolumn)
      exact absurd hsame (by simp [hnot])

/-- What is spelled alike in all names is found alike. -/
theorem find_congr {spelling other : String → String}
    (h : ∀ column ∈ definition.columns,
      Text.folded (spelling column.name) = Text.folded (other column.name)) (key : String) :
    definition.find spelling key = definition.find other key := by
  have hsearch : ∀ columns : List ColumnDef,
      (∀ column ∈ columns,
        Text.folded (spelling column.name) = Text.folded (other column.name)) →
      (columns.findIdx? fun column => Text.sameAsciiCase (spelling column.name) key) =
        columns.findIdx? fun column => Text.sameAsciiCase (other column.name) key := by
    intro columns hcolumns
    induction columns with
    | nil => rfl
    | cons column rest ih =>
      obtain ⟨hfirst, hrest⟩ := List.forall_mem_cons.mp hcolumns
      have hsame : Text.sameAsciiCase (spelling column.name) key =
          Text.sameAsciiCase (other column.name) key := by
        rw [Bool.eq_iff_iff, ← Text.folded_eq_iff, ← Text.folded_eq_iff, hfirst]
      rw [List.findIdx?_cons, List.findIdx?_cons, hsame, ih hrest]
  unfold find
  rw [hsearch definition.columns h]

/-! ## The two statements -/

/-- An INSERT searches the names as they were given. -/
theorem insertColumns_eq_find (definition : TableDef) (x : Ident) :
    Compiling.insertColumns definition [] [x] = (definition.find id x.key).map fun i => [i] := by
  have hposition : definition.position? x.key =
      definition.columns.findIdx? fun column => Text.sameAsciiCase (id column.name) x.key := rfl
  rw [Compiling.insertColumns, find, ← hposition]
  cases definition.position? x.key <;> rfl

/-- An UPDATE searches the names in lower case. -/
theorem resolve_eq_find (h : definition.Distinguishes Text.lower) (name : ObjectName)
    (key : String) :
    (name.layout definition).resolve none key = definition.find Text.lower key := by
  have hfirst : (name.layout definition).columns.findIdx? (·.answers none key) =
      definition.columns.findIdx? fun column =>
        Text.sameAsciiCase (Text.lower column.name) key := by
    unfold ObjectName.layout Layout.ofTable
    rw [List.findIdx?_map]
    refine congrArg (fun p => definition.columns.findIdx? p) (funext fun column => ?_)
    simp [Layout.Column.answers]
  have hmeans {i : Nat} {column : Layout.Column}
      (hcolumn : (name.layout definition).columns[i]? = some column)
      (hanswers : column.answers none key = true) :
      ∃ own, definition.columns[i]? = some own ∧
        Text.folded (Text.lower own.name) = Text.folded key := by
    unfold ObjectName.layout Layout.ofTable at hcolumn
    rw [List.getElem?_map, Option.map_eq_some_iff] at hcolumn
    obtain ⟨own, hown, rfl⟩ := hcolumn
    refine ⟨own, hown, Text.folded_eq_iff.mpr ?_⟩
    simpa [Layout.Column.answers] using hanswers
  rw [Layout.resolve_of_unique, hfirst]
  · rfl
  · intro i j column other hi hj hcolumn hother
    obtain ⟨own, hown, hsame⟩ := hmeans hi hcolumn
    obtain ⟨own', hown', hsame'⟩ := hmeans hj hother
    exact h.unique hown hown' (hsame.trans hsame'.symm)

/-- The columns of a table have different names in lower case. -/
def HasDistinctNames (definition : TableDef) : Prop :=
  (definition.columns.map fun column => Text.lower column.name).Nodup

instance (definition : TableDef) : Decidable definition.HasDistinctNames :=
  inferInstanceAs
    (Decidable (definition.columns.map fun column : ColumnDef => Text.lower column.name).Nodup)

theorem HasDistinctNames.given (h : definition.HasDistinctNames) :
    definition.Distinguishes id := by
  refine List.Nodup.of_map Text.lower ?_
  rw [List.map_map]
  have hlower : ∀ column : ColumnDef,
      (Text.lower ∘ fun column : ColumnDef => Text.folded (id column.name)) column =
        Text.lower column.name := fun column => Text.lower_folded column.name
  rwa [List.map_congr_left fun column _ => hlower column]

theorem HasDistinctNames.lowered (h : definition.HasDistinctNames) :
    definition.Distinguishes Text.lower := by
  unfold Distinguishes
  rwa [List.map_congr_left fun (column : ColumnDef) _ => Text.folded_lower column.name]

/-- **INSERT and UPDATE find the same columns exactly if lower case changes only ASCII letters in
the names.** An INSERT finds the column whose name is the wanted one up to the case of ASCII letters,
an UPDATE the column whose name in lower case is. For every name that is wanted, quoted or not, they
find the same column or report the same missing one if, and only if, the name of each column is the
same up to the case of ASCII letters when it is lowered. -/
theorem finds_alike_iff (hnames : definition.HasDistinctNames) (name : ObjectName) :
    (∀ (x : Ident) (i : Nat), Compiling.insertColumns definition [] [x] = .ok [i] ↔
      ∃ column, definition.columns[i]? = some column ∧
        Text.sameAsciiCase column.name x.key = true) ∧
    (∀ (x : Ident) (i : Nat), (name.layout definition).resolve none x.key = .ok i ↔
      ∃ column, definition.columns[i]? = some column ∧
        Text.sameAsciiCase (Text.lower column.name) x.key = true) ∧
    ((∀ x : Ident, Compiling.insertColumns definition [] [x] =
        ((name.layout definition).resolve none x.key).map fun i => [i]) ↔
      ∀ column ∈ definition.columns,
        Text.sameAsciiCase (Text.lower column.name) column.name = true) := by
  have hinsert (x : Ident) (i : Nat) : Compiling.insertColumns definition [] [x] = .ok [i] ↔
      definition.find id x.key = .ok i := by
    rw [insertColumns_eq_find]
    cases definition.find id x.key <;> simp [Except.map]
  have hupdate (key : String) := resolve_eq_find hnames.lowered name key
  refine ⟨fun x i => ?_, fun x i => ?_, fun halike column hcolumn => ?_, fun hplain x => ?_⟩
  · rw [hinsert, find_eq_ok_iff hnames.given]
    rfl
  · rw [hupdate, find_eq_ok_iff hnames.lowered]
  · -- the name of the column itself, in quotes, is found by an INSERT
    obtain ⟨i, hi⟩ := List.mem_iff_getElem?.mp hcolumn
    have hfound : definition.find id column.name = .ok i := by
      refine (find_eq_ok_iff hnames.given).mpr ⟨column, hi, ?_⟩
      rw [id, ← Text.folded_eq_iff]
    have hsame : (definition.find id column.name).map (fun i => [i]) =
        (definition.find Text.lower column.name).map fun i => [i] := by
      rw [← hupdate]
      exact (insertColumns_eq_find definition ⟨column.name, true⟩).symm.trans
        (halike ⟨column.name, true⟩)
    rw [hfound] at hsame
    have hlowered : definition.find Text.lower column.name = .ok i := by
      cases hfind : definition.find Text.lower column.name with
      | error error => rw [hfind] at hsame; cases hsame
      | ok j => rw [hfind] at hsame; cases hsame; rfl
    obtain ⟨own, hown, hanswers⟩ := (find_eq_ok_iff hnames.lowered).mp hlowered
    cases hi.symm.trans hown
    exact hanswers
  · have hsame : definition.find id x.key = definition.find Text.lower x.key := by
      refine find_congr (fun column hcolumn => ?_) x.key
      rw [id, Text.folded_eq_iff.mpr (hplain column hcolumn)]
    rw [insertColumns_eq_find, hupdate, hsame]

/-- Capitals of ASCII in the names of columns do no harm. -/
theorem finds_alike_people :
    let people : TableDef := ⟨"people", [⟨"Id", .int64⟩, ⟨"name", .utf8⟩]⟩
    let layout := (ObjectName.mk [⟨"people", false⟩]).layout people
    people.HasDistinctNames ∧
      Compiling.insertColumns people [] [⟨"ID", true⟩] = .ok [0] ∧
      layout.resolve none (Ident.mk "ID" true).key = .ok 0 ∧
      ∀ x : Ident, Compiling.insertColumns people [] [x] =
        (layout.resolve none x.key).map fun i => [i] := by
  intro people layout
  have hnames : people.HasDistinctNames := by decide +kernel
  have hplain : ∀ column ∈ people.columns,
      Text.sameAsciiCase (Text.lower column.name) column.name = true := by decide +kernel
  obtain ⟨hinsert, hupdate, halike⟩ := finds_alike_iff hnames ⟨[⟨"people", false⟩]⟩
  refine ⟨hnames, (hinsert _ 0).mpr ⟨⟨"Id", .int64⟩, rfl, by decide +kernel⟩,
    (hupdate _ 0).mpr ⟨⟨"Id", .int64⟩, rfl, by decide +kernel⟩, halike.mpr hplain⟩

/-- A column whose name has a capital letter outside ASCII is found by only one of the statements,
in either spelling. -/
theorem finds_accented :
    let table : TableDef := ⟨"t", [⟨"É", .int64⟩]⟩
    let layout := (ObjectName.mk [⟨"t", false⟩]).layout table
    table.HasDistinctNames ∧
      Compiling.insertColumns table [] [⟨"É", false⟩] = .error (.columnNotFound "é") ∧
      layout.resolve none (Ident.mk "É" false).key = .ok 0 ∧
      Compiling.insertColumns table [] [⟨"É", true⟩] = .ok [0] ∧
      layout.resolve none (Ident.mk "É" true).key = .error (.columnNotFound "É") := by
  decide +kernel

end TableDef
end SqlPipeline
