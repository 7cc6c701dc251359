import SqlPipeline.Proofs.Result
import SqlPipeline.Table.Basic

/-!
# What a table may store

A column takes NULL and the values of its type, and a row fits a table if it has one such value for
each column. Two facts about casting carry everything that is said about stored rows:

* **a cast gives what the column takes** (`Value.fits_of_cast`), so a row in its stored form always
  fits (`TableDef.fits_of_coerce`);
* **a cast leaves alone what the column takes already** (`Value.cast_of_fits`), so storing a row
  that fits stores that very row (`TableDef.coerce_of_fits`).
-/

namespace SqlPipeline

/-! ## Values -/

namespace Value

/-- Whether a column of the given type takes a value: NULL, or a value of that type. -/
def Fits (datatype : DataType) (value : Value) : Prop :=
  value = .null ∨ value.datatype? = some datatype

theorem fits_null (datatype : DataType) : Fits datatype .null := Or.inl rfl

/-- The text of an integer is read as an integer. -/
theorem fits_of_readInt? {cs : List Char} {value : Value} (h : readInt? cs = some value) :
    Fits .int64 value := by
  obtain ⟨n, -, hn⟩ := Option.bind_eq_some_iff.mp h
  obtain ⟨i, -, rfl⟩ := Option.map_eq_some_iff.mp hn
  exact Or.inr rfl

/-- The text of a truth value is read as a truth value. -/
theorem fits_of_readBoolean? {cs : List Char} {value : Value} (h : readBoolean? cs = some value) :
    Fits .boolean value := by
  unfold readBoolean? at h
  dsimp only at h
  split at h
  · cases h; exact Or.inr rfl
  · split at h
    · cases h; exact Or.inr rfl
    · cases h

theorem fits_of_cast? {datatype : DataType} {value stored : Value}
    (h : value.cast? datatype = some stored) : Fits datatype stored := by
  unfold cast? at h
  split at h
  case h_1 => cases h; exact fits_null _
  case h_7 x =>
    obtain ⟨n, -, rfl⟩ := Option.map_eq_some_iff.mp h
    exact Or.inr rfl
  case h_8 s => exact fits_of_readInt? h
  case h_9 s =>
    obtain ⟨x, -, rfl⟩ := Option.map_eq_some_iff.mp h
    exact Or.inr rfl
  case h_10 s => exact fits_of_readBoolean? h
  case h_12 => cases h
  all_goals cases h; exact Or.inr rfl

/-- **A cast gives what the column takes.** -/
theorem fits_of_cast {datatype : DataType} {value stored : Value}
    (h : value.cast datatype = .ok stored) : Fits datatype stored := by
  unfold cast at h
  split at h
  · next result hresult =>
    cases h
    exact fits_of_cast? hresult
  · cases h

/-- **A cast leaves alone what the column takes already.** -/
theorem cast_of_fits {datatype : DataType} {value : Value} (h : Fits datatype value) :
    value.cast datatype = .ok value := by
  rcases h with rfl | h
  · rfl
  · cases value <;> cases h <;> rfl

end Value

/-! ## Rows -/

namespace TableDef

/-- Whether a row fits a table: it has exactly one value per column, which the column takes. -/
def Fits (definition : TableDef) (row : Row) : Prop :=
  List.Forall₂ (fun column value => Value.Fits column.datatype value) definition.columns row

theorem Fits.length_eq {definition : TableDef} {row : Row} (h : definition.Fits row) :
    row.length = definition.columns.length :=
  (List.Forall₂.length_eq h).symm

/-- Casting as many values as there are columns gives one value per column, cast to its type. -/
theorem castRow_eq_ok_iff :
    ∀ {columns : List ColumnDef} {row stored : Row}, row.length = columns.length →
      (castRow columns row = .ok stored ↔
        List.Forall₂ (fun (column : ColumnDef × Value) value =>
          column.2.cast column.1.datatype = .ok value) (columns.zip row) stored)
  | [], [], stored, _ => by
    rw [List.zip_nil_right, List.forall₂_nil_left_iff]
    exact ⟨fun h => by cases h; rfl, fun h => by rw [h]; rfl⟩
  | column :: columns, value :: row, stored, hlen => by
    have hrest : row.length = columns.length := by simpa using hlen
    rw [castRow, Result.bind_eq_ok, List.zip_cons_cons, List.forall₂_cons_left_iff]
    constructor
    · rintro ⟨first, hfirst, h⟩
      obtain ⟨rest, hcast, h⟩ := Result.bind_eq_ok.mp h
      cases h
      exact ⟨first, rest, hfirst, (castRow_eq_ok_iff hrest).mp hcast, rfl⟩
    · rintro ⟨first, rest, hfirst, hcast, rfl⟩
      exact ⟨first, hfirst, Result.bind_eq_ok.mpr ⟨rest, (castRow_eq_ok_iff hrest).mpr hcast, rfl⟩⟩

/-- A row is brought into stored form only if it has one value per column. -/
theorem coerce_eq_ok_iff {definition : TableDef} {row stored : Row} :
    definition.coerce row = .ok stored ↔
      row.length = definition.columns.length ∧ castRow definition.columns row = .ok stored := by
  unfold coerce
  split
  · next hlen => simp [hlen]
  · next hlen => simp [hlen]

/-- Every column of the stored form has the cast value of that column. -/
theorem getElem?_of_coerce {definition : TableDef} {row stored : Row}
    (h : definition.coerce row = .ok stored) {i : Nat} {column : ColumnDef} {value : Value}
    (hcolumn : definition.columns[i]? = some column) (hvalue : stored[i]? = some value) :
    ∃ old, row[i]? = some old ∧ old.cast column.datatype = .ok value := by
  obtain ⟨hlength, hcast⟩ := coerce_eq_ok_iff.mp h
  have hall := (castRow_eq_ok_iff hlength).mp hcast
  obtain ⟨hi, rfl⟩ := List.getElem?_eq_some_iff.mp hvalue
  obtain ⟨hc, rfl⟩ := List.getElem?_eq_some_iff.mp hcolumn
  have hrow : i < row.length := by omega
  refine ⟨row[i], List.getElem?_eq_getElem hrow, ?_⟩
  have hget := hall.get (hall.length_eq ▸ hi) hi
  simpa using hget

/-- What casting makes of a row fits the columns it was cast for. -/
theorem fits_of_castRow :
    ∀ {columns : List ColumnDef} {row stored : Row}, row.length = columns.length →
      castRow columns row = .ok stored →
        List.Forall₂ (fun column value => Value.Fits column.datatype value) columns stored
  | [], [], stored, _, h => by cases h; exact .nil
  | column :: columns, value :: row, stored, hlen, h => by
    rw [castRow] at h
    obtain ⟨first, hfirst, h⟩ := Result.bind_eq_ok.mp h
    obtain ⟨rest, hrest, h⟩ := Result.bind_eq_ok.mp h
    cases h
    exact .cons (Value.fits_of_cast hfirst) (fits_of_castRow (by simpa using hlen) hrest)

/-- **A row in its stored form fits.** -/
theorem fits_of_coerce {definition : TableDef} {row stored : Row}
    (h : definition.coerce row = .ok stored) : definition.Fits stored := by
  obtain ⟨hlen, hcast⟩ := coerce_eq_ok_iff.mp h
  exact fits_of_castRow hlen hcast

/-- **A row that fits is its own stored form.** -/
theorem coerce_of_fits {definition : TableDef} {row : Row} (h : definition.Fits row) :
    definition.coerce row = .ok row := by
  refine coerce_eq_ok_iff.mpr ⟨h.length_eq, ?_⟩
  unfold Fits at h
  generalize definition.columns = columns at h
  induction h with
  | nil => rfl
  | cons hvalue _ ih => rw [castRow, Value.cast_of_fits hvalue, ih]; rfl

end TableDef
end SqlPipeline
