import SqlPipeline.Proofs.Table.Typing
import SqlPipeline.Task.Change

/-!
# Rows that are written column by column

An inserted row starts with NULLs and an updated one as it was. Columns are then set one after the
other, and the row is brought into its stored form. What comes out is described for each column by
itself (`TableDef.Writes`): a column that was given an expression has its value, cast to the type of
the column, and **every other column has the very value it had before**
(`TableDef.writes_of_setAll`), although all columns are cast.
-/

namespace SqlPipeline

open Sql (Expr)

namespace Change

/-! ## Setting columns -/

def setAll (row : Row) (pairs : List (Nat × Value)) : Result Row :=
  pairs.foldlM (fun row pair => setColumn row pair.1 pair.2) row

theorem setColumns_eq :
    ∀ (columns : List Nat) (values row : Row),
      setColumns columns values row = setAll row (columns.zip values)
  | [], _, _ => rfl
  | _ :: _, [], _ => rfl
  | column :: columns, value :: values, row => by
    rw [setColumns, List.zip_cons_cons, setAll, List.foldlM_cons]
    congr 1
    funext changed
    exact setColumns_eq columns values changed

/-- Assignments set columns to the values of their expressions on the old row. -/
theorem setAll_of_assign {old : Row} :
    ∀ {assignments : List (Nat × Bound)} {row changed : Row},
      assign old assignments row = .ok changed → ∃ pairs : List (Nat × Value),
        List.Forall₂ (fun assignment pair => assignment.1 = pair.1 ∧
          assignment.2.eval old = .ok pair.2) assignments pairs ∧ setAll row pairs = .ok changed
  | [], row, changed, h => ⟨[], .nil, h⟩
  | (column, expr) :: rest, row, changed, h => by
    obtain ⟨value, hvalue, h⟩ := Result.bind_eq_ok.mp h
    obtain ⟨next, hnext, h⟩ := Result.bind_eq_ok.mp h
    obtain ⟨pairs, hpairs, hset⟩ := setAll_of_assign h
    refine ⟨(column, value) :: pairs, .cons ⟨rfl, hvalue⟩ hpairs, ?_⟩
    rw [setAll, List.foldlM_cons]
    exact Result.bind_eq_ok.mpr ⟨next, hnext, hset⟩

/-- Each column has the last value it was set to, or else the one it had. -/
theorem getElem?_setAll :
    ∀ {pairs : List (Nat × Value)} {row changed : Row}, setAll row pairs = .ok changed →
      ∀ i, changed[i]? = row[i]?.map fun old => (pairs.reverse.lookup i).getD old
  | [], row, changed, h, i => by
    cases h
    simp
  | (column, value) :: rest, row, changed, h, i => by
    rw [setAll, List.foldlM_cons] at h
    obtain ⟨next, hnext, h⟩ := Result.bind_eq_ok.mp h
    have hrest := getElem?_setAll h i
    unfold setColumn at hnext
    split at hnext
    · next hcolumn =>
      cases hnext
      -- what is set later wins, so the column is looked up among the rest first
      rw [hrest, List.reverse_cons, List.lookup_append, List.getElem?_set]
      by_cases hi : column = i
      · subst hi
        cases hlookup : rest.reverse.lookup column <;> simp [hcolumn]
      · have hne : (i == column) = false := by simpa using Ne.symm hi
        simp [hi, List.lookup_cons, hne]
    · cases hnext

end Change

/-! ## The stored row -/

namespace TableDef

variable {definition : TableDef}

/-- A row of a table in which a column that was given expressions has the value of the last of them,
cast to its type, and every other column has the value it has in `base`. -/
def Writes (definition : TableDef) (value : Expr → Result Value) (given : List (Nat × Expr))
    (base row : Row) : Prop :=
  row.length = definition.columns.length ∧
    ∀ i column stored, definition.columns[i]? = some column → row[i]? = some stored →
      match given.reverse.lookup i with
      | some expr => value expr >>= Value.cast column.datatype = .ok stored
      | none => base[i]? = some stored

/-- The last value that was found for a position is that of the last expression given for it. -/
theorem lookup_forall₂ {value : Expr → Result Value} {given : List (Nat × Expr)}
    {pairs : List (Nat × Value)}
    (h : List.Forall₂ (fun own pair => own.1 = pair.1 ∧ value own.2 = .ok pair.2) given pairs)
    (i : Nat) :
    match given.lookup i with
    | some expr => ∃ found, value expr = .ok found ∧ pairs.lookup i = some found
    | none => pairs.lookup i = none := by
  induction h with
  | nil => rfl
  | @cons own pair rest others hfirst hrest ih =>
    obtain ⟨j, expr⟩ := own
    obtain ⟨j', found⟩ := pair
    obtain ⟨hj, hfound⟩ := hfirst
    dsimp only at hj hfound
    subst hj
    rw [List.lookup_cons, List.lookup_cons]
    by_cases hi : (i == j) = true
    · simp [hi, hfound]
    · rw [Bool.not_eq_true] at hi
      simpa [hi] using ih

/-- **What was set column by column and stored is described by what was given for each column.**
That the other columns survive being cast is due to `base` fitting the table. -/
theorem writes_of_setAll {value : Expr → Result Value} {given : List (Nat × Expr)}
    {pairs : List (Nat × Value)} {base full row : Row}
    (hgiven : List.Forall₂ (fun own pair => own.1 = pair.1 ∧ value own.2 = .ok pair.2) given pairs)
    (hbase : definition.Fits base) (hset : Change.setAll base pairs = .ok full)
    (hstored : definition.coerce full = .ok row) : definition.Writes value given base row := by
  refine ⟨(fits_of_coerce hstored).length_eq, fun i column stored hcolumn hrow => ?_⟩
  obtain ⟨old, hold, hcast⟩ := getElem?_of_coerce hstored hcolumn hrow
  rw [Change.getElem?_setAll hset, Option.map_eq_some_iff] at hold
  obtain ⟨before, hbefore, rfl⟩ := hold
  have hlookup := lookup_forall₂ (List.forall₂_reverse_iff.mpr hgiven) i
  cases hfound : given.reverse.lookup i with
  | some expr =>
    rw [hfound] at hlookup
    obtain ⟨found, hvalue, hpair⟩ := hlookup
    rw [hpair] at hcast
    exact Result.bind_eq_ok.mpr ⟨found, hvalue, hcast⟩
  | none =>
    rw [hfound] at hlookup
    rw [show pairs.reverse.lookup i = none from hlookup] at hcast
    -- casting leaves alone what the column takes
    have hfits : Value.Fits column.datatype before := by
      obtain ⟨hi, rfl⟩ := List.getElem?_eq_some_iff.mp hbefore
      obtain ⟨hc, rfl⟩ := List.getElem?_eq_some_iff.mp hcolumn
      exact List.Forall₂.get hbase hc hi
    rw [Option.getD_none, Value.cast_of_fits hfits] at hcast
    cases hcast
    exact hbefore

/-- A row of NULLs fits every table of its width. -/
theorem fits_nulls (definition : TableDef) :
    definition.Fits (Row.nulls definition.columns.length) := by
  unfold Fits Row.nulls
  generalize definition.columns = columns
  induction columns with
  | nil => exact .nil
  | cons column rest ih => exact .cons (Value.fits_null _) ih

end TableDef
end SqlPipeline
