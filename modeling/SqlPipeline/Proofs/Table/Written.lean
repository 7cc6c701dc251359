import SqlPipeline.Proofs.Number.Exact
import SqlPipeline.Proofs.Table.Calls
import SqlPipeline.Proofs.Value.Aggregates

/-!
# What becomes of written numbers

Every stored row is the stored form of a row that some call wrote (`Table.written_of_stored`): it was
given to an insert or upsert, or a callback of an update gave it. So what is stored of a number is
told by the cast of its column alone. **Cast to an integer, a double becomes the 64-bit integer next
to it if it is a whole number, and otherwise the cast fails** (`Value.cast_int64_iff`). The integer is
the number itself only if that has 64 bits: a whole double beyond them is stored as the greatest or
least integer, without an error (`Table.stored_double`).
-/

namespace SqlPipeline

open Number (Binary64)

/-! ## Casting doubles to integers -/

namespace Value

theorem toInt_clampInt64 (n : Int) : (clampInt64 n).toInt = max minInt64 (min maxInt64 n) := by
  unfold clampInt64 minInt64 maxInt64
  exact Int64.toInt_ofInt_of_le (by omega) (by omega)

/-- A number is its nearest 64-bit integer exactly if it has 64 bits. -/
theorem toInt_clampInt64_eq_iff {n : Int} : (clampInt64 n).toInt = n ↔ Has64Bits n := by
  rw [toInt_clampInt64]
  unfold Has64Bits minInt64 maxInt64
  omega

variable {x : Binary64} {stored : Value}

/-- **A double is cast to the integer next to it if it is a whole number.** -/
theorem cast_int64_iff : (float x).cast .int64 = .ok stored ↔
    ∃ n : Int, x.value? = some (n : ℚ) ∧ stored = int (clampInt64 n) := by
  have hcast : (float x).cast? .int64 = x.toInt?.map fun n => int (clampInt64 n) := rfl
  unfold cast
  rw [hcast]
  simp only [← Binary64.toInt?_eq_some_iff]
  cases x.toInt? with
  | none => simp
  | some n => simp [eq_comm]

/-- Casts of a double to an integer keep the number exactly if 64 bits are enough for it. -/
theorem cast_int64_exact_iff :
    (∀ m : Int64, (float x).cast .int64 = .ok (int m) → x.value? = some (m.toInt : ℚ)) ↔
      ∀ n : Int, x.value? = some (n : ℚ) → Has64Bits n := by
  constructor
  · intro h n hn
    have hexact := h (clampInt64 n) (cast_int64_iff.mpr ⟨n, hn, rfl⟩)
    rw [hn, Option.some.injEq, Int.cast_inj] at hexact
    exact toInt_clampInt64_eq_iff.mp hexact.symm
  · intro h m hm
    obtain ⟨n, hn, hstored⟩ := cast_int64_iff.mp hm
    cases hstored
    rw [toInt_clampInt64_eq_iff.mpr (h n hn)]
    exact hn

/-- A double that is no whole number is not cast. -/
theorem cast_int64_error (h : ∀ n : Int, x.value? ≠ some (n : ℚ)) :
    (float x).cast .int64 =
      .error (.runtime ("Cannot cast " ++ (float x).text ++ " to " ++ DataType.int64.text)) := by
  have hnone : x.toInt? = none := by
    rw [Option.eq_none_iff_forall_ne_some]
    exact fun n hn => h n (Binary64.toInt?_eq_some_iff.mp hn)
  have hcast : (float x).cast? .int64 = x.toInt?.map fun n => int (clampInt64 n) := rfl
  unfold cast
  rw [hcast, hnone]
  rfl

end Value

/-! ## Stored values -/

/-- Every value of a row is stored as its cast to the type of the column. -/
theorem TableDef.exists_stored_of_coerce {definition : TableDef} {written row : Row}
    (h : definition.coerce written = .ok row) {i : Nat} {column : ColumnDef} {value : Value}
    (hcolumn : definition.columns[i]? = some column) (hvalue : written[i]? = some value) :
    ∃ stored, row[i]? = some stored ∧ value.cast column.datatype = .ok stored := by
  obtain ⟨hi, -⟩ := List.getElem?_eq_some_iff.mp hvalue
  have hlength : row.length = written.length :=
    (TableDef.fits_of_coerce h).length_eq.trans (TableDef.coerce_eq_ok_iff.mp h).1.symm
  have hstored : row[i]? = some row[i] := List.getElem?_eq_getElem (by omega)
  obtain ⟨old, hold, hcast⟩ := TableDef.getElem?_of_coerce h hcolumn hstored
  rw [hvalue] at hold
  cases hold
  exact ⟨_, hstored, hcast⟩

/-! ## Written rows -/

namespace Table

/-- A call writes a row: it hands it in, or its callback answers a stored row with it. -/
def Call.Writes (before : Table) (row : Row) : Call → Prop
  | .insert rows => row ∈ rows
  | .upsert rows => row ∈ rows
  | .update change => ∃ answers, change.answers before.rows = .ok answers ∧ some row ∈ answers
  | .delete _ => False

variable {table : Table} {row : Row}

theorem exists_mem_of_mapM_coerce {definition : TableDef} {rows stored : List Row}
    (h : rows.mapM definition.coerce = .ok stored) (hrow : row ∈ stored) :
    ∃ written ∈ rows, definition.coerce written = .ok row :=
  exists_mem_of_forall₂ (Result.mapM_eq_ok_iff.mp h) hrow

theorem definition_call (call : Call) : (table.call call).2.definition = table.definition := by
  cases call with
  | insert rows => simp only [Table.call, insert]; split <;> rfl
  | upsert rows => simp only [Table.call, upsert]; split <;> rfl
  | update change => simp only [Table.call, update]; split <;> rfl
  | delete accepts => simp only [Table.call, delete]; split <;> rfl

/-- **The step lemma**: a row that is stored after a call was stored before, or it is the stored form
of a row that the call wrote. -/
theorem written_of_call (call : Call) (h : row ∈ (table.call call).2.rows) :
    row ∈ table.rows ∨
      ∃ written, call.Writes table written ∧ table.definition.coerce written = .ok row := by
  cases call with
  | insert rows =>
    simp only [Table.call, insert] at h
    split at h
    · exact .inl h
    · next added hadded =>
      rcases List.mem_append.mp h with hold | hnew
      · exact .inl hold
      · exact .inr (exists_mem_of_mapM_coerce hadded hnew)
  | upsert rows =>
    simp only [Table.call, upsert] at h
    split at h
    · exact .inl h
    · next added hadded =>
      rcases mem_foldl_putRow h with hnew | hold
      · exact .inr (exists_mem_of_mapM_coerce hadded hnew)
      · exact .inl hold
  | update change =>
    simp only [Table.call, update] at h
    split at h
    · exact .inl h
    · next n rows hrun =>
      obtain ⟨last, hrun⟩ := Result.run'_eq_ok.mp hrun
      obtain ⟨answers, hanswers, -, hout⟩ := updateRows_writes hrun
      rcases hout row h with hold | ⟨written, hanswer, hwritten⟩
      · exact .inl hold
      · have hrun := Result.run'_eq_ok.mpr ⟨last, hanswers⟩
        exact .inr ⟨written, ⟨answers, hrun, hanswer⟩, hwritten⟩
  | delete accepts =>
    simp only [Table.call, delete] at h
    split at h
    · exact .inl h
    · next kept hrun =>
      obtain ⟨last, hrun⟩ := Result.run'_eq_ok.mp hrun
      exact .inl ((remaining_spec hrun).2 row h)

/-- **The run lemma**: a row that is stored after calls was stored before them, or one of the calls
wrote it. -/
theorem written_of_after (calls : List Call) (h : row ∈ (table.after calls).rows) :
    row ∈ table.rows ∨ ∃ earlier call later written, calls = earlier ++ call :: later ∧
      call.Writes (table.after earlier) written ∧
        table.definition.coerce written = .ok row := by
  induction calls generalizing table with
  | nil => exact .inl h
  | cons call rest ih =>
    have hrest : row ∈ ((table.call call).2.after rest).rows := h
    rcases ih hrest with
      hstored | ⟨earlier, later, rest, written, rfl, hwrites, hwritten⟩
    · rcases written_of_call call hstored with hold | ⟨written, hwrites, hwritten⟩
      · exact .inl hold
      · exact .inr ⟨[], call, rest, written, rfl, hwrites, hwritten⟩
    · rw [definition_call] at hwritten
      exact .inr ⟨call :: earlier, later, rest, written, rfl, hwrites, hwritten⟩

/-! ## The main statement -/

/-- **What becomes of doubles in integer columns.** A double is cast to an integer exactly if it is a
whole number, and then to the 64-bit integer next to it; otherwise the cast fails. So a cast to an
integer never changes the number exactly if the number, where it is whole, has 64 bits. And every row
that is stored after any sequence of calls on an empty table is the stored form of a row that one of
them wrote, and where that had a double in an integer column, the double is a whole number, the
64-bit integer next to it is stored, and this is the number itself exactly if that has 64 bits. -/
theorem stored_double (x : Binary64) (definition : TableDef) (calls : List Call) :
    (∀ stored, (Value.float x).cast .int64 = .ok stored ↔
      ∃ n : Int, x.value? = some (n : ℚ) ∧ stored = .int (Value.clampInt64 n)) ∧
    ((∀ n : Int, x.value? ≠ some (n : ℚ)) →
      (Value.float x).cast .int64 = .error (.runtime ("Cannot cast " ++ (Value.float x).text ++
        " to " ++ DataType.int64.text))) ∧
    ((∀ m : Int64, (Value.float x).cast .int64 = .ok (.int m) → x.value? = some (m.toInt : ℚ)) ↔
      ∀ n : Int, x.value? = some (n : ℚ) → Value.Has64Bits n) ∧
    ∀ row ∈ ((empty definition).after calls).rows,
      ∃ earlier call later written, calls = earlier ++ call :: later ∧
        call.Writes ((empty definition).after earlier) written ∧
        definition.coerce written = .ok row ∧
        ∀ (i : Nat) (column : ColumnDef) (y : Binary64), definition.columns[i]? = some column →
          column.datatype = .int64 → written[i]? = some (.float y) →
            ∃ n : Int, y.value? = some (n : ℚ) ∧ row[i]? = some (.int (Value.clampInt64 n)) ∧
              ((Value.clampInt64 n).toInt = n ↔ Value.Has64Bits n) := by
  refine ⟨fun _ => Value.cast_int64_iff, Value.cast_int64_error, Value.cast_int64_exact_iff, ?_⟩
  intro row hrow
  rcases written_of_after calls hrow with
    hnone | ⟨earlier, call, later, written, hcalls, hwrites, hwritten⟩
  · cases hnone
  · refine ⟨earlier, call, later, written, hcalls, hwrites, hwritten, ?_⟩
    intro i column y hcolumn htype hvalue
    obtain ⟨stored, hstored, hcast⟩ := TableDef.exists_stored_of_coerce hwritten hcolumn hvalue
    rw [htype] at hcast
    obtain ⟨n, hn, rfl⟩ := Value.cast_int64_iff.mp hcast
    exact ⟨n, hn, hstored, Value.toInt_clampInt64_eq_iff⟩

/-- The double 2^63 is cast to 2^63 - 1, and so is it stored. -/
theorem stored_double_beyond :
    let x : Binary64 := ⟨0x43E0000000000000⟩
    let definition : TableDef := ⟨"t", [⟨"id", .int64⟩]⟩
    x.value? = some ((2 ^ 63 : Int) : ℚ) ∧
      (Value.float x).cast .int64 = .ok (.int 9223372036854775807) ∧
      (9223372036854775807 : Int64).toInt ≠ 2 ^ 63 ∧
      (empty definition).insert [[.float x]] =
        (.ok 1, ⟨definition, .readWrite, [[.int 9223372036854775807]]⟩) :=
  ⟨Binary64.toInt?_eq_some_iff.mp (by decide), rfl, by decide, rfl⟩

end Table
end SqlPipeline
