import SqlPipeline.Proofs.Table.Typing

/-!
# Tables under any sequence of calls

A table is changed by four calls: rows are inserted or upserted, and the stored rows are updated or
deleted as a callback says. This file follows a table through any sequence of such calls, those that
fail included, and proves three things of every call:

* the stored rows fit the columns before and after it (`Table.Sound`),
* a call that fails leaves the stored rows exactly as they were,
* a call that succeeds gives the number of rows it was about (`Call.Counts`).

The first needs one lemma per call, since each of them writes in a way of its own; the second is
what distinguishes them from calls that would write as they go.
-/

namespace SqlPipeline

namespace Asking

variable {α : Type}

/-- What a callback answers to rows that are put to it one after the other. -/
def answers (asking : Asking α) (rows : List Row) : Result (List α) :=
  (rows.mapM asking.ask).run' asking.start

end Asking

namespace Table

/-- Every stored row fits the columns of the table. -/
def Sound (table : Table) : Prop :=
  ∀ row ∈ table.rows, table.definition.Fits row

/-- A call that may change a table. The callback of an update gives the new row of those it
accepts. -/
inductive Call where
  | insert (rows : List Row)
  | upsert (rows : List Row)
  | update (change : Asking (Option Row))
  | delete (accepts : Asking Bool)

/-- Makes a call: what it gives back, and the table it leaves behind. -/
def call (table : Table) : Call → Result Nat × Table
  | .insert rows => table.insert rows
  | .upsert rows => table.upsert rows
  | .update change => table.update change
  | .delete accepts => table.delete accepts

def after (table : Table) (calls : List Call) : Table :=
  calls.foldl (fun table call => (table.call call).2) table

/-- The number a successful call has to give: that of the rows handed in, of the rows for which the
callback gave a new one, or of the rows removed. -/
def Call.Counts (before : Table) (n : Nat) (left : Table) : Call → Prop
  | .insert rows => n = rows.length
  | .upsert rows => n = rows.length
  | .update change =>
    ∃ answers, change.answers before.rows = .ok answers ∧ n = answers.countP Option.isSome
  | .delete accepts =>
    ∃ answers, accepts.answers before.rows = .ok answers ∧ n = answers.count true ∧
      n + left.rows.length = before.rows.length

/-! ## The four calls, one by one -/

variable {table : Table}

theorem fits_of_mapM_coerce {definition : TableDef} {rows added : List Row}
    (h : rows.mapM definition.coerce = .ok added) : ∀ row ∈ added, definition.Fits row := by
  intro row hrow
  obtain ⟨i, hi, rfl⟩ := List.getElem_of_mem hrow
  have hall := Result.mapM_eq_ok_iff.mp h
  have hlen : rows.length = added.length := hall.length_eq
  exact TableDef.fits_of_coerce (hall.get (by omega) hi)

/-- Rows that are in their stored form stay as they are. -/
theorem mapM_coerce_stored {definition : TableDef} {rows stored : List Row}
    (h : rows.mapM definition.coerce = .ok stored) :
    stored.mapM definition.coerce = .ok stored := by
  rw [Result.mapM_eq_ok_iff, List.forall₂_same]
  exact fun row hrow => TableDef.coerce_of_fits (fits_of_mapM_coerce h row hrow)

/-- A row that is put among others is one of them afterwards, and brings no other row in. -/
theorem mem_putRow {row stored : Row} :
    ∀ {rows : List Row}, stored ∈ putRow row rows → stored = row ∨ stored ∈ rows
  | [], h => Or.inl (List.mem_singleton.mp h)
  | first :: rest, h => by
    rw [putRow] at h
    split at h
    · rcases List.mem_cons.mp h with rfl | hrest
      · exact Or.inl rfl
      · exact Or.inr (List.mem_cons_of_mem _ hrest)
    · rcases List.mem_cons.mp h with rfl | hrest
      · exact Or.inr List.mem_cons_self
      · rcases mem_putRow hrest with rfl | hmem
        · exact Or.inl rfl
        · exact Or.inr (List.mem_cons_of_mem _ hmem)

theorem mem_foldl_putRow {added : List Row} {stored : Row} :
    ∀ {rows : List Row}, stored ∈ added.foldl (fun rows row => putRow row rows) rows →
      stored ∈ added ∨ stored ∈ rows := by
  induction added with
  | nil => exact fun h => .inr h
  | cons first rest ih =>
    intro rows h
    rcases ih h with hrest | hput
    · exact .inl (List.mem_cons_of_mem _ hrest)
    · rcases mem_putRow hput with rfl | hmem
      · exact .inl List.mem_cons_self
      · exact .inr hmem

theorem fits_foldl_putRow {definition : TableDef} {added : List Row} {rows : List Row}
    (hadded : ∀ row ∈ added, definition.Fits row) (hrows : ∀ row ∈ rows, definition.Fits row) :
    ∀ row ∈ added.foldl (fun rows row => putRow row rows) rows, definition.Fits row :=
  fun row hrow => (mem_foldl_putRow hrow).elim (hadded row) (hrows row)

section Callbacks

variable {σ : Type} {definition : TableDef}

/-- One pass of an update over the rows: the callback was asked about each row in turn, the number
is that of the rows it gave a new row for, and the rows that come out were there before or are the
stored forms of new rows. -/
theorem updateRows_writes {change : Row → StateT σ Result (Option Row)} :
    ∀ {rows : List Row} {start : σ} {n : Nat} {out : List Row} {last : σ},
      (updateRows definition change rows).run start = .ok ((n, out), last) →
        ∃ answers, (rows.mapM change).run start = .ok (answers, last) ∧
          n = answers.countP Option.isSome ∧
          ∀ row ∈ out, row ∈ rows ∨
            ∃ written, some written ∈ answers ∧ definition.coerce written = .ok row
  | [], start, n, out, last, h => by
    cases h
    exact ⟨[], rfl, rfl, nofun⟩
  | row :: rest, start, n, out, last, h => by
    rw [updateRows, StateT.run_bind, Result.bind_eq_ok] at h
    obtain ⟨⟨answer, middle⟩, hask, h⟩ := h
    cases answer with
    | none =>
      simp only [StateT.run_bind, Result.bind_eq_ok] at h
      obtain ⟨⟨⟨m, rows⟩, final⟩, hrows, h⟩ := h
      cases h
      obtain ⟨answers, hanswers, rfl, hout⟩ := updateRows_writes hrows
      refine ⟨none :: answers, ?_, by simp, ?_⟩
      · rw [List.mapM_cons, StateT.run_bind, hask, Result.ok_bind, StateT.run_bind, hanswers]
        rfl
      · intro stored hstored
        rcases List.mem_cons.mp hstored with rfl | hmem
        · exact .inl List.mem_cons_self
        · exact (hout _ hmem).imp (.tail _) fun ⟨written, hanswer, hwritten⟩ =>
            ⟨written, .tail _ hanswer, hwritten⟩
    | some changed =>
      simp only [StateT.run_bind, Result.bind_eq_ok] at h
      obtain ⟨⟨stored, kept⟩, hstored, ⟨⟨m, rows⟩, final⟩, hrows, h⟩ := h
      cases h
      -- storing the new row does not touch the memory of the callback
      obtain ⟨hcoerce, rfl⟩ := Result.run_lift_eq_ok.mp hstored
      obtain ⟨answers, hanswers, rfl, hout⟩ := updateRows_writes hrows
      refine ⟨some changed :: answers, ?_, by simp, ?_⟩
      · rw [List.mapM_cons, StateT.run_bind, hask, Result.ok_bind, StateT.run_bind, hanswers]
        rfl
      · intro row hrow
        rcases List.mem_cons.mp hrow with rfl | hmem
        · exact .inr ⟨changed, .head _, hcoerce⟩
        · exact (hout _ hmem).imp (.tail _) fun ⟨written, hanswer, hwritten⟩ =>
            ⟨written, .tail _ hanswer, hwritten⟩

/-- The rows that come out of an update fit if those before did. -/
theorem updateRows_spec {change : Row → StateT σ Result (Option Row)} {rows : List Row} {start : σ}
    {n : Nat} {out : List Row} {last : σ} (hfits : ∀ row ∈ rows, definition.Fits row)
    (h : (updateRows definition change rows).run start = .ok ((n, out), last)) :
    (∃ answers, (rows.mapM change).run start = .ok (answers, last) ∧
      n = answers.countP Option.isSome) ∧ ∀ row ∈ out, definition.Fits row := by
  obtain ⟨answers, hanswers, hn, hout⟩ := updateRows_writes h
  refine ⟨⟨answers, hanswers, hn⟩, fun row hrow => ?_⟩
  rcases hout row hrow with hstored | ⟨written, -, hwritten⟩
  · exact hfits row hstored
  · exact TableDef.fits_of_coerce hwritten

/-- One pass of a delete over the rows: the callback was asked about each row in turn, the rows that
come out were there before, and the others are as many as it accepted. -/
theorem remaining_spec {accepts : Row → StateT σ Result Bool} :
    ∀ {rows : List Row} {start : σ} {kept : List Row} {last : σ},
      (remaining accepts rows).run start = .ok (kept, last) →
        (∃ answers, (rows.mapM accepts).run start = .ok (answers, last) ∧
          answers.count true + kept.length = rows.length) ∧ ∀ row ∈ kept, row ∈ rows
  | [], start, kept, last, h => by
    cases h
    exact ⟨⟨[], rfl, rfl⟩, fun row hrow => hrow⟩
  | row :: rest, start, kept, last, h => by
    rw [remaining, StateT.run_bind, Result.bind_eq_ok] at h
    obtain ⟨⟨removed, middle⟩, hask, h⟩ := h
    simp only [StateT.run_bind, Result.bind_eq_ok] at h
    obtain ⟨⟨others, final⟩, hothers, h⟩ := h
    cases h
    obtain ⟨⟨answers, hanswers, hcount⟩, hmem⟩ := remaining_spec hothers
    refine ⟨⟨removed :: answers, ?_, ?_⟩, ?_⟩
    · rw [List.mapM_cons, StateT.run_bind, hask, Result.ok_bind, StateT.run_bind, hanswers]
      rfl
    · cases removed
      · simp; omega
      · simp; omega
    · intro stored hstored
      cases removed
      · rcases List.mem_cons.mp hstored with rfl | h
        · exact List.mem_cons_self
        · exact List.mem_cons_of_mem _ (hmem _ h)
      · exact List.mem_cons_of_mem _ (hmem _ hstored)

end Callbacks

/-- A call that fails leaves the table as it was, whatever its rows are. -/
theorem call_of_error {call : Call} {error : Error} (h : (table.call call).1 = .error error) :
    (table.call call).2 = table := by
  revert h
  cases call with
  | insert rows =>
    simp only [Table.call, insert]
    split
    · exact fun _ => rfl
    · intro h; cases h
  | upsert rows =>
    simp only [Table.call, upsert]
    split
    · exact fun _ => rfl
    · intro h; cases h
  | update change =>
    simp only [Table.call, update]
    split
    · exact fun _ => rfl
    · intro h; cases h
  | delete accepts =>
    simp only [Table.call, delete]
    split
    · exact fun _ => rfl
    · intro h; cases h

/-- An insert that succeeds puts the stored rows behind the others. -/
theorem insert_eq_ok {rows : List Row} {n : Nat} {left : Table}
    (h : table.insert rows = (.ok n, left)) :
    ∃ stored, rows.mapM table.definition.coerce = .ok stored ∧ n = stored.length ∧
      left = { table with rows := table.rows ++ stored } := by
  unfold insert at h
  split at h
  · cases h
  · next stored hstored =>
    cases h
    exact ⟨stored, hstored, rfl, rfl⟩

/-- An upsert that succeeds is one of the stored rows. -/
theorem upsert_eq_ok {rows : List Row} {n : Nat} {left : Table}
    (h : table.upsert rows = (.ok n, left)) :
    ∃ stored, rows.mapM table.definition.coerce = .ok stored ∧ n = stored.length ∧
      table.upsert stored = (.ok n, left) := by
  unfold upsert at h
  split at h
  · cases h
  · next stored hstored =>
    cases h
    refine ⟨stored, hstored, rfl, ?_⟩
    unfold upsert
    rw [mapM_coerce_stored hstored]

/-- What is proved of a single call on a table whose rows fit. -/
structure Kept (before : Table) (call : Call) (result : Result Nat) (left : Table) : Prop where
  definition_eq : left.definition = before.definition
  access_eq : left.access = before.access
  sound : left.Sound
  unchanged : ∀ error, result = .error error → left.rows = before.rows
  counts : ∀ n, result = .ok n → call.Counts before n left

/-- A call that fails may leave the table as it was. -/
theorem Kept.failed {before : Table} {call : Call} (hsound : before.Sound) (error : Error) :
    Kept before call (.error error) before :=
  ⟨rfl, rfl, hsound, fun _ _ => rfl, fun _ h => by cases h⟩

theorem kept_insert (hsound : table.Sound) (rows : List Row) :
    Kept table (.insert rows) (table.insert rows).1 (table.insert rows).2 := by
  unfold insert
  split
  · next error _ => exact .failed hsound error
  · next added hadded =>
    refine ⟨rfl, rfl, ?_, (fun _ h => by cases h), fun n h => ?_⟩
    · intro row hrow
      rcases List.mem_append.mp hrow with hold | hnew
      · exact hsound row hold
      · exact fits_of_mapM_coerce hadded row hnew
    · cases h
      exact (Result.mapM_eq_ok_iff.mp hadded).length_eq.symm

theorem kept_upsert (hsound : table.Sound) (rows : List Row) :
    Kept table (.upsert rows) (table.upsert rows).1 (table.upsert rows).2 := by
  unfold upsert
  split
  · next error _ => exact .failed hsound error
  · next added hadded =>
    refine ⟨rfl, rfl, fits_foldl_putRow (fits_of_mapM_coerce hadded) hsound,
      (fun _ h => by cases h), fun n h => ?_⟩
    cases h
    exact (Result.mapM_eq_ok_iff.mp hadded).length_eq.symm

theorem kept_update (hsound : table.Sound) (change : Asking (Option Row)) :
    Kept table (.update change) (table.update change).1 (table.update change).2 := by
  unfold update
  split
  · next error _ => exact .failed hsound error
  · next n rows hrun =>
    obtain ⟨last, hrun⟩ := Result.run'_eq_ok.mp hrun
    obtain ⟨⟨answers, hanswers, hn⟩, hfits⟩ := updateRows_spec hsound hrun
    refine ⟨rfl, rfl, hfits, (fun _ h => by cases h), fun m h => ?_⟩
    cases h
    exact ⟨answers, Result.run'_eq_ok.mpr ⟨last, hanswers⟩, hn⟩

theorem kept_delete (hsound : table.Sound) (accepts : Asking Bool) :
    Kept table (.delete accepts) (table.delete accepts).1 (table.delete accepts).2 := by
  unfold delete
  split
  · next error _ => exact .failed hsound error
  · next kept hrun =>
    obtain ⟨last, hrun⟩ := Result.run'_eq_ok.mp hrun
    obtain ⟨⟨answers, hanswers, hcount⟩, hmem⟩ := remaining_spec hrun
    refine ⟨rfl, rfl, fun row hrow => hsound row (hmem row hrow), (fun _ h => by cases h),
      fun m h => ?_⟩
    cases h
    refine ⟨answers, Result.run'_eq_ok.mpr ⟨last, hanswers⟩, ?_, ?_⟩
    · omega
    · dsimp only; omega

/-- **The step lemma**: a call on a table whose rows fit leaves one whose rows fit. -/
theorem kept_call (hsound : table.Sound) :
    ∀ call : Call, Kept table call (table.call call).1 (table.call call).2
  | .insert rows => kept_insert hsound rows
  | .upsert rows => kept_upsert hsound rows
  | .update change => kept_update hsound change
  | .delete accepts => kept_delete hsound accepts

/-- **The run lemma**: so does a sequence of calls. -/
theorem sound_after (calls : List Call) :
    ∀ {table : Table}, table.Sound →
      (table.after calls).Sound ∧ (table.after calls).definition = table.definition := by
  induction calls with
  | nil => intro table hsound; exact ⟨hsound, rfl⟩
  | cons call rest ih =>
    intro table hsound
    have hkept := kept_call hsound call
    obtain ⟨hrest, hdefinition⟩ := ih hkept.sound
    exact ⟨hrest, hdefinition.trans hkept.definition_eq⟩

/-! ## The main statement -/

/-- **Every sequence of calls keeps a table sound, and no failed call leaves a trace.** Take the
table that any sequence of calls made of an empty one, and make one more call: whatever it gives
back, every row that is then stored fits the columns; if it failed, the rows are those from before;
and if it succeeded, it gives the number of rows it was about. -/
theorem call_after_calls (definition : TableDef) (calls : List Call) (call : Call) :
    let before := (Table.empty definition).after calls
    let result := (before.call call).1
    let left := (before.call call).2
    (left.definition = definition ∧ ∀ row ∈ left.rows, definition.Fits row) ∧
      (∀ error, result = .error error → left.rows = before.rows) ∧
      ∀ n, result = .ok n → call.Counts before n left := by
  intro before result left
  have hempty : (Table.empty definition).Sound := fun row hrow => by cases hrow
  obtain ⟨hsound, hdefinition⟩ := sound_after calls hempty
  have hkept : Kept before call result left := kept_call hsound call
  have hleft : left.definition = definition := hkept.definition_eq.trans hdefinition
  refine ⟨⟨hleft, ?_⟩, hkept.unchanged, hkept.counts⟩
  intro row hrow
  rw [← hleft]
  exact hkept.sound row hrow

end Table
end SqlPipeline
