import Mathlib.Data.List.Induction
import SqlPipeline.Proofs.Table.Calls

/-!
# Upserted rows

An upsert takes its rows one after the other, and each of them may meet a row that was stored before,
one that an earlier row of the same upsert replaced, or one that it appended. What it comes to can be
told from the stored and the given rows alone (`Table.Upserted`): the last given row of a key counts,
it stands where the first stored row of that key stood, and the keys that were not stored come
behind, in the order in which they first appear (`Table.upsert_positions`).

The table itself does not keep keys apart, and only the first stored row of a key is replaced: those
behind it stay (`Table.filter_key_upsert`). So an upsert may leave old rows of a key that it was
given (`Table.upsert_leaves_old_row`).
-/

namespace SqlPipeline.Table

/-- The key by which a row is upserted: its first value. -/
def key (row : Row) : Option Value :=
  row.head?

def latest? (given : List Row) (wanted : Option Value) : Option Row :=
  given.reverse.find? fun row => key row = wanted

/-- The keys of the given rows that no stored row has, in order of first appearance. -/
def newKeys (stored given : List Row) : List (Option Value) :=
  (given.map key).eraseDups.filter fun wanted => wanted ∉ stored.map key

/-- What upserting the given rows makes of the stored ones. -/
structure Upserted (stored given after : List Row) : Prop where
  /-- The first stored row of a key that was given is replaced by the last given row of that key. -/
  replaced : ∀ i row last, stored[i]? = some row → key row ∉ (stored.take i).map key →
    latest? given (key row) = some last → after[i]? = some last
  /-- All other stored rows stay as they are, where they are. -/
  kept : ∀ i row, stored[i]? = some row →
    (key row ∈ (stored.take i).map key ∨ key row ∉ given.map key) → after[i]? = some row
  /-- Behind them, there is the last given row of each new key, and nothing else. -/
  added : List.Forall₂ (fun wanted row => latest? given wanted = some row) (newKeys stored given)
    (after.drop stored.length)

/-! ## The last row of a key -/

variable {given stored after : List Row} {row last : Row} {wanted : Option Value}

theorem latest?_concat (given : List Row) (row : Row) (wanted : Option Value) :
    latest? (given ++ [row]) wanted =
      if key row = wanted then some row else latest? given wanted := by
  unfold latest?
  rw [List.reverse_concat, List.find?_cons]
  split <;> simp_all

theorem latest?_cons (row : Row) (given : List Row) (wanted : Option Value) :
    latest? (row :: given) wanted =
      (latest? given wanted).or (if key row = wanted then some row else none) := by
  unfold latest?
  rw [List.reverse_cons, List.find?_append]
  by_cases hkey : key row = wanted <;> simp [hkey]

theorem key_of_latest? (h : latest? given wanted = some last) : key last = wanted := by
  unfold latest? at h
  simpa using List.find?_some h

/-- There is a last row of a key if there is a row of it. -/
theorem latest?_eq_none_iff : latest? given wanted = none ↔ wanted ∉ given.map key := by
  simp only [latest?, List.find?_eq_none, List.mem_reverse, decide_eq_true_eq, List.mem_map,
    not_exists, not_and]

theorem exists_latest? (h : wanted ∈ given.map key) : ∃ last, latest? given wanted = some last :=
  Option.ne_none_iff_exists'.mp (mt latest?_eq_none_iff.mp (not_not_intro h))

/-- Rows of another key do not matter. -/
theorem latest?_filter_ne {other : Option Value} (h : wanted ≠ other) :
    latest? (given.filter fun row => key row ≠ other) wanted = latest? given wanted := by
  unfold latest?
  rw [← List.filter_reverse, List.find?_filter]
  congr 1
  funext row
  by_cases hkey : key row = wanted <;> simp [hkey, h]

theorem latest?_of_filter_ne {other : Option Value}
    (h : latest? (given.filter fun row => key row ≠ other) wanted = some last) :
    wanted ≠ other ∧ latest? given wanted = some last := by
  have hmem : wanted ∈ (given.filter fun row => key row ≠ other).map key := by
    by_contra hnone
    cases h.symm.trans (latest?_eq_none_iff.mpr hnone)
  obtain ⟨row, hrow, rfl⟩ := List.mem_map.mp hmem
  have hother : key row ≠ other := by simpa using (List.mem_filter.mp hrow).2
  exact ⟨hother, latest?_filter_ne hother ▸ h⟩

/-! ## One key at a time -/

/-- Puts rows among others, one after the other. -/
def putRows (given stored : List Row) : List Row :=
  given.foldl (fun rows row => putRow row rows) stored

theorem putRow_cons (row first : Row) (rest : List Row) :
    putRow row (first :: rest) =
      if key first = key row then row :: rest else first :: putRow row rest := rfl

/-- **The first stored row takes all given rows of its key**, and the others go on to those behind
it. -/
theorem putRows_cons (given : List Row) (first : Row) (rest : List Row) :
    putRows given (first :: rest) =
      (latest? given (key first)).getD first ::
        putRows (given.filter fun row => key row ≠ key first) rest := by
  induction given generalizing first rest with
  | nil => rfl
  | cons row given ih =>
    have hput : putRows (row :: given) (first :: rest) =
        putRows given (putRow row (first :: rest)) := rfl
    rw [hput, putRow_cons, latest?_cons]
    by_cases hkey : key first = key row
    · rw [if_pos hkey, ih, hkey, List.filter_cons_of_neg (by simp)]
      cases latest? given (key row) <;> simp
    · have hfilter : putRows ((row :: given).filter fun row => key row ≠ key first) rest =
          putRows (given.filter fun row => key row ≠ key first) (putRow row rest) := by
        rw [List.filter_cons_of_pos (by simpa using Ne.symm hkey)]
        rfl
      rw [if_neg hkey, ih, hfilter]
      simp [Ne.symm hkey]

/-- Without stored rows, the last given row of each key is appended. -/
theorem forall₂_putRows_nil : ∀ given : List Row,
    List.Forall₂ (fun wanted row => latest? given wanted = some row) (given.map key).eraseDups
      (putRows given [])
  | [] => .nil
  | row :: given => by
    have hrest := forall₂_putRows_nil (given.filter fun other => key other ≠ key row)
    have hkeys : (given.map key).filter (fun wanted => !wanted == key row) =
        (given.filter fun other => key other ≠ key row).map key := by
      rw [List.filter_map]
      congr 1
      exact List.filter_congr fun other _ => by rw [Bool.eq_iff_iff]; simp
    have hput : putRows (row :: given) [] = putRows given [row] := rfl
    rw [hput, putRows_cons, List.map_cons, List.eraseDups_cons, hkeys]
    refine .cons ?_ (hrest.imp fun wanted last hlast => ?_)
    · rw [latest?_cons, if_pos rfl]
      cases latest? given (key row) <;> rfl
    · obtain ⟨hne, hlatest⟩ := latest?_of_filter_ne hlast
      rw [latest?_cons, hlatest]
      rfl
termination_by given => given.length
decreasing_by exact Nat.lt_succ_of_le (List.length_filter_le _ _)

theorem newKeys_cons (first : Row) (rest given : List Row) :
    newKeys (first :: rest) given =
      newKeys rest (given.filter fun row => key row ≠ key first) := by
  have hkeys : (given.filter fun row => key row ≠ key first).map key =
      (given.map key).filter fun wanted => wanted ≠ key first := by
    rw [List.filter_map]
    rfl
  unfold newKeys
  rw [hkeys, eraseDups_filter, List.filter_filter]
  exact List.filter_congr fun wanted _ => by simp [Bool.and_comm]

/-- **Putting rows among others one after the other replaces the first row of each key, or appends
one.** -/
theorem upserted_putRows (given stored : List Row) :
    Upserted stored given (putRows given stored) := by
  induction stored generalizing given with
  | nil =>
    refine ⟨(fun i row last h => by cases h), (fun i row h => by cases h), ?_⟩
    have hnew : newKeys [] given = (given.map key).eraseDups := by simp [newKeys]
    rw [hnew]
    exact forall₂_putRows_nil given
  | cons first rest ih =>
    -- the rows behind the first meet only the given rows of other keys
    obtain ⟨hreplaced, hkept, hadded⟩ := ih (given.filter fun row => key row ≠ key first)
    rw [putRows_cons]
    refine ⟨fun i row last hrow hfirst hlast => ?_, fun i row hrow hother => ?_, ?_⟩
    · cases i with
      | zero =>
        cases hrow
        simp [hlast]
      | succ i =>
        obtain ⟨hne, hnotMem⟩ : key row ≠ key first ∧ key row ∉ (rest.take i).map key := by
          simpa using hfirst
        exact hreplaced i row last hrow hnotMem ((latest?_filter_ne hne).trans hlast)
    · cases i with
      | zero =>
        cases hrow
        have hnone : latest? given (key first) = none := by
          rw [latest?_eq_none_iff]
          simpa using hother
        simp [hnone]
      | succ i =>
        refine hkept i row hrow ?_
        by_cases hne : key row = key first
        · exact Or.inr (by simp [hne])
        · refine hother.imp (fun hmem => ?_) (fun hnotMem hmem => hnotMem ?_)
          · simpa [hne] using hmem
          · obtain ⟨other, hmem, hkey⟩ := List.mem_map.mp hmem
            exact List.mem_map.mpr ⟨other, (List.mem_filter.mp hmem).1, hkey⟩
    · rw [newKeys_cons]
      exact hadded.imp fun wanted row hlast => (latest?_of_filter_ne hlast).2

/-! ## All keys together -/

theorem keys_putRows (given stored : List Row) :
    (putRows given stored).map key = stored.map key ++ newKeys stored given := by
  induction stored generalizing given with
  | nil =>
    have hnew : newKeys [] given = (given.map key).eraseDups := by simp [newKeys]
    rw [hnew, List.map_nil, List.nil_append, ← List.forall₂_eq_eq_eq,
      List.forall₂_map_left_iff]
    exact (forall₂_putRows_nil given).flip.imp fun row wanted hlast => key_of_latest? hlast
  | cons first rest ih =>
    have hfirst : key ((latest? given (key first)).getD first) = key first := by
      cases hlast : latest? given (key first) with
      | none => rfl
      | some last => exact key_of_latest? hlast
    rw [putRows_cons, newKeys_cons, List.map_cons, List.map_cons, hfirst, ih, List.cons_append]

/-- Keys that were kept apart before stay apart. -/
theorem nodup_keys_putRows (h : (stored.map key).Nodup) :
    ((putRows given stored).map key).Nodup := by
  rw [keys_putRows, List.nodup_append]
  refine ⟨h, (nodup_eraseDups _).filter _, fun old hold wanted hwanted heq => ?_⟩
  have hnew : wanted ∉ stored.map key := of_decide_eq_true (List.mem_filter.mp hwanted).2
  exact hnew (heq ▸ hold)

/-- The row that is put takes the place of the first of its key. -/
theorem filter_putRow (row : Row) (rows : List Row) (wanted : Option Value) :
    (putRow row rows).filter (fun other => key other = wanted) =
      if key row = wanted then row :: (rows.filter fun other => key other = wanted).tail
      else rows.filter fun other => key other = wanted := by
  induction rows with
  | nil => by_cases hkey : key row = wanted <;> simp [putRow, hkey]
  | cons first rest ih =>
    rw [putRow_cons]
    by_cases hfirst : key first = key row
    · by_cases hkey : key row = wanted <;> simp [hfirst, hkey]
    · rw [if_neg hfirst, List.filter_cons, ih]
      by_cases hkey : key row = wanted
      · have hne : key first ≠ wanted := hkey ▸ hfirst
        simp [hkey, hne]
      · simp [hkey, List.filter_cons]

/-- Of the rows of a key, the first is replaced by the last given one. -/
theorem filter_putRows (given stored : List Row) (wanted : Option Value) :
    (putRows given stored).filter (fun row => key row = wanted) =
      (latest? given wanted).elim (stored.filter fun row => key row = wanted)
        fun last => last :: (stored.filter fun row => key row = wanted).tail := by
  induction given using List.reverseRecOn with
  | nil => rfl
  | append_singleton given row ih =>
    have hput : putRows (given ++ [row]) stored = putRow row (putRows given stored) := by
      simp [putRows]
    rw [hput, filter_putRow, ih, latest?_concat]
    by_cases hkey : key row = wanted
    · rw [if_pos hkey, if_pos hkey]
      cases latest? given wanted <;> rfl
    · rw [if_neg hkey, if_neg hkey]

/-! ## The main statements -/

/-- An upsert that succeeds puts the stored forms of its rows among the stored rows. -/
theorem rows_of_upsert {table left : Table} {rows : List Row} {n : Nat}
    (h : table.upsert rows = (.ok n, left)) :
    ∃ given, rows.mapM table.definition.coerce = .ok given ∧
      left = { table with rows := putRows given table.rows } := by
  unfold upsert at h
  split at h
  · cases h
  · next given hgiven =>
    cases h
    exact ⟨given, hgiven, rfl⟩

/-- **An upsert touches only the keys it was given and keeps positions.** If it succeeds, all stored
rows stay where they are, except that the first row of each given key is replaced by the last given
row of that key in its stored form; behind them comes one such row for each key that was not stored,
in order of first appearance, and nothing else. If the stored keys were pairwise distinct, they still
are. -/
theorem upsert_positions {table left : Table} {rows : List Row} {n : Nat}
    (h : table.upsert rows = (.ok n, left)) :
    ∃ given, rows.mapM table.definition.coerce = .ok given ∧
      left.definition = table.definition ∧ Upserted table.rows given left.rows ∧
        ((table.rows.map key).Nodup → (left.rows.map key).Nodup) := by
  obtain ⟨given, hgiven, rfl⟩ := rows_of_upsert h
  exact ⟨given, hgiven, rfl, upserted_putRows given table.rows, nodup_keys_putRows⟩

/-- A table in which two rows have the key 1 and one has the key NULL. -/
def repeated : Table :=
  ⟨⟨"t", [⟨"id", .int64⟩, ⟨"v", .utf8⟩]⟩, .readWrite,
    [[.int 1, .utf8 "a"], [.int 2, .utf8 "b"], [.int 1, .utf8 "c"], [.null, .utf8 "d"]]⟩

/-- Keys that are NULL, given as text, given twice, stored twice and not stored at all. -/
theorem upsert_positions_repeated :
    let rows : List Row := [[.utf8 " 1", .utf8 "e"], [.int 7, .utf8 "f"], [.null, .utf8 "g"],
      [.int 1, .utf8 "h"], [.utf8 "7", .utf8 "i"]]
    let left : Table := { repeated with
      rows := [[.int 1, .utf8 "h"], [.int 2, .utf8 "b"], [.int 1, .utf8 "c"], [.null, .utf8 "g"],
        [.int 7, .utf8 "i"]] }
    repeated.upsert rows = (.ok 5, left) ∧ ∃ given,
      rows.mapM repeated.definition.coerce = .ok given ∧
        left.definition = repeated.definition ∧ Upserted repeated.rows given left.rows ∧
          ((repeated.rows.map key).Nodup → (left.rows.map key).Nodup) :=
  ⟨rfl, upsert_positions rfl⟩

/-- **Of the stored rows of a given key, an upsert replaces the first.** After an upsert that
succeeds, the rows of each key that it was given are the last given row of that key, in its stored
form, and behind it those that stood behind the first before. So it is the only one exactly if no
two stored rows had that key. -/
theorem filter_key_upsert {table left : Table} {rows : List Row} {n : Nat}
    (h : table.upsert rows = (.ok n, left)) :
    ∃ given, rows.mapM table.definition.coerce = .ok given ∧ ∀ wanted ∈ given.map key,
      ∃ last, latest? given wanted = some last ∧
        left.rows.filter (fun row => key row = wanted) =
          last :: (table.rows.filter fun row => key row = wanted).tail := by
  obtain ⟨given, hgiven, rfl⟩ := rows_of_upsert h
  refine ⟨given, hgiven, fun wanted hwanted => ?_⟩
  obtain ⟨last, hlast⟩ := exists_latest? hwanted
  refine ⟨last, hlast, ?_⟩
  dsimp only
  rw [filter_putRows, hlast]
  rfl

/-- The second row of the key 1 outlives an upsert of that key. -/
theorem filter_key_upsert_repeated :
    let rows : List Row := [[.int 1, .utf8 "e"], [.utf8 "1", .utf8 "f"]]
    let left : Table := { repeated with
      rows := [[.int 1, .utf8 "f"], [.int 2, .utf8 "b"], [.int 1, .utf8 "c"], [.null, .utf8 "d"]] }
    repeated.upsert rows = (.ok 2, left) ∧ ∃ given,
      rows.mapM repeated.definition.coerce = .ok given ∧ ∀ wanted ∈ given.map key,
        ∃ last, latest? given wanted = some last ∧
          left.rows.filter (fun row => key row = wanted) =
            last :: (repeated.rows.filter fun row => key row = wanted).tail :=
  ⟨rfl, filter_key_upsert rfl⟩

/-- It is not true of every table that was filled by calls that after an upsert the last given row
of a key is the only one of that key: rows that are inserted may have one key. -/
theorem upsert_leaves_old_row :
    ¬∀ (definition : TableDef) (calls : List Call) (rows given : List Row) (n : Nat) (left : Table),
      ((empty definition).after calls).upsert rows = (.ok n, left) →
      rows.mapM definition.coerce = .ok given → ∀ wanted ∈ given.map key,
        ∃ last, latest? given wanted = some last ∧
          left.rows.filter (fun row => key row = wanted) = [last] := by
  intro h
  obtain ⟨last, -, hrows⟩ := h ⟨"t", [⟨"id", .int64⟩, ⟨"v", .utf8⟩]⟩
    [.insert [[.int 1, .utf8 "a"], [.int 1, .utf8 "b"]]] [[.int 1, .utf8 "c"]]
    [[.int 1, .utf8 "c"]] 1 _ rfl rfl (some (.int 1)) (by decide)
  have htwo : 2 = 1 := congrArg List.length hrows
  cases htwo

end SqlPipeline.Table
