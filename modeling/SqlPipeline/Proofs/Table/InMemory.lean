import SqlPipeline.Proofs.Table.Calls
import SqlPipeline.Schema.Basic

/-!
# Tables in memory

A schema is in memory if all its tables can be read and written and the rows of each fit its
columns. That is what the calls on a table keep up (`Table.kept_call`), and it can be decided.
-/

namespace SqlPipeline

instance (definition : TableDef) (row : Row) : Decidable (definition.Fits row) :=
  inferInstanceAs (Decidable (List.Forall₂ (fun (column : ColumnDef) (value : Value) =>
    value = .null ∨ value.datatype? = some column.datatype) definition.columns row))

instance (table : Table) : Decidable table.Sound :=
  inferInstanceAs (Decidable (∀ row ∈ table.rows, table.definition.Fits row))

namespace Schema

variable {schema : Schema} {key : String} {table : Table}

/-- All tables of a schema are held in memory: they can be read and written, and their rows fit. -/
def InMemory (schema : Schema) : Prop :=
  ∀ entry ∈ schema.tables, entry.2.access = .readWrite ∧ entry.2.Sound

instance (schema : Schema) : Decidable schema.InMemory :=
  inferInstanceAs
    (Decidable (∀ entry ∈ schema.tables, entry.2.access = .readWrite ∧ entry.2.Sound))

theorem mem_of_get? (h : schema.get? key = some table) : (key, table) ∈ schema.tables := by
  unfold get? at h
  generalize schema.tables = tables at h ⊢
  induction tables with
  | nil => cases h
  | cons entry rest ih =>
    obtain ⟨other, old⟩ := entry
    rw [List.lookup_cons] at h
    split at h
    · next heq =>
      cases h
      rw [eq_of_beq heq]
      exact List.mem_cons_self
    · exact List.mem_cons_of_mem _ (ih h)

theorem InMemory.access_eq (hschema : schema.InMemory) (h : schema.get? key = some table) :
    table.access = .readWrite :=
  (hschema _ (mem_of_get? h)).1

theorem InMemory.sound (hschema : schema.InMemory) (h : schema.get? key = some table) :
    table.Sound :=
  (hschema _ (mem_of_get? h)).2

theorem InMemory.scan_eq (hschema : schema.InMemory) (h : schema.get? key = some table) :
    table.scan = .ok table.rows := by
  unfold Table.scan
  rw [hschema.access_eq h]

/-! ## Setting a table -/

theorem lookup_putTable (key : String) (table : Table) (other : String) :
    ∀ tables : List (String × Table), (putTable key table tables).lookup other =
      if other = key then some table else tables.lookup other
  | [] => by
    by_cases h : other = key
    · simp [putTable, h]
    · simp [putTable, h]
  | (taken, old) :: rest => by
    have hrest := lookup_putTable key table other rest
    rw [putTable]
    by_cases htaken : taken = key
    · subst htaken
      by_cases h : other = taken
      · simp [h]
      · simp [List.lookup_cons, h, beq_false_of_ne h]
    · rw [if_neg htaken, List.lookup_cons, List.lookup_cons, hrest]
      by_cases h : other = taken
      · simp [h, htaken]
      · simp [beq_false_of_ne h]

theorem get?_put_self (schema : Schema) (key : String) (table : Table) :
    (schema.put key table).get? key = some table := by
  unfold get? put
  rw [lookup_putTable, if_pos rfl]

/-- Setting a table leaves all others alone. -/
theorem get?_put_of_ne (schema : Schema) {key other : String} (table : Table)
    (h : other ≠ key) : (schema.put key table).get? other = schema.get? other := by
  unfold get? put
  rw [lookup_putTable, if_neg h]

/-- Setting a table to itself changes nothing. -/
theorem put_get? (h : schema.get? key = some table) : schema.put key table = schema := by
  -- the entry that is replaced is the first one under the key, which is the one that is found
  have htables : ∀ tables : List (String × Table), tables.lookup key = some table →
      putTable key table tables = tables := by
    intro tables
    induction tables with
    | nil => intro h; cases h
    | cons entry rest ih =>
      obtain ⟨taken, old⟩ := entry
      intro h
      rw [List.lookup_cons] at h
      rw [putTable]
      by_cases htaken : taken = key
      · subst htaken
        rw [beq_self_eq_true] at h
        cases h
        rw [if_pos rfl]
      · rw [beq_false_of_ne (Ne.symm htaken)] at h
        rw [if_neg htaken, ih h]
  unfold put
  rw [htables schema.tables h]

/-! ## A family and its pets -/

/-- Two tables in memory, of which each row of the second names one of the first. -/
def family : Schema :=
  ⟨"family",
    [("people", ⟨⟨"people", [⟨"id", .int64⟩, ⟨"name", .utf8⟩]⟩, .readWrite,
        [[.int 1, .utf8 "ann"], [.int 2, .utf8 "bob"]]⟩),
      ("pets", ⟨⟨"pets", [⟨"owner", .int64⟩, ⟨"kind", .utf8⟩]⟩, .readWrite,
        [[.int 2, .utf8 "cat"], [.int 1, .utf8 "dog"], [.int 2, .null]]⟩)]⟩

theorem inMemory_family : family.InMemory := by
  decide

end Schema
end SqlPipeline
