import SqlPipeline.Proofs.Plan.Does

/-!
# Tables and tasks that are asked for

What planning comes to that looks a table up (`Planning.does_resolveTable`), and that asks for a
task whose planner works in memory (`Planning.does_inMemory`, `Compiling.does_inMemory`).
-/

namespace SqlPipeline

namespace Schema

variable {schema : Schema}

/-- The table a name stands for. It may be qualified by the name of the schema. -/
def resolve (schema : Schema) (name : Sql.ObjectName) : Result ResolvedTable :=
  let own : Option Sql.Ident :=
    match name.parts with
    | [table] => some table
    | [qualifier, table] =>
      if Text.sameAsciiCase qualifier.key schema.name then some table else none
    | _ => none
  match own with
  | none => .error (.tableNotFound name.text)
  | some table =>
    match schema.get? (keyOf table.key) with
    | none => .error (.tableNotFound name.text)
    | some found => .ok ⟨keyOf table.key, found.definition⟩

/-- A name stands for a table of the schema. -/
theorem exists_of_resolve {name : Sql.ObjectName} {found : ResolvedTable}
    (h : schema.resolve name = .ok found) :
    ∃ table, schema.get? found.key = some table ∧ found.definition = table.definition := by
  unfold resolve at h
  dsimp only at h
  split at h
  · cases h
  · next own _ =>
    cases hget : schema.get? (keyOf own.key) with
    | none => rw [hget] at h; cases h
    | some table => rw [hget] at h; cases h; exact ⟨table, hget, rfl⟩

end Schema

variable {context : Context} {schema : Schema}

namespace Planning

/-- Looking a table up comes to the table of the schema. -/
theorem does_resolveTable (hschema : context.schema = some schema) (name : Sql.ObjectName) :
    Does context (resolveTable name) (schema.resolve name) := by
  refine does_bind (f := fun _ => schema.resolve name) does_read fun found h => ?_
  cases h
  rw [hschema]
  have hown : ∀ own : Option Sql.Ident, Does context
      (match own with
        | none => throw (.tableNotFound name.text)
        | some table =>
          let key := Schema.keyOf table.key
          match schema.get? key with
          | none => throw (.tableNotFound name.text)
          | some found => return (⟨key, found.definition⟩ : ResolvedTable))
      (match own with
        | none => .error (.tableNotFound name.text)
        | some table =>
          match schema.get? (Schema.keyOf table.key) with
          | none => .error (.tableNotFound name.text)
          | some found => .ok (⟨Schema.keyOf table.key, found.definition⟩ : ResolvedTable)) := by
    intro own
    cases own with
    | none => exact does_throw _
    | some table =>
      dsimp only
      cases schema.get? (Schema.keyOf table.key) with
      | none => exact does_throw _
      | some found => exact does_pure _
  exact hown _

/-- A planner that works in memory is asked for a task. -/
theorem does_inMemory (hplanner : context.planner = Planner.inMemory) (request : Request) :
    Does context (make request) (Planner.inMemory request) := by
  rw [← hplanner]
  exact does_make request

end Planning

namespace Compiling

variable {before : Layout}

theorem does_inMemory (hplanner : context.planner = Planner.inMemory) (request : Request) :
    Does context before (make request) ((Planner.inMemory request).map (·, before)) :=
  does_plan (Planning.does_inMemory hplanner request)

end Compiling
end SqlPipeline
