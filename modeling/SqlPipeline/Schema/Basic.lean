import SqlPipeline.Table.Basic

/-!
# Schemas

A named collection of tables in the order they were added. Tables are found by their names in
lower case, and a table of a name already taken replaces the one that had it.
-/

namespace SqlPipeline

structure Schema where
  name : String
  /-- The tables with the keys by which they are found. -/
  tables : List (String × Table)
deriving DecidableEq, Repr, Inhabited

namespace Schema

def empty (name : String) : Schema :=
  ⟨name, []⟩

def keyOf (name : String) : String :=
  Text.lower name

/-- Sets the table of a key, in the place of the one that has it or at the end. -/
def putTable (key : String) (table : Table) : List (String × Table) → List (String × Table)
  | [] => [(key, table)]
  | (other, old) :: rest =>
    if other = key then (key, table) :: rest else (other, old) :: putTable key table rest

def put (schema : Schema) (key : String) (table : Table) : Schema :=
  { schema with tables := putTable key table schema.tables }

def add (schema : Schema) (table : Table) : Schema :=
  schema.put (keyOf table.definition.name) table

def get? (schema : Schema) (key : String) : Option Table :=
  schema.tables.lookup key

/-- The table of a name, in any case. -/
def find? (schema : Schema) (name : String) : Option Table :=
  schema.get? (keyOf name)

end Schema
end SqlPipeline
