import SqlPipeline.Json.Decode
import SqlPipeline.Schema.Basic
import SqlPipeline.Value.Cast

/-!
# Catalogs

Schemas with their tables and rows as a JSON text, and the schema made of one of them.
-/

namespace SqlPipeline

structure TableSource where
  definition : TableDef
  rows : List (List Json)
deriving Repr, Inhabited

structure SchemaSource where
  name : String
  tables : List TableSource
deriving Repr, Inhabited

structure Catalog where
  schemas : List SchemaSource
deriving Repr, Inhabited

namespace Catalog

open Json Decoder

def datatypeOfName? (name : String) : Option DataType :=
  if name = "boolean" then some .boolean
  else if name = "int64" then some .int64
  else if name = "float64" then some .float64
  else if name = "utf8" then some .utf8
  else none

/-- A type by its name, alone or as the one member of an object, whose value is null. -/
def datatype : Decoder DataType
  | _, .string (some name) => datatypeOfName? name
  | depth, .object [(some name, .null)] => do
    discard (enter depth)
    datatypeOfName? name
  | _, _ => none

def column : Decoder ColumnDef := fun depth draft => do
  let found ← record ["name", "datatype"] depth draft
  return ⟨← found.required "name" string, ← found.required "datatype" datatype⟩

def table : Decoder TableSource := fun depth draft => do
  let found ← record ["name", "columns", "rows"] depth draft
  let name ← found.required "name" string
  let definition := ⟨name, ← found.required "columns" (list column)⟩
  return ⟨definition, ← found.optional "rows" [] (list (list json))⟩

def schema : Decoder SchemaSource := fun depth draft => do
  let found ← record ["name", "tables"] depth draft
  return ⟨← found.required "name" string, ← found.optional "tables" [] (list table)⟩

def catalog : Decoder Catalog := fun depth draft => do
  let found ← record ["schemas"] depth draft
  return ⟨← found.optional "schemas" [] (list schema)⟩

def ofText (text : String) : Result Catalog :=
  match (Draft.ofText? text).bind (catalog maxDepth) with
  | some found => .ok found
  | none => .error (.plan "Invalid catalog")

def buildTable (source : TableSource) : Result Table := do
  let rows ← source.rows.mapM fun row => row.mapM Value.ofJson
  Table.ofRows source.definition rows

/-- The first schema of a name, up to the case of ASCII letters, with its tables. -/
def build (catalog : Catalog) (name : String) : Result Schema := do
  match catalog.schemas.find? fun schema => Text.sameAsciiCase schema.name name with
  | none => .error (.plan ("Missing schema: " ++ name))
  | some source =>
    source.tables.foldlM (fun schema table => do return schema.add (← buildTable table))
      (Schema.empty source.name)

end Catalog
end SqlPipeline
