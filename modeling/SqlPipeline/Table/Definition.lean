import SqlPipeline.Text.LetterCase
import SqlPipeline.Value.Cast

/-!
# Table definitions

The name and the columns of a table, and the form in which its rows are stored: one value per
column, each cast to the type of its column.
-/

namespace SqlPipeline

structure ColumnDef where
  name : String
  datatype : DataType
deriving DecidableEq, Repr, Inhabited

structure TableDef where
  name : String
  columns : List ColumnDef
deriving DecidableEq, Repr, Inhabited

namespace TableDef

/-- The position of the first column of a name, up to the case of ASCII letters. -/
def position? (definition : TableDef) (name : String) : Option Nat :=
  definition.columns.findIdx? fun column => Text.sameAsciiCase column.name name

/-- Casts the values of a row to the types of as many columns. -/
def castRow : List ColumnDef → Row → Result Row
  | column :: columns, value :: row => do
    let stored ← value.cast column.datatype
    return stored :: (← castRow columns row)
  | _, _ => .ok []

/-- The stored form of a row. -/
def coerce (definition : TableDef) (row : Row) : Result Row :=
  if row.length = definition.columns.length then castRow definition.columns row
  else .error (.runtime ("Table '" ++ definition.name ++ "' expects "
    ++ toString definition.columns.length ++ " values per row, got " ++ toString row.length))

end TableDef
end SqlPipeline
