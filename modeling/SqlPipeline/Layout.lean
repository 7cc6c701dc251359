import SqlPipeline.Table.Definition

/-!
# Layouts

The columns of the rows that flow out of a task, by which references to columns become positions.
-/

namespace SqlPipeline

namespace Layout

structure Column where
  /-- The table the column is of; a computed column is of none. -/
  relation : Option String
  name : String
deriving DecidableEq, Repr, Inhabited

/-- A name after the name of its table, if that is given. -/
def qualified (relation : Option String) (name : String) : String :=
  match relation with
  | some relation => relation ++ "." ++ name
  | none => name

def Column.text (column : Column) : String :=
  qualified column.relation column.name

/-- Whether a column is meant by a possibly qualified name. -/
def Column.answers (column : Column) (relation : Option String) (name : String) : Bool :=
  Text.sameAsciiCase column.name name &&
    match relation, column.relation with
    | none, _ => true
    | some wanted, some relation => Text.sameAsciiCase relation wanted
    | some _, none => false

end Layout

structure Layout where
  columns : List Layout.Column
deriving DecidableEq, Repr, Inhabited

namespace Layout

def empty : Layout := ⟨[]⟩

/-- The layout of the rows of a table to which a query refers by `binding`. -/
def ofTable (binding : String) (definition : TableDef) : Layout :=
  ⟨definition.columns.map fun column => ⟨some binding, Text.lower column.name⟩⟩

def width (layout : Layout) : Nat :=
  layout.columns.length

def append (left right : Layout) : Layout :=
  ⟨left.columns ++ right.columns⟩

/-- The positions of the columns that satisfy a predicate. -/
def positions (layout : Layout) (p : Column → Bool) : List Nat :=
  layout.columns.zipIdx.filterMap fun (column, i) => if p column then some i else none

/-- The position of the one column that is meant by a possibly qualified name. -/
def resolve (layout : Layout) (relation : Option String) (name : String) : Result Nat :=
  match layout.positions (·.answers relation name) with
  | [] => .error (.columnNotFound (qualified relation name))
  | [i] => .ok i
  | _ => .error (.ambiguousColumn (qualified relation name))

/-- The first computed column whose name is the given text. -/
def computed? (layout : Layout) (text : String) : Option Nat :=
  layout.columns.findIdx? fun column =>
    column.relation.isNone && Text.sameAsciiCase column.name text

def ofRelation (layout : Layout) (relation : String) : List Nat :=
  layout.positions fun column =>
    match column.relation with
    | some own => Text.sameAsciiCase own relation
    | none => false

def names (layout : Layout) : List String :=
  layout.columns.map Column.name

end Layout
end SqlPipeline
