import SqlPipeline.Text.Basic
import SqlPipeline.Text.LetterCase

/-!
# Names

Identifiers, and the dotted names of tables, columns and settings.
-/

namespace SqlPipeline.Sql

/-- A name as it was written. -/
structure Ident where
  value : String
  quoted : Bool
deriving DecidableEq, Repr, Inhabited

namespace Ident

/-- The name by which things are looked up: an unquoted name is the same in any case. -/
def key (ident : Ident) : String :=
  if ident.quoted then ident.value else Text.lower ident.value

def text (ident : Ident) : String :=
  if ident.quoted then Text.enquote '"' ident.value else ident.value

end Ident

def dotted (parts : List Ident) : String :=
  Text.join "." (parts.map Ident.text)

/-- A possibly qualified name of a table or setting. -/
structure ObjectName where
  parts : List Ident
deriving DecidableEq, Repr, Inhabited

namespace ObjectName

def text (name : ObjectName) : String :=
  dotted name.parts

/-- The look-up key of the last part, which names the object itself. -/
def baseKey (name : ObjectName) : String :=
  match name.parts.getLast? with
  | some ident => ident.key
  | none => ""

end ObjectName
end SqlPipeline.Sql
