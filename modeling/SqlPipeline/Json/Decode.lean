import SqlPipeline.Json.Reader

/-!
# Decoding JSON

Reading structured data from a draft. A record is written as an object, whose members may be
missing or unknown but not repeated, or as an array of its first fields in their order. Whatever a
decoder does not look at may be invalid. The depth a decoder is given is the number of arrays and
objects that may be nested in what it reads.
-/

namespace SqlPipeline.Json

abbrev Decoder (α : Type) := (depth : Nat) → Draft → Option α

namespace Decoder

variable {α : Type}

def enter : Nat → Option Nat
  | 0 => none
  | depth + 1 => some depth

def string : Decoder String
  | _, .string content => content
  | _, _ => none

def boolean : Decoder Bool
  | _, .boolean value => some value
  | _, _ => none

/-- A natural number of 64 bits, written without point and exponent. -/
def word : Decoder Nat
  | _, .number numeral =>
    match numeral.value? with
    | some (.int n) => if 0 ≤ n then some n.toNat else none
    | _ => none
  | _, _ => none

def null : Decoder Unit
  | _, .null => some ()
  | _, _ => none

def json : Decoder Json :=
  Draft.value?

def list (item : Decoder α) : Decoder (List α)
  | depth, .array items => do
    let depth ← enter depth
    items.mapM (item depth)
  | _, _ => none

/-- The fields of a record that are present, and the depth at which they are read. -/
structure Record where
  depth : Nat
  fields : List (String × Draft)

/-- A record with fields of the given names. -/
def record (names : List String) : Decoder Record
  | depth, .array items => do
    let depth ← enter depth
    if items.length ≤ names.length then return ⟨depth, names.zip items⟩ else none
  | depth, .object members => do
    let depth ← enter depth
    let named ← members.mapM fun (name, value) => name.map (·, value)
    let known := named.filter (names.contains ·.1)
    if (known.map (·.1)).Nodup then return ⟨depth, known⟩ else none
  | _, _ => none

def Record.required (found : Record) (name : String) (field : Decoder α) : Option α := do
  field found.depth (← found.fields.lookup name)

def Record.optional (found : Record) (name : String) (default : α) (field : Decoder α) :
    Option α :=
  match found.fields.lookup name with
  | some draft => field found.depth draft
  | none => some default

end Decoder
end SqlPipeline.Json
