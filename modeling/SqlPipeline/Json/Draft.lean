import SqlPipeline.Number.Arithmetic
import SqlPipeline.Json.Basic

/-!
# JSON as it was written

A draft is a JSON text cut into values: its numbers are not computed yet, and a string may have
half of a surrogate pair in it, which stands for no character. Such parts and numbers beyond the
range of doubles make a draft invalid only where its value is asked for.

A number is computed in two rounded steps: the leading digits that fit in 64 bits become a double,
which is multiplied or divided by a power of ten.
-/

namespace SqlPipeline.Json

open Number (Binary64)

/-- A number as it was written. -/
structure Numeral where
  negative : Bool
  whole : List Char
  /-- The digits after the point. A number without them has no point. -/
  fraction : List Char
  exponent : Option Int
deriving DecidableEq, Repr, Inhabited

namespace Numeral

/-- Appends digits to a number while it fits in 64 bits. Gives the number and how many of the
digits are left out. -/
def appendDigits (n : Nat) : List Char → Nat × Nat
  | [] => (n, 0)
  | c :: cs =>
    let next := n * 10 + Number.digitsValue [c]
    if next < Number.wordCount then appendDigits next cs else (n, cs.length + 1)

def powerOfTen (n : Nat) : Binary64 :=
  .ofDecimal false 1 1 n

/-- A number times a power of ten, if the result is a finite double. Two divisions by the
greatest power of ten of a double leave zero of any 64-bit number. -/
def scale? (n : Nat) (exponent : Int) : Option Binary64 :=
  let f := Binary64.ofInt n
  if n = 0 then some f
  else if 308 < exponent then none
  else if 0 ≤ exponent then
    let scaled := f.mul (powerOfTen exponent.toNat)
    if scaled = .infinity false then none else some scaled
  else if -308 ≤ exponent then some (f.div (powerOfTen exponent.natAbs))
  else if -616 ≤ exponent then
    some ((f.div (powerOfTen 308)).div (powerOfTen (exponent.natAbs - 308)))
  else some (.zero false)

/-- The number of a numeral with a point or an exponent, or of one with too many digits. -/
def double? (numeral : Numeral) : Option Binary64 :=
  let (whole, wholeLeft) := appendDigits 0 numeral.whole
  let (digits, fractionLeft) := appendDigits whole numeral.fraction
  let places : Int := numeral.fraction.length - fractionLeft
  (scale? digits (wholeLeft - places + numeral.exponent.getD 0)).map fun f =>
    if numeral.negative then f.neg else f

/-- The value of a numeral. Digits alone are an integer if they fit in 64 bits with their sign;
minus zero is a double. -/
def value? (numeral : Numeral) : Option Json :=
  let n := Number.digitsValue numeral.whole
  if numeral.fraction.isEmpty ∧ numeral.exponent.isNone then
    if numeral.negative then
      if 0 < n ∧ 2 * n ≤ Number.wordCount then some (.int (-n)) else numeral.double?.map .float
    else if n < Number.wordCount then some (.int n)
    else numeral.double?.map .float
  else numeral.double?.map .float

end Numeral

/-- A JSON value as it was written. -/
inductive Draft where
  | null
  | boolean (value : Bool)
  | number (numeral : Numeral)
  /-- A string, without content if half of a surrogate pair stands alone in it. -/
  | string (content : Option String)
  | array (items : List Draft)
  | object (members : List (Option String × Draft))
deriving Repr, Inhabited

namespace Draft

mutual

/-- The value of a draft whose arrays and objects are nested at most `depth` deep. Of members of
one name the last one counts. -/
def value? (depth : Nat) : Draft → Option Json
  | null => some .null
  | boolean value => some (.boolean value)
  | number numeral => numeral.value?
  | string content => content.map .string
  | array items =>
    match depth with
    | 0 => none
    | depth + 1 => (itemValues? depth items).map .array
  | object members =>
    match depth with
    | 0 => none
    | depth + 1 => (memberValues? depth [] members).map .object
termination_by structural draft => draft

def itemValues? (depth : Nat) : List Draft → Option (List Json)
  | [] => some []
  | item :: rest => do
    let value ← item.value? depth
    return value :: (← itemValues? depth rest)
termination_by structural items => items

def memberValues? (depth : Nat) (sorted : List (String × Json)) :
    List (Option String × Draft) → Option (List (String × Json))
  | [] => some sorted
  | (name, member) :: rest => do
    let name ← name
    let value ← member.value? depth
    memberValues? depth (insertMember name value sorted) rest
termination_by structural members => members

end

end Draft
end SqlPipeline.Json
