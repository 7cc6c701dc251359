/-!
# Digit strings

Unsigned and signed whole numbers in decimal text.
-/

namespace SqlPipeline.Number

/-- The number of words of 64 bits. -/
def wordCount : Nat := 0x10000000000000000

def digitsValue (digits : List Char) : Nat :=
  digits.foldl (fun acc c => acc * 10 + (c.toNat - '0'.toNat)) 0

/-- The number a text of one or more decimal digits spells. -/
def natural? (cs : List Char) : Option Nat :=
  if cs.isEmpty || !cs.all Char.isDigit then none else some (digitsValue cs)

/-- A sign at the front of a text, true for minus, and what follows it. -/
def signSplit : List Char → Bool × List Char
  | '-' :: cs => (true, cs)
  | '+' :: cs => (false, cs)
  | cs => (false, cs)

/-- The whole number a text of digits spells that may have a sign. -/
def integer? (cs : List Char) : Option Int :=
  let (negative, digits) := signSplit cs
  (natural? digits).map fun n => if negative then -n else n

def digitsOf (n : Nat) : List Char :=
  Nat.toDigits 10 n

end SqlPipeline.Number
