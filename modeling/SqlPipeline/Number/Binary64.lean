/-!
# Double-precision numbers

A double is the word of its 64 bits, so that equality tells zeros of different sign apart. Its
exact value is read off the bits.
-/

namespace SqlPipeline.Number

structure Binary64 where
  bits : UInt64
deriving DecidableEq, Repr, Inhabited

inductive Decoded where
  /-- The number `significand * 2 ^ exponent` with a sign, which zero has too. -/
  | finite (negative : Bool) (significand : Nat) (exponent : Int)
  | infinite (negative : Bool)
  | nan
deriving DecidableEq, Repr, Inhabited

namespace Binary64

/-- The leading bit of a significand of 53 bits, and the place of the exponent in a word. -/
def leading : Nat := 0x10000000000000

def signBit : Nat := 0x8000000000000000

def isNegative (x : Binary64) : Bool :=
  signBit ≤ x.bits.toNat

def exponentField (x : Binary64) : Nat :=
  x.bits.toNat / leading % 2048

def fractionField (x : Binary64) : Nat :=
  x.bits.toNat % leading

/-- The exact value of a double. -/
def decode (x : Binary64) : Decoded :=
  if x.exponentField = 2047 then
    if x.fractionField = 0 then .infinite x.isNegative else .nan
  else if x.exponentField = 0 then .finite x.isNegative x.fractionField (-1074)
  else .finite x.isNegative (leading + x.fractionField) (x.exponentField - 1075)

/-- The bits of a magnitude with the given sign. -/
def signed (negative : Bool) (magnitude : Nat) : Binary64 :=
  ⟨UInt64.ofNat ((if negative then signBit else 0) + magnitude)⟩

def infinity (negative : Bool) : Binary64 :=
  signed negative (2047 * leading)

def nan : Binary64 :=
  signed false (2047 * leading + leading / 2)

def zero (negative : Bool) : Binary64 :=
  signed negative 0

def neg (x : Binary64) : Binary64 :=
  ⟨x.bits ^^^ 0x8000000000000000⟩

def abs (x : Binary64) : Binary64 :=
  ⟨x.bits &&& 0x7fffffffffffffff⟩

/-- The whole number a double is, if it is finite and has no fraction. -/
def toInt? (x : Binary64) : Option Int :=
  match x.decode with
  | .finite negative m e =>
    let magnitude :=
      if 0 ≤ e then some (m <<< e.toNat)
      else if m % (1 <<< (-e).toNat) = 0 then some (m >>> (-e).toNat)
      else none
    magnitude.map fun n => if negative then -(n : Int) else n
  | _ => none

/-- The place of a double in the total order: negative before positive, the zeros apart, and NaN
outermost. -/
def rank (x : Binary64) : Int :=
  if x.isNegative then -(x.bits.toNat - signBit : Int) - 1 else x.bits.toNat

def compare (x y : Binary64) : Ordering :=
  Ord.compare x.rank y.rank

end Binary64
end SqlPipeline.Number
