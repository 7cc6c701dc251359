import SqlPipeline.Number.Binary64

/-!
# The nearest double

A positive ratio of whole numbers is rounded to the double next to it, and to the even one of two
that are equally near. Every operation on doubles that rounds does so once, by this rule.
-/

namespace SqlPipeline.Number

/-- The quotient rounded to the nearest whole number, the even one of two. -/
def roundQuotient (numerator denominator : Nat) : Nat :=
  let quotient := numerator / denominator
  let rest := 2 * (numerator % denominator)
  if rest < denominator then quotient
  else if denominator < rest then quotient + 1
  else quotient + quotient % 2

/-- The greatest `k` with `2 ^ k` not above a positive ratio. -/
def binaryOrder (numerator denominator : Nat) : Int :=
  let guess : Int := numerator.log2 - denominator.log2
  if denominator <<< guess.toNat ≤ numerator <<< (-guess).toNat then guess else guess - 1

namespace Binary64

/-- The double nearest to a ratio. Its significand has 53 bits as long as the exponent does not
fall below the least one; a significand that is rounded up to 54 bits carries into the exponent,
whose field follows on the fraction. -/
def ofRatio (negative : Bool) (numerator denominator : Nat) : Binary64 :=
  if numerator = 0 then zero negative
  else
    let scale := max (binaryOrder numerator denominator - 52) (-1074)
    let significand :=
      roundQuotient (numerator <<< (-scale).toNat) (denominator <<< scale.toNat)
    signed negative (min ((scale + 1074).toNat * leading + significand) (2047 * leading))

/-- The double nearest to `significand * 2 ^ exponent`. -/
def ofScaled (negative : Bool) (significand : Nat) (exponent : Int) : Binary64 :=
  ofRatio negative (significand <<< exponent.toNat) (1 <<< (-exponent).toNat)

def ofInt (n : Int) : Binary64 :=
  ofRatio (n < 0) n.natAbs 1

/-- The double nearest to `digits * 10 ^ exponent`. `length` is the number of decimal digits;
magnitudes far outside the range of doubles are settled by it. -/
def ofDecimal (negative : Bool) (digits length : Nat) (exponent : Int) : Binary64 :=
  if digits = 0 ∨ exponent + length < -330 then zero negative
  else if 310 < exponent + length then infinity negative
  else ofRatio negative (digits * Nat.pow 10 exponent.toNat) (Nat.pow 10 (-exponent).toNat)

end Binary64
end SqlPipeline.Number
