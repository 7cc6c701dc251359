import SqlPipeline.Number.Binary64
import SqlPipeline.Number.Digits

/-!
# Shortest decimal of a double

The fewest significant digits that read back as the same double, and of those the nearest to its
exact value. Decimals of up to seventeen digits are tried, the shortest first: for each length the
two neighbours of the value on that decimal grid.
-/

namespace SqlPipeline.Number

/-- A positive decimal `digits * 10 ^ exponent`. -/
structure Decimal where
  digits : Nat
  exponent : Int
deriving DecidableEq, Repr, Inhabited

/-- A positive fraction, and the fractions between which numbers are rounded to it. All three are
over one denominator; the ends count as inside if `closed`. -/
structure Rounding where
  value : Nat
  low : Nat
  high : Nat
  denominator : Nat
  closed : Bool
deriving DecidableEq, Repr, Inhabited

/-- Which of two equally near decimals is taken. -/
inductive Tie where
  | upward | toEven
deriving DecidableEq, Repr, Inhabited

namespace Rounding

/-- The double `significand * 2 ^ exponent` and the reals that round to it. The neighbour below a
power of two is half as far as the one above; a real in the middle goes to the even significand. -/
def ofDouble (significand : Nat) (exponent : Int) : Rounding :=
  let up := exponent.toNat
  let below := if significand = Binary64.leading ∧ -1074 < exponent then 1 else 2
  { value := (4 * significand) <<< up
    low := (4 * significand - below) <<< up
    high := (4 * significand + 2) <<< up
    denominator := 4 <<< (-exponent).toNat
    closed := significand % 2 == 0 }

/-- The least number of places by which a positive fraction below one is shifted to reach one. -/
def shiftToOne (numerator denominator : Nat) : Nat → Nat
  | 0 => 0
  | budget + 1 =>
    if denominator ≤ numerator then 0
    else shiftToOne (numerator * 10) denominator budget + 1

/-- The number of digits before the decimal point; for a fraction below one, zero less the number
of zeros after the point. -/
def magnitude (r : Rounding) : Int :=
  if r.denominator ≤ r.value then (digitsOf (r.value / r.denominator)).length
  else 1 - (shiftToOne r.value r.denominator 400 : Int)

/-- `count * 10 ^ exponent` as a numerator over the common denominator and a further power of
ten, which scales the other side of a comparison. -/
def scaled (r : Rounding) (count : Nat) (exponent : Int) : Nat × Nat :=
  (count * r.denominator * Nat.pow 10 exponent.toNat, Nat.pow 10 (-exponent).toNat)

def admits (r : Rounding) (d : Decimal) : Bool :=
  let (x, scale) := r.scaled d.digits d.exponent
  if r.closed then r.low * scale ≤ x && x ≤ r.high * scale
  else r.low * scale < x && x < r.high * scale

/-- The distance of a decimal from the value, over a denominator that depends on the exponent
only. -/
def distance (r : Rounding) (d : Decimal) : Nat :=
  let (x, scale) := r.scaled d.digits d.exponent
  max x (r.value * scale) - min x (r.value * scale)

/-- Whether the lower of two neighbouring admitted decimals is taken. -/
def prefersLow (r : Rounding) (tie : Tie) (low high : Decimal) : Bool :=
  match Ord.compare (r.distance low) (r.distance high) with
  | .lt => true
  | .gt => false
  | .eq => tie = .toEven && low.digits % 2 == 0

/-- The nearest admitted decimal with the given last place. -/
def atPlace? (r : Rounding) (tie : Tie) (exponent : Int) : Option Decimal :=
  let below :=
    r.value * Nat.pow 10 (-exponent).toNat / (r.denominator * Nat.pow 10 exponent.toNat)
  let low : Decimal := ⟨below, exponent⟩
  let high : Decimal := ⟨below + 1, exponent⟩
  match r.admits low, r.admits high with
  | true, true => some (if r.prefersLow tie low high then low else high)
  | true, false => some low
  | false, true => some high
  | false, false => none

def strip : Nat → Decimal → Decimal
  | 0, d => d
  | budget + 1, d =>
    if d.digits % 10 = 0 ∧ d.digits ≠ 0 then strip budget ⟨d.digits / 10, d.exponent + 1⟩
    else d

/-- The shortest admitted decimal, and the nearest of those. -/
def shortest (r : Rounding) (tie : Tie) : Decimal :=
  let found := (List.range 17).findSome? fun (n : Nat) => r.atPlace? tie (r.magnitude - (n + 1))
  strip 20 (found.getD ⟨0, 0⟩)

end Rounding
end SqlPipeline.Number
