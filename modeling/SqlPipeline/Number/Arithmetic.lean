import SqlPipeline.Number.Nearest

/-!
# Arithmetic on doubles

The exact result of two finite operands, rounded once. An infinite operand counts as greater than
all finite ones, and what has no result is NaN.

The sign of such a NaN is a choice, which the standard of floating-point numbers leaves open. Here it
is always the positive quiet NaN. A machine may give the negative one, as x86-64 does, which the total
order puts below all numbers and not above them.
-/

namespace SqlPipeline.Number.Binary64

/-- A significand with its sign, as a multiple of a lower power of two. -/
def shifted (negative : Bool) (significand : Nat) (places : Int) : Int :=
  let magnitude : Int := significand <<< places.toNat
  if negative then -magnitude else magnitude

/-- The sum. A sum of zero is negative only if both operands are. -/
def add (x y : Binary64) : Binary64 :=
  match x.decode, y.decode with
  | .nan, _ | _, .nan => nan
  | .infinite s, .infinite t => if s = t then infinity s else nan
  | .infinite s, _ | _, .infinite s => infinity s
  | .finite s m e, .finite t n f =>
    let scale := min e f
    let sum := shifted s m (e - scale) + shifted t n (f - scale)
    if sum = 0 then zero (s && t) else ofScaled (sum < 0) sum.natAbs scale

def sub (x y : Binary64) : Binary64 :=
  x.add y.neg

def mul (x y : Binary64) : Binary64 :=
  match x.decode, y.decode with
  | .nan, _ | _, .nan => nan
  | .infinite s, .infinite t => infinity (s != t)
  | .infinite s, .finite t n _ | .finite t n _, .infinite s =>
    if n = 0 then nan else infinity (s != t)
  | .finite s m e, .finite t n f => ofScaled (s != t) (m * n) (e + f)

/-- The quotient. A zero as divisor has a sign, too. -/
def div (x y : Binary64) : Binary64 :=
  match x.decode, y.decode with
  | .nan, _ | _, .nan | .infinite _, .infinite _ => nan
  | .infinite s, .finite t _ _ => infinity (s != t)
  | .finite s _ _, .infinite t => zero (s != t)
  | .finite s m e, .finite t n f =>
    if n = 0 then if m = 0 then nan else infinity (s != t)
    else ofRatio (s != t) (m <<< (e - f).toNat) (n <<< (f - e).toNat)

/-- The remainder of the division rounded toward zero, with the sign of the dividend. -/
def rem (x y : Binary64) : Binary64 :=
  match x.decode, y.decode with
  | .nan, _ | _, .nan | .infinite _, _ => nan
  | .finite _ _ _, .infinite _ => x
  | .finite s m e, .finite _ n f =>
    if n = 0 then nan
    else
      let scale := min e f
      ofScaled s ((m <<< (e - scale).toNat) % (n <<< (f - scale).toNat)) scale

end SqlPipeline.Number.Binary64
