import SqlPipeline.Number.Nearest
import SqlPipeline.Number.Shortest

/-!
# Doubles as text

A value is shown positionally with its shortest digits, never with an exponent. In JSON text,
magnitudes far from one have an exponent, and whole numbers keep a point. Text is read back by one
grammar: digits with an optional point and exponent, or the name of an infinity or of NaN.
-/

namespace SqlPipeline.Number

namespace Decimal

/-- The decimal without exponent, the point left out of a whole number. -/
def positional (d : Decimal) : List Char :=
  let digits := digitsOf d.digits
  let point := digits.length + d.exponent
  if 0 ≤ d.exponent then digits ++ List.replicate d.exponent.toNat '0'
  else if 0 < point then digits.take point.toNat ++ '.' :: digits.drop point.toNat
  else '0' :: '.' :: (List.replicate (-point).toNat '0' ++ digits)

/-- The decimal as one digit, a fraction if there are more digits, and an exponent. -/
def scientific (d : Decimal) : List Char :=
  let digits := digitsOf d.digits
  let exponent := digits.length + d.exponent - 1
  let fraction := if digits.length ≤ 1 then [] else '.' :: digits.drop 1
  digits.take 1 ++ fraction ++ 'e' :: (toString exponent).toList

/-- The decimal in JSON text: positional if the first digit is at most sixteen places before the
point and at most five after it, with `.0` at the end of a whole number. -/
def json (d : Decimal) : List Char :=
  let point := (digitsOf d.digits).length + d.exponent
  if 0 ≤ d.exponent ∧ point ≤ 16 then d.positional ++ ['.', '0']
  else if -5 < point ∧ point ≤ 16 then d.positional
  else d.scientific

end Decimal

namespace Binary64

/-- The text of a double whose finite magnitudes are shown by `render`. -/
def textWith (zero : String) (tie : Tie) (render : Decimal → List Char) (x : Binary64) :
    String :=
  match x.decode with
  | .nan => "NaN"
  | .infinite negative => if negative then "-inf" else "inf"
  | .finite negative m e =>
    let magnitude := if m = 0 then zero.toList else render ((Rounding.ofDouble m e).shortest tie)
    String.ofList (if negative then '-' :: magnitude else magnitude)

/-- A double as it is shown to users; of two equally near decimals the greater is shown. -/
def text : Binary64 → String :=
  textWith "0" .upward Decimal.positional

/-- A finite double in JSON text; of two equally near decimals the even one is written. -/
def jsonText : Binary64 → String :=
  textWith "0.0" .toEven Decimal.json

/-- What follows the digits of a number: nothing, or an exponent. -/
def exponent? : List Char → Option Int
  | [] => some 0
  | c :: cs => if c = 'e' ∨ c = 'E' then integer? cs else none

/-- The double an unsigned text of digits spells, with an optional point and exponent. A digit
must stand on one side of the point. -/
def decimal? (negative : Bool) (cs : List Char) : Option Binary64 :=
  let whole := cs.takeWhile Char.isDigit
  let afterWhole := cs.dropWhile Char.isDigit
  let (fraction, rest) :=
    match afterWhole with
    | '.' :: tail => (tail.takeWhile Char.isDigit, tail.dropWhile Char.isDigit)
    | _ => ([], afterWhole)
  let digits := whole ++ fraction
  if digits.isEmpty then none
  else (exponent? rest).map fun exponent =>
    let value := digitsValue digits
    ofDecimal negative value (digitsOf value).length (exponent - fraction.length)

/-- Reads a double: a sign, then a number or one of the names `inf`, `infinity` and `nan` in any
case. -/
def ofText? (cs : List Char) : Option Binary64 :=
  let (negative, rest) := signSplit cs
  let name := String.ofList (rest.map Char.toLower)
  if name = "inf" ∨ name = "infinity" then some (infinity negative)
  else if name = "nan" then some (if negative then nan.neg else nan)
  else decimal? negative rest

end Binary64
end SqlPipeline.Number
