import ExprLang.Decimal.Shortest
/-!
# Layout of decimal numbers

How a double is written: which numbers are written with a plain point and which with an exponent,
and how the special ones are spelled. Every layout keeps a fractional part, so that a double is
never taken for an integer.
-/

namespace ExprLang.Decimal

/-- The decisions of one written form. -/
structure Layout where
  tie : Tie
  /-- whether an integral double is written with all its digits -/
  exactIntegers : Bool
  /-- whether digits whose point stands after the first `point` of them are written positionally -/
  positional : Int → Bool
  /-- what stands in front of an exponent that is not negative -/
  plus : String

/-- `d` with a decimal point and no exponent. -/
def Digits.positional (d : Digits) : String :=
  let digits := d.coefficient.repr
  let point := digits.length + d.exponent
  if 0 ≤ d.exponent then
    digits ++ String.ofList (List.replicate d.exponent.natAbs '0') ++ ".0"
  else if 0 < point then
    String.ofList (digits.toList.take point.natAbs) ++ "." ++
      String.ofList (digits.toList.drop point.natAbs)
  else "0." ++ String.ofList (List.replicate point.natAbs '0') ++ digits

/-- `d` with one digit before the point, if it has a second one, and an exponent. -/
def Digits.scientific (d : Digits) (plus : String) : String :=
  let digits := d.coefficient.repr.toList
  let power := (digits.length : Int) + d.exponent - 1
  let tail := if digits.length ≤ 1 then "" else "." ++ String.ofList (digits.drop 1)
  String.ofList (digits.take 1) ++ tail ++ "e" ++ (if power < 0 then "" else plus) ++ power.repr

/-- The written form of a finite number without its sign. -/
def Layout.magnitude (layout : Layout) (mantissa : Nat) (exponent : Int) : String :=
  if mantissa = 0 then "0.0"
  else if layout.exactIntegers && 0 ≤ exponent then
    (mantissa * pow2 exponent.natAbs).repr ++ ".0"
  else if layout.exactIntegers && mantissa % pow2 exponent.natAbs = 0 then
    (mantissa / pow2 exponent.natAbs).repr ++ ".0"
  else
    let d := shortest layout.tie mantissa exponent
    if layout.positional (d.coefficient.repr.length + d.exponent) then d.positional
    else d.scientific layout.plus

def Layout.write (layout : Layout) (x : Float) : String :=
  match decode x with
  | .nan => "NaN"
  | .infinite negative => if negative then "-inf" else "inf"
  | .finite negative mantissa exponent =>
    (if negative then "-" else "") ++ layout.magnitude mantissa exponent

end ExprLang.Decimal
