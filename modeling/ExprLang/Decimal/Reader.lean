import ExprLang.Decimal.Binary
/-!
# Reading numbers

The written forms of integers and of doubles that conversions and literals accept. Nothing may
stand before or after the number.
-/

namespace ExprLang.Decimal

/-- The number written by the decimal digits, or by no digit at all. -/
def digitsValue (digits : List Char) : Nat :=
  digits.foldl (fun n c => 10 * n + (c.toNat - '0'.toNat)) 0

/-- One or more decimal digits. -/
def readNat? (cs : List Char) : Option Nat :=
  if cs.isEmpty || !cs.all Char.isDigit then none else some (digitsValue cs)

/-- Splits off a sign. Without one the number is not negative. -/
def splitSign : List Char → Bool × List Char
  | '-' :: rest => (true, rest)
  | '+' :: rest => (false, rest)
  | cs => (false, cs)

/-- An optional sign and one or more decimal digits. -/
def readInt? (cs : List Char) : Option Int :=
  let (negative, digits) := splitSign cs
  (readNat? digits).map fun n => if negative then -(n : Int) else n

/-- The double nearest to `coefficient * 10 ^ exponent`. Numbers far outside the range of doubles
are settled by the place of their first digit. -/
def nearestScaled (negative : Bool) (coefficient : Nat) (exponent : Int) : Float :=
  let point := (coefficient.repr.length : Int) + exponent
  if coefficient = 0 || point < -400 then ofMagnitude negative 0
  else if 400 < point then infinity negative
  else if exponent < 0 then nearest negative coefficient (pow10 exponent.natAbs)
  else nearest negative (coefficient * pow10 exponent.natAbs) 1

/-- The exponent after the digits: nothing, or a letter `e`, an optional sign and digits. -/
def readExponent? : List Char → Option Int
  | [] => some 0
  | c :: rest => if c = 'e' || c = 'E' then readInt? rest else none

/-- Digits with an optional point, at least one digit on either side of it, and an optional
exponent. -/
def readMagnitude? (negative : Bool) (cs : List Char) : Option Float :=
  let whole := cs.takeWhile Char.isDigit
  let rest := cs.dropWhile Char.isDigit
  let (fraction, rest) :=
    match rest with
    | '.' :: more => (more.takeWhile Char.isDigit, more.dropWhile Char.isDigit)
    | _ => ([], rest)
  if whole.isEmpty && fraction.isEmpty then none
  else
    (readExponent? rest).map fun e =>
      nearestScaled negative (digitsValue (whole ++ fraction)) (e - fraction.length)

/-- A double: an optional sign, then digits, an infinity or a not-a-number in letters of any
case. -/
def readFloat? (cs : List Char) : Option Float :=
  let (negative, rest) := splitSign cs
  let lower := String.ofList (rest.map Char.toLower)
  if lower = "inf" || lower = "infinity" then some (infinity negative)
  else if lower = "nan" then some notANumber
  else readMagnitude? negative rest

end ExprLang.Decimal
