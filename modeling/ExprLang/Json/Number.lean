import ExprLang.Decimal.Binary
import ExprLang.Json
/-!
# JSON numbers

How the digits of a JSON number become a value. A significand of up to 64 bits is kept exactly and
further digits only move the point. A fraction or an exponent makes the number a double: the
significand times or divided by a power of ten, with the rounding of both steps.
-/

namespace ExprLang.Json

open Decimal

/-- A number on its way: the digits kept and the exponent of ten. -/
structure Scaled where
  significand : Nat
  exponent : Int
  deriving DecidableEq, Repr

def digitValue (c : Char) : Nat :=
  c.toNat - '0'.toNat

/-- Takes in the digits of a run as long as the significand stays within 64 bits, and returns with
it the digits that had no room. -/
def takeDigits (significand : Nat) : List Char → Nat × List Char
  | [] => (significand, [])
  | c :: rest =>
    let more := significand * 10 + digitValue c
    if more < UInt64.size then takeDigits more rest else (significand, c :: rest)

/-- The number with the digits before the point. -/
def Scaled.ofWhole (digits : List Char) : Scaled :=
  let (significand, dropped) := takeDigits 0 digits
  ⟨significand, dropped.length⟩

/-- The number with the digits behind the point as well. -/
def Scaled.addFraction (n : Scaled) (digits : List Char) : Scaled :=
  let (significand, dropped) := takeDigits n.significand digits
  ⟨significand, n.exponent - ((digits.length : Int) - dropped.length)⟩

/-- The power of ten as a double. -/
def powerOfTen (n : Nat) : Float :=
  nearest false (pow10 n) 1

def maxPower : Nat := 308

/-- The value times ten to the exponent, unless it is too large. -/
def scale (value : Float) (exponent : Int) : Option Float :=
  if exponent.natAbs ≤ maxPower then
    if 0 ≤ exponent then
      let scaled := value * powerOfTen exponent.natAbs
      if scaled.isInf then none else some scaled
    else some (value / powerOfTen exponent.natAbs)
  else if value == 0 then some value
  else if 0 ≤ exponent then none
  else scale (value / powerOfTen maxPower) (exponent + maxPower)
termination_by exponent.natAbs
decreasing_by
  simp only [maxPower] at *
  omega

/-- The number as a double, unless it is too large. -/
def Scaled.toDouble? (n : Scaled) (negative : Bool) : Option Float :=
  (scale (nearest false n.significand 1) n.exponent).map fun d => if negative then -d else d

/-- The value of a number without fraction and exponent. A negative zero and whatever 64 bits do not
hold are doubles. -/
def Scaled.toNumber? (n : Scaled) (negative : Bool) : Option Json :=
  if n.exponent ≠ 0 then (n.toDouble? negative).map .double
  else if !negative then some (.integer n.significand)
  else if n.significand = 0 || pow2 63 < n.significand then (n.toDouble? negative).map .double
  else some (.integer (-(n.significand : Int)))

/-- The exponent that the digits write, if it fits 32 bits, and otherwise the number of digits that
show it does not. -/
def exponentValue (digits : List Char) : Except Nat Nat :=
  go 0 0 digits
where
  go (value seen : Nat) : List Char → Except Nat Nat
    | [] => .ok value
    | c :: rest =>
      let more := value * 10 + digitValue c
      if more < pow2 31 then go more (seen + 1) rest else .error (seen + 1)

end ExprLang.Json
