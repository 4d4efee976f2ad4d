import ExprLang.Decimal.Power
/-!
# Binary floating point

A double is a not-a-number, an infinity or a signed multiple of a power of two. `decode` reads
which; `nearest` is the way back from an exact fraction, rounding to the nearest double and a tie
to the one with the even mantissa.
-/

namespace ExprLang.Decimal

/-- What a double stands for. A finite one is `mantissa * 2 ^ exponent`, negated if `negative`. -/
inductive Binary where
  | nan
  | infinite (negative : Bool)
  | finite (negative : Bool) (mantissa : Nat) (exponent : Int)
  deriving DecidableEq, Repr

/-- The smallest exponent of a finite double. -/
def minExponent : Int := -1074

def decode (x : Float) : Binary :=
  let bits := x.toBits.toNat
  let negative := bits / pow2 63 = 1
  let exponent : Nat := bits / pow2 52 % pow2 11
  let fraction := bits % pow2 52
  if exponent = 2047 then if fraction = 0 then .infinite negative else .nan
  else if exponent = 0 then .finite negative fraction minExponent
  else .finite negative (pow2 52 + fraction) ((exponent : Int) - 1075)

/-- The double whose sign bit is `negative` and whose other bits are `magnitude`. -/
def ofMagnitude (negative : Bool) (magnitude : Nat) : Float :=
  Float.ofBits (((if negative then pow2 63 else 0) + magnitude).toUInt64)

def infinity (negative : Bool) : Float :=
  ofMagnitude negative (2047 * pow2 52)

def notANumber : Float :=
  ofMagnitude false (2047 * pow2 52 + pow2 51)

/-- `num / den` rounded to a natural number, a tie going to the even neighbour. -/
def roundQuotient (num den : Nat) : Nat :=
  let floor := num / den
  let twice := 2 * (num % den)
  if twice > den || (twice = den && floor % 2 = 1) then floor + 1 else floor

/-- The double nearest to `num / den`. The exponent is chosen so that the mantissa has 53 bits, or
the smallest one if that is larger. -/
def nearest (negative : Bool) (num den : Nat) : Float :=
  if num = 0 then ofMagnitude negative 0
  else
    let scaled (exponent : Int) : Nat × Nat :=
      if exponent < 0 then (num * pow2 exponent.natAbs, den) else (num, den * pow2 exponent.natAbs)
    let low := max ((num.log2 : Int) - den.log2 - 53) minExponent
    let (n, d) := scaled low
    let exponent := if pow2 53 ≤ n / d then low + 1 else low
    let (n, d) := scaled exponent
    let magnitude := (exponent - minExponent).toNat * pow2 52 + roundQuotient n d
    if 2047 * pow2 52 ≤ magnitude then infinity negative else ofMagnitude negative magnitude

/-- The integer a double stands for, if it stands for one. -/
def toInt? (x : Float) : Option Int :=
  match decode x with
  | .finite negative mantissa exponent =>
    let magnitude? :=
      if 0 ≤ exponent then some (mantissa * pow2 exponent.natAbs)
      else if mantissa % pow2 exponent.natAbs = 0 then some (mantissa / pow2 exponent.natAbs)
      else none
    magnitude?.map fun n => if negative then -(n : Int) else n
  | _ => none

/-- The remainder of the division of `x` by `y` toward zero. It is exact and has the sign of `x`. -/
def remainder (x y : Float) : Float :=
  match decode x, decode y with
  | .finite _ _ _, .infinite _ => x
  | .finite negative m p, .finite _ n q =>
    if n = 0 then notANumber
    else
      let low := min p q
      let rest := (m * pow2 (p - low).toNat) % (n * pow2 (q - low).toNat)
      if low < 0 then nearest negative rest (pow2 low.natAbs)
      else nearest negative (rest * pow2 low.natAbs) 1
  | _, _ => notANumber

end ExprLang.Decimal
