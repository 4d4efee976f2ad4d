import ExprLang.Decimal.Binary
/-!
# Shortest decimal digits

Among the decimal numbers that read back as a given double, those with the fewest digits, and of
these the one nearest to the double. `shortest` tests the decimal grids from coarse to fine: on the
first grid that has a point in the rounding interval, one of the two neighbours of the double is
such a point.
-/

namespace ExprLang.Decimal

/-- The decimal number `coefficient * 10 ^ exponent`. -/
structure Digits where
  coefficient : Nat
  exponent : Int
  deriving DecidableEq, Repr

/-- Which of two equally near decimal numbers is taken. -/
inductive Tie where
  | up
  | even
  deriving DecidableEq, Repr

/-- A double `value / unit` with the ends of the interval of numbers that round to it. -/
structure Rounding where
  low : Nat
  value : Nat
  high : Nat
  unit : Nat
  /-- whether the ends themselves round to the double -/
  closed : Bool

/-- The interval reaches half way to the neighbours. Below a power of two the neighbour is only
half as far. -/
def Rounding.of (mantissa : Nat) (exponent : Int) : Rounding :=
  let below := if mantissa = pow2 52 && minExponent < exponent then 1 else 2
  let shift := exponent - 2
  let factor := if shift < 0 then 1 else pow2 shift.natAbs
  { low := (4 * mantissa - below) * factor
    value := 4 * mantissa * factor
    high := (4 * mantissa + 2) * factor
    unit := if shift < 0 then pow2 shift.natAbs else 1
    closed := mantissa % 2 = 0 }

/-- The point of the grid of multiples of `10 ^ exponent` to be written, if one of the two
neighbours of the value rounds to it. -/
def Rounding.onGrid? (r : Rounding) (tie : Tie) (exponent : Int) : Option Digits :=
  let up := if exponent < 0 then pow10 exponent.natAbs else 1
  let step := r.unit * if exponent < 0 then 1 else pow10 exponent.natAbs
  let below := r.value * up / step
  let above := below + 1
  let admits (c : Nat) : Bool :=
    let point := c * step
    if r.closed then r.low * up ≤ point && point ≤ r.high * up
    else r.low * up < point && point < r.high * up
  let toBelow := r.value * up - below * step
  let toAbove := above * step - r.value * up
  let preferAbove :=
    toAbove < toBelow || (toAbove = toBelow && (tie = .up || below % 2 = 1))
  if admits below && admits above then some ⟨if preferAbove then above else below, exponent⟩
  else if admits below then some ⟨below, exponent⟩
  else if admits above then some ⟨above, exponent⟩
  else none

/-- The first of the grids `10 ^ exponent`, `10 ^ (exponent - 1)`, … that has an answer. -/
def Rounding.search (r : Rounding) (tie : Tie) (exponent : Int) : Nat → Option Digits
  | 0 => none
  | steps + 1 => (r.onGrid? tie exponent).or (r.search tie (exponent - 1) steps)

/-- The same number with no zero at the end of its coefficient. -/
def Digits.stripped (d : Digits) : Digits :=
  if h : d.coefficient ≠ 0 ∧ d.coefficient % 10 = 0 then
    Digits.stripped ⟨d.coefficient / 10, d.exponent + 1⟩
  else d
termination_by d.coefficient
decreasing_by omega

/-- The shortest decimal digits of `mantissa * 2 ^ exponent`. The search starts above the leading
digit and needs at most seventeen digits from there. -/
def shortest (tie : Tie) (mantissa : Nat) (exponent : Int) : Digits :=
  let r := Rounding.of mantissa exponent
  let leading := ((mantissa.log2 : Int) + exponent) * 1233 / 4096
  ((r.search tie (leading + 2) 24).getD ⟨mantissa, 0⟩).stripped

end ExprLang.Decimal
