import ExprLang.Error
/-!
# Comparing values

Two numbers are brought to a common form before they are compared or added. Equality compares
numbers of all types by what they stand for, also inside lists and maps, and never fails.
-/

namespace ExprLang

/-- Two numbers in a common form. -/
inductive Numbers where
  /-- `narrow` if both came as narrow integers -/
  | integers (x y : Int64) (narrow : Bool)
  | doubles (x y : Float)

/-- Two numbers in a common form: doubles if one is a double. -/
def Numbers.of (a b : Value) : Except Fault Numbers :=
  let pair := match a, b with
    | .int x, .int y => some (integers x.toInt64 y.toInt64 true)
    | .double _, _ | _, .double _ => do return doubles (← a.double?) (← b.double?)
    | _, _ => do return integers (← a.long?) (← b.long?) false
  match pair with
  | some numbers => .ok numbers
  | none => .error (.notNumbers a.tag b.tag)

namespace Value

/-- Whether two numbers stand for the same number. -/
def sameNumber (a b : Value) : Bool :=
  match Numbers.of a b with
  | .ok (.integers x y _) => x == y
  | .ok (.doubles x y) => x == y
  | .error _ => false

mutual
def equals : Value → Value → Bool
  | .null, .null => true
  | .bool a, .bool b => a == b
  | .char a, .char b => a == b
  | .str a, .str b => a == b
  | .list xs, .list ys => equalItems xs ys
  | .map xs, .map ys => equalEntries xs ys
  | a, b => sameNumber a b

def equalItems : List Value → List Value → Bool
  | [], [] => true
  | x :: xs, y :: ys => x.equals y && equalItems xs ys
  | _, _ => false

def equalEntries : List (String × Value) → List (String × Value) → Bool
  | [], [] => true
  | (j, x) :: xs, (k, y) :: ys => j == k && x.equals y && equalEntries xs ys
  | _, _ => false
end

/-- The order of two doubles. A not-a-number has none. -/
def orderFloats (x y : Float) : Option Ordering :=
  if x < y then some .lt else if x == y then some .eq else if y < x then some .gt else none

/-- The order of two texts, two characters or two numbers. -/
def order (a b : Value) : Except Fault (Option Ordering) :=
  match a, b with
  | .str x, .str y => .ok (some (compareOfLessAndEq x y))
  | .char x, .char y => .ok (some (compareOfLessAndEq x y))
  | _, _ => do
    match ← Numbers.of a b with
    | .integers x y _ => return some (compareOfLessAndEq x y)
    | .doubles x y => return orderFloats x y

end Value

end ExprLang
