import ExprLang.Decimal.Binary
import ExprLang.Operators
import ExprLang.Value.Compare
/-!
# Core operators

Exact integer arithmetic that fails when a result does not fit the wide integers, floating-point
arithmetic once an operand is a double, concatenation of texts and lists, comparison and logic.
-/

namespace ExprLang.Operators

/-- The operations of arithmetic. -/
inductive Arithmetic where
  | add | subtract | multiply | divide | modulo
  deriving DecidableEq, Repr

namespace Arithmetic

def operation : Arithmetic → Operation
  | add => .add
  | subtract => .subtract
  | multiply => .multiply
  | divide => .divide
  | modulo => .modulo

/-- Division and remainder have no result for a zero divisor. -/
def divides : Arithmetic → Bool
  | divide | modulo => true
  | _ => false

/-- The exact result, if it fits. Quotients are cut toward zero, and a remainder needs a quotient
that fits as well. -/
def onIntegers? (op : Arithmetic) (x y : Int) : Option Int64 :=
  match op with
  | add => int64? (x + y)
  | subtract => int64? (x - y)
  | multiply => int64? (x * y)
  | divide => int64? (x.tdiv y)
  | modulo => do
    let _ ← int64? (x.tdiv y)
    int64? (x.tmod y)

def onDoubles (op : Arithmetic) (x y : Float) : Float :=
  match op with
  | add => x + y
  | subtract => x - y
  | multiply => x * y
  | divide => x / y
  | modulo => Decimal.remainder x y

/-- The result is narrow only if both operands are and it fits. -/
def apply (op : Arithmetic) (a b : Value) : Outcome := do
  match ← Numbers.of a b with
  | .doubles x y => return .double (op.onDoubles x y)
  | .integers x y narrow =>
    if op.divides && y == 0 then .error (.divisionByZero op.operation a b)
    else
      match op.onIntegers? x.toInt y.toInt with
      | some n => return if narrow then .integer n else .long n
      | none => .error (.overflow op.operation a b)

def handler (op : Arithmetic) : BinaryHandler :=
  ⟨op.operation, .number, .number, op.apply⟩

end Arithmetic

/-- The comparisons by order. -/
inductive Comparison where
  | less | lessEqual | greater | greaterEqual
  deriving DecidableEq, Repr

namespace Comparison

def operation : Comparison → Operation
  | less => .less
  | lessEqual => .lessEqual
  | greater => .greater
  | greaterEqual => .greaterEqual

def holds : Comparison → Ordering → Bool
  | less, o => o == .lt
  | lessEqual, o => o != .gt
  | greater, o => o == .gt
  | greaterEqual, o => o != .lt

/-- No comparison holds of values without an order. -/
def apply (op : Comparison) (a b : Value) : Outcome := do
  match ← Value.order a b with
  | some o => return .bool (op.holds o)
  | none => return .bool false

/-- Numbers are compared with numbers, texts with texts and characters with characters. -/
def handlers (op : Comparison) : List BinaryHandler :=
  [TypeTag.number, .string, .char].map fun tag => ⟨op.operation, tag, tag, op.apply⟩

end Comparison

/-- Joins the texts of two values. -/
def concatTexts (a b : Value) : Outcome :=
  .ok (.str (a.text ++ b.text))

def concatLists : Value → Value → Outcome
  | .list xs, .list ys => .ok (.list (xs ++ ys))
  | _, _ => .error .notLists

/-- A connective of two truth values. Both operands have been evaluated. -/
def logical (connective : Bool → Bool → Bool) (a b : Value) : Outcome :=
  match a.bool?, b.bool? with
  | some x, some y => .ok (.bool (connective x y))
  | _, _ => .error .notBooleans

def coreBinary : List BinaryHandler :=
  [ Arithmetic.add.handler,
    ⟨.add, .string, .any, concatTexts⟩,
    ⟨.add, .any, .string, concatTexts⟩,
    ⟨.add, .list, .list, concatLists⟩,
    Arithmetic.subtract.handler,
    Arithmetic.multiply.handler,
    Arithmetic.divide.handler,
    Arithmetic.modulo.handler,
    ⟨.equal, .any, .any, fun a b => .ok (.bool (a.equals b))⟩,
    ⟨.notEqual, .any, .any, fun a b => .ok (.bool !(a.equals b))⟩,
    ⟨.and, .bool, .bool, logical and⟩,
    ⟨.or, .bool, .bool, logical or⟩ ] ++
  [Comparison.less, .lessEqual, .greater, .greaterEqual].flatMap Comparison.handlers

def complement : Value → Outcome
  | .bool b => .ok (.bool !b)
  | v => .error (.cannotNegate v.tag)

/-- A narrow integer becomes wide when its negation does not fit. -/
def negated : Value → Outcome
  | .int n => .ok (.integer (-n.toInt64))
  | .long n =>
    match int64? (-n.toInt) with
    | some m => .ok (.long m)
    | none => .error .negationOverflow
  | .double d => .ok (.double (-d))
  | v => .error (.cannotNegate v.tag)

/-- A number and one more or less. An integer becomes a wide one, to be narrowed by whoever writes
it back. -/
def stepped (up : Bool) : Value → Outcome
  | .double d => .ok (.double (if up then d + 1 else d - 1))
  | v =>
    match v.long?.bind fun n => int64? (if up then n.toInt + 1 else n.toInt - 1) with
    | some n => .ok (.long n)
    | none => .error (.cannotStep v)

def coreUnary : List UnaryHandler := [
  ⟨.not, .bool, complement⟩,
  ⟨.negate, .number, negated⟩,
  ⟨.plus, .number, .ok⟩,
  ⟨.increment, .number, stepped true⟩,
  ⟨.decrement, .number, stepped false⟩]

def core : Operators :=
  ⟨coreBinary, coreUnary⟩

end ExprLang.Operators
