import ExprLang.Grammar
import ExprLang.Literal.Reader
import ExprLang.Text.Word
/-!
# The core grammar

```text
expression := ternary
ternary    := binary [ '?' expression ':' expression ]
binary     := unary { OPERATOR unary }, shaped by precedence and associativity
unary      := OPERATOR unary | primary [ OPERATOR ]
primary    := literal | '(' expression ')' | '[' [ arguments ] ']' | path
path       := NAME { '.' WORD | '[' expression ']' } [ '(' [ arguments ] ')' ]
arguments  := expression { ',' expression }
parameters := '(' [ NAME [ ':' expression ] { ',' NAME [ ':' expression ] } ] ')'
names      := NAME { '.' WORD } [ 'as' NAME ] { ',' … }
```
-/

namespace ExprLang

namespace ConstructParser

open Parse

def expression : ConstructParser := fun rules =>
  rules.parse .ternary

/-- A condition with two branches groups to the right. -/
def ternary : ConstructParser := fun rules => do
  let condition ← rules.parse .binary
  if ← accepts BasicKind.question then
    let positive ← rules.parse .expression
    let _ ← ensure BasicKind.colon
    let negative ← rules.parse .expression
    return .ternary condition positive negative
  else return condition

/-- The binary operator here, if it binds at least as tightly as `least`. -/
def operatorFrom? (rules : Rules) (least : UInt16) : Parse (Option BinaryOperator) :=
  return (rules.binary? (← current).kind).filter fun op => least ≤ op.precedence.toUInt16

mutual
/-- An operand and all operators behind it that bind at least as tightly as `least`. -/
def climb (rules : Rules) : Nat → UInt16 → Parse Node
  | 0, _ => failHere .nestedTooDeep
  | rounds + 1, least => do
    let left ← rules.parse .unary
    extend rules rounds least left

/-- Goes on from a left operand that is parsed already. -/
def extend (rules : Rules) : Nat → UInt16 → Node → Parse Node
  | 0, _, _ => failHere .nestedTooDeep
  | rounds + 1, least, left => do
    match ← operatorFrom? rules least with
    | none => return left
    | some op =>
      let _ ← consume
      let right ← climb rules rounds op.rightLeast
      extend rules rounds least (.binary op.operation left right)
end

/-- Precedence climbing. Every operator takes one token and at most two rounds. -/
def binary : ConstructParser := fun rules => do
  climb rules (2 * ((← remaining) + 2)) 0

/-- An operator in front takes the whole unary behind it, one behind only the primary. -/
def unary : ConstructParser := fun rules => do
  match rules.before? (← current).kind with
  | some op =>
    let _ ← consume
    return .unary op.operation .before (← rules.parse .unary)
  | none =>
    let operand ← rules.parse .primary
    match rules.after? (← current).kind with
    | some op =>
      let _ ← consume
      return .unary op.operation .after operand
    | none => return operand

def primary : ConstructParser := fun rules => do
  match (← current).kind with
  | .basic .number =>
    let token ← consume
    match Literal.ofNumber? token.text.toList with
    | some value => return .literal value
    | none => throw (.inSpan (.invalidNumber token.text) token.span)
  | .basic .string =>
    let token ← consume
    return .literal (← liftAt token (Literal.ofQuoted token.text.toList))
  | .basic .trueWord =>
    let _ ← consume
    return .literal (.bool true)
  | .basic .falseWord =>
    let _ ← consume
    return .literal (.bool false)
  | .basic .nullWord =>
    let _ ← consume
    return .literal .null
  | .basic .lparen =>
    ensureEnclosed BasicKind.lparen BasicKind.rparen
    let _ ← consume
    let inner ← rules.parse .expression
    let _ ← ensure BasicKind.rparen
    return inner
  | .basic .lbracket =>
    let _ ← consume
    if ← accepts BasicKind.rbracket then return .arguments []
    else
      let items ← rules.parse .arguments
      let _ ← ensure BasicKind.rbracket
      return items
  | .basic .identifier => rules.parse .path
  | _ => unexpected "an expression"

/-- The word behind a point. Keywords are plain names there. -/
def propertyName : Parse String := do
  if Text.isWord (← current).text then return (← consume).text
  else unexpected "a property name"

/-- The arguments of a call, if the construct for arguments gives a list, or its result as the only
argument. -/
def callArguments (rules : Rules) : Parse (List Node) := do
  let _ ← ensure BasicKind.lparen
  if ← accepts BasicKind.rparen then return []
  else
    let items ← rules.parse .arguments
    let _ ← ensure BasicKind.rparen
    match items with
    | .arguments nodes => return nodes
    | node => return [node]

/-- The names of the segments, if none is an index. -/
def callName? (segments : List Segment) : Option String :=
  (segments.mapM Segment.name?).map (".".intercalate ·)

/-- The segments behind a root name, and the arguments if the path turns out to be a call. -/
def segmentsWithin (rules : Rules) :
    Nat → List Segment → Parse (List Segment × Option (List Node))
  | 0, _ => failHere .nestedTooDeep
  | rounds + 1, passed => do
    if ← accepts BasicKind.dot then
      let name ← propertyName
      segmentsWithin rules rounds (passed ++ [.property name])
    else if (← current).kind = BasicKind.lbracket then
      let _ ← consume
      let index ← rules.parse .expression
      let _ ← ensure BasicKind.rbracket
      segmentsWithin rules rounds (passed ++ [.index index])
    else if (← current).kind = BasicKind.lparen then
      if (callName? passed).isNone then unexpected "a function name before '('"
      else return (passed, some (← callArguments rules))
    else return (passed, none)

/-- A name, a path or a call. -/
def path : ConstructParser := fun rules => do
  let root ← ensure BasicKind.identifier
  match ← segmentsWithin rules ((← remaining) + 1) [.property root.text] with
  | (segments, some arguments) => return .call ((callName? segments).getD "") arguments
  | ([Segment.property name], none) => return .name name none
  | (segments, none) => return .path segments

/-- Expressions between commas, without brackets around them. -/
def arguments : ConstructParser := fun rules =>
  return .arguments (← items BasicKind.comma (rules.parse .expression))

/-- Parameters with the names `taken` before them, in at most `rounds` rounds. -/
def parametersWithin (rules : Rules) : Nat → List String → Parse (List Parameter)
  | 0, _ => failHere .nestedTooDeep
  | rounds + 1, taken => do
    let token ← ensure BasicKind.identifier
    if taken.contains token.text then
      throw (.inSpan (.duplicateParameter token.text) token.span)
    let default ←
      if ← accepts BasicKind.colon then some <$> rules.parse .expression else pure none
    let parameter := Parameter.mk token.text default
    if ← accepts BasicKind.comma then
      return parameter :: (← parametersWithin rules rounds (token.text :: taken))
    else return [parameter]

def parameters : ConstructParser := fun rules => do
  ensureEnclosed BasicKind.lparen BasicKind.rparen
  let _ ← consume
  if ← accepts BasicKind.rparen then return .parameters []
  else
    let params ← parametersWithin rules ((← remaining) + 1) []
    let _ ← ensure BasicKind.rparen
    return .parameters params

/-- The words behind further points, each with its point in front. -/
def dottedWithin : Nat → Parse String
  | 0 => failHere .nestedTooDeep
  | rounds + 1 => do
    if ← accepts BasicKind.dot then
      let word ← propertyName
      return "." ++ word ++ (← dottedWithin rounds)
    else return ""

/-- A dotted name with an optional alias. -/
def aliased : Parse Node := do
  let root ← ensure BasicKind.identifier
  let rest ← dottedWithin ((← remaining) + 1)
  if ← accepts BasicKind.asWord then
    let given ← ensure BasicKind.identifier
    return .name (root.text ++ rest) (some given.text)
  else return .name (root.text ++ rest) none

def names : ConstructParser := fun _ =>
  return .arguments (← items BasicKind.comma aliased)

/-- The core parser of a construct. Custom constructs have none. -/
def core? : Construct → Option ConstructParser
  | .expression => some expression
  | .ternary => some ternary
  | .binary => some binary
  | .unary => some unary
  | .primary => some primary
  | .path => some path
  | .arguments => some arguments
  | .parameters => some parameters
  | .names => some names
  | .custom _ => none

end ConstructParser

namespace Grammar

/-- An operator that groups to the left. -/
def leftward (token : BasicKind) (operation : Operation) (precedence : UInt8) : BinaryOperator :=
  ⟨token, operation, precedence, .left⟩

def coreBinary : List BinaryOperator := [
  leftward .orOr .or 1,
  leftward .andAnd .and 2,
  leftward .eqEq .equal 3,
  leftward .notEq .notEqual 3,
  leftward .less .less 4,
  leftward .lessEq .lessEqual 4,
  leftward .greater .greater 4,
  leftward .greaterEq .greaterEqual 4,
  leftward .plus .add 5,
  leftward .minus .subtract 5,
  leftward .star .multiply 6,
  leftward .slash .divide 6,
  leftward .percent .modulo 6]

def coreBefore : List UnaryOperator := [
  ⟨BasicKind.plus, .plus⟩, ⟨BasicKind.minus, .negate⟩, ⟨BasicKind.bang, .not⟩,
  ⟨BasicKind.increment, .increment⟩, ⟨BasicKind.decrement, .decrement⟩]

def coreAfter : List UnaryOperator := [
  ⟨BasicKind.increment, .increment⟩, ⟨BasicKind.decrement, .decrement⟩]

def core : Grammar where
  parsers := Construct.core.filterMap fun construct =>
    (ConstructParser.core? construct).map fun parser => (construct, parser)
  binary := coreBinary
  before := coreBefore
  after := coreAfter

end Grammar

end ExprLang
