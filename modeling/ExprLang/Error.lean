import ExprLang.Construct
import ExprLang.Error.Kind
import ExprLang.Node.Text
import ExprLang.Path
import ExprLang.Signature
import ExprLang.Source
import ExprLang.Token.Kind
/-!
# Errors

An error is its cause and, where the cause lies in a source, a place there. The cause determines
the kind and the message of the error. What a host raises is a cause with a kind, a message and,
possibly, a line and a column of the host's choice.
-/

namespace ExprLang

inductive Fault where
  | unterminatedString
  | unrecognized (text : String)
  | expected (what found : String)
  | unclosed (close opener : TokenKind) (line col : Nat)
  | noParser (construct : Construct)
  | duplicateParameter (name : String)
  | invalidNumber (text : String)
  | emptyString
  | unclosedString
  | invalidEscape
  | danglingEscape
  | nestedTooDeep
  | nullOperand (operation : Operation) (left right : TypeTag)
  | noBinaryHandler (operation : Operation) (left right : TypeTag)
  | noUnaryHandler (operation : Operation) (operand : TypeTag)
  | notNumbers (left right : TypeTag)
  | notBooleans
  | notLists
  | cannotNegate (operand : TypeTag)
  | unknownFunction (name : String)
  | noOverload (name : String) (given : List TypeTag) (candidates : List Signature)
  | unsuitableArguments (name : String) (given : List TypeTag)
  | callsTooDeep (name : String)
  | cannotConvert (value : Value) (target : TypeTag)
  | nothingToConvert (target : TypeTag)
  | cannotStep (value : Value)
  | cannotApply (operation : Operation) (value : Value)
  | doesNotFit (operation : Operation) (stepped : Value) (target : TypeTag)
  | conditionNotBool (value : Value)
  | unsuitableIndex (tag : TypeTag)
  | cannotResolve (path : Path)
  | rootNotName (path : Path)
  | emptyPath
  | cannotAssign (path : Path)
  | notReference (node : Node)
  | divisionByZero (operation : Operation) (left right : Value)
  | overflow (operation : Operation) (left right : Value)
  | negationOverflow
  | absOverflow
  | powOverflow (base exponent : Int64)
  /-- raised by a host -/
  | reported (kind : ErrorKind) (message : String) (line col : Option Nat)

namespace Fault

def kind : Fault → ErrorKind
  | unterminatedString | unrecognized _ => .lexical
  | expected _ _ | unclosed _ _ _ _ | noParser _ | duplicateParameter _ | invalidNumber _
  | emptyString | unclosedString | invalidEscape | danglingEscape | nestedTooDeep => .grammar
  | nullOperand _ _ _ | noBinaryHandler _ _ _ | noUnaryHandler _ _ | notNumbers _ _
  | notBooleans | notLists | cannotNegate _ => .operator
  | unknownFunction _ | noOverload _ _ _ | unsuitableArguments _ _ => .function
  | cannotConvert _ _ | nothingToConvert _ | cannotStep _ | cannotApply _ _ | doesNotFit _ _ _
  | conditionNotBool _ | unsuitableIndex _ => .conversion
  | cannotResolve _ | rootNotName _ | emptyPath | cannotAssign _ | notReference _ => .unresolved
  | divisionByZero _ _ _ | overflow _ _ _ | negationOverflow | absOverflow | powOverflow _ _ =>
    .arithmetic
  | callsTooDeep _ => .evaluation
  | reported kind _ _ _ => kind

/-- A text between single quotes, as messages mention it. -/
def mention (text : String) : String :=
  "'" ++ text ++ "'"

/-- A binary operation between two operand texts. -/
def between (left : String) (operation : Operation) (right : String) : String :=
  left ++ " " ++ operation.symbol ++ " " ++ right

def tagNames (tags : List TypeTag) : String :=
  ", ".intercalate (tags.map TypeTag.name)

def message : Fault → String
  | unterminatedString => "Unterminated string"
  | unrecognized text => "Unrecognized input " ++ mention text
  | expected what found => "Expected " ++ what ++ " but found " ++ found
  | unclosed close opener line col =>
    "Expected " ++ mention close.describe ++ " to close " ++ mention opener.describe ++
      " opened at " ++ line.repr ++ ":" ++ col.repr ++ " but found end of input"
  | noParser construct => "No parser registered for " ++ construct.name
  | duplicateParameter name => "Duplicate parameter " ++ mention name
  | invalidNumber text => "Invalid number " ++ mention text
  | emptyString => "Empty string token"
  | unclosedString => "Unterminated string"
  | invalidEscape => "Invalid unicode escape"
  | danglingEscape => "Dangling escape in string"
  | nestedTooDeep => "Constructs nested too deeply"
  | nullOperand operation left right =>
    "Operator " ++ mention operation.symbol ++ " cannot be applied to null (" ++
      between left.name operation right.name ++ ")"
  | noBinaryHandler operation left right =>
    "No operator " ++ mention operation.symbol ++ " for " ++ left.name ++ " and " ++ right.name
  | noUnaryHandler operation operand =>
    "No operator " ++ mention operation.symbol ++ " for " ++ operand.name
  | notNumbers left right => "Expected numbers, got " ++ left.name ++ " and " ++ right.name
  | notBooleans => "Logical operators expect booleans"
  | notLists => "List concatenation expects lists"
  | cannotNegate operand => "Cannot negate " ++ operand.name
  | unknownFunction name => "Unknown function " ++ mention name
  | noOverload name given candidates =>
    "No overload of " ++ mention name ++ " accepts (" ++ tagNames given ++ "); candidates: " ++
      " ".intercalate (candidates.map Signature.text)
  | unsuitableArguments name given => mention name ++ " cannot take (" ++ tagNames given ++ ")"
  | callsTooDeep name => "Calls nested too deeply in " ++ mention name
  | cannotConvert value target =>
    "Cannot convert " ++ value.tag.name ++ " " ++ mention value.text ++ " to " ++ target.name
  | nothingToConvert target => "Nothing to convert to " ++ target.name
  | cannotStep value => "Cannot step " ++ value.tag.name ++ " " ++ mention value.text
  | cannotApply operation value =>
    "Cannot apply " ++ mention operation.symbol ++ " to " ++ value.tag.name ++ " " ++
      mention value.text
  | doesNotFit operation stepped target =>
    "Result of " ++ mention operation.symbol ++ " (" ++ stepped.text ++ ") does not fit " ++
      target.name
  | conditionNotBool value =>
    "Condition must be bool, got " ++ value.tag.name ++ " " ++ mention value.text
  | unsuitableIndex tag => "Index must be an integer or a string, got " ++ tag.name
  | cannotResolve path => "Cannot resolve " ++ mention path.describe
  | rootNotName path => "Path " ++ mention path.describe ++ " must start with a name"
  | emptyPath => "Empty path"
  | cannotAssign path => "Cannot assign to " ++ mention path.describe
  | notReference node => mention node.text ++ " is not a reference"
  | divisionByZero operation left right =>
    "Division by zero in " ++ between left.text operation right.text
  | overflow operation left right =>
    "Integer overflow in " ++ between left.text operation right.text
  | negationOverflow => "Integer overflow in negation"
  | absOverflow => "Integer overflow in abs"
  | powOverflow base exponent =>
    "Integer overflow in pow(" ++ base.toInt.repr ++ ", " ++ exponent.toInt.repr ++ ")"
  | reported _ message _ _ => message

end Fault

/-- A line and a column of a source. -/
structure Place where
  line : Nat
  col : Nat
  deriving DecidableEq, Repr

/-- The place that the cause names itself. A line without a column is no place. -/
def Fault.place? : Fault → Option Place
  | reported _ _ (some line) (some col) => some ⟨line, col⟩
  | _ => none

structure Error where
  fault : Fault
  place : Option Place

namespace Error

/-- An error that belongs to no place of a source but the one that its cause names. -/
def of (fault : Fault) : Error :=
  ⟨fault, fault.place?⟩

def located (fault : Fault) (line col : Nat) : Error :=
  ⟨fault, some ⟨line, col⟩⟩

/-- An error at the beginning of a span. -/
def inSpan (fault : Fault) (span : Span) : Error :=
  located fault span.line span.col

def kind (e : Error) : ErrorKind :=
  e.fault.kind

def message (e : Error) : String :=
  e.fault.message

/-- The message with the place behind it. -/
def text (e : Error) : String :=
  match e.place with
  | some place => e.message ++ " at " ++ place.line.repr ++ ":" ++ place.col.repr
  | none => e.message

end Error

end ExprLang
