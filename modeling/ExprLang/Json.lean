import ExprLang.Entries
/-!
# JSON

The tree of a JSON text. Numbers without fraction and exponent are integers as far as 64 bits reach,
all others are doubles. The members of an object are sorted by key.
-/

namespace ExprLang

inductive Json where
  | null
  | bool (b : Bool)
  | integer (n : Int)
  | double (d : Float)
  | str (s : String)
  | array (items : List Json)
  | object (members : List (String × Json))
  deriving Inhabited

namespace Json

/-- What is wrong with a JSON text. -/
inductive Cause where
  | endInList
  | endInObject
  | endInString
  | endInValue
  | expectedColon
  | expectedItemEnd
  | expectedMemberEnd
  | expectedIdent
  | expectedValue
  | invalidEscape
  | invalidNumber
  | numberOutOfRange
  | controlCharacter
  | keyNotString
  | loneSurrogate
  | unfinishedPair
  | trailingComma
  | trailingCharacters
  | nestedTooDeep
  | unsuitable (found wanted : String)
  | unknownField (name : String)
  | duplicateField (name : String)
  deriving DecidableEq, Repr

def Cause.message : Cause → String
  | endInList => "EOF while parsing a list"
  | endInObject => "EOF while parsing an object"
  | endInString => "EOF while parsing a string"
  | endInValue => "EOF while parsing a value"
  | expectedColon => "expected \x60:\x60"
  | expectedItemEnd => "expected \x60,\x60 or \x60]\x60"
  | expectedMemberEnd => "expected \x60,\x60 or \x60\x7d\x60"
  | expectedIdent => "expected ident"
  | expectedValue => "expected value"
  | invalidEscape => "invalid escape"
  | invalidNumber => "invalid number"
  | numberOutOfRange => "number out of range"
  | controlCharacter =>
    "control character (\\u0000-\\u001F) found while parsing a string"
  | keyNotString => "key must be a string"
  | loneSurrogate => "lone leading surrogate in hex escape"
  | unfinishedPair => "unexpected end of hex escape"
  | trailingComma => "trailing comma"
  | trailingCharacters => "trailing characters"
  | nestedTooDeep => "recursion limit exceeded"
  | unsuitable found wanted => "invalid type: " ++ found ++ ", expected " ++ wanted
  | unknownField name =>
    "unknown field \x60" ++ name ++ "\x60, expected \x60strict\x60 or \x60template\x60"
  | duplicateField name => "duplicate field \x60" ++ name ++ "\x60"

/-- What is wrong and where: the line, and how many bytes of it had been read. -/
structure Error where
  cause : Cause
  line : Nat
  column : Nat
  deriving DecidableEq, Repr

def Error.text (e : Error) : String :=
  e.cause.message ++ " at line " ++ e.line.repr ++ " column " ++ e.column.repr

/-- The line and the bytes in it after `offset` bytes of the text. -/
def lineColumn : Nat → List Char → Nat × Nat
  | offset, cs =>
    let step := fun (state : Nat × Nat × Nat) (c : Char) =>
      let (line, lineStart, seen) := state
      let seen := seen + c.utf8Size
      if c = '\n' && seen ≤ offset then (line + 1, seen, seen) else (line, lineStart, seen)
    let (line, lineStart, _) := cs.foldl step (1, 0, 0)
    (line, offset - lineStart)

end Json

end ExprLang
