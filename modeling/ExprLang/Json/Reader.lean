import ExprLang.Json.Number
import ExprLang.Json.Writer
import ExprLang.Literal.Reader
/-!
# Reading JSON

A reader takes characters from the front of a text. An error knows how many bytes had been read, or
leaves that to the end of the container in which it arose.
-/

namespace ExprLang.Json

/-- The characters not read yet and the number of bytes before them. -/
structure Input where
  rest : List Char
  offset : Nat

/-- A cause and, if known, the number of bytes read. -/
structure Failure where
  cause : Cause
  offset : Option Nat

abbrev Reader := ExceptT Failure (StateM Input)

namespace Reader

def peek? : Reader (Option Char) :=
  return (← get).rest.head?

/-- Takes one character. -/
def skip : Reader Unit :=
  modify fun input =>
    match input.rest with
    | c :: rest => ⟨rest, input.offset + c.utf8Size⟩
    | [] => input

def failOffset {α : Type} (cause : Cause) (offset : Nat) : Reader α :=
  throw ⟨cause, some offset⟩

/-- An error after what has been read. -/
def failHere {α : Type} (cause : Cause) : Reader α := do
  failOffset cause (← get).offset

/-- An error after one more byte, if there is one. -/
def failNext {α : Type} (cause : Cause) : Reader α := do
  let input ← get
  failOffset cause (if input.rest.isEmpty then input.offset else input.offset + 1)

/-- An error whose place is where its container ends. -/
def failLater {α : Type} (cause : Cause) : Reader α :=
  throw ⟨cause, none⟩

def isBlank (c : Char) : Bool :=
  c == ' ' || c == '\n' || c == '\t' || c == '\x0d'

/-- Takes the longest run of characters that satisfy `p`. -/
def run (p : Char → Bool) : Reader (List Char) := do
  let input ← get
  let taken := input.rest.takeWhile p
  set (⟨input.rest.dropWhile p, input.offset + (String.ofList taken).utf8ByteSize⟩ : Input)
  return taken

def skipBlank : Reader Unit := do
  let _ ← run isBlank

/-- Takes the given characters. -/
def letters : List Char → Reader Unit
  | [] => return
  | wanted :: more => do
    match ← peek? with
    | none => failHere .endInValue
    | some c => if c = wanted then skip *> letters more else failNext .expectedIdent

/-- Takes a word whose first letter is known to be here. -/
def word {α : Type} (text : String) (value : α) : Reader α := do
  letters text.toList
  return value

/-! ## Numbers -/

/-- A number that may be out of range. -/
def within {α : Type} : Option α → Reader α
  | some value => return value
  | none => failHere .numberOutOfRange

/-- What follows the letter of an exponent. -/
def exponent (negative : Bool) (n : Scaled) : Reader Json := do
  skip
  let downward ← match ← peek? with
    | some '+' => skip *> pure false
    | some '-' => skip *> pure true
    | _ => pure false
  let input ← get
  let digits ← run Char.isDigit
  if digits.isEmpty then
    failNext (if input.rest.isEmpty then .endInValue else .invalidNumber)
  else
    match exponentValue digits with
    | .ok e =>
      let e : Int := if downward then -e else e
      return .double (← within (Scaled.toDouble? ⟨n.significand, n.exponent + e⟩ negative))
    | .error seen =>
      if n.significand ≠ 0 && !downward then failOffset .numberOutOfRange (input.offset + seen)
      else return .double (if negative then -0.0 else 0.0)

/-- A double, of which the digits before its exponent have been read. -/
def double (negative : Bool) (n : Scaled) : Reader Json := do
  match ← peek? with
  | some 'e' | some 'E' => exponent negative n
  | _ => return .double (← within (n.toDouble? negative))

/-- A number, of which the digits before the point have been read. -/
def fraction (negative : Bool) (n : Scaled) : Reader Json := do
  match ← peek? with
  | some '.' =>
    skip
    let digits ← run Char.isDigit
    if digits.isEmpty then
      failNext (if (← peek?).isNone then .endInValue else .invalidNumber)
    else double negative (n.addFraction digits)
  | some 'e' | some 'E' => exponent negative n
  | _ => within (n.toNumber? negative)

/-- A number behind its sign. A zero in front stands alone. -/
def unsigned (negative : Bool) : Reader Json := do
  match ← peek? with
  | none => failHere .endInValue
  | some '0' =>
    skip
    if (← peek?).any Char.isDigit then failNext .invalidNumber
    else fraction negative ⟨0, 0⟩
  | some c =>
    if c.isDigit then fraction negative (.ofWhole (← run Char.isDigit))
    else failNext .invalidNumber

def number : Reader Json := do
  if (← peek?) = some '-' then
    skip
    unsigned true
  else unsigned false

/-! ## Texts -/

/-- Four hexadecimal digits. They are taken as four bytes, whatever these are. -/
def hex4 : Reader Nat := do
  let input ← get
  match input.rest with
  | a :: b :: c :: d :: rest =>
    match Literal.hex4? a b c d with
    | some n => set (⟨rest, input.offset + 4⟩ : Input) *> pure n
    | none => failShort input
  | _ => failShort input
where
  failShort {α : Type} (input : Input) : Reader α :=
    let left := (String.ofList input.rest).utf8ByteSize
    if 4 ≤ left then failOffset .invalidEscape (input.offset + 4)
    else failOffset .endInString (input.offset + left)

/-- Takes a character that the second half of a surrogate pair needs. -/
def pairMark (wanted : Char) : Reader Unit := do
  match ← peek? with
  | none => failHere .endInString
  | some c => if c = wanted then skip else failNext .unfinishedPair

def isLeading (n : Nat) : Bool :=
  0xD800 ≤ n && n ≤ 0xDBFF

def isTrailing (n : Nat) : Bool :=
  0xDC00 ≤ n && n ≤ 0xDFFF

/-- The character of a numeric escape. Those beyond sixteen bits are written as two surrogates. -/
def numericEscape : Reader Char := do
  let n ← hex4
  if isTrailing n then failHere .loneSurrogate
  else if isLeading n then
    pairMark '\\'
    pairMark 'u'
    let m ← hex4
    if isTrailing m then return Char.ofNat ((n - 0xD800) * 0x400 + (m - 0xDC00) + 0x10000)
    else failHere .loneSurrogate
  else return Char.ofNat n

/-- The character that an escape stands for, behind its backslash. -/
def escape : Reader Char := do
  match ← peek? with
  | none => failHere .endInString
  | some 'u' => skip *> numericEscape
  | some 'b' => skip *> pure '\x08'
  | some 'f' => skip *> pure '\x0c'
  | some 'n' => skip *> pure '\n'
  | some 'r' => skip *> pure '\x0d'
  | some 't' => skip *> pure '\t'
  | some c =>
    if c = '"' || c = '\\' || c = '/' then skip *> pure c else failNext .invalidEscape

/-- The characters up to the closing quote, in at most `rounds` rounds. -/
def charsWithin : Nat → Reader (List Char)
  | 0 => failHere .endInString
  | rounds + 1 => do
    match ← peek? with
    | none => failHere .endInString
    | some '"' => skip *> pure []
    | some '\\' =>
      skip
      let c ← escape
      return c :: (← charsWithin rounds)
    | some c =>
      if c.toNat < 0x20 then failNext .controlCharacter
      else
        skip
        return c :: (← charsWithin rounds)

/-- A text whose opening quote is here. -/
def text : Reader String := do
  skip
  return String.ofList (← charsWithin ((← get).rest.length + 1))

/-! ## Containers -/

/-- Whether another item follows; the comma before it is taken. -/
def anotherItem (first : Bool) : Reader Bool := do
  skipBlank
  match ← peek? with
  | none => failNext .endInList
  | some ']' => return false
  | some c =>
    if first then return true
    else if c = ',' then
      skip
      skipBlank
      match ← peek? with
      | none => failNext .endInValue
      | some ']' => failNext .trailingComma
      | some _ => return true
    else failNext .expectedItemEnd

/-- Whether another member follows; the comma before it is taken. -/
def anotherMember (first : Bool) : Reader Bool := do
  skipBlank
  match ← peek? with
  | none => failNext .endInObject
  | some '\x7d' => return false
  | some c =>
    if first then
      if c = '"' then return true else failNext .keyNotString
    else if c = ',' then
      skip
      skipBlank
      match ← peek? with
      | none => failNext .endInValue
      | some '"' => return true
      | some '\x7d' => failNext .trailingComma
      | some _ => failNext .keyNotString
    else failNext .expectedMemberEnd

/-- The end of an array. -/
def endItems : Reader Unit := do
  skipBlank
  match ← peek? with
  | some ']' => skip
  | some ',' =>
    skip
    skipBlank
    failNext (if (← peek?) = some ']' then .trailingComma else .trailingCharacters)
  | some _ => failNext .trailingCharacters
  | none => failNext .endInList

/-- The end of an object. -/
def endMembers : Reader Unit := do
  skipBlank
  match ← peek? with
  | some '\x7d' => skip
  | some ',' => failNext .trailingComma
  | some _ => failNext .trailingCharacters
  | none => failNext .endInObject

/-- The inside of a container and its end. The end is looked for even if the inside fails, and an
error that has no place yet is placed there. -/
def finishing {α : Type} (close : Reader Unit) (inside : Reader α) : Reader α := fun input =>
  match inside input with
  | (.ok value, input) => (close *> pure value : Reader α) input
  | (.error failure, input) =>
    let (_, input) := close input
    (.error ⟨failure.cause, failure.offset.or (some input.offset)⟩, input)

/-- The colon between the key and the value of a member. -/
def colon : Reader Unit := do
  skipBlank
  match ← peek? with
  | some ':' => skip
  | some _ => failNext .expectedColon
  | none => failNext .endInObject

def itemsWithin {α : Type} (item : Reader α) : Nat → Bool → Reader (List α)
  | 0, _ => failHere .endInList
  | rounds + 1, first => do
    if ← anotherItem first then
      let value ← item
      return value :: (← itemsWithin item rounds false)
    else return []

def membersWithin {α : Type} (item : Reader α) : Nat → Bool → Reader (List (String × α))
  | 0, _ => failHere .endInObject
  | rounds + 1, first => do
    if ← anotherMember first then
      let key ← text
      colon
      let value ← item
      return (key, value) :: (← membersWithin item rounds false)
    else return []

/-- A value whose containers hold what `element?` reads, or are refused if there is no such
reader. -/
def valueWith (element? : Option (Reader Json)) : Reader Json := do
  skipBlank
  match ← peek? with
  | none => failNext .endInValue
  | some 'n' => word "null" .null
  | some 't' => word "true" (.bool true)
  | some 'f' => word "false" (.bool false)
  | some '"' => return .str (← text)
  | some '[' =>
    match element? with
    | none => failNext .nestedTooDeep
    | some element =>
      skip
      let rounds := (← get).rest.length + 1
      return .array (← finishing endItems (itemsWithin element rounds true))
  | some '\x7b' =>
    match element? with
    | none => failNext .nestedTooDeep
    | some element =>
      skip
      let rounds := (← get).rest.length + 1
      return .object (Entries.ofList (← finishing endMembers (membersWithin element rounds true)))
  | some c => if c = '-' || c.isDigit then number else failNext .expectedValue

/-- A value with at most `depth` containers inside one another. -/
def valueWithin : Nat → Reader Json
  | 0 => valueWith none
  | depth + 1 => valueWith (some (valueWithin depth))

/-- How many containers may be inside one another. -/
def maxDepth : Nat := 127

def value : Reader Json :=
  valueWithin maxDepth

/-- What messages call the scalar that is here. It is read to its end. -/
def describeScalar : Reader String := do
  match ← peek? with
  | some 'n' => word "null" "null"
  | some 't' => word "true" "boolean \x60true\x60"
  | some 'f' => word "false" "boolean \x60false\x60"
  | some '"' => return "string " ++ Text.quoted (← text)
  | some c =>
    if c = '-' || c.isDigit then
      let n ← number
      return (match n with | .double _ => "floating point" | _ => "integer") ++
        " \x60" ++ n.text ++ "\x60"
    else failNext .expectedValue
  | none => failNext .expectedValue

/-- Reads a whole text, with nothing but blanks behind what `reader` takes. -/
def readAll {α : Type} (reader : Reader α) (source : String) : Except Error α :=
  let whole : Reader α := do
    let value ← reader
    skipBlank
    if (← peek?).isSome then failNext .trailingCharacters
    return value
  match whole ⟨source.toList, 0⟩ with
  | (.ok value, _) => .ok value
  | (.error failure, input) =>
    let (line, column) := lineColumn (failure.offset.getD input.offset) source.toList
    .error ⟨failure.cause, line, column⟩

end Reader

/-- Reads a JSON text. -/
def read (source : String) : Except Error Json :=
  Reader.readAll Reader.value source

end ExprLang.Json
