import ExprLang.Conversion
import ExprLang.Decimal.Reader
import ExprLang.Text.Blank
/-!
# Core conversions

Booleans, characters and numbers to texts and back, widening, narrowing where nothing is lost, and
characters to their code points. Blank characters around a text that is read do not matter.
-/

namespace ExprLang.Conversion

open Decimal Text

/-- A conversion that has no result for some values. -/
def partially (target : TypeTag) (f : Value → Option Value) : Value → Outcome := fun value =>
  match f value with
  | some result => .ok result
  | none => .error (.cannotConvert value target)

/-- A narrow integer from a wide one or from an integral double that fits. -/
def narrowed? : Value → Option Value
  | .long n => (int32? n.toInt).map .int
  | .double d => ((toInt? d).bind int32?).map .int
  | _ => none

/-- A wide integer from a narrow one, an integral double that fits, or a character. -/
def widened? : Value → Option Value
  | .int n => some (.long n.toInt64)
  | .double d => ((toInt? d).bind int64?).map .long
  | .char c => some (.long (Int64.ofNat c.toNat))
  | _ => none

/-- A double from any number. -/
def toDouble? (value : Value) : Option Value :=
  value.double?.map .double

/-- The code point of a character as a narrow integer. -/
def codePoint? : Value → Option Value
  | .char c => (int32? c.toNat).map .int
  | _ => none

/-- The characters without a suffix of wide integers. -/
def withoutSuffix (cs : List Char) : List Char :=
  match cs.getLast? with
  | some 'L' | some 'l' => cs.dropLast
  | _ => cs

def readBool? (cs : List Char) : Option Value :=
  if cs = ['t', 'r', 'u', 'e'] then some (.bool true)
  else if cs = ['f', 'a', 'l', 's', 'e'] then some (.bool false)
  else none

def readChar? : List Char → Option Value
  | [c] => some (.char c)
  | _ => none

def readNarrow? (cs : List Char) : Option Value :=
  ((readInt? cs).bind int32?).map .int

def readWide? (cs : List Char) : Option Value :=
  ((readInt? (withoutSuffix cs)).bind int64?).map .long

def readDouble? (cs : List Char) : Option Value :=
  (readFloat? cs).map .double

/-- An integer if it fits the wide type, and a double otherwise. -/
def readNumber? (cs : List Char) : Option Value :=
  (((readInt? cs).bind int64?).map Value.integer).or (readDouble? cs)

/-- Reads the trimmed text of a string value. -/
def fromText (target : TypeTag) (read? : List Char → Option Value) : Converter :=
  ⟨.string, target, partially target fun value =>
    value.str?.bind fun s => read? (trim s.toList)⟩

/-- Writes a value as a string. -/
def toText (source : TypeTag) : Converter :=
  ⟨source, .string, fun value => .ok (.str value.text)⟩

def coreConverters : List Converter := [
  toText .bool,
  toText .char,
  toText .number,
  fromText .bool readBool?,
  fromText .char readChar?,
  fromText .int readNarrow?,
  fromText .long readWide?,
  fromText .double readDouble?,
  fromText .number readNumber?,
  ⟨.number, .long, partially .long widened?⟩,
  ⟨.number, .double, partially .double toDouble?⟩,
  ⟨.number, .int, partially .int narrowed?⟩,
  ⟨.char, .int, partially .int codePoint?⟩,
  ⟨.char, .long, partially .long widened?⟩]

def core : Conversion :=
  ⟨coreConverters⟩

end ExprLang.Conversion
