import ExprLang.Error
/-!
# Conversions

Converters turn values of one declared type into another. They are tried in the order in which they
were added; a value that already has the requested type needs none.
-/

namespace ExprLang

/-- What can be computed while an expression is evaluated: a value or the cause of an error. -/
abbrev Outcome := Except Fault Value

structure Converter where
  source : TypeTag
  target : TypeTag
  apply : Value → Outcome

namespace Converter

/-- Whether the converter turns values tagged `tag` into `target`. -/
def serves (tag target : TypeTag) (c : Converter) : Bool :=
  c.target = target && c.source.accepts tag

/-- The converter as listings show it. -/
def inspect (c : Converter) : String :=
  "Converter(" ++ c.source.name ++ " -> " ++ c.target.name ++ ")"

end Converter

/-- Converters in the order in which they are tried. -/
structure Conversion where
  converters : List Converter

namespace Conversion

def empty : Conversion :=
  ⟨[]⟩

def add (c : Conversion) (converter : Converter) : Conversion :=
  ⟨c.converters ++ [converter]⟩

/-- Whether a value tagged `tag` is of the requested type as it is. -/
def isSettled (tag target : TypeTag) : Bool :=
  tag == target || target == .any || (target == .number && target.accepts tag)

/-- Whether there is a way from one tag to the other. The way may still fail for some values. -/
def canConvert (c : Conversion) (tag target : TypeTag) : Bool :=
  isSettled tag target || c.converters.any (Converter.serves tag target)

def convert (c : Conversion) (value : Value) (target : TypeTag) : Outcome :=
  if isSettled value.tag target then .ok value
  else
    match c.converters.find? (Converter.serves value.tag target) with
    | some converter => converter.apply value
    | none => .error (.cannotConvert value target)

end Conversion

end ExprLang
