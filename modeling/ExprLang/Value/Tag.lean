/-!
# Type tags

The declared type of an operand, a parameter or a conversion target. Three tags accept more than
one type of value: `any` everything, `number` every number, and the wider number types also the
narrower ones.
-/

namespace ExprLang

inductive TypeTag where
  | any | number | null | bool | char | int | long | double | string | list | map
  deriving DecidableEq, Repr

namespace TypeTag

def all : List TypeTag := [any, number, null, bool, char, int, long, double, string, list, map]

theorem mem_all (t : TypeTag) : t ∈ all := by cases t <;> decide

/-- Whether a value tagged `actual` fits the declared tag, perhaps after widening. -/
def accepts (declared actual : TypeTag) : Bool :=
  match declared with
  | any => true
  | number | double => actual == int || actual == long || actual == double
  | long => actual == int || actual == long
  | _ => declared == actual

/-- How unspecific a declared tag is. Overloads with a lower sum are tried first. -/
def rank : TypeTag → Nat
  | any => 4
  | number => 3
  | double => 2
  | long => 1
  | _ => 0

def name : TypeTag → String
  | any => "any"
  | number => "number"
  | null => "null"
  | bool => "bool"
  | char => "char"
  | int => "int"
  | long => "long"
  | double => "double"
  | string => "string"
  | list => "list"
  | map => "map"

def ofName? (text : String) : Option TypeTag :=
  all.find? fun t => t.name == text

end TypeTag

end ExprLang
