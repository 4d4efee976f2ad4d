import ExprLang.Decimal.Layout
import ExprLang.Text.Quoted
import ExprLang.Value
/-!
# Written values

`Value.text` is the form in which values are printed and joined to texts: strings stand without
quotes and wide integers without a suffix. `Value.inspect` is the form of diagnostic listings, in
which every value names its type.
-/

namespace ExprLang

/-- Doubles in results and sources never have an exponent, integral ones have all their digits and
one zero after the point, and an exact tie between two shortest forms goes up. -/
def plainDouble : Decimal.Layout := ⟨.up, true, fun _ => true, ""⟩

/-- Doubles in listings have an exponent when they are below a ten-thousandth or have more than
sixteen digits before the point. -/
def inspectedDouble : Decimal.Layout := ⟨.up, false, fun point => -4 < point && point ≤ 16, ""⟩

/-- The items between commas. -/
def commaSeparated (items : List String) : String :=
  ", ".intercalate items

namespace Value

mutual
def text : Value → String
  | null => "null"
  | bool b => if b then "true" else "false"
  | char c => String.singleton c
  | int n => n.toInt.repr
  | long n => n.toInt.repr
  | double d => plainDouble.write d
  | str s => s
  | list items => "[" ++ commaSeparated (texts items) ++ "]"
  | map entries => "\x7b" ++ commaSeparated (entryTexts entries) ++ "\x7d"

def texts : List Value → List String
  | [] => []
  | v :: rest => v.text :: texts rest

def entryTexts : List (String × Value) → List String
  | [] => []
  | (k, v) :: rest => (k ++ ": " ++ v.text) :: entryTexts rest
end

mutual
def inspect : Value → String
  | null => "Null"
  | bool b => "Bool(" ++ (if b then "true" else "false") ++ ")"
  | char c => "Char(" ++ Text.quotedChar c ++ ")"
  | int n => "Int(" ++ n.toInt.repr ++ ")"
  | long n => "Long(" ++ n.toInt.repr ++ ")"
  | double d => "Double(" ++ inspectedDouble.write d ++ ")"
  | str s => "Str(" ++ Text.quoted s ++ ")"
  | list items => "List([" ++ commaSeparated (inspectAll items) ++ "])"
  | map entries => "Map(\x7b" ++ commaSeparated (inspectEntries entries) ++ "\x7d)"

def inspectAll : List Value → List String
  | [] => []
  | v :: rest => v.inspect :: inspectAll rest

def inspectEntries : List (String × Value) → List String
  | [] => []
  | (k, v) :: rest => (Text.quoted k ++ ": " ++ v.inspect) :: inspectEntries rest
end

end Value

end ExprLang
