import ExprLang.Text.Ranges
/-!
# Blank characters

The Unicode property `White_Space`: what separates fragments of a source and what trimming
removes.
-/

namespace ExprLang.Text

/-- The code points with the property `White_Space`. -/
def blankRanges : List (Nat × Nat) := [
  (0x9, 0xD), (0x20, 0x20), (0x85, 0x85), (0xA0, 0xA0), (0x1680, 0x1680), (0x2000, 0x200A),
  (0x2028, 0x2029), (0x202F, 0x202F), (0x205F, 0x205F), (0x3000, 0x3000)]

def isBlank (c : Char) : Bool :=
  inRanges blankRanges c.toNat

/-- The characters without the blank ones at the end. -/
def trimEnd (cs : List Char) : List Char :=
  (cs.reverse.dropWhile isBlank).reverse

/-- The characters without the blank ones at either end. -/
def trim (cs : List Char) : List Char :=
  trimEnd (cs.dropWhile isBlank)

/-- `trim` on strings. -/
def trimmed (s : String) : String :=
  String.ofList (trim s.toList)

/-- `trimEnd` on strings. -/
def trimmedEnd (s : String) : String :=
  String.ofList (trimEnd s.toList)

end ExprLang.Text
