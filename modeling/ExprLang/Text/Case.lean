import ExprLang.Text.CaseTable
import ExprLang.Text.Ranges
/-!
# Upper and lower case

Full case conversion of texts. Every character is mapped on its own, except that a capital sigma
becomes the final form of the small letter at the end of a word.
-/

namespace ExprLang.Text

/-- The image of a character under a case mapping given by runs and expansions. -/
def mapCase (runs : List CaseRun) (expansions : List (Nat × List Nat)) (c : Char) : List Char :=
  match expansions.lookup c.toNat with
  | some images => images.map Char.ofNat
  | none => [((runs.findSome? (·.image? c.toNat)).map Char.ofNat).getD c]

def upperChar (c : Char) : List Char :=
  if c.toNat < 0x80 then [c.toUpper] else mapCase upperRuns upperExpansions c

def lowerChar (c : Char) : List Char :=
  if c.toNat < 0x80 then [c.toLower] else mapCase lowerRuns lowerExpansions c

/-- Whether the nearest character that is not case-ignorable is cased. -/
def nextToCased (cs : List Char) : Bool :=
  match cs.dropWhile fun c => inRanges caseIgnorableRanges c.toNat with
  | [] => false
  | c :: _ => inRanges casedRanges c.toNat

/-- Lower case of a text whose already read characters, latest first, are `before`. A capital sigma
after a cased character and not before one ends its word. -/
def lowerAfter (before : List Char) : List Char → List Char
  | [] => []
  | c :: rest =>
    let image :=
      if c = 'Σ' then [if nextToCased before && !nextToCased rest then 'ς' else 'σ']
      else lowerChar c
    image ++ lowerAfter (c :: before) rest

def upperCase (s : String) : String :=
  String.ofList (s.toList.flatMap upperChar)

def lowerCase (s : String) : String :=
  String.ofList (lowerAfter [] s.toList)

end ExprLang.Text
