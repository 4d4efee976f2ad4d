import ExprLang.Text.Alphabetic
import ExprLang.Text.Numeric
/-!
# Words

A word begins with a letter, an underscore or a dollar sign and goes on with those and with
numeric characters. Names, keywords and property names all have this shape.
-/

namespace ExprLang.Text

def isWordStart (c : Char) : Bool :=
  isAlphabetic c || c == '_' || c == '$'

def isWordPart (c : Char) : Bool :=
  isAlphabetic c || isNumeric c || c == '_' || c == '$'

theorem isWordPart_of_isWordStart {c : Char} (h : isWordStart c = true) : isWordPart c = true := by
  simp only [isWordStart, isWordPart, Bool.or_eq_true] at h ⊢
  rcases h with (h | h) | h <;> simp [h]

/-- Whether the whole text is one word. -/
def isWord (text : String) : Bool :=
  match text.toList with
  | [] => false
  | c :: rest => isWordStart c && rest.all isWordPart

end ExprLang.Text
