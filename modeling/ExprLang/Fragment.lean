import ExprLang.Error
import ExprLang.Fragment.Lexeme
import ExprLang.Text.Blank
/-!
# Fragments of a source

Cutting a source into lexemes with the places where they stand. Blank characters separate lexemes
and belong to none. `Splitter` is the shape of every way to cut a source; hosts may bring their own.
-/

namespace ExprLang

/-- Cuts a source into fragments, given the symbols that have to be cut as one fragment each. -/
abbrev Splitter := List String → String → Except Error (List Fragment)

namespace Fragment

open Text

/-- The fragments of the characters, which begin at `m`. -/
def ofChars (symbols : List (List Char)) (m : Mark) (cs : List Char) :
    Except Error (List Fragment) :=
  let start := m.advance (cs.takeWhile isBlank)
  match _hcs : cs.dropWhile isBlank with
  | [] => .ok []
  | c :: rest =>
    match _hnext : Lexeme.next? symbols c rest with
    | none => .error (.located .unterminatedString start.line start.col)
    | some (lexeme, after) => do
      let stop := start.advance lexeme
      let others ← ofChars symbols stop after
      return ⟨String.ofList lexeme, .between start stop⟩ :: others
termination_by cs.length
decreasing_by
  have hdrop := (List.dropWhile_suffix isBlank (l := cs)).length_le
  rw [_hcs] at hdrop
  have hafter := Lexeme.length_of_next? _hnext
  simp only [List.length_cons] at hdrop
  omega

/-- The fragments of a source. Of several symbols that stand at one place, the one that comes first
in the list is cut. -/
def split : Splitter := fun symbols source =>
  ofChars (symbols.map String.toList) .start source.toList

end Fragment

end ExprLang
