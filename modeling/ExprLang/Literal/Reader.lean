import ExprLang.Decimal.Reader
import ExprLang.Error
/-!
# Reading literals

What a number token and a string token stand for. The suffix of a number decides its type; without
one, a point makes it a double. The text of a string token still has its quotes and escapes.
-/

namespace ExprLang.Literal

open Decimal

/-- An integer that fits the wide type. -/
def readInt64? (cs : List Char) : Option Int64 :=
  (readInt? cs).bind int64?

/-- The number that a token text stands for. -/
def ofNumber? (text : List Char) : Option Literal :=
  match text.getLast? with
  | some 'L' | some 'l' => (readInt64? text.dropLast).map .long
  | some 'D' | some 'd' => (readFloat? text.dropLast).map .double
  | _ =>
    if text.contains '.' then (readFloat? text).map .double
    else (readInt64? text).map .int

def hexDigit? (c : Char) : Option Nat :=
  if c.isDigit then some (c.toNat - '0'.toNat)
  else if 'a' ≤ c ∧ c ≤ 'f' then some (c.toNat - 'a'.toNat + 10)
  else if 'A' ≤ c ∧ c ≤ 'F' then some (c.toNat - 'A'.toNat + 10)
  else none

/-- The number written by four hexadecimal digits. -/
def hex4? (a b c d : Char) : Option Nat := do
  let a ← hexDigit? a
  let b ← hexDigit? b
  let c ← hexDigit? c
  let d ← hexDigit? d
  return ((a * 16 + b) * 16 + c) * 16 + d

/-- The character with the code point, which must not be a surrogate. -/
def charOf? (n : Nat) : Option Char :=
  if n.isValidChar then some (Char.ofNat n) else none

/-- The characters that the inside of a string token stands for. A backslash gives the next
character, except that `n`, `t` and `r` are control characters and `u` is followed by four
hexadecimal digits. -/
def unescape : List Char → Except Fault (List Char)
  | [] => .ok []
  | '\\' :: 'u' :: a :: b :: c :: d :: rest =>
    match (hex4? a b c d).bind charOf? with
    | some e => (unescape rest).map (e :: ·)
    | none => .error .invalidEscape
  | '\\' :: 'u' :: _ => .error .invalidEscape
  | '\\' :: 'n' :: rest => (unescape rest).map ('\n' :: ·)
  | '\\' :: 't' :: rest => (unescape rest).map ('\t' :: ·)
  | '\\' :: 'r' :: rest => (unescape rest).map ('\r' :: ·)
  | '\\' :: c :: rest => (unescape rest).map (c :: ·)
  | ['\\'] => .error .danglingEscape
  | c :: rest => (unescape rest).map (c :: ·)

/-- The text that a string token stands for. Its first character is the quote, and the last one must
be the same. -/
def ofQuoted : List Char → Except Fault Literal
  | [] => .error .emptyString
  | quote :: body =>
    if body.getLast? = some quote then
      (unescape body.dropLast).map fun inside => .str (String.ofList inside)
    else .error .unclosedString

end ExprLang.Literal
