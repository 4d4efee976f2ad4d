import ExprLang.Text.Printable
/-!
# Quoted text

The form in which texts and characters are shown inside diagnostic listings: between quotes, with
the usual escapes, and with the code point in hexadecimal for what cannot be shown.
-/

namespace ExprLang.Text

/-- Lower-case hexadecimal digits without leading zeros. -/
def hexDigits (n : Nat) : String :=
  String.ofList (Nat.toDigits 16 n)

/-- One character inside quotes of the kind `quote`. Only that quote needs an escape. -/
def escaped (quote : Char) (c : Char) : String :=
  if c = quote || c = '\\' then String.ofList ['\\', c]
  else if c = '\t' then "\\t"
  else if c = '\r' then "\\r"
  else if c = '\n' then "\\n"
  else if c = '\x00' then "\\0"
  else if isPrintable c && !isExtending c then String.singleton c
  else "\\u\x7b" ++ hexDigits c.toNat ++ "\x7d"

/-- A text between double quotes. -/
def quoted (s : String) : String :=
  "\"" ++ String.join (s.toList.map (escaped '"')) ++ "\""

/-- A character between single quotes. -/
def quotedChar (c : Char) : String :=
  "'" ++ escaped '\'' c ++ "'"

end ExprLang.Text
