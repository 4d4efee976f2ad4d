import ExprLang.Decimal.Layout
import ExprLang.Json
import ExprLang.Text.Quoted
/-!
# Writing JSON

The compact form of a JSON tree, without blanks. Only what a JSON text cannot hold is escaped.
-/

namespace ExprLang.Json

/-- Doubles in JSON have an exponent when they are below a hundred-thousandth or have more than
sixteen digits before the point, and a positive one has its sign. An exact tie between two shortest
forms goes to the even one. -/
def doubleLayout : Decimal.Layout := ⟨.even, false, fun point => -5 < point && point ≤ 16, "+"⟩

/-- Two hexadecimal digits. -/
def hexByte (n : Nat) : String :=
  if n < 16 then "0" ++ Text.hexDigits n else Text.hexDigits n

def escapedChar (c : Char) : String :=
  if c = '"' then "\\\""
  else if c = '\\' then "\\\\"
  else if c = '\x08' then "\\b"
  else if c = '\x0c' then "\\f"
  else if c = '\n' then "\\n"
  else if c = '\x0d' then "\\r"
  else if c = '\t' then "\\t"
  else if c.toNat < 0x20 then "\\u00" ++ hexByte c.toNat
  else String.singleton c

def quoted (s : String) : String :=
  "\"" ++ String.join (s.toList.map escapedChar) ++ "\""

mutual
def text : Json → String
  | null => "null"
  | bool b => if b then "true" else "false"
  | integer n => n.repr
  | double d => doubleLayout.write d
  | str s => quoted s
  | array items => "[" ++ ",".intercalate (texts items) ++ "]"
  | object members => "\x7b" ++ ",".intercalate (memberTexts members) ++ "\x7d"

def texts : List Json → List String
  | [] => []
  | j :: rest => j.text :: texts rest

def memberTexts : List (String × Json) → List String
  | [] => []
  | (k, j) :: rest => (quoted k ++ ":" ++ j.text) :: memberTexts rest
end

end ExprLang.Json
