import ExprLang.Json
import ExprLang.Value
import ExprLang.Decimal.Binary
/-!
# JSON and values

Every JSON tree is a value, and every value has a JSON tree. Characters become texts, and doubles
that JSON cannot hold become null. Integers beyond the wide type become doubles.
-/

namespace ExprLang

open Decimal

/-- The nearest double of an integer. -/
def doubleOfInt (n : Int) : Float :=
  nearest (n < 0) n.natAbs 1

mutual
def Json.toValue : Json → Value
  | .null => .null
  | .bool b => .bool b
  | .integer n =>
    match int64? n with
    | some n => .integer n
    | none => .double (doubleOfInt n)
  | .double d => .double d
  | .str s => .str s
  | .array items => .list (Json.toValues items)
  | .object members => .map (Json.toEntries members)

def Json.toValues : List Json → List Value
  | [] => []
  | j :: rest => j.toValue :: Json.toValues rest

def Json.toEntries : List (String × Json) → List (String × Value)
  | [] => []
  | (k, j) :: rest => (k, j.toValue) :: Json.toEntries rest
end

/-- A double in JSON, which has no infinities and no not-a-number. -/
def Json.ofFloat (d : Float) : Json :=
  match decode d with
  | .finite _ _ _ => .double d
  | _ => .null

mutual
def Value.toJson : Value → Json
  | .null => .null
  | .bool b => .bool b
  | .char c => .str (String.singleton c)
  | .int n => .integer n.toInt
  | .long n => .integer n.toInt
  | .double d => .ofFloat d
  | .str s => .str s
  | .list items => .array (Value.toJsons items)
  | .map entries => .object (Value.toMembers entries)

def Value.toJsons : List Value → List Json
  | [] => []
  | v :: rest => v.toJson :: Value.toJsons rest

def Value.toMembers : List (String × Value) → List (String × Json)
  | [] => []
  | (k, v) :: rest => (k, v.toJson) :: Value.toMembers rest
end

end ExprLang
