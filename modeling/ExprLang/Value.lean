import ExprLang.Entries
import ExprLang.Value.Tag
/-!
# Values

The values of expressions. Integers come in two widths; integer results are narrow when they fit.
The entries of a map are sorted by key, so that equal maps list their entries alike.
-/

namespace ExprLang

inductive Value where
  | null
  | bool (b : Bool)
  | char (c : Char)
  | int (n : Int32)
  | long (n : Int64)
  | double (d : Float)
  | str (s : String)
  | list (items : List Value)
  | map (entries : List (String × Value))
  deriving Inhabited

/-- The narrow integer equal to `n`, if there is one. -/
def int32? (n : Int) : Option Int32 :=
  if Int32.minValue.toInt ≤ n ∧ n ≤ Int32.maxValue.toInt then some (Int32.ofInt n) else none

/-- The wide integer equal to `n`, if there is one. -/
def int64? (n : Int) : Option Int64 :=
  if Int64.minValue.toInt ≤ n ∧ n ≤ Int64.maxValue.toInt then some (Int64.ofInt n) else none

theorem int32?_eq_some_iff {n : Int} {m : Int32} : int32? n = some m ↔ m.toInt = n := by
  unfold int32?
  constructor
  · split
    · rename_i h
      rintro ⟨⟩
      exact Int32.toInt_ofInt_of_le h.1 (Int.lt_of_le_sub_one h.2)
    · simp
  · rintro rfl
    rw [if_pos ⟨m.minValue_le_toInt, m.toInt_le⟩, Int32.ofInt_toInt]

theorem int64?_eq_some_iff {n : Int} {m : Int64} : int64? n = some m ↔ m.toInt = n := by
  unfold int64?
  constructor
  · split
    · rename_i h
      rintro ⟨⟩
      exact Int64.toInt_ofInt_of_le h.1 (Int.lt_of_le_sub_one h.2)
    · simp
  · rintro rfl
    rw [if_pos ⟨m.minValue_le_toInt, m.toInt_le⟩, Int64.ofInt_toInt]

namespace Value

def tag : Value → TypeTag
  | null => .null
  | bool _ => .bool
  | char _ => .char
  | int _ => .int
  | long _ => .long
  | double _ => .double
  | str _ => .string
  | list _ => .list
  | map _ => .map

def isNull : Value → Bool
  | null => true
  | _ => false

def isNumber : Value → Bool
  | int _ | long _ | double _ => true
  | _ => false

def bool? : Value → Option Bool
  | bool b => some b
  | _ => none

def str? : Value → Option String
  | str s => some s
  | _ => none

/-- The number of an integer of either width. -/
def long? : Value → Option Int64
  | int n => some n.toInt64
  | long n => some n
  | _ => none

/-- Any number as the nearest double. -/
def double? : Value → Option Float
  | int n => some n.toFloat
  | long n => some n.toFloat
  | double d => some d
  | _ => none

/-- The integer as a narrow value when it fits and as a wide one otherwise. -/
def integer (n : Int64) : Value :=
  match int32? n.toInt with
  | some small => int small
  | none => long n

/-- The length of a list or text that is kept in memory; it always fits the wide integers. -/
def ofLength (n : Nat) : Value :=
  integer (Int64.ofNat n)

end Value

end ExprLang
