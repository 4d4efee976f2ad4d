import ExprLang.Value
/-!
# Access paths

A path names a storage location: a root name and the steps from there into lists and maps. It is
what a reference becomes once its index expressions have been evaluated.
-/

namespace ExprLang

inductive PathKey where
  | property (name : String)
  | index (n : Int64)
  deriving DecidableEq, Repr

abbrev Path := List PathKey

def PathKey.describe : PathKey → String
  | property name => "." ++ name
  | index n => "[" ++ n.toInt.repr ++ "]"

/-- What a message calls the path. A name at the root stands without its dot. -/
def Path.describe : Path → String
  | [] => ""
  | .property root :: rest => root ++ String.join (rest.map PathKey.describe)
  | path => String.join (path.map PathKey.describe)

/-- The path of a name alone. -/
def Path.ofName (name : String) : Path :=
  [.property name]

/-- The position `n` in a list of `length` items, if it is inside. -/
def position? (length : Nat) (n : Int64) : Option Nat :=
  if 0 ≤ n.toInt ∧ n.toInt < length then some n.toInt.toNat else none

theorem position?_eq_some_iff {length : Nat} {n : Int64} {i : Nat} :
    position? length n = some i ↔ n.toInt = i ∧ i < length := by
  simp only [position?]
  split <;> simp only [Option.some.injEq, reduceCtorEq, false_iff] <;> omega

end ExprLang
