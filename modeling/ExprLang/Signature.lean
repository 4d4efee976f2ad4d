import ExprLang.Value
/-!
# Signatures

The declared parameters of a function: a tag for each leading argument and, for functions that take
any number of arguments, a tag for all further ones.
-/

namespace ExprLang

structure Signature where
  params : List TypeTag
  rest : Option TypeTag
  deriving DecidableEq, Repr

namespace Signature

/-- Exactly these arguments. -/
def fixed (params : List TypeTag) : Signature :=
  ⟨params, none⟩

/-- These arguments and any number of further ones. -/
def atLeast (params : List TypeTag) (rest : TypeTag) : Signature :=
  ⟨params, some rest⟩

def isVariadic (s : Signature) : Bool :=
  s.rest.isSome

/-- The declared tag of the argument at a position. -/
def tag? (s : Signature) (i : Nat) : Option TypeTag :=
  s.params[i]?.or s.rest

/-- Whether values with the given tags fit the declared tags one by one. -/
def acceptsFrom (rest : Option TypeTag) : List TypeTag → List TypeTag → Bool
  | [], [] => true
  | declared :: params, actual :: tags => declared.accepts actual && acceptsFrom rest params tags
  | _ :: _, [] => false
  | [], tags =>
    match rest with
    | some declared => tags.all declared.accepts
    | none => false

def accepts (s : Signature) (args : List Value) : Bool :=
  acceptsFrom s.rest s.params (args.map Value.tag)

/-- The sum of the ranks of all declared tags. -/
def rank (s : Signature) : Nat :=
  (s.params ++ s.rest.toList).foldr (fun tag sum => tag.rank + sum) 0

/-- Whether `s` is tried before or along with `t`: fixed parameters before any number of them, then
the lower rank. -/
def notAfter (s t : Signature) : Bool :=
  if s.isVariadic = t.isVariadic then s.rank ≤ t.rank else t.isVariadic

def text (s : Signature) : String :=
  let rest := match s.rest with
    | some tag => [tag.name ++ "..."]
    | none => []
  "(" ++ ", ".intercalate (s.params.map TypeTag.name ++ rest) ++ ")"

end Signature

end ExprLang
