import ExprLang.Cursor
/-!
# Parsing steps

A parsing step moves a cursor and gives a result or an error. The cursor stays where the error
arose.
-/

namespace ExprLang

abbrev Parse := ExceptT Error (StateM Cursor)

namespace Parse

/-- The token here. -/
def current : Parse Token :=
  return (← get).current

/-- Takes the token here. -/
def consume : Parse Token := do
  let here ← get
  set here.next
  return here.current

/-- Takes the token here if it has the kind. -/
def accept? (kind : TokenKind) : Parse (Option Token) := do
  if (← current).kind = kind then return some (← consume) else return none

/-- Whether a token of the kind was here; it is taken. -/
def accepts (kind : TokenKind) : Parse Bool :=
  return (← accept? kind).isSome

/-- A grammar error at the token here. -/
def unexpected {α : Type} (what : String) : Parse α := do
  throw ((← get).unexpected what)

/-- Takes the token here, which must have the kind. -/
def ensure (kind : TokenKind) : Parse Token := do
  match ← accept? kind with
  | some t => return t
  | none => unexpected (Fault.mention kind.describe)

/-- Takes the token here, which must have one of the kinds. -/
def ensureAny (kinds : List TokenKind) : Parse Token := do
  if (← get).isAt kinds then consume
  else unexpected (" or ".intercalate (kinds.map fun kind => Fault.mention kind.describe))

/-- Requires that the opener here has a balancing closer. -/
def ensureEnclosed (opener close : TokenKind) : Parse Unit := do
  match (← get).enclosed opener close with
  | .ok _ => return
  | .error e => throw e

/-- An error at the token here. -/
def failHere {α : Type} (fault : Fault) : Parse α := do
  throw (.inSpan fault (← current).span)

/-- A result that is known already, or a fault of the given token. -/
def liftAt {α : Type} (token : Token) : Except Fault α → Parse α
  | .ok a => return a
  | .error fault => throw (.inSpan fault token.span)

/-- The step, if it reaches the end of the input. -/
def toEnd {α : Type} (step : Parse α) : Parse α := do
  let a ← step
  if (← get).isEnd then return a else unexpected "end of input"

/-- How many tokens are still to come. Every loop that takes at least one token in each round has
at most that many rounds, and one more in which it stops. -/
def remaining : Parse Nat :=
  return (← get).coming.length

/-- One or more items with separators between them, in at most `rounds` rounds. -/
def itemsWithin {α : Type} (separator : TokenKind) (item : Parse α) : Nat → Parse (List α)
  | 0 => failHere .nestedTooDeep
  | rounds + 1 => do
    let first ← item
    if ← accepts separator then
      return first :: (← itemsWithin separator item rounds)
    else return [first]

/-- One or more items with separators between them. -/
def items {α : Type} (separator : TokenKind) (item : Parse α) : Parse (List α) := do
  itemsWithin separator item ((← remaining) + 1)

end Parse

end ExprLang
