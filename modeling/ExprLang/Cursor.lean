import ExprLang.Error
import ExprLang.Token
/-!
# Cursors

A place in a sequence of tokens: the tokens already passed, the token here and those to come. A
cursor made from a list always has an end token last, and no movement leaves the sequence.
-/

namespace ExprLang

structure Cursor where
  /-- the latest first -/
  passed : List Token
  current : Token
  coming : List Token
  deriving DecidableEq

namespace Cursor

/-- The end token behind a sequence that lacks one. It stands on the line of the last token, right
behind its characters. -/
def closing : List Token → Token
  | [] => ⟨BasicKind.eof, "", .none⟩
  | [t] =>
    let s := t.span
    ⟨BasicKind.eof, "", ⟨s.stop, s.stop, s.line, s.col + t.text.length⟩⟩
  | _ :: rest => closing rest

/-- The sequence itself if it has an end token last, and with one added otherwise. -/
def closed (tokens : List Token) : List Token :=
  if (tokens.getLast?.map Token.isEof).getD false then tokens else tokens ++ [closing tokens]

/-- The cursor at the first token of the closed sequence. -/
def ofList (tokens : List Token) : Cursor :=
  match closed tokens with
  | first :: rest => ⟨[], first, rest⟩
  | [] => ⟨[], closing [], []⟩

def tokens (c : Cursor) : List Token :=
  c.passed.reverse ++ c.current :: c.coming

def size (c : Cursor) : Nat :=
  c.tokens.length

/-- Whether there is nothing but an end token. -/
def isEmpty (c : Cursor) : Bool :=
  c.size ≤ 1

def position (c : Cursor) : Nat :=
  c.passed.length

/-- The last token of the sequence. -/
def final (c : Cursor) : Token :=
  c.coming.getLast?.getD c.current

def isEnd (c : Cursor) : Bool :=
  c.current.isEof

/-- One token further, or here at the last one. -/
def next (c : Cursor) : Cursor :=
  match c.coming with
  | t :: rest => ⟨c.current :: c.passed, t, rest⟩
  | [] => c

/-- One token back, or here at the first one. -/
def previous (c : Cursor) : Cursor :=
  match c.passed with
  | t :: rest => ⟨rest, t, c.current :: c.coming⟩
  | [] => c

/-- The cursor at a position, or at the last token if that comes first. -/
def moveTo (position : Nat) (c : Cursor) : Cursor :=
  Nat.repeat previous (c.position - position) (Nat.repeat next (position - c.position) c)

/-- An independent cursor some tokens away, kept within the sequence. -/
def fork (offset : Int) (c : Cursor) : Cursor :=
  c.moveTo (c.position + offset).toNat

/-- The token some tokens away, if there is one. -/
def look? (offset : Int) (c : Cursor) : Option Token :=
  if offset = 0 then some c.current
  else if 0 < offset then c.coming[offset.toNat - 1]?
  else c.passed[(-offset).toNat - 1]?

/-- Whether the token here has one of the kinds. -/
def isAt (kinds : List TokenKind) (c : Cursor) : Bool :=
  kinds.contains c.current.kind

def isNext (kinds : List TokenKind) (c : Cursor) : Bool :=
  (c.coming.head?.map fun t => kinds.contains t.kind).getD false

def isPrevious (kinds : List TokenKind) (c : Cursor) : Bool :=
  (c.passed.head?.map fun t => kinds.contains t.kind).getD false

/-- Whether the tokens from here on have these kinds. -/
def startsWith (kinds : List TokenKind) (c : Cursor) : Bool :=
  kinds.isPrefixOf ((c.current :: c.coming).map Token.kind)

/-- The first cursor from `passed`, `current`, `coming` onward whose token satisfies `p`. -/
def seekForward (p : Token → Bool) (passed : List Token) (current : Token) :
    List Token → Option Cursor
  | [] => if p current then some ⟨passed, current, []⟩ else none
  | t :: rest =>
    if p current then some ⟨passed, current, t :: rest⟩
    else seekForward p (current :: passed) t rest

/-- The nearest place here or further on whose token satisfies `p`. -/
def forward? (p : Token → Bool) (c : Cursor) : Option Cursor :=
  seekForward p c.passed c.current c.coming

/-- The first cursor from `coming`, `current`, `passed` backward whose token satisfies `p`. -/
def seekBackward (p : Token → Bool) (coming : List Token) (current : Token) :
    List Token → Option Cursor
  | [] => if p current then some ⟨[], current, coming⟩ else none
  | t :: rest =>
    if p current then some ⟨t :: rest, current, coming⟩
    else seekBackward p (current :: coming) t rest

/-- The nearest place here or further back whose token satisfies `p`. -/
def backward? (p : Token → Bool) (c : Cursor) : Option Cursor :=
  seekBackward p c.coming c.current c.passed

/-- A grammar error at the token here. -/
def unexpected (what : String) (c : Cursor) : Error :=
  .inSpan (.expected what c.current.describe) c.current.span

/-- How many tokens from the front on the one stands that closes `depth` openers. An opener counts
as such also when it could close. -/
def closer? (opener close : TokenKind) : Nat → List Token → Option Nat
  | _, [] => none
  | depth, t :: rest =>
    if t.kind = opener then (closer? opener close (depth + 1) rest).map (· + 1)
    else if t.kind = close then
      if depth ≤ 1 then some 0 else (closer? opener close (depth - 1) rest).map (· + 1)
    else (closer? opener close depth rest).map (· + 1)

/-- The positions from the opener here up to and not with the one behind its balancing closer. -/
def enclosed (opener close : TokenKind) (c : Cursor) : Except Error (Nat × Nat) :=
  if c.current.kind ≠ opener then .error (c.unexpected (Fault.mention opener.describe))
  else
    match closer? opener close 1 c.coming with
    | some distance => .ok (c.position, c.position + distance + 2)
    | none =>
      let here := c.current.span
      .error (.inSpan (.unclosed close opener here.line here.col) c.final.span)

@[simp] theorem tokens_next (c : Cursor) : c.next.tokens = c.tokens := by
  simp only [next]
  split <;> simp_all [tokens]

@[simp] theorem tokens_previous (c : Cursor) : c.previous.tokens = c.tokens := by
  simp only [previous]
  split <;> simp_all [tokens]

theorem position_lt_size (c : Cursor) : c.position < c.size := by
  simp only [position, size, tokens, List.length_append, List.length_reverse, List.length_cons]
  omega

theorem getElem?_position (c : Cursor) : c.tokens[c.position]? = some c.current := by
  simp [tokens, position]

theorem position_next (c : Cursor) : c.next.position = min (c.position + 1) (c.size - 1) := by
  unfold next
  split <;> simp_all [position, size, tokens]

theorem position_previous (c : Cursor) : c.previous.position = c.position - 1 := by
  unfold previous
  split <;> simp_all [position]

end Cursor

end ExprLang
