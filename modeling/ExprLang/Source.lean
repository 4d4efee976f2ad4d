/-!
# Places in a source

Byte offsets, lines and columns. Lines and columns count from one; a column is the number of
characters since the last line feed, whatever their width.
-/

namespace ExprLang

/-- A place between two characters of a source. -/
structure Mark where
  offset : Nat
  line : Nat
  col : Nat
  deriving DecidableEq, Repr

namespace Mark

/-- The place before the first character. -/
def start : Mark := ⟨0, 1, 1⟩

/-- The place after one more character. -/
def step (m : Mark) (c : Char) : Mark :=
  if c = '\n' then ⟨m.offset + c.utf8Size, m.line + 1, 1⟩
  else ⟨m.offset + c.utf8Size, m.line, m.col + 1⟩

/-- The place after the characters. -/
def advance (m : Mark) (cs : List Char) : Mark :=
  cs.foldl step m

@[simp] theorem advance_nil (m : Mark) : m.advance [] = m := rfl

@[simp] theorem advance_cons (m : Mark) (c : Char) (cs : List Char) :
    m.advance (c :: cs) = (m.step c).advance cs := rfl

theorem advance_append (m : Mark) (cs ds : List Char) :
    m.advance (cs ++ ds) = (m.advance cs).advance ds := by
  simp [advance]

end Mark

/-- The part of a source from byte `start` up to byte `stop`, with the line and column of its
first character. -/
structure Span where
  start : Nat
  stop : Nat
  line : Nat
  col : Nat
  deriving DecidableEq, Repr

/-- The span between two marks. -/
def Span.between (first last : Mark) : Span :=
  ⟨first.offset, last.offset, first.line, first.col⟩

/-- The empty span of no source at all. -/
def Span.none : Span := ⟨0, 0, 0, 0⟩

/-- A piece of a source that has not been given a kind yet. -/
structure Fragment where
  text : String
  span : Span
  deriving DecidableEq, Repr

end ExprLang
