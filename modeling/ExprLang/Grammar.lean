import ExprLang.Parse
/-!
# Grammars

A grammar has a parser for each construct and tables of operators. Parsers of constructs never call
each other: they ask the rules of the grammar, so that each of them can be replaced on its own.
-/

namespace ExprLang

inductive Associativity where
  | left
  | right
  deriving DecidableEq, Repr

/-- A binary operator: the kind of token that spells it, what it computes and how tightly it
binds. -/
structure BinaryOperator where
  token : TokenKind
  operation : Operation
  precedence : UInt8
  associativity : Associativity
  deriving DecidableEq, Repr

/-- The least precedence of an operator inside the right operand. It is wider than precedences, so
that there is one above the highest precedence. -/
def BinaryOperator.rightLeast (op : BinaryOperator) : UInt16 :=
  match op.associativity with
  | .left => op.precedence.toUInt16 + 1
  | .right => op.precedence.toUInt16

/-- A unary operator, before or after its operand. -/
structure UnaryOperator where
  token : TokenKind
  operation : Operation
  deriving DecidableEq, Repr

/-- What the parser of a construct can ask for. -/
structure Rules where
  parse : Construct → Parse Node
  binary? : TokenKind → Option BinaryOperator
  before? : TokenKind → Option UnaryOperator
  after? : TokenKind → Option UnaryOperator

abbrev ConstructParser := Rules → Parse Node

structure Grammar where
  parsers : List (Construct × ConstructParser)
  binary : List BinaryOperator
  before : List UnaryOperator
  after : List UnaryOperator

namespace Grammar

def empty : Grammar :=
  ⟨[], [], [], []⟩

/-- The parser of a construct. Each construct has at most one. -/
def parser? (g : Grammar) (construct : Construct) : Option ConstructParser :=
  (g.parsers.find? fun entry => entry.1 = construct).map Prod.snd

/-- Sets the parser of a construct in place of an earlier one. -/
def setParser (g : Grammar) (construct : Construct) (parser : ConstructParser) : Grammar :=
  { g with parsers := (construct, parser) :: g.parsers.filter fun entry => entry.1 ≠ construct }

def addBinary (g : Grammar) (op : BinaryOperator) : Grammar :=
  { g with binary := g.binary ++ [op] }

def addBefore (g : Grammar) (op : UnaryOperator) : Grammar :=
  { g with before := g.before ++ [op] }

def addAfter (g : Grammar) (op : UnaryOperator) : Grammar :=
  { g with after := g.after ++ [op] }

/-- The rules of the grammar over a way to parse constructs. The first operator of a table that is
spelled by a token counts. -/
def rules (g : Grammar) (parse : Construct → Parse Node) : Rules where
  parse := parse
  binary? kind := g.binary.find? fun op => op.token = kind
  before? kind := g.before.find? fun op => op.token = kind
  after? kind := g.after.find? fun op => op.token = kind

/-- Parses a construct with at most `depth` constructs inside one another. -/
def parseWithin (g : Grammar) : Nat → Construct → Parse Node
  | 0, _ => Parse.failHere .nestedTooDeep
  | depth + 1, construct =>
    match g.parser? construct with
    | some parser => parser (g.rules (g.parseWithin depth))
    | none => Parse.failHere (.noParser construct)

/-- Parses a construct. The parsers of the core grammar ask for a construct at a later token, or at
the same token for one that has not been asked for there; so the tokens to come bound the depth.
Parsers of hosts that ask otherwise may need more of it (`parseWithin`). -/
def parse (g : Grammar) (construct : Construct) : Parse Node := do
  g.parseWithin (((← Parse.remaining) + 1) * (g.parsers.length + 1)) construct

/-- Parses a construct that has to reach the end of the input. -/
def parseAll (g : Grammar) (construct : Construct) : Parse Node :=
  (g.parse construct).toEnd

/-- The names of the constructs that have a parser, in ascending order. -/
def constructNames (g : Grammar) : List String :=
  (g.parsers.map fun entry => entry.1.name).mergeSort

/-- The grammar as listings show it. -/
def inspect (g : Grammar) : String :=
  "ParserRegistry \x7b constructs: [" ++
    ", ".intercalate (g.constructNames.map Text.quoted) ++
    "], binary: " ++ g.binary.length.repr ++ ", prefix: " ++ g.before.length.repr ++
    ", postfix: " ++ g.after.length.repr ++ " \x7d"

end Grammar

end ExprLang
