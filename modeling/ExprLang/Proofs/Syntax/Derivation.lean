import ExprLang.Grammar.Core
import ExprLang.Proofs.Syntax.OperatorTree

/-!
# Derivations

The grammar of expressions over the operator tables of a grammar, as rules that relate tokens to
what they stand for.  The rules know nothing of cursors, of choices between alternatives or of
limits; only kinds and texts of tokens matter to them.

```text
expression := binary [ '?' expression ':' expression ]
binary     := unary operations, nested by precedence and associativity
operations := { OPERATOR unary }
unary      := OPERATOR unary | primary [ OPERATOR ]
primary    := NUMBER | STRING | 'true' | 'false' | 'null' | '(' expression ')' | '[' ']'
            | '[' arguments ']' | NAME steps | NAME { '.' WORD } '(' [ arguments ] ')'
steps      := { '.' WORD | '[' expression ']' }
arguments  := expression { ',' expression }
parameter  := NAME [ ':' expression ]
parameters := parameter { ',' parameter }
```
-/

namespace ExprLang

/-- The parts of an expression that have rules of their own. -/
inductive Part where
  | expression | binary | operations | unary | primary | steps | arguments | parameter | parameters
  deriving DecidableEq, Repr

/-- What the tokens of a part stand for. -/
@[reducible]
def Part.Meaning : Part → Type
  | expression | binary | unary | primary => Node
  | operations => List (BinaryOperator × Node)
  | steps => List Segment
  | arguments => List Node
  | parameter => Parameter
  | parameters => List Parameter

/-- A name with steps behind it, or the name alone. -/
def Node.reference (root : String) : List Segment → Node
  | [] => .name root none
  | first :: rest => .path (.property root :: first :: rest)

namespace Grammar

/-- The binary operator that a kind of token spells. -/
def binary? (g : Grammar) (kind : TokenKind) : Option BinaryOperator :=
  g.binary.find? fun op => op.token = kind

/-- The operator in front of an operand that a kind of token spells. -/
def before? (g : Grammar) (kind : TokenKind) : Option UnaryOperator :=
  g.before.find? fun op => op.token = kind

/-- The operator behind an operand that a kind of token spells. -/
def after? (g : Grammar) (kind : TokenKind) : Option UnaryOperator :=
  g.after.find? fun op => op.token = kind

@[simp]
theorem rules_parse (g : Grammar) (parse : Construct → Parse Node) :
    (g.rules parse).parse = parse := rfl

@[simp]
theorem rules_binary? (g : Grammar) (parse : Construct → Parse Node) :
    (g.rules parse).binary? = g.binary? := rfl

@[simp]
theorem rules_before? (g : Grammar) (parse : Construct → Parse Node) :
    (g.rules parse).before? = g.before? := rfl

@[simp]
theorem rules_after? (g : Grammar) (parse : Construct → Parse Node) :
    (g.rules parse).after? = g.after? := rfl

/-- The tokens are a part with this meaning. -/
inductive Derives (g : Grammar) : (part : Part) → List Token → part.Meaning → Prop
  | plain {ts n} (body : Derives g .binary ts n) : Derives g .expression ts n
  | choice {cs ps ns : List Token} {question colon : Token} {condition positive negative}
      (hcondition : Derives g .binary cs condition)
      (hquestion : question.kind = BasicKind.question)
      (hpositive : Derives g .expression ps positive)
      (hcolon : colon.kind = BasicKind.colon)
      (hnegative : Derives g .expression ns negative) :
      Derives g .expression (cs ++ question :: (ps ++ colon :: ns))
        (Node.ternary condition positive negative)
  | nested {us os : List Token} {u rest} (t : OperatorTree)
      (hfirst : Derives g .unary us u) (hrest : Derives g .operations os rest)
      (hoperands : t.operands = u :: rest.map Prod.snd)
      (hoperators : t.operators = rest.map Prod.fst) (hnested : t.Nested) :
      Derives g .binary (us ++ os) t.node
  | noOperation : Derives g .operations [] []
  | operation {t : Token} {us os : List Token} {op u rest} (hop : g.binary? t.kind = some op)
      (hoperand : Derives g .unary us u) (hrest : Derives g .operations os rest) :
      Derives g .operations (t :: (us ++ os)) ((op, u) :: rest)
  | before {t : Token} {us : List Token} {op u} (hop : g.before? t.kind = some op)
      (hoperand : Derives g .unary us u) :
      Derives g .unary (t :: us) (Node.unary op.operation .before u)
  | bare {ts n} (body : Derives g .primary ts n) : Derives g .unary ts n
  | after {t : Token} {ts : List Token} {op n} (hoperand : Derives g .primary ts n)
      (hop : g.after? t.kind = some op) :
      Derives g .unary (ts ++ [t]) (Node.unary op.operation .after n)
  | number {t : Token} {value} (hkind : t.kind = BasicKind.number)
      (hvalue : Literal.ofNumber? t.text.toList = some value) :
      Derives g .primary [t] (Node.literal value)
  | string {t : Token} {value} (hkind : t.kind = BasicKind.string)
      (hvalue : Literal.ofQuoted t.text.toList = .ok value) :
      Derives g .primary [t] (Node.literal value)
  | trueWord {t : Token} (hkind : t.kind = BasicKind.trueWord) :
      Derives g .primary [t] (Node.literal (.bool true))
  | falseWord {t : Token} (hkind : t.kind = BasicKind.falseWord) :
      Derives g .primary [t] (Node.literal (.bool false))
  | nullWord {t : Token} (hkind : t.kind = BasicKind.nullWord) :
      Derives g .primary [t] (Node.literal .null)
  | group {opener close : Token} {ts : List Token} {n}
      (hopener : opener.kind = BasicKind.lparen) (hinner : Derives g .expression ts n)
      (hclose : close.kind = BasicKind.rparen) :
      Derives g .primary (opener :: (ts ++ [close])) n
  | emptyList {opener close : Token} (hopener : opener.kind = BasicKind.lbracket)
      (hclose : close.kind = BasicKind.rbracket) :
      Derives g .primary [opener, close] (Node.arguments [])
  | list {opener close : Token} {ts : List Token} {items}
      (hopener : opener.kind = BasicKind.lbracket) (hitems : Derives g .arguments ts items)
      (hclose : close.kind = BasicKind.rbracket) :
      Derives g .primary (opener :: (ts ++ [close])) (Node.arguments items)
  | reference {root : Token} {ts : List Token} {steps}
      (hroot : root.kind = BasicKind.identifier) (hsteps : Derives g .steps ts steps) :
      Derives g .primary (root :: ts) (Node.reference root.text steps)
  | emptyCall {root opener close : Token} {ts : List Token} {names : List String}
      (hroot : root.kind = BasicKind.identifier)
      (hnames : Derives g .steps ts (names.map Segment.property))
      (hopener : opener.kind = BasicKind.lparen) (hclose : close.kind = BasicKind.rparen) :
      Derives g .primary (root :: (ts ++ [opener, close]))
        (Node.call (".".intercalate (root.text :: names)) [])
  | call {root opener close : Token} {ts us : List Token} {names : List String} {arguments}
      (hroot : root.kind = BasicKind.identifier)
      (hnames : Derives g .steps ts (names.map Segment.property))
      (hopener : opener.kind = BasicKind.lparen)
      (harguments : Derives g .arguments us arguments)
      (hclose : close.kind = BasicKind.rparen) :
      Derives g .primary (root :: (ts ++ opener :: (us ++ [close])))
        (Node.call (".".intercalate (root.text :: names)) arguments)
  | noStep : Derives g .steps [] []
  | property {dot word : Token} {ts : List Token} {steps} (hdot : dot.kind = BasicKind.dot)
      (hword : Text.isWord word.text = true) (hsteps : Derives g .steps ts steps) :
      Derives g .steps (dot :: word :: ts) (Segment.property word.text :: steps)
  | index {opener close : Token} {is ts : List Token} {n steps}
      (hopener : opener.kind = BasicKind.lbracket) (hindex : Derives g .expression is n)
      (hclose : close.kind = BasicKind.rbracket) (hsteps : Derives g .steps ts steps) :
      Derives g .steps (opener :: (is ++ close :: ts)) (Segment.index n :: steps)
  | lastArgument {ts n} (body : Derives g .expression ts n) : Derives g .arguments ts [n]
  | argument {comma : Token} {ts us : List Token} {n rest} (hfirst : Derives g .expression ts n)
      (hcomma : comma.kind = BasicKind.comma) (hrest : Derives g .arguments us rest) :
      Derives g .arguments (ts ++ comma :: us) (n :: rest)
  | required {name : Token} (hname : name.kind = BasicKind.identifier) :
      Derives g .parameter [name] (Parameter.mk name.text none)
  | optional {name colon : Token} {ts : List Token} {n} (hname : name.kind = BasicKind.identifier)
      (hcolon : colon.kind = BasicKind.colon) (hdefault : Derives g .expression ts n) :
      Derives g .parameter (name :: colon :: ts) (Parameter.mk name.text (some n))
  | lastParameter {ts p} (body : Derives g .parameter ts p) : Derives g .parameters ts [p]
  | moreParameters {comma : Token} {ts us : List Token} {p rest}
      (hfirst : Derives g .parameter ts p) (hcomma : comma.kind = BasicKind.comma)
      (hrest : Derives g .parameters us rest) :
      Derives g .parameters (ts ++ comma :: us) (p :: rest)

end Grammar

end ExprLang
