import ExprLang.Proofs.Syntax.Balance
import ExprLang.Proofs.Syntax.CoreTokens
import ExprLang.Proofs.Syntax.Derivation

/-!
# Words of a tree

A tree that was written out is read back from its words, from the left to the right and with one
word ahead.  Wherever a tree is written with parentheses, they are read; and behind an operand any
number of operators are read, although the parser takes no more than one.  At every place, the next
word decides how the reading goes on, so it has one outcome only (`Grammar.Reads.unique`).
-/

namespace ExprLang

open Lexer

namespace Grammar

variable {g : Grammar}

/-- The kind of the word in front. -/
def leading : List String → TokenKind
  | [] => BasicKind.eof
  | w :: _ => coreKind w

@[simp]
theorem leading_cons (w : String) (ws : List String) : leading (w :: ws) = coreKind w := rfl

/-- What a word alone stands for. -/
def literal? (w : String) : Option Literal :=
  match coreKind w with
  | .basic .number => Literal.ofNumber? w.toList
  | .basic .string => (Literal.ofQuoted w.toList).toOption
  | .basic .trueWord => some (.bool true)
  | .basic .falseWord => some (.bool false)
  | .basic .nullWord => some .null
  | _ => none

/-- The node together with the operators behind it, and the words behind them. -/
def behind (g : Grammar) (n : Node) : List String → Node × List String
  | [] => (n, [])
  | w :: ws =>
    match g.after? (coreKind w) with
    | some op => behind g (.unary op.operation .after n) ws
    | none => (n, w :: ws)

/-- From the words, a part with this meaning is read, and then the other words are left.  Only unary
and primary expressions, steps and arguments are read: all other expressions have parentheses. -/
inductive Reads (g : Grammar) : (part : Part) → List String → part.Meaning → List String → Prop
  | before {w : String} {ws rest op n} (hop : g.before? (coreKind w) = some op)
      (hoperand : Reads g .unary ws n rest) :
      Reads g .unary (w :: ws) (Node.unary op.operation .before n) rest
  | bare {ws rest n} (body : Reads g .primary ws n rest) :
      Reads g .unary ws (g.behind n rest).1 (g.behind n rest).2
  | literal {w : String} {rest value} (hvalue : literal? w = some value) :
      Reads g .primary (w :: rest) (Node.literal value) rest
  | binary {opener w close : String} {ws us rest op left right}
      (hopener : coreKind opener = BasicKind.lparen) (hleft : Reads g .unary ws left (w :: us))
      (hop : g.binary? (coreKind w) = some op) (hright : Reads g .unary us right (close :: rest))
      (hclose : coreKind close = BasicKind.rparen) :
      Reads g .primary (opener :: ws) (Node.binary op.operation left right) rest
  | choice {opener question colon close : String} {ws us vs rest condition positive negative}
      (hopener : coreKind opener = BasicKind.lparen)
      (hcondition : Reads g .unary ws condition (question :: us))
      (hquestion : coreKind question = BasicKind.question)
      (hpositive : Reads g .unary us positive (colon :: vs))
      (hcolon : coreKind colon = BasicKind.colon)
      (hnegative : Reads g .unary vs negative (close :: rest))
      (hclose : coreKind close = BasicKind.rparen) :
      Reads g .primary (opener :: ws) (Node.ternary condition positive negative) rest
  | group {opener close : String} {ws rest n} (hopener : coreKind opener = BasicKind.lparen)
      (hinner : Reads g .unary ws n (close :: rest)) (hclose : coreKind close = BasicKind.rparen) :
      Reads g .primary (opener :: ws) n rest
  | list {opener close : String} {ws rest items} (hopener : coreKind opener = BasicKind.lbracket)
      (hitems : Reads g .arguments ws items (close :: rest))
      (hclose : coreKind close = BasicKind.rbracket) :
      Reads g .primary (opener :: ws) (Node.arguments items) rest
  | reference {root : String} {ws rest steps} (hroot : coreKind root = BasicKind.identifier)
      (hsteps : Reads g .steps ws steps rest) (hrest : leading rest ≠ BasicKind.lparen) :
      Reads g .primary (root :: ws) (Node.reference root steps) rest
  | call {root opener close : String} {ws us rest names arguments}
      (hroot : coreKind root = BasicKind.identifier)
      (hnames : Reads g .steps ws names (opener :: us))
      (hopener : coreKind opener = BasicKind.lparen)
      (harguments : Reads g .arguments us arguments (close :: rest))
      (hclose : coreKind close = BasicKind.rparen) :
      Reads g .primary (root :: ws) (Node.call (root ++ Segment.texts names) arguments) rest
  | noStep {rest} (hdot : leading rest ≠ BasicKind.dot)
      (hopener : leading rest ≠ BasicKind.lbracket) : Reads g .steps rest [] rest
  | property {dot word : String} {ws rest steps} (hdot : coreKind dot = BasicKind.dot)
      (hsteps : Reads g .steps ws steps rest) :
      Reads g .steps (dot :: word :: ws) (Segment.property word :: steps) rest
  | index {opener close : String} {ws us rest n steps}
      (hopener : coreKind opener = BasicKind.lbracket)
      (hindex : Reads g .unary ws n (close :: us)) (hclose : coreKind close = BasicKind.rbracket)
      (hsteps : Reads g .steps us steps rest) :
      Reads g .steps (opener :: ws) (Segment.index n :: steps) rest
  | noArgument {rest}
      (hclose : leading rest = BasicKind.rparen ∨ leading rest = BasicKind.rbracket) :
      Reads g .arguments rest [] rest
  | lastArgument {ws rest n} (body : Reads g .unary ws n rest)
      (hrest : leading rest ≠ BasicKind.comma) : Reads g .arguments ws [n] rest
  | argument {comma : String} {ws us rest n items} (hfirst : Reads g .unary ws n (comma :: us))
      (hcomma : coreKind comma = BasicKind.comma) (hrest : Reads g .arguments us items rest) :
      Reads g .arguments ws (n :: items) rest

namespace Reads

variable {ws rest : List String} {n : Node}

/-- A primary expression begins with a word alone, a name or a word that opens something. -/
theorem exists_kind (h : g.Reads .primary ws n rest) :
    ∃ kind ∈ [BasicKind.number, .string, .trueWord, .falseWord, .nullWord, .lparen, .lbracket,
      .identifier], leading ws = kind := by
  cases h with
  | literal hvalue =>
    unfold literal? at hvalue
    split at hvalue
    case h_6 => cases hvalue
    all_goals
      rename_i hkind
      exact ⟨_, by decide, hkind⟩
  | binary hopener | choice hopener | group hopener | list hopener =>
    exact ⟨_, by decide, hopener⟩
  | reference hroot | call hroot => exact ⟨_, by decide, hroot⟩

theorem before?_leading (hg : g.Distinct) (h : g.Reads .primary ws n rest) :
    g.before? (leading ws) = none := by
  obtain ⟨kind, hmem, hkind⟩ := h.exists_kind
  rw [hkind]
  apply hg.before?_fixed
  clear hkind h hg
  decide +revert

/-- No unary expression begins with a word that closes something. -/
theorem opens (hg : g.Distinct) (h : g.Reads .unary ws n rest) :
    leading ws ≠ BasicKind.rparen ∧ leading ws ≠ BasicKind.rbracket := by
  cases h with
  | before hop =>
    have hne := ne_fixed_of_some hg.before?_fixed hop
    exact ⟨hne .rparen (by decide), hne .rbracket (by decide)⟩
  | bare body =>
    obtain ⟨kind, hmem, hkind⟩ := body.exists_kind
    rw [hkind]
    clear hkind
    decide +revert

/-- From the same words, the same is read. -/
theorem unique (hg : g.Distinct) {part : Part} {ws : List String} {meaning : part.Meaning}
    {rest : List String} (h : g.Reads part ws meaning rest) {meaning' : part.Meaning}
    {rest' : List String} (h' : g.Reads part ws meaning' rest') :
    meaning = meaning' ∧ rest = rest' := by
  have hbetween {kind : TokenKind} {op : BinaryOperator} (hop : g.binary? kind = some op) :
      kind ≠ BasicKind.rparen ∧ kind ≠ BasicKind.question := by
    have hne := ne_fixed_of_some hg.binary?_fixed hop
    exact ⟨hne .rparen (by decide), hne .question (by decide)⟩
  -- Rules for words of different kinds exclude each other.  Where two rules begin with the same
  -- bracket or with a name, what they read first is the same, and the word behind it differs.
  induction h generalizing rest' with
  | before hop hoperand ih =>
    cases h' with
    | before => grind
    | bare body =>
      have hnone := body.before?_leading hg
      simp_all
  | bare body ih =>
    cases h' with
    | before =>
      have hnone := body.before?_leading hg
      simp_all
    | bare => grind
  | literal => cases h' <;> simp_all [literal?]
  | binary =>
    cases h' with
    | binary | choice | group => grind
    | _ => simp_all [literal?]
  | choice =>
    cases h' with
    | binary | choice | group => grind
    | _ => simp_all [literal?]
  | group =>
    cases h' with
    | binary | choice | group => grind
    | _ => simp_all [literal?]
  | list =>
    cases h' with
    | list => grind
    | _ => simp_all [literal?]
  | reference =>
    cases h' with
    | reference | call => grind [leading]
    | _ => simp_all [literal?]
  | call =>
    cases h' with
    | reference | call => grind [leading]
    | _ => simp_all [literal?]
  | noStep => cases h' <;> simp_all
  | property =>
    cases h' with
    | property => grind
    | _ => simp_all
  | index =>
    cases h' with
    | index => grind
    | _ => simp_all
  | noArgument hclose =>
    cases h' with
    | noArgument => exact ⟨rfl, rfl⟩
    | lastArgument body => exact absurd hclose (not_or.2 (body.opens hg))
    | argument hfirst => exact absurd hclose (not_or.2 (hfirst.opens hg))
  | lastArgument body =>
    cases h' with
    | noArgument hclose => exact absurd hclose (not_or.2 (body.opens hg))
    | lastArgument | argument => grind [leading]
  | argument hfirst =>
    cases h' with
    | noArgument hclose => exact absurd hclose (not_or.2 (hfirst.opens hg))
    | lastArgument | argument => grind [leading]

end Reads

end Grammar

end ExprLang
