import ExprLang.Proofs.Syntax.Balance
import ExprLang.Proofs.Syntax.Precedence

/-!
# Completeness of parsing

What is derivable is parsed.  A part of an expression may be followed by tokens that the parser
would take as well, and then it would go on; so each part is parsed up to a token that ends it.  The
tokens behind a part inside a derivation end it (`Derives.completes`), because operators are spelled
by tokens of their own.
-/

namespace ExprLang

open Parse Cursor ConstructParser

namespace Grammar

/-- A token of this kind does not continue a primary expression. -/
structure EndsPrimary (kind : TokenKind) : Prop where
  ne_dot : kind ≠ BasicKind.dot
  ne_lbracket : kind ≠ BasicKind.lbracket
  ne_lparen : kind ≠ BasicKind.lparen

/-- A token of this kind does not continue a unary expression. -/
structure EndsUnary (g : Grammar) (kind : TokenKind) : Prop extends EndsPrimary kind where
  after?_eq : g.after? kind = none

/-- A token of this kind does not continue a binary expression. -/
structure EndsBinary (g : Grammar) (kind : TokenKind) : Prop extends EndsUnary g kind where
  binary?_eq : g.binary? kind = none

/-- A token of this kind does not continue an expression. -/
structure EndsExpression (g : Grammar) (kind : TokenKind) : Prop extends EndsBinary g kind where
  ne_question : kind ≠ BasicKind.question

/-- The part is parsed from everywhere where its tokens stand in front of a token that ends it.
Steps are followed by nothing in particular, because a call may stand behind them. -/
def Completes (g : Grammar) : (part : Part) → List Token → part.Meaning → Prop
  | .expression, ts, n => ∀ c c' : Cursor, c.Closed → c.Walk ts c' → g.EndsExpression c'.current.kind →
      (g.parse .expression).Gives c n c'
  | .binary, ts, n => ∀ c c' : Cursor, c.Closed → c.Walk ts c' → g.EndsBinary c'.current.kind →
      (g.parse .binary).Gives c n c'
  | .operations, ts, rest => ∀ c c' : Cursor, c.Closed → c.Walk ts c' → g.EndsBinary c'.current.kind →
      (g.rules g.parse).Reads c rest c' ∧ g.EndsUnary c.current.kind
  | .unary, ts, n => ∀ c c' : Cursor, c.Closed → c.Walk ts c' → g.EndsUnary c'.current.kind →
      (g.parse .unary).Gives c n c'
  | .primary, ts, n => ∀ c c' : Cursor, c.Closed → c.Walk ts c' → EndsPrimary c'.current.kind →
      (g.parse .primary).Gives c n c' ∧ g.before? c.current.kind = none
  | .steps, ts, steps => steps.length ≤ ts.length ∧ ∀ c c' : Cursor, c.Closed → c.Walk ts c' →
      ∀ rounds passed, (segmentsWithin (g.rules g.parse) (steps.length + rounds) passed).start c =
        (segmentsWithin (g.rules g.parse) rounds (passed ++ steps)).start c'
  | .arguments, ts, items => items.length ≤ ts.length + 1 ∧ ∀ c c' : Cursor, c.Closed → c.Walk ts c' →
      g.EndsExpression c'.current.kind → c'.current.kind ≠ BasicKind.comma →
      ∀ rounds, items.length ≤ rounds →
        (itemsWithin BasicKind.comma (g.parse .expression) rounds).Gives c items c'
  | .parameter, ts, p => ∀ c c' : Cursor, c.Closed → c.Walk ts c' → g.EndsExpression c'.current.kind →
      c'.current.kind ≠ BasicKind.colon →
      c.current.kind = BasicKind.identifier ∧ c.current.text = p.name ∧
        ((p.default = none ∧ c' = c.next) ∨ ∃ n, p.default = some n ∧
          c.next.current.kind = BasicKind.colon ∧ (g.parse .expression).Gives c.next.next n c')
  | .parameters, ts, params => params.length ≤ ts.length + 1 ∧ ∀ c c' : Cursor, c.Closed → c.Walk ts c' →
      g.EndsExpression c'.current.kind → c'.current.kind ≠ BasicKind.colon →
      c'.current.kind ≠ BasicKind.comma → ∀ rounds taken, params.length ≤ rounds →
        (params.map Parameter.name).Nodup → (∀ p ∈ params, p.name ∉ taken) →
        (parametersWithin (g.rules g.parse) rounds taken).Gives c params c'

variable {g : Grammar}

namespace Distinct

/-- Tokens that are no operators end an expression, apart from those that continue it. -/
theorem endsBinary (hg : g.Distinct) {kind : BasicKind} (hfixed : kind ∈ fixedKinds)
    (hends : EndsPrimary kind) : g.EndsBinary kind :=
  ⟨⟨hends, hg.after?_fixed kind hfixed⟩, hg.binary?_fixed kind hfixed⟩

theorem endsExpression (hg : g.Distinct) {kind : BasicKind} (hfixed : kind ∈ fixedKinds)
    (hends : EndsPrimary kind) (hquestion : kind ≠ .question) : g.EndsExpression kind :=
  ⟨hg.endsBinary hfixed hends, by simpa using hquestion⟩

/-- An operator between operands ends the operand in front of it. -/
theorem endsUnary (hg : g.Distinct) {kind : TokenKind} {op : BinaryOperator}
    (hop : g.binary? kind = some op) : g.EndsUnary kind := by
  have hne := ne_fixed_of_some hg.binary?_fixed hop
  exact ⟨⟨hne _ (by decide), hne _ (by decide), hne _ (by decide)⟩, hg.after?_binary kind op hop⟩

/-- An operator behind an operand ends the operand. -/
theorem endsPrimary_of_after (hg : g.Distinct) {kind : TokenKind} {op : UnaryOperator}
    (hop : g.after? kind = some op) : EndsPrimary kind := by
  have hne := ne_fixed_of_some hg.after?_fixed hop
  exact ⟨hne _ (by decide), hne _ (by decide), hne _ (by decide)⟩

theorem ne_eof_of_mem (hg : g.Distinct) {op : BinaryOperator} (hop : op ∈ g.binary) :
    op.token ≠ BasicKind.eof := by
  intro heof
  have hnone := List.find?_eq_none.1 (hg.binary?_fixed .eof (by decide)) op hop
  exact hnone (by simpa using heof)

end Distinct

variable {ts : List Token} {c c' : Cursor}

theorem Opens.ne_of_walk (h : Opens ts) (hwalk : c.Walk ts c') :
    c.current.kind ≠ BasicKind.rparen ∧ c.current.kind ≠ BasicKind.rbracket := by
  obtain ⟨t, rest, rfl, hkind⟩ := h
  rwa [hwalk.1]

/-- Tokens that can be walked over without an end token among them are as many as come less. -/
theorem coming_add_length_le (hc : c.Closed) (hts : c.Walk ts c') (hbalanced : Balanced ts) :
    c'.coming.length + ts.length ≤ c.coming.length := by
  have hle := hc.coming_add_weight_le hts
  have hweight : weight ts = ts.length := by
    unfold weight
    rw [List.countP_eq_length]
    intro t ht
    simpa [Token.isEof] using hbalanced.kind_ne_eof t ht
  omega

namespace Completes

variable {us ps ns os : List Token}

theorem plain (hkeeps : g.KeepsCore) {n : Node} (hbody : g.Completes .binary ts n) :
    g.Completes .expression ts n := by
  intro c c' hc hwalk hends
  have hbinary := hbody c c' hc hwalk hends.toEndsBinary
  rw [hkeeps.gives_parse rfl hc]
  apply (hkeeps.gives_parse rfl hc).2
  rw [Gives, ternary, rules_parse, hbinary.start_bind, start_accepts_bind_of_ne hends.ne_question]
  rfl

theorem choice (hkeeps : g.KeepsCore) (hg : g.Distinct) {question colon : Token}
    {condition positive negative : Node} (hcondition : g.Completes .binary ts condition)
    (hquestion : question.kind = BasicKind.question) (hpositive : g.Completes .expression ps positive)
    (hcolon : colon.kind = BasicKind.colon) (hnegative : g.Completes .expression ns negative) :
    g.Completes .expression (ts ++ question :: (ps ++ colon :: ns))
      (Node.ternary condition positive negative) := by
  intro c c' hc hwalk hends
  simp only [walk_append, walk_cons] at hwalk
  obtain ⟨c₁, hwalk₁, rfl, c₂, hwalk₂, rfl, hwalk₃⟩ := hwalk
  have hc₁ := hc.walk hwalk₁
  have hc₂ := hc₁.next.walk hwalk₂
  have hcondition := hcondition c c₁ hc hwalk₁ (by
    rw [hquestion]
    exact hg.endsBinary (by decide) ⟨by decide, by decide, by decide⟩)
  have hpositive := hpositive _ c₂ hc₁.next hwalk₂ (by
    rw [hcolon]
    exact hg.endsExpression (by decide) ⟨by decide, by decide, by decide⟩ (by decide))
  have hnegative := hnegative _ c' hc₂.next hwalk₃ hends
  rw [hkeeps.gives_parse rfl hc]
  apply (hkeeps.gives_parse rfl hc).2
  rw [Gives, ternary, rules_parse, hcondition.start_bind, start_accepts_bind_of_eq hquestion]
  simp only [↓reduceIte]
  rw [hpositive.start_bind, start_ensure_bind hcolon, hnegative.start_bind]
  rfl

theorem nested (hkeeps : g.KeepsCore) (hg : g.Distinct) {u : Node}
    {rest : List (BinaryOperator × Node)} (t : OperatorTree) (hfirst : g.Completes .unary us u)
    (hrest : g.Completes .operations os rest) (hoperands : t.operands = u :: rest.map Prod.snd)
    (hoperators : t.operators = rest.map Prod.fst) (hnested : t.Nested) :
    g.Completes .binary (us ++ os) t.node := by
  intro c c' hc hwalk hends
  obtain ⟨c₁, hwalk₁, hwalk₂⟩ := walk_append.1 hwalk
  obtain ⟨hreads, hends₁⟩ := hrest c₁ c' (hc.walk hwalk₁) hwalk₂ hends
  have hunary := hfirst c c₁ hc hwalk₁ hends₁
  obtain ⟨t', ht', hoperands', hoperators', hnested', -⟩ :=
    hkeeps.parse_binary (fun op hop => hg.ne_eof_of_mem hop) hc hunary hreads hends.binary?_eq
  rwa [OperatorTree.eq_of_nested (hoperands.trans hoperands'.symm)
    (hoperators.trans hoperators'.symm) hnested hnested']

theorem noOperation : g.Completes .operations [] [] := by
  intro c c' hc hwalk hends
  obtain rfl := (walk_nil c c').1 hwalk
  exact ⟨rfl, hends.toEndsUnary⟩

theorem operation (hg : g.Distinct) {t : Token} {op : BinaryOperator} {u : Node}
    {rest : List (BinaryOperator × Node)} (hop : g.binary? t.kind = some op)
    (hoperand : g.Completes .unary us u) (hrest : g.Completes .operations os rest) :
    g.Completes .operations (t :: (us ++ os)) ((op, u) :: rest) := by
  intro c c' hc hwalk hends
  obtain ⟨rfl, hwalk⟩ := hwalk
  obtain ⟨c₁, hwalk₁, hwalk₂⟩ := walk_append.1 hwalk
  obtain ⟨hreads, hends₁⟩ := hrest c₁ c' (hc.next.walk hwalk₁) hwalk₂ hends
  have hunary := hoperand _ c₁ hc.next hwalk₁ hends₁
  exact ⟨⟨hop, c₁, hunary, hreads⟩, hg.endsUnary hop⟩

theorem before (hkeeps : g.KeepsCore) {t : Token} {op : UnaryOperator} {u : Node}
    (hop : g.before? t.kind = some op) (hoperand : g.Completes .unary us u) :
    g.Completes .unary (t :: us) (Node.unary op.operation .before u) := by
  intro c c' hc hwalk hends
  obtain ⟨rfl, hwalk⟩ := hwalk
  have hunary := hoperand _ c' hc.next hwalk hends
  rw [hkeeps.gives_parse rfl hc, Gives, unary, start_current_bind]
  simp only [rules_before?, hop]
  rw [start_consume_bind, rules_parse, hunary.start_bind]
  rfl

theorem bare (hkeeps : g.KeepsCore) {n : Node} (hbody : g.Completes .primary ts n) :
    g.Completes .unary ts n := by
  intro c c' hc hwalk hends
  obtain ⟨hprimary, hbefore⟩ := hbody c c' hc hwalk hends.toEndsPrimary
  rw [hkeeps.gives_parse rfl hc, Gives, unary, start_current_bind]
  simp only [rules_before?, hbefore, rules_after?]
  rw [rules_parse, hprimary.start_bind, start_current_bind, hends.after?_eq]
  rfl

theorem after (hkeeps : g.KeepsCore) (hg : g.Distinct) {t : Token} {op : UnaryOperator} {n : Node}
    (hoperand : g.Completes .primary ts n) (hop : g.after? t.kind = some op) :
    g.Completes .unary (ts ++ [t]) (Node.unary op.operation .after n) := by
  intro c c' hc hwalk hends
  obtain ⟨c₁, hwalk₁, rfl, rfl⟩ := walk_append.1 hwalk
  obtain ⟨hprimary, hbefore⟩ := hoperand c c₁ hc hwalk₁ (hg.endsPrimary_of_after hop)
  rw [hkeeps.gives_parse rfl hc, Gives, unary, start_current_bind]
  simp only [rules_before?, hbefore, rules_after?]
  rw [rules_parse, hprimary.start_bind, start_current_bind, hop]
  rfl

/-- A primary expression that is a token of its own. -/
theorem token (hkeeps : g.KeepsCore) (hg : g.Distinct) {t : Token} {kind : BasicKind} {n : Node}
    (hkind : t.kind = kind) (hfixed : kind ∈ fixedKinds)
    (hparse : ∀ c : Cursor, c.current = t → (primary (g.rules g.parse)).Gives c n c.next) :
    g.Completes .primary [t] n := by
  intro c c' hc hwalk hends
  obtain ⟨hhere, rfl⟩ := hwalk
  refine ⟨(hkeeps.gives_parse rfl hc).2 (hparse c hhere), ?_⟩
  rw [hhere, hkind]
  exact hg.before?_fixed kind hfixed

theorem number (hkeeps : g.KeepsCore) (hg : g.Distinct) {t : Token} {value : Literal}
    (hkind : t.kind = BasicKind.number) (hvalue : Literal.ofNumber? t.text.toList = some value) :
    g.Completes .primary [t] (Node.literal value) := by
  refine token hkeeps hg hkind (by decide) fun c hhere => ?_
  rw [Gives, primary, start_current_bind, hhere, hkind]
  simp only
  rw [start_consume_bind, hhere, hvalue]
  rfl

theorem string (hkeeps : g.KeepsCore) (hg : g.Distinct) {t : Token} {value : Literal}
    (hkind : t.kind = BasicKind.string) (hvalue : Literal.ofQuoted t.text.toList = .ok value) :
    g.Completes .primary [t] (Node.literal value) := by
  refine token hkeeps hg hkind (by decide) fun c hhere => ?_
  rw [Gives, primary, start_current_bind, hhere, hkind]
  simp only
  rw [start_consume_bind, hhere, hvalue]
  rfl

/-- A keyword that is a literal. -/
theorem word (hkeeps : g.KeepsCore) (hg : g.Distinct) {t : Token} {kind : BasicKind} {n : Node}
    (hkind : t.kind = kind) (hword : (kind, n) ∈ [(BasicKind.trueWord, Node.literal (.bool true)),
      (.falseWord, .literal (.bool false)), (.nullWord, .literal .null)]) :
    g.Completes .primary [t] n := by
  simp only [List.mem_cons, Prod.mk.injEq, List.not_mem_nil, or_false] at hword
  rcases hword with ⟨rfl, rfl⟩ | ⟨rfl, rfl⟩ | ⟨rfl, rfl⟩
  all_goals
    refine token hkeeps hg hkind (by decide) fun c hhere => ?_
    rw [Gives, primary, start_current_bind, hhere, hkind]
    rfl

/-- The search for the closing parenthesis succeeds, because the tokens inside are balanced. -/
theorem group (hkeeps : g.KeepsCore) (hg : g.Distinct) {opener close : Token} {n : Node}
    (hopener : opener.kind = BasicKind.lparen) (hinner : g.Completes .expression ts n)
    (hts : Balanced ts) (hclose : close.kind = BasicKind.rparen) :
    g.Completes .primary (opener :: (ts ++ [close])) n := by
  intro c c' hc hwalk hends
  have hahead := ((hc.walk_iff (Balanced.group hopener hts hclose).kind_ne_eof).1 hwalk).1
  rw [List.cons_append, List.append_assoc] at hahead
  have henclosed := enclosed_of_balanced hahead hopener hts hclose
  simp only [walk_append, walk_cons, walk_nil] at hwalk
  obtain ⟨rfl, c₁, hwalk₁, rfl, rfl⟩ := hwalk
  have hexpression := hinner _ c₁ hc.next hwalk₁ (by
    rw [hclose]
    exact hg.endsExpression (by decide) ⟨by decide, by decide, by decide⟩ (by decide))
  constructor
  · rw [hkeeps.gives_parse rfl hc, Gives, primary, start_current_bind, hopener]
    simp only
    rw [Gives.start_bind (gives_ensureEnclosed.2 ⟨⟨_, henclosed⟩, rfl⟩ : Gives _ c () c), start_consume_bind, rules_parse,
      hexpression.start_bind, start_ensure_bind hclose]
    rfl
  · rw [hopener]
    exact hg.before?_fixed _ (by decide)

theorem emptyList (hkeeps : g.KeepsCore) (hg : g.Distinct) {opener close : Token}
    (hopener : opener.kind = BasicKind.lbracket) (hclose : close.kind = BasicKind.rbracket) :
    g.Completes .primary [opener, close] (Node.arguments []) := by
  intro c c' hc hwalk hends
  obtain ⟨rfl, rfl, rfl⟩ := hwalk
  constructor
  · rw [hkeeps.gives_parse rfl hc, Gives, primary, start_current_bind, hopener]
    simp only
    rw [start_consume_bind, start_accepts_bind_of_eq hclose]
    rfl
  · rw [hopener]
    exact hg.before?_fixed _ (by decide)

/-- The construct of arguments gives the items with their rounds. -/
theorem gives_arguments (hkeeps : g.KeepsCore) {items : List Node}
    (hitems : g.Completes .arguments ts items) (hts : Balanced ts) (hc : c.Closed)
    (hwalk : c.Walk ts c') (hends : g.EndsExpression c'.current.kind)
    (hcomma : c'.current.kind ≠ BasicKind.comma) :
    (g.parse .arguments).Gives c (Node.arguments items) c' := by
  have hlength := coming_add_length_le hc hwalk hts
  obtain ⟨hle, hcompletes⟩ := hitems
  have hitems := hcompletes c c' hc hwalk hends hcomma (c.coming.length + 1) (by omega)
  rw [hkeeps.gives_parse rfl hc, arguments, gives_bind]
  exact ⟨items, c', hitems, gives_pure.2 ⟨rfl, rfl⟩⟩

theorem list (hkeeps : g.KeepsCore) (hg : g.Distinct) {opener close : Token} {items : List Node}
    (hopener : opener.kind = BasicKind.lbracket) (hitems : g.Completes .arguments ts items)
    (hts : Balanced ts) (hopens : Opens ts) (hclose : close.kind = BasicKind.rbracket) :
    g.Completes .primary (opener :: (ts ++ [close])) (Node.arguments items) := by
  intro c c' hc hwalk hends
  simp only [walk_append, walk_cons, walk_nil] at hwalk
  obtain ⟨rfl, c₁, hwalk₁, rfl, rfl⟩ := hwalk
  have harguments := hitems.gives_arguments hkeeps hts hc.next hwalk₁ (by
    rw [hclose]
    exact hg.endsExpression (by decide) ⟨by decide, by decide, by decide⟩ (by decide)) (by
    rw [hclose]; decide)
  constructor
  · rw [hkeeps.gives_parse rfl hc, Gives, primary, start_current_bind, hopener]
    simp only
    rw [start_consume_bind, start_accepts_bind_of_ne (hopens.ne_of_walk hwalk₁).2]
    simp only [Bool.false_eq_true, ↓reduceIte]
    rw [rules_parse, harguments.start_bind, start_ensure_bind hclose]
    rfl
  · rw [hopener]
    exact hg.before?_fixed _ (by decide)

theorem noStep : g.Completes .steps [] [] := by
  refine ⟨le_rfl, fun c c' hc hwalk rounds passed => ?_⟩
  obtain rfl := (walk_nil c c').1 hwalk
  simp

theorem property {dot word : Token} {steps : List Segment} (hdot : dot.kind = BasicKind.dot)
    (hword : Text.isWord word.text = true) (hsteps : g.Completes .steps ts steps) :
    g.Completes .steps (dot :: word :: ts) (Segment.property word.text :: steps) := by
  obtain ⟨hle, hcompletes⟩ := hsteps
  refine ⟨by simp only [List.length_cons]; omega, fun c c' hc hwalk rounds passed => ?_⟩
  obtain ⟨rfl, rfl, hwalk⟩ := hwalk
  have hname : propertyName.Gives c.next c.next.current.text c.next.next := by
    rw [Gives, propertyName, start_current_bind, if_pos hword]
    rfl
  have hrest := hcompletes _ c' hc.next.next hwalk rounds
    (passed ++ [.property c.next.current.text])
  rw [List.length_cons, Nat.succ_add, segmentsWithin, start_accepts_bind_of_eq hdot]
  simp only [↓reduceIte]
  rw [hname.start_bind, hrest, List.append_assoc, List.singleton_append]

theorem index (hg : g.Distinct) {opener close : Token} {n : Node} {steps : List Segment}
    (hopener : opener.kind = BasicKind.lbracket) (hindex : g.Completes .expression us n)
    (hclose : close.kind = BasicKind.rbracket) (hsteps : g.Completes .steps ts steps) :
    g.Completes .steps (opener :: (us ++ close :: ts)) (Segment.index n :: steps) := by
  obtain ⟨hle, hcompletes⟩ := hsteps
  refine ⟨by simp only [List.length_cons, List.length_append]; omega,
    fun c c' hc hwalk rounds passed => ?_⟩
  simp only [walk_cons, walk_append] at hwalk
  obtain ⟨rfl, c₁, hwalk₁, rfl, hwalk₂⟩ := hwalk
  have hexpression := hindex _ c₁ hc.next hwalk₁ (by
    rw [hclose]
    exact hg.endsExpression (by decide) ⟨by decide, by decide, by decide⟩ (by decide))
  have hrest := hcompletes _ c' (hc.next.walk hwalk₁).next hwalk₂ rounds (passed ++ [.index n])
  rw [List.length_cons, Nat.succ_add, segmentsWithin,
    start_accepts_bind_of_ne (by rw [hopener]; decide)]
  simp only [Bool.false_eq_true, ↓reduceIte]
  rw [start_current_bind, if_pos hopener, start_consume_bind, rules_parse, hexpression.start_bind,
    start_ensure_bind hclose, hrest, List.append_assoc, List.singleton_append]

/-- There are rounds enough for the steps, and one more. -/
theorem start_segments {steps : List Segment} (hsteps : g.Completes .steps ts steps)
    (hts : Balanced ts) (hc : c.Closed) (hwalk : c.Walk ts c') (passed : List Segment) :
    ∃ rounds, (segmentsWithin (g.rules g.parse) (c.coming.length + 1) passed).start c =
      (segmentsWithin (g.rules g.parse) (rounds + 1) (passed ++ steps)).start c' := by
  have hlength := coming_add_length_le hc hwalk hts
  obtain ⟨hle, hcompletes⟩ := hsteps
  refine ⟨c.coming.length - steps.length, ?_⟩
  rw [← hcompletes c c' hc hwalk]
  congr 2
  omega

/-- A name with a path behind it is a primary expression. -/
theorem of_path (hkeeps : g.KeepsCore) (hg : g.Distinct) {n : Node} (hc : c.Closed)
    (hroot : c.current.kind = BasicKind.identifier) (hpath : (path (g.rules g.parse)).Gives c n c') :
    (g.parse .primary).Gives c n c' ∧ g.before? c.current.kind = none := by
  constructor
  · rw [hkeeps.gives_parse rfl hc, Gives, primary, start_current_bind, hroot]
    exact (hkeeps.gives_parse rfl hc).2 hpath
  · rw [hroot]
    exact hg.before?_fixed _ (by decide)

theorem reference (hkeeps : g.KeepsCore) (hg : g.Distinct) {root : Token} {steps : List Segment}
    (hroot : root.kind = BasicKind.identifier) (hsteps : g.Completes .steps ts steps)
    (hts : Balanced ts) : g.Completes .primary (root :: ts) (Node.reference root.text steps) := by
  intro c c' hc hwalk hends
  obtain ⟨rfl, hwalk⟩ := hwalk
  refine of_path hkeeps hg hc hroot ?_
  obtain ⟨rounds, hsegments⟩ := hsteps.start_segments hts hc.next hwalk [.property c.current.text]
  rw [Gives, path, start_ensure_bind hroot, start_remaining_bind, Parse.start_bind, hsegments,
    segmentsWithin, start_accepts_bind_of_ne hends.ne_dot]
  simp only [Bool.false_eq_true, ↓reduceIte]
  rw [start_current_bind, if_neg hends.ne_lbracket, start_current_bind, if_neg hends.ne_lparen]
  cases steps <;> rfl

/-- A name with names behind it, each behind a point, is called with what the parentheses give. -/
theorem of_callArguments (hkeeps : g.KeepsCore) (hg : g.Distinct) {names : List String}
    {items : List Node} {c₁ : Cursor} (hroot : c.current.kind = BasicKind.identifier)
    (hnames : g.Completes .steps ts (names.map Segment.property)) (hts : Balanced ts)
    (hc : c.Closed) (hwalk : c.next.Walk ts c₁) (hopener : c₁.current.kind = BasicKind.lparen)
    (hcall : (callArguments (g.rules g.parse)).Gives c₁ items c') :
    (g.parse .primary).Gives c (Node.call (".".intercalate (c.current.text :: names)) items) c' ∧
      g.before? c.current.kind = none := by
  refine of_path hkeeps hg hc hroot ?_
  obtain ⟨rounds, hsegments⟩ := hnames.start_segments hts hc.next hwalk [.property c.current.text]
  have hname : callName? ([.property c.current.text] ++ names.map Segment.property) =
      some (".".intercalate (c.current.text :: names)) := callName?_eq_some.2 ⟨_, rfl, rfl⟩
  rw [Gives, path, start_ensure_bind hroot, start_remaining_bind, Parse.start_bind, hsegments,
    segmentsWithin, start_accepts_bind_of_ne (by rw [hopener]; decide)]
  simp only [Bool.false_eq_true, ↓reduceIte]
  rw [start_current_bind, if_neg (by rw [hopener]; decide), start_current_bind, if_pos hopener,
    hname]
  simp only [Option.isNone_some, Bool.false_eq_true, ↓reduceIte]
  rw [hcall.start_bind]
  change (Except.ok _, c') = _
  rw [hname]
  rfl

theorem emptyCall (hkeeps : g.KeepsCore) (hg : g.Distinct) {root opener close : Token}
    {names : List String} (hroot : root.kind = BasicKind.identifier)
    (hnames : g.Completes .steps ts (names.map Segment.property)) (hts : Balanced ts)
    (hopener : opener.kind = BasicKind.lparen) (hclose : close.kind = BasicKind.rparen) :
    g.Completes .primary (root :: (ts ++ [opener, close]))
      (Node.call (".".intercalate (root.text :: names)) []) := by
  intro c c' hc hwalk hends
  simp only [walk_cons, walk_append, walk_nil] at hwalk
  obtain ⟨rfl, c₁, hwalk₁, rfl, rfl, rfl⟩ := hwalk
  refine of_callArguments hkeeps hg hroot hnames hts hc hwalk₁ hopener ?_
  rw [Gives, callArguments, start_ensure_bind hopener, start_accepts_bind_of_eq hclose]
  rfl

theorem call (hkeeps : g.KeepsCore) (hg : g.Distinct) {root opener close : Token}
    {names : List String} {items : List Node} (hroot : root.kind = BasicKind.identifier)
    (hnames : g.Completes .steps ts (names.map Segment.property)) (hts : Balanced ts)
    (hopener : opener.kind = BasicKind.lparen) (hitems : g.Completes .arguments us items)
    (hus : Balanced us) (hopens : Opens us) (hclose : close.kind = BasicKind.rparen) :
    g.Completes .primary (root :: (ts ++ opener :: (us ++ [close])))
      (Node.call (".".intercalate (root.text :: names)) items) := by
  intro c c' hc hwalk hends
  simp only [walk_cons, walk_append, walk_nil] at hwalk
  obtain ⟨rfl, c₁, hwalk₁, rfl, c₂, hwalk₂, rfl, rfl⟩ := hwalk
  have hc₁ := hc.next.walk hwalk₁
  have harguments := hitems.gives_arguments hkeeps hus hc₁.next hwalk₂ (by
    rw [hclose]
    exact hg.endsExpression (by decide) ⟨by decide, by decide, by decide⟩ (by decide)) (by
    rw [hclose]; decide)
  refine of_callArguments hkeeps hg hroot hnames hts hc hwalk₁ hopener ?_
  rw [Gives, callArguments, start_ensure_bind hopener,
    start_accepts_bind_of_ne (hopens.ne_of_walk hwalk₂).1]
  simp only [Bool.false_eq_true, ↓reduceIte]
  rw [rules_parse, harguments.start_bind, start_ensure_bind hclose]
  rfl

theorem lastArgument {n : Node} (hbody : g.Completes .expression ts n) :
    g.Completes .arguments ts [n] := by
  refine ⟨by simp, fun c c' hc hwalk hends hcomma rounds hrounds => ?_⟩
  obtain ⟨rounds, rfl⟩ := Nat.exists_eq_succ_of_ne_zero (Nat.ne_of_gt hrounds)
  have hexpression := hbody c c' hc hwalk hends
  rw [Gives, itemsWithin, hexpression.start_bind, start_accepts_bind_of_ne hcomma]
  rfl

theorem argument (hg : g.Distinct) {comma : Token} {n : Node} {rest : List Node}
    (hfirst : g.Completes .expression ts n) (hcomma : comma.kind = BasicKind.comma)
    (hrest : g.Completes .arguments us rest) :
    g.Completes .arguments (ts ++ comma :: us) (n :: rest) := by
  obtain ⟨hle, hcompletes⟩ := hrest
  refine ⟨by simp only [List.length_cons, List.length_append]; omega,
    fun c c' hc hwalk hends hstop rounds hrounds => ?_⟩
  obtain ⟨rounds, rfl⟩ := Nat.exists_eq_succ_of_ne_zero (n := rounds) (by
    rw [List.length_cons] at hrounds; omega)
  obtain ⟨c₁, hwalk₁, rfl, hwalk₂⟩ := walk_append.1 hwalk
  have hexpression := hfirst c c₁ hc hwalk₁ (by
    rw [hcomma]
    exact hg.endsExpression (by decide) ⟨by decide, by decide, by decide⟩ (by decide))
  have hmore := hcompletes _ c' (hc.walk hwalk₁).next hwalk₂ hends hstop rounds
    (Nat.le_of_succ_le_succ hrounds)
  rw [Gives, itemsWithin, hexpression.start_bind, start_accepts_bind_of_eq hcomma]
  simp only [↓reduceIte]
  rw [hmore.start_bind]
  rfl

theorem required {name : Token} (hname : name.kind = BasicKind.identifier) :
    g.Completes .parameter [name] (Parameter.mk name.text none) := by
  intro c c' hc hwalk hends hcolon
  obtain ⟨rfl, rfl⟩ := hwalk
  exact ⟨hname, rfl, .inl ⟨rfl, rfl⟩⟩

theorem optional {name colon : Token} {n : Node} (hname : name.kind = BasicKind.identifier)
    (hcolon : colon.kind = BasicKind.colon) (hdefault : g.Completes .expression ts n) :
    g.Completes .parameter (name :: colon :: ts) (Parameter.mk name.text (some n)) := by
  intro c c' hc hwalk hends _
  obtain ⟨rfl, rfl, hwalk⟩ := hwalk
  exact ⟨hname, rfl, .inr ⟨n, rfl, hcolon, hdefault _ c' hc.next.next hwalk hends⟩⟩

/-- A parameter whose name is not taken is read, and then the others if a comma stands behind
it. -/
theorem start_parameters {p : Parameter} (hparam : g.Completes .parameter ts p) (hc : c.Closed)
    (hwalk : c.Walk ts c') (hends : g.EndsExpression c'.current.kind)
    (hcolon : c'.current.kind ≠ BasicKind.colon) {taken : List String} (hfresh : p.name ∉ taken)
    (rounds : Nat) :
    (parametersWithin (g.rules g.parse) (rounds + 1) taken).start c =
      (do
        if ← accepts BasicKind.comma then
          return p :: (← parametersWithin (g.rules g.parse) rounds (p.name :: taken))
        else return [p] : Parse (List Parameter)).start c' := by
  obtain ⟨name, default⟩ := p
  obtain ⟨hkind, htext, hdefault⟩ := hparam c c' hc hwalk hends hcolon
  change c.current.text = name at htext
  have hfresh : ¬ taken.contains c.current.text = true := by
    rw [htext]
    simpa [Parameter.name] using hfresh
  rw [parametersWithin, start_ensure_bind hkind, if_neg hfresh]
  rcases hdefault with ⟨hnone, rfl⟩ | ⟨n, hsome, hcolon', hexpression⟩
  · obtain rfl : default = none := hnone
    rw [start_accepts_bind_of_ne hcolon]
    simp only [Bool.false_eq_true, ↓reduceIte, pure_bind, htext]
    rfl
  · obtain rfl : default = some n := hsome
    have hdefault : (some <$> g.parse .expression).Gives c.next.next (some n) c' :=
      gives_map.2 ⟨n, hexpression, rfl⟩
    rw [start_accepts_bind_of_eq hcolon']
    simp only [↓reduceIte]
    rw [rules_parse, hdefault.start_bind, htext]
    rfl

theorem lastParameter {p : Parameter} (hbody : g.Completes .parameter ts p) :
    g.Completes .parameters ts [p] := by
  refine ⟨by simp, fun c c' hc hwalk hends hcolon hcomma rounds taken hrounds _ hfresh => ?_⟩
  obtain ⟨rounds, rfl⟩ := Nat.exists_eq_succ_of_ne_zero (Nat.ne_of_gt hrounds)
  rw [Gives, hbody.start_parameters hc hwalk hends hcolon (hfresh p (by simp)),
    start_accepts_bind_of_ne hcomma]
  rfl

theorem moreParameters (hg : g.Distinct) {comma : Token} {p : Parameter} {rest : List Parameter}
    (hfirst : g.Completes .parameter ts p) (hcomma : comma.kind = BasicKind.comma)
    (hrest : g.Completes .parameters us rest) :
    g.Completes .parameters (ts ++ comma :: us) (p :: rest) := by
  obtain ⟨hle, hcompletes⟩ := hrest
  refine ⟨by simp only [List.length_cons, List.length_append]; omega,
    fun c c' hc hwalk hends hcolon hstop rounds taken hrounds hnodup hfresh => ?_⟩
  obtain ⟨rounds, rfl⟩ := Nat.exists_eq_succ_of_ne_zero (n := rounds) (by
    rw [List.length_cons] at hrounds; omega)
  obtain ⟨c₁, hwalk₁, rfl, hwalk₂⟩ := walk_append.1 hwalk
  rw [List.map_cons, List.nodup_cons] at hnodup
  have hmore := hcompletes _ c' (hc.walk hwalk₁).next hwalk₂ hends hcolon hstop rounds
    (p.name :: taken) (Nat.le_of_succ_le_succ hrounds) hnodup.2 (by
      intro q hq hmem
      rcases List.mem_cons.1 hmem with heq | hmem
      · exact hnodup.1 (heq ▸ List.mem_map.2 ⟨q, hq, rfl⟩)
      · exact hfresh q (List.mem_cons_of_mem _ hq) hmem)
  rw [Gives, hfirst.start_parameters hc hwalk₁ (by
    rw [hcomma]
    exact hg.endsExpression (by decide) ⟨by decide, by decide, by decide⟩ (by decide)) (by
    rw [hcomma]; decide) (hfresh p (by simp)), start_accepts_bind_of_eq hcomma]
  simp only [↓reduceIte]
  rw [hmore.start_bind]
  rfl

end Completes

/-- What is derivable is parsed, up to a token that ends it. -/
theorem Derives.completes (hkeeps : g.KeepsCore) (hg : g.Distinct) {part : Part} {ts : List Token}
    {m : part.Meaning} (h : g.Derives part ts m) (hts : ∀ t ∈ ts, t.Regular) :
    g.Completes part ts m := by
  induction h with
  | plain _ ih => exact .plain hkeeps (ih hts)
  | choice _ hquestion _ hcolon _ ihcondition ihpositive ihnegative =>
    simp only [List.forall_mem_append, List.forall_mem_cons] at hts
    obtain ⟨hcs, -, hps, -, hns⟩ := hts
    exact .choice hkeeps hg (ihcondition hcs) hquestion (ihpositive hps) hcolon (ihnegative hns)
  | nested t _ _ hoperands hoperators hnested ihfirst ihrest =>
    rw [List.forall_mem_append] at hts
    exact .nested hkeeps hg t (ihfirst hts.1) (ihrest hts.2) hoperands hoperators hnested
  | noOperation => exact .noOperation
  | operation hop _ _ ihoperand ihrest =>
    simp only [List.forall_mem_append, List.forall_mem_cons] at hts
    exact .operation hg hop (ihoperand hts.2.1) (ihrest hts.2.2)
  | before hop _ ih => exact .before hkeeps hop (ih (List.forall_mem_cons.1 hts).2)
  | bare _ ih => exact .bare hkeeps (ih hts)
  | after _ hop ih => exact .after hkeeps hg (ih (List.forall_mem_append.1 hts).1) hop
  | number hkind hvalue => exact .number hkeeps hg hkind hvalue
  | string hkind hvalue => exact .string hkeeps hg hkind hvalue
  | trueWord hkind | falseWord hkind | nullWord hkind => exact .word hkeeps hg hkind (by simp)
  | group hopener hinner hclose ih =>
    simp only [List.forall_mem_append, List.forall_mem_cons] at hts
    exact .group hkeeps hg hopener (ih hts.2.1) (hinner.balanced hg hts.2.1) hclose
  | emptyList hopener hclose => exact .emptyList hkeeps hg hopener hclose
  | list hopener hitems hclose ih =>
    simp only [List.forall_mem_append, List.forall_mem_cons] at hts
    exact .list hkeeps hg hopener (ih hts.2.1) (hitems.balanced hg hts.2.1)
      (hitems.opens hg (by decide)) hclose
  | reference hroot hsteps ih =>
    have hts := (List.forall_mem_cons.1 hts).2
    exact .reference hkeeps hg hroot (ih hts) (hsteps.balanced hg hts)
  | emptyCall hroot hnames hopener hclose ih =>
    simp only [List.forall_mem_append, List.forall_mem_cons] at hts
    exact .emptyCall hkeeps hg hroot (ih hts.2.1) (hnames.balanced hg hts.2.1) hopener hclose
  | call hroot hnames hopener harguments hclose ihnames iharguments =>
    simp only [List.forall_mem_append, List.forall_mem_cons] at hts
    obtain ⟨-, hnamesRegular, -, hregular, -⟩ := hts
    exact .call hkeeps hg hroot (ihnames hnamesRegular) (hnames.balanced hg hnamesRegular) hopener
      (iharguments hregular) (harguments.balanced hg hregular) (harguments.opens hg (by decide))
      hclose
  | noStep => exact .noStep
  | property hdot hword _ ih =>
    simp only [List.forall_mem_cons] at hts
    exact .property hdot hword (ih hts.2.2)
  | index hopener _ hclose _ ihindex ihsteps =>
    simp only [List.forall_mem_append, List.forall_mem_cons] at hts
    exact .index hg hopener (ihindex hts.2.1) hclose (ihsteps hts.2.2.2)
  | lastArgument _ ih => exact .lastArgument (ih hts)
  | argument _ hcomma _ ihfirst ihrest =>
    simp only [List.forall_mem_append, List.forall_mem_cons] at hts
    exact .argument hg (ihfirst hts.1) hcomma (ihrest hts.2.2)
  | required hname => exact .required hname
  | optional hname hcolon _ ih =>
    simp only [List.forall_mem_cons] at hts
    exact .optional hname hcolon (ih hts.2.2)
  | lastParameter _ ih => exact .lastParameter (ih hts)
  | moreParameters _ hcomma _ ihfirst ihrest =>
    simp only [List.forall_mem_append, List.forall_mem_cons] at hts
    exact .moreParameters hg (ihfirst hts.1) hcomma (ihrest hts.2.2)

namespace DerivesParameters

variable {params : List Parameter}

theorem balanced (hg : g.Distinct) (h : g.DerivesParameters ts params)
    (hts : ∀ t ∈ ts, t.Regular) : Balanced ts := by
  obtain ⟨opener, close, us, rfl, hopener, hclose, hparams, -⟩ := h
  simp only [List.forall_mem_append, List.forall_mem_cons] at hts
  rcases hparams with ⟨rfl, -⟩ | hparams
  · exact .group hopener .nil hclose
  · exact .group hopener (hparams.balanced hg hts.2.1) hclose

/-- A derivable list of parameters is parsed, whatever follows. -/
theorem gives (hkeeps : g.KeepsCore) (hg : g.Distinct) (h : g.DerivesParameters ts params)
    (hts : ∀ t ∈ ts, t.Regular) (hc : c.Closed) (hwalk : c.Walk ts c') :
    (g.parse .parameters).Gives c (Node.parameters params) c' := by
  have hbalanced := h.balanced hg hts
  have hahead := ((hc.walk_iff hbalanced.kind_ne_eof).1 hwalk).1
  obtain ⟨opener, close, us, rfl, hopener, hclose, hparams, hnodup⟩ := h
  simp only [List.forall_mem_append, List.forall_mem_cons] at hts
  rw [List.cons_append, List.append_assoc] at hahead
  have hus : Balanced us := by
    rcases hparams with ⟨rfl, -⟩ | hparams
    · exact .nil
    · exact hparams.balanced hg hts.2.1
  have henclosed := enclosed_of_balanced hahead hopener hus hclose
  simp only [walk_append, walk_cons, walk_nil] at hwalk
  obtain ⟨rfl, c₁, hwalk₁, rfl, rfl⟩ := hwalk
  rw [hkeeps.gives_parse rfl hc, Gives, ConstructParser.parameters,
    Gives.start_bind (gives_ensureEnclosed.2 ⟨⟨_, henclosed⟩, rfl⟩ : Gives _ c () c),
    start_consume_bind]
  rcases hparams with ⟨rfl, rfl⟩ | hparams
  · obtain rfl := (walk_nil _ _).1 hwalk₁
    rw [start_accepts_bind_of_eq hclose]
    rfl
  · obtain ⟨hlength, hcompletes⟩ := hparams.completes hkeeps hg hts.2.1
    have hcoming := coming_add_length_le hc.next hwalk₁ hus
    have hends : g.EndsExpression c₁.current.kind := by
      rw [hclose]
      exact hg.endsExpression (by decide) ⟨by decide, by decide, by decide⟩ (by decide)
    have hread := hcompletes c.next c₁ hc.next hwalk₁ hends (by rw [hclose]; decide)
      (by rw [hclose]; decide) (c.next.coming.length + 1) [] (by omega) hnodup
      fun _ _ => List.not_mem_nil
    rw [start_accepts_bind_of_ne ((hparams.opens hg (by decide)).ne_of_walk hwalk₁).1]
    simp only [Bool.false_eq_true, ↓reduceIte]
    rw [start_remaining_bind, hread.start_bind, start_ensure_bind hclose]
    rfl

end DerivesParameters

end Grammar

end ExprLang
