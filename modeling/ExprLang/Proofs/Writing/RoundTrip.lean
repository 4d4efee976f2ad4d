import ExprLang.Proofs.Syntax.Language
import ExprLang.Proofs.Writing.Printing

/-!
# Printed trees are read back

The core engine gives every tidy tree of a source again for the text of the tree.  The source is
derived since it is parsed; what is derived is printed; and what is printed is derived and so parsed.
-/

namespace ExprLang

open Fragment Lexer

namespace Grammar

variable {g : Grammar}

theorem CoreOperators.binary?_eq (hg : g.CoreOperators) : g.binary? = core.binary? := by
  funext kind
  rw [binary?, hg.binary_eq]
  rfl

theorem CoreOperators.before?_eq (hg : g.CoreOperators) : g.before? = core.before? := by
  funext kind
  rw [before?, hg.before_eq]
  rfl

theorem CoreOperators.after?_eq (hg : g.CoreOperators) : g.after? = core.after? := by
  funext kind
  rw [after?, hg.after_eq]
  rfl

theorem CoreOperators.distinct (hg : g.CoreOperators) : g.Distinct := by
  constructor
  · rw [hg.binary?_eq]
    exact distinct_core.binary?_fixed
  · rw [hg.before?_eq]
    exact distinct_core.before?_fixed
  · rw [hg.after?_eq]
    exact distinct_core.after?_fixed
  · rw [hg.binary?_eq, hg.after?_eq]
    exact distinct_core.after?_binary

/-- Parameters between parentheses are printed if their names differ. -/
theorem phrase_parameters (hg : g.CoreOperators) {ts : List Token} {params : List Parameter}
    (h : g.DerivesParameters ts params) (hts : ∀ t ∈ ts, t.kind = coreKind t.text)
    (htidy : (Node.parameters params).Tidy) :
    Phrase (Node.parameters params).text fun us => g.DerivesParameters us params := by
  obtain ⟨opener, close, us, rfl, -, -, hus, hnames⟩ := h
  rw [Node.Tidy] at htidy
  have hinner : Phrase (commaSeparated (Parameter.texts params)) fun us =>
      (us = [] ∧ params = []) ∨ g.Derives .parameters us params := by
    rcases hus with ⟨-, rfl⟩ | hderives
    · exact Phrase.empty (.inl ⟨rfl, rfl⟩)
    · rw [List.forall_mem_cons, List.forall_mem_append] at hts
      have hwritten := (hderives.prints hg hts.2.1).2 htidy
      exact hwritten.mono fun _ => .inr
  rw [Node.text]
  refine (Phrase.enclosed "(" .lparen ")" .rparen (by decide) (by decide)
    (ends_of_head ")" rfl (by decide)) hinner).mono ?_
  rintro _ ⟨opener, close, inner, rfl, hopener, hinner, hclose⟩
  exact ⟨opener, close, inner, rfl, hopener, hclose, hinner, hnames⟩

end Grammar

/-- A phrase that is a whole source is cut into tokens with its property. -/
theorem Phrase.source {text : String} {P : List Token → Prop} (h : Phrase text P) :
    ∃ fragments, ofChars coreSymbols .start text.toList = .ok fragments ∧
      P (fragments.map coreToken) := by
  obtain ⟨fragments, m', hcut, hP⟩ := h .start [] (fun c hc => by cases hc)
  have hend : ofChars coreSymbols m' [] = .ok [] := by
    rw [ofChars]
    rfl
  rw [List.append_nil, Cuts, hend] at hcut
  refine ⟨fragments, ?_, hP⟩
  simpa [Except.map] using hcut

theorem bind_eq_ok {ε α β : Type} {x : Except ε α} {f : α → Except ε β} {b : β} :
    x.bind f = .ok b ↔ ∃ a, x = .ok a ∧ f a = .ok b := by
  cases x <;> simp [Except.bind]

namespace Engine

theorem keepsCore_core : core.grammar.KeepsCore := by
  intro construct parser hcore
  cases construct with
  | custom name => cases hcore
  | _ => exact hcore

theorem coreOperators_core : core.grammar.CoreOperators where
  binary_eq := rfl
  before_eq := rfl
  after_eq := rfl

/-- The core engine cuts a source at the core symbols and parses the tokens of the fragments. -/
theorem parse_core_eq (construct : Construct) (source : String) :
    core.parse construct source =
      (ofChars coreSymbols .start source.toList).bind fun fragments =>
        (core.grammar.parseAll construct (.ofList
          (fragments.map coreToken ++ [.eof (Mark.start.advance source.toList)]))).1 := by
  change (Lexer.core.cursor source >>= fun c => _) = _
  rw [Lexer.cursor, tokens_core_eq]
  cases ofChars coreSymbols .start source.toList <;> rfl

/-- The core engine gives a tree for a source if and only if the tree is derived from its tokens. -/
theorem parse_expression_iff {source : String} {n : Node} :
    core.parse .expression source = .ok n ↔
      ∃ fragments, ofChars coreSymbols .start source.toList = .ok fragments ∧
        core.grammar.Derives .expression (fragments.map coreToken) n := by
  rw [parse_core_eq, bind_eq_ok]
  refine exists_congr fun fragments => and_congr_right fun _ => ?_
  exact keepsCore_core.parseAll_expression coreOperators_core.distinct rfl (Token.regular_eof _)
    (regular_map_coreToken fragments)

theorem parse_parameters_iff {source : String} {n : Node} :
    core.parse .parameters source = .ok n ↔
      ∃ fragments, ofChars coreSymbols .start source.toList = .ok fragments ∧
        ∃ params, n = .parameters params ∧
          core.grammar.DerivesParameters (fragments.map coreToken) params := by
  rw [parse_core_eq, bind_eq_ok]
  refine exists_congr fun fragments => and_congr_right fun _ => ?_
  exact keepsCore_core.parseAll_parameters coreOperators_core.distinct rfl (Token.regular_eof _)
    (regular_map_coreToken fragments)

theorem compile_eq_ok {engine : Engine} {source : String} {e : Expression} :
    engine.compile source = .ok e ↔
      e.source = source ∧ engine.parse .expression source = .ok e.node := by
  obtain ⟨text, node⟩ := e
  change (engine.parse .expression source).bind (fun n => Except.ok (Expression.mk source n)) = _ ↔ _
  rw [bind_eq_ok]
  simp [eq_comm, and_comm]

theorem kind_map_coreToken (fragments : List Fragment) :
    ∀ t ∈ fragments.map coreToken, t.kind = coreKind t.text := by
  intro t ht
  obtain ⟨fragment, -, rfl⟩ := List.mem_map.1 ht
  rfl

/-- The text of a tree that was compiled, or of parameters that were parsed, gives the same tree
again if the tree is tidy. -/
theorem compile_text (source : String) :
    (∀ e, core.compile source = .ok e → e.node.Tidy →
      core.compile e.node.text = .ok ⟨e.node.text, e.node⟩) ∧
    ∀ n, core.parse .parameters source = .ok n → n.Tidy →
      core.parse .parameters n.text = .ok n := by
  constructor
  · intro e hcompile htidy
    obtain ⟨-, hparse⟩ := compile_eq_ok.1 hcompile
    obtain ⟨fragments, -, hderives⟩ := parse_expression_iff.1 hparse
    have hprints := hderives.prints coreOperators_core (kind_map_coreToken fragments) htidy
    exact compile_eq_ok.2 ⟨rfl, parse_expression_iff.2 hprints.expression.source⟩
  · intro n hparse htidy
    obtain ⟨fragments, -, params, rfl, hderives⟩ := parse_parameters_iff.1 hparse
    have hphrase := Grammar.phrase_parameters coreOperators_core hderives
      (kind_map_coreToken fragments) htidy
    obtain ⟨fragments, hsplit, hderives⟩ := hphrase.source
    exact parse_parameters_iff.2 ⟨fragments, hsplit, params, rfl, hderives⟩

/-- The tree of `- -a++ + "it's"`. -/
def negatedTwice : Node :=
  .binary .add
    (.unary .negate .before
      (.unary .negate .before (.unary .increment .after (.name "a" none))))
    (.literal (.str "it's"))

/-- The parameters of `(x:-1,y)`. -/
def negativeDefault : Node :=
  .parameters [.mk "x" (some (.unary .negate .before (.literal (.int 1)))), .mk "y" none]

theorem compile_text_negatedTwice :
    core.compile "(-(-a++) + 'it\\'s')" = .ok ⟨"(-(-a++) + 'it\\'s')", negatedTwice⟩ ∧
      core.parse .parameters "(x: -1, y)" = .ok negativeDefault := by
  have hcompile : core.compile "- -a++ + \"it's\"" = .ok ⟨"- -a++ + \"it's\"", negatedTwice⟩ := by
    rw [compile_eq_ok, parse_core_eq, coreSymbols_eq]
    refine ⟨rfl, ?_⟩
    cbv
  have hparse : core.parse .parameters "(x:-1,y)" = .ok negativeDefault := by
    rw [parse_core_eq, coreSymbols_eq]
    cbv
  have htext : negatedTwice.text = "(-(-a++) + 'it\\'s')" := by cbv
  have htext' : negativeDefault.text = "(x: -1, y)" := by cbv
  have htidy : negatedTwice.Tidy := by
    simp [negatedTwice, Node.Tidy, Node.isUnary, Literal.Bounded]
  have htidy' : negativeDefault.Tidy := by
    simp [negativeDefault, Node.Tidy, Parameter.TidyAll, Parameter.Tidy, Literal.Bounded]
  have hagain := (compile_text _).1 _ hcompile htidy
  have hagain' := (compile_text _).2 _ hparse htidy'
  rw [htext'] at hagain'
  simp only [htext] at hagain
  exact ⟨hagain, hagain'⟩

end Engine

end ExprLang
