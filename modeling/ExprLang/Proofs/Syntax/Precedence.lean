import ExprLang.Proofs.Syntax.Depth

/-!
# Precedence and associativity

Operators that a grammar adds are nested with those that are there already, by precedence and
associativity alone.  Whatever the table of operators is, a chain of operands and operators that
stands in the input is parsed to the one tree that respects the table.
-/

namespace ExprLang

open Parse Cursor

namespace Grammar

/-- The parsers of constructs decide whether a grammar keeps the core ones; its operators do
not. -/
theorem keepsCore_of_parsers {g : Grammar} (hparsers : g.parsers = Grammar.core.parsers) :
    g.KeepsCore := by
  intro construct parser hcore
  rw [parser?, hparsers]
  cases construct with
  | custom name => cases hcore
  | _ => exact hcore

variable {g : Grammar} {c c₁ c' : Cursor}

/-- Every operation takes at least the token of its operator. -/
theorem KeepsCore.length_le_of_reads (hg : g.KeepsCore)
    (hops : ∀ op ∈ g.binary, op.token ≠ BasicKind.eof) {rest : List (BinaryOperator × Node)}
    (hc : c.Closed) (h : (g.rules g.parse).Reads c rest c') :
    rest.length ≤ c.coming.length := by
  induction rest generalizing c with
  | nil => exact Nat.zero_le _
  | cons first rest ih =>
    obtain ⟨hop, c₂, hunary, hrest⟩ := h
    obtain ⟨ts, hts, -⟩ := hg.walk_of_parse (by decide) _ _ _ hunary
    have hkind : c.current.kind ≠ BasicKind.eof := by
      have htoken : first.1.token = c.current.kind := by simpa using List.find?_some hop
      rw [← htoken]
      exact hops first.1 (List.mem_of_find?_eq_some hop)
    have hnext := hc.length_coming_next hkind
    have hle := hts.coming_le
    have hlength := ih (hc.next.walk hts) hrest
    rw [List.length_cons]
    omega

/-- Where unary expressions `u`, … stand one behind the other with operators between them, and no
operator stands behind the last one, the parser of binary expressions gives a tree with these
operands and operators in this order.  Each of its operations has in its operands only operators
that fit there, and it is the only such tree.  No threshold wraps around. -/
theorem KeepsCore.parse_binary (hg : g.KeepsCore)
    (hops : ∀ op ∈ g.binary, op.token ≠ BasicKind.eof) (hc : c.Closed) {u : Node}
    {rest : List (BinaryOperator × Node)} (hfirst : (g.parse .unary).Gives c u c₁)
    (hrest : (g.rules g.parse).Reads c₁ rest c') (hstop : g.binary? c'.current.kind = none) :
    ∃ t : OperatorTree, (g.parse .binary).Gives c t.node c' ∧
      t.operands = u :: rest.map Prod.snd ∧ t.operators = rest.map Prod.fst ∧ t.Nested ∧
      (∀ t' : OperatorTree, t'.operands = t.operands → t'.operators = t.operators → t'.Nested →
        t' = t) ∧
      ∀ op ∈ t.operators, op.rightLeast.toNat =
        match op.associativity with
        | .left => op.precedence.toNat + 1
        | .right => op.precedence.toNat := by
  obtain ⟨ts, hts, -⟩ := hg.walk_of_parse (by decide) _ _ _ hfirst
  have hlength := hg.length_le_of_reads hops (hc.walk hts) hrest
  obtain ⟨t, ht, hoperands, hoperators, hnested⟩ :=
    ConstructParser.binary_gives hfirst hrest hstop (hlength.trans hts.coming_le)
  refine ⟨t, ?_, hoperands, hoperators, hnested, ?_, fun op _ => op.toNat_rightLeast⟩
  · exact (hg.start_parse rfl hc).trans ht
  · intro t' hoperands' hoperators' hnested'
    exact OperatorTree.eq_of_nested hoperands' hoperators' hnested' hnested

/-- A table with both ends of the range of precedences. -/
def extremes : Grammar where
  parsers := core.parsers
  binary := [⟨BasicKind.star, .multiply, 255, .left⟩, ⟨BasicKind.minus, .subtract, 0, .right⟩]
  before := coreBefore
  after := coreAfter

/-- The tokens of `a * b * c - d`, from the one after the first `i` on. -/
def extremesAt (i : Nat) : Cursor :=
  Nat.repeat Cursor.next i (Cursor.ofList ([(BasicKind.identifier, "a"), (.star, "*"),
    (.identifier, "b"), (.star, "*"), (.identifier, "c"), (.minus, "-"),
    (.identifier, "d")].map fun t => ⟨t.1, t.2, .none⟩))

/-- A leftward operator of the highest precedence leaves the second one of its kind outside. -/
theorem parse_binary_extremes :
    ∃ t : OperatorTree, (extremes.parse .binary).Gives (extremesAt 0) t.node (extremesAt 7) ∧
      t.operands = [.name "a" none, .name "b" none, .name "c" none, .name "d" none] ∧
      t.operators.map BinaryOperator.precedence = [255, 255, 0] ∧ t.Nested := by
  have hfirst : (extremes.parse .unary).Gives (extremesAt 0) (.name "a" none) (extremesAt 1) := rfl
  have hrest : (extremes.rules extremes.parse).Reads (extremesAt 1)
      [(⟨BasicKind.star, .multiply, 255, .left⟩, .name "b" none),
        (⟨BasicKind.star, .multiply, 255, .left⟩, .name "c" none),
        (⟨BasicKind.minus, .subtract, 0, .right⟩, .name "d" none)] (extremesAt 7) :=
    ⟨rfl, extremesAt 3, rfl, rfl, extremesAt 5, rfl, rfl, extremesAt 7, rfl, rfl⟩
  have hkeeps : extremes.KeepsCore := keepsCore_of_parsers rfl
  have hclosed : (extremesAt 0).Closed := rfl
  obtain ⟨t, ht, hoperands, hoperators, hnested, -⟩ :=
    hkeeps.parse_binary (by decide) hclosed hfirst hrest rfl
  exact ⟨t, ht, hoperands, by rw [hoperators]; rfl, hnested⟩

end Grammar

end ExprLang
