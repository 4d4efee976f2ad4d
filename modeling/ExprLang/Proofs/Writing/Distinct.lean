import ExprLang.Proofs.Writing.Spelling

/-!
# Texts of different trees

Clear trees of sources are read from the words of their texts, and nothing else is read from these
words.  So different clear trees have different texts (`Engine.text_ne`).  A tree with an operator
behind a prefixed operand is not clear, and it has the text of another tree
(`Engine.text_eq_of_prefixed`).
-/

namespace ExprLang

open Lexer Fragment

namespace Grammar

variable {g : Grammar}

/-- What is read from the text of a meaning. -/
def LegibleMeaning (g : Grammar) : (part : Part) → part.Meaning → Prop
  | .expression, n | .binary, n | .unary, n | .primary, n => Node.Clear n → ∃ ws, g.Legible n ws
  | .operations, rest =>
    ∀ x ∈ rest, x.1 ∈ g.binary ∧ (Node.Clear x.2 → ∃ ws, g.Legible x.2 ws)
  | .steps, steps => Segment.ClearAll steps → ∃ ws, g.LegibleSteps steps ws
  | .arguments, items =>
    Node.texts items ≠ [] ∧ (Node.ClearAll items → ∃ ws, g.LegibleItems items ws)
  | .parameter, _ | .parameters, _ => True

/-- A chain of operations is legible if its operands are. -/
theorem legible_tree (hcore : g.CoreOperators) (hg : g.Distinct) {t : OperatorTree}
    (hoperators : ∀ op ∈ t.operators, op ∈ g.binary)
    (hoperands : ∀ u ∈ t.operands, u.Clear → ∃ ws, g.Legible u ws) (hclear : t.node.Clear) :
    ∃ ws, g.Legible t.node ws := by
  induction t with
  | operand node => exact hoperands node (by simp) hclear
  | operation op left right hleft hright =>
    rw [OperatorTree.operators_operation] at hoperators
    rw [OperatorTree.operands_operation] at hoperands
    rw [OperatorTree.node, Node.Clear] at hclear
    obtain ⟨us, hleft⟩ := hleft (fun q hq => hoperators q (List.mem_append_left _ hq))
      (fun u hu => hoperands u (List.mem_append_left _ hu)) hclear.1
    obtain ⟨vs, hright⟩ := hright
      (fun q hq => hoperators q (List.mem_append_right _ (List.mem_cons_of_mem _ hq)))
      (fun u hu => hoperands u (List.mem_append_right _ hu)) hclear.2
    exact ⟨_, .binary hcore hg (hoperators op (by simp)) hleft hright⟩

/-- What is derived from core tokens is legible. -/
theorem Derives.legible (hcore : g.CoreOperators) (hg : g.Distinct) {part : Part} {ts : List Token}
    {meaning : part.Meaning} (h : g.Derives part ts meaning)
    (hts : ∀ t ∈ ts, t.kind = coreKind t.text) : g.LegibleMeaning part meaning := by
  induction h with
  | plain _ ih => exact ih hts
  | choice hcondition hquestion hpositive hcolon hnegative ihcondition ihpositive ihnegative =>
    simp only [List.forall_mem_append, List.forall_mem_cons] at hts
    obtain ⟨hcs, -, hps, -, hns⟩ := hts
    intro hclear
    rw [Node.Clear] at hclear
    obtain ⟨us, hcondition⟩ := ihcondition hcs hclear.1
    obtain ⟨vs, hpositive⟩ := ihpositive hps hclear.2.1
    obtain ⟨ws, hnegative⟩ := ihnegative hns hclear.2.2
    exact ⟨_, .ternary hg hcondition hpositive hnegative⟩
  | nested t hfirst hrest hoperands hoperators hnested ihfirst ihrest =>
    rw [List.forall_mem_append] at hts
    have hfirst := ihfirst hts.1
    have hrest := ihrest hts.2
    refine legible_tree hcore hg ?_ ?_
    · rw [hoperators, List.forall_mem_map]
      exact fun x hx => (hrest x hx).1
    · rw [hoperands, List.forall_mem_cons, List.forall_mem_map]
      exact ⟨hfirst, fun x hx => (hrest x hx).2⟩
  | noOperation => exact fun x hx => absurd hx List.not_mem_nil
  | operation hop hoperand hrest ihoperand ihrest =>
    rw [List.forall_mem_cons, List.forall_mem_append] at hts
    refine List.forall_mem_cons.2 ⟨⟨List.mem_of_find?_eq_some hop, ?_⟩, ?_⟩
    · exact ihoperand hts.2.1
    · exact ihrest hts.2.2
  | before hop hoperand ih =>
    intro hclear
    rw [Node.Clear] at hclear
    obtain ⟨ws, hoperand⟩ := ih (List.forall_mem_cons.1 hts).2 hclear
    exact Legible.before hcore hg (List.mem_of_find?_eq_some hop) hoperand
  | bare _ ih => exact ih hts
  | after hoperand hop ih =>
    intro hclear
    rw [Node.Clear] at hclear
    rw [List.forall_mem_append] at hts
    obtain ⟨ws, hoperand⟩ := ih hts.1 hclear.2
    exact ⟨_, .after hcore hg (List.mem_of_find?_eq_some hop) hoperand hclear.1⟩
  | number hkind hvalue =>
    intro hclear
    rw [Node.Clear] at hclear
    exact Legible.literal (readable_of_number (hts _ List.mem_cons_self) hkind hvalue) hclear
  | string hkind hvalue =>
    obtain ⟨s, rfl⟩ := exists_str_of_ofQuoted hvalue
    exact fun _ => Legible.literal trivial trivial
  | trueWord | falseWord | nullWord => exact fun _ => Legible.literal trivial trivial
  | group hopener hinner hclose ih =>
    rw [List.forall_mem_cons, List.forall_mem_append] at hts
    exact ih hts.2.1
  | emptyList => exact fun _ => ⟨_, .list .noItem⟩
  | list hopener hitems hclose ih =>
    rw [List.forall_mem_cons, List.forall_mem_append] at hts
    intro hclear
    rw [Node.Clear] at hclear
    obtain ⟨ws, hitems⟩ := (ih hts.2.1).2 hclear
    exact ⟨_, .list hitems⟩
  | reference hroot hsteps ih =>
    rw [List.forall_mem_cons] at hts
    intro hclear
    obtain ⟨ws, hsteps⟩ := ih hts.2 (Node.clearAll_of_clear_reference hclear)
    exact ⟨_, .reference (hts.1.symm.trans hroot) hsteps⟩
  | emptyCall hroot hnames hopener hclose ih =>
    rw [List.forall_mem_cons, List.forall_mem_append] at hts
    obtain ⟨ws, hnames⟩ := ih hts.2.1 (Segment.clearAll_names _)
    exact fun _ => ⟨_, .call (hts.1.symm.trans hroot) hnames .noItem⟩
  | call hroot hnames hopener harguments hclose ihnames iharguments =>
    simp only [List.forall_mem_cons, List.forall_mem_append] at hts
    obtain ⟨htoken, hnames, -, harguments, -⟩ := hts
    obtain ⟨us, hnames⟩ := ihnames hnames (Segment.clearAll_names _)
    intro hclear
    rw [Node.Clear] at hclear
    obtain ⟨vs, harguments⟩ := (iharguments harguments).2 hclear
    exact ⟨_, .call (htoken.symm.trans hroot) hnames harguments⟩
  | noStep => exact fun _ => ⟨[], .noStep⟩
  | property hdot hword hsteps ih =>
    rw [List.forall_mem_cons, List.forall_mem_cons] at hts
    intro hclear
    rw [Segment.ClearAll] at hclear
    obtain ⟨ws, hsteps⟩ := ih hts.2.2 hclear
    exact ⟨_, hsteps.property hword⟩
  | index hopener hindex hclose hsteps ihindex ihsteps =>
    simp only [List.forall_mem_cons, List.forall_mem_append] at hts
    intro hclear
    rw [Segment.ClearAll] at hclear
    obtain ⟨us, hindex⟩ := ihindex hts.2.1 hclear.1
    obtain ⟨ws, hsteps⟩ := ihsteps hts.2.2.2 hclear.2
    exact ⟨_, hsteps.index hg hindex⟩
  | lastArgument hitem ih =>
    refine ⟨by simp [Node.texts], fun hclear => ?_⟩
    rw [Node.ClearAll] at hclear
    obtain ⟨ws, hitem⟩ := ih hts hclear.1
    exact ⟨ws, .last hg hitem⟩
  | argument hfirst hcomma hrest ihfirst ihrest =>
    rw [List.forall_mem_append, List.forall_mem_cons] at hts
    obtain ⟨hne, hrest⟩ := ihrest hts.2.2
    refine ⟨by simp [Node.texts], fun hclear => ?_⟩
    rw [Node.ClearAll] at hclear
    obtain ⟨us, hfirst⟩ := ihfirst hts.1 hclear.1
    obtain ⟨ws, hrest⟩ := hrest hclear.2
    exact ⟨_, hrest.more hg hfirst hne⟩
  | required | optional | lastParameter | moreParameters => trivial

/-- Trees that are read from the words of one text are the same. -/
theorem Legible.eq_of_text (hg : g.Distinct) {n m : Node} {us vs : List String}
    (hn : g.Legible n us) (hm : g.Legible m vs) (htext : n.text = m.text) : n = m := by
  obtain ⟨fragments, hsplit, hus⟩ := hn.spells.source
  obtain ⟨others, hsplit', hvs⟩ := hm.spells.source
  rw [htext, hsplit'] at hsplit
  obtain rfl := Except.ok.inj hsplit
  obtain rfl : us = vs := hus.symm.trans hvs
  have heof : leading [] = BasicKind.eof := rfl
  have hend : g.Closes [] := hg.closes heof (by decide)
  exact ((hn.reads [] hend).unique hg (hm.reads [] hend)).1

end Grammar

namespace Engine

/-- The texts of different clear trees that sources are compiled to are different. -/
theorem text_ne {source other : String} {e f : Expression} (he : core.compile source = .ok e)
    (hf : core.compile other = .ok f) (heclear : e.node.Clear) (hfclear : f.node.Clear)
    (hne : e.node ≠ f.node) : e.node.text ≠ f.node.text := by
  have hlegible {source : String} {e : Expression} (he : core.compile source = .ok e)
      (hclear : e.node.Clear) : ∃ ws, core.grammar.Legible e.node ws := by
    obtain ⟨-, hparse⟩ := compile_eq_ok.1 he
    obtain ⟨fragments, -, hderives⟩ := parse_expression_iff.1 hparse
    exact hderives.legible coreOperators_core coreOperators_core.distinct
      (kind_map_coreToken fragments) hclear
  intro htext
  obtain ⟨us, he⟩ := hlegible he heclear
  obtain ⟨vs, hf⟩ := hlegible hf hfclear
  exact hne (he.eq_of_text coreOperators_core.distinct hf htext)

/-- The tree of `(a++)--`. -/
def upDown : Node :=
  .unary .decrement .after (.unary .increment .after (.name "a" none))

/-- The tree of `(a--)++`. -/
def downUp : Node :=
  .unary .increment .after (.unary .decrement .after (.name "a" none))

/-- The texts `a++--` and `a--++` are different, although neither of them is a source. -/
theorem text_upDown_ne : upDown.text ≠ downUp.text := by
  have hupDown : core.compile "(a++)--" = .ok ⟨"(a++)--", upDown⟩ := by
    rw [compile_eq_ok, parse_core_eq, coreSymbols_eq]
    refine ⟨rfl, ?_⟩
    cbv
  have hdownUp : core.compile "(a--)++" = .ok ⟨"(a--)++", downUp⟩ := by
    rw [compile_eq_ok, parse_core_eq, coreSymbols_eq]
    refine ⟨rfl, ?_⟩
    cbv
  apply text_ne hupDown hdownUp
  case heclear => simp [upDown, Node.Clear, Node.isPrefixed]
  case hfclear => simp [downUp, Node.Clear, Node.isPrefixed]
  case hne => simp [upDown, downUp]

/-- The tree of `(-a)++`. -/
def negatedFirst : Node :=
  .unary .increment .after (.unary .negate .before (.name "a" none))

/-- The tree of `-(a++)`. -/
def negatedLast : Node :=
  .unary .negate .before (.unary .increment .after (.name "a" none))

/-- `(-a)++` and `-(a++)` are compiled to different trees with one text. -/
theorem text_eq_of_prefixed :
    core.compile "(-a)++" = .ok ⟨"(-a)++", negatedFirst⟩ ∧
      core.compile "-(a++)" = .ok ⟨"-(a++)", negatedLast⟩ ∧ negatedFirst ≠ negatedLast ∧
      negatedFirst.text = negatedLast.text := by
  have hfirst : core.compile "(-a)++" = .ok ⟨"(-a)++", negatedFirst⟩ := by
    rw [compile_eq_ok, parse_core_eq, coreSymbols_eq]
    refine ⟨rfl, ?_⟩
    cbv
  have hlast : core.compile "-(a++)" = .ok ⟨"-(a++)", negatedLast⟩ := by
    rw [compile_eq_ok, parse_core_eq, coreSymbols_eq]
    refine ⟨rfl, ?_⟩
    cbv
  have hne : negatedFirst ≠ negatedLast := by simp [negatedFirst, negatedLast]
  have htext : negatedFirst.text = negatedLast.text := by cbv
  exact ⟨hfirst, hlast, hne, htext⟩

end Engine

end ExprLang
