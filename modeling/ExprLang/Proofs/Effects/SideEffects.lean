import ExprLang.Proofs.Effects.Stepping
import ExprLang.Proofs.Syntax.Precedence

/-!
# Side effects

The only side effects of an evaluation are those of step operators on references.  Wherever an
evaluation ends, with a value or with an error, the frames bind the names that they bound before, to
values that are alike, and only variables that the tree steps have changed
(`Node.evaluate_within`).  This is true of trees whose paths begin with a name, as all paths do that
the parser gives.
-/

namespace ExprLang

/-- The variable that a reference belongs to. -/
def Node.root? : Node → Option String
  | .name dotted _ => (Path.ofDotted dotted).root?
  | .path (.property root :: _) => some root
  | _ => none

mutual
/-- The references under the step operators of a tree. -/
def Node.stepped : Node → List Node
  | .literal _ | .name _ _ => []
  | .path segments => Segment.stepped segments
  | .unary operation _ operand =>
    (if operation.isStep && operand.isReference then [operand] else []) ++ operand.stepped
  | .binary _ left right => left.stepped ++ right.stepped
  | .ternary condition positive negative =>
    condition.stepped ++ (positive.stepped ++ negative.stepped)
  | .call _ arguments => Node.steppedAll arguments
  | .arguments items => Node.steppedAll items
  | .parameters params => Parameter.stepped params

def Node.steppedAll : List Node → List Node
  | [] => []
  | node :: rest => node.stepped ++ Node.steppedAll rest

def Segment.stepped : List Segment → List Node
  | [] => []
  | .property _ :: rest => Segment.stepped rest
  | .index node :: rest => node.stepped ++ Segment.stepped rest

def Parameter.stepped : List Parameter → List Node
  | [] => []
  | .mk _ none :: rest => Parameter.stepped rest
  | .mk _ (some default) :: rest => default.stepped ++ Parameter.stepped rest
end

mutual
/-- Whether all paths of the tree begin with a name. -/
def Node.Rooted : Node → Prop
  | .literal _ | .name _ _ => True
  | .path segments => (∃ root rest, segments = .property root :: rest) ∧ Segment.Rooted segments
  | .unary _ _ operand => operand.Rooted
  | .binary _ left right => left.Rooted ∧ right.Rooted
  | .ternary condition positive negative =>
    condition.Rooted ∧ positive.Rooted ∧ negative.Rooted
  | .call _ arguments => Node.RootedAll arguments
  | .arguments items => Node.RootedAll items
  | .parameters params => Parameter.Rooted params

def Node.RootedAll : List Node → Prop
  | [] => True
  | node :: rest => node.Rooted ∧ Node.RootedAll rest

def Segment.Rooted : List Segment → Prop
  | [] => True
  | .property _ :: rest => Segment.Rooted rest
  | .index node :: rest => node.Rooted ∧ Segment.Rooted rest

def Parameter.Rooted : List Parameter → Prop
  | [] => True
  | .mk _ none :: rest => Parameter.Rooted rest
  | .mk _ (some default) :: rest => default.Rooted ∧ Parameter.Rooted rest
end

namespace Eval

variable {α β : Type} {refs more : List Node}

/-- Over the core semantics, the evaluation changes only variables that the references belong to,
and nothing if there are no references. -/
def Within (refs : List Node) (p : Eval α) : Prop :=
  ∀ c : Context, c.semantics = Semantics.core →
    c.ChangesWithin (refs.filterMap Node.root?) (p c).2 ∧ (refs = [] → (p c).2 = c)

theorem within_of_same {p : Eval α} (h : ∀ c, (p c).2 = c) (refs : List Node) :
    Within refs p := by
  intro c _
  rw [h]
  exact ⟨.refl _ c, fun _ => rfl⟩

theorem within_pure (a : α) (refs : List Node) : Within refs (pure a : Eval α) :=
  within_of_same (fun _ => rfl) refs

theorem within_ask (f : Context → Except Fault α) (refs : List Node) : Within refs (ask f) :=
  within_of_same (fun _ => rfl) refs

theorem Within.mono {p : Eval α} (h : Within refs p) (hsubset : refs ⊆ more) :
    Within more p := by
  intro c hcore
  obtain ⟨hchanges, hsame⟩ := h c hcore
  refine ⟨hchanges.mono ?_, ?_⟩
  · intro root hroot
    obtain ⟨node, hnode, heq⟩ := List.mem_filterMap.1 hroot
    exact List.mem_filterMap.2 ⟨node, hsubset hnode, heq⟩
  · rintro rfl
    exact hsame (List.subset_nil.1 hsubset)

theorem Within.bind {p : Eval α} {f : α → Eval β} (hp : Within refs p)
    (hf : ∀ a, Within more (f a)) : Within (refs ++ more) (p >>= f) := by
  intro c hcore
  obtain ⟨hfirst, hsame⟩ := hp.mono (List.subset_append_left refs more) c hcore
  rw [bind_apply]
  rcases hrun : p c with ⟨e | a, c'⟩
  · rw [hrun] at hfirst hsame
    exact ⟨hfirst, hsame⟩
  · rw [hrun] at hfirst hsame
    obtain ⟨hsecond, hsame'⟩ := (hf a).mono (List.subset_append_right refs more) c'
      (hfirst.semantics_eq.trans hcore)
    exact ⟨hfirst.trans hsecond, fun hnil => (hsame' hnil).trans (hsame hnil)⟩

/-- What is done with the result of an evaluation does not touch the context. -/
theorem Within.map {p : Eval α} (hp : Within refs p) (f : α → β) :
    Within refs (p >>= fun a => pure (f a)) := by
  have hboth := hp.bind fun a => within_pure (f a) []
  rwa [List.append_nil] at hboth

end Eval

/-- A step on a reference, once its path is known. -/
theorem stepAt_within {operation : Operation} (hstep : operation.isStep = true) (fix : Fix)
    (path : Path) (node : Node) (hroot : node.root? = path.root?) :
    Eval.Within [node] (stepAt operation fix path) := by
  intro c hcore
  have hchanges := stepAt_changes hstep fix path c hcore
  rw [List.filterMap_cons, hroot]
  refine ⟨?_, fun hnil => absurd hnil (List.cons_ne_nil _ _)⟩
  cases hpath : path.root? <;> rwa [hpath] at hchanges

section

variable {operation : Operation} {fix : Fix}

theorem Node.evaluate_step_name (hstep : operation.isStep = true) {dotted : String}
    {given : Option String} :
    (Node.unary operation fix (.name dotted given)).evaluate =
      stepAt operation fix (.ofDotted dotted) := by
  simp [Node.evaluate, hstep]

theorem Node.evaluate_step_path (hstep : operation.isStep = true) {root : String}
    {rest : List Segment} :
    (Node.unary operation fix (.path (.property root :: rest))).evaluate = (do
      let path ← Segment.keys rest
      stepAt operation fix (.property root :: path)) := by
  simp [Node.evaluate, Segment.keys, hstep]

/-- A step on what is no reference computes a value. -/
theorem Node.evaluate_step_before (hstep : operation.isStep = true) {operand : Node}
    (hreference : operand.isReference = false) :
    (Node.unary operation .before operand).evaluate = (do
      let old ← operand.evaluate
      Eval.ask fun c => c.semantics.step operation old) := by
  cases operand with
  | name | path => cases hreference
  | _ => simp [Node.evaluate, hstep]

theorem Node.evaluate_step_after (hstep : operation.isStep = true) {operand : Node}
    (hreference : operand.isReference = false) :
    (Node.unary operation .after operand).evaluate = operand.evaluate := by
  cases operand with
  | name | path => cases hreference
  | _ => simp [Node.evaluate, hstep]

/-- A step on what is no reference writes nothing. -/
theorem Node.evaluate_step_within (hstep : operation.isStep = true) {operand : Node}
    (hreference : operand.isReference = false)
    (hoperand : Eval.Within operand.stepped operand.evaluate) :
    Eval.Within (Node.unary operation fix operand).stepped
      (Node.unary operation fix operand).evaluate := by
  have hstepped : (Node.unary operation fix operand).stepped = operand.stepped := by
    simp [Node.stepped, hreference]
  cases fix with
  | before =>
    rw [hstepped, evaluate_step_before hstep hreference]
    simpa using hoperand.bind fun old => Eval.within_ask _ []
  | after =>
    rwa [hstepped, evaluate_step_after hstep hreference]

theorem Node.evaluate_unary (hstep : ¬ operation.isStep = true) {operand : Node} :
    (Node.unary operation fix operand).evaluate = (do
      let value ← operand.evaluate
      Eval.ask fun c => c.semantics.operators.applyUnary operation value) := by
  cases operand <;> simp [Node.evaluate, hstep]

end

mutual
/-- The side effects of an evaluation are those of the steps on references in the tree. -/
theorem Node.evaluate_within : ∀ node : Node, node.Rooted → Eval.Within node.stepped node.evaluate
  | .literal _, _ => Eval.within_pure _ _
  | .name _ _, _ => Eval.within_ask _ _
  | .path segments, h => by
    rw [Node.evaluate, Node.stepped]
    have hkeys := Segment.keys_within segments h.2
    simpa using hkeys.bind fun path => Eval.within_ask _ []
  | .unary operation fix operand, h => by
    have hoperand := Node.evaluate_within operand h
    by_cases hstep : operation.isStep = true
    · cases operand with
      | name dotted given =>
        rw [Node.evaluate_step_name hstep]
        have hroot : (Node.name dotted given).root? = (Path.ofDotted dotted).root? := rfl
        have hwithin := stepAt_within hstep fix _ _ hroot
        exact hwithin.mono (by simp [Node.stepped, hstep, Node.isReference])
      | path segments =>
        obtain ⟨⟨root, rest, rfl⟩, hrest⟩ := h
        rw [Node.evaluate_step_path hstep]
        have hkeys := Segment.keys_within rest hrest
        have hboth := hkeys.bind fun path =>
          stepAt_within hstep fix (.property root :: path) (.path (.property root :: rest)) rfl
        exact hboth.mono (by simp [Node.stepped, Segment.stepped, hstep, Node.isReference])
      | _ => exact Node.evaluate_step_within hstep rfl hoperand
    · rw [Node.evaluate_unary hstep, Node.stepped, if_neg (by simp [hstep]), List.nil_append]
      simpa using hoperand.bind fun value => Eval.within_ask _ []
  | .binary operation left right, h => by
    rw [Node.evaluate, Node.stepped]
    refine (Node.evaluate_within left h.1).bind fun l => ?_
    simpa using (Node.evaluate_within right h.2).bind fun r => Eval.within_ask _ []
  | .ternary condition positive negative, h => by
    rw [Node.evaluate, Node.stepped]
    refine (Node.evaluate_within condition h.1).bind fun value => ?_
    split
    · exact (Node.evaluate_within positive h.2.1).mono (List.subset_append_left _ _)
    · exact (Node.evaluate_within negative h.2.2).mono (List.subset_append_right _ _)
    · exact Eval.within_of_same (fun _ => rfl) _
  | .call name arguments, h => by
    rw [Node.evaluate, Node.stepped]
    simpa using (Node.evaluateAll_within arguments h).bind fun args => Eval.within_ask _ []
  | .arguments items, h => by
    rw [Node.evaluate, Node.stepped]
    exact (Node.evaluateAll_within items h).map _
  | .parameters params, h => by
    rw [Node.evaluate, Node.stepped]
    exact (Parameter.entries_within params h).map _

theorem Node.evaluateAll_within :
    ∀ nodes : List Node, Node.RootedAll nodes →
      Eval.Within (Node.steppedAll nodes) (Node.evaluateAll nodes)
  | [], _ => Eval.within_pure _ _
  | node :: rest, h => by
    rw [Node.evaluateAll, Node.steppedAll]
    exact (Node.evaluate_within node h.1).bind fun first =>
      (Node.evaluateAll_within rest h.2).map _

theorem Segment.keys_within :
    ∀ segments : List Segment, Segment.Rooted segments →
      Eval.Within (Segment.stepped segments) (Segment.keys segments)
  | [], _ => Eval.within_pure _ _
  | .property name :: rest, h => by
    rw [Segment.keys, Segment.stepped]
    exact (Segment.keys_within rest h).map _
  | .index node :: rest, h => by
    rw [Segment.keys, Segment.stepped]
    refine (Node.evaluate_within node h.1).bind fun value => ?_
    have hkey : Eval.Within [] (Eval.lift (PathKey.ofValue value)) :=
      Eval.within_of_same (fun _ => rfl) []
    exact hkey.bind fun key => (Segment.keys_within rest h.2).map _

theorem Parameter.entries_within :
    ∀ params : List Parameter, Parameter.Rooted params →
      Eval.Within (Parameter.stepped params) (Parameter.entries params)
  | [], _ => Eval.within_pure _ _
  | .mk name none :: rest, h => by
    rw [Parameter.entries, Parameter.stepped]
    exact (Parameter.entries_within rest h).map _
  | .mk name (some default) :: rest, h => by
    rw [Parameter.entries, Parameter.stepped]
    exact (Node.evaluate_within default h.1).bind fun value =>
      (Parameter.entries_within rest h.2).map _
end

theorem Node.rootedAll_iff {nodes : List Node} :
    Node.RootedAll nodes ↔ ∀ node ∈ nodes, node.Rooted := by
  induction nodes with
  | nil => simp [Node.RootedAll]
  | cons node rest ih => simp [Node.RootedAll, ih]

/-- A tree of operators is rooted if its operands are. -/
theorem OperatorTree.rooted_node {t : OperatorTree} :
    t.node.Rooted ↔ ∀ node ∈ t.operands, node.Rooted := by
  induction t with
  | operand node => simp [OperatorTree.node]
  | operation op left right hleft hright =>
    rw [OperatorTree.node, Node.Rooted, hleft, hright, operands_operation, List.forall_mem_append]

namespace Grammar

variable {g : Grammar}

/-- What the tokens of a part stand for is rooted. -/
def RootedMeaning : (part : Part) → part.Meaning → Prop
  | .expression, n => Node.Rooted n
  | .binary, n => Node.Rooted n
  | .unary, n => Node.Rooted n
  | .primary, n => Node.Rooted n
  | .operations, rest => ∀ node ∈ rest.map Prod.snd, Node.Rooted node
  | .steps, steps => Segment.Rooted steps
  | .arguments, items => Node.RootedAll items
  | .parameter, p => Parameter.Rooted [p]
  | .parameters, params => Parameter.Rooted params

/-- A derivation gives a path only behind the name that it begins with. -/
theorem Derives.rooted {part : Part} {ts : List Token} {m : part.Meaning}
    (h : g.Derives part ts m) : RootedMeaning part m := by
  induction h with
  | plain _ ih | bare _ ih | lastParameter _ ih | before _ _ ih | after _ _ ih
  | group _ _ _ ih | list _ _ _ ih | call _ _ _ _ _ _ ih | property _ _ _ ih => exact ih
  | choice _ _ _ _ _ ihcondition ihpositive ihnegative =>
    exact ⟨ihcondition, ihpositive, ihnegative⟩
  | nested t _ _ hoperands _ _ ihfirst ihrest =>
    apply OperatorTree.rooted_node.2
    rw [hoperands]
    exact List.forall_mem_cons.2 ⟨ihfirst, ihrest⟩
  | noOperation => exact fun node hnode => absurd hnode List.not_mem_nil
  | operation _ _ _ ihoperand ihrest => exact List.forall_mem_cons.2 ⟨ihoperand, ihrest⟩
  | number | string | trueWord | falseWord | nullWord | emptyList | emptyCall | noStep
  | required => trivial
  | @reference root ts steps _ _ ih =>
    cases steps with
    | nil => trivial
    | cons first rest => exact ⟨⟨_, _, rfl⟩, ih⟩
  | index _ _ _ _ ihindex ihsteps => exact ⟨ihindex, ihsteps⟩
  | lastArgument _ ih => exact ⟨ih, trivial⟩
  | argument _ _ _ ihfirst ihrest => exact ⟨ihfirst, ihrest⟩
  | optional _ _ _ ih => exact ⟨ih, trivial⟩
  | @moreParameters comma ts us p rest _ _ _ ihfirst ihrest =>
    obtain ⟨name, default⟩ := p
    cases default with
    | none => exact ihrest
    | some default => exact ⟨ihfirst.1, ihrest⟩

/-- Every tree that is parsed is rooted. -/
theorem KeepsCore.rooted_of_parse (hkeeps : g.KeepsCore) {construct : Construct}
    (hcore : construct ∈ Construct.core) {c c' : Cursor} {n : Node}
    (hparse : (g.parse construct).Gives c n c') : n.Rooted := by
  obtain ⟨ts, -, hproduces⟩ := hkeeps.walk_of_parse hcore c n c' hparse
  cases construct with
  | expression | ternary | binary | unary | primary | path => exact Derives.rooted hproduces
  | arguments =>
    obtain ⟨items, rfl, hitems⟩ := hproduces
    exact hitems.rooted
  | parameters =>
    obtain ⟨params, rfl, opener, close, us, -, -, -, hparams, -⟩ := hproduces
    rcases hparams with ⟨-, rfl⟩ | hparams
    · trivial
    · exact hparams.rooted
  | names =>
    obtain ⟨items, rfl, hitems⟩ := hproduces
    refine Node.rootedAll_iff.2 fun item hitem => ?_
    obtain ⟨name, given, rfl⟩ := hitems item hitem
    trivial
  | custom name => exact hproduces.elim

/-- Over the core semantics, evaluating a tree that was parsed keeps all frames with the names that
they bind, the strictness and the semantics, wherever it ends.  Each variable keeps its value up to
numbers of the same type, and keeps it altogether unless the tree steps a reference that belongs to
it.  A tree that steps no reference leaves the context as it is. -/
theorem KeepsCore.evaluate_changes (hkeeps : g.KeepsCore) {construct : Construct}
    (hcore : construct ∈ Construct.core) {c c' : Cursor} {n : Node}
    (hparse : (g.parse construct).Gives c n c') (context : Context)
    (hsemantics : context.semantics = Semantics.core) :
    context.ChangesWithin (n.stepped.filterMap Node.root?) (n.evaluate context).2 ∧
      (n.stepped = [] → (n.evaluate context).2 = context) :=
  n.evaluate_within (hkeeps.rooted_of_parse hcore hparse) context hsemantics

/-- A context with one variable. -/
def counting : Context :=
  ⟨[("x", .int 1)], [], false, .core⟩

/-- Evaluating `x++` changes `x` at most. -/
theorem evaluate_counting_changes :
    counting.ChangesWithin ["x"]
      ((Node.unary .increment .after (.name "x" none)).evaluate counting).2 := by
  have hparse : (core.parse .expression).Gives
      ⟨[], ⟨BasicKind.identifier, "x", .none⟩,
        [⟨BasicKind.increment, "++", .none⟩, ⟨BasicKind.eof, "", .none⟩]⟩
      (Node.unary .increment .after (.name "x" none))
      ⟨[⟨BasicKind.increment, "++", .none⟩, ⟨BasicKind.identifier, "x", .none⟩],
        ⟨BasicKind.eof, "", .none⟩, []⟩ := rfl
  have hkeeps : core.KeepsCore := keepsCore_of_parsers rfl
  have hroots : (Node.unary .increment .after (.name "x" none)).stepped.filterMap Node.root? =
      ["x"] := by cbv
  have hchanges := (hkeeps.evaluate_changes (by decide) hparse counting rfl).1
  rwa [hroots] at hchanges

end Grammar

end ExprLang
