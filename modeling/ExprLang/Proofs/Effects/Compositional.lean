import ExprLang.Proofs.Effects.SideEffects

/-!
# Properties of all evaluations

An evaluation is put together from reading and writing at paths, asking the semantics, and failing
for an unsuitable condition or index.  So a property of computations that these parts have, and that
is kept when one computation goes on with the result of another, is a property of the evaluation of
every tree.  It is enough that reading variables has the property for the variables that the tree
refers to, and writing for those that it steps (`Eval.Compositional.evaluate_apart`).
-/

namespace ExprLang

mutual
/-- The references of a tree, in steps or not. -/
def Node.references : Node → List Node
  | .literal _ => []
  | .name name given => [.name name given]
  | .path segments => .path segments :: Segment.references segments
  | .unary _ _ operand => operand.references
  | .binary _ left right => left.references ++ right.references
  | .ternary condition positive negative =>
    condition.references ++ (positive.references ++ negative.references)
  | .call _ arguments => Node.referencesAll arguments
  | .arguments items => Node.referencesAll items
  | .parameters params => Parameter.references params

def Node.referencesAll : List Node → List Node
  | [] => []
  | node :: rest => node.references ++ Node.referencesAll rest

def Segment.references : List Segment → List Node
  | [] => []
  | .property _ :: rest => Segment.references rest
  | .index node :: rest => node.references ++ Segment.references rest

def Parameter.references : List Parameter → List Node
  | [] => []
  | .mk _ none :: rest => Parameter.references rest
  | .mk _ (some default) :: rest => default.references ++ Parameter.references rest
end

theorem append_mono {α : Type} {as bs cs ds : List α} (has : as ⊆ bs) (hcs : cs ⊆ ds) :
    as ++ cs ⊆ bs ++ ds :=
  List.append_subset.2
    ⟨List.subset_append_of_subset_left _ has, List.subset_append_of_subset_right _ hcs⟩

mutual
/-- What a tree steps are references of the tree. -/
theorem Node.stepped_subset : ∀ node : Node, node.stepped ⊆ node.references
  | .literal _ | .name _ _ => List.nil_subset _
  | .path segments => List.subset_cons_of_subset _ (Segment.stepped_subset segments)
  | .unary operation _ operand => by
    refine List.append_subset.2 ⟨?_, operand.stepped_subset⟩
    split
    · rename_i hstep
      cases operand with
      | name | path => simp [Node.references]
      | _ => simp [Node.isReference] at hstep
    · exact List.nil_subset _
  | .binary _ left right => append_mono left.stepped_subset right.stepped_subset
  | .ternary condition positive negative =>
    append_mono condition.stepped_subset
      (append_mono positive.stepped_subset negative.stepped_subset)
  | .call _ arguments | .arguments arguments => Node.steppedAll_subset arguments
  | .parameters params => Parameter.stepped_subset params

theorem Node.steppedAll_subset :
    ∀ nodes : List Node, Node.steppedAll nodes ⊆ Node.referencesAll nodes
  | [] => List.nil_subset _
  | node :: rest => append_mono node.stepped_subset (Node.steppedAll_subset rest)

theorem Segment.stepped_subset :
    ∀ segments : List Segment, Segment.stepped segments ⊆ Segment.references segments
  | [] => List.nil_subset _
  | .property _ :: rest => Segment.stepped_subset rest
  | .index node :: rest => append_mono node.stepped_subset (Segment.stepped_subset rest)

theorem Parameter.stepped_subset :
    ∀ params : List Parameter, Parameter.stepped params ⊆ Parameter.references params
  | [] => List.nil_subset _
  | .mk _ none :: rest => Parameter.stepped_subset rest
  | .mk _ (some default) :: rest =>
    append_mono default.stepped_subset (Parameter.stepped_subset rest)
end

/-- The path is one that the reference may stand for, as far as its variable shows. -/
def Path.BelongsTo (path : Path) (r : Node) : Prop :=
  ∀ name, path.root? = some name → r.root? = none ∨ r.root? = some name

/-- A path that is written behind a name begins with the name. -/
theorem Segment.root?_of_keys {root : String} {rest : List Segment} {c : Context} {path : Path}
    (h : (Segment.keys (.property root :: rest) c).1 = .ok path) : path.root? = some root := by
  rw [Segment.keys, Eval.bind_apply] at h
  rcases hrest : Segment.keys rest c with ⟨fault | keys, c'⟩
  · rw [hrest] at h
    cases h
  · rw [hrest] at h
    obtain rfl := Except.ok.inj h
    rfl

theorem Segment.belongsTo_of_keys {segments : List Segment} {c : Context} {path : Path}
    (h : (Segment.keys segments c).1 = .ok path) : path.BelongsTo (.path segments) := by
  intro name hname
  match segments with
  | [] | .index _ :: _ => exact Or.inl rfl
  | .property root :: rest => exact Or.inr ((Segment.root?_of_keys h).symm.trans hname)

/-- The references belong to allowed variables.  One whose variable only shows when its index
expressions are evaluated needs all variables to be allowed. -/
def Admits (Allowed : String → Prop) (references : List Node) : Prop :=
  ∀ r ∈ references, ∀ name, (r.root? = none ∨ r.root? = some name) → Allowed name

/-- A path begins with an allowed variable, if it begins with a variable at all. -/
def Path.Admitted (Allowed : String → Prop) (path : Path) : Prop :=
  ∀ name, path.root? = some name → Allowed name

theorem Path.BelongsTo.admitted {path : Path} {r : Node} (h : path.BelongsTo r)
    {Allowed : String → Prop} {references : List Node} (hadmits : Admits Allowed references)
    (hr : r ∈ references) : path.Admitted Allowed :=
  fun name hname => hadmits r hr name (h name hname)

namespace Eval

/-- A property of computations that all parts of an evaluation have as far as they read variables
that are readable and write variables that are writable, and that is kept when one computation goes
on with the result of another. -/
structure Compositional (Readable Writable : String → Prop) (P : (α : Type) → Eval α → Prop) :
    Prop where
  pure : ∀ {α : Type} (a : α), P α (Pure.pure a)
  /-- the second computation needs the property only for results that the first one can have -/
  bind : ∀ {α β : Type} {p : Eval α} {f : α → Eval β}, P α p →
    (∀ a c, (p c).1 = .ok a → P β (f a)) → P β (p >>= f)
  key : ∀ v, P PathKey (lift (PathKey.ofValue v))
  condition : ∀ v, P Value (lift (.error (.conditionNotBool v)))
  read : ∀ path, path.Admitted Readable → P Value (ask fun c => c.getValue path)
  write : ∀ path, path.Admitted Writable → ∀ v, P Unit (change fun c => c.setValue path v)
  step : ∀ operation v, P Value (ask fun c => c.semantics.step operation v)
  unary : ∀ operation v, P Value (ask fun c => c.semantics.operators.applyUnary operation v)
  binary : ∀ operation l r,
    P Value (ask fun c => c.semantics.operators.applyBinary operation l r)
  call : ∀ name args, P Value (ask fun c => c.call name args)

namespace Compositional

variable {Readable Writable : String → Prop} {P : (α : Type) → Eval α → Prop} {α β : Type}
variable (h : Compositional Readable Writable P)
include h

theorem bind_all {p : Eval α} {f : α → Eval β} (hp : P α p) (hf : ∀ a, P β (f a)) :
    P β (p >>= f) :=
  h.bind hp fun a _ _ => hf a

/-- What is done with a result needs nothing of the context. -/
theorem map {p : Eval α} (hp : P α p) (f : α → β) : P β (p >>= fun a => Pure.pure (f a)) :=
  h.bind_all hp fun a => h.pure (f a)

/-- A step on a reference that is read and written. -/
theorem stepAt {path : Path} {r : Node} (hpath : path.BelongsTo r) {reads writes : List Node}
    (hreads : Admits Readable reads) (hwrites : Admits Writable writes) (hread : r ∈ reads)
    (hwrite : r ∈ writes) (operation : Operation) (fix : Fix) :
    P Value (stepAt operation fix path) := by
  apply h.bind_all (h.read path (hpath.admitted hreads hread))
  intro old
  apply h.bind_all (h.step operation old)
  intro updated
  exact h.map (h.write path (hpath.admitted hwrites hwrite) updated) _

mutual
/-- The evaluation of a tree has the property if the tree refers to readable variables and steps
writable variables only. -/
theorem evaluate_apart : ∀ node : Node, Admits Readable node.references →
    Admits Writable node.stepped → P Value node.evaluate
  | .literal _, _, _ => h.pure _
  | .name dotted given, hreads, _ => by
    rw [Node.evaluate]
    apply h.read
    intro name hname
    exact hreads _ List.mem_cons_self name (Or.inr hname)
  | .path segments, hreads, hwrites => by
    rw [Node.references] at hreads
    rw [Node.evaluate]
    apply h.bind (keys_apart segments (List.forall_mem_cons.1 hreads).2 hwrites)
    intro path c hpath
    have hbelongs := Segment.belongsTo_of_keys hpath
    exact h.read path (hbelongs.admitted hreads List.mem_cons_self)
  | .unary operation fix operand, hreads, hwrites => by
    rw [Node.references] at hreads
    have hoperand := evaluate_apart operand hreads (List.forall_mem_append.1 hwrites).2
    by_cases hstep : operation.isStep = true
    · cases operand with
      | name dotted given =>
        rw [Node.evaluate_step_name hstep]
        have hbelongs : (Path.ofDotted dotted).BelongsTo (.name dotted given) := fun _ => Or.inr
        refine h.stepAt hbelongs hreads hwrites List.mem_cons_self ?_ operation fix
        simp [Node.stepped, hstep, Node.isReference]
      | path segments =>
        rw [Node.evaluate, if_pos hstep]
        apply h.bind (keys_apart segments (List.forall_mem_cons.1 hreads).2
          (List.forall_mem_append.1 hwrites).2)
        intro path c hpath
        have hbelongs := Segment.belongsTo_of_keys hpath
        refine h.stepAt hbelongs hreads hwrites List.mem_cons_self ?_ operation fix
        simp [Node.stepped, hstep, Node.isReference]
      | _ =>
        cases fix with
        | before =>
          rw [Node.evaluate_step_before hstep rfl]
          exact h.bind_all hoperand fun old => h.step operation old
        | after =>
          rw [Node.evaluate_step_after hstep rfl]
          exact hoperand
    · rw [Node.evaluate_unary hstep]
      exact h.bind_all hoperand fun value => h.unary operation value
  | .binary operation left right, hreads, hwrites => by
    rw [Node.references] at hreads
    rw [Node.stepped] at hwrites
    obtain ⟨hleft, hright⟩ := List.forall_mem_append.1 hreads
    obtain ⟨hleft', hright'⟩ := List.forall_mem_append.1 hwrites
    rw [Node.evaluate]
    apply h.bind_all (evaluate_apart left hleft hleft')
    intro l
    exact h.bind_all (evaluate_apart right hright hright') fun r => h.binary operation l r
  | .ternary condition positive negative, hreads, hwrites => by
    rw [Node.references] at hreads
    rw [Node.stepped] at hwrites
    obtain ⟨hcondition, hbranches⟩ := List.forall_mem_append.1 hreads
    obtain ⟨hpositive, hnegative⟩ := List.forall_mem_append.1 hbranches
    obtain ⟨hcondition', hbranches'⟩ := List.forall_mem_append.1 hwrites
    obtain ⟨hpositive', hnegative'⟩ := List.forall_mem_append.1 hbranches'
    rw [Node.evaluate]
    apply h.bind_all (evaluate_apart condition hcondition hcondition')
    intro value
    split
    · exact evaluate_apart positive hpositive hpositive'
    · exact evaluate_apart negative hnegative hnegative'
    · exact h.condition value
  | .call name arguments, hreads, hwrites => by
    rw [Node.references] at hreads
    rw [Node.evaluate]
    exact h.bind_all (evaluateAll_apart arguments hreads hwrites) fun args => h.call name args
  | .arguments items, hreads, hwrites => by
    rw [Node.references] at hreads
    rw [Node.evaluate]
    exact h.map (evaluateAll_apart items hreads hwrites) _
  | .parameters params, hreads, hwrites => by
    rw [Node.references] at hreads
    rw [Node.evaluate]
    exact h.map (entries_apart params hreads hwrites) _

theorem evaluateAll_apart : ∀ nodes : List Node, Admits Readable (Node.referencesAll nodes) →
    Admits Writable (Node.steppedAll nodes) → P (List Value) (Node.evaluateAll nodes)
  | [], _, _ => h.pure _
  | node :: rest, hreads, hwrites => by
    rw [Node.referencesAll] at hreads
    rw [Node.steppedAll] at hwrites
    obtain ⟨hnode, hrest⟩ := List.forall_mem_append.1 hreads
    obtain ⟨hnode', hrest'⟩ := List.forall_mem_append.1 hwrites
    rw [Node.evaluateAll]
    exact h.bind_all (evaluate_apart node hnode hnode') fun first =>
      h.map (evaluateAll_apart rest hrest hrest') _

theorem keys_apart : ∀ segments : List Segment, Admits Readable (Segment.references segments) →
    Admits Writable (Segment.stepped segments) → P Path (Segment.keys segments)
  | [], _, _ => h.pure _
  | .property name :: rest, hreads, hwrites => by
    rw [Segment.references] at hreads
    rw [Segment.keys]
    exact h.map (keys_apart rest hreads hwrites) _
  | .index node :: rest, hreads, hwrites => by
    rw [Segment.references] at hreads
    rw [Segment.stepped] at hwrites
    obtain ⟨hnode, hrest⟩ := List.forall_mem_append.1 hreads
    obtain ⟨hnode', hrest'⟩ := List.forall_mem_append.1 hwrites
    rw [Segment.keys]
    apply h.bind_all (evaluate_apart node hnode hnode')
    intro value
    exact h.bind_all (h.key value) fun key => h.map (keys_apart rest hrest hrest') _

theorem entries_apart : ∀ params : List Parameter, Admits Readable (Parameter.references params) →
    Admits Writable (Parameter.stepped params) →
    P (List (String × Value)) (Parameter.entries params)
  | [], _, _ => h.pure _
  | .mk name none :: rest, hreads, hwrites => by
    rw [Parameter.references] at hreads
    rw [Parameter.entries]
    exact h.map (entries_apart rest hreads hwrites) _
  | .mk name (some default) :: rest, hreads, hwrites => by
    rw [Parameter.references] at hreads
    rw [Parameter.stepped] at hwrites
    obtain ⟨hdefault, hrest⟩ := List.forall_mem_append.1 hreads
    obtain ⟨hdefault', hrest'⟩ := List.forall_mem_append.1 hwrites
    rw [Parameter.entries]
    exact h.bind_all (evaluate_apart default hdefault hdefault') fun value =>
      h.map (entries_apart rest hrest hrest') _
end

end Compositional

section

variable {Allowed : String → Prop} {P : (α : Type) → Eval α → Prop}
variable (h : Compositional Allowed Allowed P)
include h

/-- The evaluation of a tree has the property if the tree refers to allowed variables only. -/
theorem Compositional.evaluate (node : Node) (hadmits : Admits Allowed node.references) :
    P Value node.evaluate :=
  h.evaluate_apart node hadmits fun r hr => hadmits r (node.stepped_subset hr)

theorem Compositional.keys (segments : List Segment)
    (hadmits : Admits Allowed (Segment.references segments)) : P Path (Segment.keys segments) :=
  h.keys_apart segments hadmits fun r hr => hadmits r (Segment.stepped_subset segments hr)

end

end Eval

end ExprLang
