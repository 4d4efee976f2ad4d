import ExprLang.Proofs.Effects.Canonical
import ExprLang.Proofs.Effects.Increment

/-!
# Steps and their way back

The two fixes of a step do the same to the context and differ in the value that they give.  A step
either succeeds or leaves the context alone; if it takes an integer to another one, the opposite
step leads back to the context before (`Grammar.KeepsCore.evaluate_steps`).
-/

namespace ExprLang

namespace Context

/-- Where a number is read and some value can be set, the number can be set, too. -/
theorem exists_setValue {c c' : Context} {path : Path} {old new : Value}
    (hread : c.getValue path = .ok old) (hnumber : old.isNumber = true)
    (hset : c.setValue path new = .ok c') : ∃ d, c.setValue path old = .ok d := by
  obtain ⟨root, rest, w, rfl, hchanged, rfl⟩ := exists_of_setValue hset
  obtain ⟨_, _, v, ⟨⟩, hlookup, hfetch⟩ := exists_of_getValue hread hnumber
  rw [changed?, hlookup, Option.getD_some] at hchanged
  have hdirect : ¬ v.IndexesMap rest :=
    (Value.isSome_store?_iff hfetch hnumber new).1 (Option.isSome_of_eq_some hchanged)
  obtain ⟨u, hu⟩ :=
    Option.isSome_iff_exists.1 ((Value.isSome_store?_iff hfetch hnumber old).2 hdirect)
  rw [setValue_eq, changed?, hlookup, Option.getD_some, hu]
  exact ⟨_, rfl⟩

end Context

section

variable {operation : Operation} {path : Path} {c c' : Context} {old new : Value}

theorem stepAt_of_ok (hread : c.getValue path = .ok old)
    (hstep : c.semantics.step operation old = .ok new) (hset : c.setValue path new = .ok c') :
    stepAt operation .before path c = (.ok new, c') ∧
      stepAt operation .after path c = (.ok old, c') := by
  rw [stepAt_eq, stepAt_eq, hread]
  simp only [hstep, hset, and_self]

/-- The fixes of a step succeed together, and both have done nothing if they fail. -/
theorem stepAt_fixes (operation : Operation) (path : Path) (c : Context) :
    (∃ old new c', c.getValue path = .ok old ∧ c.semantics.step operation old = .ok new ∧
      c.setValue path new = .ok c') ∨
    ∃ fault, ∀ fix, stepAt operation fix path c = (.error fault, c) := by
  simp only [stepAt_eq]
  cases hread : c.getValue path with
  | error fault => exact .inr ⟨fault, fun _ => rfl⟩
  | ok old =>
    cases hstep : c.semantics.step operation old with
    | error fault => exact .inr ⟨fault, fun _ => by simp only [hstep]⟩
    | ok new =>
      cases hset : c.setValue path new with
      | error fault => exact .inr ⟨fault, fun _ => by simp only [hstep, hset]⟩
      | ok c' => exact .inl ⟨old, new, c', rfl, hstep, hset⟩

/-- The opposite step sets the integer that was there before. -/
theorem stepAt_opposite (hcore : c.semantics = Semantics.core) (hoperation : operation.isStep = true)
    (hread : c.getValue path = .ok old) (hshifted : old.shifted? operation.delta = some new)
    (hset : c.setValue path new = .ok c') :
    ∃ d, c.setValue path old = .ok d ∧
      stepAt operation.opposite .before path c' = (.ok old, d) ∧
      stepAt operation.opposite .after path c' = (.ok new, d) := by
  obtain ⟨d, hd⟩ := Context.exists_setValue hread (Value.isNumber_of_shifted? hshifted) hset
  have hback : c'.setValue path old = .ok d := (Context.setValue_setValue hset old).trans hd
  obtain ⟨root, rest, w, rfl, hchanged, rfl⟩ := Context.exists_of_setValue hset
  have hassigned := Context.assigned_of_changed? hchanged
  have hshifted' : new.shifted? operation.opposite.delta = some old := by
    rw [operation.delta_opposite]
    exact Value.shifted?_neg hshifted
  have hstep : (c.assign root w).semantics.step operation.opposite new = .ok old := by
    rw [hassigned.semantics_eq, hcore]
    exact Semantics.step_of_shifted? (operation.isStep_opposite.trans hoperation) hshifted'
  exact ⟨d, hd, stepAt_of_ok hassigned.reads hstep hback⟩

end

namespace Node

/-- A step on a reference has taken an integer at its path to another one. -/
structure Counted (r : Node) (operation : Operation) (c : Context) (old new : Value)
    (root : String) (rest : Path) (c' : Context) : Prop where
  /-- the new integer is the next one or the one before, of the same type -/
  shifted : old.shifted? operation.delta = some new
  /-- it is at the path of the reference, and nothing else has changed -/
  keys : r.keys c = (.ok (.property root :: rest), c)
  assigned : c.Assigned root rest new c'
  /-- the reference is read as it -/
  reads : r.evaluate c' = (.ok new, c')
  /-- the form of the context is kept -/
  canonical : c.Canonical → c'.Canonical
  /-- the opposite step sets the old integer, which leads back to the context before -/
  undone : ∃ d, (unary operation.opposite .before r).evaluate c' = (.ok old, d) ∧
    (unary operation.opposite .after r).evaluate c' = (.ok new, d) ∧
    c.setValue (.property root :: rest) old = .ok d ∧ (c.Canonical → d = c)

namespace Stable

variable {r : Node} (h : r.Stable) {operation : Operation} (hoperation : operation.isStep = true)
  {c : Context} (hcore : c.semantics = Semantics.core) {path : Path}
  (hpath : (r.keys c).1 = .ok path)
include h hoperation hcore hpath

theorem counted {c' : Context} {old new : Value} (hread : c.getValue path = .ok old)
    (hstep : c.semantics.step operation old = .ok new) (hset : c.setValue path new = .ok c')
    (hinteger : old.long?.isSome = true) :
    ∃ root rest, r.Counted operation c old new root rest c' := by
  have hshifted : old.shifted? operation.delta = some new := by
    cases hnone : old.shifted? operation.delta with
    | none =>
      obtain ⟨fault, hfault, -⟩ := Semantics.step_out_of_range hoperation hinteger hnone
      rw [hcore, hfault] at hstep
      cases hstep
    | some next =>
      rw [hcore, Semantics.step_of_shifted? hoperation hnone] at hstep
      rw [Except.ok.inj hstep]
  have hnumber := Value.isNumber_of_shifted? hshifted
  have hnumber' := Value.isNumber_of_shifted? (Value.shifted?_neg hshifted)
  obtain ⟨d, hd, hbefore, hafter⟩ := stepAt_opposite hcore hoperation hread hshifted hset
  have hcanonical' : c.Canonical → c'.Canonical :=
    fun hcanonical => hcanonical.setValue (.of_isNumber hnumber') hset
  obtain ⟨root, rest, w, rfl, hchanged, rfl⟩ := Context.exists_of_setValue hset
  have hassigned := Context.assigned_of_changed? hchanged
  have hcore' := hassigned.semantics_eq.trans hcore
  have hpath' := h.keys_assigned hcore hpath w
  have hopposite := operation.isStep_opposite.trans hoperation
  refine ⟨root, rest, ?_⟩
  constructor
  case shifted => exact hshifted
  case keys => rw [h.keys_eq hcore, hpath]
  case assigned => exact hassigned
  case reads => rw [h.evaluate_eq hcore' hpath', hassigned.reads]
  case canonical => exact hcanonical'
  case undone =>
    rw [h.evaluate_step_eq hcore' hopposite .before hpath',
      h.evaluate_step_eq hcore' hopposite .after hpath']
    exact ⟨d, hbefore, hafter, hd, fun hcanonical => hcanonical.setValue_read hread hnumber hd⟩

end Stable

/-- What a step on a reference does, in both fixes. -/
structure StepLaw (r : Node) (operation : Operation) (c : Context) : Prop where
  /-- the fixes succeed together, and both have done nothing if they fail -/
  fixes :
    (∃ old new c', r.evaluate c = (.ok old, c) ∧
      (unary operation .before r).evaluate c = (.ok new, c') ∧
      (unary operation .after r).evaluate c = (.ok old, c') ∧
      (old.long?.isSome = true → ∃ root rest, r.Counted operation c old new root rest c')) ∨
    ∃ fault, ∀ fix, (unary operation fix r).evaluate c = (.error fault, c)
  /-- an integer is not stepped out of the range of its type -/
  range : ∀ old, (r.evaluate c).1 = .ok old → old.long?.isSome = true →
    old.shifted? operation.delta = none →
    ∃ fault, fault.kind = .conversion ∧
      ∀ fix, (unary operation fix r).evaluate c = (.error fault, c)

theorem Stable.stepLaw {r : Node} (h : r.Stable) {operation : Operation}
    (hoperation : operation.isStep = true) {c : Context} (hcore : c.semantics = Semantics.core) :
    r.StepLaw operation c := by
  cases hpath : (r.keys c).1 with
  | error fault =>
    have hkeys : r.keys c = (.error fault, c) := by rw [h.keys_eq hcore, hpath]
    constructor
    case fixes =>
      refine .inr ⟨fault, fun fix => ?_⟩
      rw [evaluate_step_reference h.reference hoperation, Eval.bind_apply, hkeys]
    case range =>
      intro old hread
      obtain ⟨path, hkeys'⟩ := h.exists_path hcore hread
      rw [hpath] at hkeys'
      cases hkeys'
  | ok path =>
    constructor
    case fixes =>
      rcases stepAt_fixes operation path c with ⟨old, new, c', hread, hstep, hset⟩ | ⟨fault, hfails⟩
      · obtain ⟨hbefore, hafter⟩ := stepAt_of_ok hread hstep hset
        refine .inl ⟨old, new, c', ?_, ?_, ?_, ?_⟩
        · rw [h.evaluate_eq hcore hpath, hread]
        · rw [h.evaluate_step_eq hcore hoperation .before hpath, hbefore]
        · rw [h.evaluate_step_eq hcore hoperation .after hpath, hafter]
        · exact h.counted hoperation hcore hpath hread hstep hset
      · refine .inr ⟨fault, fun fix => ?_⟩
        rw [h.evaluate_step_eq hcore hoperation fix hpath, hfails]
    case range =>
      intro old hread hinteger hnone
      have hvalue : c.getValue path = .ok old := by
        rw [← hread, h.evaluate_eq hcore hpath]
      obtain ⟨fault, hfault, hkind⟩ := Semantics.step_out_of_range hoperation hinteger hnone
      refine ⟨fault, hkind, fun fix => ?_⟩
      rw [h.evaluate_step_eq hcore hoperation fix hpath, stepAt_eq, hvalue, hcore]
      simp only [hfault]

end Node

namespace Grammar

/-- Over the core semantics, let a reference in a tree that was parsed have index expressions that
step nothing and do not refer to its variable.  Then its prefix and postfix steps succeed together
with the same context, or fail together with the same fault and no change.  A step that takes an
integer to another one is exact, changes one place, and is undone by the opposite step; a step that
would leave the range of the type fails in a conversion. -/
theorem KeepsCore.evaluate_steps {g : Grammar} (hkeeps : g.KeepsCore) {construct : Construct}
    (hconstruct : construct ∈ Construct.core) {start stop : Cursor} {n r : Node}
    (hparse : (g.parse construct).Gives start n stop) (hr : r ∈ n.references)
    (hsteps : r.stepped = []) (hroot : ∀ node ∈ r.inner, node.root? ≠ r.root?)
    {operation : Operation} (hoperation : operation.isStep = true) {c : Context}
    (hcore : c.semantics = Semantics.core) : r.StepLaw operation c := by
  have hrooted := hkeeps.rooted_of_parse hconstruct hparse
  obtain ⟨hreference, hrooted⟩ := Node.rooted_references n hrooted r hr
  have hstable : r.Stable := ⟨hreference, hrooted, hsteps, hroot⟩
  exact hstable.stepLaw hoperation hcore

theorem stocked_canonical : stocked.Canonical := by
  have hint : ∀ n : Int32, (Value.int n).Canonical := fun _ => .of_isNumber rfl
  have hcounts : (Value.list [.int 1, .int 2]).Canonical :=
    .list (List.forall_mem_cons.2 ⟨hint 1, List.forall_mem_singleton.2 (hint 2)⟩)
  have hm : (Value.map [("1", .int 5)]).Canonical := Value.Canonical.map_nil.insert (hint 5) "1"
  exact (((Context.Canonical.new .core false).declare hcounts "counts").declare (hint 1) "i").declare
    hm "m"

/-- The tree of `m["1"]`. -/
def namedEntry : Node :=
  .path [.property "m", .index (.literal (.str "1"))]

/-- `m["1"]--` counts the entry down, and `m["1"]++` counts it on again. -/
theorem evaluate_steps_namedEntry :
    ∃ c', (Node.unary .decrement .before namedEntry).evaluate stocked = (.ok (.int 4), c') ∧
      (Node.unary .decrement .after namedEntry).evaluate stocked = (.ok (.int 5), c') ∧
      (Node.unary .increment .after namedEntry).evaluate c' = (.ok (.int 4), stocked) := by
  have hkeeps : core.KeepsCore := keepsCore_of_parsers rfl
  have hparse : (core.parse .expression).Gives
      ⟨[], ⟨BasicKind.identifier, "m", .none⟩,
        [⟨BasicKind.lbracket, "[", .none⟩, ⟨BasicKind.string, "\"1\"", .none⟩,
          ⟨BasicKind.rbracket, "]", .none⟩, ⟨BasicKind.decrement, "--", .none⟩,
          ⟨BasicKind.eof, "", .none⟩]⟩
      (Node.unary .decrement .after namedEntry)
      ⟨[⟨BasicKind.decrement, "--", .none⟩, ⟨BasicKind.rbracket, "]", .none⟩,
        ⟨BasicKind.string, "\"1\"", .none⟩, ⟨BasicKind.lbracket, "[", .none⟩,
        ⟨BasicKind.identifier, "m", .none⟩], ⟨BasicKind.eof, "", .none⟩, []⟩ := rfl
  have hr : namedEntry ∈ (Node.unary .decrement .after namedEntry).references :=
    List.mem_cons_self
  have hroot : ∀ node ∈ namedEntry.inner, node.root? ≠ namedEntry.root? :=
    fun _ hnode => nomatch hnode
  have hlaw : namedEntry.StepLaw .decrement stocked :=
    hkeeps.evaluate_steps (by decide) hparse hr rfl hroot rfl rfl
  have hvalue : (namedEntry.evaluate stocked).1 = .ok (.int 5) := by cbv
  rcases hlaw.fixes with ⟨old, new, c', hread, hbefore, hafter, hcounted⟩ | ⟨fault, hfails⟩
  · rw [hread] at hvalue
    obtain rfl := Except.ok.inj hvalue
    obtain ⟨root, rest, hcounted⟩ := hcounted rfl
    have hnew : (Value.int 5).shifted? Operation.decrement.delta = some (.int 4) := by cbv
    obtain rfl := Option.some.inj (hnew.symm.trans hcounted.shifted)
    obtain ⟨d, -, hundone, -, hsame⟩ := hcounted.undone
    rw [hsame stocked_canonical] at hundone
    exact ⟨c', hbefore, hafter, hundone⟩
  · have hgives : ((Node.unary .decrement .after namedEntry).evaluate stocked).1 =
        .ok (.int 5) := by
      cbv
    rw [hfails .after] at hgives
    cases hgives

end Grammar

end ExprLang
