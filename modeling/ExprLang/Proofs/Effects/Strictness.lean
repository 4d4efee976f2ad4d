import ExprLang.Proofs.Effects.Simulation

/-!
# Strictness

Strictness decides about absent locations and about nothing else.  An evaluation in a strict context
either fails because of something unresolved, or it does what the evaluation does in the same
context that is not strict (`Node.evaluate_twins`).
-/

namespace ExprLang

namespace Context

/-- Contexts over the core semantics that are equal but that only the first one is strict. -/
structure Twins (strict lax : Context) : Prop where
  semantics_eq : lax.semantics = Semantics.core
  lax_eq : lax.strict = false
  strict_eq : strict = lax.setStrict true

theorem setStrict_assign (c : Context) (name : String) (w : Value) (strict : Bool) :
    (c.setStrict strict).assign name w = (c.assign name w).setStrict strict := by
  by_cases hany : c.inner.any (Entries.contains name) = true
  · simp [assign, setStrict, home, hany]
  · simp [assign, setStrict, hany]

theorem Twins.assign {strict lax : Context} (h : Twins strict lax) (name : String) (w : Value) :
    Twins (strict.assign name w) (lax.assign name w) where
  semantics_eq := (lax.semantics_assign name w).trans h.semantics_eq
  lax_eq := (lax.strict_assign name w).trans h.lax_eq
  strict_eq := by rw [h.strict_eq, setStrict_assign]

end Context

/-- The simulation of a strict run by the one that is not. -/
def Simulation.strictness : Simulation where
  Related := Context.Twins
  Excused fault := fault.kind = .unresolved
  Allowed _ := True
  core h := ⟨h.strict_eq ▸ h.semantics_eq, h.semantics_eq⟩
  lookup h _ := by rw [h.strict_eq]; rfl
  missing h path := Or.inr ⟨.cannotResolve path, by rw [h.strict_eq]; rfl, rfl⟩
  assign h _ w := h.assign _ w

/-- A strict evaluation and one that is not have the same result and leave contexts that differ in
strictness only, unless the strict one fails because something is unresolved.  So if the strict one
succeeds, the other one gives the same value and writes the same. -/
theorem Node.evaluate_twins (n : Node) {strict lax : Context} (h : strict.Twins lax) :
    (((n.evaluate strict).1 = (n.evaluate lax).1 ∧ (n.evaluate strict).2.Twins (n.evaluate lax).2) ∨
      ∃ fault, (n.evaluate strict).1 = .error fault ∧ fault.kind = .unresolved) ∧
    ∀ v, (n.evaluate strict).1 = .ok v →
      (n.evaluate lax).1 = .ok v ∧ (n.evaluate strict).2 = (n.evaluate lax).2.setStrict true := by
  have hadmits : Simulation.strictness.Admits n.references := fun _ _ _ _ => trivial
  have hparallel := Simulation.evaluate_parallel n hadmits strict lax h
  constructor
  · exact hparallel
  · intro v hv
    cases hparallel with
    | inl hsame => exact ⟨hsame.1 ▸ hv, hsame.2.strict_eq⟩
    | inr hfault =>
      obtain ⟨fault, hfault, -⟩ := hfault
      rw [hfault] at hv
      cases hv

/-- A list and the position of its first item. -/
def Context.listed (strict : Bool) : Context :=
  ⟨[("i", .int 0), ("items", .list [.int 10, .int 20])], [], strict, .core⟩

/-- The tree of `items[i++]`. -/
def Node.nextItem : Node :=
  .path [.property "items", .index (.unary .increment .after (.name "i" none))]

/-- Strictly or not, `items[i++]` reads the first item and moves on to the next. -/
theorem Node.evaluate_twins_listed :
    (Context.listed true).Twins (Context.listed false) ∧
      (nextItem.evaluate (Context.listed true)).1 = .ok (.int 10) ∧
      (nextItem.evaluate (Context.listed false)).1 = .ok (.int 10) ∧
      (nextItem.evaluate (Context.listed true)).2 =
        (nextItem.evaluate (Context.listed false)).2.setStrict true := by
  have htwins : (Context.listed true).Twins (Context.listed false) := ⟨rfl, rfl, rfl⟩
  have hstrict : (nextItem.evaluate (Context.listed true)).1 = .ok (.int 10) := by cbv
  exact ⟨htwins, hstrict, (nextItem.evaluate_twins htwins).2 _ hstrict⟩

end ExprLang
