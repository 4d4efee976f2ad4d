import ExprLang.Proofs.Effects.Correspondence

/-!
# Another semantics for the same variables

If the answers of one semantics match those of another, then an evaluation may be moved from the one
to the other: it has the same result and leaves the same variables, unless it ends with an error that
is excused (`Semantics.Replaceable.evaluate`).
-/

namespace ExprLang

theorem Context.withSemantics_assign (c : Context) (s : Semantics) (name : String) (w : Value) :
    (c.withSemantics s).assign name w = (c.assign name w).withSemantics s := by
  by_cases hany : c.inner.any (Entries.contains name) = true
  · simp [assign, withSemantics, home, hany]
  · simp [assign, withSemantics, hany]

/-- Over `s` and over `t`, runs from the same variables have related results and leave the same
variables. -/
def Semantics.RunAlike {α : Type} (R : α → α → Prop) (s t : Semantics)
    (run other : Context → α × Context) : Prop :=
  ∀ c : Context, R (run (c.withSemantics s)).1 (other (c.withSemantics t)).1 ∧
    (other (c.withSemantics t)).2 = (run (c.withSemantics s)).2.withSemantics t

/-- Two semantics that find the same operators and conversions. -/
structure Semantics.SameDispatch (s t : Semantics) : Prop where
  resolveBinary : s.operators.resolveBinary = t.operators.resolveBinary
  resolveUnary : s.operators.resolveUnary = t.operators.resolveUnary
  convert : s.conversion.convert = t.conversion.convert

namespace Semantics.SameDispatch

variable {s t : Semantics} (h : s.SameDispatch t)
include h

theorem applyBinary : s.operators.applyBinary = t.operators.applyBinary := by
  funext operation l r
  rw [Operators.applyBinary, Operators.applyBinary, h.resolveBinary]

theorem applyUnary : s.operators.applyUnary = t.operators.applyUnary := by
  funext operation v
  rw [Operators.applyUnary, Operators.applyUnary, h.resolveUnary]

theorem step : s.step = t.step := by
  funext operation v
  rw [Semantics.step, Semantics.step, h.resolveUnary, h.convert]

/-- Bodies see the same, and the same may be asked for but for calls. -/
theorem services (c : Context) (hc : c.semantics = s) : c.services = (c.withSemantics t).services := by
  subst hc
  rw [Context.services, h.applyBinary, h.resolveUnary, h.convert]
  rfl

end Semantics.SameDispatch

/-- What an evaluation is given over `s` matches what it is given over `t`. -/
structure Semantics.Replaceable (s : Semantics) (Excused : Fault → Prop) (t : Semantics) : Prop where
  step : ∀ operation v, Matches Excused (s.step operation v) (t.step operation v)
  unary : ∀ operation v,
    Matches Excused (s.operators.applyUnary operation v) (t.operators.applyUnary operation v)
  binary : ∀ operation l r,
    Matches Excused (s.operators.applyBinary operation l r) (t.operators.applyBinary operation l r)
  call : ∀ c : Context, c.semantics = s → ∀ name args,
    Matches Excused (c.call name args) ((c.withSemantics t).call name args)

namespace Semantics.Replaceable

variable {Excused : Fault → Prop} {s t : Semantics}

/-- A context corresponds to the context with the same variables over the other semantics. -/
def correspondence (h : s.Replaceable Excused t) : Correspondence where
  Related c d := c.semantics = s ∧ d = c.withSemantics t
  Excused := Excused
  Allowed _ := True
  lookup := by
    rintro c _ name ⟨-, rfl⟩ -
    rfl
  missing := by
    rintro c _ ⟨-, rfl⟩ path
    exact .refl _ _
  assign := by
    rintro c _ name ⟨hc, rfl⟩ - w
    exact ⟨(c.semantics_assign name w).trans hc, c.withSemantics_assign t name w⟩
  step := by
    rintro c _ ⟨rfl, rfl⟩
    exact h.step
  unary := by
    rintro c _ ⟨rfl, rfl⟩
    exact h.unary
  binary := by
    rintro c _ ⟨rfl, rfl⟩
    exact h.binary
  call := by
    rintro c _ ⟨hc, rfl⟩
    exact h.call c hc

/-- The evaluation over the other semantics has the same result and leaves the same variables. -/
theorem evaluate (h : s.Replaceable Excused t) (n : Node) {c : Context} (hc : c.semantics = s) :
    ((n.evaluate c).1 = (n.evaluate (c.withSemantics t)).1 ∧
      (n.evaluate (c.withSemantics t)).2 = (n.evaluate c).2.withSemantics t) ∨
      ∃ fault, (n.evaluate c).1 = .error fault ∧ Excused fault := by
  have hparallel := h.correspondence.evaluate_parallel n (fun _ _ _ _ => trivial) c
    (c.withSemantics t) ⟨hc, rfl⟩
  exact hparallel.imp_left fun hsame => ⟨hsame.1, hsame.2.2⟩

end Semantics.Replaceable

end ExprLang
