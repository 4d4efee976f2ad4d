import ExprLang.Proofs.Effects.Correspondence

/-!
# Evaluations over the core semantics side by side

A tree reads and writes variables through its references, and asks the core semantics for nothing
that depends on the context.  So two contexts that agree about the variables that a tree refers to
give the same result, and they agree about these variables afterwards
(`Simulation.evaluate_parallel`).  The first of the two runs may also end early, with an error that
comes from reading an absent location.
-/

namespace ExprLang

/-- A relation between the contexts of two runs that use allowed variables only.  Reading what is
absent may end the first run alone, with an error that is excused. -/
structure Simulation where
  Related : Context → Context → Prop
  Excused : Fault → Prop
  Allowed : String → Prop
  core : ∀ {c d : Context}, Related c d →
    c.semantics = Semantics.core ∧ d.semantics = Semantics.core
  lookup : ∀ {c d : Context} {name : String}, Related c d → Allowed name →
    c.lookup? name = d.lookup? name
  missing : ∀ {c d : Context}, Related c d → ∀ path,
    c.missing path = d.missing path ∨ ∃ fault, c.missing path = .error fault ∧ Excused fault
  assign : ∀ {c d : Context} {name : String}, Related c d → Allowed name → ∀ w,
    Related (c.assign name w) (d.assign name w)

namespace Simulation

variable {S : Simulation} {α : Type}

/-- Over the core semantics both runs are given the same, whatever they ask for. -/
def toCorrespondence (S : Simulation) : Correspondence where
  Related := S.Related
  Excused := S.Excused
  Allowed := S.Allowed
  lookup := S.lookup
  missing := S.missing
  assign := S.assign
  step := by
    intro c d hrelated operation v
    rw [(S.core hrelated).1, (S.core hrelated).2]
    exact .refl _ _
  unary := by
    intro c d hrelated operation v
    rw [(S.core hrelated).1, (S.core hrelated).2]
    exact .refl _ _
  binary := by
    intro c d hrelated operation l r
    rw [(S.core hrelated).1, (S.core hrelated).2]
    exact .refl _ _
  call := by
    intro c d hrelated name args
    obtain ⟨hc, hd⟩ := S.core hrelated
    left
    rw [Context.call, Context.call, hc, hd]
    apply Functions.call_core
    · rw [Context.services, Context.services, hc, hd]
    · rw [Context.services, Context.services, hc, hd]

/-- Runs from related contexts have the same result and leave related contexts, unless the first one
ends with an excused error. -/
def Parallel (S : Simulation) (p : Eval α) : Prop :=
  S.toCorrespondence.Parallel p

/-- The references belong to allowed variables.  One whose variable only shows when its index
expressions are evaluated needs all variables to be allowed. -/
def Admits (S : Simulation) (references : List Node) : Prop :=
  ExprLang.Admits S.Allowed references

/-- Evaluations of a tree run in parallel if the tree refers to allowed variables only. -/
theorem evaluate_parallel (n : Node) (h : S.Admits n.references) : S.Parallel n.evaluate :=
  S.toCorrespondence.evaluate_parallel n h

theorem keys_parallel (segments : List Segment) (h : S.Admits (Segment.references segments)) :
    S.Parallel (Segment.keys segments) :=
  S.toCorrespondence.compositional.keys segments h

end Simulation

end ExprLang
