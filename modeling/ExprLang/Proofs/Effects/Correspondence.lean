import ExprLang.Proofs.Effects.Assignment
import ExprLang.Proofs.Effects.Compositional
import ExprLang.Proofs.Effects.Services

/-!
# Evaluations side by side

Two contexts correspond if what an evaluation reads of them and asks them is the same, and if they
still correspond after the same assignment.  Then the evaluations of a tree have the same result in
both, and they leave contexts that correspond (`Correspondence.evaluate_parallel`).  The first of the
two runs may also end early, with an error that is excused.
-/

namespace ExprLang

/-- A relation between the contexts of two runs that use allowed variables only.  What the first run
is given matches what the second run is given. -/
structure Correspondence where
  Related : Context → Context → Prop
  Excused : Fault → Prop
  Allowed : String → Prop
  lookup : ∀ {c d : Context} {name : String}, Related c d → Allowed name →
    c.lookup? name = d.lookup? name
  missing : ∀ {c d : Context}, Related c d → ∀ path,
    Matches Excused (c.missing path) (d.missing path)
  assign : ∀ {c d : Context} {name : String}, Related c d → Allowed name → ∀ w,
    Related (c.assign name w) (d.assign name w)
  step : ∀ {c d : Context}, Related c d → ∀ operation v,
    Matches Excused (c.semantics.step operation v) (d.semantics.step operation v)
  unary : ∀ {c d : Context}, Related c d → ∀ operation v,
    Matches Excused (c.semantics.operators.applyUnary operation v)
      (d.semantics.operators.applyUnary operation v)
  binary : ∀ {c d : Context}, Related c d → ∀ operation l r,
    Matches Excused (c.semantics.operators.applyBinary operation l r)
      (d.semantics.operators.applyBinary operation l r)
  call : ∀ {c d : Context}, Related c d → ∀ name args,
    Matches Excused (c.call name args) (d.call name args)

namespace Correspondence

variable {S : Correspondence} {α β : Type}

/-- Runs from related contexts have the same result and leave related contexts, unless the first one
ends with an excused error. -/
def Parallel (S : Correspondence) (p : Eval α) : Prop :=
  ∀ c d, S.Related c d →
    ((p c).1 = (p d).1 ∧ S.Related (p c).2 (p d).2) ∨
      ∃ fault, (p c).1 = .error fault ∧ S.Excused fault

theorem parallel_lift (result : Except Fault α) : S.Parallel (Eval.lift result) :=
  fun _ _ hrelated => Or.inl ⟨rfl, hrelated⟩

theorem parallel_ask {f : Context → Except Fault α}
    (h : ∀ {c d}, S.Related c d → Matches S.Excused (f c) (f d)) : S.Parallel (Eval.ask f) :=
  fun _ _ hrelated => (h hrelated).imp_left fun heq => ⟨heq, hrelated⟩

theorem Parallel.bind {p : Eval α} {f : α → Eval β} (hp : S.Parallel p)
    (hf : ∀ a c, (p c).1 = .ok a → S.Parallel (f a)) : S.Parallel (p >>= f) := by
  intro c d hrelated
  rw [Eval.bind_apply, Eval.bind_apply]
  have hfirst := hp c d hrelated
  have hsecond := fun a => hf a c
  rcases hc : p c with ⟨result, c'⟩
  rcases hd : p d with ⟨result', d'⟩
  rw [hc, hd] at hfirst
  rw [hc] at hsecond
  cases hfirst with
  | inl hsame =>
    obtain ⟨rfl, hrelated'⟩ := hsame
    cases result with
    | error fault => exact Or.inl ⟨rfl, hrelated'⟩
    | ok a => exact hsecond a rfl c' d' hrelated'
  | inr hexcused =>
    obtain ⟨fault, rfl, hfault⟩ := hexcused
    exact Or.inr ⟨fault, rfl, hfault⟩

section

variable {path : Path} (hpath : path.Admitted S.Allowed)
include hpath

theorem parallel_getValue : S.Parallel (Eval.ask fun c => c.getValue path) := by
  apply parallel_ask
  intro c d hrelated
  cases path with
  | nil => exact .refl _ _
  | cons key rest =>
    cases key with
    | index n => exact .refl _ _
    | property root =>
      rw [Context.getValue, Context.getValue, S.lookup hrelated (hpath root rfl)]
      cases (d.lookup? root).bind fun v => v.fetch? rest with
      | some v => exact .refl _ _
      | none => exact S.missing hrelated _

theorem parallel_setValue (value : Value) :
    S.Parallel (Eval.change fun c => c.setValue path value) := by
  intro c d hrelated
  left
  rw [Eval.change, Eval.change]
  cases path with
  | nil => exact ⟨rfl, hrelated⟩
  | cons key rest =>
    cases key with
    | index n => exact ⟨rfl, hrelated⟩
    | property root =>
      have hroot := hpath root rfl
      have hchanged : c.changed? root rest value = d.changed? root rest value := by
        rw [Context.changed?, Context.changed?, S.lookup hrelated hroot]
      rw [Context.setValue_eq, Context.setValue_eq, hchanged]
      cases d.changed? root rest value with
      | none => exact ⟨rfl, hrelated⟩
      | some w => exact ⟨rfl, S.assign hrelated hroot w⟩

end

theorem compositional (S : Correspondence) :
    Eval.Compositional S.Allowed S.Allowed fun α (p : Eval α) => S.Parallel p where
  pure a := parallel_lift (.ok a)
  bind hp hf := hp.bind hf
  key v := parallel_lift (PathKey.ofValue v)
  condition v := parallel_lift (.error (.conditionNotBool v))
  read _ hpath := parallel_getValue hpath
  write _ hpath v := parallel_setValue hpath v
  step operation v := parallel_ask fun hrelated => S.step hrelated operation v
  unary operation v := parallel_ask fun hrelated => S.unary hrelated operation v
  binary operation l r := parallel_ask fun hrelated => S.binary hrelated operation l r
  call name args := parallel_ask fun hrelated => S.call hrelated name args

/-- Evaluations of a tree run in parallel if the tree refers to allowed variables only. -/
theorem evaluate_parallel (n : Node) (h : Admits S.Allowed n.references) :
    S.Parallel n.evaluate :=
  S.compositional.evaluate n h

end Correspondence

end ExprLang
