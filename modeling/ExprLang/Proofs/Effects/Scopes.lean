import ExprLang.Proofs.Effects.Correspondence

/-!
# Scopes

An empty innermost frame binds no name, so nothing is looked up or assigned there, and evaluations
declare no names.  Only a function that looks at the frames itself could notice a new scope around an
evaluation, and no library function does.  So over the core semantics the result is the same and the
same frames are left, wherever the evaluation ends (`Node.evaluate_withScope`).
-/

namespace ExprLang

namespace Context

/-- A name is assigned outside the empty frame, which does not bind it. -/
theorem assign_push (c : Context) (name : String) (w : Value) :
    c.push.assign name w = (c.assign name w).push := by
  have hempty : ¬ Entries.contains name ([] : Frame) = true := Bool.false_ne_true
  rw [push, assign_of_not_contains hempty, push]

end Context

/-- A context corresponds to itself with an empty frame inside, if its functions ask for operators
and conversions only. -/
def Correspondence.scope {s : Semantics}
    (h : ∀ name, ∀ f ∈ s.functions.overloadsOf name, f.Transparent) : Correspondence where
  Related c d := c.semantics = s ∧ d = c.push
  Excused _ := False
  Allowed _ := True
  lookup := by
    rintro c _ name ⟨-, rfl⟩ -
    rfl
  missing := by
    rintro c _ ⟨-, rfl⟩ path
    exact .refl _ _
  assign := by
    rintro c _ name ⟨hc, rfl⟩ - w
    exact ⟨(c.semantics_assign name w).trans hc, c.assign_push name w⟩
  step := by
    rintro c _ ⟨-, rfl⟩ operation v
    exact .refl _ _
  unary := by
    rintro c _ ⟨-, rfl⟩ operation v
    exact .refl _ _
  binary := by
    rintro c _ ⟨-, rfl⟩ operation l r
    exact .refl _ _
  call := by
    rintro c _ ⟨rfl, rfl⟩ name args
    apply Functions.call_matches h
    case hresolve => exact fun _ _ => .refl _ _
    case hoperate => exact fun _ _ _ => .refl _ _
    case hconvert => exact fun _ _ => .refl _ _
    case hdepth => rfl

/-- The empty frame is still there and still empty when the evaluation ends. -/
theorem Node.evaluate_push (n : Node) {c : Context}
    (h : ∀ name, ∀ f ∈ c.semantics.functions.overloadsOf name, f.Transparent) :
    n.evaluate c.push = ((n.evaluate c).1, (n.evaluate c).2.push) := by
  have hparallel :=
    (Correspondence.scope h).evaluate_parallel n (fun _ _ _ _ => trivial) c c.push ⟨rfl, rfl⟩
  cases hparallel with
  | inl hsame => exact Prod.ext hsame.1.symm hsame.2.2
  | inr hfault =>
    obtain ⟨_, _, hfalse⟩ := hfault
    exact hfalse.elim

/-- In a scope of its own, a tree has the result that it has without the scope, be it a value or an
error, and it leaves the same context. -/
theorem Node.evaluate_withScope (n : Node) {c : Context} (hc : c.semantics = .core) :
    c.withScope n.evaluate = n.evaluate c := by
  rw [Context.withScope, n.evaluate_push (hc ▸ Functions.core_transparent)]
  rfl

/-- The tree of `max(++n, 0)`. -/
def Node.stepAndBound : Node :=
  .call "max" [.unary .increment .before (.name "n" none), .literal (.int 0)]

/-- The variable of the globals is stepped through the scope and stays stepped behind it. -/
theorem Node.evaluate_withScope_stepped :
    let c : Context := ⟨[("n", .int 1)], [], false, .core⟩
    c.semantics = .core ∧
      c.withScope stepAndBound.evaluate = (.ok (.int 2), ⟨[("n", .int 2)], [], false, .core⟩) := by
  intro c
  refine ⟨rfl, (stepAndBound.evaluate_withScope rfl).trans ?_⟩
  cbv

/-- Over another semantics, a function may count the frames. -/
example :
    let frames : Function :=
      ⟨"frames", .fixed [], fun services _ => .ok (.ofLength (services.view.over .empty).depth)⟩
    let c : Context := .new (Semantics.empty.addFunction frames) false
    ((Node.call "frames" []).evaluate c).1 = .ok (.int 1) ∧
      (c.withScope (Node.call "frames" []).evaluate).1 = .ok (.int 2) :=
  ⟨rfl, rfl⟩

end ExprLang
