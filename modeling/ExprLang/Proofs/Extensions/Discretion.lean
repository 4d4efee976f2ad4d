import ExprLang.Proofs.Extensions.Replacement

/-!
# Bodies that do not tell alike errors apart

The error of a call that no overload accepts lists the overloads, and a body that calls functions is
given it.  A body is discreet if alike errors are all the same to it, that is, if it gives the same
value or alike errors wherever the calls that it makes do so (`Function.Discreet`).  What counts as
alike is open, apart from the listed overloads, which make no difference, and the kind, which does.
If discreet functions are found in two semantics for the same calls, then a tree has the same value
or alike errors over both, and it leaves the same variables (`Semantics.Like.evaluate`).
-/

namespace ExprLang

/-! ## Errors that are alike -/

/-- A likeness of the causes of errors.  It overlooks the overloads that a call could not take and
keeps kinds apart. -/
structure Fault.Likeness where
  Like : Fault → Fault → Prop
  refl : ∀ fault, Like fault fault
  candidates : ∀ name given xs ys, Like (.noOverload name given xs) (.noOverload name given ys)
  kind : ∀ {a b}, Like a b → a.kind = b.kind

namespace Fault

/-- The cause without the overloads that a call could not take. -/
def withoutCandidates : Fault → Fault
  | noOverload name given _ => noOverload name given []
  | fault => fault

theorem kind_withoutCandidates (fault : Fault) : fault.withoutCandidates.kind = fault.kind := by
  cases fault <;> rfl

namespace Likeness

/-- The finest likeness: nothing is overlooked but the overloads that a call could not take. -/
def finest : Likeness where
  Like a b := a.withoutCandidates = b.withoutCandidates
  refl _ := rfl
  candidates _ _ _ _ := rfl
  kind {a b} h := by
    rw [← a.kind_withoutCandidates, h, b.kind_withoutCandidates]

/-- The coarsest likeness: nothing but the kind counts. -/
def coarsest : Likeness where
  Like a b := a.kind = b.kind
  refl _ := rfl
  candidates _ _ _ _ := rfl
  kind h := h

variable (L : Likeness)

/-- The same error, or the errors of two evaluations with alike causes. -/
inductive LikeError : Error → Error → Prop
  | refl (e : Error) : LikeError e e
  | of {a b : Fault} (h : L.Like a b) : LikeError (.of a) (.of b)

end Likeness

end Fault

/-- The same value, or errors that are related. -/
inductive SameUpTo {ε α : Type} (R : ε → ε → Prop) : Except ε α → Except ε α → Prop
  | ok (a : α) : SameUpTo R (.ok a) (.ok a)
  | error {e d : ε} (h : R e d) : SameUpTo R (.error e) (.error d)

namespace SameUpTo

variable {ε δ α β : Type} {R : ε → ε → Prop} {x y : Except ε α}

theorem refl (hR : ∀ e, R e e) (x : Except ε α) : SameUpTo R x x := by
  cases x with
  | ok a => exact .ok a
  | error e => exact .error (hR e)

theorem bind {f g : α → Except ε β} (h : SameUpTo R x y)
    (hfg : ∀ a, x = .ok a → SameUpTo R (f a) (g a)) : SameUpTo R (x >>= f) (y >>= g) := by
  cases h with
  | ok a => exact hfg a rfl
  | error h => exact .error h

theorem mapError {S : δ → δ → Prop} {f : ε → δ} (h : SameUpTo R x y)
    (hf : ∀ {e d}, R e d → S (f e) (f d)) : SameUpTo S (x.mapError f) (y.mapError f) := by
  cases h with
  | ok a => exact .ok a
  | error h => exact .error (hf h)

end SameUpTo

/-! ## Bodies -/

section

variable (L : Fault.Likeness)

/-- Bodies see and are given the same in two places, or alike errors by the calls that they make. -/
structure Services.Like (s t : Services) : Prop where
  view : s.view = t.view
  call : ∀ view name args, SameUpTo L.Like (s.call view name args) (t.call view name args)
  operate : s.operate = t.operate
  operateUnary : s.operateUnary = t.operateUnary
  convert : s.convert = t.convert

/-- The body does not tell alike errors apart. -/
def Function.Discreet (f : Function) : Prop :=
  ∀ s t : Services, s.Like L t → ∀ args, SameUpTo L.Like (f.body s args) (f.body t args)

/-- All functions that can be found are discreet. -/
def Functions.Discreet (fs : Functions) : Prop :=
  ∀ name, ∀ f ∈ fs.overloadsOf name, f.Discreet L

end

section

variable {L : Fault.Likeness}

/-- A body that asks for operators and conversions only is discreet. -/
theorem Function.Transparent.discreet {f : Function} (h : f.Transparent) : f.Discreet L := by
  intro s t hlike args
  have hsame : f.body s args = f.body t args := by
    apply Matches.eq
    apply h
    · exact fun _ _ _ => hlike.operate ▸ .refl _ _
    · exact fun _ _ => hlike.convert ▸ .refl _ _
  exact hsame ▸ .refl L.refl _

/-! ## Calls -/

namespace Functions

variable {fs gs : Functions}

/-- Calls inside one another, as deep as they may be. -/
theorem callWithin_like (hdiscreet : fs.Discreet L)
    (hresolve : ∀ name args, SameUpTo L.Like (fs.resolve name args) (gs.resolve name args))
    (services : Services) (depth : Nat) (name : String) (args : List Value) :
    SameUpTo L.Like (fs.callWithin services depth name args)
      (gs.callWithin services depth name args) := by
  induction depth generalizing services name args with
  | zero => exact .refl L.refl _
  | succ depth ih =>
    rw [callWithin, callWithin]
    apply (hresolve name args).bind
    intro f hf
    apply (SameUpTo.refl L.refl _).bind
    intro given _
    apply hdiscreet name f (mem_of_resolve hf)
    exact ⟨rfl, fun view => ih { services with view := view }, rfl, rfl, rfl⟩

end Functions

/-! ## Evaluations -/

variable (L) in
/-- Two semantics that find the same operators and conversions, and discreet functions for the same
calls, with room for as many of them. -/
structure Semantics.Like (s t : Semantics) : Prop extends s.SameDispatch t where
  maxDepth : s.functions.maxDepth = t.functions.maxDepth
  resolve : ∀ name args,
    SameUpTo L.Like (s.functions.resolve name args) (t.functions.resolve name args)
  discreet : s.functions.Discreet L

variable (L) in
/-- Wherever it is run over `s`, the computation has the same value over `t` or an alike error, and
it leaves the same variables. -/
def Eval.Portable {α : Type} (s t : Semantics) (p : Eval α) : Prop :=
  ∀ c : Context, c.semantics = s →
    SameUpTo L.Like (p c).1 (p (c.withSemantics t)).1 ∧
      (p c).2.semantics = s ∧ (p (c.withSemantics t)).2 = (p c).2.withSemantics t

namespace Eval

variable {s t : Semantics} {α β : Type}

theorem portable_ask {f : Context → Except Fault α}
    (h : ∀ c, c.semantics = s → SameUpTo L.Like (f c) (f (c.withSemantics t))) :
    Portable L s t (ask f) :=
  fun c hc => ⟨h c hc, hc, rfl⟩

theorem portable_lift (result : Except Fault α) : Portable L s t (lift result) :=
  fun _ hc => ⟨.refl L.refl _, hc, rfl⟩

theorem Portable.bind {p : Eval α} {f : α → Eval β} (hp : Portable L s t p)
    (hf : ∀ a c, (p c).1 = .ok a → Portable L s t (f a)) : Portable L s t (p >>= f) := by
  intro c hc
  rw [bind_apply, bind_apply]
  obtain ⟨hresult, hsemantics, hleft⟩ := hp c hc
  have hrest := fun a => hf a c
  rcases hs : p c with ⟨result, c'⟩
  rcases ht : p (c.withSemantics t) with ⟨result', d'⟩
  rw [hs, ht] at hresult hleft
  rw [hs] at hsemantics hrest
  obtain rfl : d' = c'.withSemantics t := hleft
  cases hresult with
  | ok a => exact hrest a rfl c' hsemantics
  | error h => exact ⟨.error h, hsemantics, rfl⟩

theorem portable_setValue (path : Path) (value : Value) :
    Portable L s t (change fun c => c.setValue path value) := by
  intro c hc
  rw [change, change]
  cases path with
  | nil => exact ⟨.error (L.refl _), hc, rfl⟩
  | cons key rest =>
    cases key with
    | index n => exact ⟨.error (L.refl _), hc, rfl⟩
    | property root =>
      rw [Context.setValue_eq, Context.setValue_eq]
      have hchanged : (c.withSemantics t).changed? root rest value =
          c.changed? root rest value := rfl
      rw [hchanged]
      cases c.changed? root rest value with
      | none => exact ⟨.refl L.refl _, hc, rfl⟩
      | some w =>
        exact ⟨.ok (), (c.semantics_assign root w).trans hc, c.withSemantics_assign t root w⟩

end Eval

namespace Semantics.Like

variable {s t : Semantics} (h : s.Like L t)
include h

theorem call {c : Context} (hc : c.semantics = s) (name : String) (args : List Value) :
    SameUpTo L.Like (c.call name args) ((c.withSemantics t).call name args) := by
  rw [Context.call, Context.call, Functions.call, ← h.services c hc, hc, h.maxDepth]
  exact Functions.callWithin_like h.discreet h.resolve _ _ name args

theorem compositional :
    Eval.Compositional (fun _ => True) (fun _ => True) fun _ p => Eval.Portable L s t p where
  pure a := Eval.portable_lift (.ok a)
  bind hp hf := hp.bind hf
  key v := Eval.portable_lift (PathKey.ofValue v)
  condition v := Eval.portable_lift (.error (.conditionNotBool v))
  read _ _ := Eval.portable_ask fun _ _ => .refl L.refl _
  write path _ v := Eval.portable_setValue path v
  step operation v := by
    apply Eval.portable_ask
    rintro c rfl
    rw [h.step]
    exact .refl L.refl _
  unary operation v := by
    apply Eval.portable_ask
    rintro c rfl
    rw [h.applyUnary]
    exact .refl L.refl _
  binary operation l r := by
    apply Eval.portable_ask
    rintro c rfl
    rw [h.applyBinary]
    exact .refl L.refl _
  call name args := Eval.portable_ask fun _ hc => h.call hc name args

/-- A tree has the same value over both, or alike errors, and leaves the same variables. -/
theorem evaluate (n : Node) : s.RunAlike (SameUpTo L.Like) t n.evaluate n.evaluate := by
  intro c
  obtain ⟨hresult, -, hleft⟩ :=
    h.compositional.evaluate n (fun _ _ _ _ => trivial) (c.withSemantics s) rfl
  exact ⟨hresult, hleft⟩

/-- What is found does not depend on the room for calls. -/
theorem setMaxDepth (depth : Nat) : (s.setMaxDepth depth).Like L (t.setMaxDepth depth) where
  resolveBinary := h.resolveBinary
  resolveUnary := h.resolveUnary
  convert := h.convert
  maxDepth := rfl
  resolve := h.resolve
  discreet := h.discreet

end Semantics.Like

end

end ExprLang
