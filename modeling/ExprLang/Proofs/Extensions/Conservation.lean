import ExprLang.Proofs.Extensions.Replacement

/-!
# What is added changes nothing that works

Handlers, converters and overloads are found in the order in which they were added.  So what is added
to the core semantics is only consulted where the core semantics has no answer, unless an overload is
added under one of its own names; and an evaluation that succeeds over the core semantics has the
same value and the same side effects over the richer one (`Node.evaluate_enriched`).
-/

namespace ExprLang

namespace Semantics

/-- What becomes of a semantics when any handlers and converters are added to it, and functions under
names that it does not have, one after the other in any order. -/
inductive Enriched (base : Semantics) : Semantics → Prop
  | base : Enriched base base
  | addBinary {s : Semantics} (h : Enriched base s) (handler : BinaryHandler) :
    Enriched base (s.addBinary handler)
  | addUnary {s : Semantics} (h : Enriched base s) (handler : UnaryHandler) :
    Enriched base (s.addUnary handler)
  | addConverter {s : Semantics} (h : Enriched base s) (converter : Converter) :
    Enriched base (s.addConverter converter)
  | addFunction {s : Semantics} (h : Enriched base s) (f : Function)
    (hnew : base.functions.contains f.name = false) : Enriched base (s.addFunction f)

/-- Everything in `s` comes first in `t`, and the names of `s` have the same overloads in `t`, with
room for as many calls. -/
structure Leads (s t : Semantics) : Prop where
  binary : s.operators.binary <+: t.operators.binary
  unary : s.operators.unary <+: t.operators.unary
  converters : s.conversion.converters <+: t.conversion.converters
  overloads : ∀ name, s.functions.contains name = true →
    t.functions.overloadsOf name = s.functions.overloadsOf name
  maxDepth : s.functions.maxDepth = t.functions.maxDepth

theorem Enriched.leads {base s : Semantics} (h : base.Enriched s) : base.Leads s := by
  induction h with
  | base => exact ⟨List.prefix_rfl, List.prefix_rfl, List.prefix_rfl, fun _ _ => rfl, rfl⟩
  | addBinary _ handler ih =>
    exact { ih with binary := ih.binary.trans (List.prefix_append _ _) }
  | addUnary _ handler ih =>
    exact { ih with unary := ih.unary.trans (List.prefix_append _ _) }
  | addConverter _ converter ih =>
    exact { ih with converters := ih.converters.trans (List.prefix_append _ _) }
  | addFunction _ f hnew ih =>
    refine { ih with overloads := ?_ }
    intro name hname
    have hne : name ≠ f.name := by
      rintro rfl
      rw [hnew] at hname
      cases hname
    rw [← ih.overloads name hname]
    exact Functions.overloadsOf_add_of_ne hne

namespace Leads

variable {s t : Semantics} (h : s.Leads t)
include h

theorem resolveBinary {operation : Operation} {l r : Value} {handler : BinaryHandler}
    (hfound : s.operators.resolveBinary operation l r = .ok handler) :
    t.operators.resolveBinary operation l r = .ok handler := by
  rw [Operators.resolveBinary] at hfound ⊢
  split at hfound
  · cases hfound
  · rename_i hnull
    rw [if_neg hnull]
    split at hfound
    · rename_i first hfirst
      obtain rfl := Except.ok.inj hfound
      have hsame : (t.operators.binaryHandlers operation).find? (fun h => h.accepts l r) =
          some first := (h.binary.filter _).find?_eq_some hfirst
      rw [hsame]
    · cases hfound

theorem resolveUnary {operation : Operation} {v : Value} {handler : UnaryHandler}
    (hfound : s.operators.resolveUnary operation v = .ok handler) :
    t.operators.resolveUnary operation v = .ok handler := by
  rw [Operators.resolveUnary] at hfound ⊢
  split at hfound
  · rename_i first hfirst
    obtain rfl := Except.ok.inj hfound
    have hsame : (t.operators.unaryHandlers operation).find? (fun h => h.accepts v) =
        some first := (h.unary.filter _).find?_eq_some hfirst
    rw [hsame]
  · cases hfound

theorem resolve {name : String} {args : List Value} {f : Function}
    (hfound : s.functions.resolve name args = .ok f) :
    t.functions.resolve name args = .ok f := by
  have hname : s.functions.contains name = true := by
    rw [Functions.contains, Entries.contains]
    cases hget : s.functions.overloads.get? name with
    | none =>
      rw [Functions.resolve, Functions.overloadsOf, hget] at hfound
      cases hfound
    | some overloads => rfl
  rwa [Functions.resolve, h.overloads name hname]

theorem convert {v w : Value} {target : TypeTag} (hfound : s.conversion.convert v target = .ok w) :
    t.conversion.convert v target = .ok w := by
  rw [Conversion.convert] at hfound ⊢
  split at hfound
  · rename_i hsettled
    rwa [if_pos hsettled]
  · rename_i hsettled
    rw [if_neg hsettled]
    split at hfound
    · rename_i converter hconverter
      rwa [h.converters.find?_eq_some hconverter]
    · cases hfound

theorem applyBinary {operation : Operation} {l r v : Value}
    (happly : s.operators.applyBinary operation l r = .ok v) :
    t.operators.applyBinary operation l r = .ok v := by
  rw [Operators.applyBinary] at happly ⊢
  cases hfound : s.operators.resolveBinary operation l r with
  | error fault =>
    rw [hfound] at happly
    cases happly
  | ok handler =>
    rw [hfound] at happly
    rwa [h.resolveBinary hfound]

theorem applyUnary {operation : Operation} {v w : Value}
    (happly : s.operators.applyUnary operation v = .ok w) :
    t.operators.applyUnary operation v = .ok w := by
  rw [Operators.applyUnary] at happly ⊢
  cases hfound : s.operators.resolveUnary operation v with
  | error fault =>
    rw [hfound] at happly
    cases happly
  | ok handler =>
    rw [hfound] at happly
    rwa [h.resolveUnary hfound]

theorem step {operation : Operation} {old updated : Value}
    (hstep : s.step operation old = .ok updated) : t.step operation old = .ok updated := by
  rw [Semantics.step] at hstep ⊢
  cases hfound : s.operators.resolveUnary operation old with
  | error fault =>
    rw [hfound] at hstep
    cases hstep
  | ok handler =>
    rw [hfound] at hstep
    rw [h.resolveUnary hfound]
    cases hstepped : handler.apply old with
    | error fault =>
      simp only [hstepped] at hstep
      cases hstep
    | ok stepped =>
      simp only [hstepped] at hstep ⊢
      cases hconverted : s.conversion.convert stepped old.tag with
      | error fault =>
        simp only [Bind.bind, Except.bind, hconverted] at hstep
        cases hstep
      | ok converted =>
        simp only [Bind.bind, Except.bind, hconverted] at hstep
        simp only [Bind.bind, Except.bind, h.convert hconverted]
        exact hstep

/-- Where what comes first succeeds, the rest is not consulted, if its functions ask for operators
and conversions only. -/
theorem replaceable
    (htransparent : ∀ name, ∀ f ∈ s.functions.overloadsOf name, f.Transparent) :
    s.Replaceable (fun _ => True) t where
  step _ _ := .of_ok fun _ => h.step
  unary _ _ := .of_ok fun _ => h.applyUnary
  binary _ _ _ := .of_ok fun _ => h.applyBinary
  call := by
    rintro c rfl name args
    apply Functions.call_matches htransparent
    case hresolve => exact fun _ _ => .of_ok fun _ => h.resolve
    case hoperate => exact fun _ _ _ => .of_ok fun _ => h.applyBinary
    case hconvert => exact fun _ _ => .of_ok fun _ => h.convert
    case hdepth => exact h.maxDepth

end Leads

end Semantics

/-- What has a value over the core semantics has the same value over every semantics that adds to
it, and leaves the same variables. -/
theorem Node.evaluate_enriched (n : Node) {s : Semantics} (hs : Semantics.core.Enriched s)
    (c : Context) {v : Value} (hv : (n.evaluate (c.withSemantics .core)).1 = .ok v) :
    (n.evaluate (c.withSemantics s)).1 = .ok v ∧
      (n.evaluate (c.withSemantics s)).2 =
        (n.evaluate (c.withSemantics .core)).2.withSemantics s := by
  have hreplaceable := hs.leads.replaceable Functions.core_transparent
  cases hreplaceable.evaluate n (c := c.withSemantics .core) rfl with
  | inl hsame => exact ⟨hsame.1.symm.trans hv, hsame.2⟩
  | inr hexcused =>
    obtain ⟨fault, hfault, -⟩ := hexcused
    rw [hfault] at hv
    cases hv

/-- The core semantics with handlers for all operands, another way from integers to texts, and one
more function. -/
def Semantics.generous : Semantics :=
  (((core.addBinary ⟨.add, .any, .any, fun a _ => .ok a⟩).addUnary
    ⟨.increment, .any, .ok⟩).addConverter ⟨.int, .string, fun _ => .ok (.str "many")⟩).addFunction
    ⟨"twice", .fixed [.any], fun _ args => .ok (.list (args ++ args))⟩

theorem Semantics.generous_enriched : core.Enriched generous :=
  ((((Enriched.base).addBinary _).addUnary _).addConverter _).addFunction _ rfl

/-- The tree of `str(x++) + max(x, 2)`. -/
def Node.countText : Node :=
  .binary .add (.call "str" [.unary .increment .after (.name "x" none)])
    (.call "max" [.name "x" none, .literal (.int 2)])

/-- With 5 for `x`, the value of `str(x++) + max(x, 2)` is `56` over the generous semantics as well,
and 6 is left for `x`. -/
theorem Node.evaluate_generous_countText :
    Semantics.core.Enriched .generous ∧
      (countText.evaluate ⟨[("x", .int 5)], [], true, .core⟩).1 = .ok (.str "56") ∧
      (countText.evaluate ⟨[("x", .int 5)], [], true, .generous⟩).1 = .ok (.str "56") ∧
      (countText.evaluate ⟨[("x", .int 5)], [], true, .generous⟩).2.globals = [("x", .int 6)] := by
  have hcore : countText.evaluate ⟨[("x", .int 5)], [], true, .core⟩ =
      (.ok (.str "56"), ⟨[("x", .int 6)], [], true, .core⟩) := by cbv
  have hv : (countText.evaluate ⟨[("x", .int 5)], [], true, .core⟩).1 = .ok (.str "56") := by
    rw [hcore]
  obtain ⟨hvalue, hvariables⟩ := countText.evaluate_enriched Semantics.generous_enriched
    ⟨[("x", .int 5)], [], true, .core⟩ hv
  refine ⟨Semantics.generous_enriched, hv, hvalue, ?_⟩
  have hglobals := congrArg Context.globals hvariables
  exact hglobals.trans (congrArg (fun run => run.2.globals) hcore)

end ExprLang
