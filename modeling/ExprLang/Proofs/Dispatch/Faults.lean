import ExprLang.Proofs.Dispatch.Bodies
import ExprLang.Proofs.Effects.Assignment
import ExprLang.Proofs.Effects.Compositional
import ExprLang.Proofs.Effects.Services

/-!
# Errors of an evaluation

Over the core semantics, an evaluation ends with a value or because no handler or overload fits, a
value cannot be converted, a variable cannot be resolved, or a number does not fit.  Handlers and
bodies that have been found are never at fault themselves (`Semantics.core_dispatch`).
-/

namespace ExprLang

/-! ## Calls -/

namespace Functions

theorem accepts_of_resolve {fs : Functions} {name : String} {args : List Value} {f : Function}
    (h : fs.resolve name args = .ok f) : f.signature.accepts args = true := by
  rw [resolve] at h
  split at h
  · cases h
  · split at h
    · rename_i found hfound
      obtain rfl := Except.ok.inj h
      simpa using List.find?_some hfound
    · cases h

theorem resolve_failsAs (fs : Functions) (name : String) (args : List Value) :
    FailsAs [.function] (fs.resolve name args) := by
  rw [resolve]
  split
  · exact .error List.mem_cons_self
  · split
    · exact .ok _ _
    · exact .error List.mem_cons_self

theorem call_core_failsAs {services : Services}
    (hoperate : services.operate = Operators.core.applyBinary)
    (hconvert : services.convert = Conversion.core.convert) (name : String) (args : List Value) :
    FailsAs [.function, .arithmetic, .conversion] (core.call services name args) := by
  obtain ⟨inner, hinner, hinner', hcall⟩ := call_core_eq services name args
  rw [hcall]
  apply FailsAs.bind
  · exact (core.resolve_failsAs name args).mono (by simp)
  · intro f hresolve
    obtain ⟨given, hgiven, -, hreceives⟩ := f.widened_core (accepts_of_resolve hresolve)
    have hmem : f ∈ Library.all := mem_of_mem_overloadsOf (mem_of_resolve hresolve)
    have hbody := Library.safe_withFallback .blank f hmem inner (hinner.trans hoperate)
      (hinner'.trans hconvert) given hreceives
    rw [hconvert, hgiven]
    exact hbody.mono (by simp)

end Functions

/-! ## Evaluations -/

theorem PathKey.ofValue_failsAs (v : Value) : FailsAs [.conversion] (PathKey.ofValue v) := by
  cases v <;> first | exact .ok _ _ | exact .error List.mem_cons_self

theorem Context.getValue_failsAs (c : Context) (path : Path) :
    FailsAs [.unresolved] (c.getValue path) := by
  have hmissing : FailsAs [.unresolved] (c.missing path) := by
    rw [missing]
    split
    · exact .error List.mem_cons_self
    · exact .ok _ _
  cases path with
  | nil => exact .error List.mem_cons_self
  | cons key rest =>
    cases key with
    | index n => exact .error List.mem_cons_self
    | property root =>
      rw [getValue]
      split
      · exact .ok _ _
      · exact hmissing

theorem Context.setValue_failsAs (c : Context) (path : Path) (v : Value) :
    FailsAs [.unresolved] (c.setValue path v) := by
  cases path with
  | nil => exact .error List.mem_cons_self
  | cons key rest =>
    cases key with
    | index n => exact .error List.mem_cons_self
    | property root =>
      rw [setValue_eq]
      split
      · exact .ok _ _
      · exact .error List.mem_cons_self

theorem Context.semantics_setValue {c d : Context} {path : Path} {v : Value}
    (h : c.setValue path v = .ok d) : d.semantics = c.semantics := by
  obtain ⟨root, rest, w, -, -, rfl⟩ := exists_of_setValue h
  exact c.semantics_assign root w

theorem Semantics.step_core_failsAs (operation : Operation) (v : Value) :
    FailsAs [.arithmetic, .conversion] (core.step operation v) := by
  rw [step]
  split
  · rename_i h hresolve
    obtain ⟨hmem, haccepts⟩ := Operators.accepts_of_resolveUnary hresolve
    apply (Operators.coreUnary_failsAs hmem haccepts).bind
    intro stepped _
    dsimp only
    split
    · exact .ok _ _
    · exact .error (by simp [Fault.kind])
  · exact .error (by simp [Fault.kind])

/-- The kinds of errors with which an evaluation over the core semantics can end. -/
def ErrorKind.evaluated : List ErrorKind :=
  [.operator, .function, .conversion, .unresolved, .arithmetic]

namespace Eval

/-- Over the core semantics, the computation only ends with errors of the kinds for evaluations, and
it keeps the semantics. -/
def Dispatches {α : Type} (p : Eval α) : Prop :=
  ∀ c, c.semantics = .core → FailsAs ErrorKind.evaluated (p c).1 ∧ (p c).2.semantics = .core

variable {α β : Type}

theorem dispatches_lift {result : Except Fault α} (h : FailsAs ErrorKind.evaluated result) :
    Dispatches (lift result) :=
  fun _ hc => ⟨h, hc⟩

theorem dispatches_ask {f : Context → Except Fault α}
    (h : ∀ c, c.semantics = .core → FailsAs ErrorKind.evaluated (f c)) : Dispatches (ask f) :=
  fun c hc => ⟨h c hc, hc⟩

theorem Dispatches.bind {p : Eval α} {f : α → Eval β} (hp : Dispatches p)
    (hf : ∀ a c, (p c).1 = .ok a → Dispatches (f a)) : Dispatches (p >>= f) := by
  intro c hc
  have hfirst := hp c hc
  have hsecond := fun a => hf a c
  rw [bind_apply]
  rcases hrun : p c with ⟨fault | a, c'⟩
  · rw [hrun] at hfirst
    exact ⟨.error (hfirst.1 fault rfl), hfirst.2⟩
  · rw [hrun] at hfirst hsecond
    exact hsecond a rfl c' hfirst.2

theorem dispatches_write (path : Path) (v : Value) :
    Dispatches (change fun c => c.setValue path v) := by
  intro c hc
  have hfails : FailsAs ErrorKind.evaluated (c.setValue path v) :=
    (c.setValue_failsAs path v).mono (by simp [ErrorKind.evaluated])
  rw [change]
  cases hset : c.setValue path v with
  | error fault => exact ⟨.error (hfails fault hset), hc⟩
  | ok d => exact ⟨.ok _ _, (Context.semantics_setValue hset).trans hc⟩

theorem dispatches_compositional :
    Compositional (fun _ => True) (fun _ => True) fun α (p : Eval α) => Dispatches p where
  pure a := dispatches_lift (.ok _ a)
  bind hp hf := hp.bind hf
  key v := dispatches_lift ((PathKey.ofValue_failsAs v).mono (by simp [ErrorKind.evaluated]))
  condition v := dispatches_lift (.error (by simp [Fault.kind, ErrorKind.evaluated]))
  read path _ := by
    apply dispatches_ask
    intro c _
    exact (c.getValue_failsAs path).mono (by simp [ErrorKind.evaluated])
  write path _ v := dispatches_write path v
  step operation v := by
    apply dispatches_ask
    intro c hc
    rw [hc]
    exact (Semantics.step_core_failsAs operation v).mono (by simp [ErrorKind.evaluated])
  unary operation v := by
    apply dispatches_ask
    intro c hc
    rw [hc]
    exact (Operators.applyUnary_core_failsAs operation v).mono (by simp [ErrorKind.evaluated])
  binary operation l r := by
    apply dispatches_ask
    intro c hc
    rw [hc]
    exact (Operators.applyBinary_core_failsAs operation l r).mono (by simp [ErrorKind.evaluated])
  call name args := by
    apply dispatches_ask
    intro c hc
    have hoperate : c.services.operate = Operators.core.applyBinary := by
      rw [Context.services, hc]
      rfl
    have hconvert : c.services.convert = Conversion.core.convert := by
      rw [Context.services, hc]
      rfl
    rw [Context.call, hc]
    exact (Functions.call_core_failsAs hoperate hconvert name args).mono
      (by simp [ErrorKind.evaluated])

end Eval

/-- Dispatch over the core semantics is safe.  An evaluation has a value or an error of one of the
kinds for evaluations.  A core handler that has been found for operands is not at fault for them.  A
library function that has been found for arguments receives them all, each of its declared type
after widening, which does not fail; its body is not at fault for them, and it does not use a
fallback for any of them, whatever the fallback is. -/
theorem Semantics.core_dispatch :
    (∀ (n : Node) (c : Context), c.semantics = core →
      FailsAs [.operator, .function, .conversion, .unresolved, .arithmetic] (n.evaluate c).1) ∧
    (∀ (table : Operators) (operation : Operation) (l r : Value) (h : BinaryHandler),
      table.resolveBinary operation l r = .ok h → h ∈ Operators.coreBinary →
      ∀ fault, h.apply l r = .error fault → fault.kind ≠ .operator) ∧
    (∀ (table : Operators) (operation : Operation) (v : Value) (h : UnaryHandler),
      table.resolveUnary operation v = .ok h → h ∈ Operators.coreUnary →
      ∀ fault, h.apply v = .error fault → fault.kind ≠ .operator) ∧
    ∀ (fs : Functions) (name : String) (args : List Value) (f : Function),
      fs.resolve name args = .ok f → f ∈ Functions.Library.all →
      ∃ given, f.widened Conversion.core.convert 0 args = .ok given ∧
        given.length = args.length ∧ f.signature.Receives given ∧
        (∀ services : Services, services.operate = Operators.core.applyBinary →
          services.convert = Conversion.core.convert →
          ∀ fault, f.body services given = .error fault →
            fault.kind ≠ .function ∧ fault.kind ≠ .operator) ∧
        ∀ fallback g, (f, g) ∈ Functions.Library.all.zip (Functions.Library.withFallback fallback) →
          ∀ services, g.body services given = f.body services given := by
  refine ⟨?_, ?_, ?_, ?_⟩
  · intro n c hc
    exact (Eval.dispatches_compositional.evaluate n (fun _ _ _ _ => trivial) c hc).1
  · intro table operation l r h hresolve hmem fault hfault hkind
    obtain ⟨-, haccepts⟩ := Operators.accepts_of_resolveBinary hresolve
    have hfails := Operators.coreBinary_failsAs hmem haccepts fault hfault
    simp [hkind] at hfails
  · intro table operation v h hresolve hmem fault hfault hkind
    obtain ⟨-, haccepts⟩ := Operators.accepts_of_resolveUnary hresolve
    have hfails := Operators.coreUnary_failsAs hmem haccepts fault hfault
    simp [hkind] at hfails
  · intro fs name args f hresolve hmem
    obtain ⟨given, hgiven, hlength, hreceives⟩ :=
      f.widened_core (Functions.accepts_of_resolve hresolve)
    refine ⟨given, hgiven, hlength, hreceives, ?_, ?_⟩
    · intro services hoperate hconvert fault hfault
      have hfails := Functions.Library.safe_withFallback .blank f hmem services hoperate hconvert
        given hreceives fault hfault
      constructor <;> rintro hkind <;> simp [hkind] at hfails
    · intro fallback g hzip services
      have hall := Functions.Library.alike_withFallback .blank fallback
      have halike := (List.forall₂_iff_zip.1 hall).2 hzip
      exact (halike.body services given hreceives).symm

/-- The tree of `pow(2, 70L)`. -/
def Node.tooLarge : Node :=
  .call "pow" [.literal (.int 2), .literal (.long 70)]

open Functions.Library in
/-- `pow(2, 70L)` fails in its arithmetic, as do `1 / 0` and the negation of the least integer.  The
body of `pow` gets 2 and 70 as wide integers. -/
theorem Semantics.core_dispatch_overflows :
    (Node.tooLarge.evaluate (.new core true)).1 = .error (.powOverflow 2 70) ∧
    Fault.kind (.powOverflow 2 70) ∈
      [.operator, .function, .conversion, .unresolved, ErrorKind.arithmetic] ∧
    (∀ fault, Operators.Arithmetic.divide.handler.apply (.int 1) (.int 0) = .error fault →
      fault.kind ≠ .operator) ∧
    (∀ fault, Operators.negated (.long Int64.minValue) = .error fault → fault.kind ≠ .operator) ∧
    ∀ services : Services, services.operate = Operators.core.applyBinary →
      services.convert = Conversion.core.convert →
      ∀ fault, power .blank [.long 2, .long 70] = .error fault →
        fault.kind ≠ .function ∧ fault.kind ≠ .operator := by
  obtain ⟨hevaluate, hbinary, hunary, hcall⟩ := core_dispatch
  have hfault : (Node.tooLarge.evaluate (.new core true)).1 = .error (.powOverflow 2 70) := by cbv
  have hdivide : Operators.core.resolveBinary .divide (.int 1) (.int 0) =
      .ok Operators.Arithmetic.divide.handler := rfl
  have hnegate : Operators.core.resolveUnary .negate (.long Int64.minValue) =
      .ok ⟨.negate, .number, Operators.negated⟩ := rfl
  have hpow : Functions.core.resolve "pow" [.int 2, .long 70] =
      .ok (simple "pow" [.long, .long] (power .blank)) := by cbv
  have hmem : simple "pow" [.long, .long] (power .blank) ∈ all := by
    simp [all, withFallback, numbers]
  obtain ⟨given, hgiven, -, -, hbody, -⟩ := hcall _ _ _ _ hpow hmem
  have hwidened : (simple "pow" [.long, .long] (power .blank)).widened Conversion.core.convert 0
      [.int 2, .long 70] = .ok [.long 2, .long 70] := by cbv
  obtain rfl := Except.ok.inj (hgiven.symm.trans hwidened)
  refine ⟨hfault, hevaluate _ (.new core true) rfl _ hfault, ?_, ?_, hbody⟩
  · exact hbinary _ _ _ _ _ hdivide (by simp [Operators.coreBinary])
  · exact hunary _ _ _ _ hnegate (by simp [Operators.coreUnary])

end ExprLang
