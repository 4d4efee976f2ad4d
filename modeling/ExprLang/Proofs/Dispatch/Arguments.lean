import ExprLang.Proofs.Dispatch.Operands

/-!
# Arguments of declared types

An overload that accepts the arguments of a call receives values of its declared types.  Arguments
that are declared as wide integers or as doubles are widened, which never fails for values that the
declared type accepts (`Function.widened_core`); so such a parameter is always bound to a value of
exactly its type.
-/

namespace ExprLang

/-- A value is what a parameter of the declared type is bound to: one of exactly this type if it is
a type to which arguments are widened, and otherwise one that the type accepts. -/
def TypeTag.Binds (declared : TypeTag) (v : Value) : Prop :=
  declared.accepts v.tag = true ∧ (Function.isWidening declared = true → v.tag = declared)

namespace TypeTag

variable {v : Value}

@[simp]
theorem binds_any : any.Binds v := by
  simp [Binds, Function.isWidening]

@[simp]
theorem binds_number : number.Binds v ↔ v.isNumber = true := by
  simp [Binds, Function.isWidening]

@[simp]
theorem binds_string : string.Binds v ↔ ∃ s, v = .str s := by
  simp [Binds, Function.isWidening]

@[simp]
theorem binds_list : list.Binds v ↔ ∃ items, v = .list items := by
  simp [Binds, Function.isWidening]

@[simp]
theorem binds_map : map.Binds v ↔ ∃ entries, v = .map entries := by
  cases v <;> simp [Binds, Function.isWidening, accepts, Value.tag]

@[simp]
theorem binds_int : int.Binds v ↔ ∃ n, v = .int n := by
  cases v <;> simp [Binds, Function.isWidening, accepts, Value.tag]

@[simp]
theorem binds_long : long.Binds v ↔ ∃ n, v = .long n := by
  cases v <;> simp [Binds, Function.isWidening, accepts, Value.tag]

@[simp]
theorem binds_double : double.Binds v ↔ ∃ d, v = .double d := by
  cases v <;> simp [Binds, Function.isWidening, accepts, Value.tag]

theorem binds_of_widening {declared : TypeTag} (hwidening : Function.isWidening declared = true)
    (htag : v.tag = declared) : declared.Binds v := by
  refine ⟨?_, fun _ => htag⟩
  rw [htag]
  cases declared <;> cases hwidening <;> rfl

end TypeTag

namespace Signature

/-- The values are what the parameters are bound to, one by one: as many as the signature asks for,
each of a type that it declares. -/
structure Receives (s : Signature) (given : List Value) : Prop where
  accepts : s.accepts given = true
  widened : ∀ i v declared, given[i]? = some v → s.tag? i = some declared →
    Function.isWidening declared = true → v.tag = declared

/-- The parameters behind the first one. -/
def tail (s : Signature) : Signature :=
  ⟨s.params.tail, s.rest⟩

theorem tag?_succ (s : Signature) (i : Nat) : s.tag? (i + 1) = s.tail.tag? i := by
  obtain ⟨params, rest⟩ := s
  cases params <;> rfl

theorem accepts_cons {s : Signature} {v : Value} {vs : List Value} :
    s.accepts (v :: vs) = true ↔ ∃ declared, s.tag? 0 = some declared ∧
      declared.accepts v.tag = true ∧ s.tail.accepts vs = true := by
  obtain ⟨params, rest⟩ := s
  cases params with
  | cons declared params =>
    simp [accepts, acceptsFrom, tag?, tail]
  | nil =>
    cases rest with
    | none => simp [accepts, acceptsFrom, tag?, tail]
    | some declared =>
      have hall (tags : List TypeTag) :
          acceptsFrom (some declared) [] tags = tags.all declared.accepts := by
        cases tags <;> rfl
      simp [accepts, hall, tag?, tail]

theorem receives_nil {s : Signature} (h : s.accepts [] = true) : s.Receives [] :=
  ⟨h, fun i v declared hv => by cases hv⟩

theorem receives_cons {s : Signature} {v : Value} {vs : List Value} :
    s.Receives (v :: vs) ↔
      ∃ declared, s.tag? 0 = some declared ∧ declared.Binds v ∧ s.tail.Receives vs := by
  constructor
  · intro h
    obtain ⟨declared, htag, hv, hvs⟩ := accepts_cons.1 h.accepts
    refine ⟨declared, htag, ⟨hv, h.widened 0 v declared rfl htag⟩, hvs, ?_⟩
    intro i w other hw hother
    exact h.widened (i + 1) w other hw ((s.tag?_succ i).trans hother)
  · rintro ⟨declared, htag, hv, hvs⟩
    refine ⟨accepts_cons.2 ⟨declared, htag, hv.1, hvs.accepts⟩, ?_⟩
    intro i w other hw hother
    cases i with
    | zero =>
      obtain rfl := Option.some.inj hw
      obtain rfl := Option.some.inj (htag.symm.trans hother)
      exact hv.2
    | succ i => exact hvs.widened i w other hw ((s.tag?_succ i).symm.trans hother)

section

variable {declared : TypeTag} {params : List TypeTag} {rest : Option TypeTag} {given : List Value}

@[simp]
theorem receives_none : Receives ⟨[], none⟩ given ↔ given = [] := by
  constructor
  · intro h
    cases given with
    | nil => rfl
    | cons v vs => cases h.accepts
  · rintro rfl
    exact receives_nil rfl

@[simp]
theorem receives_some : Receives ⟨[], some declared⟩ given ↔ ∀ v ∈ given, declared.Binds v := by
  induction given with
  | nil =>
    simp only [List.not_mem_nil, false_implies, implies_true, iff_true]
    exact receives_nil rfl
  | cons v vs ih =>
    have htail : (Signature.mk [] (some declared)).tail = ⟨[], some declared⟩ := rfl
    rw [receives_cons, htail, ih, List.forall_mem_cons]
    simp [tag?]

@[simp]
theorem receives_param : Receives ⟨declared :: params, rest⟩ given ↔
    ∃ v vs, given = v :: vs ∧ declared.Binds v ∧ Receives ⟨params, rest⟩ vs := by
  cases given with
  | nil =>
    simp only [reduceCtorEq, false_and, exists_const, iff_false]
    intro h
    cases h.accepts
  | cons v vs =>
    have htail : (Signature.mk (declared :: params) rest).tail = ⟨params, rest⟩ := rfl
    rw [receives_cons, htail]
    simp [tag?, and_assoc]

end

end Signature

namespace Conversion

/-- Widening leads from every accepted value to one of the declared type. -/
theorem convert_core_widening {declared : TypeTag} {v : Value}
    (hwidening : Function.isWidening declared = true) (haccepts : declared.accepts v.tag = true) :
    ∃ w, core.convert v declared = .ok w ∧ w.tag = declared := by
  cases declared <;> cases hwidening <;> cases v <;> cases haccepts <;> exact ⟨_, rfl, rfl⟩

end Conversion

namespace Function

theorem widened_from (f : Function) {convert : Value → TypeTag → Outcome}
    (hconvert : ∀ declared v, isWidening declared = true → declared.accepts v.tag = true →
      ∃ w, convert v declared = .ok w ∧ w.tag = declared)
    (args : List Value) {s : Signature} {i : Nat}
    (hs : ∀ j, f.signature.tag? (i + j) = s.tag? j) (haccepts : s.accepts args = true) :
    ∃ given, f.widened convert i args = .ok given ∧ given.length = args.length ∧
      s.Receives given := by
  induction args generalizing s i with
  | nil => exact ⟨[], rfl, rfl, Signature.receives_nil haccepts⟩
  | cons arg rest ih =>
    obtain ⟨declared, htag, harg, hrest⟩ := Signature.accepts_cons.1 haccepts
    have htail (j : Nat) : f.signature.tag? (i + 1 + j) = s.tail.tag? j := by
      rw [Nat.add_assoc, Nat.add_comm 1 j, hs, s.tag?_succ]
    obtain ⟨others, hothers, hlength, hreceives⟩ := ih htail hrest
    have hdeclared : f.signature.tag? i = some declared := (hs 0).trans htag
    have hgiven : ∃ first, f.widened convert i (arg :: rest) = .ok (first :: others) ∧
        declared.Binds first := by
      rw [widened, hdeclared]
      by_cases hconverted : (isWidening declared && arg.tag != declared) = true
      · obtain ⟨hwidening, -⟩ := Bool.and_eq_true_iff.1 hconverted
        obtain ⟨first, hfirst, htagged⟩ := hconvert declared arg hwidening harg
        refine ⟨first, ?_, TypeTag.binds_of_widening hwidening htagged⟩
        simp only [hconverted, if_true, hfirst, hothers]
        rfl
      · refine ⟨arg, ?_, harg, ?_⟩
        · simp only [hconverted, hothers]
          rfl
        · intro hwidening
          simpa [hwidening] using hconverted
    obtain ⟨first, hgiven, hbinds⟩ := hgiven
    exact ⟨first :: others, hgiven, congrArg (· + 1) hlength,
      Signature.receives_cons.2 ⟨declared, htag, hbinds, hreceives⟩⟩

/-- The arguments that an overload accepts are widened without fail, to as many values, which are
what its parameters are bound to. -/
theorem widened_core (f : Function) {args : List Value}
    (haccepts : f.signature.accepts args = true) :
    ∃ given, f.widened Conversion.core.convert 0 args = .ok given ∧
      given.length = args.length ∧ f.signature.Receives given :=
  f.widened_from (fun _ _ => Conversion.convert_core_widening) args (fun j => by rw [Nat.zero_add])
    haccepts

theorem widened_eq_self (f : Function) (convert : Value → TypeTag → Outcome) {args : List Value}
    {i : Nat} (hargs : ∀ j v declared, args[j]? = some v →
      f.signature.tag? (i + j) = some declared → isWidening declared = true → v.tag = declared) :
    f.widened convert i args = .ok args := by
  induction args generalizing i with
  | nil => rfl
  | cons arg rest ih =>
    have hrest : f.widened convert (i + 1) rest = .ok rest := by
      apply ih
      intro j v declared hv htag
      rw [Nat.add_right_comm] at htag
      exact hargs (j + 1) v declared hv htag
    rw [widened, hrest]
    cases htag : f.signature.tag? i with
    | none => rfl
    | some declared =>
      have hkept : (isWidening declared && arg.tag != declared) = false := by
        rw [Bool.and_eq_false_imp, bne_eq_false_iff_eq]
        exact hargs 0 arg declared rfl htag
      simp only [hkept]
      rfl

/-- Arguments that the parameters can be bound to are left as they are. -/
theorem widened_of_receives {f : Function} {args : List Value} (h : f.signature.Receives args)
    (convert : Value → TypeTag → Outcome) : f.widened convert 0 args = .ok args := by
  apply f.widened_eq_self
  intro j v declared hv htag
  rw [Nat.zero_add] at htag
  exact h.widened j v declared hv htag

end Function

end ExprLang
