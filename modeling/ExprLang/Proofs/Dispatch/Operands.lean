import ExprLang.Semantics

/-!
# Operands of declared types

A handler or converter is only applied to values that its declared types accept.  For such values
the core handlers fail in their arithmetic only, or because a number cannot be stepped, and the core
converters fail because a value has no counterpart in the other type.
-/

namespace ExprLang

/-- Every error that the computation can end with is of one of the kinds. -/
def FailsAs {α : Type} (kinds : List ErrorKind) (result : Except Fault α) : Prop :=
  ∀ fault, result = .error fault → fault.kind ∈ kinds

namespace FailsAs

variable {α β : Type} {kinds : List ErrorKind}

theorem ok (kinds : List ErrorKind) (a : α) : FailsAs kinds (.ok a : Except Fault α) := by
  rintro fault ⟨⟩

theorem error {fault : Fault} (h : fault.kind ∈ kinds) :
    FailsAs kinds (.error fault : Except Fault α) := by
  rintro _ ⟨⟩
  exact h

theorem bind {x : Except Fault α} {f : α → Except Fault β} (hx : FailsAs kinds x)
    (hf : ∀ a, x = .ok a → FailsAs kinds (f a)) : FailsAs kinds (x >>= f) := by
  cases x with
  | error fault => exact error (hx fault rfl)
  | ok a => exact hf a rfl

theorem mono {more : List ErrorKind} {x : Except Fault α} (h : FailsAs kinds x)
    (hsubset : kinds ⊆ more) : FailsAs more x :=
  fun fault hfault => hsubset (h fault hfault)

end FailsAs

/-! ## Accepted values -/

namespace TypeTag

variable {v : Value}

@[simp]
theorem accepts_any : any.accepts v.tag = true := rfl

@[simp]
theorem accepts_number : number.accepts v.tag = true ↔ v.isNumber = true := by
  cases v <;> simp [accepts, Value.tag, Value.isNumber]

@[simp]
theorem accepts_bool : bool.accepts v.tag = true ↔ ∃ b, v = .bool b := by
  cases v <;> simp [accepts, Value.tag]

@[simp]
theorem accepts_char : char.accepts v.tag = true ↔ ∃ c, v = .char c := by
  cases v <;> simp [accepts, Value.tag]

@[simp]
theorem accepts_string : string.accepts v.tag = true ↔ ∃ s, v = .str s := by
  cases v <;> simp [accepts, Value.tag]

@[simp]
theorem accepts_list : list.accepts v.tag = true ↔ ∃ items, v = .list items := by
  cases v <;> simp [accepts, Value.tag]

end TypeTag

namespace Value

variable {a b : Value}

theorem numbers_eq_ok (ha : a.isNumber = true) (hb : b.isNumber = true) :
    ∃ numbers, Numbers.of a b = .ok numbers := by
  cases a <;> cases ha <;> cases b <;> cases hb <;> exact ⟨_, rfl⟩

theorem order_eq_ok (ha : a.isNumber = true) (hb : b.isNumber = true) :
    ∃ o, a.order b = .ok o := by
  cases a <;> cases ha <;> cases b <;> cases hb <;> exact ⟨_, rfl⟩

end Value

/-! ## Operators -/

namespace Operators

theorem Arithmetic.handler_failsAs (op : Arithmetic) {l r : Value}
    (haccepts : op.handler.accepts l r = true) : FailsAs [.arithmetic] (op.handler.apply l r) := by
  obtain ⟨hl, hr⟩ := Bool.and_eq_true_iff.1 haccepts
  obtain ⟨numbers, hnumbers⟩ :=
    Value.numbers_eq_ok (TypeTag.accepts_number.1 hl) (TypeTag.accepts_number.1 hr)
  have happly : op.handler.apply l r = op.apply l r := rfl
  rw [happly, apply, hnumbers]
  cases numbers with
  | doubles x y => exact .ok _ _
  | integers x y narrow =>
    change FailsAs _ (if _ then _ else _)
    split
    · exact .error List.mem_cons_self
    · split
      · exact .ok _ _
      · exact .error List.mem_cons_self

/-- A comparison of values that have been brought in an order, or have none, has a result. -/
theorem Comparison.apply_eq_ok (op : Comparison) {a b : Value} (h : ∃ o, a.order b = .ok o) :
    ∃ holds, op.apply a b = .ok (.bool holds) := by
  obtain ⟨o, ho⟩ := h
  rw [apply, ho]
  cases o with
  | none => exact ⟨false, rfl⟩
  | some o => exact ⟨op.holds o, rfl⟩

theorem Comparison.handlers_eq_ok (op : Comparison) {h : BinaryHandler} (hmem : h ∈ op.handlers)
    {l r : Value} (haccepts : h.accepts l r = true) : ∃ holds, h.apply l r = .ok (.bool holds) := by
  obtain ⟨tag, htag, rfl⟩ := List.mem_map.1 hmem
  obtain ⟨hl, hr⟩ := Bool.and_eq_true_iff.1 haccepts
  apply op.apply_eq_ok
  simp only [List.mem_cons, List.not_mem_nil, or_false] at htag
  rcases htag with rfl | rfl | rfl
  · exact Value.order_eq_ok (TypeTag.accepts_number.1 hl) (TypeTag.accepts_number.1 hr)
  · obtain ⟨s, rfl⟩ := TypeTag.accepts_string.1 hl
    obtain ⟨t, rfl⟩ := TypeTag.accepts_string.1 hr
    exact ⟨_, rfl⟩
  · obtain ⟨c, rfl⟩ := TypeTag.accepts_char.1 hl
    obtain ⟨d, rfl⟩ := TypeTag.accepts_char.1 hr
    exact ⟨_, rfl⟩

theorem concatLists_failsAs {l r : Value} (hl : TypeTag.list.accepts l.tag = true)
    (hr : TypeTag.list.accepts r.tag = true) : FailsAs [.arithmetic] (concatLists l r) := by
  obtain ⟨xs, rfl⟩ := TypeTag.accepts_list.1 hl
  obtain ⟨ys, rfl⟩ := TypeTag.accepts_list.1 hr
  exact .ok _ _

theorem logical_failsAs (connective : Bool → Bool → Bool) {l r : Value}
    (hl : TypeTag.bool.accepts l.tag = true) (hr : TypeTag.bool.accepts r.tag = true) :
    FailsAs [.arithmetic] (logical connective l r) := by
  obtain ⟨x, rfl⟩ := TypeTag.accepts_bool.1 hl
  obtain ⟨y, rfl⟩ := TypeTag.accepts_bool.1 hr
  exact .ok _ _

/-- A core handler fails in its arithmetic only. -/
theorem coreBinary_failsAs {h : BinaryHandler} (hmem : h ∈ coreBinary) {l r : Value}
    (haccepts : h.accepts l r = true) : FailsAs [.arithmetic] (h.apply l r) := by
  rw [coreBinary, List.mem_append] at hmem
  cases hmem with
  | inr hcomparison =>
    obtain ⟨op, -, hop⟩ := List.mem_flatMap.1 hcomparison
    obtain ⟨holds, hholds⟩ := op.handlers_eq_ok hop haccepts
    rw [hholds]
    exact .ok _ _
  | inl hother =>
    obtain ⟨hl, hr⟩ := Bool.and_eq_true_iff.1 haccepts
    simp only [List.mem_cons, List.not_mem_nil, or_false] at hother
    rcases hother with
      rfl | rfl | rfl | rfl | rfl | rfl | rfl | rfl | rfl | rfl | rfl | rfl
    case inr.inr.inr.inl => exact concatLists_failsAs hl hr
    all_goals first
      | exact Arithmetic.handler_failsAs _ haccepts
      | exact logical_failsAs _ hl hr
      | exact .ok _ _

theorem stepped_failsAs (up : Bool) (v : Value) :
    FailsAs [.arithmetic, .conversion] (stepped up v) := by
  cases v with
  | double d => exact .ok _ _
  | _ =>
    rw [stepped]
    · split
      · exact .ok _ _
      · exact .error (by simp [Fault.kind])
    · rintro d ⟨⟩

theorem negated_failsAs {v : Value} (hv : v.isNumber = true) :
    FailsAs [.arithmetic, .conversion] (negated v) := by
  cases v <;> cases hv
  case int n => exact .ok _ _
  case double d => exact .ok _ _
  case long n =>
    rw [negated]
    split
    · exact .ok _ _
    · exact .error List.mem_cons_self

/-- A core handler of one operand fails in its arithmetic, or because a number cannot be
stepped. -/
theorem coreUnary_failsAs {h : UnaryHandler} (hmem : h ∈ coreUnary) {v : Value}
    (haccepts : h.accepts v = true) : FailsAs [.arithmetic, .conversion] (h.apply v) := by
  simp only [coreUnary, List.mem_cons, List.not_mem_nil, or_false] at hmem
  rcases hmem with rfl | rfl | rfl | rfl | rfl
  · obtain ⟨b, rfl⟩ := TypeTag.accepts_bool.1 haccepts
    exact .ok _ _
  · exact negated_failsAs (TypeTag.accepts_number.1 haccepts)
  · exact .ok _ _
  · exact stepped_failsAs true v
  · exact stepped_failsAs false v

theorem accepts_of_resolveBinary {table : Operators} {operation : Operation} {l r : Value}
    {h : BinaryHandler} (hresolve : table.resolveBinary operation l r = .ok h) :
    h ∈ table.binary ∧ h.accepts l r = true := by
  rw [resolveBinary] at hresolve
  split at hresolve
  · cases hresolve
  · split at hresolve
    · rename_i found hfound
      obtain rfl := Except.ok.inj hresolve
      refine ⟨(List.mem_filter.1 (List.mem_of_find?_eq_some hfound)).1, ?_⟩
      simpa using List.find?_some hfound
    · cases hresolve

theorem accepts_of_resolveUnary {table : Operators} {operation : Operation} {v : Value}
    {h : UnaryHandler} (hresolve : table.resolveUnary operation v = .ok h) :
    h ∈ table.unary ∧ h.accepts v = true := by
  rw [resolveUnary] at hresolve
  split at hresolve
  · rename_i found hfound
    obtain rfl := Except.ok.inj hresolve
    refine ⟨(List.mem_filter.1 (List.mem_of_find?_eq_some hfound)).1, ?_⟩
    simpa using List.find?_some hfound
  · cases hresolve

/-- Operands have no result because no handler accepts them or because their arithmetic fails. -/
theorem applyBinary_core_failsAs (operation : Operation) (l r : Value) :
    FailsAs [.operator, .arithmetic] (core.applyBinary operation l r) := by
  apply FailsAs.bind
  · rw [resolveBinary]
    split
    · exact .error List.mem_cons_self
    · split
      · exact .ok _ _
      · exact .error List.mem_cons_self
  · intro h hresolve
    obtain ⟨hmem, haccepts⟩ := accepts_of_resolveBinary hresolve
    exact (coreBinary_failsAs hmem haccepts).mono (by simp)

theorem applyUnary_core_failsAs (operation : Operation) (v : Value) :
    FailsAs [.operator, .arithmetic, .conversion] (core.applyUnary operation v) := by
  apply FailsAs.bind
  · rw [resolveUnary]
    split
    · exact .ok _ _
    · exact .error List.mem_cons_self
  · intro h hresolve
    obtain ⟨hmem, haccepts⟩ := accepts_of_resolveUnary hresolve
    exact (coreUnary_failsAs hmem haccepts).mono (by simp)

end Operators

/-! ## Conversions -/

namespace Conversion

theorem partially_failsAs (target : TypeTag) (f : Value → Option Value) (v : Value) :
    FailsAs [.conversion] (partially target f v) := by
  rw [partially]
  split
  · exact .ok _ _
  · exact .error List.mem_cons_self

/-- A core converter fails with an error of its own kind. -/
theorem coreConverters_failsAs {converter : Converter} (hmem : converter ∈ coreConverters)
    (v : Value) : FailsAs [.conversion] (converter.apply v) := by
  have hfrom (target : TypeTag) (read? : List Char → Option Value) :
      FailsAs [.conversion] ((fromText target read?).apply v) :=
    partially_failsAs target (fun value => value.str?.bind fun s => read? (Text.trim s.toList)) v
  simp only [coreConverters, List.mem_cons, List.not_mem_nil, or_false] at hmem
  rcases hmem with
    rfl | rfl | rfl | rfl | rfl | rfl | rfl | rfl | rfl | rfl | rfl | rfl | rfl | rfl
  all_goals first
    | exact .ok _ _
    | exact hfrom _ _
    | exact partially_failsAs _ _ _

theorem convert_core_failsAs (v : Value) (target : TypeTag) :
    FailsAs [.conversion] (core.convert v target) := by
  rw [convert]
  split
  · exact .ok _ _
  · split
    · rename_i converter hfound
      exact coreConverters_failsAs (List.mem_of_find?_eq_some hfound) v
    · exact .error List.mem_cons_self

end Conversion

end ExprLang
