import ExprLang.Proofs.Dispatch.Operands
import ExprLang.Proofs.Integers.Widths

/-!
# Integer arithmetic

The core operators compute on integers as on unbounded ones and fail when the divisor is zero or the
result does not fit (`Operators.Arithmetic.applyBinary_exact`).  The remainder is the one operation
that can fail although its result fits, since it needs a quotient that fits as well
(`Operators.Arithmetic.applyBinary_modulo`).
-/

namespace ExprLang.Operators.Arithmetic

/-- The result for unbounded integers.  Quotients are cut toward zero, and a remainder has the sign
of the dividend. -/
def exact (op : Arithmetic) (x y : Int) : Int :=
  match op with
  | add => x + y
  | subtract => x - y
  | multiply => x * y
  | divide => x.tdiv y
  | modulo => x.tmod y

/-! ## Results that fit -/

theorem natAbs_tmod_lt (x : Int) {y : Int} (hy : y ≠ 0) : (x.tmod y).natAbs < y.natAbs := by
  rw [Int.natAbs_tmod]
  exact Nat.mod_lt _ (Int.natAbs_pos.2 hy)

theorem natAbs_tdiv_lt {x y : Int} (hx : x ≠ 0) (hy : y.natAbs ≠ 1) :
    (x.tdiv y).natAbs < x.natAbs := by
  have hdiv : (x.tdiv y).natAbs = x.natAbs / y.natAbs := Int.natAbs_tdiv x y
  rw [hdiv]
  rcases Nat.eq_zero_or_pos y.natAbs with hzero | hpos
  · rw [hzero, Nat.div_zero]
    omega
  · exact Nat.div_lt_self (by omega) (by omega)

/-- A quotient is out of range only if the least integer is negated. -/
theorem fitsWide_tdiv {x y : Int} (hx : FitsWide x) (hleast : ¬ (x = -2 ^ 63 ∧ y = -1)) :
    FitsWide (x.tdiv y) := by
  by_cases hone : y = 1
  · rw [hone, Int.tdiv_one]
    exact hx
  · have hle := Int.natAbs_tdiv_le_natAbs x y
    -- The magnitude of the least integer is the only one that does not fit.
    have hlt : x = -2 ^ 63 → (x.tdiv y).natAbs < x.natAbs := by
      intro hx63
      exact natAbs_tdiv_lt (by omega) (by omega)
    simp only [FitsWide] at *
    omega

theorem fitsWide_tmod {x y : Int} (hx : FitsWide x) (hy : FitsWide y) : FitsWide (x.tmod y) := by
  by_cases hzero : y = 0
  · rw [hzero, Int.tmod_zero]
    exact hx
  · have hlt := natAbs_tmod_lt x hzero
    simp only [FitsWide] at *
    omega

/-- Narrow operands never lead out of the wide range. -/
theorem fitsWide_exact (op : Arithmetic) {x y : Int} (hx : FitsNarrow x) (hy : FitsNarrow y) :
    FitsWide (op.exact x y) := by
  cases op with
  | add | subtract =>
    simp only [exact, FitsNarrow, FitsWide] at *
    omega
  | multiply =>
    have hproduct : (x * y).natAbs ≤ 2 ^ 31 * 2 ^ 31 := by
      rw [Int.natAbs_mul]
      simp only [FitsNarrow] at hx hy
      exact Nat.mul_le_mul (by omega) (by omega)
    simp only [exact, FitsWide]
    omega
  | divide =>
    apply fitsWide_tdiv hx.fitsWide
    simp only [FitsNarrow] at hx
    omega
  | modulo => exact fitsWide_tmod hx.fitsWide hy.fitsWide

/-- Apart from the quotient that a remainder needs, only the result itself has to fit. -/
theorem onIntegers?_eq_some_iff {op : Arithmetic} {x y : Int} {n : Int64} :
    op.onIntegers? x y = some n ↔
      n.toInt = op.exact x y ∧ (op = modulo → FitsWide (x.tdiv y)) := by
  cases op with
  | modulo =>
    simp only [onIntegers?, Option.bind_eq_bind, Option.bind_eq_some_iff, int64?_eq_some_iff,
      exists_and_right, ← fitsWide_iff, exact, true_implies]
    exact and_comm
  | _ => simp [onIntegers?, int64?_eq_some_iff, exact]

/-! ## Handlers -/

/-- The first handler that accepts two numbers is the arithmetic one. -/
theorem resolveBinary_numbers (op : Arithmetic) {a b : Value} (ha : a.isNumber = true)
    (hb : b.isNumber = true) : core.resolveBinary op.operation a b = .ok op.handler := by
  cases op <;> cases a <;> cases ha <;> cases b <;> cases hb <;> rfl

theorem isNumber_of_long? {v : Value} {n : Int64} (h : v.long? = some n) : v.isNumber = true := by
  cases v with
  | int | long => rfl
  | _ => cases h

theorem numbers_of_long? {a b : Value} {x y : Int64} (ha : a.long? = some x)
    (hb : b.long? = some y) :
    Numbers.of a b = .ok (.integers x y (a.tag = .int ∧ b.tag = .int)) := by
  cases a <;> cases ha <;> cases b <;> cases hb <;> rfl

/-- Two integers are computed with as wide ones. -/
theorem applyBinary_integers (op : Arithmetic) {a b : Value} {x y : Int64} (ha : a.long? = some x)
    (hb : b.long? = some y) :
    core.applyBinary op.operation a b =
      if op.divides = true ∧ y.toInt = 0 then .error (.divisionByZero op.operation a b)
      else
        match op.onIntegers? x.toInt y.toInt with
        | some n => .ok (if a.tag = .int ∧ b.tag = .int then .integer n else .long n)
        | none => .error (.overflow op.operation a b) := by
  have hzero : (op.divides && y == 0) = true ↔ op.divides = true ∧ y.toInt = 0 := by
    rw [Bool.and_eq_true, beq_iff_eq, ← Int64.toInt_inj]
    rfl
  have hresolve := op.resolveBinary_numbers (isNumber_of_long? ha) (isNumber_of_long? hb)
  simp only [applyBinary, hresolve, handler, apply, numbers_of_long? ha hb, Bind.bind, Except.bind,
    hzero]
  split
  · rfl
  · cases op.onIntegers? x.toInt y.toInt <;> simp [pure, Except.pure]

section

variable (op : Arithmetic) {a b : Value} {x y : Int} (ha : a.integer? = some x)
  (hb : b.integer? = some y)
include ha hb

theorem applyBinary_eq_ok_iff {v : Value} : core.applyBinary op.operation a b = .ok v ↔
    ¬ (op.divides = true ∧ y = 0) ∧ ∃ n, op.onIntegers? x y = some n ∧
      v = if a.tag = .int ∧ b.tag = .int then .integer n else .long n := by
  obtain ⟨m, hm, rfl⟩ := Value.exists_long_of_integer? ha
  obtain ⟨k, hk, rfl⟩ := Value.exists_long_of_integer? hb
  rw [op.applyBinary_integers hm hk]
  by_cases hzero : op.divides = true ∧ k.toInt = 0
  · rw [if_pos hzero]
    simp [hzero]
  · rw [if_neg hzero]
    cases op.onIntegers? m.toInt k.toInt with
    | none => simp
    | some n =>
      simp only [Except.ok.injEq, Option.some.injEq, exists_eq_left', hzero, not_false_eq_true,
        true_and]
      exact eq_comm

/-- There is a result unless the divisor is zero or something does not fit. -/
theorem exists_applyBinary_iff : (∃ v, core.applyBinary op.operation a b = .ok v) ↔
    ¬ (op.divides = true ∧ y = 0) ∧ FitsWide (op.exact x y) ∧
      (op = modulo → FitsWide (x.tdiv y)) := by
  simp only [op.applyBinary_eq_ok_iff ha hb, onIntegers?_eq_some_iff, fitsWide_iff]
  constructor
  · rintro ⟨v, hzero, n, ⟨hn, hquotient⟩, -⟩
    exact ⟨hzero, ⟨n, hn⟩, hquotient⟩
  · rintro ⟨hzero, ⟨n, hn⟩, hquotient⟩
    exact ⟨_, hzero, n, ⟨hn, hquotient⟩, rfl⟩

/-- A result is exact, and it is narrow if both operands are and it fits. -/
theorem result_spec {v : Value} (h : core.applyBinary op.operation a b = .ok v) :
    v.integer? = some (op.exact x y) ∧
      v.tag =
        if (a.tag = .int ∧ b.tag = .int) ∧ FitsNarrow (op.exact x y) then .int else .long := by
  obtain ⟨-, n, hn, rfl⟩ := (op.applyBinary_eq_ok_iff ha hb).1 h
  rw [← (onIntegers?_eq_some_iff.1 hn).1]
  exact Value.sized_spec _ n

theorem applyBinary_failsAs : FailsAs [.arithmetic] (core.applyBinary op.operation a b) := by
  obtain ⟨m, hm, -⟩ := Value.exists_long_of_integer? ha
  obtain ⟨k, hk, -⟩ := Value.exists_long_of_integer? hb
  have hresolve := op.resolveBinary_numbers (isNumber_of_long? hm) (isNumber_of_long? hk)
  rw [applyBinary, hresolve]
  exact op.handler_failsAs (accepts_of_resolveBinary hresolve).2

end

/-- Integer arithmetic is exact.  A result is the one for unbounded integers, and it is narrow if
both operands are and it fits.  Apart from remainders, there is a result unless the divisor is zero
or the result does not fit the wide integers.  Narrow operands only fail for a zero divisor. -/
theorem applyBinary_exact (op : Arithmetic) {a b : Value} {x y : Int} (ha : a.integer? = some x)
    (hb : b.integer? = some y) :
    (∀ v, core.applyBinary op.operation a b = .ok v →
      v.integer? = some (op.exact x y) ∧
        v.tag =
          if (a.tag = .int ∧ b.tag = .int) ∧ FitsNarrow (op.exact x y) then .int else .long) ∧
    (∀ fault, core.applyBinary op.operation a b = .error fault → fault.kind = .arithmetic) ∧
    (op ≠ modulo → ((∃ v, core.applyBinary op.operation a b = .ok v) ↔
      (op = divide → y ≠ 0) ∧ FitsWide (op.exact x y))) ∧
    (op = modulo → y = 0 → ∃ fault, core.applyBinary op.operation a b = .error fault) ∧
    (a.tag = .int → b.tag = .int → ∀ fault,
      core.applyBinary op.operation a b = .error fault → op.divides = true ∧ y = 0) := by
  have hresult := op.exists_applyBinary_iff ha hb
  have hfails := op.applyBinary_failsAs ha hb
  refine ⟨fun v => op.result_spec ha hb, ?kind, ?result, ?zero, ?narrow⟩
  case kind =>
    intro fault hfault
    exact List.mem_singleton.1 (hfails fault hfault)
  case result =>
    intro hop
    have hdivisor : ¬ (op.divides = true ∧ y = 0) ↔ (op = divide → y ≠ 0) := by
      cases op <;> simp [divides] at hop ⊢
    rw [hresult, hdivisor]
    simp [hop]
  case zero =>
    rintro rfl rfl
    cases hoperate : core.applyBinary modulo.operation a b with
    | error fault => exact ⟨fault, rfl⟩
    | ok v => exact absurd ⟨rfl, rfl⟩ (hresult.1 ⟨v, hoperate⟩).1
  case narrow =>
    intro hanarrow hbnarrow fault hfault
    have hx := Value.fitsNarrow_of_integer? ha hanarrow
    have hy := Value.fitsNarrow_of_integer? hb hbnarrow
    refine Decidable.byContradiction fun hzero => ?_
    obtain ⟨v, hv⟩ := hresult.2
      ⟨hzero, op.fitsWide_exact hx hy, fun _ => fitsWide_exact divide hx hy⟩
    rw [hv] at hfault
    cases hfault

/-- The least narrow integer has a wide square.  The least wide integer has no quotient by -1. -/
theorem applyBinary_exact_least :
    (∃ v, core.applyBinary .multiply (.int Int32.minValue) (.int Int32.minValue) = .ok v ∧
      v.integer? = some (2 ^ 62) ∧ v.tag = .long) ∧
    ¬ ∃ v, core.applyBinary .divide (.long Int64.minValue) (.int (-1)) = .ok v := by
  have hnarrow : (Value.int Int32.minValue).integer? = some (-2 ^ 31) := by decide
  have hwide : (Value.long Int64.minValue).integer? = some (-2 ^ 63) := by decide
  have hdivisor : (Value.int (-1)).integer? = some (-1) := by decide
  obtain ⟨hvalue, -, hsquare, -⟩ := applyBinary_exact multiply hnarrow hnarrow
  obtain ⟨-, -, hquotient, -⟩ := applyBinary_exact divide hwide hdivisor
  constructor
  · obtain ⟨v, hv⟩ := (hsquare (by decide)).2 (by decide)
    exact ⟨v, hv, hvalue v hv⟩
  · intro hexists
    exact absurd ((hquotient (by decide)).1 hexists).2 (by decide)

/-- A remainder is exact, and its magnitude is below that of the divisor.  Only for the least wide
integer and the divisor -1 there is none, although it would be 0. -/
theorem applyBinary_modulo {a b : Value} {x y : Int} (ha : a.integer? = some x)
    (hb : b.integer? = some y) (hdivisor : y ≠ 0) (hleast : ¬ (x = -2 ^ 63 ∧ y = -1)) :
    ∃ v, core.applyBinary .modulo a b = .ok v ∧ v.integer? = some (x - y * x.tdiv y) ∧
      (x - y * x.tdiv y).natAbs < y.natAbs := by
  have hx := Value.fitsWide_of_integer? ha
  have hy := Value.fitsWide_of_integer? hb
  obtain ⟨v, hv⟩ := (exists_applyBinary_iff modulo ha hb).2
    ⟨fun hzero => hdivisor hzero.2, fitsWide_tmod hx hy, fun _ => fitsWide_tdiv hx hleast⟩
  rw [← Int.tmod_def]
  exact ⟨v, hv, (result_spec modulo ha hb hv).1, natAbs_tmod_lt x hdivisor⟩

/-- The remainder has the sign of the dividend. -/
theorem applyBinary_modulo_negative :
    ∃ v, core.applyBinary .modulo (.long Int64.minValue) (.int 10) = .ok v ∧
      v.integer? = some (-8) := by
  have hwide : (Value.long Int64.minValue).integer? = some (-2 ^ 63) := by decide
  have hten : (Value.int 10).integer? = some 10 := by decide
  obtain ⟨v, hv, hvalue, -⟩ := applyBinary_modulo hwide hten (by decide) (by decide)
  exact ⟨v, hv, hvalue⟩

/-- The remainder of the least wide integer by -1 is 0, which fits, but it is refused. -/
theorem modulo_least_overflows :
    (Value.long Int64.minValue).integer? = some (-2 ^ 63) ∧
      (Value.int (-1)).integer? = some (-1) ∧ (-2 ^ 63 : Int) - -1 * (-2 ^ 63 : Int).tdiv (-1) = 0 ∧
      core.applyBinary .modulo (.long Int64.minValue) (.int (-1)) =
        .error (.overflow .modulo (.long Int64.minValue) (.int (-1))) := by
  refine ⟨by decide, by decide, by decide, ?_⟩
  rfl

end ExprLang.Operators.Arithmetic
