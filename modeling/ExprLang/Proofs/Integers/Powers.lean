import ExprLang.Proofs.Effects.Services
import ExprLang.Proofs.Integers.Widths
import Mathlib.Algebra.Ring.Int.Parity

/-!
# Powers of integers

The library computes powers of integers as if they were unbounded and refuses those that do not fit
(`Functions.Library.power?_eq`).  A call with an exponent below 2 to the 32nd therefore gives the
exact power or fails (`Functions.call_pow`).  With a larger exponent, the power is that of doubles
even if the exact one would fit (`Functions.call_pow_large_exponent`).
-/

namespace ExprLang.Functions

namespace Library

/-- The powers of 0, 1 and -1 beyond the first only depend on the parity of the exponent. -/
theorem pow_of_parity {base : Int} (hbase : base.natAbs ≤ 1) {exponent : Nat} (h : 2 ≤ exponent) :
    base ^ (2 + exponent % 2) = base ^ exponent := by
  obtain rfl | rfl | rfl : base = 0 ∨ base = 1 ∨ base = -1 := by omega
  · rw [zero_pow (by omega), zero_pow (by omega)]
  · rw [one_pow, one_pow]
  · rw [neg_one_pow_eq_pow_mod_two, Nat.add_mod_left, Nat.mod_mod, ← neg_one_pow_eq_pow_mod_two]

/-- No other number has a power beyond the 63rd that fits. -/
theorem not_fitsWide_pow {base : Int} (hbase : 1 < base.natAbs) {exponent : Nat}
    (h : 63 < exponent) : ¬ FitsWide (base ^ exponent) := by
  have hlarge : 2 ^ 64 ≤ (base ^ exponent).natAbs :=
    calc
      2 ^ 64 ≤ 2 ^ exponent := Nat.pow_le_pow_right (by decide) h
      _ ≤ base.natAbs ^ exponent := Nat.pow_le_pow_left hbase exponent
      _ = (base ^ exponent).natAbs := (Int.natAbs_pow base exponent).symm
  simp only [FitsWide]
  omega

/-- Neither shortcut changes the power. -/
theorem power?_eq (base : Int) (exponent : Nat) :
    power? base exponent = int64? (base ^ exponent) := by
  rw [power?, Int.pow_eq, Int.pow_eq]
  split
  · rename_i hbase
    split
    · rfl
    · rw [pow_of_parity hbase (by omega)]
  · rename_i hbase
    split
    · rename_i hexponent
      exact (int64?_eq_none_iff.2 (not_fitsWide_pow (by omega) hexponent)).symm
    · rfl

/-- The body for an exponent that is not negative. -/
theorem power_eq (fallback : Fallback) {x y : Int64} (hnonneg : 0 ≤ y.toInt) :
    power fallback [.long x, .long y] =
      if y.toInt < 2 ^ 32 then
        match int64? (x.toInt ^ y.toInt.toNat) with
        | some n => .ok (.integer n)
        | none => .error (.powOverflow x y)
      else .ok (.double (x.toFloat.pow y.toFloat)) := by
  have hbase : intArg fallback [.long x, .long y] 0 = x.toInt := rfl
  have hexponent : intArg fallback [.long x, .long y] 1 = y.toInt := rfl
  rw [power]
  simp only [hbase, hexponent, power?_eq, Int64.ofInt_toInt, hnonneg, true_and]
  rfl

end Library

open Library

/-- Two integers are taken for a base and an exponent that are wide. -/
theorem call_pow_eq {services : Services} (hconvert : services.convert = Conversion.core.convert)
    {a b : Value} {x y : Int64} (ha : a.long? = some x) (hb : b.long? = some y) :
    core.call services "pow" [a, b] = power .blank [.long x, .long y] := by
  have hresolve : core.resolve "pow" [a, b] = .ok (simple "pow" [.long, .long] (power .blank)) := by
    cases a <;> cases ha <;> cases b <;> cases hb <;> rfl
  have hwidened : (simple "pow" [.long, .long] (power .blank)).widened services.convert 0 [a, b] =
      .ok [.long x, .long y] := by
    rw [hconvert]
    cases a <;> cases ha <;> cases b <;> cases hb <;> rfl
  obtain ⟨inner, -, hcall⟩ := call_core_of_resolve hresolve hwidened
  exact hcall

/-- The power of two integers is exact, and narrow if it fits, or it does not fit and the call fails
in its arithmetic.  This needs an exponent of 32 bits.  With a larger one, there always is a double
instead. -/
theorem call_pow {services : Services} (hconvert : services.convert = Conversion.core.convert)
    {a b : Value} {base exponent : Int} (ha : a.integer? = some base)
    (hb : b.integer? = some exponent) (hnonneg : 0 ≤ exponent) :
    (exponent < 2 ^ 32 → FitsWide (base ^ exponent.toNat) →
      ∃ v, core.call services "pow" [a, b] = .ok v ∧
        v.integer? = some (base ^ exponent.toNat) ∧
          v.tag = if FitsNarrow (base ^ exponent.toNat) then .int else .long) ∧
    (exponent < 2 ^ 32 → ¬ FitsWide (base ^ exponent.toNat) →
      ∃ fault, core.call services "pow" [a, b] = .error fault ∧ fault.kind = .arithmetic) ∧
    (2 ^ 32 ≤ exponent → ∃ d, core.call services "pow" [a, b] = .ok (.double d)) := by
  obtain ⟨x, hx, rfl⟩ := Value.exists_long_of_integer? ha
  obtain ⟨y, hy, rfl⟩ := Value.exists_long_of_integer? hb
  rw [call_pow_eq hconvert hx hy, power_eq .blank hnonneg]
  refine ⟨?fits, ?overflow, ?large⟩
  case fits =>
    intro hsmall hfits
    obtain ⟨n, hn⟩ := hfits.exists_int64?
    rw [if_pos hsmall, hn, ← int64?_eq_some_iff.1 hn]
    exact ⟨_, rfl, Value.integer_spec n⟩
  case overflow =>
    intro hsmall hfits
    rw [if_pos hsmall, int64?_eq_none_iff.2 hfits]
    exact ⟨_, rfl, rfl⟩
  case large =>
    intro hlarge
    rw [if_neg (Int.not_lt.2 hlarge)]
    exact ⟨_, rfl⟩

/-- The 63rd power of -2 is the least wide integer.  The one of 2 does not fit. -/
theorem call_pow_extremes :
    let services := (Context.new .core false).services
    (∃ v, core.call services "pow" [.int (-2), .int 63] = .ok v ∧
      v.integer? = some (-2 ^ 63) ∧ v.tag = .long) ∧
    ∃ fault, core.call services "pow" [.int 2, .long 63] = .error fault ∧
      fault.kind = .arithmetic := by
  intro services
  have hconvert : services.convert = Conversion.core.convert := rfl
  have hminus : (Value.int (-2)).integer? = some (-2) := by decide
  have htwo : (Value.int 2).integer? = some 2 := by decide
  have hexponent : (Value.int 63).integer? = some 63 := by decide
  have hexponent' : (Value.long 63).integer? = some 63 := by decide
  constructor
  · obtain ⟨hfits, -⟩ := call_pow hconvert hminus hexponent (by decide)
    exact hfits (by decide) (by decide)
  · obtain ⟨-, hoverflow, -⟩ := call_pow hconvert htwo hexponent' (by decide)
    exact hoverflow (by decide) (by decide)

/-- An exponent of 33 bits leads to the doubles, also if the base is 1 and the power is as well. -/
theorem call_pow_large_exponent :
    let services := (Context.new .core false).services
    (Value.int 1).integer? = some 1 ∧ (Value.long 4294967296).integer? = some (2 ^ 32) ∧
      (1 : Int) ^ (2 ^ 32) = 1 ∧
      ∃ d, core.call services "pow" [.int 1, .long 4294967296] = .ok (.double d) := by
  refine ⟨by decide, by decide, one_pow _, ?_⟩
  rw [call_pow_eq rfl rfl rfl]
  exact ⟨_, rfl⟩

end ExprLang.Functions
