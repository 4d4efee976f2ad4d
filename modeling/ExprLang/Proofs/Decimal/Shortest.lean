import ExprLang.Decimal.Shortest
import ExprLang.Proofs.Decimal.Nearest

/-!
# Shortest digits round to their double

The search for the shortest digits of a double looks for a number in the interval of those that round
to it, on one grid after the other.  Whatever it finds is in the interval
(`Rounding.admits_of_onGrid?`), and it finds something, since a grid as fine as the interval has a
point in it (`Rounding.admits_below`) and the last grid is that fine for every double.
-/

namespace ExprLang.Decimal

/-- The number that decimal digits stand for. -/
def Digits.value (d : Digits) : ℚ :=
  d.coefficient * 10 ^ d.exponent

theorem pow10_eq (n : Nat) : pow10 n = 10 ^ n := rfl

namespace Rounding

variable {r : Rounding} {tie : Tie} {m : Nat} {e : Int}

/-- The factor that brings the ends of the interval to a grid. -/
def upscale (exponent : Int) : Nat :=
  if exponent < 0 then pow10 exponent.natAbs else 1

/-- The distance between two points of a grid. -/
def step (r : Rounding) (exponent : Int) : Nat :=
  r.unit * if exponent < 0 then 1 else pow10 exponent.natAbs

/-- Whether the grid point `coefficient * 10 ^ exponent` is in the interval. -/
def admits (r : Rounding) (exponent : Int) (coefficient : Nat) : Bool :=
  if r.closed then
    r.low * upscale exponent ≤ coefficient * r.step exponent &&
      coefficient * r.step exponent ≤ r.high * upscale exponent
  else
    r.low * upscale exponent < coefficient * r.step exponent &&
      coefficient * r.step exponent < r.high * upscale exponent

/-- The last grid point that is not above the value. -/
def below (r : Rounding) (exponent : Int) : Nat :=
  r.value * upscale exponent / r.step exponent

theorem onGrid?_eq (r : Rounding) (tie : Tie) (exponent : Int) : ∃ preferAbove : Bool,
    r.onGrid? tie exponent =
      if r.admits exponent (r.below exponent) && r.admits exponent (r.below exponent + 1) then
        some ⟨if preferAbove then r.below exponent + 1 else r.below exponent, exponent⟩
      else if r.admits exponent (r.below exponent) then some ⟨r.below exponent, exponent⟩
      else if r.admits exponent (r.below exponent + 1) then some ⟨r.below exponent + 1, exponent⟩
      else none :=
  ⟨_, rfl⟩

/-- What is found on a grid is in the interval. -/
theorem admits_of_onGrid? {exponent : Int} {d : Digits} (h : r.onGrid? tie exponent = some d) :
    r.admits d.exponent d.coefficient = true := by
  obtain ⟨preferAbove, heq⟩ := r.onGrid?_eq tie exponent
  rw [heq] at h
  split at h
  · rename_i hboth
    rw [Bool.and_eq_true] at hboth
    obtain rfl := Option.some.inj h
    cases preferAbove with
    | false => exact hboth.1
    | true => exact hboth.2
  · split at h
    · rename_i hbelow
      obtain rfl := Option.some.inj h
      exact hbelow
    · split at h
      · rename_i habove
        obtain rfl := Option.some.inj h
        exact habove
      · cases h

theorem isSome_onGrid? {exponent : Int} (h : r.admits exponent (r.below exponent) = true) :
    (r.onGrid? tie exponent).isSome = true := by
  obtain ⟨preferAbove, heq⟩ := r.onGrid?_eq tie exponent
  rw [heq, h, Bool.true_and]
  split
  · rfl
  · rfl

/-- The search finds a number in the interval if one of its grids has one. -/
theorem search_spec {steps : Nat} {exponent : Int}
    (h : ∃ k : Nat, k < steps ∧ (r.onGrid? tie (exponent - k)).isSome = true) :
    ∃ d, r.search tie exponent steps = some d ∧ r.admits d.exponent d.coefficient = true := by
  induction steps generalizing exponent with
  | zero =>
    obtain ⟨k, hk, -⟩ := h
    exact absurd hk (Nat.not_lt_zero k)
  | succ steps ih =>
    rw [search]
    cases hgrid : r.onGrid? tie exponent with
    | some d => exact ⟨d, rfl, admits_of_onGrid? hgrid⟩
    | none =>
      obtain ⟨k, hk, hsome⟩ := h
      rw [Option.none_or]
      apply ih
      cases k with
      | zero =>
        rw [Nat.cast_zero, sub_zero, hgrid] at hsome
        cases hsome
      | succ k =>
        refine ⟨k, by omega, ?_⟩
        rw [show exponent - 1 - (k : Int) = exponent - (k + 1 : Nat) by push_cast; ring]
        exact hsome

theorem upscale_pos (exponent : Int) : 0 < upscale exponent := by
  unfold upscale
  split
  · exact pow10_pos _
  · exact Nat.one_pos

/-- A grid point on the scale of the interval. -/
theorem mul_step_eq (r : Rounding) (exponent : Int) (c : Nat) :
    ((c * r.step exponent : Nat) : ℚ) = c * 10 ^ exponent * (r.unit * upscale exponent) := by
  unfold step upscale
  split
  · rename_i hneg
    obtain ⟨k, rfl⟩ : ∃ k : Nat, exponent = -(k : Int) := ⟨exponent.natAbs, by omega⟩
    rw [Int.natAbs_neg, Int.natAbs_natCast, zpow_neg, zpow_natCast, pow10_eq]
    push_cast
    field_simp
  · rename_i hneg
    obtain ⟨k, rfl⟩ := Int.eq_ofNat_of_zero_le (not_lt.1 hneg)
    rw [Int.natAbs_natCast, zpow_natCast, pow10_eq]
    push_cast
    ring

theorem of_unit_pos (m : Nat) (e : Int) : 0 < (Rounding.of m e).unit := by
  simp only [Rounding.of]
  split
  · exact pow2_pos _
  · exact Nat.one_pos

/-- The factor of the interval is a quarter of the distance to the double above. -/
theorem of_factor (m : Nat) (e : Int) :
    ∃ factor : Nat, (Rounding.of m e).low = (4 * m - gapBelow m e) * factor ∧
      (Rounding.of m e).value = 4 * m * factor ∧ (Rounding.of m e).high = (4 * m + 2) * factor ∧
      (factor : ℚ) = 2 ^ e / 4 * (Rounding.of m e).unit := by
  refine ⟨_, rfl, rfl, rfl, ?_⟩
  have hquarter : (2 : ℚ) ^ (e - 2) = 2 ^ e / 4 := by
    rw [zpow_sub₀ two_ne_zero]
    norm_num
  rw [← hquarter]
  simp only [Rounding.of]
  split
  · rename_i hneg
    obtain ⟨k, hk⟩ : ∃ k : Nat, e - 2 = -(k : Int) := ⟨(e - 2).natAbs, by omega⟩
    rw [hk, Int.natAbs_neg, Int.natAbs_natCast, zpow_neg, zpow_natCast, pow2_eq]
    push_cast
    field_simp
  · rename_i hneg
    obtain ⟨k, hk⟩ := Int.eq_ofNat_of_zero_le (not_lt.1 hneg)
    rw [hk, Int.natAbs_natCast, zpow_natCast, pow2_eq]
    push_cast
    ring

theorem of_scale_pos (m : Nat) (e exponent : Int) :
    (0 : ℚ) < (Rounding.of m e).unit * upscale exponent := by
  exact_mod_cast Nat.mul_pos (of_unit_pos m e) (upscale_pos exponent)

/-- The bounds and the value of the interval of a double, on the scale of the grid points. -/
theorem of_mul_upscale (hm : 0 < m) (exponent : Int) :
    (((Rounding.of m e).low * upscale exponent : Nat) : ℚ) =
        (m - gapBelow m e / 4) * 2 ^ e * ((Rounding.of m e).unit * upscale exponent) ∧
      (((Rounding.of m e).value * upscale exponent : Nat) : ℚ) =
        m * 2 ^ e * ((Rounding.of m e).unit * upscale exponent) ∧
      (((Rounding.of m e).high * upscale exponent : Nat) : ℚ) =
        (m + 1 / 2) * 2 ^ e * ((Rounding.of m e).unit * upscale exponent) := by
  obtain ⟨factor, hlow, hvalue, hhigh, hfactor⟩ := of_factor m e
  have hgap : gapBelow m e ≤ 4 * m := by
    have hle : gapBelow m e ≤ 2 := by exact_mod_cast gapBelow_le m e
    omega
  rw [hlow, hvalue, hhigh]
  push_cast [Nat.cast_sub hgap]
  rw [hfactor]
  refine ⟨?_, ?_, ?_⟩ <;> ring

/-- The interval of a double has exactly the grid points that round to it. -/
theorem admits_of_iff (hm : 0 < m) {exponent : Int} {c : Nat} :
    (Rounding.of m e).admits exponent c = true ↔ RoundsTo m e (c * 10 ^ exponent) := by
  have hscale := of_scale_pos m e exponent
  have hpoint := mul_step_eq (Rounding.of m e) exponent c
  obtain ⟨hlow, -, hhigh⟩ := of_mul_upscale (e := e) hm exponent
  have hclosed : (Rounding.of m e).closed = decide (m % 2 = 0) := rfl
  have hle (x y : Nat) : x ≤ y ↔ (x : ℚ) ≤ y := Nat.cast_le.symm
  have hlt (x y : Nat) : x < y ↔ (x : ℚ) < y := Nat.cast_lt.symm
  rw [admits, hclosed]
  simp only [decide_eq_true_eq, hle, hlt, hpoint, hlow, hhigh, mul_le_mul_iff_of_pos_right hscale,
    mul_lt_mul_iff_of_pos_right hscale]
  split
  · rename_i heven
    rw [Bool.and_eq_true, decide_eq_true_eq, decide_eq_true_eq]
    constructor
    · rintro ⟨hl, hh⟩
      exact ⟨hl, hh, fun _ => heven⟩
    · rintro ⟨hl, hh, -⟩
      exact ⟨hl, hh⟩
  · rename_i hodd
    rw [Bool.and_eq_true, decide_eq_true_eq, decide_eq_true_eq]
    constructor
    · rintro ⟨hl, hh⟩
      exact roundsTo_of_lt hl hh
    · rintro ⟨hl, hh, heven⟩
      refine ⟨lt_of_le_of_ne hl fun h => ?_, lt_of_le_of_ne hh fun h => ?_⟩
      · exact hodd (heven (.inl h.symm))
      · exact hodd (heven (.inr h))

/-- The value of the interval lies between the grid point below it and the next one. -/
theorem below_bounds (hm : 0 < m) (exponent : Int) :
    ((Rounding.of m e).below exponent * 10 ^ exponent : ℚ) ≤ m * 2 ^ e ∧
      (m * 2 ^ e : ℚ) < ((Rounding.of m e).below exponent + 1) * 10 ^ exponent := by
  have hscale := of_scale_pos m e exponent
  obtain ⟨-, hvalue, -⟩ := of_mul_upscale (e := e) hm exponent
  have hstep : 0 < (Rounding.of m e).step exponent := by
    have hpos : (0 : ℚ) < ((1 * (Rounding.of m e).step exponent : Nat) : ℚ) := by
      rw [mul_step_eq]
      positivity
    rw [Nat.one_mul] at hpos
    exact_mod_cast hpos
  constructor
  · rw [← mul_le_mul_iff_of_pos_right hscale, ← mul_step_eq, ← hvalue]
    exact_mod_cast Nat.div_mul_le_self _ _
  · rw [← mul_lt_mul_iff_of_pos_right hscale, ← Nat.cast_add_one, ← mul_step_eq, ← hvalue]
    exact_mod_cast (Nat.div_lt_iff_lt_mul hstep).1 (Nat.lt_succ_self _)

/-- On a grid that is fine enough, the point below the value rounds to it. -/
theorem admits_below (hm : 0 < m) {exponent : Int} (hfine : (10 : ℚ) ^ exponent ≤ 2 ^ e / 4) :
    (Rounding.of m e).admits exponent ((Rounding.of m e).below exponent) = true := by
  obtain ⟨hle, hlt⟩ := below_bounds (e := e) hm exponent
  have hpow : (0 : ℚ) < 2 ^ e := by positivity
  have hgap := mul_le_mul_of_nonneg_right (one_le_gapBelow m e) hpow.le
  rw [admits_of_iff hm]
  generalize ((Rounding.of m e).below exponent : ℚ) = b at *
  exact roundsTo_of_lt (by linarith) (by linarith)

end Rounding

/-- A power of ten is at most a power of two if the exponents have the right proportion, which lies
between 93 / 28 and 10 / 3. -/
theorem ten_zpow_le_two_zpow {t u : Int} (hpos : 10 * t ≤ 3 * u) (hneg : 93 * t ≤ 28 * u) :
    (10 : ℚ) ^ t ≤ 2 ^ u := by
  rcases le_total 0 t with ht | ht
  · obtain ⟨k, rfl⟩ := Int.eq_ofNat_of_zero_le ht
    have hu : (0 : ℚ) ≤ 2 ^ u := by positivity
    apply le_of_pow_le_pow_left₀ (n := 3) (by decide) hu
    calc ((10 : ℚ) ^ (k : Int)) ^ 3 = (10 ^ 3) ^ k := by rw [zpow_natCast, pow_right_comm]
      _ ≤ (2 ^ 10) ^ k := by gcongr; norm_num
      _ = 2 ^ ((10 * k : Nat) : Int) := by rw [zpow_natCast, pow_mul]
      _ ≤ 2 ^ (u * 3) := zpow_le_zpow_right₀ one_le_two (by push_cast; omega)
      _ = (2 ^ u) ^ 3 := by rw [zpow_mul]; rfl
  · obtain ⟨k, rfl⟩ : ∃ k : Nat, t = -(k : Int) := ⟨t.natAbs, by omega⟩
    have hu : (0 : ℚ) ≤ 2 ^ u := by positivity
    apply le_of_pow_le_pow_left₀ (n := 28) (by decide) hu
    calc ((10 : ℚ) ^ (-(k : Int))) ^ 28 = ((10 ^ 28) ^ k)⁻¹ := by
          rw [zpow_neg, zpow_natCast, inv_pow, pow_right_comm]
      _ ≤ ((2 ^ 93) ^ k)⁻¹ := by gcongr; norm_num
      _ = 2 ^ (-((93 * k : Nat) : Int)) := by rw [zpow_neg, zpow_natCast, pow_mul]
      _ ≤ 2 ^ (u * 28) := zpow_le_zpow_right₀ one_le_two (by push_cast; omega)
      _ = (2 ^ u) ^ 28 := by rw [zpow_mul]; rfl

@[simp]
theorem Digits.value_stripped (d : Digits) : d.stripped.value = d.value := by
  fun_induction Digits.stripped d with
  | case1 d h ih =>
    have hcoefficient : d.coefficient = 10 * (d.coefficient / 10) := by omega
    rw [ih, value, value]
    conv_rhs => rw [hcoefficient]
    rw [zpow_add_one₀ (by norm_num)]
    push_cast
    ring
  | case2 d h => rfl

/-- The shortest digits of a double other than zero round to it. -/
theorem roundsTo_shortest {m : Nat} {e : Int} (hshape : Shaped m e) (hm : 0 < m) (tie : Tie) :
    RoundsTo m e (shortest tie m e).value := by
  have hlog : m.log2 < 53 := (Nat.log2_lt hm.ne').2 hshape.mantissa_lt
  have hemin := hshape.le_exponent
  have hemax := hshape.exponent_le
  unfold minExponent at hemin
  set leading := ((m.log2 : Int) + e) * 1233 / 4096 with hleading
  -- The last of the grids is fine enough.
  have hfine : (10 : ℚ) ^ (leading + 2 - (23 : Nat)) ≤ 2 ^ e / 4 := by
    have hquarter : (2 : ℚ) ^ (e - 2) = 2 ^ e / 4 := by
      rw [zpow_sub₀ two_ne_zero]
      norm_num
    rw [← hquarter]
    exact ten_zpow_le_two_zpow (by omega) (by omega)
  have hgrid : ((Rounding.of m e).onGrid? tie (leading + 2 - (23 : Nat))).isSome = true :=
    Rounding.isSome_onGrid? (Rounding.admits_below hm hfine)
  have hsearch : ∃ k : Nat, k < 24 ∧
      ((Rounding.of m e).onGrid? tie (leading + 2 - k)).isSome = true := ⟨23, by decide, hgrid⟩
  obtain ⟨d, hd, hadmits⟩ := Rounding.search_spec hsearch
  rw [shortest, ← hleading, hd, Option.getD_some, Digits.value_stripped]
  exact (Rounding.admits_of_iff hm).1 hadmits

end ExprLang.Decimal
