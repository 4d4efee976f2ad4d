import ExprLang.Proofs.Decimal.Bits

/-!
# Rounding to the nearest double

The numbers that round to a double lie between the points half way to its neighbours.  Below a power
of two the neighbour is only half as far.  `nearest` gives the double for every fraction in this
interval, also when the fraction itself is below the power of two and is rounded up to it.
-/

namespace ExprLang.Decimal

/-- How far the numbers below `mantissa * 2 ^ exponent` that round to it reach, in quarters of the
distance to the double above.  Below a power of two doubles are twice as dense. -/
def gapBelow (mantissa : Nat) (exponent : Int) : Nat :=
  if mantissa = pow2 52 && minExponent < exponent then 1 else 2

theorem gapBelow_le (m : Nat) (e : Int) : (gapBelow m e : ℚ) ≤ 2 := by
  unfold gapBelow
  split <;> norm_num

theorem one_le_gapBelow (m : Nat) (e : Int) : (1 : ℚ) ≤ gapBelow m e := by
  unfold gapBelow
  split <;> norm_num

/-- The numbers that round to the double `mantissa * 2 ^ exponent`.  Those half way to its neighbours
do so if the mantissa is even. -/
structure RoundsTo (mantissa : Nat) (exponent : Int) (x : ℚ) : Prop where
  low_le : (mantissa - gapBelow mantissa exponent / 4 : ℚ) * 2 ^ exponent ≤ x
  le_high : x ≤ (mantissa + 1 / 2 : ℚ) * 2 ^ exponent
  even_of_eq : x = (mantissa - gapBelow mantissa exponent / 4 : ℚ) * 2 ^ exponent ∨
    x = (mantissa + 1 / 2 : ℚ) * 2 ^ exponent → mantissa % 2 = 0

/-- What lies strictly between the points half way to the neighbours rounds to the double. -/
theorem roundsTo_of_lt {m : Nat} {e : Int} {x : ℚ} (hlow : (m - gapBelow m e / 4 : ℚ) * 2 ^ e < x)
    (hhigh : x < (m + 1 / 2 : ℚ) * 2 ^ e) : RoundsTo m e x := by
  refine ⟨hlow.le, hhigh.le, ?_⟩
  rintro (h | h)
  · exact absurd h hlow.ne'
  · exact absurd h hhigh.ne

/-- A double rounds to itself. -/
theorem roundsTo_self (m : Nat) (e : Int) : RoundsTo m e (m * 2 ^ e) := by
  have hpos : (0 : ℚ) < 2 ^ e := by positivity
  have hgap := mul_pos (zero_lt_one.trans_le (one_le_gapBelow m e)) hpos
  exact roundsTo_of_lt (by linarith) (by linarith)

/-- A fraction with `2 ^ exponent` divided out. -/
def scaled (num den : Nat) (exponent : Int) : Nat × Nat :=
  if exponent < 0 then (num * pow2 exponent.natAbs, den) else (num, den * pow2 exponent.natAbs)

/-- The exponent of the double that is nearest to a fraction, before it is rounded. -/
def exponentOf (num den : Nat) : Int :=
  let low := max ((num.log2 : Int) - den.log2 - 53) minExponent
  if pow2 53 ≤ (scaled num den low).1 / (scaled num den low).2 then low + 1 else low

theorem nearest_eq {num : Nat} (hnum : num ≠ 0) (negative : Bool) (den : Nat) :
    nearest negative num den =
      let exponent := exponentOf num den
      let magnitude := (exponent - minExponent).toNat * pow2 52 +
        roundQuotient (scaled num den exponent).1 (scaled num den exponent).2
      if 2047 * pow2 52 ≤ magnitude then infinity negative else ofMagnitude negative magnitude := by
  rw [nearest, if_neg hnum]
  rfl

theorem scaled_pos (num : Nat) {den : Nat} (hden : 0 < den) (exponent : Int) :
    0 < (scaled num den exponent).2 := by
  unfold scaled
  split
  · exact hden
  · exact Nat.mul_pos hden (pow2_pos _)

theorem scaled_div {num den : Nat} (exponent : Int) :
    ((scaled num den exponent).1 : ℚ) / (scaled num den exponent).2 =
      num / den / 2 ^ exponent := by
  unfold scaled
  split
  · rename_i hneg
    have hexponent : exponent = -(exponent.natAbs : Int) := by omega
    simp only [pow2_eq]
    conv_rhs => rw [hexponent, zpow_neg, zpow_natCast]
    push_cast
    field_simp
  · rename_i hneg
    have hexponent : exponent = (exponent.natAbs : Int) := by omega
    simp only [pow2_eq]
    conv_rhs => rw [hexponent, zpow_natCast]
    push_cast
    field_simp

/-- A quotient within half a unit of a number is rounded to it, if the number is even in case of a
tie. -/
theorem roundQuotient_eq {n d m : Nat} (hd : 0 < d) (hlow : 2 * (m * d) ≤ 2 * n + d)
    (hhigh : 2 * n ≤ 2 * (m * d) + d)
    (htie : 2 * (m * d) = 2 * n + d ∨ 2 * n = 2 * (m * d) + d → m % 2 = 0) :
    roundQuotient n d = m := by
  have hsplit := Nat.div_add_mod n d
  have hmod := Nat.mod_lt n hd
  have hle : n / d ≤ m := by
    by_contra hlt
    have hmul : (m + 1) * d ≤ d * (n / d) := by
      rw [Nat.mul_comm d]
      exact Nat.mul_le_mul_right d (by omega)
    rw [Nat.add_mul] at hmul
    omega
  have hge : m ≤ n / d + 1 := by
    by_contra hlt
    have hmul : d * (n / d + 2) ≤ m * d := by
      rw [Nat.mul_comm d]
      exact Nat.mul_le_mul_right d (by omega)
    rw [Nat.mul_add] at hmul
    omega
  unfold roundQuotient
  simp only
  rcases Nat.lt_or_ge (n / d) m with hlt | hge'
  · obtain rfl : m = n / d + 1 := by omega
    rw [Nat.add_mul, Nat.mul_comm _ d] at *
    split
    · rfl
    · rename_i h
      simp only [Bool.or_eq_true, decide_eq_true_eq, Bool.and_eq_true] at h
      omega
  · obtain rfl : m = n / d := by omega
    rw [Nat.mul_comm _ d] at *
    split
    · rename_i h
      simp only [Bool.or_eq_true, decide_eq_true_eq, Bool.and_eq_true] at h
      omega
    · rfl

theorem le_scaled_div_iff {num den k : Nat} (hden : 0 < den) (exponent : Int) :
    k ≤ (scaled num den exponent).1 / (scaled num den exponent).2 ↔
      (k : ℚ) * 2 ^ exponent ≤ num / den := by
  have hpos := scaled_pos num hden exponent
  have hpow : (0 : ℚ) < 2 ^ exponent := by positivity
  rw [Nat.le_div_iff_mul_le hpos, ← le_div_iff₀ hpow, ← scaled_div, le_div_iff₀ (by exact_mod_cast hpos)]
  exact_mod_cast Iff.rfl

/-- The quotient of two numbers lies within a factor of two of that of their leading bits. -/
theorem div_log2_bounds {num den : Nat} (hnum : num ≠ 0) (hden : 0 < den) :
    (2 : ℚ) ^ ((num.log2 : Int) - den.log2 - 1) ≤ num / den ∧
      (num : ℚ) / den < 2 ^ ((num.log2 : Int) - den.log2 + 1) := by
  have hnum_le : ((2 ^ num.log2 : Nat) : ℚ) ≤ num := by exact_mod_cast Nat.log2_self_le hnum
  have hnum_lt : (num : ℚ) < ((2 ^ (num.log2 + 1) : Nat) : ℚ) := by exact_mod_cast Nat.lt_log2_self
  have hden_le : ((2 ^ den.log2 : Nat) : ℚ) ≤ den := by exact_mod_cast Nat.log2_self_le hden.ne'
  have hden_lt : (den : ℚ) < ((2 ^ (den.log2 + 1) : Nat) : ℚ) := by exact_mod_cast Nat.lt_log2_self
  have hpos : (0 : ℚ) < den := by exact_mod_cast hden
  push_cast at *
  constructor
  · rw [le_div_iff₀ hpos]
    calc (2 : ℚ) ^ ((num.log2 : Int) - den.log2 - 1) * den
        ≤ 2 ^ ((num.log2 : Int) - den.log2 - 1) * 2 ^ (den.log2 + 1) := by gcongr
      _ = 2 ^ num.log2 := by
        rw [← zpow_natCast, ← zpow_natCast, ← zpow_add₀ two_ne_zero]
        congr 1
        push_cast
        ring
      _ ≤ num := hnum_le
  · rw [div_lt_iff₀ hpos]
    calc (num : ℚ) < 2 ^ (num.log2 + 1) := hnum_lt
      _ = 2 ^ ((num.log2 : Int) - den.log2 + 1) * 2 ^ den.log2 := by
        rw [← zpow_natCast, ← zpow_natCast, ← zpow_add₀ two_ne_zero]
        congr 1
        push_cast
        ring
      _ ≤ 2 ^ ((num.log2 : Int) - den.log2 + 1) * den := by gcongr

/-- The exponent leaves a quotient of 53 bits, unless it is the smallest one. -/
theorem exponentOf_spec {num den : Nat} (hnum : num ≠ 0) (hden : 0 < den) :
    minExponent ≤ exponentOf num den ∧
      (num : ℚ) / den < 2 ^ 53 * 2 ^ exponentOf num den ∧
      (minExponent < exponentOf num den → 2 ^ 52 * 2 ^ exponentOf num den ≤ (num : ℚ) / den) := by
  obtain ⟨hlower, hupper⟩ := div_log2_bounds hnum hden
  have hpow (k : Nat) (e : Int) : (2 : ℚ) ^ k * 2 ^ e = 2 ^ ((k : Int) + e) := by
    rw [zpow_add₀ two_ne_zero, zpow_natCast]
  have hcast : ((pow2 53 : Nat) : ℚ) = 2 ^ 53 := by
    rw [pow2_eq]
    exact Nat.cast_pow 2 53
  simp only [exponentOf, le_scaled_div_iff hden, hcast, hpow]
  set low := max ((num.log2 : Int) - den.log2 - 53) minExponent with hlow
  split
  · rename_i hle
    refine ⟨by omega, ?_, fun _ => ?_⟩
    · exact hupper.trans_le (zpow_le_zpow_right₀ one_le_two (by push_cast; omega))
    · exact (zpow_le_zpow_right₀ one_le_two (by push_cast; omega)).trans hle
  · rename_i hlt
    refine ⟨by omega, not_le.1 hlt, fun hmin => ?_⟩
    exact (zpow_le_zpow_right₀ one_le_two (by push_cast; omega)).trans hlower

/-- A quotient within half a unit of a number, in terms of fractions. -/
theorem roundQuotient_scaled {num den m : Nat} (hden : 0 < den) (exponent : Int)
    (hlow : (m - 1 / 2 : ℚ) * 2 ^ exponent ≤ num / den)
    (hhigh : (num : ℚ) / den ≤ (m + 1 / 2) * 2 ^ exponent)
    (htie : (num : ℚ) / den = (m - 1 / 2) * 2 ^ exponent ∨
      (num : ℚ) / den = (m + 1 / 2) * 2 ^ exponent → m % 2 = 0) :
    roundQuotient (scaled num den exponent).1 (scaled num den exponent).2 = m := by
  have hpos := scaled_pos num hden exponent
  have hposQ : (0 : ℚ) < (scaled num den exponent).2 := by exact_mod_cast hpos
  have hpow : (0 : ℚ) < 2 ^ exponent := by positivity
  rw [← le_div_iff₀ hpow, ← scaled_div, le_div_iff₀ hposQ] at hlow
  rw [← div_le_iff₀ hpow, ← scaled_div, div_le_iff₀ hposQ] at hhigh
  rw [← div_eq_iff hpow.ne', ← div_eq_iff hpow.ne', ← scaled_div, div_eq_iff hposQ.ne',
    div_eq_iff hposQ.ne'] at htie
  generalize (scaled num den exponent).1 = n at *
  generalize (scaled num den exponent).2 = d at *
  apply roundQuotient_eq hpos
  · have : (2 * (m * d) : ℚ) ≤ 2 * n + d := by linarith
    exact_mod_cast this
  · have : (2 * n : ℚ) ≤ 2 * (m * d) + d := by linarith
    exact_mod_cast this
  · rintro (h | h)
    · have : (2 * (m * d) : ℚ) = 2 * n + d := by exact_mod_cast h
      exact htie (.inl (by linarith))
    · have : (2 * n : ℚ) = 2 * (m * d) + d := by exact_mod_cast h
      exact htie (.inr (by linarith))

/-- What rounds to a double is below the doubles that have a larger exponent. -/
theorem RoundsTo.lt_pow {m : Nat} {e : Int} {x : ℚ} (h : RoundsTo m e x) (hshape : Shaped m e) :
    x < 2 ^ 53 * 2 ^ e := by
  have hm : (m : ℚ) + 1 ≤ 2 ^ 53 := by exact_mod_cast hshape.mantissa_lt
  calc x ≤ (m + 1 / 2) * 2 ^ e := h.le_high
    _ < 2 ^ 53 * 2 ^ e := by
        gcongr
        linarith

/-- What is below all doubles with the exponent of `m` rounds to `m` only if that is a power of two,
and then lies in the last half of the gap below it. -/
theorem RoundsTo.eq_pow2_of_lt {m : Nat} {e : Int} {x : ℚ} (h : RoundsTo m e x)
    (hshape : Shaped m e) (he : minExponent < e) (hx : x < 2 ^ 52 * 2 ^ e) :
    m = pow2 52 ∧ (2 ^ 53 - 1 / 2 : ℚ) * 2 ^ (e - 1) ≤ x := by
  have hpos : (0 : ℚ) < 2 ^ e := by positivity
  have hgap := gapBelow_le m e
  have hlow := h.low_le
  have hsmall : (m : ℚ) < 2 ^ 52 + 1 := by
    have hm := lt_of_mul_lt_mul_right (hlow.trans_lt hx) hpos.le
    linarith
  have hm : m = pow2 52 := by
    have hm' : m < 2 ^ 52 + 1 := by exact_mod_cast hsmall
    have hle := hshape.le_mantissa he
    rw [pow2_eq] at *
    omega
  have hhalf : (2 : ℚ) ^ (e - 1) = 2 ^ e / 2 := by rw [zpow_sub_one₀ two_ne_zero, div_eq_mul_inv]
  have hgap' : gapBelow m e = 1 := by simp [gapBelow, hm, he]
  refine ⟨hm, ?_⟩
  rw [hgap', hm, pow2_eq] at hlow
  push_cast at hlow
  rw [hhalf]
  linarith

/-- A fraction that rounds to a double other than zero has the exponent of that double, unless the
double is a power of two and the fraction is smaller. -/
theorem RoundsTo.exponentOf_eq {num den m : Nat} {e : Int} (h : RoundsTo m e (num / den))
    (hshape : Shaped m e) (hnum : num ≠ 0) (hden : 0 < den) :
    exponentOf num den = e ∨
      (exponentOf num den = e - 1 ∧ m = pow2 52 ∧ minExponent < e ∧
        (2 ^ 53 - 1 / 2 : ℚ) * 2 ^ (e - 1) ≤ num / den ∧ (num : ℚ) / den < 2 ^ 53 * 2 ^ (e - 1)) := by
  obtain ⟨hmin, hlt, hle⟩ := exponentOf_spec hnum hden
  have hemin := hshape.le_exponent
  have hhigh := h.lt_pow hshape
  generalize exponentOf num den = E at *
  rcases lt_trichotomy E e with hE | hE | hE
  · -- Here the fraction is below all doubles with the exponent of `m`.
    have hbelow : (num : ℚ) / den < 2 ^ 52 * 2 ^ e :=
      calc (num : ℚ) / den < 2 ^ 53 * 2 ^ E := hlt
        _ ≤ 2 ^ 53 * 2 ^ (e - 1) := by
            gcongr
            · exact one_le_two
            · omega
        _ = 2 ^ 52 * 2 ^ e := by
            rw [zpow_sub_one₀ two_ne_zero]
            ring
    obtain ⟨hm, hlow⟩ := h.eq_pow2_of_lt hshape (by omega) hbelow
    obtain rfl : E = e - 1 := by
      by_contra hne
      have hpow : (2 : ℚ) ^ (E + 1) ≤ 2 ^ (e - 1) := zpow_le_zpow_right₀ one_le_two (by omega)
      rw [zpow_add_one₀ two_ne_zero] at hpow
      have hpos : (0 : ℚ) < 2 ^ E := by positivity
      linarith
    exact .inr ⟨rfl, hm, by omega, hlow, hlt⟩
  · exact .inl hE
  · -- Here the fraction is above all doubles with the exponent of `m`.
    have habove : (2 : ℚ) ^ 53 * 2 ^ e ≤ num / den :=
      calc (2 : ℚ) ^ 53 * 2 ^ e = 2 ^ 52 * 2 ^ (e + 1) := by
            rw [zpow_add_one₀ two_ne_zero]
            ring
        _ ≤ 2 ^ 52 * 2 ^ E := by
            gcongr
            · exact one_le_two
            · omega
        _ ≤ num / den := hle (by omega)
    exact absurd hhigh (not_lt.2 habove)

theorem RoundsTo.pos {m : Nat} {e : Int} {x : ℚ} (h : RoundsTo m e x) (hm : 0 < m) : 0 < x := by
  have hgap := gapBelow_le m e
  have hone : (1 : ℚ) ≤ m := by exact_mod_cast hm
  refine lt_of_lt_of_le (mul_pos ?_ (by positivity)) h.low_le
  linarith

/-- Every fraction that rounds to a double other than zero is read as this double. -/
theorem RoundsTo.nearest_eq {num den m : Nat} {e : Int} (h : RoundsTo m e (num / den))
    (hshape : Shaped m e) (hm : 0 < m) (hden : 0 < den) :
    nearest false num den = ofMagnitude false (bitsOf m e) := by
  have hnum : num ≠ 0 := by
    rintro rfl
    simpa using h.pos hm
  have hmagnitude : (exponentOf num den - minExponent).toNat * pow2 52 +
      roundQuotient (scaled num den (exponentOf num den)).1
        (scaled num den (exponentOf num den)).2 = bitsOf m e := by
    rcases h.exponentOf_eq hshape hnum hden with hE | ⟨hE, rfl, hmin, hlow, hlt⟩
    · have hpos : (0 : ℚ) < 2 ^ e := by positivity
      have hgap := gapBelow_le m e
      have hbelow : (m - 1 / 2 : ℚ) * 2 ^ e ≤ (m - gapBelow m e / 4) * 2 ^ e :=
        mul_le_mul_of_nonneg_right (by linarith) hpos.le
      rw [hE, roundQuotient_scaled hden e (hbelow.trans h.low_le) h.le_high, bitsOf]
      rintro (htie | htie)
      · exact h.even_of_eq (.inl (le_antisymm (htie ▸ hbelow) h.low_le))
      · exact h.even_of_eq (.inr htie)
    · have hcast : ((pow2 53 : Nat) : ℚ) = 2 ^ 53 := by
        rw [pow2_eq]
        exact Nat.cast_pow 2 53
      have hpos : (0 : ℚ) < 2 ^ (e - 1) := by positivity
      rw [hE, roundQuotient_scaled (m := pow2 53) hden (e - 1), bitsOf]
      · simp only [minExponent, pow2_eq] at *
        omega
      · rwa [hcast]
      · rw [hcast]
        linarith
      · exact fun _ => rfl
  rw [Decimal.nearest_eq hnum]
  simp only
  rw [hmagnitude, if_neg (not_le.2 hshape.bitsOf_lt)]

end ExprLang.Decimal
