import ExprLang.Decimal.Reader
import ExprLang.Proofs.Decimal.Shortest
import ExprLang.Value.Text

/-!
# Written doubles are read back

Every finite double that is not negative is written as digits with a point between them, and reading
these digits gives the double.  The written number need not be equal to the double, but it rounds to
it, and it is neither so large nor so small that the reader settles it by its first digit.
-/

namespace ExprLang.Decimal

/-- One or more decimal digits. -/
def IsDigits (cs : List Char) : Prop :=
  cs ≠ [] ∧ ∀ c ∈ cs, c.isDigit = true

theorem digitsValue_eq (cs : List Char) : digitsValue cs = Nat.ofDigitChars 10 cs 0 := by
  rw [Nat.ofDigitChars_eq_foldl]
  rfl

@[simp]
theorem digitsValue_repr (n : Nat) : digitsValue n.repr.toList = n := by
  rw [digitsValue_eq, Nat.toList_repr, Nat.ofDigitChars_ten_toDigits]

theorem isDigits_repr (n : Nat) : IsDigits n.repr.toList := by
  rw [Nat.toList_repr]
  exact ⟨Nat.toDigits_ne_nil, fun c => Nat.isDigit_of_mem_toDigits (by decide) (le_refl _)⟩

/-- Zeros behind the digits multiply the number. -/
theorem digitsValue_append_zeros (cs : List Char) (n : Nat) :
    digitsValue (cs ++ List.replicate n '0') = digitsValue cs * 10 ^ n := by
  rw [digitsValue_eq, digitsValue_eq, Nat.ofDigitChars_append, Nat.ofDigitChars_replicate_zero,
    Nat.mul_comm]

/-- Zeros in front of the digits do not count. -/
theorem digitsValue_zeros_append (n : Nat) (cs : List Char) :
    digitsValue (List.replicate n '0' ++ cs) = digitsValue cs := by
  rw [digitsValue_eq, digitsValue_eq, Nat.ofDigitChars_append, Nat.ofDigitChars_replicate_zero,
    Nat.mul_zero]

theorem lt_pow_length_repr (n : Nat) : n < 10 ^ n.repr.length :=
  (Nat.length_repr_le_iff Nat.length_repr_pos).1 (le_refl _)

theorem pow_length_repr_le {n : Nat} (h : 0 < n) : 10 ^ (n.repr.length - 1) ≤ n := by
  by_contra hlt
  have hlen : n.repr.length - 1 ≠ 0 := by
    intro hzero
    rw [hzero] at hlt
    omega
  have hle := (Nat.length_repr_le_iff (Nat.pos_of_ne_zero hlen)).2 (not_le.1 hlt)
  omega

/-- The place of its first digit bounds a number from above. -/
theorem lt_first_digit (c : Nat) (t : Int) :
    (c * 10 ^ t : ℚ) < 10 ^ ((c.repr.length : Int) + t) := by
  have hlength : (c : ℚ) < 10 ^ c.repr.length := by exact_mod_cast lt_pow_length_repr c
  have hplace : (0 : ℚ) < 10 ^ t := by positivity
  calc (c : ℚ) * 10 ^ t < 10 ^ c.repr.length * 10 ^ t := by gcongr
    _ = 10 ^ ((c.repr.length : Int) + t) := by rw [zpow_add₀ (by norm_num), zpow_natCast]

/-- The place of its first digit bounds a number from below. -/
theorem first_digit_le {c : Nat} (hc : 0 < c) (t : Int) :
    (10 ^ ((c.repr.length : Int) + t - 1) : ℚ) ≤ c * 10 ^ t := by
  have hlength : (10 : ℚ) ^ (c.repr.length - 1) ≤ c := by exact_mod_cast pow_length_repr_le hc
  have hplace : (c.repr.length : Int) + t - 1 = ((c.repr.length - 1 : Nat) : Int) + t := by
    have := Nat.length_repr_pos (n := c)
    omega
  calc (10 ^ ((c.repr.length : Int) + t - 1) : ℚ) = 10 ^ (c.repr.length - 1) * 10 ^ t := by
        rw [hplace, zpow_add₀ (by norm_num), zpow_natCast]
    _ ≤ c * 10 ^ t := by gcongr

/-- What rounds to a double other than zero is at least half of the smallest one. -/
theorem RoundsTo.half_least_le {m : Nat} {e : Int} {x : ℚ} (h : RoundsTo m e x)
    (hshape : Shaped m e) (hm : 0 < m) : (2 : ℚ) ^ (-1075 : Int) ≤ x := by
  have hgap := gapBelow_le m e
  have hone : (1 : ℚ) ≤ m := by exact_mod_cast hm
  calc (2 : ℚ) ^ (-1075 : Int) = 1 / 2 * 2 ^ (-1074 : Int) := by
        rw [show (-1075 : Int) = -1074 - 1 by norm_num, zpow_sub_one₀ two_ne_zero]
        ring
    _ ≤ (m - gapBelow m e / 4) * 2 ^ e := by
        refine mul_le_mul (by linarith) ?_ (by positivity) (by linarith)
        exact zpow_le_zpow_right₀ one_le_two hshape.le_exponent
    _ ≤ x := h.low_le

/-- What rounds to a double is at most the first power of two that is too large for one. -/
theorem RoundsTo.le_two_pow {m : Nat} {e : Int} {x : ℚ} (h : RoundsTo m e x)
    (hshape : Shaped m e) : x ≤ 2 ^ (1024 : Int) :=
  calc x ≤ 2 ^ 53 * 2 ^ e := (h.lt_pow hshape).le
    _ ≤ 2 ^ 53 * 2 ^ (971 : Int) := by
        gcongr
        · exact one_le_two
        · exact hshape.exponent_le
    _ = 2 ^ (1024 : Int) := by
        rw [show (1024 : Int) = (53 : Nat) + 971 by norm_num, zpow_add₀ two_ne_zero, zpow_natCast]

/-- The numbers that round to doubles other than zero have their first digit in a bounded place. -/
theorem RoundsTo.point_bounds {c m : Nat} {t e : Int} (h : RoundsTo m e (c * 10 ^ t))
    (hshape : Shaped m e) (hm : 0 < m) (hc : 0 < c) :
    -400 ≤ (c.repr.length : Int) + t ∧ (c.repr.length : Int) + t ≤ 400 := by
  constructor
  · by_contra hsmall
    have hten : (10 : ℚ) ^ (-401 : Int) ≤ 2 ^ (-1075 : Int) :=
      ten_zpow_le_two_zpow (by norm_num) (by norm_num)
    have hlt : (2 : ℚ) ^ (-1075 : Int) < 10 ^ (-401 : Int) :=
      calc (2 : ℚ) ^ (-1075 : Int) ≤ c * 10 ^ t := h.half_least_le hshape hm
        _ < 10 ^ ((c.repr.length : Int) + t) := lt_first_digit c t
        _ ≤ 10 ^ (-401 : Int) := zpow_le_zpow_right₀ (by norm_num) (by omega)
    exact absurd hlt (not_lt.2 hten)
  · by_contra hlarge
    have hten : (10 : ℚ) ^ (-400 : Int) ≤ 2 ^ (-1025 : Int) :=
      ten_zpow_le_two_zpow (by norm_num) (by norm_num)
    rw [zpow_neg, zpow_neg, inv_le_inv₀ (by positivity) (by positivity)] at hten
    have hle : (10 : ℚ) ^ (400 : Int) ≤ 2 ^ (1024 : Int) :=
      calc (10 : ℚ) ^ (400 : Int) ≤ 10 ^ ((c.repr.length : Int) + t - 1) :=
            zpow_le_zpow_right₀ (by norm_num) (by omega)
        _ ≤ c * 10 ^ t := first_digit_le hc t
        _ ≤ 2 ^ (1024 : Int) := h.le_two_pow hshape
    have hlt : (2 : ℚ) ^ (1024 : Int) < 2 ^ (1025 : Int) :=
      zpow_lt_zpow_right₀ one_lt_two (by norm_num)
    exact absurd (hten.trans hle) (not_le.2 hlt)

/-- Digits that round to a double are read as this double. -/
theorem RoundsTo.nearestScaled_eq {c m : Nat} {t e : Int} (h : RoundsTo m e (c * 10 ^ t))
    (hshape : Shaped m e) (hm : 0 < m) :
    nearestScaled false c t = ofMagnitude false (bitsOf m e) := by
  have hc : 0 < c := by
    have hpos := h.pos hm
    rw [mul_pos_iff_of_pos_right (by positivity)] at hpos
    exact_mod_cast hpos
  obtain ⟨hsmall, hlarge⟩ := h.point_bounds hshape hm hc
  unfold nearestScaled
  simp only
  rw [if_neg (by simp; omega), if_neg (by omega)]
  split
  · rename_i hneg
    obtain ⟨k, rfl⟩ : ∃ k : Nat, t = -(k : Int) := ⟨t.natAbs, by omega⟩
    rw [Int.natAbs_neg, Int.natAbs_natCast]
    refine RoundsTo.nearest_eq ?_ hshape hm (pow10_pos k)
    rwa [pow10_eq, Nat.cast_pow, div_eq_mul_inv, ← zpow_natCast, ← zpow_neg]
  · rename_i hneg
    obtain ⟨k, rfl⟩ := Int.eq_ofNat_of_zero_le (not_lt.1 hneg)
    rw [Int.natAbs_natCast]
    refine RoundsTo.nearest_eq ?_ hshape hm Nat.one_pos
    rw [pow10_eq, Nat.cast_one, div_one]
    push_cast
    rwa [zpow_natCast] at h

/-- Digits with a point between them that stand for a number. -/
def IsPointed (text : List Char) (x : ℚ) : Prop :=
  ∃ whole fraction, text = whole ++ '.' :: fraction ∧ IsDigits whole ∧ IsDigits fraction ∧
    (digitsValue (whole ++ fraction) : ℚ) * 10 ^ (-(fraction.length : Int)) = x

theorem IsDigits.append {cs ds : List Char} (hcs : IsDigits cs) (hds : ∀ c ∈ ds, c.isDigit = true) :
    IsDigits (cs ++ ds) :=
  ⟨fun h => hcs.1 (List.append_eq_nil_iff.1 h).1, List.forall_mem_append.2 ⟨hcs.2, hds⟩⟩

theorem isDigits_replicate_zero (n : Nat) : ∀ d ∈ List.replicate n '0', d.isDigit = true := by
  intro d hd
  rw [List.eq_of_mem_replicate hd]
  rfl

/-- Digits with zeros behind them, up to the point and a zero after it. -/
theorem isPointed_zeros_behind (c k : Nat) :
    IsPointed (c.repr.toList ++ List.replicate k '0' ++ ['.', '0']) (c * 10 ^ k) := by
  refine ⟨c.repr.toList ++ List.replicate k '0', ['0'], rfl,
    (isDigits_repr c).append (isDigits_replicate_zero k), ⟨by simp, by simp⟩, ?_⟩
  have hvalue := digitsValue_append_zeros c.repr.toList (k + 1)
  rw [digitsValue_repr, List.replicate_succ', ← List.append_assoc] at hvalue
  rw [hvalue, List.length_singleton, Nat.cast_one, zpow_neg_one]
  push_cast
  ring

/-- A natural number with a zero behind the point. -/
theorem isPointed_integer (n : Nat) : IsPointed (n.repr ++ ".0").toList n := by
  simpa using isPointed_zeros_behind n 0

/-- Digits with the point inside them. -/
theorem isPointed_inside (c point : Nat) (hpos : 0 < point)
    (hlt : point < c.repr.toList.length) :
    IsPointed (c.repr.toList.take point ++ '.' :: c.repr.toList.drop point)
      (c * 10 ^ ((point : Int) - c.repr.toList.length)) := by
  obtain ⟨hne, hdigits⟩ := isDigits_repr c
  refine ⟨c.repr.toList.take point, c.repr.toList.drop point, rfl,
    ⟨?whole, fun d hd => hdigits d (List.mem_of_mem_take hd)⟩,
    ⟨?fraction, fun d hd => hdigits d (List.mem_of_mem_drop hd)⟩, ?value⟩
  case whole =>
    rw [Ne, List.take_eq_nil_iff]
    rintro (hzero | hnil)
    · omega
    · exact hne hnil
  case fraction =>
    rw [Ne, List.drop_eq_nil_iff]
    omega
  case value =>
    rw [List.take_append_drop, digitsValue_repr, List.length_drop]
    congr 2
    omega

/-- Digits with zeros in front of them, and the point behind the first zero. -/
theorem isPointed_zeros_front (c n : Nat) :
    IsPointed ('0' :: '.' :: (List.replicate n '0' ++ c.repr.toList))
      (c * 10 ^ (-(n : Int) - c.repr.toList.length)) := by
  obtain ⟨hne, hdigits⟩ := isDigits_repr c
  refine ⟨['0'], List.replicate n '0' ++ c.repr.toList, rfl, ⟨by simp, by simp⟩,
    ⟨fun hnil => hne (List.append_eq_nil_iff.1 hnil).2,
      List.forall_mem_append.2 ⟨isDigits_replicate_zero n, hdigits⟩⟩, ?_⟩
  have hvalue := digitsValue_zeros_append (n + 1) c.repr.toList
  rw [digitsValue_repr, List.replicate_succ, List.cons_append] at hvalue
  rw [List.singleton_append, hvalue, List.length_append, List.length_replicate]
  congr 2
  omega

/-- The written form of digits stands for their number. -/
theorem isPointed_positional (d : Digits) : IsPointed d.positional.toList d.value := by
  obtain ⟨c, t⟩ := d
  have hlength : c.repr.length = c.repr.toList.length := String.length_toList.symm
  have hpos := List.length_pos_iff.2 (isDigits_repr c).1
  simp only [Digits.positional, Digits.value, hlength]
  split
  · rename_i hexponent
    obtain ⟨k, rfl⟩ := Int.eq_ofNat_of_zero_le hexponent
    simpa using isPointed_zeros_behind c k
  · rename_i hexponent
    split
    · rename_i hpoint
      obtain ⟨point, hpoint'⟩ := Int.eq_ofNat_of_zero_le hpoint.le
      obtain rfl : t = point - c.repr.toList.length := by omega
      have hinside := isPointed_inside c point (by omega) (by omega)
      simpa using hinside
    · rename_i hpoint
      obtain ⟨n, hn⟩ := Int.exists_eq_neg_ofNat (not_lt.1 hpoint)
      obtain rfl : t = -n - c.repr.toList.length := by omega
      simpa using isPointed_zeros_front c n

/-- The written form of a double other than zero stands for a number that rounds to it. -/
theorem isPointed_magnitude {m : Nat} {e : Int} (hshape : Shaped m e) (hm : 0 < m) :
    ∃ x, RoundsTo m e x ∧ IsPointed (plainDouble.magnitude m e).toList x := by
  rw [Layout.magnitude, if_neg hm.ne']
  split
  · rename_i hinteger
    have he : 0 ≤ e := by simpa [plainDouble] using hinteger
    obtain ⟨k, rfl⟩ := Int.eq_ofNat_of_zero_le he
    refine ⟨_, roundsTo_self m k, ?_⟩
    have hpointed := isPointed_integer (m * pow2 k)
    rw [pow2_eq] at *
    push_cast at hpointed
    simpa using hpointed
  · rename_i hinteger
    have he : e < 0 := by simpa [plainDouble] using hinteger
    split
    · rename_i hdivides
      obtain ⟨k, rfl⟩ : ∃ k : Nat, e = -(k : Int) := ⟨e.natAbs, by omega⟩
      have hmod : m % 2 ^ k = 0 := by simpa [plainDouble, pow2_eq] using hdivides
      have hquotient : ((m / pow2 k : Nat) : ℚ) = m * 2 ^ (-(k : Int)) := by
        rw [pow2_eq, Nat.cast_div (Nat.dvd_of_mod_eq_zero hmod) (by positivity), zpow_neg,
          zpow_natCast, div_eq_mul_inv, Nat.cast_pow]
        rfl
      refine ⟨_, roundsTo_self m _, ?_⟩
      rw [← hquotient, Int.natAbs_neg, Int.natAbs_natCast]
      exact isPointed_integer (m / pow2 k)
    · exact ⟨_, roundsTo_shortest hshape hm .up, isPointed_positional _⟩

/-- Every finite double that is not negative is written with a point between digits that are read as
this double. -/
theorem write_plainDouble {x : Float} {m : Nat} {e : Int} (h : decode x = .finite false m e) :
    ∃ whole fraction, (plainDouble.write x).toList = whole ++ '.' :: fraction ∧ IsDigits whole ∧
      IsDigits fraction ∧
      nearestScaled false (digitsValue (whole ++ fraction)) (-(fraction.length : Int)) = x := by
  obtain ⟨hshape, rfl⟩ := decode_eq_finite h
  have hwrite : plainDouble.write (ofMagnitude false (bitsOf m e)) = plainDouble.magnitude m e := by
    rw [Layout.write, h]
    simp
  rw [hwrite]
  rcases Nat.eq_zero_or_pos m with rfl | hm
  · obtain rfl : e = minExponent := by
      by_contra hne
      have hle := hshape.le_mantissa (lt_of_le_of_ne hshape.le_exponent (Ne.symm hne))
      exact absurd hle (by decide)
    exact ⟨['0'], ['0'], by simp [Layout.magnitude], ⟨by simp, by simp⟩, ⟨by simp, by simp⟩, rfl⟩
  · obtain ⟨y, hy, whole, fraction, htext, hwhole, hfraction, rfl⟩ := isPointed_magnitude hshape hm
    exact ⟨whole, fraction, htext, hwhole, hfraction, hy.nearestScaled_eq hshape hm⟩

/-- Reading digits gives a finite double or an infinity, and none that is negative. -/
theorem decode_nearestScaled (c : Nat) (t : Int) :
    decode (nearestScaled false c t) = .infinite false ∨
      ∃ m e, decode (nearestScaled false c t) = .finite false m e := by
  have hinfinity : decode (infinity false) = .infinite false := rfl
  have hzero : ∃ m e, decode (ofMagnitude false 0) = .finite false m e :=
    decode_ofMagnitude (by decide)
  have hnearest (num den : Nat) : decode (nearest false num den) = .infinite false ∨
      ∃ m e, decode (nearest false num den) = .finite false m e := by
    by_cases hnum : num = 0
    · rw [nearest, if_pos hnum]
      exact .inr hzero
    · rw [nearest_eq hnum]
      simp only
      split
      · exact .inl hinfinity
      · rename_i hlt
        exact .inr (decode_ofMagnitude (not_le.1 hlt))
  unfold nearestScaled
  simp only
  split
  · exact .inr hzero
  · split
    · exact .inl hinfinity
    · split
      · exact hnearest _ _
      · exact hnearest _ _

end ExprLang.Decimal
