import ExprLang.Decimal.Binary
import Mathlib

/-!
# Bits of doubles

The bits of a finite double that is not negative, read as a number, order these doubles by size.
`decode` splits this number into mantissa and exponent, and `bitsOf` puts it together again.
-/

namespace ExprLang.Decimal

open Float.Model UnpackedFloat

theorem toBitVec_ofBitVec (s : BitVec 1) : (Sign.ofBitVec s).toBitVec = s := by
  revert s
  decide

theorem packComponents_unpack (b : BitVec Format.binary64.numBits) :
    packComponents Format.binary64 (Sign.ofBitVec (unpackSign b)) (unpackExponent b)
      (unpackMantissa b) = b := by
  rw [packComponents, toBitVec_ofBitVec]
  apply BitVec.eq_of_toNat_eq
  have hb : b.toNat < 2 ^ 64 := b.isLt
  simp only [unpackSign, unpackExponent, unpackMantissa, BitVec.toNat_append, BitVec.toNat_cast,
    BitVec.extractLsb_toNat]
  rw [← Nat.shiftLeft_add_eq_or_of_lt (Nat.mod_lt _ (by decide)),
    ← Nat.shiftLeft_add_eq_or_of_lt (Nat.mod_lt _ (by decide))]
  simp only [Nat.shiftLeft_eq, Nat.shiftRight_eq_div_pow]
  norm_num
  omega

theorem toNat_unpackExponent (b : BitVec Format.binary64.numBits) :
    (unpackExponent b).toNat = b.toNat / 2 ^ 52 % 2 ^ 11 := by
  simp [unpackExponent, Nat.shiftRight_eq_div_pow]

theorem pack_subnormal {s : Sign} {m : Nat} (hpos : 0 < m) (hm : m < 2 ^ 52) :
    UnpackedFloat.pack Format.binary64 (.finite s m (-1074) hpos) =
      packComponents Format.binary64 s 0#_ (BitVec.ofNat _ m) := by
  have hlog : m.log2 < 52 := (Nat.log2_lt hpos.ne').2 hm
  have hbits : ¬ m.log2 + 1 = Format.binary64.mantissaBits := by
    change ¬ m.log2 + 1 = 53
    omega
  unfold UnpackedFloat.pack
  simp only
  rw [if_neg (by decide), if_neg hbits]

theorem pack_normal {s : Sign} {m E : Nat} (hpos : 0 < m) (hle : 2 ^ 52 ≤ m) (hlt : m < 2 ^ 53)
    (hE : E < 2047) :
    UnpackedFloat.pack Format.binary64 (.finite s m ((E : Int) - 1075) hpos) =
      packComponents Format.binary64 s (BitVec.ofNat _ E) (BitVec.ofNat _ m) := by
  have hlog : m.log2 < 53 := (Nat.log2_lt hpos.ne').2 hlt
  have hlog' : 52 ≤ m.log2 := (Nat.le_log2 hpos.ne').2 hle
  have hbits : m.log2 + 1 = Format.binary64.mantissaBits := by
    change m.log2 + 1 = 53
    omega
  have hbiased : ((E : Int) - 1075 + Format.binary64.exponentBias + (52 : Nat)).toNat = E := by
    change ((E : Int) - 1075 + (1023 : Nat) + (52 : Nat)).toNat = E
    omega
  unfold UnpackedFloat.pack
  simp only
  rw [hbiased, if_neg (by omega), if_pos hbits]

/-- Normal doubles have a leading bit in front of their mantissa that is not stored. -/
theorem toNat_one_append (mantissa : BitVec 52) :
    (1#1 ++ mantissa).toNat = 2 ^ 52 + mantissa.toNat :=
  (BitVec.toNat_append _ _).trans (Nat.shiftLeft_add_eq_or_of_lt mantissa.isLt 1).symm

theorem ofNat_one_append (mantissa : BitVec 52) :
    BitVec.ofNat 52 (1#1 ++ mantissa).toNat = mantissa := by
  apply BitVec.eq_of_toNat_eq
  rw [BitVec.toNat_ofNat, toNat_one_append]
  exact (Nat.add_mod_left _ _).trans (Nat.mod_eq_of_lt mantissa.isLt)

/-- A mantissa and the exponent of a normal double are packed into themselves. -/
theorem pack_implicit {s : Sign} {exponent : BitVec 11} {mantissa : BitVec 52}
    (hexponent : exponent.toNat ≠ 2047) (hpos : 0 < (1#1 ++ mantissa).toNat) :
    UnpackedFloat.pack Format.binary64
        (.finite s (1#1 ++ mantissa).toNat ((exponent.toNat : Int) - 1075) hpos) =
      packComponents Format.binary64 s exponent mantissa := by
  have hmantissa := mantissa.isLt
  have hlt := exponent.isLt
  have happend := toNat_one_append mantissa
  rw [pack_normal hpos (by omega) (by omega) (by omega)]
  refine congrArg₂ (packComponents Format.binary64 s) ?_ (ofNat_one_append mantissa)
  rw [BitVec.ofNat_toNat]
  exact BitVec.setWidth_eq exponent

theorem pack_unpack {b : BitVec Format.binary64.numBits} (hvalid : Format.binary64.Valid b) :
    UnpackedFloat.pack Format.binary64 (UnpackedFloat.unpack Format.binary64 b) = b := by
  have hcomponents := packComponents_unpack b
  unfold UnpackedFloat.unpack
  simp only
  split
  · rename_i hexponent
    rw [hexponent] at hcomponents
    split
    · rename_i hzero
      rw [hzero] at hcomponents
      exact hcomponents
    · rename_i hzero
      exact (hvalid.eq_packedNaN hexponent hzero).symm
  · rename_i hexponent
    split
    · rename_i hsubnormal
      rw [hsubnormal] at hcomponents
      split
      · rename_i hzero
        rw [hzero] at hcomponents
        exact hcomponents
      · rename_i hzero
        rw [hsubnormal]
        exact (pack_subnormal _ (unpackMantissa b).isLt).trans (by simpa using hcomponents)
    · rename_i hnormal
      have hne : (unpackExponent b).toNat ≠ 2047 := fun heq =>
        hexponent (BitVec.eq_of_toNat_eq heq)
      exact (pack_implicit hne _).trans hcomponents

theorem ofBits_toBits (x : Float) : Float.ofBits x.toBits = x := by
  obtain ⟨bits, hvalid⟩ := x
  change (⟨⟨UInt64.ofBitVec _, _⟩⟩ : Float) = _
  congr 2
  exact congrArg UInt64.ofBitVec (pack_unpack hvalid)

/-- A number below the infinity is the bits of a double. -/
theorem toBits_ofBits {u : UInt64} (h : u.toNat / 2 ^ 52 % 2 ^ 11 ≠ 2047) :
    (Float.ofBits u).toBits = u := by
  have hvalid : Format.binary64.Valid u.toBitVec := ⟨fun hexponent _ => by
    have hnat := toNat_unpackExponent u.toBitVec
    rw [hexponent] at hnat
    exact absurd hnat.symm h⟩
  exact congrArg UInt64.ofBitVec (pack_unpack hvalid)

theorem pow2_eq (n : Nat) : pow2 n = 2 ^ n := rfl

/-- The mantissas and exponents of finite doubles: the mantissa has 53 bits unless the exponent is
the smallest one. -/
structure Shaped (mantissa : Nat) (exponent : Int) : Prop where
  mantissa_lt : mantissa < pow2 53
  le_exponent : minExponent ≤ exponent
  exponent_le : exponent ≤ 971
  le_mantissa : minExponent < exponent → pow2 52 ≤ mantissa

/-- The bits of the double `mantissa * 2 ^ exponent`, read as a number. -/
def bitsOf (mantissa : Nat) (exponent : Int) : Nat :=
  (exponent - minExponent).toNat * pow2 52 + mantissa

theorem Shaped.bitsOf_lt {m : Nat} {e : Int} (h : Shaped m e) : bitsOf m e < 2047 * pow2 52 := by
  obtain ⟨hm, hle, he, -⟩ := h
  simp only [bitsOf, minExponent, pow2_eq] at *
  omega

theorem toNat_toBits_ofMagnitude {n : Nat} (h : n < 2047 * pow2 52) :
    (ofMagnitude false n).toBits.toNat = n := by
  rw [pow2_eq] at h
  have hn : (0 + n).toUInt64.toNat = n := by
    rw [Nat.zero_add]
    exact Nat.mod_eq_of_lt (by omega)
  rw [ofMagnitude, if_neg (by decide), toBits_ofBits (by rw [hn]; omega), hn]

theorem ofMagnitude_toBits (x : Float) : ofMagnitude false x.toBits.toNat = x := by
  rw [ofMagnitude, if_neg (by decide), Nat.zero_add]
  exact (congrArg Float.ofBits (UInt64.ofNat_toNat)).trans (ofBits_toBits x)

/-- A finite double that is not negative has the bits of its mantissa and exponent. -/
theorem decode_eq_finite {x : Float} {m : Nat} {e : Int} (h : decode x = .finite false m e) :
    Shaped m e ∧ x = ofMagnitude false (bitsOf m e) := by
  have hlt := x.toBits.toNat_lt
  suffices hbits : Shaped m e ∧ x.toBits.toNat = bitsOf m e by
    refine ⟨hbits.1, ?_⟩
    rw [← hbits.2, ofMagnitude_toBits]
  simp only [decode] at h
  generalize x.toBits.toNat = n at *
  split at h
  · split at h <;> cases h
  · split at h
    · obtain ⟨hsign, rfl, rfl⟩ := Binary.finite.inj h
      have hsign : ¬ n / pow2 63 = 1 := of_decide_eq_false hsign
      simp only [pow2_eq] at *
      refine ⟨⟨?_, le_refl _, by decide, fun h => absurd h (lt_irrefl _)⟩, ?_⟩
      · rw [pow2_eq]
        omega
      · simp only [bitsOf, pow2_eq, minExponent]
        omega
    · obtain ⟨hsign, rfl, rfl⟩ := Binary.finite.inj h
      have hsign : ¬ n / pow2 63 = 1 := of_decide_eq_false hsign
      simp only [pow2_eq] at *
      refine ⟨⟨?_, ?_, by omega, fun _ => ?_⟩, ?_⟩
      all_goals
        simp only [bitsOf, pow2_eq, minExponent]
        omega

theorem decode_ofMagnitude {n : Nat} (h : n < 2047 * pow2 52) :
    ∃ m e, decode (ofMagnitude false n) = .finite false m e := by
  have hsign : ¬ n / pow2 63 = 1 := by
    simp only [pow2_eq] at *
    omega
  have hexponent : ¬ n / pow2 52 % pow2 11 = 2047 := by
    simp only [pow2_eq] at *
    omega
  unfold decode
  rw [toNat_toBits_ofMagnitude h, if_neg hexponent, decide_eq_false hsign]
  split
  · exact ⟨_, _, rfl⟩
  · exact ⟨_, _, rfl⟩

end ExprLang.Decimal
