import ExprLang.Value
import Mathlib.Algebra.Group.Int.Defs

/-!
# Widths of integers

An integer value is narrow or wide, and it holds an integer in the range of its width.  What becomes
of a number is a question of the two ranges: whether a value can hold it at all, and of which width
that value is.
-/

namespace ExprLang

/-- The range of narrow integers. -/
def FitsNarrow (n : Int) : Prop :=
  -2 ^ 31 ≤ n ∧ n < 2 ^ 31

/-- The range of wide integers. -/
def FitsWide (n : Int) : Prop :=
  -2 ^ 63 ≤ n ∧ n < 2 ^ 63

instance : DecidablePred FitsNarrow :=
  fun _ => inferInstanceAs (Decidable (_ ∧ _))

instance : DecidablePred FitsWide :=
  fun _ => inferInstanceAs (Decidable (_ ∧ _))

variable {n : Int}

theorem FitsNarrow.fitsWide (h : FitsNarrow n) : FitsWide n := by
  simp only [FitsNarrow, FitsWide] at *
  omega

theorem fitsNarrow_toInt (m : Int32) : FitsNarrow m.toInt := by
  have hlower := m.minValue_le_toInt
  have hupper := m.toInt_le
  rw [Int32.toInt_minValue] at hlower
  rw [Int32.toInt_maxValue] at hupper
  simp only [FitsNarrow]
  omega

theorem fitsWide_toInt (m : Int64) : FitsWide m.toInt := by
  have hlower := m.minValue_le_toInt
  have hupper := m.toInt_le
  rw [Int64.toInt_minValue] at hlower
  rw [Int64.toInt_maxValue] at hupper
  simp only [FitsWide]
  omega

theorem int32?_eq_none_iff : int32? n = none ↔ ¬ FitsNarrow n := by
  simp only [int32?, Int32.toInt_minValue, Int32.toInt_maxValue, FitsNarrow, ite_eq_right_iff,
    reduceCtorEq, imp_false]
  omega

theorem int64?_eq_none_iff : int64? n = none ↔ ¬ FitsWide n := by
  simp only [int64?, Int64.toInt_minValue, Int64.toInt_maxValue, FitsWide, ite_eq_right_iff,
    reduceCtorEq, imp_false]
  omega

theorem FitsWide.exists_int64? (h : FitsWide n) : ∃ m, int64? n = some m :=
  Option.ne_none_iff_exists'.1 fun hnone => int64?_eq_none_iff.1 hnone h

/-- A number fits if and only if there is a wide integer for it. -/
theorem fitsWide_iff : FitsWide n ↔ ∃ m : Int64, m.toInt = n := by
  constructor
  · intro h
    obtain ⟨m, hm⟩ := h.exists_int64?
    exact ⟨m, int64?_eq_some_iff.1 hm⟩
  · rintro ⟨m, rfl⟩
    exact fitsWide_toInt m

namespace Value

/-- The number that an integer of either width holds. -/
def integer? (v : Value) : Option Int :=
  v.long?.map Int64.toInt

@[simp]
theorem integer?_int (m : Int32) : (int m).integer? = some m.toInt := by
  rw [integer?, long?, Option.map_some, Int32.toInt_toInt64]

@[simp]
theorem integer?_long (m : Int64) : (long m).integer? = some m.toInt := rfl

theorem exists_long_of_integer? {v : Value} (h : v.integer? = some n) :
    ∃ m, v.long? = some m ∧ m.toInt = n :=
  Option.map_eq_some_iff.1 h

theorem fitsWide_of_integer? {v : Value} (h : v.integer? = some n) : FitsWide n := by
  obtain ⟨m, -, rfl⟩ := exists_long_of_integer? h
  exact fitsWide_toInt m

theorem fitsNarrow_of_integer? {v : Value} (h : v.integer? = some n) (hv : v.tag = .int) :
    FitsNarrow n := by
  cases v with
  | int m =>
    obtain rfl := Option.some.inj ((integer?_int m).symm.trans h)
    exact fitsNarrow_toInt m
  | _ => cases hv

/-- An integer is narrow if it fits and wide otherwise, and it holds its number either way. -/
theorem integer_spec (m : Int64) : (integer m).integer? = some m.toInt ∧
    (integer m).tag = if FitsNarrow m.toInt then .int else .long := by
  rw [integer]
  cases hsmall : int32? m.toInt with
  | none =>
    rw [if_neg (int32?_eq_none_iff.1 hsmall)]
    exact ⟨rfl, rfl⟩
  | some small =>
    have hvalue := int32?_eq_some_iff.1 hsmall
    rw [if_pos (hvalue ▸ fitsNarrow_toInt small), integer?_int, hvalue]
    exact ⟨rfl, rfl⟩

/-- An integer that is allowed to be narrow is so if it fits. -/
theorem sized_spec (narrow : Prop) [Decidable narrow] (m : Int64) :
    (if narrow then integer m else long m).integer? = some m.toInt ∧
      (if narrow then integer m else long m).tag =
        if narrow ∧ FitsNarrow m.toInt then .int else .long := by
  by_cases hnarrow : narrow
  · simp only [hnarrow, if_true, true_and]
    exact integer_spec m
  · simp only [hnarrow, if_false, false_and]
    exact ⟨rfl, rfl⟩

end Value

end ExprLang
