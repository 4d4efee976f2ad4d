import ExprLang.Text.Blank
import ExprLang.Text.Word
import Mathlib

/-!
# Classes of characters

Blank characters, digits and the characters that words begin with are disjoint.  The tables that
define these classes are compared range by range.
-/

namespace ExprLang

namespace Text

/-- The ranges of one table lie beside those of the other.  This is computed with numbers only, since
the tables are long. -/
def areApart (ranges others : List (Nat × Nat)) : Bool :=
  ranges.all fun r => others.all fun s => r.2.blt s.1 || s.2.blt r.1

/-- No code point is in both of two tables that lie beside each other. -/
theorem inRanges_of_areApart {ranges others : List (Nat × Nat)} (h : areApart ranges others = true)
    {n : Nat} (hn : inRanges ranges n = true) : inRanges others n = false := by
  obtain ⟨r, hr, hle⟩ := inRanges_iff.1 hn
  simp only [areApart, List.all_eq_true, Bool.or_eq_true, Nat.blt_eq] at h
  rw [← Bool.not_eq_true, inRanges_iff]
  rintro ⟨s, hs, hle'⟩
  have := h r hr s hs
  omega

theorem isDigit_iff {c : Char} : c.isDigit = true ↔ 48 ≤ c.toNat ∧ c.toNat ≤ 57 := by
  simp [Char.isDigit, UInt32.le_iff_toNat_le]

theorem inRanges_of_isDigit {c : Char} (h : c.isDigit = true) :
    inRanges [(48, 57)] c.toNat = true :=
  inRanges_iff.2 ⟨(48, 57), List.mem_singleton_self _, isDigit_iff.1 h⟩

theorem isBlank_of_isDigit {c : Char} (h : c.isDigit = true) : isBlank c = false :=
  inRanges_of_areApart (by decide) (inRanges_of_isDigit h)

theorem isWordPart_of_isDigit {c : Char} (h : c.isDigit = true) : isWordPart c = true := by
  have hascii : c.toNat < 0x80 := by
    rw [isDigit_iff] at h
    omega
  simp [isWordPart, isNumeric_of_ascii hascii, h]

/-- Code points that include those of all characters that words begin with. -/
def wordStartRanges : List (Nat × Nat) :=
  [(36, 36), (65, 90), (95, 95), (97, 122)] ++ alphabeticRanges

theorem inRanges_of_isWordStart {c : Char} (h : isWordStart c = true) :
    inRanges wordStartRanges c.toNat = true := by
  rw [inRanges_iff]
  simp only [isWordStart, Bool.or_eq_true, beq_iff_eq] at h
  rcases h with (h | rfl) | rfl
  · unfold isAlphabetic at h
    split at h
    · have hletter : (65 ≤ c.toNat ∧ c.toNat ≤ 90) ∨ (97 ≤ c.toNat ∧ c.toNat ≤ 122) := by
        simpa [Char.isAlpha, Char.isUpper, Char.isLower, UInt32.le_iff_toNat_le] using h
      rcases hletter with hletter | hletter
      · exact ⟨(65, 90), by simp [wordStartRanges], hletter⟩
      · exact ⟨(97, 122), by simp [wordStartRanges], hletter⟩
    · obtain ⟨r, hr, hle⟩ := inRanges_iff.1 h
      exact ⟨r, List.mem_append_right _ hr, hle⟩
  · exact ⟨(95, 95), by simp [wordStartRanges], by decide⟩
  · exact ⟨(36, 36), by simp [wordStartRanges], by decide⟩

theorem isBlank_of_isWordStart {c : Char} (h : isWordStart c = true) : isBlank c = false :=
  inRanges_of_areApart (by decide +kernel) (inRanges_of_isWordStart h)

theorem isDigit_of_isWordStart {c : Char} (h : isWordStart c = true) : c.isDigit = false := by
  have hdigits : inRanges [(48, 57)] c.toNat = false :=
    inRanges_of_areApart (by decide +kernel) (inRanges_of_isWordStart h)
  rw [← Bool.not_eq_true]
  intro hdigit
  rw [inRanges_of_isDigit hdigit] at hdigits
  cases hdigits

theorem isBlank_of_isNumeric {c : Char} (h : isNumeric c = true) : isBlank c = false := by
  unfold isNumeric at h
  split at h
  · exact isBlank_of_isDigit h
  · exact inRanges_of_areApart (by decide +kernel) h

/-- No word goes on with a blank character. -/
theorem isWordPart_of_isBlank {c : Char} (h : isBlank c = true) : isWordPart c = false := by
  have hstart : isWordStart c = false := by
    by_contra hstart
    rw [isBlank_of_isWordStart (Bool.of_not_eq_false hstart)] at h
    cases h
  have hnumeric : isNumeric c = false := by
    by_contra hnumeric
    rw [isBlank_of_isNumeric (Bool.of_not_eq_false hnumeric)] at h
    cases h
  simp only [isWordStart, isWordPart, Bool.or_eq_false_iff] at hstart ⊢
  exact ⟨⟨⟨hstart.1.1, hnumeric⟩, hstart.1.2⟩, hstart.2⟩

theorem ne_of_isWordStart {c d : Char} (h : isWordStart c = true) (hd : isWordStart d = false) :
    c ≠ d := by
  rintro rfl
  rw [h] at hd
  cases hd

end Text

end ExprLang
