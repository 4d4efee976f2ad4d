import ExprLang.Proofs.Conversions.Texts
import ExprLang.Proofs.Integers.Widths
import ExprLang.Proofs.Writing.Literals

/-!
# Integers as texts and between widths

The text of an integer is read back as the integer itself and as a number, as a wide integer also
with blank characters around it and a suffix, and as a narrow integer exactly if it fits.  Between
the two widths, a conversion keeps the number or there is none (`Conversion.convert_integer`).
-/

namespace ExprLang

namespace Conversion

open Decimal Literal Text

/-! ## Characters of a written integer -/

/-- A written integer has no characters but digits and a sign. -/
theorem isNumeral_repr (n : Int) : ∀ c ∈ n.repr.toList, c = '-' ∨ c.isDigit = true := by
  intro c hc
  cases n with
  | ofNat k => exact .inr ((isDigits_repr k).2 c hc)
  | negSucc k =>
    rw [toList_repr_negSucc] at hc
    exact (List.mem_cons.1 hc).imp_right ((isDigits_repr (k + 1)).2 c)

theorem isBlank_of_mem_repr {n : Int} {c : Char} (hc : c ∈ n.repr.toList) : isBlank c = false := by
  cases isNumeral_repr n c hc with
  | inl hminus =>
    subst hminus
    decide
  | inr hdigit => exact isBlank_of_isDigit hdigit

theorem not_suffix_of_mem_repr {n : Int} {c : Char} (hc : c ∈ n.repr.toList) : c ≠ 'L' ∧ c ≠ 'l' := by
  have hnumeral := isNumeral_repr n c hc
  constructor
  · rintro rfl
    exact absurd hnumeral (by decide)
  · rintro rfl
    exact absurd hnumeral (by decide)

/-- What marks a wide integer, or nothing. -/
def wideSuffixes : List (List Char) :=
  [[], ['L'], ['l']]

section

variable {suffix : List Char} (h : suffix ∈ wideSuffixes)
include h

theorem isBlank_of_mem_suffix : ∀ c ∈ suffix, isBlank c = false := by
  intro c hc
  simp only [wideSuffixes, List.mem_cons, List.not_mem_nil, or_false] at h
  rcases h with rfl | rfl | rfl
  · cases hc
  · rw [List.mem_singleton.1 hc]
    decide
  · rw [List.mem_singleton.1 hc]
    decide

/-- The suffix is taken off again. -/
theorem withoutSuffix_repr (n : Int) : withoutSuffix (n.repr.toList ++ suffix) = n.repr.toList := by
  simp only [wideSuffixes, List.mem_cons, List.not_mem_nil, or_false] at h
  rcases h with rfl | rfl | rfl
  · rw [List.append_nil, withoutSuffix]
    split
    · rename_i hlast
      exact absurd rfl (not_suffix_of_mem_repr (List.mem_of_getLast? hlast)).1
    · rename_i hlast
      exact absurd rfl (not_suffix_of_mem_repr (List.mem_of_getLast? hlast)).2
    · rfl
  · simp [withoutSuffix]
  · simp [withoutSuffix]

end

/-! ## Conversions of one integer -/

section

variable {v : Value} {n : Int64} (h : v.long? = some n)
include h

/-- Integers of both widths are written alike. -/
theorem text_of_long? : v.text = n.toInt.repr := by
  cases v with
  | int m =>
    obtain rfl : m.toInt64 = n := Option.some.inj h
    rw [Int32.toInt_toInt64]
    rfl
  | long m =>
    obtain rfl : m = n := Option.some.inj h
    rfl
  | _ => cases h

theorem convert_string_of_long? : core.convert v .string = .ok (.str v.text) := by
  cases v with
  | int | long => rfl
  | _ => cases h

/-- Every integer is also a wide one. -/
theorem convert_long_of_long? : core.convert v .long = .ok (.long n) := by
  cases v with
  | int m =>
    obtain rfl : m.toInt64 = n := Option.some.inj h
    rfl
  | long m =>
    obtain rfl : m = n := Option.some.inj h
    rfl
  | _ => cases h

theorem trim_text : trim v.text.toList = n.toInt.repr.toList := by
  rw [text_of_long? h]
  exact trim_eq_self fun c => isBlank_of_mem_repr

theorem convert_text_number : core.convert (.str v.text) .number = .ok (.integer n) := by
  apply convert_str_of_read? rfl
  rw [trim_text h, read?, readNumber?, readInt?_repr, Option.bind_some, int64?_eq_some_iff.2 rfl]
  rfl

theorem convert_text_long {before suffix after : List Char}
    (hbefore : ∀ c ∈ before, isBlank c = true) (hsuffix : suffix ∈ wideSuffixes)
    (hafter : ∀ c ∈ after, isBlank c = true) :
    core.convert (.str (String.ofList (before ++ (v.text.toList ++ suffix) ++ after))) .long =
      .ok (.long n) := by
  have hinside : ∀ c ∈ v.text.toList ++ suffix, isBlank c = false := by
    rw [text_of_long? h]
    exact List.forall_mem_append.2 ⟨fun c => isBlank_of_mem_repr, isBlank_of_mem_suffix hsuffix⟩
  apply convert_str_of_read? rfl
  rw [String.toList_ofList, trim_around hbefore hafter hinside, text_of_long? h, read?, readWide?,
    withoutSuffix_repr hsuffix, readInt?_repr, Option.bind_some, int64?_eq_some_iff.2 rfl]
  rfl

/-- The text of an integer and the integer itself become narrow on the same condition. -/
theorem convert_int_of_long? {x : Value} (hx : x = .str v.text ∨ x = v) :
    core.convert x .int = partially .int (fun _ => (int32? n.toInt).map .int) x := by
  rcases hx with rfl | rfl
  · rw [convert_str _ rfl, trim_text h, read?, readNarrow?, readInt?_repr, Option.bind_some]
  · cases x with
    | int m =>
      obtain rfl : m.toInt64 = n := Option.some.inj h
      rw [partially, Int32.toInt_toInt64, int32?_eq_some_iff.2 rfl]
      rfl
    | long m =>
      obtain rfl : m = n := Option.some.inj h
      rfl
    | _ => cases h

/-- There is a narrow integer for it exactly if it fits, and this holds the same number. -/
theorem convert_int_spec {x : Value} (hx : x = .str v.text ∨ x = v) :
    ((∃ w, core.convert x .int = .ok w) ↔ FitsNarrow n.toInt) ∧
      ∀ w, core.convert x .int = .ok w → w.tag = .int ∧ w.integer? = some n.toInt := by
  rw [convert_int_of_long? h hx, partially]
  cases hsmall : int32? n.toInt with
  | none => simpa using int32?_eq_none_iff.1 hsmall
  | some m =>
    have hvalue := int32?_eq_some_iff.1 hsmall
    have hfits : FitsNarrow n.toInt := hvalue ▸ fitsNarrow_toInt m
    simp [hfits, Value.tag, hvalue]

theorem convert_text_back : core.convert (.str v.text) v.tag = .ok v := by
  cases v with
  | int m =>
    obtain rfl : m.toInt64 = n := Option.some.inj h
    change core.convert (.str (Value.int m).text) .int = _
    rw [convert_int_of_long? h (.inl rfl), partially, Int32.toInt_toInt64,
      int32?_eq_some_iff.2 rfl]
    rfl
  | long m =>
    obtain rfl : m = n := Option.some.inj h
    change core.convert (.str (Value.long m).text) .long = _
    have hplain : core.convert (.str (String.ofList ([] ++ ((Value.long m).text.toList ++ []) ++ [])))
        .long = .ok (.long m) :=
      convert_text_long h (by simp) List.mem_cons_self (by simp)
    simpa using hplain
  | _ => cases h

end

/-- The text of an integer gives back the integer, and the same integer as a number, as a wide one
whatever is blank around it and whether it has a suffix or not, and as a narrow one exactly if it
fits.  An integer becomes wide, and it becomes narrow exactly if it fits. -/
theorem convert_integer {v : Value} {n : Int64} (h : v.long? = some n) :
    core.convert v .string = .ok (.str v.text) ∧
    core.convert (.str v.text) v.tag = .ok v ∧
    core.convert (.str v.text) .number = .ok (.integer n) ∧
    (∀ before suffix after, (∀ c ∈ before, isBlank c = true) → suffix ∈ wideSuffixes →
      (∀ c ∈ after, isBlank c = true) →
      core.convert (.str (String.ofList (before ++ (v.text.toList ++ suffix) ++ after))) .long =
        .ok (.long n)) ∧
    core.convert v .long = .ok (.long n) ∧
    ∀ x, x = .str v.text ∨ x = v →
      ((∃ w, core.convert x .int = .ok w) ↔ FitsNarrow n.toInt) ∧
      ∀ w, core.convert x .int = .ok w → w.tag = .int ∧ w.integer? = some n.toInt :=
  ⟨convert_string_of_long? h, convert_text_back h, convert_text_number h,
    fun _ _ _ hbefore hsuffix hafter => convert_text_long h hbefore hsuffix hafter,
    convert_long_of_long? h, fun _ hx => convert_int_spec h hx⟩

/-- The least wide integer is read back and does not become narrow. -/
theorem convert_integer_least :
    let least : Value := .long Int64.minValue
    core.convert (.str "-9223372036854775808") .long = .ok least ∧
      core.convert (.str "\t-9223372036854775808l\n ") .long = .ok least ∧
      core.convert (.str "-9223372036854775808") .number = .ok least ∧
      (¬ ∃ w, core.convert least .int = .ok w) ∧
      core.convert (.str (Value.int Int32.minValue).text) .int = .ok (.int Int32.minValue) := by
  intro least
  have hleast : least.long? = some Int64.minValue := rfl
  have hnarrow : (Value.int Int32.minValue).long? = some Int32.minValue.toInt64 := rfl
  have htext : least.text = "-9223372036854775808" := rfl
  obtain ⟨-, hback, hnumber, haround, -, hint⟩ := convert_integer hleast
  obtain ⟨-, hnarrowBack, -⟩ := convert_integer hnarrow
  rw [htext] at hback hnumber haround
  refine ⟨hback, ?_, hnumber, ?_, hnarrowBack⟩
  · have hbefore : ['\t'].all isBlank = true := by decide
    have hafter : ['\n', ' '].all isBlank = true := by decide
    exact haround ['\t'] ['l'] ['\n', ' '] (List.all_eq_true.1 hbefore) (by decide)
      (List.all_eq_true.1 hafter)
  · rw [(hint least (.inr rfl)).1]
    decide

end Conversion

end ExprLang
