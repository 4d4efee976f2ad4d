import ExprLang.Conversion.Core

/-!
# Booleans and characters as texts

A text is trimmed before it is read, whatever it is read as.  So a written value is read back if
there is no blank character in its text.  This is so for both booleans and for every character but
the blank ones, of whose text nothing is left to be read (`Value.returns_from_text`).
-/

namespace ExprLang

namespace Text

variable {before cs after : List Char}

/-- Dropping stops in front of what is not blank. -/
theorem dropWhile_isBlank_append (hbefore : ∀ c ∈ before, isBlank c = true)
    (hcs : ∀ c ∈ cs.head?, isBlank c = false) : (before ++ cs).dropWhile isBlank = cs := by
  rw [List.dropWhile_append_of_pos hbefore]
  cases cs with
  | nil => rfl
  | cons c rest => rw [List.dropWhile_cons_of_neg (by simp [hcs c rfl])]

/-- Trimming takes off what is blank around characters that are not. -/
theorem trim_around (hbefore : ∀ c ∈ before, isBlank c = true)
    (hafter : ∀ c ∈ after, isBlank c = true) (hcs : ∀ c ∈ cs, isBlank c = false) :
    trim (before ++ cs ++ after) = cs := by
  by_cases hnil : cs = []
  · have hall : ∀ c ∈ before ++ after, isBlank c = true :=
      List.forall_mem_append.2 ⟨hbefore, hafter⟩
    have hdrop : (before ++ after ++ []).dropWhile isBlank = [] :=
      dropWhile_isBlank_append hall (by simp)
    rw [List.append_nil] at hdrop
    rw [hnil, List.append_nil, trim, hdrop]
    rfl
  · have hfirst : ∀ c ∈ (cs ++ after).head?, isBlank c = false := by
      obtain ⟨d, rest, rfl⟩ := List.exists_cons_of_ne_nil hnil
      intro c hc
      obtain rfl := Option.some.inj hc
      exact hcs d List.mem_cons_self
    have hlast : ∀ c ∈ cs.reverse.head?, isBlank c = false :=
      fun c hc => hcs c (List.mem_reverse.1 (List.mem_of_mem_head? hc))
    have hreverse : ∀ c ∈ after.reverse, isBlank c = true :=
      fun c hc => hafter c (List.mem_reverse.1 hc)
    rw [trim, List.append_assoc, dropWhile_isBlank_append hbefore hfirst, trimEnd,
      List.reverse_append, dropWhile_isBlank_append hreverse hlast, List.reverse_reverse]

theorem trim_eq_self (hcs : ∀ c ∈ cs, isBlank c = false) : trim cs = cs := by
  have haround : trim ([] ++ cs ++ []) = cs := trim_around (by simp) (by simp) hcs
  simpa using haround

theorem trim_eq_nil (h : ∀ c ∈ before, isBlank c = true) : trim before = [] := by
  have haround : trim (before ++ [] ++ []) = [] := trim_around h (by simp) (by simp)
  simpa using haround

end Text

open Text

namespace Conversion

/-- How the characters that trimming leaves are read as a value of a type. -/
def read? (target : TypeTag) : List Char → Option Value :=
  match target with
  | .bool => readBool?
  | .char => readChar?
  | .int => readNarrow?
  | .long => readWide?
  | .double => readDouble?
  | .number => readNumber?
  | _ => fun _ => none

/-- Of all converters, the one that reads a text as the requested type is found. -/
theorem convert_str (s : String) {target : TypeTag} (h : isSettled .string target = false) :
    core.convert (.str s) target =
      partially target (fun _ => read? target (trim s.toList)) (.str s) := by
  cases target <;> first | rfl | cases h

section

variable {s : String} {target : TypeTag} (h : isSettled .string target = false)
include h

theorem convert_str_of_read? {w : Value} (hread : read? target (trim s.toList) = some w) :
    core.convert (.str s) target = .ok w := by
  rw [convert_str s h, partially, hread]

theorem convert_str_of_not_read? (hread : read? target (trim s.toList) = none) :
    core.convert (.str s) target = .error (.cannotConvert (.str s) target) := by
  rw [convert_str s h, partially, hread]

end

end Conversion

namespace Value

open Conversion

/-- The value has a text that is read as the value. -/
def Returns (v : Value) : Prop :=
  ∃ s, core.convert v .string = .ok (.str s) ∧ core.convert (.str s) v.tag = .ok v

theorem returns_bool (b : Bool) : (bool b).Returns := by
  have htrim : trim (bool b).text.toList = (bool b).text.toList := by cases b <;> decide
  refine ⟨(bool b).text, rfl, convert_str_of_read? rfl ?_⟩
  rw [htrim]
  cases b <;> rfl

/-- Nothing is left of a blank character. -/
theorem convert_blank {c : Char} (hc : isBlank c = true) :
    core.convert (.str (String.singleton c)) .char =
      .error (.cannotConvert (.str (String.singleton c)) .char) := by
  have htrim : trim (String.singleton c).toList = [] := by
    rw [String.toList_singleton]
    exact trim_eq_nil (List.forall_mem_singleton.2 hc)
  exact convert_str_of_not_read? rfl (by rw [htrim]; rfl)

theorem returns_char {c : Char} (hc : isBlank c = false) : (char c).Returns := by
  have htrim : trim (String.singleton c).toList = [c] := by
    rw [String.toList_singleton]
    exact trim_eq_self (List.forall_mem_singleton.2 hc)
  exact ⟨String.singleton c, rfl, convert_str_of_read? rfl (by rw [htrim]; rfl)⟩

theorem not_returns_blank {c : Char} (hc : isBlank c = true) : ¬ (char c).Returns := by
  rintro ⟨s, hwritten, hread⟩
  have hs : String.singleton c = s := by
    injection Except.ok.inj hwritten
  rw [← hs] at hread
  cases (convert_blank hc).symm.trans hread

/-- A boolean or a character is read back from its text exactly if it is no blank character.  The
text of a blank character is refused. -/
theorem returns_from_text {v : Value} (hv : v.tag = .bool ∨ v.tag = .char) :
    (v.Returns ↔ ∀ c, v = char c → isBlank c = false) ∧
    ∀ c, v = char c → isBlank c = true →
      core.convert v .string = .ok (.str (String.singleton c)) ∧
        core.convert (.str (String.singleton c)) .char =
          .error (.cannotConvert (.str (String.singleton c)) .char) := by
  constructor
  · cases v with
    | bool b =>
      refine iff_of_true (returns_bool b) fun c hc => ?_
      cases hc
    | char c =>
      constructor
      · rintro hreturns _ ⟨⟩
        exact Bool.eq_false_iff.2 fun hc => not_returns_blank hc hreturns
      · intro hc
        exact returns_char (hc c rfl)
    | _ => rcases hv with hv | hv <;> cases hv
  · rintro c rfl hc
    exact ⟨rfl, convert_blank hc⟩

/-- A letter and a boolean are read back, and the text of a line break is refused. -/
theorem returns_from_text_letter :
    (char 'ß').Returns ∧ (bool false).Returns ∧
      core.convert (.str (String.singleton '\n')) .char =
        .error (.cannotConvert (.str (String.singleton '\n')) .char) := by
  have hletter : ∀ c, char 'ß' = char c → isBlank c = false := by
    rintro _ ⟨⟩
    decide
  have hbool : ∀ c, bool false = char c → isBlank c = false := fun c hc => by cases hc
  obtain ⟨-, hbreak⟩ := returns_from_text (v := char '\n') (.inr rfl)
  exact ⟨(returns_from_text (.inr rfl)).1.2 hletter, (returns_from_text (.inl rfl)).1.2 hbool,
    (hbreak '\n' rfl (by decide)).2⟩

/-- A space is written as a text of one character, and this text is not read as a character. -/
theorem not_returns_space :
    core.convert (char ' ') .string = .ok (.str " ") ∧
      core.convert (.str " ") .char = .error (.cannotConvert (.str " ") .char) ∧
      ¬ (char ' ').Returns :=
  ⟨rfl, convert_blank (c := ' ') (by decide), not_returns_blank (by decide)⟩

end Value

end ExprLang
