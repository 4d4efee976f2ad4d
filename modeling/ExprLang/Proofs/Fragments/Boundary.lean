import ExprLang.Proofs.Fragments.Munch

/-!
# Boundaries of lexemes

How far a lexeme goes does not depend on all that follows.  A longest lexeme stays the longest when
the characters stop somewhere behind it, unless they stop inside a word; and it stays the longest
when others are put behind that begin with one that no lexeme goes on with.  So characters that end
in whole lexemes are cut in the same way, whatever is put behind them (`Fragment.ofChars_append`).
-/

namespace ExprLang

open Text Decimal

namespace Lexeme

/-- A beginning of `l ++ rest` is one of `l`, or it contains the character behind `l`. -/
theorem prefix_or_mem {s l rest : List Char} (h : s <+: l ++ rest) :
    s <+: l ∨ ∃ c ∈ rest.head?, c ∈ s := by
  obtain ⟨more, hmore⟩ := h
  rcases List.append_eq_append_iff.1 hmore with ⟨u, rfl, -⟩ | ⟨u, rfl, hrest⟩
  · exact .inl (List.prefix_append s u)
  · cases u with
    | nil => exact .inl (by simp)
    | cons c u => exact .inr ⟨c, by simp [hrest], by simp⟩

end Lexeme

namespace Longest

variable {P : List Char → Prop} {cs front l b : List Char}

theorem of_prefix (h : Longest P cs l) (hfront : front <+: cs) (hl : l <+: front) :
    Longest P front l where
  holds := h.holds
  front := hl
  longest s hs hle := h.longest s hs (hle.trans hfront)

theorem extend (h : Longest P cs l) (hb : ∀ c ∈ b.head?, ∀ s, P s → c ∉ s) :
    Longest P (cs ++ b) l where
  holds := h.holds
  front := h.front.trans (List.prefix_append cs b)
  longest s hs hle := by
    rcases Lexeme.prefix_or_mem hle with hle | ⟨c, hc, hmem⟩
    · exact h.longest s hs hle
    · exact absurd hmem (hb c hc s hs)

end Longest

namespace Lexeme

variable {spelled : List Char → Prop} {l a b : List Char}

/-- The characters of numerals. -/
def inNumeral (c : Char) : Bool :=
  c.isDigit || c == '.'

theorem inNumeral_of_isNumeral {s : List Char} (h : IsNumeral s) : ∀ c ∈ s, inNumeral c = true := by
  obtain ⟨whole, part, hwhole, hpart, rfl⟩ := h
  intro c hc
  rw [inNumeral, Bool.or_eq_true, beq_iff_eq]
  rcases List.mem_append.1 hc with hc | hc
  · exact .inl (hwhole.2 c hc)
  · cases hpart with
    | none => cases hc
    | digits hdigits =>
      rcases List.mem_cons.1 hc with rfl | hc
      · exact .inr rfl
      · exact .inl (hdigits.2 c hc)

/-- No lexeme goes on with the character, unless it is a text. -/
structure Stops (spelled : List Char → Prop) (c : Char) : Prop where
  word : isWordPart c = false
  point : c ≠ '.'
  symbol : ∀ s, spelled s → c ∉ s

theorem Stops.numeral {c : Char} (h : Stops spelled c) : ∀ s, IsNumeral s → c ∉ s := by
  intro s hs hmem
  have hc := inNumeral_of_isNumeral hs c hmem
  rw [inNumeral, Bool.or_eq_true, beq_iff_eq] at hc
  have hdigit := hc.resolve_right h.point
  have hword := h.word
  rw [isWordPart_of_isDigit hdigit] at hword
  cases hword

namespace Width

theorem truncate (h : Width (l ++ (a ++ b)) l)
    (hb : a ≠ [] → ∀ c ∈ b.head?, isWordPart c = false) : Width (l ++ a) l := by
  generalize hcs : l ++ (a ++ b) = cs at h
  cases h with
  | letter hc hrest =>
    obtain rfl := (List.cons.inj hcs).2
    have hmem {d : Char} (hd : d ∈ a.head?) : d ∈ (a ++ b).head? := by
      rw [Option.mem_def] at hd ⊢
      rw [List.head?_append, hd]
      rfl
    exact .letter hc fun d hd => hrest d (hmem hd)
  | none hrest =>
    refine .none fun c hc hsuffix => ?_
    obtain ⟨more, rfl⟩ : ∃ more, a = c :: more := List.head?_eq_some_iff.1 hc
    obtain ⟨d, hd, hpart⟩ := hrest c (by simp [← hcs]) hsuffix
    refine ⟨d, ?_, hpart⟩
    -- The letter is at the end of `a` only if no word goes on in `b`.
    cases more with
    | nil =>
      rw [hb (List.cons_ne_nil _ _) d (by simpa [← hcs] using hd)] at hpart
      cases hpart
    | cons e more => simpa [← hcs] using hd

theorem extend (h : Width (l ++ a) l) (hb : ∀ c ∈ b.head?, isWordPart c = false) :
    Width (l ++ (a ++ b)) l := by
  generalize hcs : l ++ a = cs at h
  cases h with
  | letter hc hrest =>
    obtain rfl := (List.cons.inj hcs).2
    refine .letter hc fun d hd => ?_
    cases a with
    | nil => exact hb d hd
    | cons e more => exact hrest d hd
  | none hrest =>
    refine .none fun c hc hsuffix => ?_
    cases a with
    | nil =>
      have hword := hb c hc
      rw [isWordPart_of_isSuffix hsuffix] at hword
      cases hword
    | cons e more =>
      obtain ⟨d, hd, hpart⟩ := hrest c (by simpa [← hcs] using hc) hsuffix
      refine ⟨d, ?_, hpart⟩
      cases more with
      | nil => simp [← hcs] at hd
      | cons e more => simpa [← hcs] using hd

end Width

namespace Munch

theorem ne_nil_of_isNumeral {s : List Char} (h : IsNumeral s) : s ≠ [] := by
  obtain ⟨whole, part, hwhole, -, rfl⟩ := h
  exact List.append_ne_nil_of_left_ne_nil hwhole.1 part

/-- No lexeme is empty unless a symbol is. -/
theorem ne_nil {cs : List Char} (h : Munch spelled cs l) (hne : ∀ s, spelled s → s ≠ []) : l ≠ [] := by
  cases h with
  | text | character => exact List.cons_ne_nil _ _
  | number _ hnumeral =>
    exact List.append_ne_nil_of_left_ne_nil (ne_nil_of_isNumeral hnumeral.holds) _
  | @word c _ _ hc hlongest =>
    rintro rfl
    have hle := hlongest.longest [c] (by simpa using isWordPart_of_isWordStart hc) (by simp)
    exact absurd hle (by simp)
  | symbol _ hlongest => exact hne _ hlongest.holds

/-- A longest lexeme stays the longest when the characters stop behind it, unless they stop inside a
word. -/
theorem truncate (h : Munch spelled (l ++ (a ++ b)) l) (hne : l ≠ [])
    (hb : a ≠ [] → ∀ c ∈ b.head?, isWordPart c = false) : Munch spelled (l ++ a) l := by
  have hfront : l ++ a <+: l ++ (a ++ b) := ⟨b, List.append_assoc l a b⟩
  have hl : l <+: l ++ a := List.prefix_append l a
  generalize hcs : l ++ (a ++ b) = cs at h hfront
  cases h with
  | @text quote body behind hquote hbody =>
    have htext : quote :: (body ++ [quote]) ++ a = quote :: (body ++ quote :: a) := by simp
    rw [htext]
    exact .text hquote hbody
  | @number c cs numeral behind letter hc hnumeral hbehind hletter =>
    obtain rfl : letter ++ (a ++ b) = behind := by
      rw [hbehind, List.append_assoc] at hcs
      exact List.append_cancel_left hcs
    have hnil := ne_nil_of_isNumeral hnumeral.holds
    obtain ⟨ds, rfl, -⟩ := (List.prefix_cons_iff.1 hnumeral.front).resolve_left hnil
    rw [List.append_assoc] at hfront ⊢
    have hlongest := hnumeral.of_prefix hfront (List.prefix_append _ _)
    exact .number hc hlongest rfl (hletter.truncate hb)
  | @word c cs l hc hlongest =>
    obtain ⟨ds, rfl, -⟩ := (List.prefix_cons_iff.1 hlongest.front).resolve_left hne
    exact .word hc (hlongest.of_prefix hfront hl)
  | @symbol c cs l hc hlongest =>
    obtain ⟨ds, rfl, -⟩ := (List.prefix_cons_iff.1 hlongest.front).resolve_left hne
    exact .symbol hc (hlongest.of_prefix hfront hl)
  | character hc hnone =>
    exact .character hc fun s hs hle => hnone s hs (hle.trans hfront)

/-- A longest lexeme stays the longest when more characters are put behind, if the first of them
does not carry it on. -/
theorem extend (h : Munch spelled (l ++ a) l) (hb : ∀ c ∈ b.head?, Stops spelled c) :
    Munch spelled (l ++ (a ++ b)) l := by
  rw [← List.append_assoc]
  generalize hcs : l ++ a = cs at h
  cases h with
  | @text quote body behind hquote hbody =>
    have htext : quote :: (body ++ quote :: behind) ++ b = quote :: (body ++ quote :: (behind ++ b)) := by
      simp
    rw [htext]
    exact .text hquote hbody
  | @number c cs numeral behind letter hc hnumeral hbehind hletter =>
    obtain rfl : letter ++ a = behind := by
      rw [hbehind, List.append_assoc] at hcs
      exact List.append_cancel_left hcs
    have hlongest := hnumeral.extend fun d hd => (hb d hd).numeral
    have hwidth := hletter.extend fun d hd => (hb d hd).word
    have hall : c :: cs ++ b = numeral ++ (letter ++ (a ++ b)) := by
      simp only [hbehind, List.append_assoc]
    exact .number hc hlongest hall hwidth
  | word hc hlongest =>
    refine .word hc (hlongest.extend fun d hd s hs hmem => ?_)
    have hword := (hb d hd).word
    rw [hs d hmem] at hword
    cases hword
  | symbol hc hlongest => exact .symbol hc (hlongest.extend fun d hd => (hb d hd).symbol)
  | @character c cs hc hnone =>
    refine .character hc fun s hs hle => ?_
    rcases prefix_or_mem (l := c :: cs) hle with hle | ⟨d, hd, hmem⟩
    · exact hnone s hs hle
    · exact (hb d hd).symbol s hs hmem

end Munch

end Lexeme

namespace Fragment

open Lexeme

variable {spelled : List Char → Prop} {symbols : List (List Char)}

/-- Behind blank characters, the longest lexeme is cut off. -/
theorem ofChars_munch (hsymbols : Sorted spelled symbols) (m : Mark) {gap l cs : List Char}
    (hgap : ∀ c ∈ gap, isBlank c = true) (hmunch : Munch spelled (l ++ cs) l) :
    ofChars symbols m (gap ++ (l ++ cs)) =
      (ofChars symbols ((m.advance gap).advance l) cs).map
        (⟨String.ofList l, .between (m.advance gap) ((m.advance gap).advance l)⟩ :: ·) := by
  rw [ofChars_blank symbols m hgap]
  generalize hfront : l ++ cs = front at hmunch
  cases front with
  | nil => cases hmunch
  | cons c rest =>
    obtain ⟨hblank, hnext⟩ := hsymbols.next?_of_munch hmunch hfront
    rw [ofChars_lexeme hblank _ hnext]

/-- Characters that end in whole lexemes are cut in the same way with others behind them, if the
first of those does not carry on a lexeme. -/
theorem ofChars_append (hsymbols : Sorted spelled symbols) {m : Mark} {cs b : List Char}
    (hb : ∀ c ∈ b.head?, Stops spelled c) {fragments : List Fragment}
    (h : ofChars symbols m cs = .ok fragments) :
    ofChars symbols m (cs ++ b) = (ofChars symbols (m.advance cs) b).map (fragments ++ ·) := by
  replace h := cut_of_ofChars h
  induction h with
  | @blank m gap hgap =>
    rw [ofChars_blank symbols m hgap]
    cases ofChars symbols (m.advance gap) b <;> rfl
  | @fragment m gap rest lexeme after c others hgap hc hnext _ ih =>
    have hmunch := hsymbols.munch_of_next? hc hnext
    rw [← (append_of_next? hnext).1] at hmunch
    rw [List.append_assoc, List.append_assoc, ofChars_munch hsymbols m hgap (hmunch.extend hb), ih,
      Mark.advance_append, Mark.advance_append]
    cases ofChars symbols (((m.advance gap).advance lexeme).advance after) b <;> rfl

end Fragment

end ExprLang
