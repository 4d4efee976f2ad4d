import ExprLang.Proofs.Syntax.CoreTokens
import ExprLang.Proofs.Writing.Characters

/-!
# Cutting written text

What the core lexer cuts off the front of characters of which only the beginning is known.  Each
shape of lexeme is cut as a whole if what follows does not carry it on: a word must not be followed
by a part of a word, and a symbol not by the rest of a longer symbol.
-/

namespace ExprLang

open Text

/-- A run goes on to the first character that does not belong to it. -/
theorem Lexeme.run_eq {p : Char → Bool} {cs rest : List Char} (hcs : ∀ c ∈ cs, p c = true)
    (hrest : ∀ c ∈ rest.head?, p c = false) : run p (cs ++ rest) = (cs, rest) := by
  have hstop : rest.takeWhile p = [] ∧ rest.dropWhile p = rest := by
    cases rest with
    | nil => exact ⟨rfl, rfl⟩
    | cons c rest =>
      have hc : ¬ p c = true := by simp [hrest c rfl]
      exact ⟨List.takeWhile_cons_of_neg hc, List.dropWhile_cons_of_neg hc⟩
  rw [run, List.takeWhile_append_of_pos hcs, List.dropWhile_append_of_pos hcs, hstop.1, hstop.2,
    List.append_nil]

/-- If longer symbols come first, the longest symbol in front is cut. -/
theorem Lexeme.symbol_of_longest {symbols : List (List Char)}
    (hsorted : symbols.Pairwise fun a b => b.length ≤ a.length) {s rest cs : List Char} {c : Char}
    (hs : s ∈ symbols) (hne : s ≠ []) (hfront : c :: cs = s ++ rest)
    (hlongest : ∀ t ∈ symbols, t <+: s ++ rest → t.length ≤ s.length) :
    symbol symbols c cs = (s, rest) := by
  have hfound : ∃ t, symbols.find? (fun t => !t.isEmpty && t.isPrefixOf (c :: cs)) = some t := by
    rw [← Option.isSome_iff_exists, List.find?_isSome]
    refine ⟨s, hs, ?_⟩
    simp [hfront, hne]
  obtain ⟨t, ht⟩ := hfound
  obtain ⟨hp, front, behind, rfl, hbefore⟩ := List.find?_eq_some_iff_append.1 ht
  rw [Bool.and_eq_true, List.isPrefixOf_iff_prefix, hfront] at hp
  have hle := hlongest t (by simp) hp.2
  -- A longer symbol would have been found before.
  have hge : s.length ≤ t.length := by
    rcases List.mem_append.1 hs with hmem | hmem
    · have hnot := hbefore s hmem
      rw [hfront, List.isPrefixOf_iff_prefix.2 (List.prefix_append s rest)] at hnot
      simp [hne] at hnot
    · rcases List.mem_cons.1 hmem with rfl | hmem
      · exact le_refl _
      · exact List.rel_of_pairwise_cons (List.pairwise_append.1 hsorted).2.1 hmem
  have hsame : t = s :=
    (List.prefix_of_prefix_length_le hp.2 (List.prefix_append s rest) hle).eq_of_length_le hge
  rw [symbol, ht, hfront, hsame]
  simp

namespace Fragment

/-- Blank characters belong to no fragment. -/
theorem ofChars_blank (symbols : List (List Char)) (m : Mark) {gap : List Char}
    (hgap : ∀ c ∈ gap, isBlank c = true) (cs : List Char) :
    ofChars symbols m (gap ++ cs) = ofChars symbols (m.advance gap) cs := by
  conv_lhs => rw [ofChars]
  conv_rhs => rw [ofChars]
  rw [List.dropWhile_append_of_pos hgap, List.takeWhile_append_of_pos hgap, Mark.advance_append]

/-- The lexeme in front becomes a fragment. -/
theorem ofChars_lexeme {symbols : List (List Char)} {c : Char} {cs lexeme after : List Char}
    (hc : isBlank c = false) (m : Mark)
    (hnext : Lexeme.next? symbols c cs = some (lexeme, after)) :
    ofChars symbols m (c :: cs) =
      (ofChars symbols (m.advance lexeme) after).map
        (⟨String.ofList lexeme, .between m (m.advance lexeme)⟩ :: ·) := by
  have hdrop : (c :: cs).dropWhile isBlank = c :: cs := List.dropWhile_cons_of_neg (by simp [hc])
  have htake : (c :: cs).takeWhile isBlank = [] := List.takeWhile_cons_of_neg (by simp [hc])
  rw [ofChars, hdrop, htake, Mark.advance_nil]
  simp only
  split
  · rename_i h
    rw [hnext] at h
    cases h
  · rename_i h
    rw [hnext] at h
    obtain ⟨rfl, rfl⟩ := Prod.mk.inj (Option.some.inj h)
    cases ofChars symbols (m.advance lexeme) after <;> rfl

/-- From `m` on, the characters are cut into the fragments, and then `rest` is left at `m'`. -/
def Cuts (m : Mark) (cs : List Char) (fragments : List Fragment) (m' : Mark)
    (rest : List Char) : Prop :=
  ofChars coreSymbols m cs = (ofChars coreSymbols m' rest).map (fragments ++ ·)

/-- Whether no symbol goes on behind `s` if `rest` follows. -/
def Parted (s : String) (rest : List Char) : Prop :=
  ∀ t ∈ coreSymbols, t <+: s.toList ++ rest → t.length ≤ s.length

/-- Whether the characters do not begin with one that a longer symbol can end with. -/
def Quiet (cs : List Char) : Prop :=
  ∀ c ∈ cs.head?, c ∉ ['+', '-', '=', '&', '|']

/-- Whether the characters neither carry on a word nor a number. -/
def Ends (cs : List Char) : Prop :=
  ∀ c ∈ cs.head?, isWordPart c = false ∧ c ≠ '.'

theorem parted_of_alone {s : String}
    (hs : ∀ t ∈ coreSymbols, s.toList <+: t → t.length ≤ s.length) (rest : List Char) :
    Parted s rest := by
  intro t ht hprefix
  by_contra hlt
  rw [← String.length_toList] at hlt
  have hlonger := List.prefix_of_prefix_length_le (List.prefix_append s.toList rest) hprefix
    (by omega)
  have hle := hs t ht hlonger
  rw [← String.length_toList] at hle
  omega

theorem parted_of_quiet {s : String} (hs : s ≠ "") {rest : List Char} (hrest : Quiet rest) :
    Parted s rest := by
  have htails : ∀ t ∈ coreSymbols, ∀ c ∈ t.tail, c ∈ ['+', '-', '=', '&', '|'] := by
    rw [coreSymbols_eq]
    simp
  intro t ht hprefix
  by_contra hlt
  rw [← String.length_toList] at hlt
  obtain ⟨u, hu⟩ := hprefix
  rcases List.append_eq_append_iff.1 hu with ⟨v, hv, -⟩ | ⟨v, rfl, rfl⟩
  · rw [hv, List.length_append] at hlt
    omega
  · cases v with
    | nil => simp at hlt
    | cons c v =>
      obtain ⟨d, ds, hd⟩ := List.exists_cons_of_ne_nil (mt String.toList_eq_nil_iff.1 hs)
      exact hrest c rfl (htails _ ht c (by simp [hd]))

/-- Whether a lexeme with this character in front is a symbol. -/
def beginsSymbol (c : Char) : Bool :=
  !isBlank c && !(c = '\'' || c = '"') && !c.isDigit && !isWordStart c

section

variable {c : Char} (symbols : List (List Char)) (cs : List Char)

theorem next?_of_isDigit (hc : c.isDigit = true) :
    Lexeme.next? symbols c cs = some (Lexeme.number (c :: cs)) := by
  have hquote : (c = '\'' || c = '"') = false := by
    have hsingle : c ≠ '\'' := by
      rintro rfl
      exact absurd hc (by decide)
    have hdouble : c ≠ '"' := by
      rintro rfl
      exact absurd hc (by decide)
    simp [hsingle, hdouble]
  rw [Lexeme.next?, hquote, hc]
  rfl

theorem next?_of_isWordStart (hc : isWordStart c = true) :
    Lexeme.next? symbols c cs = some (Lexeme.word (c :: cs)) := by
  have hquote : (c = '\'' || c = '"') = false := by
    rw [decide_eq_false (ne_of_isWordStart hc (by decide)),
      decide_eq_false (ne_of_isWordStart hc (by decide))]
    rfl
  rw [Lexeme.next?, hquote, isDigit_of_isWordStart hc, hc]
  rfl

theorem isBlank_of_beginsSymbol (hc : beginsSymbol c = true) : isBlank c = false := by
  simp only [beginsSymbol, Bool.and_eq_true, Bool.not_eq_true'] at hc
  exact hc.1.1.1

theorem next?_of_beginsSymbol (hc : beginsSymbol c = true) :
    Lexeme.next? symbols c cs = some (Lexeme.symbol symbols c cs) := by
  simp only [beginsSymbol, Bool.and_eq_true, Bool.not_eq_true'] at hc
  obtain ⟨⟨⟨-, hquote⟩, hdigit⟩, hword⟩ := hc
  rw [Lexeme.next?, hquote, hdigit, hword]
  rfl

end

namespace Cuts

variable {m m' m'' : Mark} {cs rest rest' : List Char} {fs gs : List Fragment}

theorem nil : Cuts m cs [] m cs := by
  unfold Cuts
  cases ofChars coreSymbols m cs <;> rfl

theorem append (hfs : Cuts m cs fs m' rest) (hgs : Cuts m' rest gs m'' rest') :
    Cuts m cs (fs ++ gs) m'' rest' := by
  rw [Cuts, hfs, hgs]
  cases ofChars coreSymbols m'' rest' with
  | error e => rfl
  | ok fragments => exact congrArg Except.ok (List.append_assoc fs gs fragments).symm

/-- A blank character belongs to no fragment. -/
theorem blank {c : Char} (hc : isBlank c = true) (m : Mark) (cs : List Char) :
    Cuts m (c :: cs) [] (m.step c) cs := by
  have hgap : ∀ d ∈ [c], isBlank d = true := List.forall_mem_singleton.2 hc
  have hsame : ofChars coreSymbols m (c :: cs) = ofChars coreSymbols (m.step c) cs :=
    ofChars_blank coreSymbols m hgap cs
  rw [Cuts, hsame]
  cases ofChars coreSymbols (m.step c) cs <;> rfl

/-- The lexeme in front becomes a fragment. -/
theorem lexeme {c : Char} {l after : List Char} (hc : isBlank c = false) (m : Mark)
    (hnext : Lexeme.next? coreSymbols c cs = some (l, after)) :
    ∃ fragment m', fragment.text = String.ofList l ∧ Cuts m (c :: cs) [fragment] m' after := by
  exact ⟨_, m.advance l, rfl, ofChars_lexeme hc m hnext⟩

/-- A symbol in front is cut if no longer symbol is there. -/
theorem symbol {s : String} (hs : s.toList ∈ coreSymbols) {rest : List Char}
    (hrest : Parted s rest) (m : Mark) :
    ∃ fragment m', fragment.text = s ∧ Cuts m (s.toList ++ rest) [fragment] m' rest := by
  have hfirst : coreSymbols.all (fun cs => cs.head?.any beginsSymbol) = true := by
    rw [coreSymbols_eq]
    decide
  have hsorted : coreSymbols.Pairwise fun a b => b.length ≤ a.length := by
    rw [coreSymbols_eq]
    decide
  have hhead := List.all_eq_true.1 hfirst _ hs
  obtain ⟨c, cs, hcs⟩ : ∃ c cs, s.toList = c :: cs := by
    cases hcs : s.toList with
    | nil => simp [hcs] at hhead
    | cons c cs => exact ⟨c, cs, rfl⟩
  have hne : s.toList ≠ [] := by simp [hcs]
  have hbegins : beginsSymbol c = true := by simpa [hcs] using hhead
  have hsymbol : Lexeme.symbol coreSymbols c (cs ++ rest) = (s.toList, rest) := by
    apply Lexeme.symbol_of_longest hsorted hs hne
    · rw [hcs]
      rfl
    · rw [String.length_toList]
      exact hrest
  have hnext : Lexeme.next? coreSymbols c (cs ++ rest) = some (s.toList, rest) := by
    rw [next?_of_beginsSymbol coreSymbols _ hbegins, hsymbol]
  obtain ⟨fragment, m', htext, hcuts⟩ := lexeme (isBlank_of_beginsSymbol hbegins) m hnext
  refine ⟨fragment, m', ?_, ?_⟩
  · rw [htext, String.ofList_toList]
  · rw [hcs]
    exact hcuts

/-- A word in front is cut if it does not go on. -/
theorem word {w : String} (hw : isWord w = true) {rest : List Char}
    (hrest : ∀ c ∈ rest.head?, isWordPart c = false) (m : Mark) :
    ∃ fragment m', fragment.text = w ∧ Cuts m (w.toList ++ rest) [fragment] m' rest := by
  unfold isWord at hw
  cases hcs : w.toList with
  | nil =>
    rw [hcs] at hw
    cases hw
  | cons c cs =>
    rw [hcs, Bool.and_eq_true, List.all_eq_true] at hw
    obtain ⟨hstart, hparts⟩ := hw
    have hrun : Lexeme.word (c :: (cs ++ rest)) = (c :: cs, rest) := by
      exact Lexeme.run_eq (List.forall_mem_cons.2 ⟨isWordPart_of_isWordStart hstart, hparts⟩) hrest
    have hnext : Lexeme.next? coreSymbols c (cs ++ rest) = some (c :: cs, rest) := by
      rw [next?_of_isWordStart coreSymbols _ hstart, hrun]
    obtain ⟨fragment, m', htext, hcuts⟩ := lexeme (isBlank_of_isWordStart hstart) m hnext
    refine ⟨fragment, m', ?_, hcuts⟩
    rw [htext, ← hcs, String.ofList_toList]

end Cuts

end Fragment

end ExprLang
