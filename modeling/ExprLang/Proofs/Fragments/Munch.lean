import ExprLang.Proofs.Fragments.Partition
import ExprLang.Proofs.Writing.Literals

/-!
# Longest lexemes

What is cut off the front of a source is the longest lexeme of its class there.  `Munch` says so
without an order in which lexemes are tried: a text goes to the first quote that no backslash
escapes, numerals and words cannot be made longer, and of the spellings that stand in front the
longest is cut.  The lexer finds that spelling as the first one in a list sorted by length, which
holds exactly the spellings of the recognizers, however deep chains are nested in chains
(`Lexer.munch_of_tokens`).
-/

namespace ExprLang

open Text Decimal

/-- `l` is the longest beginning of `cs` with the property. -/
structure Longest (P : List Char → Prop) (cs l : List Char) : Prop where
  holds : P l
  front : l <+: cs
  longest : ∀ s, P s → s <+: cs → s.length ≤ l.length

theorem Longest.unique {P : List Char → Prop} {cs l l' : List Char} (h : Longest P cs l)
    (h' : Longest P cs l') : l = l' := by
  have hle := h'.longest l h.holds h.front
  have hge := h.longest l' h'.holds h'.front
  exact (List.prefix_of_prefix_length_le h.front h'.front hle).eq_of_length_le hge

namespace Lexeme

open Fragment

/-- What can stand between two quotes.  A backslash takes the next character with it, which may be
a quote. -/
inductive Quotable (quote : Char) : List Char → Prop
  | nil : Quotable quote []
  | plain {c : Char} {cs : List Char} (hquote : c ≠ quote) (hbackslash : c ≠ '\\')
      (h : Quotable quote cs) : Quotable quote (c :: cs)
  | escape {c : Char} {cs : List Char} (h : Quotable quote cs) : Quotable quote ('\\' :: c :: cs)

/-- Digits, or digits with a point between them. -/
def IsNumeral (cs : List Char) : Prop :=
  ∃ whole part, IsDigits whole ∧ IsFraction part ∧ cs = whole ++ part

/-- The letter in front that gives the width of a number if no word goes on behind it, or else
nothing. -/
inductive Width : List Char → List Char → Prop
  | letter {c : Char} {cs : List Char} (hc : isSuffix c = true)
      (hcs : ∀ d ∈ cs.head?, isWordPart d = false) : Width (c :: cs) [c]
  | none {cs : List Char} (hcs : ∀ c ∈ cs.head?, isSuffix c = true →
      ∃ d ∈ cs.tail.head?, isWordPart d = true) : Width cs []

/-- The second characters are the longest lexeme of its class in front of the first ones.  The class
depends on the first character; `spelled` are the spellings of symbols. -/
inductive Munch (spelled : List Char → Prop) : List Char → List Char → Prop
  | text {quote : Char} {body after : List Char} (hquote : quote = '\'' ∨ quote = '"')
      (hbody : Quotable quote body) :
      Munch spelled (quote :: (body ++ quote :: after)) (quote :: (body ++ [quote]))
  | number {c : Char} {cs numeral behind letter : List Char} (hc : c.isDigit = true)
      (hnumeral : Longest IsNumeral (c :: cs) numeral) (hbehind : c :: cs = numeral ++ behind)
      (hletter : Width behind letter) : Munch spelled (c :: cs) (numeral ++ letter)
  | word {c : Char} {cs l : List Char} (hc : isWordStart c = true)
      (hl : Longest (fun s => ∀ d ∈ s, isWordPart d = true) (c :: cs) l) : Munch spelled (c :: cs) l
  | symbol {c : Char} {cs l : List Char} (hc : beginsSymbol c = true)
      (hl : Longest spelled (c :: cs) l) : Munch spelled (c :: cs) l
  | character {c : Char} {cs : List Char} (hc : beginsSymbol c = true)
      (hnone : ∀ s, spelled s → ¬ s <+: c :: cs) : Munch spelled (c :: cs) [c]

theorem Width.front {cs l : List Char} (h : Width cs l) : l <+: cs := by
  cases h with
  | letter => exact ⟨_, rfl⟩
  | none => exact List.nil_prefix

theorem Munch.front {spelled : List Char → Prop} {cs l : List Char} (h : Munch spelled cs l) :
    l <+: cs := by
  cases h with
  | @text _ _ after => exact ⟨after, by simp⟩
  | number _ _ hbehind hletter =>
    rw [hbehind, List.prefix_append_right_inj]
    exact hletter.front
  | word _ hl => exact hl.front
  | symbol _ hl => exact hl.front
  | character => exact ⟨_, rfl⟩

section Shapes

variable {cs l : List Char}

theorem longest_run (p : Char → Bool) (cs : List Char) :
    Longest (fun s => ∀ c ∈ s, p c = true) cs (run p cs).1 where
  holds c hc := List.mem_takeWhile_imp hc
  front := List.takeWhile_prefix p
  longest s hs hfront := by
    obtain ⟨rest, rfl⟩ := hfront
    rw [run, List.takeWhile_append_of_pos hs, List.length_append]
    omega

theorem isDigits_run {c : Char} (hc : c.isDigit = true) (cs : List Char) :
    IsDigits (run Char.isDigit (c :: cs)).1 := by
  refine ⟨?_, (longest_run Char.isDigit (c :: cs)).holds⟩
  rw [run, List.takeWhile_cons_of_pos hc]
  exact List.cons_ne_nil _ _

theorem isFraction_fraction (cs : List Char) : IsFraction (fraction cs).1 := by
  unfold fraction
  split
  · split
    · rename_i d rest hd
      refine .digits ⟨List.cons_ne_nil _ _, ?_⟩
      exact List.forall_mem_cons.2 ⟨hd, (longest_run Char.isDigit rest).holds⟩
    · exact .none
  · exact .none

/-- A fraction in front is not longer than what is cut. -/
theorem length_le_fraction {part : List Char} (h : IsFraction part) (rest : List Char) :
    part.length ≤ (fraction (part ++ rest)).1.length := by
  cases h with
  | none => exact Nat.zero_le _
  | digits hdigits =>
    obtain ⟨d, ds, rfl⟩ := List.exists_cons_of_ne_nil hdigits.1
    obtain ⟨hd, hds⟩ := List.forall_mem_cons.1 hdigits.2
    have hle := (longest_run Char.isDigit (ds ++ rest)).longest ds hds (List.prefix_append _ _)
    rw [List.cons_append, List.cons_append, fraction, if_pos hd]
    simp only [List.length_cons]
    omega

/-- The digits and the fraction that are cut off. -/
def numeral (cs : List Char) : List Char :=
  (run Char.isDigit cs).1 ++ (fraction (run Char.isDigit cs).2).1

/-- What stands behind them. -/
def behind (cs : List Char) : List Char :=
  (fraction (run Char.isDigit cs).2).2

theorem numeral_append_behind (cs : List Char) : numeral cs ++ behind cs = cs := by
  rw [numeral, behind, List.append_assoc, append_fraction, append_run]

theorem longest_numeral {c : Char} (hc : c.isDigit = true) (cs : List Char) :
    Longest IsNumeral (c :: cs) (numeral (c :: cs)) where
  holds := ⟨_, _, isDigits_run hc cs, isFraction_fraction _, rfl⟩
  front := ⟨behind (c :: cs), numeral_append_behind _⟩
  longest s hs hfront := by
    obtain ⟨whole, part, hwhole, hpart, rfl⟩ := hs
    obtain ⟨rest, hrest⟩ := hfront
    rw [← hrest, numeral, List.length_append, List.length_append]
    cases hpart with
    | none =>
      have hle := (longest_run Char.isDigit (whole ++ [] ++ rest)).longest whole hwhole.2
        (by simp)
      simp only [List.length_nil]
      omega
    | digits hdigits =>
      rename_i ds
      have hrun : run Char.isDigit (whole ++ ('.' :: ds) ++ rest) =
          (whole, ('.' :: ds) ++ rest) := by
        rw [List.append_assoc]
        apply run_eq hwhole.2
        intro d hd
        obtain rfl := Option.some.inj hd
        rfl
      have hle := length_le_fraction (.digits hdigits) rest
      rw [hrun]
      exact Nat.add_le_add_left hle whole.length

theorem width_suffix (cs : List Char) : Width cs (suffix cs).1 := by
  cases cs with
  | nil => exact .none (by simp)
  | cons c cs =>
    by_cases hc : isSuffix c = true
    · cases cs with
      | nil =>
        rw [suffix, if_pos hc]
        exact .letter hc (by simp)
      | cons d rest =>
        cases hd : isWordPart d with
        | true =>
          rw [suffix, hc, hd]
          exact .none (by simp [hd])
        | false =>
          rw [suffix, hc, hd]
          exact .letter hc (by simp [hd])
    · have hnone : Width (c :: cs) [] := by
        apply Width.none
        intro d hd hsuffix
        obtain rfl := Option.some.inj hd
        exact absurd hsuffix hc
      cases cs <;> simpa [suffix, hc] using hnone

theorem Width.unique {l' : List Char} (h : Width cs l) (h' : Width cs l') : l = l' := by
  cases h with
  | letter hc hcs =>
    cases h' with
    | letter => rfl
    | none hnone =>
      obtain ⟨d, hd, hpart⟩ := hnone _ rfl hc
      rw [hcs d hd] at hpart
      cases hpart
  | none hnone =>
    cases h' with
    | letter hc hcs =>
      obtain ⟨d, hd, hpart⟩ := hnone _ rfl hc
      rw [hcs d hd] at hpart
      cases hpart
    | none => rfl

theorem number_fst (cs : List Char) : (number cs).1 = numeral cs ++ (suffix (behind cs)).1 := rfl

/-- A text is cut up to the first quote that is not escaped. -/
theorem toQuote?_eq_some {quote : Char} (hquote : quote ≠ '\\') {body : List Char}
    (h : Quotable quote body) (after : List Char) :
    toQuote? quote (body ++ quote :: after) = some (body ++ [quote], after) := by
  induction h with
  | nil => cases after <;> simp [toQuote?]
  | @plain c cs hne hbackslash _ ih =>
    obtain ⟨d, ds, hds⟩ : ∃ d ds, cs ++ quote :: after = d :: ds :=
      List.exists_cons_of_ne_nil (by simp)
    rw [List.cons_append, hds, toQuote?, if_neg hne, if_neg hbackslash, ← hds, ih]
    rfl
  | escape _ ih =>
    rw [List.cons_append, List.cons_append, toQuote?, if_neg hquote.symm, if_pos rfl, ih]
    rfl

theorem quotable_of_toQuote? {quote : Char} {cs l after : List Char}
    (h : toQuote? quote cs = some (l, after)) :
    ∃ body, Quotable quote body ∧ l = body ++ [quote] ∧ cs = body ++ quote :: after := by
  fun_induction toQuote? quote cs generalizing l after with
  | case1 => cases h
  | case2 =>
    obtain ⟨rfl, rfl⟩ := Prod.mk.inj (Option.some.inj h)
    exact ⟨[], .nil, rfl, rfl⟩
  | case3 => cases h
  | case4 =>
    obtain ⟨rfl, rfl⟩ := Prod.mk.inj (Option.some.inj h)
    exact ⟨[], .nil, rfl, rfl⟩
  | case5 d rest _ ih =>
    obtain ⟨⟨_, _⟩, hrest, hpair⟩ := Option.map_eq_some_iff.1 h
    obtain ⟨rfl, rfl⟩ := Prod.mk.inj hpair
    obtain ⟨body, hbody, rfl, rfl⟩ := ih hrest
    exact ⟨_, .escape hbody, rfl, rfl⟩
  | case6 c d rest hne hbackslash ih =>
    obtain ⟨⟨_, _⟩, hrest, hpair⟩ := Option.map_eq_some_iff.1 h
    obtain ⟨rfl, rfl⟩ := Prod.mk.inj hpair
    obtain ⟨body, hbody, rfl, hcs⟩ := ih hrest
    refine ⟨_, .plain hne hbackslash hbody, rfl, ?_⟩
    rw [hcs, List.cons_append]

end Shapes

/-- The list has exactly these spellings but for the empty one, and longer ones come first. -/
structure Sorted (spelled : List Char → Prop) (symbols : List (List Char)) : Prop where
  iff_mem : ∀ s, spelled s ↔ s ∈ symbols ∧ s ≠ []
  longer : symbols.Pairwise fun a b => b.length ≤ a.length

variable {spelled : List Char → Prop} {symbols : List (List Char)}

/-- The first spelling that stands in front is the longest. -/
theorem Sorted.symbol_spec (h : Sorted spelled symbols) (c : Char) (cs : List Char) :
    Longest spelled (c :: cs) (symbol symbols c cs).1 ∨
      (∀ s, spelled s → ¬ s <+: c :: cs) ∧ symbol symbols c cs = ([c], cs) := by
  rw [symbol]
  cases hfind : symbols.find? fun s => !s.isEmpty && s.isPrefixOf (c :: cs) with
  | none =>
    right
    refine ⟨?_, rfl⟩
    intro s hs hfront
    obtain ⟨hmem, hne⟩ := (h.iff_mem s).1 hs
    have hnot := List.find?_eq_none.1 hfind s hmem
    simp [hne, hfront] at hnot
  | some l =>
    left
    obtain ⟨hl, before, behind, rfl, hbefore⟩ := List.find?_eq_some_iff_append.1 hfind
    rw [Bool.and_eq_true, Bool.not_eq_true', List.isEmpty_eq_false_iff,
      List.isPrefixOf_iff_prefix] at hl
    refine ⟨(h.iff_mem l).2 ⟨by simp, hl.1⟩, hl.2, ?_⟩
    intro s hs hfront
    obtain ⟨hmem, hne⟩ := (h.iff_mem s).1 hs
    rcases List.mem_append.1 hmem with hmem | hmem
    · have hnot := hbefore s hmem
      rw [List.isPrefixOf_iff_prefix.2 hfront] at hnot
      simp [hne] at hnot
    · rcases List.mem_cons.1 hmem with rfl | hmem
      · exact le_refl _
      · exact List.rel_of_pairwise_cons (List.pairwise_append.1 h.longer).2.1 hmem

/-- What is cut off is the longest lexeme. -/
theorem Sorted.munch_of_next? (h : Sorted spelled symbols) {c : Char} {cs l after : List Char}
    (hblank : isBlank c = false) (hnext : next? symbols c cs = some (l, after)) :
    Munch spelled (c :: cs) l := by
  unfold next? at hnext
  split at hnext
  case isTrue hquote =>
    obtain ⟨⟨_, _⟩, hrest, hpair⟩ := Option.map_eq_some_iff.1 hnext
    obtain ⟨rfl, rfl⟩ := Prod.mk.inj hpair
    obtain ⟨body, hbody, rfl, rfl⟩ := quotable_of_toQuote? hrest
    exact .text (by simpa using hquote) hbody
  case isFalse hquote =>
    split at hnext
    case isTrue hdigit =>
      obtain rfl : (number (c :: cs)).1 = l := congrArg Prod.fst (Option.some.inj hnext)
      exact .number hdigit (longest_numeral hdigit cs) (numeral_append_behind _).symm
        (width_suffix _)
    case isFalse hdigit =>
      split at hnext
      case isTrue hword =>
        obtain rfl : (word (c :: cs)).1 = l := congrArg Prod.fst (Option.some.inj hnext)
        exact .word hword (longest_run isWordPart (c :: cs))
      case isFalse hword =>
        have hc : beginsSymbol c = true := by
          simp only [Bool.not_eq_true] at hquote hdigit hword
          rw [beginsSymbol, hblank, hquote, hdigit, hword]
          rfl
        obtain rfl : (symbol symbols c cs).1 = l := congrArg Prod.fst (Option.some.inj hnext)
        rcases h.symbol_spec c cs with hlongest | ⟨hnone, heq⟩
        · exact .symbol hc hlongest
        · rw [heq]
          exact .character hc hnone

/-- The longest lexeme is cut off. -/
theorem Sorted.next?_of_munch (h : Sorted spelled symbols) {c : Char} {cs l after : List Char}
    (hmunch : Munch spelled (c :: cs) l) (hsplit : l ++ after = c :: cs) :
    isBlank c = false ∧ next? symbols c cs = some (l, after) := by
  -- Whatever cuts the front off and leaves the rest is settled by the front.
  have hpair {p : List Char × List Char} (happend : p.1 ++ p.2 = c :: cs) (hfst : l = p.1) :
      some p = some (l, after) := by
    rw [hfst] at hsplit ⊢
    rw [List.append_cancel_left (hsplit.trans happend.symm)]
  cases hmunch with
  | @text _ body behind hquote hbody =>
    have hsame : behind = after := by simpa using hsplit.symm
    have hbackslash : c ≠ '\\' := by rcases hquote with rfl | rfl <;> decide
    have hclass : (decide (c = '\'') || decide (c = '"')) = true := by simpa using hquote
    refine ⟨by rcases hquote with rfl | rfl <;> decide, ?_⟩
    rw [next?, if_pos hclass, toQuote?_eq_some hbackslash hbody, hsame]
    rfl
  | @number _ _ digits behind letter hc hnumeral hbehind hletter =>
    refine ⟨isBlank_of_isDigit hc, ?_⟩
    rw [next?_of_isDigit symbols cs hc]
    apply hpair (append_number _)
    have hsame := hnumeral.unique (longest_numeral hc cs)
    have hrest : behind = Lexeme.behind (c :: cs) := by
      have hboth := (numeral_append_behind (c :: cs)).trans hbehind
      rw [← hsame] at hboth
      exact (List.append_cancel_left hboth).symm
    rw [number_fst, ← hsame, ← hrest, hletter.unique (width_suffix behind)]
  | word hc hl =>
    refine ⟨isBlank_of_isWordStart hc, ?_⟩
    rw [next?_of_isWordStart symbols cs hc]
    exact hpair (append_run isWordPart _) (hl.unique (longest_run isWordPart (c :: cs)))
  | symbol hc hl =>
    refine ⟨isBlank_of_beginsSymbol hc, ?_⟩
    rw [next?_of_beginsSymbol symbols cs hc]
    apply hpair (append_symbol symbols c cs).1
    rcases h.symbol_spec c cs with hlongest | ⟨hnone, -⟩
    · exact hl.unique hlongest
    · exact absurd hl.front (hnone l hl.holds)
  | character hc hnone =>
    refine ⟨isBlank_of_beginsSymbol hc, ?_⟩
    rw [next?_of_beginsSymbol symbols cs hc]
    apply hpair (append_symbol symbols c cs).1
    rcases h.symbol_spec c cs with hlongest | ⟨-, heq⟩
    · exact absurd hlongest.front (hnone _ hlongest.holds)
    · rw [heq]

end Lexeme

namespace Fragment

open Lexeme

/-- The fragments are the longest lexemes in the characters `coming`, which stand behind the
characters `before`. -/
inductive Munched (spelled : List Char → Prop) : List Char → List Char → List Fragment → Prop
  | blank {before gap : List Char} (hgap : ∀ c ∈ gap, isBlank c = true) :
      Munched spelled before gap []
  | fragment {before gap lexeme rest : List Char} {first last : Mark} {fragments : List Fragment}
      (hgap : ∀ c ∈ gap, isBlank c = true) (hfirst : first.Follows (before ++ gap))
      (hmunch : Munch spelled (lexeme ++ rest) lexeme)
      (hrest : Munched spelled (before ++ gap ++ lexeme) rest fragments) :
      Munched spelled before (gap ++ lexeme ++ rest)
        (⟨String.ofList lexeme, .between first last⟩ :: fragments)

theorem munched_of_ofChars {spelled : List Char → Prop} {symbols : List (List Char)}
    (hsymbols : Sorted spelled symbols) {m : Mark} {before cs : List Char}
    {fragments : List Fragment} (hm : m.Follows before)
    (h : ofChars symbols m cs = .ok fragments) : Munched spelled before cs fragments := by
  replace h := cut_of_ofChars h
  induction h generalizing before with
  | blank hgap => exact .blank hgap
  | @fragment m gap rest lexeme after c others hgap hc hnext _ ih =>
    have hstart := hm.advance gap
    have hmunch := hsymbols.munch_of_next? hc hnext
    rw [← (append_of_next? hnext).1] at hmunch
    exact .fragment hgap hstart hmunch (ih (hstart.advance lexeme))

/-- Each fragment is the longest lexeme where it begins. -/
theorem Munched.placed {spelled : List Char → Prop} {before coming : List Char}
    {fragments : List Fragment} (h : Munched spelled before coming fragments) :
    ∀ f ∈ fragments, ∃ front behind, before ++ coming = front ++ behind ∧
      f.span.first.Follows front ∧ Munch spelled behind f.text.toList := by
  induction h with
  | blank => exact fun f hf => absurd hf List.not_mem_nil
  | @fragment before gap lexeme rest first last fragments _ hfirst hmunch _ ih =>
    rw [List.forall_mem_cons]
    constructor
    · refine ⟨before ++ gap, lexeme ++ rest, by simp only [List.append_assoc], hfirst, ?_⟩
      rwa [String.toList_ofList]
    · simpa only [List.append_assoc] using ih

end Fragment

namespace Chain

/-- The recognizers that a chain asks: its members, and those that the chains among them ask. -/
inductive Asks : Chain → Recognizer → Prop
  | member {chain : Chain} {r : Recognizer} (hr : r ∈ chain.members) : Asks chain r
  | nested {chain inner : Chain} {r : Recognizer} (hinner : inner.toRecognizer ∈ chain.members)
      (h : Asks inner r) : Asks chain r

theorem mem_symbols {chain : Chain} {s : String} :
    s ∈ chain.symbols ↔ ∃ r ∈ chain.members, s ∈ r.symbols := by
  rw [symbols, Entries.mem_keys_ofList]
  simp

/-- The symbols of a chain are those of all recognizers in it. -/
theorem mem_symbols_iff_asks {chain : Chain} {s : String} :
    s ∈ chain.symbols ↔ ∃ r, chain.Asks r ∧ s ∈ r.symbols := by
  constructor
  · rw [mem_symbols]
    rintro ⟨r, hr, hs⟩
    exact ⟨r, .member hr, hs⟩
  · rintro ⟨r, hr, hs⟩
    induction hr with
    | member hr => exact mem_symbols.2 ⟨_, hr, hs⟩
    | nested hinner _ ih => exact mem_symbols.2 ⟨_, hinner, ih hs⟩

end Chain

namespace Lexer

open Lexeme

/-- A recognizer of the lexer has this spelling among its symbols. -/
def Declares (lexer : Lexer) (s : List Char) : Prop :=
  ∃ r, lexer.chain.Asks r ∧ String.ofList s ∈ r.symbols

/-- The spellings that can be cut off: the empty one is passed over. -/
def Spells (lexer : Lexer) (s : List Char) : Prop :=
  s ≠ [] ∧ lexer.Declares s

theorem preferred_trans (a b c : String) (hab : preferred a b = true) (hbc : preferred b c = true) :
    preferred a c = true := by
  simp only [preferred, Bool.or_eq_true, Bool.and_eq_true, decide_eq_true_eq, beq_iff_eq] at *
  rcases hab with hab | ⟨hab, hle⟩ <;> rcases hbc with hbc | ⟨hbc, hle'⟩
  · left; omega
  · left; omega
  · left; omega
  · right; exact ⟨by omega, String.le_trans hle hle'⟩

theorem preferred_total (a b : String) : (preferred a b || preferred b a) = true := by
  simp only [preferred, Bool.or_eq_true, Bool.and_eq_true, decide_eq_true_eq, beq_iff_eq]
  rcases Nat.lt_trichotomy a.length b.length with hlt | heq | hlt
  · exact .inr (.inl hlt)
  · rcases String.le_total a b with hle | hle
    · exact .inl (.inr ⟨heq, hle⟩)
    · exact .inr (.inr ⟨heq.symm, hle⟩)
  · exact .inl (.inl hlt)

theorem length_le_of_preferred {a b : String} (h : preferred a b = true) : b.length ≤ a.length := by
  simp only [preferred, Bool.or_eq_true, Bool.and_eq_true, decide_eq_true_eq, beq_iff_eq] at h
  omega

/-- The symbols of a lexer are the spellings of its recognizers, longer ones first. -/
theorem sorted_symbols (lexer : Lexer) :
    Sorted lexer.Spells (lexer.symbols.map String.toList) where
  iff_mem s := by
    rw [Spells, Declares, ← Chain.mem_symbols_iff_asks, List.mem_map, and_comm]
    simp only [symbols, List.mem_mergeSort]
    apply and_congr_left'
    constructor
    · intro h
      exact ⟨_, h, String.toList_ofList⟩
    · rintro ⟨t, ht, rfl⟩
      rwa [String.ofList_toList]
  longer := by
    rw [List.pairwise_map]
    refine (List.pairwise_mergeSort preferred_trans preferred_total _).imp ?_
    intro a b h
    rw [String.length_toList, String.length_toList]
    exact length_le_of_preferred h

/-- The tokens of a source are those of its fragments, with an end token behind them. -/
theorem tokens_eq_ok {lexer : Lexer} (hsplitter : lexer.splitter = Fragment.split)
    {source : String} {tokens : List Token} :
    lexer.tokens source = .ok tokens ↔
      ∃ fragments body, Fragment.split lexer.symbols source = .ok fragments ∧
        fragments.mapM lexer.classify = .ok body ∧
        tokens = body ++ [.eof (Mark.start.advance source.toList)] := by
  rw [Lexer.tokens, hsplitter]
  cases Fragment.split lexer.symbols source with
  | error e =>
    constructor
    · intro h
      cases h
    · rintro ⟨_, _, h, -⟩
      cases h
  | ok fragments =>
    change (fragments.mapM lexer.classify >>= fun body => Except.ok _) = _ ↔ _
    cases hbody : fragments.mapM lexer.classify with
    | error e =>
      constructor
      · intro h
        cases h
      · rintro ⟨_, _, h, h', -⟩
        obtain rfl := Except.ok.inj h
        rw [hbody] at h'
        cases h'
    | ok body =>
      constructor
      · intro h
        exact ⟨fragments, body, rfl, hbody, (Except.ok.inj h).symm⟩
      · rintro ⟨_, _, h, h', rfl⟩
        obtain rfl := Except.ok.inj h
        rw [hbody] at h'
        obtain rfl := Except.ok.inj h'
        rfl

/-- All tokens but the end token are the longest lexemes where they begin. -/
def Munches (spelled : List Char → Prop) (source : String) (tokens : List Token) : Prop :=
  ∃ body stop, tokens = body ++ [.eof stop] ∧
    ∀ t ∈ body, ∃ front behind, source.toList = front ++ behind ∧ t.span.first.Follows front ∧
      Munch spelled behind t.text.toList

/-- Each token is the longest lexeme of its class where it begins. -/
theorem munch_of_tokens {lexer : Lexer} (hsplitter : lexer.splitter = Fragment.split)
    {source : String} {tokens : List Token} (h : lexer.tokens source = .ok tokens) :
    Munches lexer.Spells source tokens := by
  obtain ⟨fragments, body, hfragments, hbody, rfl⟩ := (tokens_eq_ok hsplitter).1 h
  refine ⟨body, _, rfl, ?_⟩
  intro t ht
  have hmem : t.fragment ∈ fragments :=
    lexer.map_fragment_of_mapM fragments hbody ▸ List.mem_map_of_mem ht
  exact (Fragment.munched_of_ofChars lexer.sorted_symbols Mark.follows_start hfragments).placed
    t.fragment hmem

theorem exists_of_map_eq_ok {ε α β : Type} {x : Except ε α} {f : α → β} {b : β}
    (h : x.map f = .ok b) : ∃ a, x = .ok a ∧ f a = b := by
  cases x with
  | error e => cases h
  | ok a => exact ⟨a, rfl, Except.ok.inj h⟩

/-- Arrows and equality signs, in a chain inside a chain. -/
def arrows : Lexer :=
  bare.addRecognizer <| Chain.toRecognizer <| .ofList
    [.ofTable 10 [("=", .custom "signs" "equals"), ("==", .custom "signs" "same")],
      Chain.toRecognizer <| .ofList [.ofTable 20 [("==>", .custom "signs" "arrow")]]]

theorem munch_of_tokens_arrows :
    ∃ tokens, arrows.tokens "a===>1.5L" = .ok tokens ∧
      tokens.map Token.text = ["a", "==", "=", ">", "1.5L", ""] ∧
      Munches arrows.Spells "a===>1.5L" tokens := by
  have htokens : (arrows.tokens "a===>1.5L").map (List.map Token.text) =
      .ok ["a", "==", "=", ">", "1.5L", ""] := by cbv
  obtain ⟨tokens, h, htexts⟩ := exists_of_map_eq_ok htokens
  exact ⟨tokens, h, htexts, munch_of_tokens rfl h⟩

/-- A lexer that has a name for nothing. -/
def hollow : Lexer :=
  bare.addRecognizer (.ofTable 10 [("", .custom "signs" "nothing")])

theorem hollow_declares_iff {s : List Char} : hollow.Declares s ↔ s = [] := by
  have hsymbols : hollow.chain.symbols = [""] := by cbv
  rw [Declares, ← Chain.mem_symbols_iff_asks, hsymbols, List.mem_singleton]
  constructor
  · intro h
    simpa using congrArg String.toList h
  · rintro rfl
    rfl

/-- The empty spelling stands in front of everything, but no token is empty. -/
theorem not_munch_of_hollow :
    ¬ ∀ (lexer : Lexer) (source : String) (tokens : List Token),
      lexer.splitter = Fragment.split → lexer.tokens source = .ok tokens →
        Munches lexer.Declares source tokens := by
  intro h
  have htokens : hollow.tokens "#" =
      .ok [⟨BasicKind.raw, "#", ⟨0, 1, 1, 1⟩⟩, .eof ⟨1, 1, 2⟩] := by cbv
  obtain ⟨body, stop, hbody, hall⟩ := h hollow "#" _ rfl htokens
  have hmem : ⟨BasicKind.raw, "#", ⟨0, 1, 1, 1⟩⟩ ∈ body := by
    cases body with
    | nil => simp at hbody
    | cons t body => simp_all
  obtain ⟨front, behind, hsource, -, hmunch⟩ := hall _ hmem
  have htext : "#".toList = ['#'] := rfl
  simp only [htext] at hsource hmunch
  have hfront := hmunch.front
  -- The sign stands in front of what is left, and the longest spelling there is not the sign.
  generalize hl : ['#'] = l at hmunch hfront
  cases hmunch with
  | text hquote => rcases hquote with rfl | rfl <;> simp at hl
  | number hc =>
    rw [← hl, List.cons_prefix_cons] at hfront
    rw [← hfront.1] at hc
    exact absurd hc (by decide)
  | word hc =>
    rw [← hl, List.cons_prefix_cons] at hfront
    rw [← hfront.1] at hc
    exact absurd hc (by decide)
  | symbol _ hlongest =>
    rw [hollow_declares_iff.1 hlongest.holds] at hl
    cases hl
  | character _ hnone => exact hnone [] (hollow_declares_iff.2 rfl) List.nil_prefix

end Lexer

end ExprLang
