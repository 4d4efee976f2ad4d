import ExprLang.Proofs.Fragments.Boundary
import ExprLang.Proofs.Syntax.CoreTokens

/-!
# Texts that are not closed

A source that is not cut ends inside a text.  What stands in front of the quote of that text is cut
just as it would be alone, because no lexeme but a text goes on with a quote.  So the core lexer
fails exactly if there are tokens in front and a text behind them that no quote closes
(`Lexer.endsInText_of_tokens`, `Lexer.tokens_of_endsInText`).
-/

namespace ExprLang

open Text Fragment

namespace Lexeme

/-- No quote among the characters closes a text that begins with such a quote in front of them. -/
def Unclosed (quote : Char) (cs : List Char) : Prop :=
  ∀ inside after, cs = inside ++ quote :: after → ¬ Quotable quote inside

/-- Only a text that is not closed has no lexeme. -/
theorem next?_eq_none_iff {symbols : List (List Char)} {c : Char} {cs : List Char} :
    next? symbols c cs = none ↔ (c = '\'' ∨ c = '"') ∧ Unclosed c cs := by
  rw [next?]
  split
  case isTrue hquote =>
    have hquote : c = '\'' ∨ c = '"' := by simpa using hquote
    rw [Option.map_eq_none_iff, and_iff_right hquote]
    constructor
    · rintro hnone inside after rfl hinside
      have hbackslash : c ≠ '\\' := by rcases hquote with rfl | rfl <;> decide
      rw [toQuote?_eq_some hbackslash hinside] at hnone
      cases hnone
    · intro hunclosed
      rw [Option.eq_none_iff_forall_ne_some]
      rintro ⟨l, after⟩ hsome
      obtain ⟨inside, hinside, -, hcs⟩ := quotable_of_toQuote? hsome
      exact hunclosed inside after hcs hinside
  case isFalse hquote =>
    have hquote : ¬ (c = '\'' ∨ c = '"') := by simpa using hquote
    split
    · exact iff_of_false (Option.some_ne_none _) (mt And.left hquote)
    · split <;> exact iff_of_false (Option.some_ne_none _) (mt And.left hquote)

end Lexeme

namespace Fragment

open Lexeme

variable {spelled : List Char → Prop} {symbols : List (List Char)}

/-- Nothing is cut at the quote of a text that is not closed. -/
theorem ofChars_unclosed (m : Mark) {quote : Char} {rest : List Char}
    (hquote : quote = '\'' ∨ quote = '"') (hunclosed : Unclosed quote rest) :
    ofChars symbols m (quote :: rest) = .error (.located .unterminatedString m.line m.col) := by
  have hblank : isBlank quote = false := by rcases hquote with rfl | rfl <;> decide
  have hnone : next? symbols quote rest = none := next?_eq_none_iff.2 ⟨hquote, hunclosed⟩
  have hdrop : (quote :: rest).dropWhile isBlank = quote :: rest :=
    List.dropWhile_cons_of_neg (by simp [hblank])
  have htake : (quote :: rest).takeWhile isBlank = [] :=
    List.takeWhile_cons_of_neg (by simp [hblank])
  rw [ofChars, hdrop, htake, Mark.advance_nil]
  simp only
  split
  · rfl
  · rename_i hsome
    rw [hnone] at hsome
    cases hsome

/-- If the characters are not cut, some of them are, and then there is a quote that is not closed. -/
theorem unclosed_of_ofChars (hsymbols : Sorted spelled symbols) {m : Mark} {cs : List Char}
    {e : Error} (h : ofChars symbols m cs = .error e) :
    ∃ front quote rest, cs = front ++ quote :: rest ∧ (quote = '\'' ∨ quote = '"') ∧
      Unclosed quote rest ∧ (∃ fragments, ofChars symbols m front = .ok fragments) ∧
      e = .located .unterminatedString (m.advance front).line (m.advance front).col := by
  fun_induction ofChars symbols m cs generalizing e with
  | case1 => cases h
  | case2 m cs start c rest hcs =>
    rename_i hnext
    obtain ⟨hquote, hunclosed⟩ := next?_eq_none_iff.1 hnext
    have hgap : ∀ d ∈ cs.takeWhile isBlank, isBlank d = true := fun d hd => List.mem_takeWhile_imp hd
    have hcut := ofChars_blank symbols m hgap []
    rw [List.append_nil, ofChars_nil] at hcut
    refine ⟨cs.takeWhile isBlank, c, rest, ?_, hquote, hunclosed, ⟨_, hcut⟩,
      (Except.error.inj h).symm⟩
    rw [← hcs, List.takeWhile_append_dropWhile]
  | case3 m cs start c rest hcs lexeme after hnext =>
    rename_i stop ih
    cases hothers : ofChars symbols stop after with
    | ok others =>
      rw [hothers] at h
      cases h
    | error e' =>
      rw [hothers] at h
      obtain rfl := Except.error.inj h
      obtain ⟨front, quote, tail, rfl, hquote, hunclosed, ⟨fragments, hfragments⟩, rfl⟩ := ih hothers
      obtain ⟨happend, hne⟩ := append_of_next? hnext
      -- The lexeme is cut as well if nothing follows but what is in front of the quote.
      have hmunch : Munch spelled (lexeme ++ front) lexeme := by
        have hwhole := hsymbols.munch_of_next? (isBlank_of_dropWhile hcs) hnext
        rw [← happend] at hwhole
        refine hwhole.truncate hne fun _ d hd => ?_
        obtain rfl := Option.some.inj hd
        rcases hquote with rfl | rfl <;> decide
      have hadvance : m.advance (cs.takeWhile isBlank ++ (lexeme ++ front)) = stop.advance front := by
        rw [Mark.advance_append, Mark.advance_append]
      refine ⟨cs.takeWhile isBlank ++ (lexeme ++ front), quote, tail, ?_, hquote, hunclosed, ?_, ?_⟩
      · rw [List.append_assoc, List.append_assoc, happend, ← hcs, List.takeWhile_append_dropWhile]
      · rw [ofChars_munch hsymbols m (fun d hd => List.mem_takeWhile_imp hd) hmunch, hfragments]
        exact ⟨_, rfl⟩
      · rw [hadvance]

end Fragment

namespace Lexer

open Lexeme

/-- The source ends in a text: behind `front`, which is a number of tokens, there is a quote that is
not closed. -/
structure EndsInText (lexer : Lexer) (source : String) (front : List Char) : Prop where
  lexed : ∃ tokens, lexer.tokens (String.ofList front) = .ok tokens
  unclosed : ∃ quote rest, source.toList = front ++ quote :: rest ∧ (quote = '\'' ∨ quote = '"') ∧
    Unclosed quote rest

/-- The core lexer fails only where fragments are cut. -/
theorem exists_tokens_iff {source : String} : (∃ tokens, core.tokens source = .ok tokens) ↔
    ∃ fragments, ofChars coreSymbols .start source.toList = .ok fragments := by
  rw [tokens_core_eq]
  cases ofChars coreSymbols .start source.toList <;> simp [Except.map]

/-- If the core lexer fails, the source ends in a text, and the error stands at its quote. -/
theorem endsInText_of_tokens {source : String} {e : Error} (h : core.tokens source = .error e) :
    ∃ front, ∃ m : Mark, core.EndsInText source front ∧ m.Follows front ∧
      e = .located .unterminatedString m.line m.col := by
  rw [tokens_core_eq] at h
  cases hcut : ofChars coreSymbols .start source.toList with
  | ok fragments =>
    rw [hcut] at h
    cases h
  | error e' =>
    rw [hcut] at h
    obtain rfl := Except.error.inj h
    obtain ⟨front, quote, rest, hsource, hquote, hunclosed, hfront, rfl⟩ :=
      unclosed_of_ofChars core.sorted_symbols hcut
    have hlexed : ∃ tokens, core.tokens (String.ofList front) = .ok tokens := by
      rwa [exists_tokens_iff, String.toList_ofList]
    exact ⟨front, _, ⟨hlexed, quote, rest, hsource, hquote, hunclosed⟩,
      Mark.follows_start.advance front, rfl⟩

/-- No core lexeme but a text goes on with a quote. -/
theorem stops_of_quote {quote : Char} (hquote : quote = '\'' ∨ quote = '"') :
    Stops core.Spells quote where
  word := by rcases hquote with rfl | rfl <;> decide
  point := by rcases hquote with rfl | rfl <;> decide
  symbol s hs hmem := by
    have hsymbols : quote ∉ coreSymbols.flatten := by
      rw [coreSymbols_eq]
      rcases hquote with rfl | rfl <;> decide
    exact hsymbols (List.mem_flatten.2 ⟨s, ((core.sorted_symbols.iff_mem s).1 hs).1, hmem⟩)

/-- If a source ends in a text, the core lexer fails. -/
theorem tokens_of_endsInText {source : String} {front : List Char}
    (h : core.EndsInText source front) : ∃ e, core.tokens source = .error e := by
  obtain ⟨hlexed, quote, rest, hsource, hquote, hunclosed⟩ := h
  rw [exists_tokens_iff, String.toList_ofList] at hlexed
  obtain ⟨fragments, hfragments⟩ := hlexed
  have hstops : ∀ c ∈ (quote :: rest).head?, Stops core.Spells c := by
    intro c hc
    obtain rfl := Option.some.inj hc
    exact stops_of_quote hquote
  have hcut := ofChars_append core.sorted_symbols hstops hfragments
  rw [tokens_core_eq, hsource, coreSymbols, hcut, ofChars_unclosed _ hquote hunclosed]
  exact ⟨_, rfl⟩

end Lexer

end ExprLang
