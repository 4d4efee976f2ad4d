import ExprLang.Proofs.Fragments.Munch
import ExprLang.Proofs.Recognizers.Consultation

/-!
# Spellings of a table

A recognizer may declare any spelling in a table, but a source is cut by shape: the first character
of a lexeme decides how far it goes, and only those that begin like a symbol are looked up among the
spellings.  So a spelling is lexed as one token of its kind if it is a whole text, number or word,
or begins like a symbol, and it is cut in pieces otherwise (`Lexer.tokens_spelling`).  This is what
happens to words with a hyphen inside (`Lexer.not_tokens_hyphenated`).
-/

namespace ExprLang

open Text Decimal Fragment Lexeme

namespace Lexeme

/-- The characters are a whole lexeme of the class that the first one calls for, or the first one
begins a symbol. -/
inductive Whole : List Char → Prop
  | text {quote : Char} {body : List Char} (hquote : quote = '\'' ∨ quote = '"')
      (hbody : Quotable quote body) : Whole (quote :: (body ++ [quote]))
  | number {whole part : List Char} {letter : Option Char} (hwhole : IsDigits whole)
      (hpart : IsFraction part) (hletter : ∀ c ∈ letter, isSuffix c = true) :
      Whole (whole ++ (part ++ letter.toList))
  | word {c : Char} {cs : List Char} (hc : isWordStart c = true)
      (hcs : ∀ d ∈ cs, isWordPart d = true) : Whole (c :: cs)
  | symbol {c : Char} {cs : List Char} (hc : beginsSymbol c = true) : Whole (c :: cs)

theorem isDigit_of_isSuffix {c : Char} (hc : isSuffix c = true) : c.isDigit = false ∧ c ≠ '.' := by
  simp only [isSuffix, Bool.or_eq_true, beq_iff_eq] at hc
  rcases hc with ((rfl | rfl) | rfl) | rfl <;> decide

/-- A number is cut up to its end if nothing follows. -/
theorem number_whole {whole part : List Char} {letter : Option Char} (hwhole : IsDigits whole)
    (hpart : IsFraction part) (hletter : ∀ c ∈ letter, isSuffix c = true) :
    number (whole ++ (part ++ letter.toList)) = (whole ++ (part ++ letter.toList), []) := by
  have hhead : ∀ c ∈ letter.toList.head?, c.isDigit = false ∧ c ≠ '.' := by
    intro c hc
    rw [Option.head?_toList] at hc
    exact isDigit_of_isSuffix (hletter c hc)
  have hbehind : ∀ c ∈ (part ++ letter.toList).head?, c.isDigit = false := by
    cases hpart with
    | none => exact fun c hc => (hhead c hc).1
    | digits =>
      intro c hc
      obtain rfl := Option.some.inj hc
      rfl
  have hsuffix : suffix letter.toList = (letter.toList, []) := by
    cases letter with
    | none => rfl
    | some c => simp [suffix, hletter c rfl]
  simp only [number, run_eq hwhole.2 hbehind, fraction_eq hpart hhead, hsuffix, List.append_assoc]

variable {spelled : List Char → Prop} {symbols : List (List Char)}

/-- A whole lexeme is cut as one, if it is among the spellings or does not begin like a symbol. -/
theorem Sorted.next?_of_whole (h : Sorted spelled symbols) {c : Char} {cs : List Char}
    (hspelled : beginsSymbol c = true → spelled (c :: cs)) (hwhole : Whole (c :: cs)) :
    isBlank c = false ∧ next? symbols c cs = some (c :: cs, []) := by
  generalize hl : c :: cs = l at hwhole
  -- Only a symbol is looked up among the spellings; the other shapes go as far as they reach.
  cases hwhole with
  | @text quote body hquote hbody =>
    obtain ⟨rfl, rfl⟩ := List.cons.inj hl
    have hmunch : Munch spelled (c :: (body ++ [c])) (c :: (body ++ [c])) := .text hquote hbody
    exact h.next?_of_munch hmunch (List.append_nil _)
  | number hdigits hpart hletter =>
    have hc : c.isDigit = true := by
      obtain ⟨d, ds, rfl⟩ := List.exists_cons_of_ne_nil hdigits.1
      rw [(List.cons.inj hl).1]
      exact hdigits.2 d List.mem_cons_self
    exact ⟨isBlank_of_isDigit hc,
      by rw [next?_of_isDigit symbols cs hc, hl, number_whole hdigits hpart hletter]⟩
  | word hc hcs =>
    obtain ⟨rfl, rfl⟩ := List.cons.inj hl
    have hparts : ∀ d ∈ c :: cs, isWordPart d = true :=
      List.forall_mem_cons.2 ⟨isWordPart_of_isWordStart hc, hcs⟩
    have hrun : run isWordPart (c :: cs ++ []) = (c :: cs, []) := run_eq hparts nofun
    rw [List.append_nil] at hrun
    exact ⟨isBlank_of_isWordStart hc, by rw [next?_of_isWordStart symbols cs hc, word, hrun]⟩
  | symbol hc =>
    obtain ⟨rfl, rfl⟩ := List.cons.inj hl
    have hlongest : Longest spelled (c :: cs) (c :: cs) :=
      ⟨hspelled hc, List.prefix_rfl, fun s _ hfront => hfront.length_le⟩
    exact h.next?_of_munch (.symbol hc hlongest) (List.append_nil _)

/-- What is cut as one lexeme is whole. -/
theorem Munch.whole {cs l : List Char} (h : Munch spelled cs l) (hl : l = cs) : Whole l := by
  cases h with
  | text hquote hbody => exact .text hquote hbody
  | @number c cs numeral behind letter hc hnumeral hbehind hletter =>
    obtain ⟨whole, part, hwhole, hpart, rfl⟩ := hnumeral.holds
    rw [List.append_assoc]
    cases hletter with
    | @letter c _ hsuffix =>
      have hsome : ∀ d ∈ some c, isSuffix d = true := by simpa using hsuffix
      exact .number hwhole hpart hsome
    | none =>
      have hnone : ∀ d ∈ (none : Option Char), isSuffix d = true := nofun
      exact .number hwhole hpart hnone
  | word hc hlongest =>
    subst hl
    exact .word hc fun d hd => hlongest.holds d (List.mem_cons_of_mem _ hd)
  | symbol hc =>
    subst hl
    exact .symbol hc
  | character hc => exact .symbol hc

end Lexeme

namespace Fragment

variable {spelled : List Char → Prop} {before coming : List Char} {fragments : List Fragment}

/-- Characters without a gap that make one fragment at most are a whole lexeme. -/
theorem Munched.whole (h : Munched spelled before coming fragments) (hne : coming ≠ [])
    (hblank : ∀ c ∈ coming, isBlank c = false) (hlength : fragments.length ≤ 1) :
    Whole coming := by
  have hnone {gap : List Char} (hgap : ∀ c ∈ gap, isBlank c = true) (hsub : gap ⊆ coming) :
      gap = [] := by
    refine List.eq_nil_iff_forall_not_mem.2 fun c hc => ?_
    have hfalse := (hblank c (hsub hc)).symm.trans (hgap c hc)
    cases hfalse
  cases h with
  | blank hgap => exact absurd (hnone hgap (List.Subset.refl _)) hne
  | @fragment _ gap lexeme rest _ _ others hgap _ hmunch hrest =>
    obtain rfl : others = [] := List.eq_nil_of_length_eq_zero (by simpa using hlength)
    obtain rfl : gap = [] := hnone hgap (by simp)
    cases hrest with
    | blank hrest =>
      obtain rfl : rest = [] := hnone hrest (by simp)
      rw [List.nil_append, List.append_nil]
      rw [List.append_nil] at hmunch
      exact hmunch.whole rfl

end Fragment

namespace Chain

open Recognizer

/-- The recognizer is in the chain, perhaps in a chain inside it, and all others come behind it by
their priority. -/
inductive Foremost (r : Recognizer) : Chain → Prop
  | member {recognizers others : List Recognizer} (hperm : recognizers.Perm (r :: others))
      (hothers : ∀ o ∈ others, r.priority < o.priority) : Foremost r (.ofList recognizers)
  | nested {recognizers others : List Recognizer} {inner : Chain} (hinner : Foremost r inner)
      (hperm : recognizers.Perm (inner.toRecognizer :: others))
      (hothers : ∀ o ∈ others, r.priority < o.priority) : Foremost r (.ofList recognizers)

/-- The only recognizer with the lowest priority is asked first. -/
theorem exists_members_ofList {recognizers others : List Recognizer} {r : Recognizer}
    (hperm : recognizers.Perm (r :: others)) (hothers : ∀ o ∈ others, r.priority < o.priority) :
    ∃ rest, (ofList recognizers).members = r :: rest := by
  have hmem {o : Recognizer} : o ∈ byPriority recognizers ↔ o = r ∨ o ∈ others := by
    rw [mem_byPriority, hperm.mem_iff, List.mem_cons]
  have hsorted : (byPriority recognizers).Pairwise fun a b => a.priority ≤ b.priority :=
    Ranked.pairwise_mergeSort_key Recognizer.notAfter_iff recognizers
  rw [members_ofList]
  cases hfirst : byPriority recognizers with
  | nil => simpa [hfirst] using hmem.2 (.inl rfl)
  | cons o rest =>
    rw [hfirst] at hmem hsorted
    rcases hmem.1 List.mem_cons_self with rfl | ho
    · exact ⟨rest, rfl⟩
    · -- Then `r` would come behind one of higher priority number.
      have hlt := hothers o ho
      have hle := Ranked.le_of_mem_cons (List.pairwise_cons.1 hsorted).1 (hmem.2 (.inl rfl))
      exact absurd hlt (not_lt.2 hle)

namespace Foremost

variable {r : Recognizer} {chain : Chain}

/-- What is asked first in a chain is the recognizer itself or the chain that it is in. -/
theorem exists_members (h : chain.Foremost r) : ∃ first rest, chain.members = first :: rest ∧
    first.priority = r.priority ∧ (∀ s ∈ r.symbols, s ∈ first.symbols) ∧
    ∀ fragment kind, r.recognize fragment = some kind → first.recognize fragment = some kind := by
  induction h with
  | member hperm hothers =>
    obtain ⟨rest, hrest⟩ := exists_members_ofList hperm hothers
    exact ⟨r, rest, hrest, rfl, fun s hs => hs, fun fragment kind h => h⟩
  | @nested recognizers others inner _ hperm hothers ih =>
    obtain ⟨first, rest, hmembers, hpriority, hsymbols, hrecognize⟩ := ih
    have hinner : inner.toRecognizer.priority = r.priority := by
      rw [← hpriority, toRecognizer, priority, priorities, hmembers]
      rfl
    obtain ⟨rest', hrest⟩ := exists_members_ofList hperm (by rwa [hinner])
    refine ⟨_, rest', hrest, hinner, fun s hs => ?_, fun fragment kind h => ?_⟩
    · exact mem_symbols.2 ⟨first, by rw [hmembers]; exact List.mem_cons_self, hsymbols s hs⟩
    · change inner.members.findSome? _ = some kind
      rw [hmembers, List.findSome?_cons, hrecognize fragment kind h]

theorem mem_symbols (h : chain.Foremost r) {s : String} (hs : s ∈ r.symbols) :
    s ∈ chain.symbols := by
  obtain ⟨first, rest, hmembers, -, hsymbols, -⟩ := h.exists_members
  exact Chain.mem_symbols.2 ⟨first, by rw [hmembers]; exact List.mem_cons_self, hsymbols s hs⟩

theorem recognize_eq (h : chain.Foremost r) {fragment : Fragment} {kind : TokenKind}
    (hkind : r.recognize fragment = some kind) : chain.recognize fragment = some kind := by
  obtain ⟨first, rest, hmembers, -, -, hrecognize⟩ := h.exists_members
  rw [recognize, hmembers, List.findSome?_cons, hrecognize fragment kind hkind]

end Foremost

end Chain

namespace Lexer

/-- What is declared in the table in front is cut, if it begins like a symbol. -/
theorem spells_of_foremost {lexer : Lexer} {priority : Int} {table : Entries TokenKind}
    (hfirst : lexer.chain.Foremost (.ofTable priority table)) {s : String} {kind : TokenKind}
    (hkind : table.get? s = some kind) {c : Char} (hhead : s.toList.head? = some c)
    (hc : beginsSymbol c = true) : lexer.Spells s.toList := by
  have hword : isWord s = false := by
    simp only [beginsSymbol, Bool.and_eq_true, Bool.not_eq_true'] at hc
    obtain ⟨cs, hcs⟩ := List.head?_eq_some_iff.1 hhead
    rw [isWord, hcs]
    simp [hc.2]
  have hsymbol : s ∈ (Recognizer.ofTable priority table).symbols := by
    refine List.mem_filter.2 ⟨List.mem_map_of_mem (Entries.mem_of_get? hkind), ?_⟩
    rw [hword]
    rfl
  refine ⟨?_, ?_⟩
  · intro hnil
    rw [hnil] at hhead
    cases hhead
  · rw [Declares, ← Chain.mem_symbols_iff_asks, String.ofList_toList]
    exact hfirst.mem_symbols hsymbol

/-- A spelling of the table that stands before all other recognizers is lexed as one token of its
kind if it is whole, and it does not make one token otherwise. -/
theorem tokens_spelling {lexer : Lexer} (hsplitter : lexer.splitter = Fragment.split)
    {priority : Int} {table : Entries TokenKind}
    (hfirst : lexer.chain.Foremost (.ofTable priority table)) {s : String} {kind : TokenKind}
    (hkind : table.get? s = some kind) (hne : s ≠ "")
    (hblank : ∀ c ∈ s.toList, isBlank c = false) :
    let stop := Mark.start.advance s.toList
    (Whole s.toList →
      lexer.tokens s = .ok [⟨kind, s, .between .start stop⟩, .eof stop]) ∧
    (¬ Whole s.toList → ∀ tokens, lexer.tokens s = .ok tokens → 2 < tokens.length) := by
  intro stop
  obtain ⟨c, cs, hcs⟩ := List.exists_cons_of_ne_nil (mt String.toList_eq_nil_iff.1 hne)
  constructor
  case left =>
    intro hwhole
    rw [hcs] at hwhole
    have hspelled (hc : beginsSymbol c = true) : lexer.Spells (c :: cs) := by
      rw [← hcs]
      exact spells_of_foremost hfirst hkind (by rw [hcs]; rfl) hc
    obtain ⟨hc, hnext⟩ := lexer.sorted_symbols.next?_of_whole hspelled hwhole
    have hfragments : Fragment.split lexer.symbols s = .ok [⟨s, .between .start stop⟩] := by
      rw [Fragment.split, hcs, ofChars_lexeme hc .start hnext, ofChars_nil, ← hcs,
        String.ofList_toList]
      rfl
    have hrecognize : lexer.chain.recognize ⟨s, .between .start stop⟩ = some kind :=
      hfirst.recognize_eq hkind
    have hclassify : lexer.classify ⟨s, .between .start stop⟩ =
        .ok ⟨kind, s, .between .start stop⟩ := by
      rw [classify, hrecognize]
      rfl
    refine (tokens_eq_ok hsplitter).2
      ⟨_, [⟨kind, s, .between .start stop⟩], hfragments, ?_, rfl⟩
    rw [List.mapM_cons, hclassify]
    rfl
  case right =>
    intro hnot tokens htokens
    obtain ⟨fragments, body, hfragments, hbody, rfl⟩ := (tokens_eq_ok hsplitter).1 htokens
    have hlength : fragments.length = body.length := by
      rw [← lexer.map_fragment_of_mapM fragments hbody, List.length_map]
    have hmunched := munched_of_ofChars lexer.sorted_symbols Mark.follows_start hfragments
    rw [List.length_append, List.length_singleton, ← hlength]
    by_contra hle
    exact hnot (hmunched.whole (by simp [hcs]) hblank (by omega))

/-- The table of `arrows` that is asked first; it stands in a chain with another chain in it. -/
def signs : Recognizer :=
  .ofTable 10 [("=", .custom "signs" "equals"), ("==", .custom "signs" "same")]

theorem foremost_arrows : arrows.chain.Foremost signs := by
  have hinner : Chain.Foremost signs (.ofList
      [signs, Chain.toRecognizer <| .ofList [.ofTable 20 [("==>", .custom "signs" "arrow")]]]) := by
    refine .member (.refl _) fun o ho => ?_
    obtain rfl := List.mem_singleton.1 ho
    decide
  exact .nested hinner (.refl [_]) nofun

theorem tokens_spelling_arrows :
    (∀ c ∈ "==".toList, isBlank c = false) ∧
      arrows.tokens "==" =
        .ok [⟨.custom "signs" "same", "==", ⟨0, 2, 1, 1⟩⟩, .eof ⟨2, 1, 3⟩] := by
  have hblank : ∀ c ∈ "==".toList, isBlank c = false := by
    simp
    decide
  have hbegins : beginsSymbol '=' = true := by decide
  have hwhole : Whole ['=', '='] := .symbol hbegins
  exact ⟨hblank, (tokens_spelling rfl foremost_arrows rfl (by decide) hblank).1 hwhole⟩

/-- A lexer with a table that has a word with a hyphen. -/
def hyphenated : Lexer :=
  bare.addRecognizer (.ofTable 10 [("not-in", .custom "sets" "outside")])

/-- The word before the hyphen is cut alone, although the table declares all of it as a symbol. -/
theorem not_tokens_hyphenated :
    ¬ ∀ (lexer : Lexer) (priority : Int) (table : Entries TokenKind) (s : String)
        (kind : TokenKind),
      lexer.splitter = Fragment.split → lexer.chain.Foremost (.ofTable priority table) →
        table.get? s = some kind → s ≠ "" → (∀ c ∈ s.toList, isBlank c = false) →
          ∃ span stop, lexer.tokens s = .ok [⟨kind, s, span⟩, .eof stop] := by
  intro h
  have hfirst : hyphenated.chain.Foremost
      (.ofTable 10 [("not-in", .custom "sets" "outside")]) :=
    .member (.refl [_]) nofun
  have hblank : ∀ c ∈ "not-in".toList, isBlank c = false := by
    simp
    decide
  have htexts : (hyphenated.tokens "not-in").map (List.map Token.text) =
      .ok ["not", "-", "in", ""] := by cbv
  have hkind : Entries.get? "not-in" [("not-in", TokenKind.custom "sets" "outside")] =
      some (.custom "sets" "outside") := if_pos rfl
  obtain ⟨span, stop, htokens⟩ := h hyphenated 10 _ "not-in" _ rfl hfirst hkind (by decide) hblank
  rw [htokens] at htexts
  have hlength := congrArg List.length (Except.ok.inj htexts)
  cases hlength

end Lexer

end ExprLang
