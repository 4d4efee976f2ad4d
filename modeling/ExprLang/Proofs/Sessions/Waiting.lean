import ExprLang.Proofs.Extensions.Keywords
import ExprLang.Proofs.Fragments.Unclosed
import ExprLang.Shell.Session

/-!
# Waiting for more lines

A session evaluates its input as soon as it is complete, which it judges by four kinds of tokens.
Every rule of the grammar puts parentheses and brackets in pairs, so the count behind an expression
is that before it, and blank characters at the end make no token.  An input that is compiled without
them is therefore never held back.  A session waits only inside a text, or with more parentheses and
brackets open than closed (`Shell.Session.isComplete_ofConfig`).
-/

namespace ExprLang

open Text Fragment

namespace Shell.Session

/-- Whether the token is an opening parenthesis or bracket. -/
def isOpener (t : Token) : Bool :=
  t.kind = BasicKind.lparen || t.kind = BasicKind.lbracket

/-- Whether the token is a closing parenthesis or bracket. -/
def isCloser (t : Token) : Bool :=
  t.kind = BasicKind.rparen || t.kind = BasicKind.rbracket

@[simp]
theorem depth_nil : depth [] = 0 := rfl

@[simp]
theorem depth_cons (t : Token) (ts : List Token) : depth (t :: ts) = nesting t + depth ts := rfl

@[simp]
theorem depth_append (ts us : List Token) : depth (ts ++ us) = depth ts + depth us := by
  induction ts with
  | nil => simp
  | cons t ts ih => simp [ih, add_assoc]

section Nesting

variable {t : Token}

theorem nesting_eq (t : Token) :
    nesting t = (if isOpener t then 1 else 0) - (if isCloser t then 1 else 0) := by
  by_cases hopener : isOpener t = true
  · have hcloser : isCloser t = false := by
      rcases (Bool.or_eq_true _ _).mp hopener with h | h <;>
        simp [isCloser, of_decide_eq_true h]
    have hnesting : nesting t = 1 := if_pos hopener
    simp [hnesting, hopener, hcloser]
  · have hnesting : nesting t = if isCloser t then -1 else 0 := if_neg hopener
    rw [hnesting, if_neg hopener]
    split <;> rfl

/-- The nesting is how many of the tokens open, less how many close. -/
theorem depth_eq (ts : List Token) : depth ts = ts.countP isOpener - ts.countP isCloser := by
  induction ts with
  | nil => rfl
  | cons t ts ih =>
    rw [depth_cons, nesting_eq, ih, List.countP_cons, List.countP_cons]
    push_cast
    ring

/-- Only parentheses and brackets count. -/
theorem nesting_eq_zero
    (h : ∀ kind ∈ [BasicKind.lparen, .lbracket, .rparen, .rbracket], t.kind ≠ kind) :
    nesting t = 0 := by
  simp [nesting, h .lparen, h .lbracket, h .rparen, h .rbracket]

theorem nesting_of_kind {kind : TokenKind} (ht : t.kind = kind)
    (hkind : ∀ bracket ∈ [BasicKind.lparen, .lbracket, .rparen, .rbracket], kind ≠ bracket) :
    nesting t = 0 :=
  nesting_eq_zero (ht ▸ hkind)

theorem nesting_of_some {α : Type} {find : TokenKind → Option α} {op : α}
    (hfixed : ∀ kind ∈ Grammar.fixedKinds, find kind = none) (hop : find t.kind = some op) :
    nesting t = 0 := by
  have hne := Grammar.ne_fixed_of_some hfixed hop
  refine nesting_eq_zero fun kind hkind => hne kind ?_
  revert kind
  decide

theorem nesting_pair {opener close : Token}
    (h : opener.kind = BasicKind.lparen ∧ close.kind = BasicKind.rparen ∨
      opener.kind = BasicKind.lbracket ∧ close.kind = BasicKind.rbracket) :
    nesting opener + nesting close = 0 := by
  rcases h with ⟨hopener, hclose⟩ | ⟨hopener, hclose⟩ <;> simp [nesting, hopener, hclose]

end Nesting

/-- If the token is a word, it does not count. -/
def Plain (t : Token) : Prop :=
  isWord t.text = true → nesting t = 0

/-- Whatever is derivable closes what it opens. -/
theorem depth_of_derives {g : Grammar} (hg : g.Distinct) {part : Part} {ts : List Token}
    {m : part.Meaning} (h : g.Derives part ts m) (hts : ∀ t ∈ ts, Plain t) : depth ts = 0 := by
  induction h with
  | plain _ ih | bare _ ih | lastArgument _ ih | lastParameter _ ih => exact ih hts
  | noOperation | noStep => rfl
  | choice _ hquestion _ hcolon _ ihcondition ihpositive ihnegative =>
    simp only [List.forall_mem_append, List.forall_mem_cons] at hts
    obtain ⟨hcs, -, hps, -, hns⟩ := hts
    simp only [depth_append, depth_cons, ihcondition hcs, ihpositive hps, ihnegative hns,
      nesting_of_kind hquestion (by decide), nesting_of_kind hcolon (by decide), add_zero]
  | nested t _ _ _ _ _ ihfirst ihrest =>
    rw [List.forall_mem_append] at hts
    rw [depth_append, ihfirst hts.1, ihrest hts.2, add_zero]
  | operation hop _ _ ihoperand ihrest =>
    simp only [List.forall_mem_append, List.forall_mem_cons] at hts
    simp only [depth_append, depth_cons, nesting_of_some hg.binary?_fixed hop, ihoperand hts.2.1,
      ihrest hts.2.2, add_zero]
  | before hop _ ih =>
    rw [depth_cons, nesting_of_some hg.before?_fixed hop, ih (List.forall_mem_cons.1 hts).2, add_zero]
  | after _ hop ih =>
    rw [List.forall_mem_append] at hts
    simp only [depth_append, depth_cons, depth_nil, ih hts.1, nesting_of_some hg.after?_fixed hop,
      add_zero]
  | number hkind | string hkind | trueWord hkind | falseWord hkind | nullWord hkind
  | required hkind => simp only [depth_cons, depth_nil, nesting_of_kind hkind (by decide), add_zero]
  | group hopener _ hclose ih =>
    simp only [List.forall_mem_append, List.forall_mem_cons] at hts
    have hpair := nesting_pair (.inl ⟨hopener, hclose⟩)
    simp only [depth_append, depth_cons, depth_nil, ih hts.2.1]
    omega
  | emptyList hopener hclose =>
    have hpair := nesting_pair (.inr ⟨hopener, hclose⟩)
    simp only [depth_cons, depth_nil]
    omega
  | list hopener _ hclose ih =>
    simp only [List.forall_mem_append, List.forall_mem_cons] at hts
    have hpair := nesting_pair (.inr ⟨hopener, hclose⟩)
    simp only [depth_append, depth_cons, depth_nil, ih hts.2.1]
    omega
  | reference hroot _ ih =>
    rw [depth_cons, nesting_of_kind hroot (by decide), ih (List.forall_mem_cons.1 hts).2, add_zero]
  | emptyCall hroot _ hopener hclose ih =>
    simp only [List.forall_mem_append, List.forall_mem_cons] at hts
    have hpair := nesting_pair (.inl ⟨hopener, hclose⟩)
    simp only [depth_append, depth_cons, depth_nil, nesting_of_kind hroot (by decide), ih hts.2.1]
    omega
  | call hroot _ hopener _ hclose ihnames iharguments =>
    simp only [List.forall_mem_append, List.forall_mem_cons] at hts
    have hpair := nesting_pair (.inl ⟨hopener, hclose⟩)
    simp only [depth_append, depth_cons, depth_nil, nesting_of_kind hroot (by decide),
      ihnames hts.2.1, iharguments hts.2.2.2.1]
    omega
  | property hdot hword _ ih =>
    simp only [List.forall_mem_cons] at hts
    simp only [depth_cons, nesting_of_kind hdot (by decide), hts.2.1 hword, ih hts.2.2, add_zero]
  | index hopener _ hclose _ ihindex ihsteps =>
    simp only [List.forall_mem_append, List.forall_mem_cons] at hts
    have hpair := nesting_pair (.inr ⟨hopener, hclose⟩)
    simp only [depth_append, depth_cons, ihindex hts.2.1, ihsteps hts.2.2.2]
    omega
  | argument _ hcomma _ ihfirst ihrest | moreParameters _ hcomma _ ihfirst ihrest =>
    simp only [List.forall_mem_append, List.forall_mem_cons] at hts
    simp only [depth_append, depth_cons, ihfirst hts.1, nesting_of_kind hcomma (by decide),
      ihrest hts.2.2, add_zero]
  | optional hname hcolon _ ih =>
    simp only [List.forall_mem_cons] at hts
    simp only [depth_cons, nesting_of_kind hname (by decide), nesting_of_kind hcolon (by decide),
      ih hts.2.2, add_zero]

/-- No word spells a parenthesis or bracket. -/
theorem plain_of_mem_spellings {entry : String × TokenKind} (h : entry ∈ Lexer.spellings)
    (hword : isWord entry.1 = true) :
    ∀ kind ∈ [BasicKind.lparen, .lbracket, .rparen, .rbracket], entry.2 ≠ kind := by
  have hsymbols : ∀ kind ∈ [BasicKind.lparen, .lbracket, .rparen, .rbracket],
      ∀ s ∈ kind.spellings, isWord s = false := by decide
  exact fun kind hkind => Lexer.kind_ne_of_isWord h hword (hsymbols kind hkind)

theorem plain_coreToken (fragment : Fragment) : Plain (Lexer.coreToken fragment) := by
  intro hword
  rcases Lexer.coreKind_cases fragment.text with ⟨_, _, -, -, hkind⟩ | ⟨_, _, -, -, hkind⟩ | hmem |
    ⟨hkind, -⟩ | hkind
  case inr.inr.inl => exact nesting_eq_zero (plain_of_mem_spellings hmem hword)
  all_goals exact nesting_of_kind hkind (by decide)

/-- The keywords of templates do not count. -/
theorem plain_keyed {t : Token} (h : Plain t) : Plain t.keyed := by
  intro hword
  rcases t.keyed_kind with hkind | ⟨-, word, hkind⟩
  · rw [nesting, hkind]
    exact h hword
  · exact nesting_of_kind hkind (by simp)

/-- The input without the blank characters at its end, and those. -/
theorem trimmedEnd_append (input : String) :
    ∃ gap, (∀ c ∈ gap, isBlank c = true) ∧ input.toList = (trimmedEnd input).toList ++ gap := by
  refine ⟨input.toList.rtakeWhile isBlank, fun c hc => List.mem_rtakeWhile_imp hc, ?_⟩
  rw [trimmedEnd, String.toList_ofList]
  exact List.rdropWhile_append_rtakeWhile.symm

theorem stops_of_isBlank {c : Char} (h : isBlank c = true) :
    Lexeme.Stops Lexer.core.Spells c where
  word := isWordPart_of_isBlank h
  point := by
    rintro rfl
    exact absurd h (by decide)
  symbol s hs hmem := by
    have hblank := Lexer.textual_core.symbols s hs.2 c hmem
    rw [h] at hblank
    cases hblank

/-- Blank characters at the end of a source make no fragment. -/
theorem ofChars_of_trimmedEnd {input : String} {fragments : List Fragment}
    (h : ofChars coreSymbols .start (trimmedEnd input).toList = .ok fragments) :
    ofChars coreSymbols .start input.toList = .ok fragments := by
  obtain ⟨gap, hgap, hinput⟩ := trimmedEnd_append input
  have hcut := ofChars_append Lexer.core.sorted_symbols
    (fun c hc => stops_of_isBlank (hgap c (List.mem_of_head? hc))) h
  have hblank := ofChars_blank coreSymbols (Mark.start.advance (trimmedEnd input).toList) hgap []
  rw [List.append_nil, ofChars_nil] at hblank
  rw [coreSymbols] at hblank
  rw [hinput, coreSymbols, hcut, hblank, Except.map, List.append_nil]

/-- The engine reads sources as the core engine does, but for the kinds that it gives to some words.
What it parses is derived from its tokens. -/
structure Rereads (engine : Engine) (kinds : Token → Token) : Prop where
  tokens_eq : ∀ source, engine.lexer.tokens source =
    (Lexer.core.tokens source).map (List.map kinds)
  plain : ∀ {t}, Plain t → Plain (kinds t)
  ending : ∀ m, nesting (kinds (.eof m)) = 0
  derives : ∀ {source n}, engine.parse .expression source = .ok n →
    ∃ fragments, ofChars coreSymbols .start source.toList = .ok fragments ∧
      Engine.core.grammar.Derives .expression
        (fragments.map fun fragment => kinds (Lexer.coreToken fragment)) n

theorem rereads_ofConfig (config : Config) : ∃ kinds, Rereads (.ofConfig config) kinds := by
  obtain ⟨strict, template⟩ := config
  cases template with
  | false =>
    refine ⟨id, ?_, id, fun m => rfl, Engine.parse_expression_iff.1⟩
    intro source
    change Lexer.core.tokens source = _
    rw [List.map_id_fun]
    cases Lexer.core.tokens source <;> rfl
  | true =>
    exact ⟨Token.keyed, Lexer.tokens_templates_eq, plain_keyed, fun m => rfl,
      Engine.parse_templates_iff.1⟩

namespace Rereads

variable {engine : Engine} {kinds : Token → Token} {input : String}

theorem exists_tokens_iff (h : Rereads engine kinds) :
    (∃ tokens, engine.lexer.tokens input = .ok tokens) ↔
      ∃ tokens, Lexer.core.tokens input = .ok tokens := by
  rw [h.tokens_eq]
  cases Lexer.core.tokens input <;> simp [Except.map]

/-- An input that is compiled but for the blank characters at its end is complete. -/
theorem isComplete (h : Rereads engine kinds) {e : Expression}
    (hcompile : engine.compile (trimmedEnd input) = .ok e) :
    Session.isComplete engine input = true := by
  obtain ⟨fragments, hcut, hderives⟩ := h.derives (Engine.compile_eq_ok.1 hcompile).2
  have hplain : ∀ t ∈ fragments.map (kinds ∘ Lexer.coreToken), Plain t := by
    intro t ht
    obtain ⟨fragment, -, rfl⟩ := List.mem_map.1 ht
    exact h.plain (plain_coreToken fragment)
  have hdepth : depth (fragments.map (kinds ∘ Lexer.coreToken)) = 0 :=
    depth_of_derives Engine.coreOperators_core.distinct hderives hplain
  have htokens := h.tokens_eq input
  rw [Lexer.tokens_core_eq, ofChars_of_trimmedEnd hcut] at htokens
  simp only [Except.map, List.map_append, List.map_map, List.map_singleton] at htokens
  rw [Session.isComplete, htokens]
  simp only [depth_append, hdepth, depth_cons, h.ending, depth_nil, add_zero, le_refl, decide_true]

theorem endsInText_iff (h : Rereads engine kinds) {front : List Char} :
    engine.lexer.EndsInText input front ↔ Lexer.core.EndsInText input front := by
  constructor
  · rintro ⟨hlexed, hunclosed⟩
    exact ⟨h.exists_tokens_iff.1 hlexed, hunclosed⟩
  · rintro ⟨hlexed, hunclosed⟩
    exact ⟨h.exists_tokens_iff.2 hlexed, hunclosed⟩

/-- A session waits in a text, or if more is open than closed. -/
theorem isComplete_eq_false_iff (h : Rereads engine kinds) :
    Session.isComplete engine input = false ↔ (∃ front, engine.lexer.EndsInText input front) ∨
      ∃ tokens, engine.lexer.tokens input = .ok tokens ∧
        tokens.countP isCloser < tokens.countP isOpener := by
  simp only [h.endsInText_iff]
  rw [Session.isComplete]
  cases htokens : engine.lexer.tokens input with
  | error e =>
    refine iff_of_true rfl (.inl ?_)
    cases hcore : Lexer.core.tokens input with
    | error e' =>
      obtain ⟨front, -, hends, -⟩ := Lexer.endsInText_of_tokens hcore
      exact ⟨front, hends⟩
    | ok tokens =>
      obtain ⟨_, hlexed⟩ := h.exists_tokens_iff.2 ⟨tokens, hcore⟩
      rw [htokens] at hlexed
      cases hlexed
  | ok tokens =>
    have hnot : ¬ ∃ front, Lexer.core.EndsInText input front := by
      rintro ⟨front, hends⟩
      obtain ⟨_, hlexed⟩ := h.exists_tokens_iff.1 ⟨tokens, htokens⟩
      obtain ⟨e, herror⟩ := Lexer.tokens_of_endsInText hends
      rw [hlexed] at herror
      cases herror
    simp only [hnot, false_or, depth_eq, decide_eq_false_iff_not, Except.ok.injEq, exists_eq_left']
    omega

end Rereads

/-- An input that the engine compiles without the blank characters at its end is not held back.  The
session waits exactly if the input ends in a text, or if more parentheses and brackets are open than
closed. -/
theorem isComplete_ofConfig (config : Config) (input : String) :
    ((∃ e, (Engine.ofConfig config).compile (trimmedEnd input) = .ok e) →
      isComplete (.ofConfig config) input = true) ∧
    (isComplete (.ofConfig config) input = false ↔
      (∃ front, (Engine.ofConfig config).lexer.EndsInText input front) ∨
        ∃ tokens, (Engine.ofConfig config).lexer.tokens input = .ok tokens ∧
          tokens.countP isCloser < tokens.countP isOpener) := by
  obtain ⟨kinds, hreads⟩ := rereads_ofConfig config
  refine ⟨?_, hreads.isComplete_eq_false_iff⟩
  rintro ⟨e, hcompile⟩
  exact hreads.isComplete hcompile

/-- A list over two lines with a keyword behind a point, and a call that goes on. -/
theorem isComplete_ofConfig_lines :
    isComplete (.ofConfig { template := true }) "[a,\n (b.end)] \n" = true ∧
      isComplete (.ofConfig {}) "f(a,\n" = false := by
  constructor
  · apply (isComplete_ofConfig _ _).1
    have hparse : (Engine.templates.parse .expression "[a,\n (b.end)]").toOption.isSome = true := by
      change (Lexer.templates.cursor _ >>= fun c => _).toOption.isSome = true
      rw [Lexer.cursor, Lexer.tokens_templates_eq, Lexer.tokens_core_eq, coreSymbols_eq]
      cbv
    have htrimmed : trimmedEnd "[a,\n (b.end)] \n" = "[a,\n (b.end)]" := by decide
    rw [htrimmed]
    cases hnode : Engine.templates.parse .expression "[a,\n (b.end)]" with
    | error e =>
      rw [hnode] at hparse
      cases hparse
    | ok n => exact ⟨⟨_, n⟩, Engine.compile_eq_ok.2 ⟨rfl, hnode⟩⟩
  · apply (isComplete_ofConfig _ _).2.2
    have htokens : Lexer.core.tokens "f(a,\n" = .ok [⟨BasicKind.identifier, "f", ⟨0, 1, 1, 1⟩⟩,
        ⟨BasicKind.lparen, "(", ⟨1, 2, 1, 2⟩⟩, ⟨BasicKind.identifier, "a", ⟨2, 3, 1, 3⟩⟩,
        ⟨BasicKind.comma, ",", ⟨3, 4, 1, 4⟩⟩, .eof ⟨5, 2, 1⟩] := by
      rw [Lexer.tokens_core_eq, coreSymbols_eq]
      cbv
    exact .inr ⟨_, htokens, by decide⟩

end Shell.Session

end ExprLang
