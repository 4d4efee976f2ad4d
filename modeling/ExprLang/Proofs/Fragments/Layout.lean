import ExprLang.Proofs.Fragments.Boundary
import ExprLang.Proofs.Syntax.Resemblance
import ExprLang.Proofs.Writing.RoundTrip

/-!
# Layout

Blank characters between lexemes do not matter.  A longest lexeme stays the longest when what stands
behind it is replaced by a space, since no lexeme but a text contains one.  The texts of the tokens
of a source, with single spaces between them, are therefore cut into the same texts, and recognizers
that look only at texts give them the same kinds.  The core engine makes the same tree of both
sources, or fails for the same reason (`Lexer.layout_independent`).
-/

namespace ExprLang

open Text Decimal

namespace Lexeme

open Fragment

/-- A longest lexeme stays the longest if nothing or a space stands behind it. -/
theorem Munch.spaced {spelled : List Char → Prop} (hne : ∀ s, spelled s → s ≠ [])
    (hblank : ∀ s, spelled s → ∀ c ∈ s, isBlank c = false) {l after : List Char}
    (h : Munch spelled (l ++ after) l) {rest : List Char} (hrest : ∀ c ∈ rest.head?, c = ' ') :
    Munch spelled (l ++ rest) l := by
  have halone : Munch spelled (l ++ []) l := by
    have hbehind : Munch spelled (l ++ ([] ++ after)) l := h
    exact hbehind.truncate (h.ne_nil hne) fun hnil => absurd rfl hnil
  have hstops : ∀ c ∈ rest.head?, Stops spelled c := by
    intro c hc
    rw [hrest c hc]
    exact ⟨by decide, by decide, fun s hs hmem => absurd (hblank s hs ' ' hmem) (by decide)⟩
  exact halone.extend hstops

end Lexeme

namespace Fragment

open Lexeme

/-- From every mark on, the characters are cut into fragments with these texts. -/
def CutsInto (symbols : List (List Char)) (cs : List Char) (texts : List String) : Prop :=
  ∀ m, ∃ fragments, ofChars symbols m cs = .ok fragments ∧ fragments.map Fragment.text = texts

variable {spelled : List Char → Prop} {symbols : List (List Char)}

theorem cutsInto_nil : CutsInto symbols [] [] := by
  intro m
  refine ⟨[], ?_, rfl⟩
  rw [ofChars]
  rfl

theorem CutsInto.space {cs : List Char} {texts : List String} (h : CutsInto symbols cs texts) :
    CutsInto symbols (' ' :: cs) texts := by
  intro m
  obtain ⟨fragments, hfragments, htexts⟩ := h (m.advance [' '])
  refine ⟨fragments, ?_, htexts⟩
  rw [← hfragments]
  exact ofChars_blank symbols m (List.forall_mem_singleton.2 (by decide)) cs

/-- A longest lexeme in front is cut off. -/
theorem CutsInto.lexeme (hsymbols : Sorted spelled symbols) {l cs : List Char}
    {texts : List String} (hmunch : Munch spelled (l ++ cs) l) (h : CutsInto symbols cs texts) :
    CutsInto symbols (l ++ cs) (String.ofList l :: texts) := by
  intro m
  obtain ⟨fragments, hfragments, htexts⟩ := h (m.advance l)
  refine ⟨⟨String.ofList l, .between m (m.advance l)⟩ :: fragments, ?_, ?_⟩
  · have hcut := ofChars_munch hsymbols m (List.forall_mem_nil _) hmunch
    rw [List.nil_append, Mark.advance_nil, hfragments] at hcut
    exact hcut
  · rw [List.map_cons, htexts]

/-- Fragments with single spaces between them are cut into the same texts. -/
theorem Munched.cutsInto (hsymbols : Sorted spelled symbols)
    (hblank : ∀ s, spelled s → ∀ c ∈ s, isBlank c = false) {before cs : List Char}
    {fragments : List Fragment} (h : Munched spelled before cs fragments) :
    CutsInto symbols ([' '].intercalate (fragments.map fun f => f.text.toList))
      (fragments.map Fragment.text) := by
  have hne : ∀ s, spelled s → s ≠ [] := fun s hs => ((hsymbols.iff_mem s).1 hs).2
  induction h with
  | blank => exact cutsInto_nil
  | @fragment before gap lexeme rest first last fragments _ _ hmunch _ ih =>
    cases fragments with
    | nil =>
      have hlast : Munch spelled (lexeme ++ []) lexeme := hmunch.spaced hne hblank (by simp)
      have hcuts := CutsInto.lexeme hsymbols hlast cutsInto_nil
      simpa [String.toList_ofList] using hcuts
    | cons f fragments =>
      have hmore : Munch spelled
          (lexeme ++ ' ' :: [' '].intercalate ((f :: fragments).map fun f => f.text.toList)) lexeme :=
        hmunch.spaced hne hblank (by simp)
      have hcuts := CutsInto.lexeme hsymbols hmore ih.space
      simpa [String.toList_ofList, List.intercalate_cons_cons] using hcuts

end Fragment

/-- The texts of all tokens but the last one, with single spaces between them. -/
def Token.respaced (tokens : List Token) : String :=
  " ".intercalate (tokens.dropLast.map Token.text)

/-- The recognizer looks at nothing but the text of a fragment. -/
def Recognizer.Textual (r : Recognizer) : Prop :=
  ∀ f f' : Fragment, f.text = f'.text → r.recognize f = r.recognize f'

namespace Recognizer

theorem textual_string : string.Textual := by
  intro f f' htext
  simp only [string, htext]

theorem textual_number : number.Textual := by
  intro f f' htext
  simp only [number, htext]

theorem textual_identifier : identifier.Textual := by
  intro f f' htext
  simp only [identifier, htext]

theorem textual_ofTable (priority : Int) (table : Entries TokenKind) :
    (ofTable priority table).Textual := by
  intro f f' htext
  simp only [ofTable, htext]

end Recognizer

/-- A chain of recognizers that look only at texts is one, too. -/
theorem Chain.textual_toRecognizer {chain : Chain} (h : ∀ r ∈ chain.members, r.Textual) :
    chain.toRecognizer.Textual := by
  intro f f' htext
  change chain.members.findSome? _ = chain.members.findSome? _
  generalize chain.members = members at h
  induction members with
  | nil => rfl
  | cons r rest ih =>
    obtain ⟨hr, hrest⟩ := List.forall_mem_cons.1 h
    rw [List.findSome?_cons, List.findSome?_cons, hr f f' htext, ih hrest]

namespace Lexer

/-- A lexer to which layout is nothing but a way to separate lexemes. -/
structure Textual (lexer : Lexer) : Prop where
  splitter_eq : lexer.splitter = Fragment.split
  /-- no symbol contains a blank character -/
  symbols : ∀ s, lexer.Declares s → ∀ c ∈ s, isBlank c = false
  recognizers : ∀ r ∈ lexer.chain.members, r.Textual

variable {lexer : Lexer}

theorem Textual.classify_content (h : lexer.Textual) {f f' : Fragment} (htext : f.text = f'.text)
    {t : Token} (ht : lexer.classify f = .ok t) :
    ∃ t', lexer.classify f' = .ok t' ∧ t'.content = t.content := by
  have hsame : lexer.chain.recognize f = lexer.chain.recognize f' :=
    Chain.textual_toRecognizer h.recognizers f f' htext
  rw [classify, hsame] at ht
  rw [classify]
  cases hkind : (lexer.chain.recognize f').or lexer.default with
  | none =>
    rw [hkind] at ht
    cases ht
  | some kind =>
    rw [hkind] at ht
    obtain rfl := Except.ok.inj ht
    exact ⟨_, rfl, by rw [Token.content, Token.content, htext]⟩

/-- Fragments with the same texts get the same kinds. -/
theorem Textual.mapM_classify (h : lexer.Textual) {fragments fragments' : List Fragment}
    {body : List Token} (htexts : fragments.map Fragment.text = fragments'.map Fragment.text)
    (hbody : fragments.mapM lexer.classify = .ok body) :
    ∃ body', fragments'.mapM lexer.classify = .ok body' ∧
      body'.map Token.content = body.map Token.content := by
  induction fragments generalizing fragments' body with
  | nil =>
    obtain rfl := List.map_eq_nil_iff.1 htexts.symm
    obtain rfl := Except.ok.inj hbody
    exact ⟨[], rfl, rfl⟩
  | cons f fragments ih =>
    cases fragments' with
    | nil => cases htexts
    | cons f' fragments' =>
      obtain ⟨htext, hrest⟩ := List.cons.inj htexts
      rw [List.mapM_cons] at hbody
      rw [List.mapM_cons]
      cases ht : lexer.classify f with
      | error e =>
        rw [ht] at hbody
        cases hbody
      | ok t =>
        cases hts : fragments.mapM lexer.classify with
        | error e =>
          rw [ht, hts] at hbody
          cases hbody
        | ok ts =>
          rw [ht, hts] at hbody
          obtain rfl := Except.ok.inj hbody
          obtain ⟨t', ht', hcontent⟩ := h.classify_content htext ht
          obtain ⟨ts', hts', hcontents⟩ := ih hrest hts
          rw [ht', hts']
          exact ⟨t' :: ts', rfl, congrArg₂ List.cons hcontent hcontents⟩

/-- The texts of the tokens, respaced, are cut into tokens with the same contents. -/
theorem Textual.tokens_respaced (h : lexer.Textual) {source : String} {tokens : List Token}
    (htokens : lexer.tokens source = .ok tokens) :
    ∃ tokens', lexer.tokens (Token.respaced tokens) = .ok tokens' ∧
      tokens'.map Token.content = tokens.map Token.content := by
  obtain ⟨fragments, body, hfragments, hbody, rfl⟩ := (tokens_eq_ok h.splitter_eq).1 htokens
  have hmunched := Fragment.munched_of_ofChars lexer.sorted_symbols Mark.follows_start hfragments
  have hblank : ∀ s, lexer.Spells s → ∀ c ∈ s, isBlank c = false := fun s hs => h.symbols s hs.2
  obtain ⟨fragments', hfragments', htexts⟩ := hmunched.cutsInto lexer.sorted_symbols hblank .start
  obtain ⟨body', hbody', hcontents⟩ := h.mapM_classify htexts.symm hbody
  have htext : body.map Token.text = fragments.map Fragment.text := by
    rw [← lexer.map_fragment_of_mapM fragments hbody, List.map_map]
    rfl
  have hsource : (Token.respaced (body ++ [.eof (Mark.start.advance source.toList)])).toList =
      [' '].intercalate (fragments.map fun f => f.text.toList) := by
    rw [Token.respaced, List.dropLast_concat, htext, String.toList_intercalate, List.map_map]
    rfl
  rw [← hsource] at hfragments'
  refine ⟨_, (tokens_eq_ok h.splitter_eq).2 ⟨fragments', body', hfragments', hbody', rfl⟩, ?_⟩
  rw [List.map_append, List.map_append, hcontents]
  rfl

theorem textual_core : core.Textual where
  splitter_eq := rfl
  symbols s hs c hc := by
    have hspells : core.Spells s := ⟨List.ne_nil_of_mem hc, hs⟩
    have hmem : s ∈ Fragment.coreSymbols := ((core.sorted_symbols.iff_mem s).1 hspells).1
    have hall : Fragment.coreSymbols.all (fun s => s.all fun c => !isBlank c) = true := by
      rw [Fragment.coreSymbols_eq]
      rfl
    simpa using List.all_eq_true.1 (List.all_eq_true.1 hall s hmem) c hc
  recognizers := by
    rw [members_core]
    simp only [List.forall_mem_cons, List.not_mem_nil, false_implies, implies_true, and_true]
    exact ⟨Recognizer.textual_string, Recognizer.textual_number, Recognizer.textual_ofTable _ _,
      Recognizer.textual_identifier⟩

end Lexer

theorem Engine.onlyCore_core : Engine.core.grammar.OnlyCore := by
  intro construct parser hparser
  cases construct with
  | custom name => cases hparser
  | _ => exact hparser

theorem Engine.compile_of_tokens {engine : Engine} {source : String} {tokens : List Token}
    (htokens : engine.lexer.tokens source = .ok tokens) :
    engine.compile source =
      ((engine.grammar.parseAll .expression).start (.ofList tokens)).1.map
        (Expression.mk source) := by
  rw [compile, parse, Lexer.cursor, htokens]
  change ((engine.grammar.parseAll .expression).start (.ofList tokens)).1 >>= _ = _
  cases ((engine.grammar.parseAll .expression).start (.ofList tokens)).1 <;> rfl

/-- The tree of a respaced source is that of the source, and so is the reason why there is none. -/
theorem Engine.compile_respaced {engine : Engine} (hlexer : engine.lexer.Textual)
    (hgrammar : engine.grammar.OnlyCore) {source : String} {tokens : List Token}
    (htokens : engine.lexer.tokens source = .ok tokens) :
    match engine.compile source, engine.compile (Token.respaced tokens) with
    | .ok e, .ok e' => e.node = e'.node
    | .error e, .error e' => e.fault.Alike e'.fault
    | _, _ => False := by
  obtain ⟨tokens', htokens', hcontents⟩ := hlexer.tokens_respaced htokens
  have hahead {source : String} {tokens : List Token}
      (h : engine.lexer.tokens source = .ok tokens) : (Cursor.ofList tokens).ahead = tokens := by
    obtain ⟨_, body, -, -, rfl⟩ := (Lexer.tokens_eq_ok hlexer.splitter_eq).1 h
    exact Cursor.ahead_ofList rfl
  have hrelated : Resemblance.contents.Related (.ofList tokens) (.ofList tokens') := by
    change (Cursor.ofList tokens).ahead.map _ = (Cursor.ofList tokens').ahead.map _
    rw [hahead htokens, hahead htokens', hcontents]
  have hparallel := Resemblance.parallel_parseAll hgrammar .expression hrelated
  rw [compile_of_tokens htokens, compile_of_tokens htokens']
  rw [Resemblance.Parallel] at hparallel
  generalize (engine.grammar.parseAll .expression).start (.ofList tokens) = left,
    (engine.grammar.parseAll .expression).start (.ofList tokens') = right at hparallel
  cases hparallel with
  | ok => rfl
  | error halike => exact halike

/-- Layout does not matter to lexers that look at texts, nor to the core engine. -/
theorem Lexer.layout_independent :
    (∀ lexer : Lexer, lexer.Textual → ∀ source tokens, lexer.tokens source = .ok tokens →
      ∃ tokens', lexer.tokens (Token.respaced tokens) = .ok tokens' ∧
        tokens'.map Token.content = tokens.map Token.content) ∧
    ∀ source tokens, Engine.core.lexer.tokens source = .ok tokens →
      match Engine.core.compile source, Engine.core.compile (Token.respaced tokens) with
      | .ok e, .ok e' => e.node = e'.node
      | .error e, .error e' => e.fault.Alike e'.fault
      | _, _ => False := by
  constructor
  · intro lexer hlexer source tokens htokens
    exact hlexer.tokens_respaced htokens
  · intro source tokens htokens
    exact Engine.compile_respaced Lexer.textual_core Engine.onlyCore_core htokens

theorem Lexer.textual_arrows : arrows.Textual where
  splitter_eq := rfl
  symbols s hs c hc := by
    have hsymbols : arrows.chain.symbols = ["=", "==", "==>"] := by cbv
    have hmem : String.ofList s ∈ ["=", "==", "==>"] := by
      rw [← hsymbols]
      exact Chain.mem_symbols_iff_asks.2 hs
    have hall : ["=", "==", "==>"].all (fun s => s.toList.all fun c => !isBlank c) = true := rfl
    simpa using List.all_eq_true.1 (List.all_eq_true.1 hall _ hmem) c (by simpa using hc)
  recognizers := by
    refine List.forall_mem_singleton.2 (Chain.textual_toRecognizer ?_)
    refine List.forall_mem_cons.2 ⟨Recognizer.textual_ofTable _ _, List.forall_mem_singleton.2 ?_⟩
    exact Chain.textual_toRecognizer (List.forall_mem_singleton.2 (Recognizer.textual_ofTable _ _))

/-- Signs without spaces and a parenthesis that is not closed, on two lines each. -/
theorem Lexer.layout_independent_lines :
    (∃ tokens tokens', arrows.tokens "a===>\n'b  c'" = .ok tokens ∧
      arrows.tokens "a == = > 'b  c'" = .ok tokens' ∧
        tokens'.map Token.content = tokens.map Token.content) ∧
    ∃ e e', Engine.core.compile "\n(a-1" = .error e ∧ Engine.core.compile "( a - 1" = .error e' ∧
      e.fault.Alike e'.fault := by
  obtain ⟨hlexer, hengine⟩ := layout_independent
  constructor
  · have hjoined : (arrows.tokens "a===>\n'b  c'").map Token.respaced = .ok "a == = > 'b  c'" := by
      cbv
    obtain ⟨tokens, htokens, hrespaced⟩ := exists_of_map_eq_ok hjoined
    obtain ⟨tokens', htokens', hcontents⟩ := hlexer arrows textual_arrows _ _ htokens
    rw [hrespaced] at htokens'
    exact ⟨tokens, tokens', htokens, htokens', hcontents⟩
  · have hjoined : (core.tokens "\n(a-1").map Token.respaced = .ok "( a - 1" := by
      rw [tokens_core_eq, Fragment.coreSymbols_eq]
      cbv
    have hfails : (Engine.core.parse .expression "\n(a-1").toOption.isNone = true := by
      rw [Engine.parse_core_eq, Fragment.coreSymbols_eq]
      cbv
    obtain ⟨tokens, htokens, hrespaced⟩ := exists_of_map_eq_ok hjoined
    have hout := hengine _ tokens htokens
    rw [hrespaced] at hout
    cases hcompile : Engine.core.compile "\n(a-1" with
    | ok e =>
      rw [(Engine.compile_eq_ok.1 hcompile).2] at hfails
      cases hfails
    | error e =>
      rw [hcompile] at hout
      cases hcompile' : Engine.core.compile "( a - 1" with
      | ok e' =>
        rw [hcompile'] at hout
        exact hout.elim
      | error e' =>
        rw [hcompile'] at hout
        exact ⟨e, e', rfl, rfl, hout⟩

end ExprLang
