import ExprLang.Proofs.Contexts.Bindings
import ExprLang.Proofs.Fragments.Layout
import ExprLang.Proofs.Syntax.Points

/-!
# Keywords of templates

The template extension gives kinds of its own to some words, and the grammar uses none of them.  So
with the extension a source is compiled exactly if it is compiled without it and these words stand
behind points only, and it is compiled to the same tree (`Engine.compile_templates_iff`).
-/

namespace ExprLang

namespace TemplateKind

/-- The words that the template grammar keeps for itself. -/
def keywords : List String :=
  all.flatMap spellings

example : keywords = ["for", "in", "if", "else", "end"] := rfl

/-- The kind of the keyword that the text spells. -/
def keyword? (text : String) : Option TokenKind :=
  Entries.get? text <| Entries.ofList <|
    all.flatMap fun kind => kind.spellings.map fun spelling => (spelling, .template kind)

theorem keyword?_eq_none_iff {text : String} : keyword? text = none ↔ text ∉ keywords := by
  rw [keyword?, Entries.get?_eq_none_iff, Entries.mem_keys_ofList]
  rfl

theorem exists_of_keyword? {text : String} {kind : TokenKind} (h : keyword? text = some kind) :
    ∃ word ∈ all, kind = .template word := by
  obtain ⟨word, hword, hentry⟩ :=
    List.mem_flatMap.1 (Entries.mem_of_mem_ofList (Entries.mem_of_get? h))
  obtain ⟨spelling, -, heq⟩ := List.mem_map.1 hentry
  exact ⟨word, hword, (Prod.mk.inj heq).2.symm⟩

end TemplateKind

namespace Token

/-- The token with the kind of the keyword that its text spells, if there is one. -/
def keyed (t : Token) : Token :=
  { t with kind := (TemplateKind.keyword? t.text).getD t.kind }

theorem keyed_kind (t : Token) :
    t.keyed.kind = t.kind ∨
      t.text ∈ TemplateKind.keywords ∧ ∃ word : TemplateKind, t.keyed.kind = .template word := by
  rw [keyed]
  cases hkeyword : TemplateKind.keyword? t.text with
  | none => exact .inl rfl
  | some kind =>
    obtain ⟨word, -, rfl⟩ := TemplateKind.exists_of_keyword? hkeyword
    refine .inr ⟨?_, word, rfl⟩
    by_contra hnot
    rw [TemplateKind.keyword?_eq_none_iff.2 hnot] at hkeyword
    cases hkeyword

theorem keyed_kind_of_mem {t : Token} (ht : t.text ∈ TemplateKind.keywords) :
    ∃ word : TemplateKind, t.keyed.kind = .template word := by
  rw [keyed]
  cases hkeyword : TemplateKind.keyword? t.text with
  | none => exact absurd ht (TemplateKind.keyword?_eq_none_iff.1 hkeyword)
  | some kind =>
    obtain ⟨word, -, rfl⟩ := TemplateKind.exists_of_keyword? hkeyword
    exact ⟨word, rfl⟩

/-- No keyword is of a basic kind. -/
theorem keyed_kind_basic {t : Token} {kind : BasicKind} (h : t.keyed.kind = kind) :
    t.kind = kind := by
  rcases t.keyed_kind with hkind | ⟨-, word, hword⟩
  · rw [← hkind, h]
  · rw [h] at hword
    cases hword

end Token

namespace Lexer

open Fragment

/-- The core lexer with the keywords of templates. -/
def templates : Lexer :=
  core.extend .template

theorem members_templates : templates.chain.members =
    .template Recognizer.keywordPriority :: core.chain.members := rfl

theorem recognize_templates (fragment : Fragment) :
    (templates.chain.recognize fragment).or templates.default =
      some (coreToken fragment).keyed.kind := by
  have hrecognize : templates.chain.recognize fragment =
      (TemplateKind.keyword? fragment.text).or (core.chain.recognize fragment) := by
    have hkeyword : (Recognizer.template Recognizer.keywordPriority).recognize fragment =
        TemplateKind.keyword? fragment.text := rfl
    rw [Chain.recognize, members_templates, List.findSome?_cons, hkeyword]
    cases TemplateKind.keyword? fragment.text <;> rfl
  have hdefault : templates.default = core.default := rfl
  rw [hrecognize, hdefault, Option.or_assoc, recognize_core, Option.or_some]
  rfl

theorem classify_templates (fragment : Fragment) :
    templates.classify fragment = .ok (coreToken fragment).keyed := by
  rw [classify, recognize_templates]
  rfl

/-- With the keywords, a source has the same tokens, but for the kinds of the keywords. -/
theorem tokens_templates_eq (source : String) :
    templates.tokens source = (core.tokens source).map (List.map Token.keyed) := by
  rw [tokens_core_eq]
  -- Keywords are words, so no symbol is added.
  change (ofChars coreSymbols .start source.toList >>= fun fragments => _) = _
  cases ofChars coreSymbols .start source.toList with
  | error e => rfl
  | ok fragments =>
    have hclassify : templates.classify = fun fragment => pure (coreToken fragment).keyed :=
      funext classify_templates
    change (fragments.mapM templates.classify >>= fun tokens => _) = _
    rw [hclassify, List.mapM_pure]
    simp only [pure_bind, Except.map, List.map_append, List.map_map]
    rfl

end Lexer

namespace Grammar

variable {g : Grammar} {fragments : List Fragment}

/-- The core operators are not spelled by keywords. -/
theorem CoreOperators.not_uses (hg : g.CoreOperators) (word : TemplateKind) :
    ¬ g.Uses (.template word) := by
  have hnone : core.binary? (.template word) = none ∧ core.before? (.template word) = none ∧
      core.after? (.template word) = none := by
    cases word <;> decide
  obtain ⟨hbinary, hbefore, hafter⟩ := hnone
  rw [← hg.binary?_eq] at hbinary
  rw [← hg.before?_eq] at hbefore
  rw [← hg.after?_eq] at hafter
  simp [Uses, hbinary, hbefore, hafter]

/-- The token with the kind that the core lexer gives to its text. -/
def plainly (t : Token) : Token :=
  { t with kind := Lexer.coreKind t.text }

/-- Keywords may be put where they stand behind points. -/
theorem retags_keyed (h : Token.BehindPoints (fun t => t.text ∈ TemplateKind.keywords)
    (fragments.map Lexer.coreToken)) : Retags Token.keyed (fragments.map Lexer.coreToken) where
  text_eq _ := rfl
  words t ht hword := by
    obtain ⟨fragment, -, rfl⟩ := List.mem_map.1 ht
    exact Lexer.kind_coreToken_ne_dot hword
  kinds := h.mono fun t _ hne => (t.keyed_kind.resolve_left hne).1

/-- Kinds that are not used may be taken back where they stand behind points. -/
theorem retags_plainly (hunused : ∀ word : TemplateKind, ¬ g.Uses (.template word))
    (h : Token.BehindPoints (fun t => ¬ g.Uses t.kind)
      (fragments.map fun fragment => (Lexer.coreToken fragment).keyed)) :
    Retags plainly (fragments.map fun fragment => (Lexer.coreToken fragment).keyed) where
  text_eq _ := rfl
  words t ht hword hdot := by
    obtain ⟨fragment, -, rfl⟩ := List.mem_map.1 ht
    exact Lexer.kind_coreToken_ne_dot hword (Token.keyed_kind_basic hdot)
  kinds := by
    refine h.mono fun t ht hne => ?_
    obtain ⟨fragment, -, rfl⟩ := List.mem_map.1 ht
    rcases (Lexer.coreToken fragment).keyed_kind with hkind | ⟨-, word, hword⟩
    · exact absurd hkind.symm hne
    · rw [hword]
      exact hunused word

/-- With the keywords, the tokens of fragments are derivable exactly if they are so without them and
the keywords stand behind points. -/
theorem derives_keyed_iff (hg : g.Distinct)
    (hunused : ∀ word : TemplateKind, ¬ g.Uses (.template word)) (fragments : List Fragment)
    (n : Node) :
    g.Derives .expression (fragments.map fun fragment => (Lexer.coreToken fragment).keyed) n ↔
      g.Derives .expression (fragments.map Lexer.coreToken) n ∧
        Token.BehindPoints (fun t => t.text ∈ TemplateKind.keywords)
          (fragments.map Lexer.coreToken) := by
  constructor
  · intro h
    have hbehind := h.unused_behindPoints hg fun t ht hword hdot => by
      obtain ⟨fragment, -, rfl⟩ := List.mem_map.1 ht
      exact Lexer.kind_coreToken_ne_dot hword (Token.keyed_kind_basic hdot)
    constructor
    · have hback := h.map hg (retags_plainly hunused hbehind)
      rwa [List.map_map] at hback
    · have hkeyed : Token.BehindPoints (fun t => ¬ g.Uses t.kind)
          ((fragments.map Lexer.coreToken).map Token.keyed) := by rwa [List.map_map]
      refine (hkeyed.of_map fun t => Token.keyed_kind_basic).mono fun t _ hmem => ?_
      obtain ⟨word, hword⟩ := Token.keyed_kind_of_mem hmem
      rw [hword]
      exact hunused word
  · rintro ⟨h, hbehind⟩
    have hkeyed := h.map hg (retags_keyed hbehind)
    rwa [List.map_map] at hkeyed

end Grammar

namespace Engine

open Fragment Grammar Lexer

/-- The core engine with the keywords of templates. -/
def templates : Engine :=
  core.extend .template

/-- With the keywords, the engine gives a tree for a source if and only if the tree is derived from
the tokens with the kinds of the keywords. -/
theorem parse_templates_iff {source : String} {n : Node} :
    templates.parse .expression source = .ok n ↔
      ∃ fragments, ofChars coreSymbols .start source.toList = .ok fragments ∧
        core.grammar.Derives .expression
          (fragments.map fun fragment => (coreToken fragment).keyed) n := by
  have hparse : templates.parse .expression source =
      (ofChars coreSymbols .start source.toList).bind fun fragments =>
        (core.grammar.parseAll .expression (.ofList
          ((fragments.map fun fragment => (coreToken fragment).keyed) ++
            [.eof (Mark.start.advance source.toList)]))).1 := by
    change (Lexer.templates.cursor source >>= fun c => _) = _
    rw [Lexer.cursor, tokens_templates_eq, tokens_core_eq]
    cases ofChars coreSymbols .start source.toList with
    | error e => rfl
    | ok fragments =>
      simp only [Except.map, List.map_append, List.map_map]
      rfl
  rw [hparse, bind_eq_ok]
  refine exists_congr fun fragments => and_congr_right fun _ => ?_
  refine keepsCore_core.parseAll_expression coreOperators_core.distinct rfl (Token.regular_eof _) ?_
  intro t ht
  obtain ⟨fragment, -, rfl⟩ := List.mem_map.1 ht
  refine ⟨fun hword => ?_, fun heof => kind_coreToken_ne_eof fragment (Token.keyed_kind_basic heof)⟩
  obtain ⟨hopener, hclose, heof⟩ := regular_coreToken fragment hword
  exact ⟨fun h => hopener (Token.keyed_kind_basic h), fun h => hclose (Token.keyed_kind_basic h),
    fun h => heof (Token.keyed_kind_basic h)⟩

/-- With the keywords of templates, a source is compiled to a tree exactly if it is so without them
and its tokens that are spelled like keywords stand directly behind points. -/
theorem compile_templates_iff (source : String) (e : Expression) :
    templates.compile source = .ok e ↔ core.compile source = .ok e ∧
      ∃ tokens, core.lexer.tokens source = .ok tokens ∧
        Token.BehindPoints (fun t => t.text ∈ TemplateKind.keywords) tokens := by
  have htokens (tokens : List Token) : core.lexer.tokens source = .ok tokens ↔
      ∃ fragments, ofChars coreSymbols .start source.toList = .ok fragments ∧
        tokens = fragments.map coreToken ++ [.eof (Mark.start.advance source.toList)] := by
    change Lexer.core.tokens source = _ ↔ _
    rw [tokens_core_eq]
    cases ofChars coreSymbols .start source.toList <;> simp [Except.map, eq_comm]
  have heof : (Token.eof (Mark.start.advance source.toList)).text ∉ TemplateKind.keywords := by
    change "" ∉ TemplateKind.keywords
    decide
  have hiff := derives_keyed_iff coreOperators_core.distinct coreOperators_core.not_uses
  rw [compile_eq_ok, compile_eq_ok, parse_templates_iff, parse_expression_iff]
  constructor
  · rintro ⟨hsource, fragments, hfragments, hderives⟩
    obtain ⟨hcore, hbehind⟩ := (hiff _ _).1 hderives
    refine ⟨⟨hsource, fragments, hfragments, hcore⟩, _, (htokens _).2 ⟨_, hfragments, rfl⟩, ?_⟩
    exact (Token.behindPoints_concat heof).2 hbehind
  · rintro ⟨⟨hsource, fragments, hfragments, hcore⟩, tokens, hlexed, hbehind⟩
    obtain ⟨same, hsame, rfl⟩ := (htokens tokens).1 hlexed
    obtain rfl : fragments = same := Except.ok.inj (hfragments.symm.trans hsame)
    have hbehind := (Token.behindPoints_concat heof).1 hbehind
    exact ⟨hsource, fragments, hfragments, (hiff _ _).2 ⟨hcore, hbehind⟩⟩

end Engine

end ExprLang
