import ExprLang.Engine
import ExprLang.Proofs.Contexts.Bindings
import ExprLang.Proofs.Syntax.Balance

/-!
# Tokens of the core lexer

The core lexer never fails to give a kind, and the kind depends on the text alone: texts are known
by their quote, numbers by their digit, symbols and keywords by the table of spellings, and all
other words are identifiers.  So no token of a source but the last one is an end token, and no word
is a parenthesis.
-/

namespace ExprLang

namespace Fragment

/-- The symbols that the core lexer looks for, in this order. -/
def coreSymbols : List (List Char) :=
  Lexer.core.symbols.map String.toList

theorem coreSymbols_eq : coreSymbols = [['!', '='], ['&', '&'], ['+', '+'], ['-', '-'], ['<', '='],
    ['=', '='], ['>', '='], ['|', '|'], ['!'], ['%'], ['('], [')'], ['*'], ['+'], [','], ['-'], ['.'],
    ['/'], [':'], [';'], ['<'], ['='], ['>'], ['?'], ['['], [']'], ['\x7b'], ['\x7d']] := by
  cbv

end Fragment

namespace Lexer

/-- The spellings of the basic kinds with their kinds. -/
def spellings : Entries TokenKind :=
  Entries.ofList <|
    BasicKind.all.flatMap fun kind => kind.spellings.map fun spelling => (spelling, .basic kind)

/-- The kind of a word or symbol. -/
def spelledKind (text : String) : TokenKind :=
  (spellings.get? text).getD
    (if Text.isWord text then BasicKind.identifier else BasicKind.raw : BasicKind)

/-- The kind that the core lexer gives to a text. -/
def coreKind (text : String) : TokenKind :=
  match text.toList with
  | c :: _ =>
    if c = '\'' || c = '"' then BasicKind.string
    else if c.isDigit then BasicKind.number
    else spelledKind text
  | [] => spelledKind text

/-- The token of a fragment. -/
def coreToken (fragment : Fragment) : Token :=
  ⟨coreKind fragment.text, fragment.text, fragment.span⟩

theorem members_core : core.chain.members =
    [.string, .number, .basic Recognizer.basicPriority, .identifier] := rfl

theorem recognize_core (fragment : Fragment) :
    (core.chain.recognize fragment).or core.default = some (coreKind fragment.text) := by
  have hbasic : (Recognizer.basic Recognizer.basicPriority).recognize fragment =
      spellings.get? fragment.text := rfl
  have hspelled : ((spellings.get? fragment.text).or (Recognizer.identifier.recognize fragment)).or
      (some BasicKind.raw) = some (spelledKind fragment.text) := by
    unfold spelledKind Recognizer.identifier
    cases spellings.get? fragment.text with
    | some kind => rfl
    | none => cases hword : Text.isWord fragment.text <;> simp [hword]
  have hrest (hkind : coreKind fragment.text = spelledKind fragment.text)
      (hstring : Recognizer.string.recognize fragment = none)
      (hnumber : Recognizer.number.recognize fragment = none) :
      (core.chain.recognize fragment).or core.default = some (coreKind fragment.text) := by
    rw [Chain.recognize, members_core]
    simp only [List.findSome?_cons, List.findSome?_nil, hstring, hnumber, hbasic]
    rw [hkind, ← hspelled]
    cases spellings.get? fragment.text <;> cases Recognizer.identifier.recognize fragment <;> rfl
  cases htext : fragment.text.toList with
  | nil =>
    apply hrest
    · simp [coreKind, htext]
    · simp [Recognizer.string, htext]
    · simp [Recognizer.number, htext]
  | cons c rest =>
    by_cases hquote : c = '\'' ∨ c = '"'
    · have hstring : Recognizer.string.recognize fragment = some BasicKind.string := by
        simp [Recognizer.string, htext, hquote]
      rw [Chain.recognize, members_core, List.findSome?_cons, hstring]
      simp [coreKind, htext, hquote]
    · have hstring : Recognizer.string.recognize fragment = none := by
        simp [Recognizer.string, htext, hquote]
      by_cases hdigit : c.isDigit = true
      · have hnumber : Recognizer.number.recognize fragment = some BasicKind.number := by
          simp [Recognizer.number, htext, hdigit]
        rw [Chain.recognize, members_core, List.findSome?_cons, hstring, List.findSome?_cons, hnumber]
        simp [coreKind, htext, hquote, hdigit]
      · refine hrest ?_ hstring ?_
        · simp [coreKind, htext, hquote, hdigit]
        · simp [Recognizer.number, htext, hdigit]

theorem classify_core (fragment : Fragment) :
    core.classify fragment = .ok (coreToken fragment) := by
  rw [classify, recognize_core]
  rfl

/-- The core lexer gives every fragment a kind. -/
theorem mapM_classify_core (fragments : List Fragment) :
    fragments.mapM core.classify = .ok (fragments.map coreToken) := by
  induction fragments with
  | nil => rfl
  | cons first rest ih =>
    rw [List.mapM_cons, classify_core, ih]
    rfl

/-- The tokens of a source are those of its fragments, with an end token behind them. -/
theorem tokens_core_eq (source : String) :
    core.tokens source =
      (Fragment.ofChars Fragment.coreSymbols .start source.toList).map fun fragments =>
        fragments.map coreToken ++ [.eof (Mark.start.advance source.toList)] := by
  unfold tokens
  change (Fragment.ofChars Fragment.coreSymbols .start source.toList >>= fun fragments => _) = _
  cases Fragment.ofChars Fragment.coreSymbols .start source.toList with
  | error e => rfl
  | ok fragments =>
    change (fragments.mapM core.classify >>= fun tokens => _) = _
    rw [mapM_classify_core]
    rfl

theorem tokens_core {source : String} {ts : List Token} (h : core.tokens source = .ok ts) :
    ∃ fragments, Fragment.ofChars Fragment.coreSymbols .start source.toList = .ok fragments ∧
      ts = fragments.map coreToken ++ [.eof (Mark.start.advance source.toList)] := by
  rw [tokens_core_eq] at h
  cases hfragments : Fragment.ofChars Fragment.coreSymbols .start source.toList with
  | error e =>
    rw [hfragments] at h
    cases h
  | ok fragments =>
    rw [hfragments] at h
    exact ⟨fragments, rfl, (Except.ok.inj h).symm⟩

/-- In the table of spellings a text has no kind that it does not spell. -/
theorem kind_ne_of_mem_spellings {entry : String × TokenKind} (h : entry ∈ spellings)
    {kind : BasicKind} (hkind : entry.1 ∉ kind.spellings) : entry.2 ≠ kind := by
  obtain ⟨kind', -, hentry⟩ := List.mem_flatMap.1 (Entries.mem_of_mem_ofList h)
  obtain ⟨spelling, hspelling, rfl⟩ := List.mem_map.1 hentry
  intro heq
  obtain rfl := TokenKind.basic.inj heq
  exact hkind hspelling

/-- In the table of spellings a word has no kind that no word spells. -/
theorem kind_ne_of_isWord {entry : String × TokenKind} (h : entry ∈ spellings)
    (hword : Text.isWord entry.1 = true) {kind : BasicKind}
    (hkind : ∀ s ∈ kind.spellings, Text.isWord s = false) : entry.2 ≠ kind := by
  refine kind_ne_of_mem_spellings h fun hmem => ?_
  rw [hkind _ hmem] at hword
  cases hword

theorem spelledKind_spec (text : String) : spelledKind text ≠ BasicKind.eof ∧
    (Text.isWord text = true → spelledKind text ≠ BasicKind.lparen ∧
      spelledKind text ≠ BasicKind.rparen ∧ spelledKind text ≠ BasicKind.dot) := by
  unfold spelledKind
  cases hget : spellings.get? text with
  | some kind =>
    have hmem := Entries.mem_of_get? hget
    exact ⟨kind_ne_of_mem_spellings hmem List.not_mem_nil, fun hword =>
      ⟨kind_ne_of_isWord hmem hword (by decide), kind_ne_of_isWord hmem hword (by decide),
        kind_ne_of_isWord hmem hword (by decide)⟩⟩
  | none =>
    by_cases hword : Text.isWord text = true
    · simp [hword]
    · simp [hword]

theorem coreKind_spec (text : String) : coreKind text ≠ BasicKind.eof ∧
    (Text.isWord text = true → coreKind text ≠ BasicKind.lparen ∧
      coreKind text ≠ BasicKind.rparen ∧ coreKind text ≠ BasicKind.dot) := by
  unfold coreKind
  split
  · split
    · simp
    · split
      · simp
      · exact spelledKind_spec text
  · exact spelledKind_spec text

theorem kind_coreToken_ne_eof (fragment : Fragment) :
    (coreToken fragment).kind ≠ BasicKind.eof :=
  (coreKind_spec fragment.text).1

theorem regular_coreToken (fragment : Fragment) : (coreToken fragment).Regular := fun hword =>
  have hspec := coreKind_spec fragment.text
  ⟨(hspec.2 hword).1, (hspec.2 hword).2.1, hspec.1⟩

theorem kind_coreToken_ne_dot {fragment : Fragment} (hword : Text.isWord fragment.text = true) :
    (coreToken fragment).kind ≠ BasicKind.dot :=
  ((coreKind_spec fragment.text).2 hword).2.2

theorem regular_map_coreToken (fragments : List Fragment) :
    ∀ t ∈ fragments.map coreToken, t.Regular ∧ t.kind ≠ BasicKind.eof := by
  intro t ht
  obtain ⟨fragment, -, rfl⟩ := List.mem_map.1 ht
  exact ⟨regular_coreToken fragment, kind_coreToken_ne_eof fragment⟩

end Lexer

theorem Token.regular_eof (m : Mark) : (Token.eof m).Regular := by
  intro hword
  exact absurd hword (by decide : ¬ Text.isWord "" = true)

end ExprLang
