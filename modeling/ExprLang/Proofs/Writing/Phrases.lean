import ExprLang.Proofs.Syntax.Derivation
import ExprLang.Proofs.Writing.Literals

/-!
# Written phrases

A phrase is a text that is cut into tokens of a known form wherever it stands, as long as nothing
behind it carries it on.  Phrases are put together with symbols and blank characters between them
just as trees are written, one lemma for each rule of the grammar: what is written for the parts is
written for the whole.
-/

namespace ExprLang

open Text Lexer Fragment

namespace Lexer

/-- A text is known by its first character or its spelling, or it is an identifier or raw. -/
theorem coreKind_cases (text : String) :
    (∃ c cs, text.toList = c :: cs ∧ (c = '\'' ∨ c = '"') ∧ coreKind text = BasicKind.string) ∨
    (∃ c cs, text.toList = c :: cs ∧ c.isDigit = true ∧ coreKind text = BasicKind.number) ∨
    (text, coreKind text) ∈ spellings ∨
    (coreKind text = BasicKind.identifier ∧ isWord text = true) ∨
    coreKind text = BasicKind.raw := by
  have hspelled : (text, spelledKind text) ∈ spellings ∨
      (spelledKind text = BasicKind.identifier ∧ isWord text = true) ∨
      spelledKind text = BasicKind.raw := by
    unfold spelledKind
    cases hget : spellings.get? text with
    | some kind => exact .inl (Entries.mem_of_get? hget)
    | none =>
      right
      by_cases hword : isWord text = true
      · simp [hword]
      · simp [hword]
  unfold coreKind
  split
  · rename_i c cs htext
    by_cases hquote : c = '\'' ∨ c = '"'
    · exact .inl ⟨c, cs, htext, hquote, by simp [hquote]⟩
    · by_cases hdigit : c.isDigit = true
      · exact .inr (.inl ⟨c, cs, htext, hdigit, by simp [hquote, hdigit]⟩)
      · simp only [Bool.or_eq_true, decide_eq_true_eq, if_neg hquote, if_neg hdigit]
        exact .inr (.inr hspelled)
  · exact .inr (.inr hspelled)

/-- Identifiers are words. -/
theorem isWord_of_coreKind {text : String} (h : coreKind text = BasicKind.identifier) :
    isWord text = true := by
  have hcases := coreKind_cases text
  rw [h] at hcases
  rcases hcases with ⟨_, _, -, -, ⟨⟩⟩ | ⟨_, _, -, -, ⟨⟩⟩ | hmem | ⟨-, hword⟩ | ⟨⟨⟩⟩
  · exact absurd rfl (kind_ne_of_mem_spellings hmem List.not_mem_nil)
  · exact hword

/-- Numbers have a digit in front. -/
theorem exists_isDigit_of_coreKind {text : String} (h : coreKind text = BasicKind.number) :
    ∃ c cs, text.toList = c :: cs ∧ c.isDigit = true := by
  have hcases := coreKind_cases text
  rw [h] at hcases
  rcases hcases with ⟨_, _, -, -, ⟨⟩⟩ | ⟨c, cs, htext, hdigit, -⟩ | hmem | ⟨⟨⟩, -⟩ | ⟨⟨⟩⟩
  · exact ⟨c, cs, htext, hdigit⟩
  · exact absurd rfl (kind_ne_of_mem_spellings hmem List.not_mem_nil)

/-- Texts have a quote in front. -/
theorem exists_quote_of_coreKind {text : String} (h : coreKind text = BasicKind.string) :
    ∃ c cs, text.toList = c :: cs ∧ (c = '\'' ∨ c = '"') := by
  have hcases := coreKind_cases text
  rw [h] at hcases
  rcases hcases with ⟨c, cs, htext, hquote, -⟩ | ⟨_, _, -, -, ⟨⟩⟩ | hmem | ⟨⟨⟩, -⟩ | ⟨⟨⟩⟩
  · exact ⟨c, cs, htext, hquote⟩
  · exact absurd rfl (kind_ne_of_mem_spellings hmem List.not_mem_nil)

theorem coreKind_of_isDigit {text : String} {c : Char} {cs : List Char} (htext : text.toList = c :: cs)
    (hc : c.isDigit = true) : coreKind text = BasicKind.number := by
  have hquote : ¬ (c = '\'' ∨ c = '"') := by
    rintro (rfl | rfl)
    · exact absurd hc (by decide)
    · exact absurd hc (by decide)
  simp [coreKind, htext, hquote, hc]

theorem keyword_null : isWord "null" = true ∧ coreKind "null" = BasicKind.nullWord := by
  decide +kernel

theorem keyword_bool : ∀ b, isWord (Literal.bool b).text = true ∧
    coreKind (Literal.bool b).text = if b then BasicKind.trueWord else BasicKind.falseWord := by
  decide +kernel

end Lexer

namespace Fragment

/-- The symbols that stand between the parts of expressions, with their kinds. -/
def punctuation : List (String × BasicKind) := [
  ("(", .lparen), (")", .rparen), ("[", .lbracket), ("]", .rbracket), (",", .comma), (".", .dot),
  (":", .colon), ("?", .question)]

/-- These symbols begin no longer ones, and they spell their kinds. -/
theorem punctuation_spec : ∀ entry ∈ punctuation, entry.1.toList ∈ coreSymbols ∧
    (∀ t ∈ coreSymbols, entry.1.toList <+: t → t.length ≤ entry.1.length) ∧
    coreKind entry.1 = entry.2 := by
  rw [coreSymbols_eq]
  decide +kernel

/-- What holds of the first character of a text holds if more characters are behind it. -/
theorem forall_head_append (s : String) {c : Char} (hs : s.toList.head? = some c)
    {P : Char → Prop} (hc : P c) (rest : List Char) : ∀ d ∈ (s.toList ++ rest).head?, P d := by
  intro d hd
  rw [List.head?_append, hs] at hd
  rwa [← Option.some.inj hd]

theorem quiet_of_head (s : String) {c : Char} (hs : s.toList.head? = some c)
    (hc : c ∉ ['+', '-', '=', '&', '|']) (rest : List Char) : Quiet (s.toList ++ rest) :=
  forall_head_append s hs hc rest

theorem quiet_of_isWordPart (s : String) {c : Char} (hs : s.toList.head? = some c)
    (hc : isWordPart c = true) (rest : List Char) : Quiet (s.toList ++ rest) := by
  refine quiet_of_head s hs ?_ rest
  have hsymbols : ['+', '-', '=', '&', '|'].all (fun d => !isWordPart d) = true := by decide
  intro hmem
  have hnot := List.all_eq_true.1 hsymbols c hmem
  rw [hc] at hnot
  cases hnot

theorem ends_of_head (s : String) {c : Char} (hs : s.toList.head? = some c)
    (hc : isWordPart c = false ∧ c ≠ '.') (rest : List Char) : Ends (s.toList ++ rest) :=
  forall_head_append s hs hc rest

namespace Cuts

theorem space (m : Mark) (rest : List Char) :
    Cuts m (" ".toList ++ rest) [] (m.step ' ') rest :=
  blank (by decide) m rest

/-- A symbol that begins no longer one is cut whatever follows. -/
theorem mark (s : String) (kind : BasicKind) (hs : (s, kind) ∈ punctuation) (m : Mark)
    (rest : List Char) : ∃ fragment m', (coreToken fragment).kind = kind ∧
      Cuts m (s.toList ++ rest) [fragment] m' rest := by
  obtain ⟨hmem, halone, hkind⟩ := punctuation_spec _ hs
  obtain ⟨fragment, m', htext, hcuts⟩ := symbol hmem (parted_of_alone halone rest) m
  refine ⟨fragment, m', ?_, hcuts⟩
  rw [coreToken, htext]
  exact hkind

end Cuts

end Fragment

/-- Wherever the text stands, if nothing behind it carries it on, it is cut into tokens with a
property. -/
def Phrase (text : String) (P : List Token → Prop) : Prop :=
  ∀ (m : Mark) (rest : List Char), Ends rest → ∃ fragments m',
    Cuts m (text.toList ++ rest) fragments m' rest ∧ P (fragments.map coreToken)

namespace Phrase

variable {text other : String} {P Q : List Token → Prop}

theorem mono (h : Phrase text P) (hPQ : ∀ ts, P ts → Q ts) : Phrase text Q := by
  intro m rest hrest
  obtain ⟨fs, m', hcut, hP⟩ := h m rest hrest
  exact ⟨fs, m', hcut, hPQ _ hP⟩

/-- A phrase between two symbols. -/
theorem enclosed (s : String) (kind : BasicKind) (t : String) (kind' : BasicKind)
    (hs : (s, kind) ∈ punctuation) (ht : (t, kind') ∈ punctuation)
    (hends : ∀ rest, Ends (t.toList ++ rest)) (h : Phrase text P) :
    Phrase (s ++ text ++ t) fun ts => ∃ (opener close : Token) (inner : List Token),
      ts = opener :: (inner ++ [close]) ∧ opener.kind = kind ∧ P inner ∧ close.kind = kind' := by
  intro m rest hrest
  obtain ⟨opener, m₁, hopener, hcut₁⟩ := Cuts.mark s kind hs m (text.toList ++ (t.toList ++ rest))
  obtain ⟨fs, m₂, hcut₂, hinner⟩ := h m₁ (t.toList ++ rest) (hends rest)
  obtain ⟨close, m₃, hclose, hcut₃⟩ := Cuts.mark t kind' ht m₂ rest
  refine ⟨[opener] ++ (fs ++ [close]), m₃, ?_, _, _, _, ?_, hopener, hinner, hclose⟩
  · simpa only [String.toList_append, List.append_assoc] using hcut₁.append (hcut₂.append hcut₃)
  · simp

/-- Nothing at all is an empty phrase. -/
theorem empty (h : P []) : Phrase "" P :=
  fun m _ _ => ⟨[], m, Cuts.nil, h⟩

/-- Two phrases with a comma between them. -/
theorem comma (hfirst : Phrase text P) (hrest : Phrase other Q) :
    Phrase (text ++ ", " ++ other) fun ts => ∃ (comma : Token) (us vs : List Token),
      ts = us ++ comma :: vs ∧ P us ∧ comma.kind = BasicKind.comma ∧ Q vs := by
  intro m rest hends
  obtain ⟨fs, m₁, hcut₁, hfirst⟩ :=
    hfirst m (",".toList ++ (" ".toList ++ (other.toList ++ rest)))
      (ends_of_head "," rfl (by decide) _)
  obtain ⟨comma, m₂, hcomma, hcut₂⟩ :=
    Cuts.mark "," .comma (by decide) m₁ (" ".toList ++ (other.toList ++ rest))
  obtain ⟨gs, m₃, hcut₃, hrest⟩ := hrest (m₂.step ' ') rest hends
  refine ⟨fs ++ ([comma] ++ ([] ++ gs)), m₃, ?_, _, _, _, ?_, hfirst, hcomma, hrest⟩
  · have hcuts := hcut₁.append (hcut₂.append ((Cuts.space m₂ _).append hcut₃))
    rw [show ", " = "," ++ " " from rfl]
    simpa only [String.toList_append, List.append_assoc] using hcuts
  · simp

end Phrase

namespace Grammar

/-- Whether the operators of the grammar are the core ones. -/
structure CoreOperators (g : Grammar) : Prop where
  binary_eq : g.binary = coreBinary
  before_eq : g.before = coreBefore
  after_eq : g.after = coreAfter

/-- The text is written for a part with this meaning. -/
def Written (g : Grammar) (part : Part) (text : String) (meaning : part.Meaning) : Prop :=
  Phrase text fun ts => g.Derives part ts meaning

/-- The text is written for items between commas, or it is empty. -/
def WrittenItems (g : Grammar) (text : String) (items : List Node) : Prop :=
  Phrase text fun ts => (ts = [] ∧ items = []) ∨ g.Derives .arguments ts items

/-- The text is written as steps, and it does not carry on a name in front of it. -/
structure WrittenSteps (g : Grammar) (text : String) (steps : List Segment) : Prop where
  written : g.Written .steps text steps
  head : ∀ c ∈ text.toList.head?, isWordPart c = false

theorem WrittenSteps.head_append {g : Grammar} {text : String} {steps : List Segment}
    (h : g.WrittenSteps text steps) {rest : List Char} (hrest : Ends rest) :
    ∀ c ∈ (text.toList ++ rest).head?, isWordPart c = false := by
  intro c hc
  rw [List.head?_append] at hc
  cases hhead : text.toList.head? with
  | none =>
    rw [hhead, Option.none_or] at hc
    exact (hrest c hc).1
  | some d =>
    rw [hhead, Option.some_or] at hc
    exact h.head c (hhead.trans hc)

/-- Whether the symbol of each operator in a table is cut as a whole and spells that operator. -/
def Spelled {α : Type} (token : α → TokenKind) (operation : α → Operation) (table : List α) : Prop :=
  ∀ op ∈ table, (operation op).symbol.toList ∈ coreSymbols ∧ (operation op).symbol ≠ "" ∧
    (table.find? fun o => token o = coreKind (operation op).symbol) = some op

theorem spelled_coreBinary : Spelled BinaryOperator.token BinaryOperator.operation coreBinary := by
  rw [Spelled, coreSymbols_eq]
  decide +kernel

theorem spelled_coreBefore : Spelled UnaryOperator.token UnaryOperator.operation coreBefore := by
  rw [Spelled, coreSymbols_eq]
  decide

theorem spelled_coreAfter : Spelled UnaryOperator.token UnaryOperator.operation coreAfter := by
  rw [Spelled, coreSymbols_eq]
  decide

/-- An operator behind an operand begins no longer symbol, and it does not carry the operand on. -/
theorem alone_of_mem_coreAfter {op : UnaryOperator} (hop : op ∈ coreAfter) :
    (∀ t ∈ coreSymbols, op.operation.symbol.toList <+: t → t.length ≤ op.operation.symbol.length) ∧
      ∀ rest, Ends (op.operation.symbol.toList ++ rest) := by
  have hall : ∀ op ∈ coreAfter, (∀ t ∈ coreSymbols, op.operation.symbol.toList <+: t →
      t.length ≤ op.operation.symbol.length) ∧
      op.operation.symbol.toList.head?.any (fun c => !isWordPart c && c ≠ '.') := by
    rw [coreSymbols_eq]
    decide
  obtain ⟨halone, hhead⟩ := hall op hop
  refine ⟨halone, ?_⟩
  cases hc : op.operation.symbol.toList.head? with
  | none => simp [hc] at hhead
  | some c => exact ends_of_head _ hc (by simpa [hc] using hhead)

/-- A unary expression is a chain of one operand. -/
theorem Derives.binary {g : Grammar} {ts : List Token} {n : Node} (h : g.Derives .unary ts n) :
    g.Derives .binary ts n := by
  have hchain : g.Derives .binary (ts ++ []) (OperatorTree.operand n).node :=
    .nested (.operand n) h .noOperation rfl rfl trivial
  rwa [List.append_nil] at hchain

namespace Written

variable {g : Grammar} {text other : String} {n : Node}

theorem group (h : g.Written .expression text n) :
    g.Written .primary ("(" ++ text ++ ")") n := by
  have henclosed := Phrase.enclosed "(" .lparen ")" .rparen (by decide) (by decide)
    (ends_of_head ")" rfl (by decide)) h
  apply henclosed.mono
  rintro _ ⟨opener, close, inner, rfl, hopener, hinner, hclose⟩
  exact .group hopener hinner hclose

/-- A keyword that is a literal. -/
theorem keyword {w : String} {kind : BasicKind} (hw : isWord w = true) (hkind : coreKind w = kind)
    (hderives : ∀ t : Token, t.kind = kind → g.Derives .primary [t] n) :
    g.Written .primary w n := by
  intro m rest hrest
  obtain ⟨fragment, m', htext, hcut⟩ := Cuts.word hw (fun c hc => (hrest c hc).1) m
  refine ⟨[fragment], m', hcut, hderives _ ?_⟩
  rw [coreToken, htext]
  exact hkind

theorem number {whole part letter : List Char} {value : Literal} (hwhole : Decimal.IsDigits whole)
    (hpart : Lexeme.IsFraction part) (hletter : Lexeme.IsLetter letter)
    (htext : text.toList = whole ++ part ++ letter)
    (hvalue : Literal.ofNumber? text.toList = some value) :
    g.Written .primary text (Node.literal value) := by
  intro m rest hrest
  obtain ⟨fragment, m', hfragment, hcut⟩ := Cuts.number hwhole hpart hletter htext hrest m
  refine ⟨[fragment], m', hcut, Derives.number ?_ ?_⟩
  · obtain ⟨c, cs, rfl⟩ := List.exists_cons_of_ne_nil hwhole.1
    rw [coreToken, hfragment]
    exact coreKind_of_isDigit (by rw [htext]; rfl) (hwhole.2 c List.mem_cons_self)
  · rw [coreToken, hfragment]
    exact hvalue

theorem string (s : String) : g.Written .primary (Literal.str s).text (Node.literal (.str s)) := by
  intro m rest hrest
  obtain ⟨fragment, m', hfragment, hcut⟩ := Cuts.string s rest m
  refine ⟨[fragment], m', hcut, Derives.string ?_ ?_⟩
  · rw [coreToken, hfragment, coreKind, Literal.toList_text_str]
    rfl
  · rw [coreToken, hfragment]
    exact Literal.ofQuoted_text s

theorem list {items : List Node} (h : g.WrittenItems text items) :
    g.Written .primary ("[" ++ text ++ "]") (Node.arguments items) := by
  have henclosed := Phrase.enclosed "[" .lbracket "]" .rbracket (by decide) (by decide)
    (ends_of_head "]" rfl (by decide)) h
  apply henclosed.mono
  rintro _ ⟨opener, close, inner, rfl, hopener, ⟨rfl, rfl⟩ | hitems, hclose⟩
  · exact .emptyList hopener hclose
  · exact .list hopener hitems hclose

/-- A name with steps behind it. -/
theorem reference {root : String} {steps : List Segment}
    (hroot : coreKind root = BasicKind.identifier) (hsteps : g.WrittenSteps text steps) :
    g.Written .primary (root ++ text) (Node.reference root steps) := by
  intro m rest hrest
  obtain ⟨name, m₁, rfl, hcut₁⟩ :=
    Cuts.word (isWord_of_coreKind hroot) (hsteps.head_append hrest) m
  obtain ⟨fs, m₂, hcut₂, hsteps⟩ := hsteps.written m₁ rest hrest
  refine ⟨[name] ++ fs, m₂, ?_, Derives.reference hroot hsteps⟩
  simpa only [String.toList_append, List.append_assoc] using hcut₁.append hcut₂

theorem call {root : String} {names : List String} {arguments : List Node}
    (hroot : coreKind root = BasicKind.identifier)
    (hnames : g.WrittenSteps text (names.map Segment.property))
    (harguments : g.WrittenItems other arguments) :
    g.Written .primary (root ++ text ++ ("(" ++ other ++ ")"))
      (Node.call (".".intercalate (root :: names)) arguments) := by
  have henclosed := Phrase.enclosed "(" .lparen ")" .rparen (by decide) (by decide)
    (ends_of_head ")" rfl (by decide)) harguments
  intro m rest hrest
  have hopens : Ends (("(" ++ other ++ ")").toList ++ rest) :=
    ends_of_head ("(" ++ other ++ ")") (c := '(') (by simp) (by decide) rest
  obtain ⟨name, m₁, rfl, hcut₁⟩ :=
    Cuts.word (isWord_of_coreKind hroot) (hnames.head_append hopens) m
  obtain ⟨fs, m₂, hcut₂, hnames⟩ := hnames.written m₁ _ hopens
  obtain ⟨gs, m₃, hcut₃, opener, close, inner, hgs, hopener, hinner, hclose⟩ :=
    henclosed m₂ rest hrest
  refine ⟨[name] ++ (fs ++ gs), m₃, ?_, ?_⟩
  · simpa only [String.toList_append, List.append_assoc] using hcut₁.append (hcut₂.append hcut₃)
  · rw [List.map_append, List.map_append, hgs]
    rcases hinner with ⟨rfl, rfl⟩ | harguments
    · have hcall : g.Derives .primary (coreToken name :: (fs.map coreToken ++ [opener, close]))
          (Node.call (".".intercalate (name.text :: names)) []) :=
        .emptyCall hroot hnames hopener hclose
      exact hcall
    · have hcall : g.Derives .primary
          (coreToken name :: (fs.map coreToken ++ opener :: (inner ++ [close])))
          (Node.call (".".intercalate (name.text :: names)) arguments) :=
        .call hroot hnames hopener harguments hclose
      exact hcall

theorem bare (h : g.Written .primary text n) : g.Written .unary text n :=
  h.mono fun _ => .bare

/-- An operator in front of an operand that does not carry on its symbol. -/
theorem before (hg : g.CoreOperators) {op : UnaryOperator} (hop : op ∈ g.before)
    (h : g.Written .unary text n) (hquiet : ∀ rest, Quiet (text.toList ++ rest)) :
    g.Written .unary (op.operation.symbol ++ text) (Node.unary op.operation .before n) := by
  intro m rest hrest
  rw [hg.before_eq] at hop
  obtain ⟨hmem, hne, hop⟩ := spelled_coreBefore op hop
  rw [← hg.before_eq] at hop
  obtain ⟨symbol, m₁, hsymbol, hcut₁⟩ := Cuts.symbol hmem (parted_of_quiet hne (hquiet rest)) m
  obtain ⟨fs, m₂, hcut₂, hn⟩ := h m₁ rest hrest
  rw [← hsymbol] at hop
  refine ⟨[symbol] ++ fs, m₂, ?_, Derives.before hop hn⟩
  simpa only [String.toList_append, List.append_assoc] using hcut₁.append hcut₂

theorem after (hg : g.CoreOperators) {op : UnaryOperator} (hop : op ∈ g.after)
    (h : g.Written .primary text n) :
    g.Written .unary (text ++ op.operation.symbol) (Node.unary op.operation .after n) := by
  intro m rest hrest
  rw [hg.after_eq] at hop
  obtain ⟨halone, hends⟩ := alone_of_mem_coreAfter hop
  obtain ⟨hmem, -, hop⟩ := spelled_coreAfter op hop
  rw [← hg.after_eq] at hop
  obtain ⟨fs, m₁, hcut₁, hn⟩ := h m (op.operation.symbol.toList ++ rest) (hends rest)
  obtain ⟨symbol, m₂, hsymbol, hcut₂⟩ := Cuts.symbol hmem (parted_of_alone halone rest) m₁
  rw [← hsymbol] at hop
  refine ⟨fs ++ [symbol], m₂, ?_, ?_⟩
  · simpa only [String.toList_append, List.append_assoc] using hcut₁.append hcut₂
  · have hafter : g.after? (coreToken symbol).kind = some op := hop
    simpa using Derives.after hn hafter

/-- A unary expression as a whole expression. -/
theorem plain (h : g.Written .unary text n) : g.Written .expression text n :=
  h.mono fun _ hn => .plain hn.binary

/-- An operator between two unary expressions. -/
theorem binary (hg : g.CoreOperators) {op : BinaryOperator} (hop : op ∈ g.binary)
    {left right : Node} (hleft : g.Written .unary text left) (hright : g.Written .unary other right) :
    g.Written .expression (text ++ " " ++ op.operation.symbol ++ " " ++ other)
      (Node.binary op.operation left right) := by
  intro m rest hrest
  rw [hg.binary_eq] at hop
  obtain ⟨hmem, hne, hop⟩ := spelled_coreBinary op hop
  rw [← hg.binary_eq] at hop
  have hquiet := quiet_of_head " " rfl (by decide) (other.toList ++ rest)
  obtain ⟨fs, m₁, hcut₁, hleft⟩ := hleft m
    (" ".toList ++ (op.operation.symbol.toList ++ (" ".toList ++ (other.toList ++ rest))))
    (ends_of_head " " rfl (by decide) _)
  obtain ⟨symbol, m₂, hsymbol, hcut₂⟩ :=
    Cuts.symbol hmem (parted_of_quiet hne hquiet) (m₁.step ' ')
  obtain ⟨gs, m₃, hcut₃, hright⟩ := hright (m₂.step ' ') rest hrest
  rw [← hsymbol] at hop
  refine ⟨fs ++ ([] ++ ([symbol] ++ ([] ++ gs))), m₃, ?_, ?_⟩
  · have hcuts := hcut₁.append
      ((Cuts.space m₁ _).append (hcut₂.append ((Cuts.space m₂ _).append hcut₃)))
    simpa only [String.toList_append, List.append_assoc] using hcuts
  · have hoperation : g.Derives .operations (coreToken symbol :: (gs.map coreToken ++ []))
        [(op, right)] :=
      .operation hop hright .noOperation
    have hbinary : g.Derives .binary _ (Node.binary op.operation left right) :=
      .nested (.operation op (.operand left) (.operand right)) hleft hoperation rfl rfl
        ⟨fun _ h => absurd h List.not_mem_nil, fun _ h => absurd h List.not_mem_nil, trivial, trivial⟩
    simpa using Derives.plain hbinary

/-- A condition with two branches. -/
theorem choice {condition positive negative : Node} {third : String}
    (hcondition : g.Written .unary text condition) (hpositive : g.Written .expression other positive)
    (hnegative : g.Written .expression third negative) :
    g.Written .expression (text ++ " ? " ++ other ++ " : " ++ third)
      (Node.ternary condition positive negative) := by
  intro m rest hrest
  have htext : text ++ " ? " ++ other ++ " : " ++ third =
      text ++ " " ++ "?" ++ " " ++ other ++ " " ++ ":" ++ " " ++ third := by
    rw [show " ? " = " " ++ "?" ++ " " from rfl, show " : " = " " ++ ":" ++ " " from rfl]
    simp only [String.append_assoc]
  obtain ⟨fs, m₁, hcut₁, hcondition⟩ := hcondition m (" ".toList ++ ("?".toList ++ (" ".toList ++
    (other.toList ++ (" ".toList ++ (":".toList ++ (" ".toList ++ (third.toList ++ rest))))))))
    (ends_of_head " " rfl (by decide) _)
  obtain ⟨question, m₂, hquestion, hcut₂⟩ := Cuts.mark "?" .question (by decide) (m₁.step ' ')
    (" ".toList ++ (other.toList ++ (" ".toList ++ (":".toList ++ (" ".toList ++
      (third.toList ++ rest))))))
  obtain ⟨gs, m₃, hcut₃, hpositive⟩ := hpositive (m₂.step ' ')
    (" ".toList ++ (":".toList ++ (" ".toList ++ (third.toList ++ rest))))
    (ends_of_head " " rfl (by decide) _)
  obtain ⟨colon, m₄, hcolon, hcut₄⟩ := Cuts.mark ":" .colon (by decide) (m₃.step ' ')
    (" ".toList ++ (third.toList ++ rest))
  obtain ⟨hs, m₅, hcut₅, hnegative⟩ := hnegative (m₄.step ' ') rest hrest
  refine ⟨fs ++ ([] ++ ([question] ++ ([] ++ (gs ++ ([] ++ ([colon] ++ ([] ++ hs))))))), m₅, ?_, ?_⟩
  · have hcuts₄ := hcut₄.append ((Cuts.space m₄ _).append hcut₅)
    have hcuts₂ := hcut₂.append
      ((Cuts.space m₂ _).append (hcut₃.append ((Cuts.space m₃ _).append hcuts₄)))
    have hcuts := hcut₁.append ((Cuts.space m₁ _).append hcuts₂)
    rw [htext]
    simpa only [String.toList_append, List.append_assoc] using hcuts
  · simpa using Derives.choice hcondition.binary hquestion hpositive hcolon hnegative

theorem lastArgument (h : g.Written .expression text n) : g.Written .arguments text [n] :=
  h.mono fun _ => .lastArgument

theorem argument {items : List Node} (hfirst : g.Written .expression text n)
    (hrest : g.Written .arguments other items) :
    g.Written .arguments (text ++ ", " ++ other) (n :: items) := by
  apply (Phrase.comma hfirst hrest).mono
  rintro _ ⟨comma, us, vs, rfl, hfirst, hcomma, hrest⟩
  exact .argument hfirst hcomma hrest

/-- A parameter without a default. -/
theorem required {name : String} (hname : coreKind name = BasicKind.identifier) :
    g.Written .parameter name (Parameter.mk name none) := by
  intro m rest hrest
  obtain ⟨word, m', rfl, hcut⟩ :=
    Cuts.word (isWord_of_coreKind hname) (fun c hc => (hrest c hc).1) m
  exact ⟨[word], m', hcut, Derives.required hname⟩

theorem optional {name : String} (hname : coreKind name = BasicKind.identifier)
    (hdefault : g.Written .expression text n) :
    g.Written .parameter (name ++ ": " ++ text) (Parameter.mk name (some n)) := by
  intro m rest hrest
  obtain ⟨word, m₁, rfl, hcut₁⟩ := Cuts.word (isWord_of_coreKind hname)
    (fun c hc => (ends_of_head ":" rfl (by decide) (" ".toList ++ (text.toList ++ rest)) c hc).1) m
  obtain ⟨colon, m₂, hcolon, hcut₂⟩ :=
    Cuts.mark ":" .colon (by decide) m₁ (" ".toList ++ (text.toList ++ rest))
  obtain ⟨fs, m₃, hcut₃, hdefault⟩ := hdefault (m₂.step ' ') rest hrest
  have hparameter : g.Derives .parameter (coreToken word :: coreToken colon :: fs.map coreToken)
      (Parameter.mk word.text (some n)) :=
    .optional hname hcolon hdefault
  refine ⟨[word] ++ ([colon] ++ ([] ++ fs)), m₃, ?_, ?_⟩
  · have hcuts := hcut₁.append (hcut₂.append ((Cuts.space m₂ _).append hcut₃))
    rw [show ": " = ":" ++ " " from rfl]
    simpa only [String.toList_append, List.append_assoc] using hcuts
  · simpa using hparameter

theorem lastParameter {p : Parameter} (h : g.Written .parameter text p) :
    g.Written .parameters text [p] :=
  h.mono fun _ => .lastParameter

theorem moreParameters {p : Parameter} {params : List Parameter}
    (hfirst : g.Written .parameter text p) (hrest : g.Written .parameters other params) :
    g.Written .parameters (text ++ ", " ++ other) (p :: params) := by
  apply (Phrase.comma hfirst hrest).mono
  rintro _ ⟨comma, us, vs, rfl, hfirst, hcomma, hrest⟩
  exact .moreParameters hfirst hcomma hrest

end Written

namespace WrittenSteps

variable {g : Grammar} {text other : String} {n : Node} {steps : List Segment}

theorem noStep : g.WrittenSteps "" [] where
  written := fun m _ _ => ⟨[], m, Cuts.nil, .noStep⟩
  head := fun c hc => by cases hc

theorem property {name : String} (hname : isWord name = true) (h : g.WrittenSteps text steps) :
    g.WrittenSteps ("." ++ name ++ text) (Segment.property name :: steps) where
  written := by
    intro m rest hrest
    obtain ⟨dot, m₁, hdot, hcut₁⟩ :=
      Cuts.mark "." .dot (by decide) m (name.toList ++ (text.toList ++ rest))
    obtain ⟨word, m₂, rfl, hcut₂⟩ := Cuts.word hname (h.head_append hrest) m₁
    obtain ⟨fs, m₃, hcut₃, hsteps⟩ := h.written m₂ rest hrest
    refine ⟨[dot] ++ ([word] ++ fs), m₃, ?_, Derives.property hdot hname hsteps⟩
    simpa only [String.toList_append, List.append_assoc] using hcut₁.append (hcut₂.append hcut₃)
  head := by
    rw [String.append_assoc, String.toList_append]
    exact forall_head_append "." rfl (by decide) _

theorem index (hindex : g.Written .expression other n) (h : g.WrittenSteps text steps) :
    g.WrittenSteps ("[" ++ other ++ "]" ++ text) (Segment.index n :: steps) where
  written := by
    intro m rest hrest
    obtain ⟨opener, m₁, hopener, hcut₁⟩ :=
      Cuts.mark "[" .lbracket (by decide) m (other.toList ++ ("]".toList ++ (text.toList ++ rest)))
    obtain ⟨fs, m₂, hcut₂, hindex⟩ := hindex m₁ _ (ends_of_head "]" rfl (by decide) _)
    obtain ⟨close, m₃, hclose, hcut₃⟩ :=
      Cuts.mark "]" .rbracket (by decide) m₂ (text.toList ++ rest)
    obtain ⟨gs, m₄, hcut₄, hsteps⟩ := h.written m₃ rest hrest
    refine ⟨[opener] ++ (fs ++ ([close] ++ gs)), m₄, ?_, ?_⟩
    · have hcuts := hcut₁.append (hcut₂.append (hcut₃.append hcut₄))
      simpa only [String.toList_append, List.append_assoc] using hcuts
    · simpa using Derives.index hopener hindex hclose hsteps
  head := by
    rw [String.append_assoc, String.append_assoc, String.toList_append]
    exact forall_head_append "[" rfl (by decide) _

end WrittenSteps

end Grammar

end ExprLang
