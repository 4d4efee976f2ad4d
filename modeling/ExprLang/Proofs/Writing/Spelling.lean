import ExprLang.Proofs.Writing.Printing
import ExprLang.Proofs.Writing.RoundTrip
import ExprLang.Proofs.Writing.Words

/-!
# Spelling of trees

The text of a tree is cut into words, and from these words the tree is read.  There are two limits.
An operator that stands behind an operand with an operator in front is read as if it stood behind
what that other operator is applied to; and an infinite double is printed as a name.  `Node.Clear`
leaves out both.
-/

namespace ExprLang

open Text Lexer Fragment

/-! ## Words of a text -/

/-- Wherever the text stands, if nothing behind it carries it on, it is cut into the words. -/
def Spells (text : String) (ws : List String) : Prop :=
  Phrase text fun ts => ts.map Token.text = ws

namespace Spells

variable {text other : String} {ws us : List String}

theorem empty : Spells "" [] :=
  Phrase.empty rfl

/-- A word in front of a text, if it is cut there. -/
theorem cons {w : String} (h : Spells text ws) (hcut : ∀ rest, Ends rest → ∀ m, ∃ fragment m',
    fragment.text = w ∧ Cuts m (w.toList ++ (text.toList ++ rest)) [fragment] m'
      (text.toList ++ rest)) : Spells (w ++ text) (w :: ws) := by
  intro m rest hrest
  obtain ⟨fragment, m₁, rfl, hcut₁⟩ := hcut rest hrest m
  obtain ⟨fs, m₂, hcut₂, hws⟩ := h m₁ rest hrest
  refine ⟨[fragment] ++ fs, m₂, ?_, ?_⟩
  · simpa only [String.toList_append, List.append_assoc] using hcut₁.append hcut₂
  · exact congrArg (fragment.text :: ·) hws

/-- A word alone. -/
theorem single {w : String} (hcut : ∀ rest, Ends rest → ∀ m, ∃ fragment m',
    fragment.text = w ∧ Cuts m (w.toList ++ rest) [fragment] m' rest) : Spells w [w] := by
  simpa using empty.cons hcut

/-- An identifier or a keyword in front of a text that does not carry it on. -/
theorem word {w : String} (hw : isWord w = true) (h : Spells text ws)
    (hhead : ∀ rest, Ends rest → ∀ c ∈ (text.toList ++ rest).head?, isWordPart c = false) :
    Spells (w ++ text) (w :: ws) :=
  h.cons fun rest hrest => Cuts.word hw (hhead rest hrest)

/-- A symbol in front of a text that does not carry it on. -/
theorem symbol {s : String} (hs : s.toList ∈ coreSymbols)
    (hparted : ∀ rest, Parted s (text.toList ++ rest)) (h : Spells text ws) :
    Spells (s ++ text) (s :: ws) :=
  h.cons fun rest _ => Cuts.symbol hs (hparted rest)

/-- A symbol that begins no longer one. -/
theorem mark (s : String) (kind : BasicKind) (hs : (s, kind) ∈ punctuation) (h : Spells text ws) :
    Spells (s ++ text) (s :: ws) := by
  obtain ⟨hmem, halone, -⟩ := punctuation_spec _ hs
  exact h.symbol hmem fun rest => parted_of_alone halone _

theorem space (h : Spells text ws) : Spells (" " ++ text) ws := by
  intro m rest hrest
  obtain ⟨fs, m', hcut, hws⟩ := h (m.step ' ') rest hrest
  refine ⟨[] ++ fs, m', ?_, hws⟩
  simpa only [String.toList_append, List.append_assoc] using (Cuts.space m _).append hcut

/-- A text in front of one that does not carry it on. -/
theorem append (h : Spells text ws) (h' : Spells other us)
    (hends : ∀ rest, Ends (other.toList ++ rest)) : Spells (text ++ other) (ws ++ us) := by
  intro m rest hrest
  obtain ⟨fs, m₁, hcut₁, hws⟩ := h m (other.toList ++ rest) (hends rest)
  obtain ⟨gs, m₂, hcut₂, hus⟩ := h' m₁ rest hrest
  refine ⟨fs ++ gs, m₂, ?_, ?_⟩
  · simpa only [String.toList_append, List.append_assoc] using hcut₁.append hcut₂
  · simp [hws, hus]

/-- A text with a symbol or a blank character behind it. -/
theorem append_of_head (h : Spells text ws) {s : String} {c : Char} (h' : Spells (s ++ other) us)
    (hs : s.toList.head? = some c) (hc : isWordPart c = false ∧ c ≠ '.') :
    Spells (text ++ (s ++ other)) (ws ++ us) := by
  apply h.append h'
  intro rest
  rw [String.toList_append, List.append_assoc]
  exact ends_of_head s hs hc _

/-- A text with a closing symbol behind it. -/
theorem close (h : Spells text ws) {s : String} (hs : s = ")" ∨ s = "]") :
    Spells (text ++ s) (ws ++ [s]) := by
  have hmark (kind : BasicKind) (hmem : (s, kind) ∈ punctuation) : Spells s [s] := by
    simpa using empty.mark s kind hmem
  rcases hs with rfl | rfl
  · exact h.append (hmark .rparen (by decide)) (ends_of_head ")" rfl (by decide))
  · exact h.append (hmark .rbracket (by decide)) (ends_of_head "]" rfl (by decide))

end Spells

/-! ## Trees that show in their texts -/

mutual
/-- Whether no operator stands behind an operand that has an operator in front, and no double is
infinite. -/
def Node.Clear : Node → Prop
  | .literal value => value.Bounded
  | .name _ _ => True
  | .path segments => Segment.ClearAll segments
  | .unary _ .before operand => operand.Clear
  | .unary _ .after operand => operand.isPrefixed = false ∧ operand.Clear
  | .binary _ left right => left.Clear ∧ right.Clear
  | .ternary condition positive negative => condition.Clear ∧ positive.Clear ∧ negative.Clear
  | .call _ arguments => Node.ClearAll arguments
  | .arguments items => Node.ClearAll items
  | .parameters params => Parameter.ClearAll params

def Node.ClearAll : List Node → Prop
  | [] => True
  | n :: rest => n.Clear ∧ Node.ClearAll rest

def Segment.ClearAll : List Segment → Prop
  | [] => True
  | .property _ :: rest => Segment.ClearAll rest
  | .index n :: rest => n.Clear ∧ Segment.ClearAll rest

def Parameter.ClearAll : List Parameter → Prop
  | [] => True
  | .mk _ none :: rest => Parameter.ClearAll rest
  | .mk _ (some n) :: rest => n.Clear ∧ Parameter.ClearAll rest
end

theorem Node.clearAll_of_clear_reference {root : String} {steps : List Segment}
    (h : (Node.reference root steps).Clear) : Segment.ClearAll steps := by
  cases steps with
  | nil => trivial
  | cons first rest => simpa [Node.reference, Node.Clear, Segment.ClearAll] using h

theorem Segment.clearAll_names (names : List String) :
    Segment.ClearAll (names.map Segment.property) := by
  induction names with
  | nil => trivial
  | cons name rest ih => simpa [Segment.ClearAll] using ih

namespace Grammar

/-- Whether the next word carries on no name. -/
def Stops (ws : List String) : Prop :=
  ∀ kind ∈ [BasicKind.dot, .lbracket, .lparen], leading ws ≠ kind

/-- Whether the next word carries on no operand. -/
structure Closes (g : Grammar) (ws : List String) : Prop where
  stops : Stops ws
  after? : g.after? (leading ws) = none

variable {g : Grammar} {n : Node} {ws us vs : List String}

theorem behind_eq {rest : List String} (h : g.after? (leading rest) = none) :
    g.behind n rest = (n, rest) := by
  cases rest with
  | nil => rfl
  | cons w rest =>
    rw [leading_cons] at h
    rw [behind, h]

theorem Distinct.closes (hg : g.Distinct) {kind : BasicKind} {rest : List String}
    (hrest : leading rest = kind)
    (hkind : kind ∈ [BasicKind.rparen, .rbracket, .comma, .colon, .question, .eof]) :
    g.Closes rest := by
  have hall : ∀ kind ∈ [BasicKind.rparen, .rbracket, .comma, .colon, .question, .eof],
      kind ∈ fixedKinds ∧ ∀ other ∈ [BasicKind.dot, .lbracket, .lparen],
        (kind : TokenKind) ≠ other := by decide
  obtain ⟨hfixed, hne⟩ := hall kind hkind
  rw [← hrest] at hne
  refine ⟨hne, ?_⟩
  rw [hrest]
  exact hg.after?_fixed kind hfixed

theorem stops_of_some {α : Type} {find : TokenKind → Option α} {op : α}
    (hfixed : ∀ kind ∈ fixedKinds, find kind = none) {w : String}
    (hop : find (coreKind w) = some op) (rest : List String) : Stops (w :: rest) := by
  have hall : ∀ kind ∈ [BasicKind.dot, .lbracket, .lparen], kind ∈ fixedKinds := by decide
  exact fun kind hkind => ne_fixed_of_some hfixed hop kind (hall kind hkind)

theorem Distinct.closes_binary (hg : g.Distinct) {w : String} {op : BinaryOperator}
    (hop : g.binary? (coreKind w) = some op) (rest : List String) : g.Closes (w :: rest) :=
  ⟨stops_of_some hg.binary?_fixed hop rest, hg.after?_binary _ _ hop⟩

theorem coreKind_of_mem_punctuation (entry : String × BasicKind) (h : entry ∈ punctuation) :
    coreKind entry.1 = entry.2 :=
  (punctuation_spec entry h).2.2

/-- The text of the node is cut into the words, and the node is read from them.  If the node has no
operator in front, operators behind the words belong to it. -/
structure Legible (g : Grammar) (n : Node) (ws : List String) : Prop where
  spells : Spells n.text ws
  reads : ∀ rest, g.Closes rest → g.Reads .unary (ws ++ rest) n rest
  quiet : n.isPrefixed = false → ∀ rest, Quiet (n.text.toList ++ rest)
  carried : n.isPrefixed = false → ∀ rest, Stops rest →
    g.Reads .unary (ws ++ rest) (g.behind n rest).1 (g.behind n rest).2

/-- The text of the steps is cut into the words, and the steps are read from them. -/
structure LegibleSteps (g : Grammar) (steps : List Segment) (ws : List String) : Prop where
  spells : Spells (Segment.texts steps) ws
  head : ∀ rest, Ends rest →
    ∀ c ∈ ((Segment.texts steps).toList ++ rest).head?, isWordPart c = false
  reads : ∀ rest, leading rest ≠ BasicKind.dot → leading rest ≠ BasicKind.lbracket →
    g.Reads .steps (ws ++ rest) steps rest

/-- The text of the items is cut into the words, and the items are read from them. -/
structure LegibleItems (g : Grammar) (items : List Node) (ws : List String) : Prop where
  spells : Spells (commaSeparated (Node.texts items)) ws
  reads : ∀ rest, leading rest = BasicKind.rparen ∨ leading rest = BasicKind.rbracket →
    g.Reads .arguments (ws ++ rest) items rest

namespace Legible

theorem of_primary (hspells : Spells n.text ws) (hquiet : ∀ rest, Quiet (n.text.toList ++ rest))
    (hreads : ∀ rest, Stops rest → g.Reads .primary (ws ++ rest) n rest) : g.Legible n ws where
  spells := hspells
  reads rest hrest := by
    have hbare := Reads.bare (hreads rest hrest.stops)
    rwa [behind_eq hrest.after?] at hbare
  quiet _ := hquiet
  carried _ rest hrest := .bare (hreads rest hrest)

/-- A node whose text has a word in front. -/
theorem of_word (w text : String) (hw : isWord w = true) (htext : n.text = w ++ text)
    (hspells : Spells (w ++ text) ws)
    (hreads : ∀ rest, Stops rest → g.Reads .primary (ws ++ rest) n rest) : g.Legible n ws := by
  rw [← htext] at hspells
  refine of_primary hspells ?_ hreads
  unfold isWord at hw
  cases hcs : w.toList with
  | nil =>
    rw [hcs] at hw
    cases hw
  | cons c cs =>
    rw [hcs, Bool.and_eq_true] at hw
    apply quiet_of_isWordPart n.text _ (isWordPart_of_isWordStart hw.1)
    rw [htext, String.toList_append, hcs]
    rfl

theorem keyword (value : Literal) (hw : isWord value.text = true)
    (hvalue : literal? value.text = some value) : g.Legible (.literal value) [value.text] := by
  refine of_word value.text "" hw ?_ (.word hw .empty ?_) fun rest _ => .literal hvalue
  · rw [Node.text, String.append_empty]
  · exact fun rest hrest c hc => (hrest c hc).1

theorem number {whole part letter : List Char} {value : Literal} (hwhole : Decimal.IsDigits whole)
    (hpart : Lexeme.IsFraction part) (hletter : Lexeme.IsLetter letter)
    (htext : value.text.toList = whole ++ part ++ letter)
    (hvalue : Literal.ofNumber? value.text.toList = some value) :
    g.Legible (.literal value) [value.text] := by
  obtain ⟨c, cs, rfl⟩ := List.exists_cons_of_ne_nil hwhole.1
  have hdigit := hwhole.2 c List.mem_cons_self
  have hkind : coreKind value.text = BasicKind.number :=
    coreKind_of_isDigit (by rw [htext]; rfl) hdigit
  have hliteral : literal? value.text = some value := by
    rw [literal?, hkind]
    exact hvalue
  refine of_primary ?_ ?_ fun rest _ => .literal hliteral
  · rw [Node.text]
    exact .single fun rest hrest => Cuts.number hwhole hpart hletter htext hrest
  · apply quiet_of_isWordPart _ _ (isWordPart_of_isDigit hdigit)
    rw [Node.text, htext]
    rfl

theorem string (s : String) : g.Legible (.literal (.str s)) [(Literal.str s).text] := by
  have hkind : coreKind (Literal.str s).text = BasicKind.string := by
    rw [coreKind, Literal.toList_text_str]
    rfl
  have hliteral : literal? (Literal.str s).text = some (.str s) := by
    rw [literal?, hkind]
    exact congrArg Except.toOption (Literal.ofQuoted_text s)
  refine of_primary ?_ ?_ fun rest _ => .literal hliteral
  · rw [Node.text]
    exact .single fun rest _ => Cuts.string s rest
  · apply quiet_of_head _ (c := '\'') _ (by decide)
    rw [Node.text, Literal.toList_text_str]
    rfl

/-- A literal of a source is legible if it is no infinite double. -/
theorem literal {value : Literal} (hreadable : value.Readable) (hbounded : value.Bounded) :
    ∃ ws, g.Legible (.literal value) ws := by
  cases value with
  | null =>
    obtain ⟨hword, hkind⟩ := keyword_null
    exact ⟨_, keyword .null hword (by simp [literal?, Literal.text, hkind])⟩
  | bool b =>
    obtain ⟨hword, hkind⟩ := keyword_bool b
    have hvalue : literal? (Literal.bool b).text = some (.bool b) := by
      cases b <;> simp [literal?, hkind]
    exact ⟨_, keyword _ hword hvalue⟩
  | int k =>
    exact ⟨_, number (Literal.isDigits_repr_toInt hreadable) .none .none (by simp [Literal.text])
      (Literal.ofNumber?_int hreadable)⟩
  | long k =>
    exact ⟨_, number (Literal.isDigits_repr_toInt hreadable) .none .wide (by simp [Literal.text])
      (Literal.ofNumber?_long k)⟩
  | double d =>
    rcases hreadable with hinfinite | ⟨m, e, hfinite⟩
    · exact absurd hinfinite (hbounded false)
    · obtain ⟨whole, fraction, htext, hwhole, hfraction, -⟩ := Decimal.write_plainDouble hfinite
      exact ⟨_, number hwhole (.digits hfraction) .none (by simp [Literal.text, htext])
        (Literal.ofNumber?_double hfinite)⟩
  | char c => exact absurd hreadable id
  | str s => exact ⟨_, string s⟩

theorem before (hcore : g.CoreOperators) (hg : g.Distinct) {op : UnaryOperator}
    (hop : op ∈ g.before) (h : g.Legible n ws) :
    ∃ us, g.Legible (.unary op.operation .before n) us := by
  rw [hcore.before_eq] at hop
  obtain ⟨hmem, hne, hop⟩ := spelled_coreBefore op hop
  rw [← hcore.before_eq] at hop
  suffices hspelled : ∃ us, Spells (Node.unary op.operation .before n).text
      (op.operation.symbol :: us) ∧ ∀ rest, g.Closes rest → g.Reads .unary (us ++ rest) n rest by
    obtain ⟨us, hspells, hreads⟩ := hspelled
    exact ⟨_, hspells, fun rest hrest => .before hop (hreads rest hrest),
      fun hprefixed => (by cases hprefixed), fun hprefixed => (by cases hprefixed)⟩
  by_cases hprefixed : n.isPrefixed = true
  · refine ⟨"(" :: (ws ++ [")"]), ?_, ?_⟩
    · have hgroup := (h.spells.close (.inl rfl)).mark "(" .lparen (by decide)
      have hquiet (rest : List Char) :=
        quiet_of_head ("(" ++ (n.text ++ ")")) (c := '(') (by simp) (by decide) rest
      rw [Node.text, if_pos hprefixed]
      simp only [String.append_assoc]
      exact hgroup.symbol hmem fun rest => parted_of_quiet hne (hquiet rest)
    · intro rest hrest
      have hclose := coreKind_of_mem_punctuation (")", .rparen) (by decide)
      have hinner := h.reads (")" :: rest) (hg.closes hclose (by decide))
      have hgroup := Reads.bare
        (.group (coreKind_of_mem_punctuation ("(", .lparen) (by decide)) hinner hclose)
      rw [behind_eq hrest.after?] at hgroup
      simpa using hgroup
  · refine ⟨ws, ?_, h.reads⟩
    rw [Node.text, if_neg hprefixed]
    exact h.spells.symbol hmem fun rest =>
      parted_of_quiet hne (h.quiet (Bool.eq_false_iff.2 hprefixed) rest)

theorem after (hcore : g.CoreOperators) (hg : g.Distinct) {op : UnaryOperator} (hop : op ∈ g.after)
    (h : g.Legible n ws) (hn : n.isPrefixed = false) :
    g.Legible (.unary op.operation .after n) (ws ++ [op.operation.symbol]) := by
  rw [hcore.after_eq] at hop
  obtain ⟨halone, hends⟩ := alone_of_mem_coreAfter hop
  obtain ⟨hmem, -, hop⟩ := spelled_coreAfter op hop
  rw [← hcore.after_eq] at hop
  have hcarried (rest : List String) : g.Reads .unary (ws ++ [op.operation.symbol] ++ rest)
      (g.behind (.unary op.operation .after n) rest).1
      (g.behind (.unary op.operation .after n) rest).2 := by
    have hn := h.carried hn (op.operation.symbol :: rest) (stops_of_some hg.after?_fixed hop rest)
    have hbehind : g.behind n (op.operation.symbol :: rest) =
        g.behind (.unary op.operation .after n) rest := by
      rw [behind, show g.after? (coreKind op.operation.symbol) = some op from hop]
    rw [hbehind] at hn
    simpa using hn
  refine ⟨?_, ?_, ?_, fun _ rest _ => hcarried rest⟩
  · rw [Node.text]
    have hsymbol : Spells op.operation.symbol [op.operation.symbol] :=
      .single fun rest _ => Cuts.symbol hmem (parted_of_alone halone rest)
    exact h.spells.append hsymbol hends
  · intro rest hrest
    have hreads := hcarried rest
    rwa [behind_eq hrest.after?] at hreads
  · intro _ rest
    rw [Node.text, String.toList_append, List.append_assoc]
    exact h.quiet hn _

/-- A node that is printed between brackets. -/
theorem of_opener {s text : String} {c : Char} (hs : s.toList.head? = some c)
    (hc : c ∉ ['+', '-', '=', '&', '|']) (htext : n.text = s ++ text)
    (hspells : Spells (s ++ text) ws)
    (hreads : ∀ rest, Stops rest → g.Reads .primary (ws ++ rest) n rest) : g.Legible n ws := by
  rw [← htext] at hspells
  refine of_primary hspells (quiet_of_head n.text ?_ hc) hreads
  rw [htext, String.toList_append, List.head?_append, hs]
  rfl

theorem binary (hcore : g.CoreOperators) (hg : g.Distinct) {op : BinaryOperator}
    (hop : op ∈ g.binary) {left right : Node} (hleft : g.Legible left us)
    (hright : g.Legible right vs) : g.Legible (.binary op.operation left right)
      ("(" :: (us ++ op.operation.symbol :: (vs ++ [")"]))) := by
  rw [hcore.binary_eq] at hop
  obtain ⟨hmem, hne, hop⟩ := spelled_coreBinary op hop
  rw [← hcore.binary_eq] at hop
  have hopener := coreKind_of_mem_punctuation ("(", .lparen) (by decide)
  have hclose := coreKind_of_mem_punctuation (")", .rparen) (by decide)
  have hsymbol := (hright.spells.close (.inl rfl)).space.symbol hmem fun rest => by
    rw [String.toList_append, List.append_assoc]
    exact parted_of_quiet hne (quiet_of_head " " rfl (by decide) _)
  have hspells := hleft.spells.append_of_head hsymbol.space rfl (by decide)
  refine of_opener rfl (by decide) ?_ (hspells.mark "(" .lparen (by decide)) ?_
  · simp only [Node.text, String.append_assoc]
  · intro rest _
    have hsecond := hright.reads (")" :: rest) (hg.closes hclose (by decide))
    have hfirst := hleft.reads (op.operation.symbol :: (vs ++ ")" :: rest))
      (hg.closes_binary hop _)
    simpa using Reads.binary hopener hfirst hop hsecond hclose

theorem ternary (hg : g.Distinct) {condition positive negative : Node}
    (hcondition : g.Legible condition us) (hpositive : g.Legible positive vs)
    (hnegative : g.Legible negative ws) : g.Legible (.ternary condition positive negative)
      ("(" :: (us ++ "?" :: (vs ++ ":" :: (ws ++ [")"])))) := by
  have hopener := coreKind_of_mem_punctuation ("(", .lparen) (by decide)
  have hquestion := coreKind_of_mem_punctuation ("?", .question) (by decide)
  have hcolon := coreKind_of_mem_punctuation (":", .colon) (by decide)
  have hclose := coreKind_of_mem_punctuation (")", .rparen) (by decide)
  have hbehind := (hnegative.spells.close (.inl rfl)).space.mark ":" .colon (by decide)
  have hbranches := hpositive.spells.append_of_head hbehind.space rfl (by decide)
  have hchoice := hbranches.space.mark "?" .question (by decide)
  have hspells := hcondition.spells.append_of_head hchoice.space rfl (by decide)
  refine of_opener rfl (by decide) ?_ (hspells.mark "(" .lparen (by decide)) ?_
  · simp only [Node.text, String.append_assoc, show " ? " = " " ++ ("?" ++ " ") from rfl,
      show " : " = " " ++ (":" ++ " ") from rfl]
  · intro rest _
    have hthird := hnegative.reads (")" :: rest) (hg.closes hclose (by decide))
    have hsecond := hpositive.reads (":" :: (ws ++ ")" :: rest)) (hg.closes hcolon (by decide))
    have hfirst := hcondition.reads ("?" :: (vs ++ ":" :: (ws ++ ")" :: rest)))
      (hg.closes hquestion (by decide))
    simpa using Reads.choice hopener hfirst hquestion hsecond hcolon hthird hclose

theorem list {items : List Node} (h : g.LegibleItems items ws) :
    g.Legible (.arguments items) ("[" :: (ws ++ ["]"])) := by
  have hopener := coreKind_of_mem_punctuation ("[", .lbracket) (by decide)
  have hclose := coreKind_of_mem_punctuation ("]", .rbracket) (by decide)
  have hspells := (h.spells.close (.inr rfl)).mark "[" .lbracket (by decide)
  refine of_opener rfl (by decide) ?_ hspells ?_
  · simp only [Node.text, String.append_assoc]
  · intro rest _
    simpa using Reads.list hopener (h.reads ("]" :: rest) (.inr hclose)) hclose

theorem reference {root : String} {steps : List Segment}
    (hroot : coreKind root = BasicKind.identifier) (h : g.LegibleSteps steps ws) :
    g.Legible (Node.reference root steps) (root :: ws) := by
  have hw := isWord_of_coreKind hroot
  refine of_word _ _ hw (Node.text_reference root steps) (h.spells.word hw h.head) ?_
  intro rest hrest
  have hsteps := h.reads rest (hrest _ (by decide)) (hrest _ (by decide))
  exact .reference hroot hsteps (hrest _ (by decide))

theorem call {root : String} {names : List String} {arguments : List Node}
    (hroot : coreKind root = BasicKind.identifier)
    (hnames : g.LegibleSteps (names.map Segment.property) us)
    (harguments : g.LegibleItems arguments vs) :
    g.Legible (.call (".".intercalate (root :: names)) arguments)
      (root :: (us ++ "(" :: (vs ++ [")"]))) := by
  have hw := isWord_of_coreKind hroot
  have hopener := coreKind_of_mem_punctuation ("(", .lparen) (by decide)
  have hclose := coreKind_of_mem_punctuation (")", .rparen) (by decide)
  have hlast := (harguments.spells.close (.inl rfl)).mark "(" .lparen (by decide)
  have hbehind := hnames.spells.append_of_head hlast rfl (by decide)
  rw [Segment.intercalate_names]
  refine of_word _ _ hw ?_ (hbehind.word hw ?_) ?_
  · simp only [Node.text, String.append_assoc]
  · intro rest _
    rw [String.toList_append, List.append_assoc, String.toList_append, List.append_assoc]
    exact hnames.head _ (ends_of_head "(" rfl (by decide) _)
  · intro rest _
    have hnames := hnames.reads ("(" :: (vs ++ ")" :: rest)) (by simp [hopener]) (by simp [hopener])
    have harguments := harguments.reads (")" :: rest) (.inl hclose)
    simpa using Reads.call hroot hnames hopener harguments hclose

end Legible

namespace LegibleSteps

variable {steps : List Segment}

theorem noStep : g.LegibleSteps [] [] where
  spells := .empty
  head _ hrest c hc := (hrest c hc).1
  reads _ hdot hopener := .noStep hdot hopener

theorem property {name : String} (hname : isWord name = true) (h : g.LegibleSteps steps ws) :
    g.LegibleSteps (.property name :: steps) ("." :: name :: ws) where
  spells := by
    rw [Segment.texts, String.append_assoc]
    exact (h.spells.word hname h.head).mark "." .dot (by decide)
  head rest _ := by
    rw [Segment.texts, String.append_assoc, String.toList_append, List.append_assoc]
    exact forall_head_append "." rfl (by decide) _
  reads rest hdot hopener :=
    .property (coreKind_of_mem_punctuation (".", .dot) (by decide)) (h.reads rest hdot hopener)

theorem index (hg : g.Distinct) (hindex : g.Legible n us) (h : g.LegibleSteps steps ws) :
    g.LegibleSteps (.index n :: steps) ("[" :: (us ++ "]" :: ws)) where
  spells := by
    rw [Segment.texts]
    simp only [String.append_assoc]
    have hbehind := h.spells.mark "]" .rbracket (by decide)
    exact (hindex.spells.append_of_head hbehind rfl (by decide)).mark "[" .lbracket (by decide)
  head rest _ := by
    rw [Segment.texts, String.append_assoc, String.append_assoc, String.toList_append,
      List.append_assoc]
    exact forall_head_append "[" rfl (by decide) _
  reads rest hdot hopener := by
    have hclose := coreKind_of_mem_punctuation ("]", .rbracket) (by decide)
    have hinner := hindex.reads ("]" :: (ws ++ rest)) (hg.closes hclose (by decide))
    have hreads := Reads.index (coreKind_of_mem_punctuation ("[", .lbracket) (by decide)) hinner
      hclose (h.reads rest hdot hopener)
    simpa using hreads

end LegibleSteps

namespace LegibleItems

variable {items : List Node}

theorem noItem : g.LegibleItems [] [] where
  spells := .empty
  reads _ hclose := .noArgument hclose

theorem last (hg : g.Distinct) (h : g.Legible n ws) : g.LegibleItems [n] ws where
  spells := by
    rw [Node.texts, Node.texts, commaSeparated_singleton]
    exact h.spells
  reads rest hclose := by
    refine .lastArgument (h.reads rest ?_) ?_
    · exact hclose.elim (fun hclose => hg.closes hclose (by decide))
        fun hclose => hg.closes hclose (by decide)
    · rcases hclose with hclose | hclose <;> simp [hclose]

theorem more (hg : g.Distinct) (hfirst : g.Legible n us) (hne : Node.texts items ≠ [])
    (h : g.LegibleItems items ws) : g.LegibleItems (n :: items) (us ++ "," :: ws) where
  spells := by
    rw [Node.texts, commaSeparated_cons _ hne, show ", " = "," ++ " " from rfl]
    simp only [String.append_assoc]
    have hbehind := h.spells.space.mark "," .comma (by decide)
    exact hfirst.spells.append_of_head hbehind rfl (by decide)
  reads rest hclose := by
    have hcomma := coreKind_of_mem_punctuation (",", .comma) (by decide)
    have hreads := Reads.argument
      (hfirst.reads ("," :: (ws ++ rest)) (hg.closes hcomma (by decide))) hcomma
      (h.reads rest hclose)
    simpa using hreads

end LegibleItems

end Grammar

end ExprLang
