import ExprLang.Proofs.Writing.Phrases

/-!
# Printed trees

The text of a tree is written for the tree, for all trees that are derived from core tokens.  There
are two limits.  Behind a unary node the text of an operator does not stand for the same tree again,
since a unary node is printed without parentheses; and an infinite double is printed as a word.
`Node.Tidy` leaves out both.
-/

namespace ExprLang

open Text Lexer Fragment

/-- Whether the literal is no infinite double. -/
def Literal.Bounded : Literal → Prop
  | .double d => ∀ negative, Decimal.decode d ≠ .infinite negative
  | _ => True

def Node.isUnary : Node → Bool
  | .unary _ _ _ => true
  | _ => false

theorem Node.isPrefixed_of_isUnary {n : Node} (h : n.isUnary = false) : n.isPrefixed = false := by
  cases n with
  | unary => cases h
  | _ => rfl

mutual
/-- Whether no operator stands behind a unary node and no double is infinite. -/
def Node.Tidy : Node → Prop
  | .literal value => value.Bounded
  | .name _ _ => True
  | .path segments => Segment.TidyAll segments
  | .unary _ .before operand => operand.Tidy
  | .unary _ .after operand => operand.isUnary = false ∧ operand.Tidy
  | .binary _ left right => left.Tidy ∧ right.Tidy
  | .ternary condition positive negative => condition.Tidy ∧ positive.Tidy ∧ negative.Tidy
  | .call _ arguments => Node.TidyAll arguments
  | .arguments items => Node.TidyAll items
  | .parameters params => Parameter.TidyAll params

def Node.TidyAll : List Node → Prop
  | [] => True
  | n :: rest => n.Tidy ∧ Node.TidyAll rest

def Segment.TidyAll : List Segment → Prop
  | [] => True
  | .property _ :: rest => Segment.TidyAll rest
  | .index n :: rest => n.Tidy ∧ Segment.TidyAll rest

def Parameter.Tidy : Parameter → Prop
  | .mk _ none => True
  | .mk _ (some n) => n.Tidy

def Parameter.TidyAll : List Parameter → Prop
  | [] => True
  | p :: rest => p.Tidy ∧ Parameter.TidyAll rest
end

def Parameter.text : Parameter → String
  | .mk name none => name
  | .mk name (some n) => name ++ ": " ++ n.text

theorem Parameter.texts_cons (p : Parameter) (rest : List Parameter) :
    Parameter.texts (p :: rest) = p.text :: Parameter.texts rest := by
  obtain ⟨name, default⟩ := p
  cases default <;> rfl

theorem commaSeparated_cons (first : String) {rest : List String} (hrest : rest ≠ []) :
    commaSeparated (first :: rest) = first ++ ", " ++ commaSeparated rest := by
  obtain ⟨second, others, rfl⟩ := List.exists_cons_of_ne_nil hrest
  exact String.intercalate_cons_cons

theorem commaSeparated_singleton (text : String) : commaSeparated [text] = text :=
  String.intercalate_singleton

theorem Node.text_reference (root : String) (steps : List Segment) :
    (Node.reference root steps).text = root ++ Segment.texts steps := by
  cases steps with
  | nil => simp [Node.reference, Node.text, Segment.texts]
  | cons first rest => simp [Node.reference, Node.text, Segment.rootText]

theorem Node.tidyAll_of_tidy_reference {root : String} {steps : List Segment}
    (h : (Node.reference root steps).Tidy) : Segment.TidyAll steps := by
  cases steps with
  | nil => trivial
  | cons first rest => simpa [Node.reference, Node.Tidy, Segment.TidyAll] using h

/-- The name of a call is written like a reference without indices. -/
theorem Segment.intercalate_names (root : String) (names : List String) :
    ".".intercalate (root :: names) = root ++ Segment.texts (names.map Segment.property) := by
  induction names generalizing root with
  | nil => simp [Segment.texts]
  | cons name rest ih =>
    rw [String.intercalate_cons_cons, ih, List.map_cons, Segment.texts]
    simp only [String.append_assoc]

theorem Segment.tidyAll_names (names : List String) :
    Segment.TidyAll (names.map Segment.property) := by
  induction names with
  | nil => trivial
  | cons name rest ih => simpa [Segment.TidyAll] using ih

namespace Grammar

/-- The text of the node is written for the node, with parentheses around it unless it is a unary
node. -/
structure Prints (g : Grammar) (n : Node) : Prop where
  unary : g.Written .unary n.text n
  primary : n.isUnary = false → g.Written .primary n.text n
  quiet : n.isPrefixed = false → ∀ rest, Quiet (n.text.toList ++ rest)

/-- What the text of a meaning is written for. -/
def PrintsMeaning (g : Grammar) : (part : Part) → part.Meaning → Prop
  | .expression, n | .binary, n | .unary, n | .primary, n => Node.Tidy n → g.Prints n
  | .operations, rest => ∀ x ∈ rest, x.1 ∈ g.binary ∧ (Node.Tidy x.2 → g.Prints x.2)
  | .steps, steps => Segment.TidyAll steps → g.WrittenSteps (Segment.texts steps) steps
  | .arguments, items => Node.texts items ≠ [] ∧ (Node.TidyAll items →
      g.Written .arguments (commaSeparated (Node.texts items)) items)
  | .parameter, p => Parameter.Tidy p → g.Written .parameter (Parameter.text p) p
  | .parameters, params => Parameter.texts params ≠ [] ∧ (Parameter.TidyAll params →
      g.Written .parameters (commaSeparated (Parameter.texts params)) params)

variable {g : Grammar} {n : Node} {text : String}

namespace Prints

theorem expression (h : g.Prints n) : g.Written .expression n.text n :=
  .plain h.unary

theorem of_primary (h : g.Written .primary n.text n)
    (hquiet : ∀ rest, Quiet (n.text.toList ++ rest)) : g.Prints n :=
  ⟨.bare h, fun _ => h, fun _ => hquiet⟩

/-- A node that is printed in parentheses. -/
theorem of_group (h : g.Written .expression text n) (htext : n.text = "(" ++ text ++ ")") :
    g.Prints n := by
  have hgroup : g.Written .primary n.text n := by
    rw [htext]
    exact .group h
  refine of_primary hgroup (quiet_of_head n.text (c := '(') ?_ (by decide))
  rw [htext]
  simp

/-- A node that is printed with a word in front. -/
theorem of_word {w : String} (hw : isWord w = true) (h : g.Written .primary n.text n)
    (htext : w.toList <+: n.text.toList) : g.Prints n := by
  obtain ⟨rest, hrest⟩ := htext
  unfold isWord at hw
  cases hcs : w.toList with
  | nil =>
    rw [hcs] at hw
    cases hw
  | cons c cs =>
    rw [hcs, Bool.and_eq_true] at hw
    refine of_primary h (quiet_of_isWordPart n.text ?_ (isWordPart_of_isWordStart hw.1))
    rw [← hrest, hcs]
    rfl

/-- A node that is printed as a keyword. -/
theorem of_keyword {kind : BasicKind} (hword : isWord n.text = true)
    (hkind : coreKind n.text = kind)
    (hderives : ∀ t : Token, t.kind = kind → g.Derives .primary [t] n) : g.Prints n :=
  of_word hword (.keyword hword hkind hderives) (List.prefix_refl _)

/-- A number that is printed with a digit in front. -/
theorem of_number {whole part letter : List Char} {value : Literal} (hwhole : Decimal.IsDigits whole)
    (hpart : Lexeme.IsFraction part) (hletter : Lexeme.IsLetter letter)
    (htext : value.text.toList = whole ++ part ++ letter)
    (hvalue : Literal.ofNumber? value.text.toList = some value) : g.Prints (.literal value) := by
  obtain ⟨c, cs, rfl⟩ := List.exists_cons_of_ne_nil hwhole.1
  have hdigit := hwhole.2 c List.mem_cons_self
  have hhead : (Node.literal value).text.toList.head? = some c := by
    rw [Node.text, htext]
    rfl
  have hwritten : g.Written .primary (Node.literal value).text (Node.literal value) := by
    rw [Node.text]
    exact .number hwhole hpart hletter htext hvalue
  exact of_primary hwritten (quiet_of_isWordPart _ hhead (isWordPart_of_isDigit hdigit))

/-- A literal of a source is printed if it is no infinite double. -/
theorem literal {value : Literal} (hreadable : value.Readable) (hbounded : value.Bounded) :
    g.Prints (.literal value) := by
  cases value with
  | null =>
    obtain ⟨hword, hkind⟩ := keyword_null
    exact of_keyword (n := .literal .null) hword hkind fun _ ht => .nullWord ht
  | bool b =>
    obtain ⟨hword, hkind⟩ := keyword_bool b
    cases b with
    | true => exact of_keyword (n := .literal (.bool true)) hword hkind fun _ ht => .trueWord ht
    | false => exact of_keyword (n := .literal (.bool false)) hword hkind fun _ ht => .falseWord ht
  | int k =>
    exact of_number (Literal.isDigits_repr_toInt hreadable) .none .none (by simp [Literal.text])
      (Literal.ofNumber?_int hreadable)
  | long k =>
    exact of_number (Literal.isDigits_repr_toInt hreadable) .none .wide (by simp [Literal.text])
      (Literal.ofNumber?_long k)
  | double d =>
    rcases hreadable with hinfinite | ⟨m, e, hfinite⟩
    · exact absurd hinfinite (hbounded false)
    · obtain ⟨whole, fraction, htext, hwhole, hfraction, -⟩ := Decimal.write_plainDouble hfinite
      exact of_number hwhole (.digits hfraction) .none (by simp [Literal.text, htext])
        (Literal.ofNumber?_double hfinite)
  | char c => exact absurd hreadable id
  | str s =>
    have hwritten : g.Written .primary (Node.literal (.str s)).text (Node.literal (.str s)) := by
      rw [Node.text]
      exact .string s
    refine of_primary hwritten (quiet_of_head _ (c := '\'') ?_ (by decide))
    rw [Node.text, Literal.toList_text_str]
    rfl

theorem before (hg : g.CoreOperators) {op : UnaryOperator} (hop : op ∈ g.before) (h : g.Prints n) :
    g.Prints (.unary op.operation .before n) := by
  suffices hwritten : g.Written .unary (Node.unary op.operation .before n).text
      (Node.unary op.operation .before n) from
    ⟨hwritten, fun hunary => (by cases hunary), fun hprefixed => (by cases hprefixed)⟩
  by_cases hprefixed : n.isPrefixed = true
  · -- The parentheses keep the two operators apart.
    have hgroup : g.Written .unary ("(" ++ n.text ++ ")") n := .bare (.group h.expression)
    have hquiet := quiet_of_head ("(" ++ n.text ++ ")") (c := '(') (by simp) (by decide)
    have htext : (Node.unary op.operation .before n).text =
        op.operation.symbol ++ ("(" ++ n.text ++ ")") := by
      simp only [Node.text, hprefixed, if_true, String.append_assoc]
    rw [htext]
    exact .before hg hop hgroup hquiet
  · rw [Node.text, if_neg hprefixed]
    exact .before hg hop h.unary (h.quiet (Bool.eq_false_iff.2 hprefixed))

theorem after (hg : g.CoreOperators) {op : UnaryOperator} (hop : op ∈ g.after) (h : g.Prints n)
    (hn : n.isUnary = false) : g.Prints (.unary op.operation .after n) where
  unary := by
    rw [Node.text]
    exact .after hg hop (h.primary hn)
  primary := fun hunary => by cases hunary
  quiet := by
    intro _ rest
    rw [Node.text, String.toList_append, List.append_assoc]
    exact h.quiet (Node.isPrefixed_of_isUnary hn) _

theorem binary (hg : g.CoreOperators) {op : BinaryOperator} (hop : op ∈ g.binary) {left right : Node}
    (hleft : g.Prints left) (hright : g.Prints right) :
    g.Prints (.binary op.operation left right) := by
  apply of_group (.binary hg hop hleft.unary hright.unary)
  simp only [Node.text, String.append_assoc]

theorem ternary {condition positive negative : Node} (hcondition : g.Prints condition)
    (hpositive : g.Prints positive) (hnegative : g.Prints negative) :
    g.Prints (.ternary condition positive negative) := by
  apply of_group (.choice hcondition.unary hpositive.expression hnegative.expression)
  simp only [Node.text, String.append_assoc]

/-- All operations of a chain are printed if the operands are. -/
theorem tree (hg : g.CoreOperators) {t : OperatorTree} (hoperators : ∀ op ∈ t.operators, op ∈ g.binary)
    (hoperands : ∀ u ∈ t.operands, u.Tidy → g.Prints u) (htidy : t.node.Tidy) :
    g.Prints t.node := by
  induction t with
  | operand node => exact hoperands node (by simp) htidy
  | operation op left right hleft hright =>
    rw [OperatorTree.operators_operation] at hoperators
    rw [OperatorTree.operands_operation] at hoperands
    rw [OperatorTree.node, Node.Tidy] at htidy
    refine binary hg (hoperators op (by simp)) (hleft ?_ ?_ htidy.1) (hright ?_ ?_ htidy.2)
    · exact fun q hq => hoperators q (List.mem_append_left _ hq)
    · exact fun u hu => hoperands u (List.mem_append_left _ hu)
    · exact fun q hq => hoperators q (List.mem_append_right _ (List.mem_cons_of_mem _ hq))
    · exact fun u hu => hoperands u (List.mem_append_right _ hu)

theorem reference {root : String} {steps : List Segment} (hroot : coreKind root = BasicKind.identifier)
    (hsteps : g.WrittenSteps (Segment.texts steps) steps) : g.Prints (Node.reference root steps) := by
  apply of_word (isWord_of_coreKind hroot)
  · rw [Node.text_reference]
    exact .reference hroot hsteps
  · rw [Node.text_reference, String.toList_append]
    exact List.prefix_append _ _

theorem call {root : String} {names : List String} {arguments : List Node}
    (hroot : coreKind root = BasicKind.identifier)
    (hnames : g.WrittenSteps (Segment.texts (names.map Segment.property)) (names.map Segment.property))
    (harguments : g.WrittenItems (commaSeparated (Node.texts arguments)) arguments) :
    g.Prints (.call (".".intercalate (root :: names)) arguments) := by
  have htext : (Node.call (".".intercalate (root :: names)) arguments).text =
      root ++ Segment.texts (names.map Segment.property) ++
        ("(" ++ commaSeparated (Node.texts arguments) ++ ")") := by
    rw [Node.text, Segment.intercalate_names]
    simp only [String.append_assoc]
  apply of_word (isWord_of_coreKind hroot)
  · rw [htext]
    exact .call hroot hnames harguments
  · rw [htext, String.toList_append, String.toList_append, List.append_assoc]
    exact List.prefix_append _ _

theorem list {items : List Node}
    (hitems : g.WrittenItems (commaSeparated (Node.texts items)) items) :
    g.Prints (.arguments items) := by
  have hwritten : g.Written .primary (Node.arguments items).text (Node.arguments items) := by
    rw [Node.text]
    exact .list hitems
  refine of_primary hwritten (quiet_of_head _ (c := '[') ?_ (by decide))
  rw [Node.text]
  simp

end Prints

namespace PrintsMeaning

theorem property {name : String} {steps : List Segment} (hname : isWord name = true)
    (hsteps : g.PrintsMeaning .steps steps) :
    g.PrintsMeaning .steps (Segment.property name :: steps) := by
  intro htidy
  rw [Segment.TidyAll] at htidy
  rw [Segment.texts]
  exact .property hname (hsteps htidy)

theorem index {steps : List Segment} (hindex : g.PrintsMeaning .expression n)
    (hsteps : g.PrintsMeaning .steps steps) :
    g.PrintsMeaning .steps (Segment.index n :: steps) := by
  intro htidy
  rw [Segment.TidyAll] at htidy
  rw [Segment.texts]
  exact .index (hindex htidy.1).expression (hsteps htidy.2)

theorem lastArgument (h : g.PrintsMeaning .expression n) : g.PrintsMeaning .arguments [n] := by
  refine ⟨by simp [Node.texts], ?_⟩
  intro htidy
  rw [Node.TidyAll] at htidy
  rw [Node.texts, Node.texts, commaSeparated_singleton]
  exact .lastArgument (h htidy.1).expression

theorem argument {items : List Node} (hfirst : g.PrintsMeaning .expression n)
    (hrest : g.PrintsMeaning .arguments items) : g.PrintsMeaning .arguments (n :: items) := by
  obtain ⟨hne, hrest⟩ := hrest
  refine ⟨by simp [Node.texts], ?_⟩
  intro htidy
  rw [Node.TidyAll] at htidy
  rw [Node.texts, commaSeparated_cons _ hne]
  exact .argument (hfirst htidy.1).expression (hrest htidy.2)

theorem lastParameter {p : Parameter} (h : g.PrintsMeaning .parameter p) :
    g.PrintsMeaning .parameters [p] := by
  refine ⟨by simp [Parameter.texts_cons], ?_⟩
  intro htidy
  rw [Parameter.TidyAll] at htidy
  rw [Parameter.texts_cons, Parameter.texts, commaSeparated_singleton]
  exact .lastParameter (h htidy.1)

theorem moreParameters {p : Parameter} {params : List Parameter}
    (hfirst : g.PrintsMeaning .parameter p) (hrest : g.PrintsMeaning .parameters params) :
    g.PrintsMeaning .parameters (p :: params) := by
  obtain ⟨hne, hrest⟩ := hrest
  refine ⟨by simp [Parameter.texts_cons], ?_⟩
  intro htidy
  rw [Parameter.TidyAll] at htidy
  rw [Parameter.texts_cons, commaSeparated_cons _ hne]
  exact .moreParameters (hfirst htidy.1) (hrest htidy.2)

end PrintsMeaning

/-- What a number token stands for can be spelled by a source. -/
theorem readable_of_number {t : Token} {value : Literal} (htoken : t.kind = coreKind t.text)
    (hkind : t.kind = BasicKind.number) (hvalue : Literal.ofNumber? t.text.toList = some value) :
    value.Readable := by
  obtain ⟨c, cs, htext, hdigit⟩ := exists_isDigit_of_coreKind (htoken.symm.trans hkind)
  rw [htext] at hvalue
  exact Literal.readable_of_ofNumber? hdigit hvalue

/-- A string token stands for a text. -/
theorem exists_str_of_ofQuoted {text : List Char} {value : Literal}
    (h : Literal.ofQuoted text = .ok value) : ∃ s, value = .str s := by
  unfold Literal.ofQuoted at h
  split at h
  · cases h
  · rename_i quote body
    split at h
    · cases hinside : Literal.unescape body.dropLast with
      | error e => simp [hinside, Except.map] at h
      | ok inside =>
        rw [hinside] at h
        exact ⟨_, (Except.ok.inj h).symm⟩
    · cases h

/-- What is derived from core tokens is printed. -/
theorem Derives.prints (hg : g.CoreOperators) {part : Part} {ts : List Token} {meaning : part.Meaning}
    (h : g.Derives part ts meaning) (hts : ∀ t ∈ ts, t.kind = coreKind t.text) :
    g.PrintsMeaning part meaning := by
  induction h with
  | plain _ ih => exact ih hts
  | choice hcondition hquestion hpositive hcolon hnegative ihcondition ihpositive ihnegative =>
    simp only [List.forall_mem_append, List.forall_mem_cons] at hts
    obtain ⟨hcs, -, hps, -, hns⟩ := hts
    intro htidy
    rw [Node.Tidy] at htidy
    exact .ternary (ihcondition hcs htidy.1) (ihpositive hps htidy.2.1) (ihnegative hns htidy.2.2)
  | nested t hfirst hrest hoperands hoperators hnested ihfirst ihrest =>
    rw [List.forall_mem_append] at hts
    have hfirst := ihfirst hts.1
    have hrest := ihrest hts.2
    refine fun htidy => .tree hg ?_ ?_ htidy
    · rw [hoperators, List.forall_mem_map]
      exact fun x hx => (hrest x hx).1
    · rw [hoperands, List.forall_mem_cons, List.forall_mem_map]
      exact ⟨hfirst, fun x hx => (hrest x hx).2⟩
  | noOperation => exact fun x hx => absurd hx List.not_mem_nil
  | operation hop hoperand hrest ihoperand ihrest =>
    rw [List.forall_mem_cons, List.forall_mem_append] at hts
    refine List.forall_mem_cons.2 ⟨⟨List.mem_of_find?_eq_some hop, ?_⟩, ?_⟩
    · exact ihoperand hts.2.1
    · exact ihrest hts.2.2
  | before hop hoperand ih =>
    intro htidy
    rw [Node.Tidy] at htidy
    exact .before hg (List.mem_of_find?_eq_some hop) (ih (List.forall_mem_cons.1 hts).2 htidy)
  | bare _ ih => exact ih hts
  | after hoperand hop ih =>
    intro htidy
    rw [Node.Tidy] at htidy
    rw [List.forall_mem_append] at hts
    exact .after hg (List.mem_of_find?_eq_some hop) (ih hts.1 htidy.2) htidy.1
  | number hkind hvalue =>
    intro htidy
    rw [Node.Tidy] at htidy
    exact .literal (readable_of_number (hts _ List.mem_cons_self) hkind hvalue) htidy
  | string hkind hvalue =>
    obtain ⟨s, rfl⟩ := exists_str_of_ofQuoted hvalue
    exact fun _ => .literal trivial trivial
  | trueWord => exact fun _ => .literal trivial trivial
  | falseWord => exact fun _ => .literal trivial trivial
  | nullWord => exact fun _ => .literal trivial trivial
  | group hopener hinner hclose ih =>
    rw [List.forall_mem_cons, List.forall_mem_append] at hts
    exact ih hts.2.1
  | emptyList => exact fun _ => .list (Phrase.empty (.inl ⟨rfl, rfl⟩))
  | list hopener hitems hclose ih =>
    rw [List.forall_mem_cons, List.forall_mem_append] at hts
    intro htidy
    rw [Node.Tidy] at htidy
    exact .list (((ih hts.2.1).2 htidy).mono fun _ => .inr)
  | reference hroot hsteps ih =>
    rw [List.forall_mem_cons] at hts
    exact fun htidy =>
      .reference (hts.1.symm.trans hroot) (ih hts.2 (Node.tidyAll_of_tidy_reference htidy))
  | emptyCall hroot hnames hopener hclose ih =>
    rw [List.forall_mem_cons, List.forall_mem_append] at hts
    have hnames := ih hts.2.1 (Segment.tidyAll_names _)
    exact fun _ => .call (hts.1.symm.trans hroot) hnames (Phrase.empty (.inl ⟨rfl, rfl⟩))
  | call hroot hnames hopener harguments hclose ihnames iharguments =>
    simp only [List.forall_mem_cons, List.forall_mem_append] at hts
    obtain ⟨htoken, hnames, -, harguments, -⟩ := hts
    have hnames := ihnames hnames (Segment.tidyAll_names _)
    intro htidy
    rw [Node.Tidy] at htidy
    exact .call (htoken.symm.trans hroot) hnames (((iharguments harguments).2 htidy).mono fun _ => .inr)
  | noStep => exact fun _ => .noStep
  | property hdot hword hsteps ih =>
    rw [List.forall_mem_cons, List.forall_mem_cons] at hts
    exact PrintsMeaning.property hword (ih hts.2.2)
  | index hopener hindex hclose hsteps ihindex ihsteps =>
    simp only [List.forall_mem_cons, List.forall_mem_append] at hts
    exact PrintsMeaning.index (ihindex hts.2.1) (ihsteps hts.2.2.2)
  | lastArgument hitem ih => exact PrintsMeaning.lastArgument (ih hts)
  | argument hfirst hcomma hrest ihfirst ihrest =>
    rw [List.forall_mem_append, List.forall_mem_cons] at hts
    exact PrintsMeaning.argument (ihfirst hts.1) (ihrest hts.2.2)
  | required hname => exact fun _ => .required ((hts _ List.mem_cons_self).symm.trans hname)
  | optional hname hcolon hdefault ih =>
    rw [List.forall_mem_cons, List.forall_mem_cons] at hts
    intro htidy
    rw [Parameter.Tidy] at htidy
    exact .optional (hts.1.symm.trans hname) (ih hts.2.2 htidy).expression
  | lastParameter hp ih => exact PrintsMeaning.lastParameter (ih hts)
  | moreParameters hfirst hcomma hrest ihfirst ihrest =>
    rw [List.forall_mem_append, List.forall_mem_cons] at hts
    exact PrintsMeaning.moreParameters (ihfirst hts.1) (ihrest hts.2.2)

end Grammar

end ExprLang
