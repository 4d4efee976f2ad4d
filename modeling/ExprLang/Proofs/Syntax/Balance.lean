import ExprLang.Proofs.Syntax.Derivation
import ExprLang.Proofs.Syntax.Walk

/-!
# Balanced tokens

Before a group is parsed, its closing parenthesis is looked for by counting parentheses alone.  A
derivation puts parentheses in pairs only, as long as its operators are spelled by other tokens and
no word is a parenthesis.  So what is derivable is passed by as a whole in the search
(`Balanced.closer?`), and the search at a derivable group finds the parenthesis of that group
(`enclosed_of_balanced`).
-/

namespace ExprLang

/-- Whether the token, if it is a word, is neither a parenthesis nor an end token.  Every token of a
source is such a token, apart from the end token behind the source. -/
def Token.Regular (t : Token) : Prop :=
  Text.isWord t.text = true →
    t.kind ≠ BasicKind.lparen ∧ t.kind ≠ BasicKind.rparen ∧ t.kind ≠ BasicKind.eof

/-- Tokens with parentheses in pairs, and without an end token. -/
inductive Balanced : List Token → Prop
  | nil : Balanced []
  | single {t : Token} (hopener : t.kind ≠ BasicKind.lparen) (hclose : t.kind ≠ BasicKind.rparen)
      (heof : t.kind ≠ BasicKind.eof) : Balanced [t]
  | append {ts us : List Token} (hts : Balanced ts) (hus : Balanced us) : Balanced (ts ++ us)
  | group {opener close : Token} {ts : List Token} (hopener : opener.kind = BasicKind.lparen)
      (hts : Balanced ts) (hclose : close.kind = BasicKind.rparen) :
      Balanced (opener :: (ts ++ [close]))

namespace Balanced

theorem cons {t : Token} {ts : List Token} (ht : Balanced [t]) (hts : Balanced ts) :
    Balanced (t :: ts) :=
  ht.append hts

/-- A token of another kind than parentheses and end tokens. -/
theorem of_kind {t : Token} {kind : TokenKind} (ht : t.kind = kind)
    (hkind : kind ≠ BasicKind.lparen ∧ kind ≠ BasicKind.rparen ∧ kind ≠ BasicKind.eof) :
    Balanced [t] := by
  rw [← ht] at hkind
  exact .single hkind.1 hkind.2.1 hkind.2.2

theorem kind_ne_eof {ts : List Token} (h : Balanced ts) : ∀ t ∈ ts, t.kind ≠ BasicKind.eof := by
  induction h with
  | nil => exact fun t ht => absurd ht List.not_mem_nil
  | single hopener hclose heof => exact List.forall_mem_singleton.2 heof
  | append _ _ hts hus =>
    intro t ht
    rcases List.mem_append.1 ht with ht | ht
    · exact hts t ht
    · exact hus t ht
  | group hopener _ hclose hts =>
    intro t ht
    rcases List.mem_cons.1 ht with rfl | ht
    · simp [hopener]
    · rcases List.mem_append.1 ht with ht | ht
      · exact hts t ht
      · rw [List.mem_singleton.1 ht, hclose]
        simp

/-- The search for a closing parenthesis passes balanced tokens by. -/
theorem closer? {ts : List Token} (h : Balanced ts) (depth : Nat) (hdepth : 0 < depth)
    (rest : List Token) :
    Cursor.closer? BasicKind.lparen BasicKind.rparen depth (ts ++ rest) =
      (Cursor.closer? BasicKind.lparen BasicKind.rparen depth rest).map (· + ts.length) := by
  induction h generalizing depth rest with
  | nil => simp
  | single hopener hclose heof => simp [Cursor.closer?, hopener, hclose]
  | append _ _ hts hus =>
    rw [List.append_assoc, hts depth hdepth, hus depth hdepth, Option.map_map]
    congr 1
    funext n
    simp only [Function.comp_apply, List.length_append]
    omega
  | @group opener close ts hopener _ hclose hts =>
    have hinside := hts (depth + 1) (Nat.succ_pos _) (close :: rest)
    have hbehind : Cursor.closer? BasicKind.lparen BasicKind.rparen (depth + 1) (close :: rest) =
        (Cursor.closer? BasicKind.lparen BasicKind.rparen depth rest).map (· + 1) := by
      simp [Cursor.closer?, hclose, Nat.ne_of_gt hdepth]
    rw [List.cons_append, List.append_assoc, List.singleton_append, Cursor.closer?, if_pos hopener,
      hinside, hbehind, Option.map_map, Option.map_map]
    congr 1
    funext n
    simp only [Function.comp_apply, List.length_cons, List.length_append, List.length_nil]
    omega

end Balanced

namespace Grammar

/-- The kinds that stand for something else than operators. -/
def fixedKinds : List BasicKind := [
  .identifier, .number, .string, .trueWord, .falseWord, .nullWord, .eof, .lparen, .rparen,
  .lbracket, .rbracket, .comma, .dot, .colon, .question]

/-- Whether operators are spelled by tokens of their own, and none stands both between two operands
and behind one. -/
structure Distinct (g : Grammar) : Prop where
  binary?_fixed : ∀ kind ∈ fixedKinds, g.binary? kind = none
  before?_fixed : ∀ kind ∈ fixedKinds, g.before? kind = none
  after?_fixed : ∀ kind ∈ fixedKinds, g.after? kind = none
  after?_binary : ∀ kind op, g.binary? kind = some op → g.after? kind = none

theorem distinct_core : Grammar.core.Distinct where
  binary?_fixed := by decide
  before?_fixed := by decide
  after?_fixed := by decide
  after?_binary := by
    intro kind op hop
    have hkind : op.token = kind := by simpa using List.find?_some hop
    have hall : ∀ op ∈ coreBinary, Grammar.core.after? op.token = none := by decide
    rw [← hkind]
    exact hall op (List.mem_of_find?_eq_some hop)

variable {g : Grammar}

/-- A token that spells an operator is of no other kind. -/
theorem ne_fixed_of_some {α : Type} {find : TokenKind → Option α} {kind : TokenKind} {op : α}
    (hfixed : ∀ kind ∈ fixedKinds, find kind = none) (hop : find kind = some op) :
    ∀ fixed ∈ fixedKinds, kind ≠ fixed := by
  rintro fixed hmem rfl
  rw [hfixed fixed hmem] at hop
  cases hop

theorem balanced_of_some {α : Type} {find : TokenKind → Option α} {t : Token} {op : α}
    (hfixed : ∀ kind ∈ fixedKinds, find kind = none) (hop : find t.kind = some op) :
    Balanced [t] := by
  have hne := ne_fixed_of_some hfixed hop
  exact .single (hne _ (by decide)) (hne _ (by decide)) (hne _ (by decide))

/-- Whether the tokens begin with one that closes nothing. -/
def Opens (ts : List Token) : Prop :=
  ∃ t rest, ts = t :: rest ∧ t.kind ≠ BasicKind.rparen ∧ t.kind ≠ BasicKind.rbracket

theorem Opens.append {ts : List Token} (h : Opens ts) (us : List Token) : Opens (ts ++ us) := by
  obtain ⟨t, rest, rfl, hkind⟩ := h
  exact ⟨t, rest ++ us, rfl, hkind⟩

theorem opens_of_kind {t : Token} {kind : TokenKind} (ht : t.kind = kind) (rest : List Token)
    (hkind : kind ≠ BasicKind.rparen ∧ kind ≠ BasicKind.rbracket) : Opens (t :: rest) := by
  rw [← ht] at hkind
  exact ⟨t, rest, rfl, hkind⟩

/-- Expressions, arguments and parameters begin with a token that closes nothing. -/
theorem Derives.opens (hg : g.Distinct) {part : Part} {ts : List Token} {m : part.Meaning}
    (h : g.Derives part ts m)
    (hpart : part ∈ [Part.expression, .binary, .unary, .primary, .arguments, .parameter,
      .parameters]) : Opens ts := by
  induction h with
  | plain _ ih | bare _ ih | lastArgument _ ih | lastParameter _ ih => exact ih (by decide)
  | choice _ _ _ _ _ ih | nested _ _ _ _ _ _ ih | after _ _ ih | argument _ _ _ ih
  | moreParameters _ _ _ ih => exact (ih (by decide)).append _
  | before hop =>
    have hne := ne_fixed_of_some hg.before?_fixed hop
    exact ⟨_, _, rfl, hne _ (by decide), hne _ (by decide)⟩
  | number hkind | string hkind | trueWord hkind | falseWord hkind | nullWord hkind
  | group hkind | emptyList hkind | list hkind | reference hkind | emptyCall hkind
  | call hkind | required hkind | optional hkind => exact opens_of_kind hkind _ (by decide)
  | _ => exact absurd hpart (by decide)

/-- A property of token lists that is put together from single tokens, from words with a point in
front and from groups.  Words behind points are of whatever kind; of them only `W` is known. -/
structure Composes (g : Grammar) (W : Token → Prop) (P : List Token → Prop) : Prop where
  nil : P []
  append : ∀ {ts us : List Token}, P ts → P us → P (ts ++ us)
  token : ∀ {t : Token} {kind : BasicKind}, t.kind = kind → kind ∈ fixedKinds →
    kind ∉ [BasicKind.eof, .lparen, .rparen, .dot] → P [t]
  binary : ∀ {t : Token} {op : BinaryOperator}, g.binary? t.kind = some op → P [t]
  before : ∀ {t : Token} {op : UnaryOperator}, g.before? t.kind = some op → P [t]
  after : ∀ {t : Token} {op : UnaryOperator}, g.after? t.kind = some op → P [t]
  group : ∀ {opener close : Token} {ts : List Token}, opener.kind = BasicKind.lparen → P ts →
    close.kind = BasicKind.rparen → P (opener :: (ts ++ [close]))
  property : ∀ {dot word : Token}, dot.kind = BasicKind.dot → Text.isWord word.text = true →
    W word → P [dot, word]

/-- What is derivable is put together from these. -/
theorem Derives.composes {W : Token → Prop} {P : List Token → Prop} (hP : g.Composes W P)
    {part : Part} {ts : List Token} {m : part.Meaning} (h : g.Derives part ts m)
    (hts : ∀ t ∈ ts, W t) : P ts := by
  have hcons {t : Token} {ts : List Token} (ht : P [t]) (hts : P ts) : P (t :: ts) :=
    hP.append ht hts
  have htoken {t : Token} {kind : BasicKind} (ht : t.kind = kind)
      (hkind : kind ∈ fixedKinds ∧ kind ∉ [BasicKind.eof, .lparen, .rparen, .dot]) : P [t] :=
    hP.token ht hkind.1 hkind.2
  induction h with
  | plain _ ih | bare _ ih | lastArgument _ ih | lastParameter _ ih => exact ih hts
  | noOperation | noStep => exact hP.nil
  | choice _ hquestion _ hcolon _ ihcondition ihpositive ihnegative =>
    simp only [List.forall_mem_append, List.forall_mem_cons] at hts
    obtain ⟨hcs, -, hps, -, hns⟩ := hts
    have hnegative := hcons (htoken hcolon (by decide)) (ihnegative hns)
    have hpositive := hP.append (ihpositive hps) hnegative
    exact hP.append (ihcondition hcs) (hcons (htoken hquestion (by decide)) hpositive)
  | nested t _ _ _ _ _ ihfirst ihrest =>
    rw [List.forall_mem_append] at hts
    exact hP.append (ihfirst hts.1) (ihrest hts.2)
  | operation hop _ _ ihoperand ihrest =>
    simp only [List.forall_mem_append, List.forall_mem_cons] at hts
    exact hcons (hP.binary hop) (hP.append (ihoperand hts.2.1) (ihrest hts.2.2))
  | before hop _ ih => exact hcons (hP.before hop) (ih (List.forall_mem_cons.1 hts).2)
  | after _ hop ih =>
    rw [List.forall_mem_append] at hts
    exact hP.append (ih hts.1) (hP.after hop)
  | number hkind | string hkind | trueWord hkind | falseWord hkind | nullWord hkind
  | required hkind => exact htoken hkind (by decide)
  | group hopener _ hclose ih =>
    simp only [List.forall_mem_append, List.forall_mem_cons] at hts
    exact hP.group hopener (ih hts.2.1) hclose
  | emptyList hopener hclose =>
    exact hcons (htoken hopener (by decide)) (htoken hclose (by decide))
  | list hopener _ hclose ih =>
    simp only [List.forall_mem_append, List.forall_mem_cons] at hts
    have hitems := hP.append (ih hts.2.1) (htoken hclose (by decide))
    exact hcons (htoken hopener (by decide)) hitems
  | reference hroot _ ih =>
    exact hcons (htoken hroot (by decide)) (ih (List.forall_mem_cons.1 hts).2)
  | emptyCall hroot _ hopener hclose ih =>
    simp only [List.forall_mem_append, List.forall_mem_cons] at hts
    have hcall := hP.append (ih hts.2.1) (hP.group hopener hP.nil hclose)
    exact hcons (htoken hroot (by decide)) hcall
  | call hroot _ hopener _ hclose ihnames iharguments =>
    simp only [List.forall_mem_append, List.forall_mem_cons] at hts
    have hgroup := hP.group hopener (iharguments hts.2.2.2.1) hclose
    exact hcons (htoken hroot (by decide)) (hP.append (ihnames hts.2.1) hgroup)
  | property hdot hword _ ih =>
    simp only [List.forall_mem_cons] at hts
    exact hP.append (hP.property hdot hword hts.2.1) (ih hts.2.2)
  | index hopener _ hclose _ ihindex ihsteps =>
    simp only [List.forall_mem_append, List.forall_mem_cons] at hts
    have hsteps := hcons (htoken hclose (by decide)) (ihsteps hts.2.2.2)
    exact hcons (htoken hopener (by decide)) (hP.append (ihindex hts.2.1) hsteps)
  | argument _ hcomma _ ihfirst ihrest | moreParameters _ hcomma _ ihfirst ihrest =>
    simp only [List.forall_mem_append, List.forall_mem_cons] at hts
    exact hP.append (ihfirst hts.1) (hcons (htoken hcomma (by decide)) (ihrest hts.2.2))
  | optional hname hcolon _ ih =>
    simp only [List.forall_mem_cons] at hts
    exact hcons (htoken hname (by decide)) (hcons (htoken hcolon (by decide)) (ih hts.2.2))

/-- What is derivable is balanced. -/
theorem Derives.balanced (hg : g.Distinct) {part : Part} {ts : List Token} {m : part.Meaning}
    (h : g.Derives part ts m) (hts : ∀ t ∈ ts, t.Regular) : Balanced ts := by
  refine h.composes (W := Token.Regular) ?_ hts
  constructor
  case nil => exact .nil
  case append => exact .append
  case token =>
    intro t kind ht _ hkind
    refine Balanced.of_kind ht ⟨?_, ?_, ?_⟩ <;> rintro ⟨⟩ <;> exact hkind (by decide)
  case binary => exact balanced_of_some hg.binary?_fixed
  case before => exact balanced_of_some hg.before?_fixed
  case after => exact balanced_of_some hg.after?_fixed
  case group => exact .group
  case property =>
    intro dot word hdot hword hregular
    obtain ⟨hopener, hclose, heof⟩ := hregular hword
    exact (Balanced.of_kind hdot (by decide)).cons (.single hopener hclose heof)

/-- At an opening parenthesis in front of balanced tokens, the closing one behind them is found. -/
theorem enclosed_of_balanced {c : Cursor} {opener close : Token} {ts rest : List Token}
    (hahead : c.ahead = opener :: (ts ++ close :: rest)) (hopener : opener.kind = BasicKind.lparen)
    (hts : Balanced ts) (hclose : close.kind = BasicKind.rparen) :
    c.enclosed BasicKind.lparen BasicKind.rparen =
      .ok (c.position, c.position + ts.length + 2) := by
  obtain ⟨rfl, hcoming⟩ := List.cons.inj hahead
  have hfound : Cursor.closer? BasicKind.lparen BasicKind.rparen 1 (close :: rest) = some 0 := by
    simp [Cursor.closer?, hclose]
  rw [Cursor.enclosed, if_neg (not_not.2 hopener), hcoming, hts.closer? 1 Nat.one_pos, hfound]
  simp

end Grammar

end ExprLang
