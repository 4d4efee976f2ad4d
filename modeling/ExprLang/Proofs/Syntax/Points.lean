import ExprLang.Proofs.Syntax.Balance

/-!
# Words behind points

Of a word behind a point, derivations read the text and not the kind.  All other tokens are read by
their kinds, so a token of a kind that the grammar does not use can only stand behind a point
(`Derives.unused_behindPoints`), and what stands behind points may be of any other kind instead
(`Derives.map`).
-/

namespace ExprLang

/-- Every token of the list that has the property stands directly behind a point. -/
structure Token.BehindPoints (p : Token → Prop) (ts : List Token) : Prop where
  head : ∀ t ∈ ts.head?, ¬ p t
  chain : ts.IsChain fun before t => p t → before.kind = BasicKind.dot

namespace Token

variable {p : Token → Prop} {t : Token} {xs ys : List Token}

theorem behindPoints_singleton : BehindPoints p [t] ↔ ¬ p t := by
  constructor
  · intro h
    exact h.head t rfl
  · intro h
    exact ⟨fun u hu => Option.some.inj hu ▸ h, List.isChain_singleton t⟩

namespace BehindPoints

theorem mono {q : Token → Prop} {ts : List Token} (h : BehindPoints p ts)
    (himp : ∀ t ∈ ts, q t → p t) : BehindPoints q ts := by
  refine ⟨fun t ht hq => h.head t ht (himp t (List.mem_of_mem_head? ht) hq), ?_⟩
  refine h.chain.imp_of_mem_imp fun _ t _ ht hdot hq => hdot (himp t ht hq)

/-- A map that makes no points. -/
theorem of_map {f : Token → Token} {ts : List Token} (h : BehindPoints p (ts.map f))
    (hdot : ∀ t, (f t).kind = BasicKind.dot → t.kind = BasicKind.dot) :
    BehindPoints (fun t => p (f t)) ts := by
  refine ⟨fun t ht => h.head (f t) (by rw [List.head?_map, ht]; rfl), ?_⟩
  exact ((List.isChain_map f).1 h.chain).imp fun t _ hkind hp => hdot t (hkind hp)

end BehindPoints

/-- A token without the property may stand behind all others. -/
theorem behindPoints_concat (ht : ¬ p t) : BehindPoints p (xs ++ [t]) ↔ BehindPoints p xs := by
  constructor
  · intro h
    refine ⟨fun u hu => h.head u (by rw [List.head?_append, hu]; rfl), ?_⟩
    exact (List.isChain_append.1 h.chain).1
  · intro h
    refine ⟨fun u hu => ?_, List.isChain_append.2 ⟨h.chain, List.isChain_singleton t, ?_⟩⟩
    · cases xs with
      | nil => exact Option.some.inj hu ▸ ht
      | cons x xs => exact h.head u hu
    · intro _ _ u hu hp
      exact absurd (Option.some.inj hu ▸ hp) ht

/-- Behind a part that does not end with a point, a list goes on as if it began there. -/
theorem behindPoints_append (hlast : ∀ t ∈ xs.getLast?, t.kind ≠ BasicKind.dot) :
    BehindPoints p (xs ++ ys) ↔ BehindPoints p xs ∧ BehindPoints p ys := by
  constructor
  · intro h
    obtain ⟨hxs, hys, hbetween⟩ := List.isChain_append.1 h.chain
    have hhead := h.head
    rw [List.head?_append] at hhead
    refine ⟨⟨fun u hu => hhead u (by simp [Option.mem_def.1 hu]), hxs⟩, ⟨fun u hu => ?_, hys⟩⟩
    cases hend : xs.getLast? with
    | none =>
      obtain rfl := List.getLast?_eq_none_iff.1 hend
      exact hhead u (by simpa using hu)
    | some last => exact fun hu' => hlast last hend (hbetween last hend u hu hu')
  · rintro ⟨hxs, hys⟩
    constructor
    · intro u hu
      rw [List.head?_append] at hu
      cases hfirst : xs.head? with
      | none => exact hys.head u (by simpa [hfirst] using hu)
      | some first => exact hxs.head u (by simpa [hfirst] using hu)
    · apply List.isChain_append.2
      exact ⟨hxs.chain, hys.chain, fun _ _ u hu hp => absurd hp (hys.head u hu)⟩

end Token

namespace Grammar

variable {g : Grammar}

/-- Whether a derivation may need a token to be of the kind. -/
def Uses (g : Grammar) (kind : TokenKind) : Prop :=
  (∃ fixed ∈ fixedKinds, kind = .basic fixed) ∨ (g.binary? kind).isSome = true ∨
    (g.before? kind).isSome = true ∨ (g.after? kind).isSome = true

/-- Tokens in which every point has a word behind it, of whatever kind.  All others are of kinds
that the grammar uses. -/
inductive Pointed (g : Grammar) : List Token → Prop
  | nil : Pointed g []
  | token {t : Token} {ts : List Token} (huses : g.Uses t.kind) (hdot : t.kind ≠ BasicKind.dot)
      (hts : Pointed g ts) : Pointed g (t :: ts)
  | property {dot word : Token} {ts : List Token} (hdot : dot.kind = BasicKind.dot)
      (hword : word.kind ≠ BasicKind.dot) (hts : Pointed g ts) : Pointed g (dot :: word :: ts)

namespace Pointed

theorem append {ts us : List Token} (hts : g.Pointed ts) (hus : g.Pointed us) :
    g.Pointed (ts ++ us) := by
  induction hts with
  | nil => exact hus
  | token huses hdot _ ih => exact .token huses hdot ih
  | property hdot hword _ ih => exact .property hdot hword ih

theorem cons {t : Token} {ts : List Token} (ht : g.Pointed [t]) (hts : g.Pointed ts) :
    g.Pointed (t :: ts) :=
  ht.append hts

theorem of_kind {t : Token} {kind : BasicKind} (ht : t.kind = kind)
    (hkind : kind ∈ fixedKinds ∧ kind ≠ .dot) : g.Pointed [t] := by
  refine .token (.inl ⟨kind, hkind.1, ht⟩) ?_ .nil
  rw [ht]
  exact fun h => hkind.2 (TokenKind.basic.inj h)

/-- A token that spells an operator. -/
theorem of_some {α : Type} {find : TokenKind → Option α} {t : Token} {op : α}
    (hfixed : ∀ kind ∈ fixedKinds, find kind = none) (hop : find t.kind = some op)
    (huses : (find t.kind).isSome = true → g.Uses t.kind) : g.Pointed [t] :=
  .token (huses (Option.isSome_of_eq_some hop)) (ne_fixed_of_some hfixed hop _ (by decide)) .nil

theorem getLast?_ne {ts : List Token} (h : g.Pointed ts) :
    ∀ t ∈ ts.getLast?, t.kind ≠ BasicKind.dot := by
  have hcons : ∀ (t : Token) (ts : List Token), t.kind ≠ BasicKind.dot →
      (∀ u ∈ ts.getLast?, u.kind ≠ BasicKind.dot) →
        ∀ u ∈ (t :: ts).getLast?, u.kind ≠ BasicKind.dot := by
    intro t ts ht hts u hu
    rw [List.getLast?_cons] at hu
    cases hlast : ts.getLast? with
    | none =>
      obtain rfl : t = u := by simpa [hlast] using hu
      exact ht
    | some last => exact hts u (by simpa [hlast] using hu)
  induction h with
  | nil => simp
  | token _ hdot _ ih => exact hcons _ _ hdot ih
  | property _ hword _ ih =>
    rw [List.getLast?_cons_cons]
    exact hcons _ _ hword ih

theorem behindPoints_append {p : Token → Prop} {ts us : List Token} (h : g.Pointed ts) :
    Token.BehindPoints p (ts ++ us) ↔ Token.BehindPoints p ts ∧ Token.BehindPoints p us :=
  Token.behindPoints_append h.getLast?_ne

theorem behindPoints_cons {p : Token → Prop} {t : Token} {us : List Token} (h : g.Pointed [t]) :
    Token.BehindPoints p (t :: us) ↔ ¬ p t ∧ Token.BehindPoints p us := by
  rw [← Token.behindPoints_singleton]
  exact h.behindPoints_append

/-- Tokens of kinds that are not used stand behind points. -/
theorem unused {ts : List Token} (h : g.Pointed ts) :
    Token.BehindPoints (fun t => ¬ g.Uses t.kind) ts := by
  induction h with
  | nil => exact ⟨by simp, .nil⟩
  | token huses hdot _ ih =>
    exact (behindPoints_cons (.token huses hdot .nil)).2 ⟨not_not.2 huses, ih⟩
  | @property dot word ts hdot _ _ ih =>
    have huses : g.Uses dot.kind := .inl ⟨.dot, by decide, hdot⟩
    constructor
    · intro t ht
      obtain rfl := Option.some.inj ht
      exact not_not.2 huses
    · refine List.isChain_cons_cons.2 ⟨fun _ => hdot, List.isChain_cons.2 ⟨?_, ih.chain⟩⟩
      exact fun u hu hu' => absurd hu' (ih.head u hu)

end Pointed

/-- In what is derivable, every point has a word behind it. -/
theorem Derives.pointed (hg : g.Distinct) {part : Part} {ts : List Token} {m : part.Meaning}
    (h : g.Derives part ts m)
    (hts : ∀ t ∈ ts, Text.isWord t.text = true → t.kind ≠ BasicKind.dot) : g.Pointed ts := by
  refine h.composes (W := fun t => Text.isWord t.text = true → t.kind ≠ BasicKind.dot) ?_ hts
  constructor
  case nil => exact .nil
  case append => exact .append
  case token =>
    intro t kind ht hfixed hkind
    refine .of_kind ht ⟨hfixed, ?_⟩
    rintro rfl
    exact hkind (by decide)
  case binary => exact fun hop => .of_some hg.binary?_fixed hop fun h => .inr (.inl h)
  case before => exact fun hop => .of_some hg.before?_fixed hop fun h => .inr (.inr (.inl h))
  case after => exact fun hop => .of_some hg.after?_fixed hop fun h => .inr (.inr (.inr h))
  case group =>
    intro opener close ts hopener hts hclose
    exact (Pointed.of_kind hopener (by decide)).cons (hts.append (.of_kind hclose (by decide)))
  case property => exact fun hdot hword hregular => .property hdot (hregular hword) .nil

/-- A way to give other kinds to tokens that changes the kinds of words behind points only. -/
structure Retags (f : Token → Token) (ts : List Token) : Prop where
  text_eq : ∀ t, (f t).text = t.text
  /-- words are no points -/
  words : ∀ t ∈ ts, Text.isWord t.text = true → t.kind ≠ BasicKind.dot
  kinds : Token.BehindPoints (fun t => (f t).kind ≠ t.kind) ts

namespace Retags

variable {f : Token → Token}

theorem of_pointed {ts us : List Token} (hts : g.Pointed ts) (h : Retags f (ts ++ us)) :
    Retags f ts ∧ Retags f us := by
  obtain ⟨hwords, hwords'⟩ := List.forall_mem_append.1 h.words
  obtain ⟨hkinds, hkinds'⟩ := hts.behindPoints_append.1 h.kinds
  exact ⟨⟨h.text_eq, hwords, hkinds⟩, ⟨h.text_eq, hwords', hkinds'⟩⟩

theorem of_cons {t : Token} {us : List Token} (ht : g.Pointed [t]) (h : Retags f (t :: us)) :
    Retags f us :=
  (of_pointed ht h).2

/-- What is derivable in front is retagged apart from what stands behind it. -/
theorem append (hg : g.Distinct) {part : Part} {ts us : List Token} {m : part.Meaning}
    (h : Retags f (ts ++ us)) (hts : g.Derives part ts m) : Retags f ts ∧ Retags f us :=
  of_pointed (hts.pointed hg (List.forall_mem_append.1 h.words).1) h

/-- The kind of a token at the beginning stays. -/
theorem kind_eq {t : Token} {ts : List Token} (h : Retags f (t :: ts)) : (f t).kind = t.kind :=
  not_not.1 (h.kinds.head t rfl)

theorem cons {t : Token} {kind : BasicKind} {ts : List Token} (h : Retags f (t :: ts))
    (ht : t.kind = kind) (hkind : kind ∈ fixedKinds ∧ kind ≠ .dot) :
    (f t).kind = kind ∧ Retags f ts :=
  ⟨h.kind_eq.trans ht, of_cons (g := core) (.of_kind ht hkind) h⟩

theorem last {t : Token} {kind : BasicKind} (h : Retags f [t]) (ht : t.kind = kind) :
    (f t).kind = kind :=
  h.kind_eq.trans ht

theorem property {dot word : Token} {ts : List Token} (h : Retags f (dot :: word :: ts))
    (hdot : dot.kind = BasicKind.dot) (hword : Text.isWord word.text = true) :
    (f dot).kind = BasicKind.dot ∧ Retags f ts := by
  have hne := h.words word (by simp) hword
  have hpointed : core.Pointed [dot, word] := .property hdot hne .nil
  exact ⟨h.kind_eq.trans hdot, (of_pointed hpointed h).2⟩

end Retags

/-- What is derivable stays so when words behind points become tokens of other kinds. -/
theorem Derives.map (hg : g.Distinct) {f : Token → Token} {part : Part} {ts : List Token}
    {m : part.Meaning} (h : g.Derives part ts m) (hf : Retags f ts) :
    g.Derives part (ts.map f) m := by
  induction h with
  | plain _ ih => exact .plain (ih hf)
  | bare _ ih => exact .bare (ih hf)
  | lastArgument _ ih => exact .lastArgument (ih hf)
  | lastParameter _ ih => exact .lastParameter (ih hf)
  | noOperation => exact .noOperation
  | noStep => exact .noStep
  | choice hcondition hquestion hpositive hcolon _ ihcondition ihpositive ihnegative =>
    obtain ⟨hcs, hf⟩ := hf.append hg hcondition
    obtain ⟨hquestion, hf⟩ := hf.cons hquestion (by decide)
    obtain ⟨hps, hf⟩ := hf.append hg hpositive
    obtain ⟨hcolon, hns⟩ := hf.cons hcolon (by decide)
    rw [List.map_append, List.map_cons, List.map_append, List.map_cons]
    exact .choice (ihcondition hcs) hquestion (ihpositive hps) hcolon (ihnegative hns)
  | nested t hfirst _ hoperands hoperators hnested ihfirst ihrest =>
    obtain ⟨hus, hos⟩ := hf.append hg hfirst
    rw [List.map_append]
    exact .nested t (ihfirst hus) (ihrest hos) hoperands hoperators hnested
  | @operation t us os op u rest hop hoperand _ ihoperand ihrest =>
    have ht : g.Pointed [t] := .of_some hg.binary?_fixed hop fun h => .inr (.inl h)
    obtain ⟨hus, hos⟩ := (Retags.of_cons ht hf).append hg hoperand
    rw [List.map_cons, List.map_append]
    exact .operation (hf.kind_eq ▸ hop) (ihoperand hus) (ihrest hos)
  | @before t us op u hop _ ih =>
    have ht : g.Pointed [t] := .of_some hg.before?_fixed hop fun h => .inr (.inr (.inl h))
    exact .before (hf.kind_eq ▸ hop) (ih (.of_cons ht hf))
  | after hoperand hop ih =>
    obtain ⟨hts, ht⟩ := hf.append hg hoperand
    rw [List.map_append]
    exact .after (ih hts) (ht.kind_eq ▸ hop)
  | number hkind hvalue =>
    rw [← hf.text_eq] at hvalue
    exact .number (hf.last hkind) hvalue
  | string hkind hvalue =>
    rw [← hf.text_eq] at hvalue
    exact .string (hf.last hkind) hvalue
  | trueWord hkind => exact .trueWord (hf.last hkind)
  | falseWord hkind => exact .falseWord (hf.last hkind)
  | nullWord hkind => exact .nullWord (hf.last hkind)
  | group hopener hinner hclose ih =>
    obtain ⟨hopener, hf⟩ := hf.cons hopener (by decide)
    obtain ⟨hts, hf⟩ := hf.append hg hinner
    rw [List.map_cons, List.map_append]
    exact .group hopener (ih hts) (hf.last hclose)
  | emptyList hopener hclose =>
    obtain ⟨hopener, hf⟩ := hf.cons hopener (by decide)
    exact .emptyList hopener (hf.last hclose)
  | list hopener hitems hclose ih =>
    obtain ⟨hopener, hf⟩ := hf.cons hopener (by decide)
    obtain ⟨hts, hf⟩ := hf.append hg hitems
    rw [List.map_cons, List.map_append]
    exact .list hopener (ih hts) (hf.last hclose)
  | @reference root ts steps hroot _ ih =>
    obtain ⟨hroot, hf'⟩ := hf.cons hroot (by decide)
    rw [List.map_cons, ← hf.text_eq root]
    exact .reference hroot (ih hf')
  | @emptyCall root opener close ts names hroot hnames hopener hclose ih =>
    rw [← hf.text_eq root]
    obtain ⟨hroot, hf⟩ := hf.cons hroot (by decide)
    obtain ⟨hts, hf⟩ := hf.append hg hnames
    obtain ⟨hopener, hf⟩ := hf.cons hopener (by decide)
    rw [List.map_cons, List.map_append]
    exact .emptyCall hroot (ih hts) hopener (hf.last hclose)
  | @call root opener close ts us names arguments hroot hnames hopener harguments hclose ihnames
      iharguments =>
    rw [← hf.text_eq root]
    obtain ⟨hroot, hf⟩ := hf.cons hroot (by decide)
    obtain ⟨hts, hf⟩ := hf.append hg hnames
    obtain ⟨hopener, hf⟩ := hf.cons hopener (by decide)
    obtain ⟨hus, hf⟩ := hf.append hg harguments
    rw [List.map_cons, List.map_append, List.map_cons, List.map_append]
    exact .call hroot (ihnames hts) hopener (iharguments hus) (hf.last hclose)
  | @property dot word ts steps hdot hword _ ih =>
    obtain ⟨hdot, hf'⟩ := hf.property hdot hword
    rw [← hf.text_eq word] at hword ⊢
    exact .property hdot hword (ih hf')
  | index hopener hindex hclose _ ihindex ihsteps =>
    obtain ⟨hopener, hf⟩ := hf.cons hopener (by decide)
    obtain ⟨his, hf⟩ := hf.append hg hindex
    obtain ⟨hclose, hts⟩ := hf.cons hclose (by decide)
    rw [List.map_cons, List.map_append, List.map_cons]
    exact .index hopener (ihindex his) hclose (ihsteps hts)
  | argument hfirst hcomma _ ihfirst ihrest =>
    obtain ⟨hts, hf⟩ := hf.append hg hfirst
    obtain ⟨hcomma, hus⟩ := hf.cons hcomma (by decide)
    rw [List.map_append, List.map_cons]
    exact .argument (ihfirst hts) hcomma (ihrest hus)
  | @required name hname =>
    rw [← hf.text_eq name]
    exact .required (hf.last hname)
  | @optional name colon ts n hname hcolon _ ih =>
    rw [← hf.text_eq name]
    obtain ⟨hname, hf⟩ := hf.cons hname (by decide)
    obtain ⟨hcolon, hts⟩ := hf.cons hcolon (by decide)
    exact .optional hname hcolon (ih hts)
  | moreParameters hfirst hcomma _ ihfirst ihrest =>
    obtain ⟨hts, hf⟩ := hf.append hg hfirst
    obtain ⟨hcomma, hus⟩ := hf.cons hcomma (by decide)
    rw [List.map_append, List.map_cons]
    exact .moreParameters (ihfirst hts) hcomma (ihrest hus)

/-- In what is derivable, tokens of kinds that the grammar does not use stand behind points. -/
theorem Derives.unused_behindPoints (hg : g.Distinct) {part : Part} {ts : List Token}
    {m : part.Meaning} (h : g.Derives part ts m)
    (hts : ∀ t ∈ ts, Text.isWord t.text = true → t.kind ≠ BasicKind.dot) :
    Token.BehindPoints (fun t => ¬ g.Uses t.kind) ts :=
  (h.pointed hg hts).unused

end Grammar

end ExprLang
