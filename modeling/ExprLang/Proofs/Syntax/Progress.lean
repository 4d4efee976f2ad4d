import ExprLang.Proofs.Syntax.Depth

/-!
# Progress

Whatever is parsed as a construct takes at least one token that is no end token, unless an operator
in front is spelled by one.  Since such a token is never the last, parsing moves the cursor on
(`Grammar.KeepsCore.advances`).
-/

namespace ExprLang

open Parse

namespace Cursor

theorem weight_append (ts us : List Token) : weight (ts ++ us) = weight ts + weight us :=
  List.countP_append

theorem weight_pos_of_kind {t : Token} {kind : TokenKind} (ht : t.kind = kind) (ts : List Token)
    (hkind : kind ≠ BasicKind.eof) : 0 < weight (t :: ts) := by
  rw [weight_cons_of_ne ts (ht ▸ hkind)]
  exact Nat.succ_pos _

/-- A walk goes over as many tokens as it leaves fewer to come. -/
theorem Walk.position_add {c c' : Cursor} {ts : List Token} (h : c.Walk ts c') :
    c'.position + c'.coming.length = c.position + c.coming.length := by
  induction ts generalizing c with
  | nil =>
    obtain rfl : c' = c := h
    rfl
  | cons t rest ih =>
    rw [ih h.2, Cursor.next]
    cases hcoming : c.coming with
    | nil => simp only [hcoming]
    | cons u us =>
      simp only [position, List.length_cons]
      omega

/-- A walk over a token that is no end token goes forward. -/
theorem Closed.position_lt {c c' : Cursor} (hc : c.Closed) {ts : List Token} (h : c.Walk ts c')
    (hts : 0 < weight ts) : c.position < c'.position := by
  have hcoming := hc.coming_add_weight_le h
  have hsum := h.position_add
  omega

/-- Taking a token that is no end token moves on by one. -/
theorem Closed.position_next {c : Cursor} (hc : c.Closed)
    (hkind : c.current.kind ≠ BasicKind.eof) : c.next.position = c.position + 1 := by
  have hcoming := hc.length_coming_next hkind
  have hsum := c.walk_singleton.position_add
  omega

/-- Taking tokens leads from the first cursor to the second. -/
def Reaches (c c' : Cursor) : Prop :=
  ∃ ts, c.Walk ts c'

namespace Reaches

variable {c c' c'' : Cursor}

theorem refl (c : Cursor) : c.Reaches c :=
  ⟨[], rfl⟩

theorem trans (h : c.Reaches c') (h' : c'.Reaches c'') : c.Reaches c'' := by
  obtain ⟨ts, hts⟩ := h
  obtain ⟨us, hus⟩ := h'
  exact ⟨ts ++ us, hts.append hus⟩

theorem next (h : c.Reaches c') : c.Reaches c'.next :=
  h.trans ⟨_, c'.walk_singleton⟩

theorem closed (h : c.Reaches c') (hc : c.Closed) : c'.Closed := by
  obtain ⟨ts, hts⟩ := h
  exact hc.walk hts

theorem position_add (h : c.Reaches c') :
    c'.position + c'.coming.length = c.position + c.coming.length := by
  obtain ⟨ts, hts⟩ := h
  exact hts.position_add

theorem position_le (h : c.Reaches c') : c.position ≤ c'.position := by
  obtain ⟨ts, hts⟩ := h
  have hcoming := hts.coming_le
  have hsum := hts.position_add
  omega

/-- Where the cursor has not moved on, it is the same. -/
theorem eq_or_lt (h : c.Reaches c') : c' = c ∨ c.position < c'.position := by
  obtain ⟨ts, hts⟩ := h
  induction ts generalizing c with
  | nil => exact .inl hts
  | cons t rest ih =>
    cases hcoming : c.coming with
    | nil =>
      have hnext : c.next = c := by simp [Cursor.next, hcoming]
      rw [← hnext]
      exact ih hts.2
    | cons u us =>
      have hnext : c.next.position = c.position + 1 := by
        simp [Cursor.next, hcoming, Cursor.position]
      have hle := Reaches.position_le ⟨rest, hts.2⟩
      exact .inr (by omega)

end Reaches

end Cursor

open Cursor

namespace Grammar

/-- No operator is spelled by an end token. -/
structure EofFree (g : Grammar) : Prop where
  binary : ∀ op ∈ g.binary, op.token ≠ BasicKind.eof
  before : ∀ op ∈ g.before, op.token ≠ BasicKind.eof
  after : ∀ op ∈ g.after, op.token ≠ BasicKind.eof

variable {g : Grammar}

theorem EofFree.ne_of_binary? (hg : g.EofFree) {kind : TokenKind} {op : BinaryOperator}
    (hop : g.binary? kind = some op) : kind ≠ BasicKind.eof := by
  have htoken : op.token = kind := by simpa using List.find?_some hop
  exact htoken ▸ hg.binary op (List.mem_of_find?_eq_some hop)

theorem EofFree.ne_of_before? (hg : g.EofFree) {kind : TokenKind} {op : UnaryOperator}
    (hop : g.before? kind = some op) : kind ≠ BasicKind.eof := by
  have htoken : op.token = kind := by simpa using List.find?_some hop
  exact htoken ▸ hg.before op (List.mem_of_find?_eq_some hop)

/-- A part that cannot be empty has a token that is no end token. -/
theorem Derives.weight_pos (hg : g.EofFree) {part : Part} {ts : List Token} {m : part.Meaning}
    (h : g.Derives part ts m) (hoperations : part ≠ .operations) (hsteps : part ≠ .steps) :
    0 < weight ts := by
  induction h with
  | plain _ ih => exact ih (by decide) (by decide)
  | choice _ _ _ _ _ ih =>
    rw [weight_append]
    exact Nat.add_pos_left (ih (by decide) (by decide)) _
  | nested _ _ _ _ _ _ ih =>
    rw [weight_append]
    exact Nat.add_pos_left (ih (by decide) (by decide)) _
  | noOperation | operation => exact absurd rfl hoperations
  | before hop => exact weight_pos_of_kind rfl _ (hg.ne_of_before? hop)
  | bare _ ih => exact ih (by decide) (by decide)
  | after _ _ ih =>
    rw [weight_append]
    exact Nat.add_pos_left (ih (by decide) (by decide)) _
  | number hkind | string hkind | trueWord hkind | falseWord hkind | nullWord hkind | group hkind
  | emptyList hkind | list hkind | reference hkind | emptyCall hkind | call hkind | required hkind
  | optional hkind => exact weight_pos_of_kind hkind _ (by decide)
  | noStep | property | index => exact absurd rfl hsteps
  | lastArgument _ ih => exact ih (by decide) (by decide)
  | argument _ _ _ ih =>
    rw [weight_append]
    exact Nat.add_pos_left (ih (by decide) (by decide)) _
  | lastParameter _ ih => exact ih (by decide) (by decide)
  | moreParameters _ _ _ ih =>
    rw [weight_append]
    exact Nat.add_pos_left (ih (by decide) (by decide)) _

end Grammar

/-- Wherever the step gives a result, it has moved on. -/
def Parse.Advances {α : Type} (p : Parse α) : Prop :=
  ∀ c a c', c.Closed → p.Gives c a c' → c.Reaches c' ∧ c.position < c'.position

namespace ConstructParser

theorem aliased_advances : aliased.Advances := by
  intro c n c' hc h
  obtain ⟨-, hkind, ts, hts⟩ := aliased_walk h
  exact ⟨⟨_, .cons hts⟩, hc.position_lt (.cons hts) (weight_pos_of_kind hkind ts (by decide))⟩

/-- Items take as much as the first of them. -/
theorem itemsWithin_advances {α : Type} {separator : TokenKind} {item : Parse α}
    (hitem : item.Advances) (rounds : Nat) : (itemsWithin separator item rounds).Advances := by
  induction rounds with
  | zero => exact fun c as c' _ h => absurd h not_gives_failHere
  | succ rounds ih =>
    intro c as c' hc h
    simp only [itemsWithin, gives_bind, gives_accepts] at h
    obtain ⟨first, c₁, hfirst, _, c₂, haccept, h⟩ := h
    obtain ⟨hreaches, hlt⟩ := hitem c first c₁ hc hfirst
    rcases haccept with ⟨rfl, -, rfl⟩ | ⟨rfl, -, rfl⟩
    · simp only [↓reduceIte, gives_bind, gives_pure] at h
      obtain ⟨rest, c₃, hrest, rfl, rfl⟩ := h
      obtain ⟨hrest, -⟩ := ih _ _ _ (hreaches.next.closed hc) hrest
      have hbehind := (Reaches.refl c₁).next.trans hrest
      exact ⟨hreaches.trans hbehind, hlt.trans_le hbehind.position_le⟩
    · simp only [Bool.false_eq_true, ↓reduceIte, gives_pure] at h
      obtain ⟨rfl, rfl⟩ := h
      exact ⟨hreaches, hlt⟩

theorem names_advances (rules : Rules) : (names rules).Advances := by
  intro c n c' hc h
  simp only [names, items, gives_bind, gives_remaining, gives_pure] at h
  obtain ⟨nodes, c₁, ⟨_, _, ⟨rfl, rfl⟩, hnodes⟩, rfl, rfl⟩ := h
  exact itemsWithin_advances aliased_advances _ _ _ _ hc hnodes

end ConstructParser

namespace Grammar

variable {g : Grammar}

/-- Parsing a construct of the core grammar takes at least one token. -/
theorem KeepsCore.advances (hkeeps : g.KeepsCore) (hg : g.EofFree) {construct : Construct}
    (hcore : construct ∈ Construct.core) : (g.parse construct).Advances := by
  intro c n c' hc h
  obtain ⟨ts, hts, hproduces⟩ := hkeeps.walk_of_parse hcore c n c' h
  refine ⟨⟨ts, hts⟩, ?_⟩
  cases construct with
  | expression | ternary | binary | unary | primary | path =>
    exact hc.position_lt hts (Derives.weight_pos hg hproduces (by decide) (by decide))
  | arguments =>
    obtain ⟨items, -, hderives⟩ := hproduces
    exact hc.position_lt hts (hderives.weight_pos hg (by decide) (by decide))
  | parameters =>
    obtain ⟨params, -, opener, close, us, rfl, hopener, -⟩ := hproduces
    exact hc.position_lt hts (weight_pos_of_kind hopener _ (by decide))
  | names =>
    rw [hkeeps.gives_parse rfl hc] at h
    exact (ConstructParser.names_advances _ _ _ _ hc h).2
  | custom name => exact hproduces.elim

end Grammar

end ExprLang
