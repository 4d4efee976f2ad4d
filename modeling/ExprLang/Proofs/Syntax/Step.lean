import ExprLang.Proofs.Syntax.Walk

/-!
# What parsing steps give

`p.Gives c a c'` says that the step `p`, started at the cursor `c`, gives the result `a` and stops
at `c'`.  Each way to make a step has a lemma that says what it gives; together they take a parser
apart into the steps it is made of.
-/

namespace ExprLang

/-- Only at an opener there is something enclosed. -/
theorem Cursor.kind_of_enclosed {c : Cursor} {opener close : TokenKind} {range : Nat × Nat}
    (h : c.enclosed opener close = .ok range) : c.current.kind = opener := by
  by_contra hkind
  rw [enclosed, if_pos hkind] at h
  cases h

namespace Parse

variable {α β : Type}

/-- What comes of the step at `c`, and the cursor where it stops. -/
def start (p : Parse α) (c : Cursor) : Except Error α × Cursor :=
  p c

/-- The step gives `a` at `c` and stops at `c'`. -/
def Gives (p : Parse α) (c : Cursor) (a : α) (c' : Cursor) : Prop :=
  p.start c = (.ok a, c')

theorem Gives.unique {p : Parse α} {c c' c'' : Cursor} {a b : α} (h : p.Gives c a c')
    (h' : p.Gives c b c'') : a = b ∧ c' = c'' := by
  have heq := h.symm.trans h'
  simpa only [Prod.mk.injEq, Except.ok.injEq] using heq

@[simp]
theorem gives_pure {a b : α} {c c' : Cursor} :
    (pure a : Parse α).Gives c b c' ↔ b = a ∧ c' = c := by
  constructor
  · intro h
    obtain ⟨ha, hc⟩ := Prod.mk.inj h
    exact ⟨(Except.ok.inj ha).symm, hc.symm⟩
  · rintro ⟨rfl, rfl⟩
    rfl

/-- A step with another one behind it, which needs the result of the first. -/
theorem start_bind (p : Parse α) (f : α → Parse β) (c : Cursor) :
    (p >>= f).start c =
      match p.start c with
      | (.ok a, c') => (f a).start c'
      | (.error e, c') => (.error e, c') := by
  rcases hp : p.start c with ⟨_ | a, c'⟩
  · change (match p.start c with | (r, c₁) => (ExceptT.bindCont f r : StateM _ _) c₁) = _
    rw [hp]
    rfl
  · change (match p.start c with | (r, c₁) => (ExceptT.bindCont f r : StateM _ _) c₁) = _
    rw [hp]
    rfl

theorem start_current_bind (f : Token → Parse β) (c : Cursor) :
    (current >>= f).start c = (f c.current).start c := rfl

theorem start_consume_bind (f : Token → Parse β) (c : Cursor) :
    (consume >>= f).start c = (f c.current).start c.next := rfl

theorem start_remaining_bind (f : Nat → Parse β) (c : Cursor) :
    (remaining >>= f).start c = (f c.coming.length).start c := rfl

@[simp]
theorem gives_bind {p : Parse α} {f : α → Parse β} {c c'' : Cursor} {b : β} :
    (p >>= f).Gives c b c'' ↔ ∃ a c', p.Gives c a c' ∧ (f a).Gives c' b c'' := by
  unfold Gives
  rw [start_bind]
  constructor
  · intro h
    rcases hp : p.start c with ⟨_ | a, c'⟩
    · rw [hp] at h
      cases h
    · rw [hp] at h
      exact ⟨a, c', rfl, h⟩
  · rintro ⟨a, c', hp, hf⟩
    rw [hp]
    exact hf

@[simp]
theorem gives_map {p : Parse α} {f : α → β} {c c' : Cursor} {b : β} :
    (f <$> p).Gives c b c' ↔ ∃ a, p.Gives c a c' ∧ b = f a := by
  rw [← bind_pure_comp]
  simp only [gives_bind, gives_pure]
  constructor
  · rintro ⟨a, c₁, hp, rfl, rfl⟩
    exact ⟨a, hp, rfl⟩
  · rintro ⟨a, hp, rfl⟩
    exact ⟨a, c', hp, rfl, rfl⟩

@[simp]
theorem not_gives_throw {e : Error} {c c' : Cursor} {a : α} :
    ¬ (throw e : Parse α).Gives c a c' := by
  intro h
  cases h

@[simp]
theorem gives_get {c c' c'' : Cursor} : (get : Parse Cursor).Gives c c' c'' ↔ c' = c ∧ c'' = c := by
  constructor
  · intro h
    obtain ⟨ha, hc⟩ := Prod.mk.inj h
    exact ⟨(Except.ok.inj ha).symm, hc.symm⟩
  · rintro ⟨rfl, rfl⟩
    rfl

@[simp]
theorem gives_set {c c' c'' : Cursor} {u : PUnit} :
    (set c' : Parse PUnit).Gives c u c'' ↔ c'' = c' := by
  constructor
  · intro h
    exact (Prod.mk.inj h).2.symm
  · rintro rfl
    rfl

@[simp]
theorem gives_current {c c' : Cursor} {t : Token} :
    current.Gives c t c' ↔ t = c.current ∧ c' = c := by
  simp only [current, gives_bind, gives_get, gives_pure]
  constructor
  · rintro ⟨_, _, ⟨rfl, rfl⟩, rfl, rfl⟩
    exact ⟨rfl, rfl⟩
  · rintro ⟨rfl, rfl⟩
    exact ⟨_, _, ⟨rfl, rfl⟩, rfl, rfl⟩

@[simp]
theorem gives_remaining {c c' : Cursor} {n : Nat} :
    remaining.Gives c n c' ↔ n = c.coming.length ∧ c' = c := by
  simp only [remaining, gives_bind, gives_get, gives_pure]
  constructor
  · rintro ⟨_, _, ⟨rfl, rfl⟩, rfl, rfl⟩
    exact ⟨rfl, rfl⟩
  · rintro ⟨rfl, rfl⟩
    exact ⟨_, _, ⟨rfl, rfl⟩, rfl, rfl⟩

@[simp]
theorem gives_consume {c c' : Cursor} {t : Token} :
    consume.Gives c t c' ↔ t = c.current ∧ c' = c.next := by
  simp only [consume, gives_bind, gives_get, gives_set, gives_pure]
  constructor
  · rintro ⟨_, _, ⟨rfl, rfl⟩, _, _, rfl, rfl, rfl⟩
    exact ⟨rfl, rfl⟩
  · rintro ⟨rfl, rfl⟩
    exact ⟨_, _, ⟨rfl, rfl⟩, ⟨⟩, _, rfl, rfl, rfl⟩

/-- The token here is taken if it has the kind, and else nothing happens. -/
theorem start_accept? (kind : TokenKind) (c : Cursor) :
    (accept? kind).start c =
      if c.current.kind = kind then (.ok (some c.current), c.next) else (.ok none, c) := by
  unfold accept?
  rw [start_bind]
  change (if c.current.kind = kind then return some (← consume) else return none :
    Parse (Option Token)).start c = _
  split <;> rfl

@[simp]
theorem gives_accepts {kind : TokenKind} {c c' : Cursor} {b : Bool} :
    (accepts kind).Gives c b c' ↔
      b = true ∧ c.current.kind = kind ∧ c' = c.next ∨
        b = false ∧ c.current.kind ≠ kind ∧ c' = c := by
  unfold accepts Gives
  rw [start_bind, start_accept?]
  by_cases hkind : c.current.kind = kind
  · rw [if_pos hkind]
    change (Except.ok true, c.next) = (Except.ok b, c') ↔ _
    simp only [Prod.mk.injEq, Except.ok.injEq, hkind, ne_eq, not_true_eq_false, false_and,
      and_false, or_false, true_and, eq_comm]
  · rw [if_neg hkind]
    change (Except.ok false, c) = (Except.ok b, c') ↔ _
    simp only [Prod.mk.injEq, Except.ok.injEq, hkind, ne_eq, not_false_eq_true, false_and,
      and_false, false_or, true_and, eq_comm]

@[simp]
theorem not_gives_unexpected {what : String} {c c' : Cursor} {a : α} :
    ¬ (unexpected what : Parse α).Gives c a c' := by
  simp [unexpected]

@[simp]
theorem not_gives_failHere {fault : Fault} {c c' : Cursor} {a : α} :
    ¬ (failHere fault : Parse α).Gives c a c' := by
  simp [failHere]

/-- The token here is taken if it has the kind, and else there is an error. -/
theorem start_ensure (kind : TokenKind) (c : Cursor) :
    (ensure kind).start c =
      if c.current.kind = kind then (.ok c.current, c.next)
      else (.error (c.unexpected (Fault.mention kind.describe)), c) := by
  rw [ensure, start_bind, start_accept?]
  by_cases hkind : c.current.kind = kind
  · rw [if_pos hkind, if_pos hkind]
    rfl
  · rw [if_neg hkind, if_neg hkind]
    rfl

theorem start_ensureAny (kinds : List TokenKind) (c : Cursor) :
    (ensureAny kinds).start c =
      if c.current.kind ∈ kinds then (.ok c.current, c.next)
      else (.error (c.unexpected
        (" or ".intercalate (kinds.map fun kind => Fault.mention kind.describe))), c) := by
  change (if c.isAt kinds then consume else unexpected _ : Parse Token).start c = _
  simp only [Cursor.isAt, List.contains_iff_mem]
  split <;> rfl

@[simp]
theorem gives_ensure {kind : TokenKind} {c c' : Cursor} {t : Token} :
    (ensure kind).Gives c t c' ↔ t = c.current ∧ c.current.kind = kind ∧ c' = c.next := by
  rw [Gives, start_ensure]
  by_cases hkind : c.current.kind = kind
  · rw [if_pos hkind]
    simp only [Prod.mk.injEq, Except.ok.injEq, hkind, true_and, eq_comm]
  · simp [hkind]

/-- Nothing happens at an opener with a balancing closer. -/
theorem start_ensureEnclosed (opener close : TokenKind) (c : Cursor) :
    (ensureEnclosed opener close).start c =
      match c.enclosed opener close with
      | .ok _ => (.ok (), c)
      | .error e => (.error e, c) := by
  change (match c.enclosed opener close with
    | .ok _ => pure ()
    | .error e => throw e : Parse Unit).start c = _
  cases c.enclosed opener close <;> rfl

@[simp]
theorem gives_ensureEnclosed {opener close : TokenKind} {c c' : Cursor} {u : Unit} :
    (ensureEnclosed opener close).Gives c u c' ↔
      (∃ range, c.enclosed opener close = .ok range) ∧ c' = c := by
  rw [Gives, start_ensureEnclosed]
  cases c.enclosed opener close with
  | ok range =>
    constructor
    · intro h
      exact ⟨⟨range, rfl⟩, (Prod.mk.inj h).2.symm⟩
    · rintro ⟨-, rfl⟩
      rfl
  | error e =>
    constructor
    · intro h
      cases h
    · rintro ⟨⟨_, h⟩, -⟩
      cases h

@[simp]
theorem gives_liftAt {token : Token} {result : Except Fault α} {c c' : Cursor} {a : α} :
    (liftAt token result).Gives c a c' ↔ result = .ok a ∧ c' = c := by
  cases result with
  | ok b => simp [liftAt, eq_comm]
  | error fault => simp [liftAt]

/-! Steps with a known first part, for runs that are followed forward. -/

theorem Gives.start_bind {p : Parse α} {c c' : Cursor} {a : α} (h : p.Gives c a c')
    (f : α → Parse β) : (p >>= f).start c = (f a).start c' := by
  rw [Parse.start_bind, h]

theorem start_ensure_bind {kind : TokenKind} {c : Cursor} (h : c.current.kind = kind)
    (f : Token → Parse β) : (ensure kind >>= f).start c = (f c.current).start c.next :=
  Gives.start_bind (gives_ensure.2 ⟨rfl, h, rfl⟩) f

theorem start_accepts_bind_of_eq {kind : TokenKind} {c : Cursor} (h : c.current.kind = kind)
    (f : Bool → Parse β) : (accepts kind >>= f).start c = (f true).start c.next :=
  Gives.start_bind (gives_accepts.2 (.inl ⟨rfl, h, rfl⟩)) f

theorem start_accepts_bind_of_ne {kind : TokenKind} {c : Cursor} (h : c.current.kind ≠ kind)
    (f : Bool → Parse β) : (accepts kind >>= f).start c = (f false).start c :=
  Gives.start_bind (gives_accepts.2 (.inr ⟨rfl, h, rfl⟩)) f

end Parse

end ExprLang
