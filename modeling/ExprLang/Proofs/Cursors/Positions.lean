import ExprLang.Proofs.Cursors.Enclosure

/-!
# Positions of cursors

A cursor is a position in a sequence of tokens.  Going to a position, or some tokens away, stops at
the ends of the sequence (`Cursor.position_moveTo`, `Cursor.position_fork`).  A search stops at the
nearest position in its direction whose token is looked for (`Cursor.forward?_eq_some_iff`,
`Cursor.backward?_eq_some_iff`), and finds nothing only if there is no such position.
-/

namespace ExprLang

namespace Cursor

/-! ## Movements -/

theorem tokens_repeat {f : Cursor → Cursor} (hf : ∀ c, (f c).tokens = c.tokens) (n : Nat)
    (c : Cursor) : (Nat.repeat f n c).tokens = c.tokens := by
  induction n with
  | zero => rfl
  | succ n ih => exact (hf _).trans ih

theorem size_repeat {f : Cursor → Cursor} (hf : ∀ c, (f c).tokens = c.tokens) (n : Nat)
    (c : Cursor) : (Nat.repeat f n c).size = c.size :=
  congrArg List.length (tokens_repeat hf n c)

theorem position_repeat_next (n : Nat) (c : Cursor) :
    (Nat.repeat next n c).position = min (c.position + n) (c.size - 1) := by
  induction n with
  | zero =>
    have := c.position_lt_size
    change c.position = min (c.position + 0) (c.size - 1)
    omega
  | succ n ih =>
    change (Nat.repeat next n c).next.position = min (c.position + (n + 1)) (c.size - 1)
    rw [position_next, ih, size_repeat tokens_next]
    omega

theorem position_repeat_previous (n : Nat) (c : Cursor) :
    (Nat.repeat previous n c).position = c.position - n := by
  induction n with
  | zero => rfl
  | succ n ih =>
    change (Nat.repeat previous n c).previous.position = c.position - (n + 1)
    rw [position_previous, ih, Nat.sub_sub]

@[simp]
theorem tokens_moveTo (position : Nat) (c : Cursor) : (c.moveTo position).tokens = c.tokens := by
  rw [moveTo, tokens_repeat tokens_previous, tokens_repeat tokens_next]

/-- A position behind the last token means the last token. -/
theorem position_moveTo (position : Nat) (c : Cursor) :
    (c.moveTo position).position = min position (c.size - 1) := by
  have := c.position_lt_size
  rw [moveTo, position_repeat_previous, position_repeat_next]
  omega

@[simp]
theorem tokens_fork (offset : Int) (c : Cursor) : (c.fork offset).tokens = c.tokens :=
  c.tokens_moveTo _

/-- A fork is at the first or the last token if it would be outside the sequence. -/
theorem position_fork (offset : Int) (c : Cursor) :
    (c.fork offset).position = min (c.position + offset).toNat (c.size - 1) :=
  c.position_moveTo _

theorem getElem?_coming (n : Nat) (c : Cursor) :
    c.coming[n]? = c.tokens[c.position + (n + 1)]? := by
  rw [← List.getElem?_drop, drop_position, List.getElem?_cons_succ]

theorem getElem?_passed {n : Nat} {c : Cursor} (hn : n < c.position) :
    c.passed[n]? = c.tokens[c.position - (n + 1)]? := by
  have hlength : c.passed.reverse.length = c.position := List.length_reverse
  have hindex : c.position - (n + 1) < c.passed.reverse.length := by omega
  have hback : c.passed.length - 1 - (c.position - (n + 1)) = n := by
    change c.position - 1 - (c.position - (n + 1)) = n
    omega
  rw [tokens, List.getElem?_append_left hindex,
    List.getElem?_reverse (hindex.trans_eq List.length_reverse), hback]

/-- The token some tokens away is the one at that position, if this is no negative one. -/
theorem look?_eq (offset : Int) (c : Cursor) :
    c.look? offset =
      if 0 ≤ c.position + offset then c.tokens[(c.position + offset).toNat]? else none := by
  rcases lt_trichotomy offset 0 with hback | rfl | hahead
  case inl =>
    rw [look?, if_neg hback.ne, if_neg hback.not_gt]
    by_cases hwithin : 0 ≤ c.position + offset
    · have hn : (-offset).toNat - 1 < c.position := by omega
      have hindex : c.position - ((-offset).toNat - 1 + 1) = (c.position + offset).toNat := by omega
      rw [if_pos hwithin, getElem?_passed hn, hindex]
    · have hn : c.passed.length ≤ (-offset).toNat - 1 := by
        change c.position ≤ (-offset).toNat - 1
        omega
      rw [if_neg hwithin, List.getElem?_eq_none hn]
  case inr.inl => simp [look?, getElem?_position]
  case inr.inr =>
    have hindex : c.position + (offset.toNat - 1 + 1) = (c.position + offset).toNat := by omega
    rw [look?, if_neg hahead.ne', if_pos hahead, if_pos (by omega), getElem?_coming, hindex]

/-- A cursor is no more than its tokens and its position. -/
theorem eq_of_position {c d : Cursor} (htokens : d.tokens = c.tokens)
    (hposition : d.position = c.position) : d = c := by
  have hlength : d.passed.reverse.length = c.passed.reverse.length := by
    simpa [position] using hposition
  obtain ⟨hpassed, hahead⟩ := List.append_inj htokens hlength
  obtain ⟨hcurrent, hcoming⟩ := List.cons.inj hahead
  cases c
  cases d
  exact congr (congr (congrArg Cursor.mk (List.reverse_inj.1 hpassed)) hcurrent) hcoming

/-- There is a cursor at each position of the sequence. -/
theorem exists_position_eq (c : Cursor) {i : Nat} (hi : i < c.size) :
    ∃ d : Cursor, d.tokens = c.tokens ∧ d.position = i := by
  refine ⟨c.moveTo i, c.tokens_moveTo i, ?_⟩
  rw [position_moveTo]
  omega

/-! ## Searches -/

/-- Whether there is a token at the position, and it satisfies `p`. -/
def HoldsAt (p : Token → Bool) (c : Cursor) (i : Nat) : Prop :=
  ∃ t ∈ c.tokens[i]?, p t = true

/-- The positions from here on whose token satisfies `p`. -/
def matchesAhead (p : Token → Bool) (c : Cursor) : Set Nat :=
  {i | c.position ≤ i ∧ c.HoldsAt p i}

/-- The positions up to here whose token satisfies `p`. -/
def matchesBehind (p : Token → Bool) (c : Cursor) : Set Nat :=
  {i | i ≤ c.position ∧ c.HoldsAt p i}

section Search

variable {p : Token → Bool} {c d : Cursor} {i : Nat}

theorem holdsAt_congr (h : d.tokens = c.tokens) : d.HoldsAt p i ↔ c.HoldsAt p i := by
  rw [HoldsAt, HoldsAt, h]

theorem holdsAt_position : c.HoldsAt p c.position ↔ p c.current = true := by
  rw [HoldsAt, getElem?_position]
  simp

theorem HoldsAt.lt_size (h : c.HoldsAt p i) : i < c.size := by
  obtain ⟨t, ht, -⟩ := h
  exact (List.getElem?_eq_some_iff.1 ht).1

/-- The cursor here is the only one over its tokens at its position. -/
theorem some_eq_some_iff {Stop : Nat → Prop} (hhere : Stop c.position)
    (hunique : ∀ i, Stop i → i = c.position) :
    some c = some d ↔ d.tokens = c.tokens ∧ Stop d.position := by
  constructor
  · intro h
    obtain rfl := Option.some.inj h
    exact ⟨rfl, hhere⟩
  · rintro ⟨htokens, hstop⟩
    rw [eq_of_position htokens (hunique _ hstop)]

theorem isLeast_position (h : p c.current = true) : IsLeast (c.matchesAhead p) c.position :=
  ⟨⟨le_rfl, holdsAt_position.2 h⟩, fun _ hi => hi.1⟩

theorem isGreatest_position (h : p c.current = true) : IsGreatest (c.matchesBehind p) c.position :=
  ⟨⟨le_rfl, holdsAt_position.2 h⟩, fun _ hi => hi.1⟩

/-- If only the position here is searched, and its token is not looked for, there is no match. -/
theorem matches_eq_empty {Within : Nat → Prop} (h : ¬ p c.current = true)
    (honly : ∀ i < c.size, Within i → i = c.position) :
    {i | Within i ∧ c.HoldsAt p i} = ∅ := by
  refine Set.eq_empty_iff_forall_notMem.2 fun i hi => ?_
  have hhere : i = c.position := honly i hi.2.lt_size hi.1
  exact h (holdsAt_position.1 (hhere ▸ hi.2))

/-- If the token here is not looked for, it makes no difference whether its position is searched. -/
theorem matches_congr {Within Within' : Nat → Prop} (h : ¬ p c.current = true)
    (htokens : d.tokens = c.tokens) (hsame : ∀ i, i ≠ c.position → (Within' i ↔ Within i)) :
    {i | Within' i ∧ d.HoldsAt p i} = {i | Within i ∧ c.HoldsAt p i} := by
  ext i
  change Within' i ∧ d.HoldsAt p i ↔ Within i ∧ c.HoldsAt p i
  rw [holdsAt_congr htokens]
  refine and_congr_left fun hholds => hsame i fun hhere => ?_
  exact h (holdsAt_position.1 (hhere ▸ hholds))

/-- A search forward stops at the first match from here on. -/
theorem forward?_eq_some_iff : c.forward? p = some d ↔
    d.tokens = c.tokens ∧ IsLeast (c.matchesAhead p) d.position := by
  obtain ⟨passed, current, coming⟩ := c
  rw [forward?]
  dsimp only
  -- The search stops at a match.  A token that is none is passed, which leaves the matches ahead.
  fun_induction seekForward p passed current coming with
  | case1 passed current h =>
    exact some_eq_some_iff (isLeast_position h) fun i hi => hi.unique (isLeast_position h)
  | case2 passed current h =>
    have hempty : matchesAhead p ⟨passed, current, []⟩ = ∅ :=
      matches_eq_empty h fun i hi hahead => by
        rw [size_eq] at hi
        exact (Nat.le_of_lt_succ hi).antisymm hahead
    rw [hempty]
    exact iff_of_false nofun fun hleast => hleast.2.1
  | case3 passed current t rest h =>
    exact some_eq_some_iff (isLeast_position h) fun i hi => hi.unique (isLeast_position h)
  | case4 passed current t rest h ih =>
    have htokens := tokens_next ⟨passed, current, t :: rest⟩
    have hmatches : matchesAhead p ⟨current :: passed, t, rest⟩ =
        matchesAhead p ⟨passed, current, t :: rest⟩ :=
      matches_congr h htokens fun i hi =>
        ⟨fun hle => (Nat.le_succ _).trans hle, fun hle => Nat.lt_of_le_of_ne hle hi.symm⟩
    rw [ih, hmatches]
    exact and_congr_left' (Eq.congr_right htokens)

/-- A search backward stops at the last match up to here. -/
theorem backward?_eq_some_iff : c.backward? p = some d ↔
    d.tokens = c.tokens ∧ IsGreatest (c.matchesBehind p) d.position := by
  obtain ⟨passed, current, coming⟩ := c
  rw [backward?]
  dsimp only
  fun_induction seekBackward p coming current passed with
  | case1 coming current h =>
    exact some_eq_some_iff (isGreatest_position h) fun i hi => hi.unique (isGreatest_position h)
  | case2 coming current h =>
    have hempty : matchesBehind p ⟨[], current, coming⟩ = ∅ :=
      matches_eq_empty h fun i _ => Nat.le_zero.1
    rw [hempty]
    exact iff_of_false nofun fun hgreatest => hgreatest.2.1
  | case3 coming current t rest h =>
    exact some_eq_some_iff (isGreatest_position h) fun i hi => hi.unique (isGreatest_position h)
  | case4 coming current t rest h ih =>
    have htokens := tokens_previous ⟨t :: rest, current, coming⟩
    have hmatches : matchesBehind p ⟨rest, t, current :: coming⟩ =
        matchesBehind p ⟨t :: rest, current, coming⟩ :=
      matches_congr h htokens fun i hi =>
        ⟨fun hle => hle.trans (Nat.le_succ _), fun hle =>
          Nat.le_of_lt_succ (Nat.lt_of_le_of_ne hle hi)⟩
    rw [ih, hmatches]
    exact and_congr_left' (Eq.congr_right htokens)

/-- A search forward that finds nothing has passed no match. -/
theorem matchesAhead_of_forward? (h : c.forward? p = none) : c.matchesAhead p = ∅ := by
  by_contra hsome
  have hleast : IsLeast (c.matchesAhead p) (sInf (c.matchesAhead p)) :=
    ⟨Nat.sInf_mem (Set.nonempty_iff_ne_empty.2 hsome), fun _ => Nat.sInf_le⟩
  obtain ⟨d, htokens, hposition⟩ := c.exists_position_eq hleast.1.2.lt_size
  rw [forward?_eq_some_iff.2 ⟨htokens, hposition ▸ hleast⟩] at h
  cases h

/-- A search backward that finds nothing has passed no match. -/
theorem matchesBehind_of_backward? (h : c.backward? p = none) : c.matchesBehind p = ∅ := by
  by_contra hsome
  have hbounded : BddAbove (c.matchesBehind p) := ⟨c.position, fun _ hi => hi.1⟩
  have hgreatest : IsGreatest (c.matchesBehind p) (sSup (c.matchesBehind p)) :=
    ⟨Nat.sSup_mem (Set.nonempty_iff_ne_empty.2 hsome) hbounded, fun _ => le_csSup hbounded⟩
  obtain ⟨d, htokens, hposition⟩ := c.exists_position_eq hgreatest.1.2.lt_size
  rw [backward?_eq_some_iff.2 ⟨htokens, hposition ▸ hgreatest⟩] at h
  cases h

end Search

end Cursor

end ExprLang
