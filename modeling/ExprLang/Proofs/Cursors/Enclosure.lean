import ExprLang.Proofs.Syntax.Step

/-!
# Pairs of tokens

The search for the closer of a pair counts openers up and closers down.  Its counter is the number
of pairs that are still open, which is the difference of the two counts so far
(`Cursor.closer?_append`).  So the search stops where the counts become equal for the first time,
and before that its counter is positive (`Cursor.enclosed_balances`).
-/

namespace ExprLang

/-- How many of the tokens have the kind. -/
def Token.count (kind : TokenKind) (ts : List Token) : Nat :=
  ts.countP fun t => t.kind = kind

namespace Token

variable {opener close : TokenKind}

@[simp]
theorem count_nil (kind : TokenKind) : count kind [] = 0 := rfl

theorem count_append (kind : TokenKind) (ts us : List Token) :
    count kind (ts ++ us) = count kind ts + count kind us :=
  List.countP_append

theorem count_cons (kind : TokenKind) (t : Token) (ts : List Token) :
    count kind (t :: ts) = count kind [t] + count kind ts :=
  count_append kind [t] ts

theorem count_singleton (kind : TokenKind) (t : Token) :
    count kind [t] = if t.kind = kind then 1 else 0 := by
  simp [count, List.countP_cons]

/-- A token is not of two kinds. -/
theorem count_singleton_add_le (hne : opener ≠ close) (t : Token) :
    count opener [t] + count close [t] ≤ 1 := by
  rw [count_singleton, count_singleton]
  by_cases hopener : t.kind = opener
  · rw [if_pos hopener, if_neg (hopener ▸ hne)]
  · rw [if_neg hopener, Nat.zero_add]
    split <;> omega

end Token

namespace Cursor

open Token

section Search

variable {opener close : TokenKind} (hne : opener ≠ close) {depth : Nat}

/-- Where the tokens up to and with the one at `k` have as many closers as they have openers, with
`depth` openers in front of them. -/
def Settled (opener close : TokenKind) (depth : Nat) (ts : List Token) (k : Nat) : Prop :=
  k < ts.length ∧ depth + count opener (ts.take (k + 1)) = count close (ts.take (k + 1))

include hne

/-- The search goes past a token that is not the last closer, and its counter follows the counts. -/
theorem closer?_cons {t : Token} (hopen : count close [t] < depth + count opener [t])
    (rest : List Token) :
    closer? opener close depth (t :: rest) =
      (closer? opener close (depth + count opener [t] - count close [t]) rest).map (· + 1) := by
  rw [count_singleton, count_singleton] at hopen ⊢
  rw [closer?]
  by_cases hopener : t.kind = opener
  · have hclose : t.kind ≠ close := hopener ▸ hne
    simp [hopener, hne]
  · by_cases hclose : t.kind = close
    · rw [if_pos hclose, if_neg hopener] at hopen
      have hmany : ¬ depth ≤ 1 := Nat.not_le.2 hopen
      simp [hclose, hne.symm, hmany]
    · simp [hopener, hclose]

/-- The search goes past tokens as long as there have been more openers than closers, and its
counter is how many more. -/
theorem closer?_append {passed : List Token}
    (hopen : ∀ k ≤ passed.length,
      count close (passed.take k) < depth + count opener (passed.take k))
    (rest : List Token) :
    closer? opener close depth (passed ++ rest) =
      (closer? opener close (depth + count opener passed - count close passed) rest).map
        (· + passed.length) := by
  induction passed generalizing depth with
  | nil => simp
  | cons t passed ih =>
    have htail (k : Nat) (hk : k ≤ passed.length) := hopen (k + 1) (Nat.succ_le_succ hk)
    simp only [List.take_succ_cons, count_cons _ t (passed.take _)] at htail
    have hfirst : count close [t] < depth + count opener [t] := htail 0 (Nat.zero_le _)
    have hrest : ∀ k ≤ passed.length, count close (passed.take k) <
        depth + count opener [t] - count close [t] + count opener (passed.take k) := by
      intro k hk
      have := htail k hk
      omega
    have hcounter : depth + count opener [t] - count close [t] + count opener passed -
        count close passed = depth + count opener (t :: passed) - count close (t :: passed) := by
      rw [count_cons opener t passed, count_cons close t passed]
      omega
    rw [List.cons_append, closer?_cons hne hfirst, ih hrest, hcounter, Option.map_map]
    rfl

/-- Up to the first place where the counts are equal, there have been more openers than closers. -/
theorem count_lt_of_not_settled {ts : List Token} (hdepth : 0 < depth) {k : Nat}
    (hk : k ≤ ts.length) (hbefore : ∀ i < k, ¬ Settled opener close depth ts i) :
    count close (ts.take k) < depth + count opener (ts.take k) := by
  induction k with
  | zero => exact hdepth
  | succ k ih =>
    have hlt := ih (Nat.le_of_succ_le hk) fun i hi => hbefore i (Nat.lt_succ_of_lt hi)
    have hnot : depth + count opener (ts.take (k + 1)) ≠ count close (ts.take (k + 1)) :=
      fun hsame => hbefore k (Nat.lt_succ_self k) ⟨hk, hsame⟩
    have htake : ts.take (k + 1) = ts.take k ++ [ts[k]] := (List.take_concat_get' ts k hk).symm
    have hone := count_singleton_add_le hne ts[k]
    rw [htake, count_append, count_append] at hnot ⊢
    omega

/-- The search goes past all tokens before the first place where the counts are equal. -/
theorem closer?_take {ts : List Token} (hdepth : 0 < depth) {k : Nat} (hk : k ≤ ts.length)
    (hbefore : ∀ i < k, ¬ Settled opener close depth ts i) :
    closer? opener close depth ts =
      (closer? opener close (depth + count opener (ts.take k) - count close (ts.take k))
        (ts.drop k)).map (· + k) := by
  have hopen : ∀ j ≤ (ts.take k).length,
      count close ((ts.take k).take j) < depth + count opener ((ts.take k).take j) := by
    intro j hj
    rw [List.length_take_of_le hk] at hj
    rw [List.take_take, Nat.min_eq_left hj]
    exact count_lt_of_not_settled hne hdepth (hj.trans hk) fun i hi => hbefore i (hi.trans_le hj)
  have hsearch := closer?_append hne hopen (ts.drop k)
  rwa [List.take_append_drop, List.length_take_of_le hk] at hsearch

/-- The search finds the first place where the counts are equal. -/
theorem closer?_of_isLeast {ts : List Token} (hdepth : 0 < depth) {k : Nat}
    (h : IsLeast {k | Settled opener close depth ts k} k) :
    closer? opener close depth ts = some k := by
  obtain ⟨⟨hk, hsame⟩, hleast⟩ := h
  have hbefore : ∀ i < k, ¬ Settled opener close depth ts i :=
    fun i hi hsettled => hi.not_ge (hleast hsettled)
  -- the counts can only become equal at a closer, with one pair open
  have hopen := count_lt_of_not_settled hne hdepth hk.le hbefore
  have htake : ts.take (k + 1) = ts.take k ++ [ts[k]] := (List.take_concat_get' ts k hk).symm
  have hone := count_singleton_add_le hne ts[k]
  rw [htake, count_append, count_append] at hsame
  have hcounter : depth + count opener (ts.take k) - count close (ts.take k) = 1 := by omega
  have hclose : ts[k].kind = close := by
    by_contra hother
    rw [count_singleton close, if_neg hother] at hsame
    omega
  have hfound : closer? opener close 1 (ts[k] :: ts.drop (k + 1)) = some 0 := by
    simp [closer?, hclose, hne.symm]
  rw [closer?_take hne hdepth hk.le hbefore, hcounter, List.drop_eq_getElem_cons hk, hfound,
    Option.map_some, Nat.zero_add]

theorem closer?_eq_none {ts : List Token} (hdepth : 0 < depth)
    (h : ∀ k, ¬ Settled opener close depth ts k) : closer? opener close depth ts = none := by
  rw [closer?_take hne hdepth le_rfl fun i _ => h i, List.drop_length, closer?, Option.map_none]

theorem closer?_eq_some_iff {ts : List Token} (hdepth : 0 < depth) {k : Nat} :
    closer? opener close depth ts = some k ↔ IsLeast {k | Settled opener close depth ts k} k := by
  refine ⟨fun hfound => ?_, closer?_of_isLeast hne hdepth⟩
  by_cases hsettled : ∃ k, Settled opener close depth ts k
  · classical
    have hleast : IsLeast {k | Settled opener close depth ts k} (Nat.find hsettled) :=
      ⟨Nat.find_spec hsettled, fun _ => Nat.find_min' hsettled⟩
    have hk : k = Nat.find hsettled :=
      Option.some.inj (hfound.symm.trans (closer?_of_isLeast hne hdepth hleast))
    rwa [hk]
  · rw [closer?_eq_none hne hdepth (not_exists.1 hsettled)] at hfound
    cases hfound

end Search

/-- The search for a closer of the same kind as the opener finds none. -/
theorem closer?_self (kind : TokenKind) (depth : Nat) (ts : List Token) :
    closer? kind kind depth ts = none := by
  induction ts generalizing depth with
  | nil => rfl
  | cons t ts ih =>
    rw [closer?]
    by_cases hkind : t.kind = kind
    · rw [if_pos hkind, ih, Option.map_none]
    · rw [if_neg hkind, if_neg hkind, ih, Option.map_none]

/-! ## Ranges of positions -/

/-- The tokens from here up to and with the one at a position. -/
def upTo (last : Nat) (c : Cursor) : List Token :=
  (c.tokens.drop c.position).take (last + 1 - c.position)

/-- Whether up to a further position there are as many closers as openers. -/
def BalancedUpTo (opener close : TokenKind) (c : Cursor) (last : Nat) : Prop :=
  c.position < last ∧ last < c.size ∧ count opener (c.upTo last) = count close (c.upTo last)

theorem drop_position (c : Cursor) : c.tokens.drop c.position = c.current :: c.coming := by
  rw [tokens, position, ← List.length_reverse, List.drop_left]

theorem upTo_add (c : Cursor) (n : Nat) :
    c.upTo (c.position + n) = c.current :: c.coming.take n := by
  have hlength : c.position + n + 1 - c.position = n + 1 := by omega
  rw [upTo, drop_position, hlength, List.take_succ_cons]

theorem size_eq (c : Cursor) : c.size = c.position + c.coming.length + 1 := by
  simp [size, tokens, position, Nat.add_assoc]

section Range

variable {opener close : TokenKind} (hne : opener ≠ close) {c : Cursor}
  (hc : c.current.kind = opener)
include hne hc

theorem count_upTo_add (n : Nat) :
    count opener (c.upTo (c.position + n)) = 1 + count opener (c.coming.take n) ∧
      count close (c.upTo (c.position + n)) = count close (c.coming.take n) := by
  rw [upTo_add, count_cons opener c.current, count_cons close c.current, count_singleton,
    count_singleton, if_pos hc, if_neg (hc ▸ hne)]
  exact ⟨rfl, Nat.zero_add _⟩

theorem balancedUpTo_iff {last : Nat} : c.BalancedUpTo opener close last ↔
    ∃ k, Settled opener close 1 c.coming k ∧ last = c.position + (k + 1) := by
  constructor
  · rintro ⟨hahead, hlast, hsame⟩
    obtain ⟨k, rfl⟩ : ∃ k, last = c.position + (k + 1) := ⟨last - c.position - 1, by omega⟩
    obtain ⟨hopener, hclose⟩ := count_upTo_add hne hc (k + 1)
    rw [hopener, hclose] at hsame
    rw [size_eq] at hlast
    exact ⟨k, ⟨by omega, hsame⟩, rfl⟩
  · rintro ⟨k, ⟨hk, hsame⟩, rfl⟩
    obtain ⟨hopener, hclose⟩ := count_upTo_add hne hc (k + 1)
    refine ⟨by omega, ?_, ?_⟩
    · rw [size_eq]
      omega
    · rw [hopener, hclose, hsame]

theorem isLeast_balancedUpTo_iff {last : Nat} :
    IsLeast {i | c.BalancedUpTo opener close i} last ↔
      ∃ k, IsLeast {k | Settled opener close 1 c.coming k} k ∧ last = c.position + (k + 1) := by
  constructor
  · rintro ⟨hbalanced, hleast⟩
    obtain ⟨k, hk, rfl⟩ := (balancedUpTo_iff hne hc).1 hbalanced
    refine ⟨k, ⟨hk, fun j hj => ?_⟩, rfl⟩
    have := hleast ((balancedUpTo_iff hne hc).2 ⟨j, hj, rfl⟩)
    omega
  · rintro ⟨k, ⟨hk, hleast⟩, rfl⟩
    refine ⟨(balancedUpTo_iff hne hc).2 ⟨k, hk, rfl⟩, fun i hi => ?_⟩
    obtain ⟨j, hj, rfl⟩ := (balancedUpTo_iff hne hc).1 hi
    have := hleast hj
    omega

theorem enclosed_eq_ok_iff {range : Nat × Nat} : c.enclosed opener close = .ok range ↔
    ∃ last, IsLeast {i | c.BalancedUpTo opener close i} last ∧
      range = (c.position, last + 1) := by
  have hrange : c.enclosed opener close = .ok range ↔
      ∃ k, closer? opener close 1 c.coming = some k ∧ range = (c.position, c.position + k + 2) := by
    rw [enclosed, if_neg (not_not_intro hc)]
    cases closer? opener close 1 c.coming with
    | none => simp
    | some k => simp [eq_comm]
  simp only [hrange, closer?_eq_some_iff hne Nat.one_pos, isLeast_balancedUpTo_iff hne hc]
  constructor
  · rintro ⟨k, hk, rfl⟩
    exact ⟨_, ⟨k, hk, rfl⟩, rfl⟩
  · rintro ⟨_, ⟨k, hk, rfl⟩, rfl⟩
    exact ⟨k, hk, rfl⟩

/-- As long as there is no balance, more openers than closers have been seen, and the search goes on
with the difference for its counter. -/
theorem closer?_of_not_balanced {i : Nat} (hfrom : c.position ≤ i) (hi : i < c.size)
    (hbefore : ∀ last ≤ i, ¬ c.BalancedUpTo opener close last) :
    count close (c.upTo i) < count opener (c.upTo i) ∧
      closer? opener close 1 c.coming =
        (closer? opener close (count opener (c.upTo i) - count close (c.upTo i))
          (c.tokens.drop (i + 1))).map (· + (i - c.position)) := by
  obtain ⟨n, rfl⟩ := Nat.exists_eq_add_of_le hfrom
  rw [size_eq] at hi
  have hn : n ≤ c.coming.length := by omega
  have hbefore' (j : Nat) (hj : j < n) : ¬ Settled opener close 1 c.coming j := fun hsettled =>
    hbefore (c.position + (j + 1)) (by omega) ((balancedUpTo_iff hne hc).2 ⟨j, hsettled, rfl⟩)
  have hdrop : c.tokens.drop (c.position + n + 1) = c.coming.drop n := by
    rw [Nat.add_assoc, ← List.drop_drop, drop_position, List.drop_succ_cons]
  obtain ⟨hopener, hclose⟩ := count_upTo_add hne hc n
  rw [hopener, hclose, hdrop, Nat.add_sub_cancel_left]
  exact ⟨count_lt_of_not_settled hne Nat.one_pos hn hbefore',
    closer?_take hne Nat.one_pos hn hbefore'⟩

end Range

theorem kind_of_enclosed_eq_error {opener close : TokenKind} {c : Cursor} {e : Error}
    (h : c.enclosed opener close = .error e) : e.kind = .grammar := by
  rw [enclosed] at h
  split at h
  · rw [← Except.error.inj h]
    rfl
  · split at h
    · cases h
    · rw [← Except.error.inj h]
      rfl

/-- The range of an enclosure goes from an opener here up to the first further position at which
there have been as many closers as openers.  There is no such range for a closer of the kind of the
opener.  Every range that ends before this position has more openers than closers, and the
difference, which is the counter of the search there, is positive.  In all other cases there is a
grammar error, and the cursor stays in any case. -/
theorem enclosed_balances (opener close : TokenKind) (c : Cursor) :
    (∀ range, c.enclosed opener close = .ok range ↔
      opener ≠ close ∧ c.current.kind = opener ∧
        ∃ last, IsLeast {i | c.BalancedUpTo opener close i} last ∧
          range = (c.position, last + 1)) ∧
    (opener ≠ close → c.current.kind = opener → ∀ i, c.position ≤ i → i < c.size →
      (∀ last, IsLeast {i | c.BalancedUpTo opener close i} last → i < last) →
        count close (c.upTo i) < count opener (c.upTo i) ∧
        closer? opener close 1 c.coming =
          (closer? opener close (count opener (c.upTo i) - count close (c.upTo i))
            (c.tokens.drop (i + 1))).map (· + (i - c.position))) ∧
    (∀ e, c.enclosed opener close = .error e → e.kind = .grammar) ∧
    ((Parse.ensureEnclosed opener close).start c).2 = c := by
  refine ⟨fun range => ?_, fun hne hc i hfrom hi hbefore => ?_,
    fun e => kind_of_enclosed_eq_error, ?_⟩
  · constructor
    · intro hrange
      have hc := kind_of_enclosed hrange
      have hne : opener ≠ close := by
        rintro rfl
        rw [enclosed, if_neg (not_not_intro hc), closer?_self] at hrange
        cases hrange
      exact ⟨hne, hc, (enclosed_eq_ok_iff hne hc).1 hrange⟩
    · rintro ⟨hne, hc, hrange⟩
      exact (enclosed_eq_ok_iff hne hc).2 hrange
  · apply closer?_of_not_balanced hne hc hfrom hi
    intro last hlast hbalanced
    classical
    have hsome : ∃ j, c.BalancedUpTo opener close j := ⟨last, hbalanced⟩
    have hfirst := hbefore _ ⟨Nat.find_spec hsome, fun _ => Nat.find_min' hsome⟩
    have := Nat.find_min' hsome hbalanced
    omega
  · rw [Parse.start_ensureEnclosed]
    cases c.enclosed opener close <;> rfl

/-- The closer of the outer one of two pairs.  Behind the inner pair the outer one is still open. -/
theorem enclosed_balances_nested :
    let t (kind : BasicKind) : Token := ⟨kind, "", .none⟩
    let c := ofList [t .lparen, t .number, t .lparen, t .rparen, t .rparen, t .rparen]
    c.enclosed BasicKind.lparen BasicKind.rparen = .ok (0, 5) ∧
      IsLeast {i | c.BalancedUpTo BasicKind.lparen BasicKind.rparen i} 4 ∧
      count BasicKind.rparen (c.upTo 3) < count BasicKind.lparen (c.upTo 3) := by
  intro t c
  obtain ⟨hok, hopen, -, -⟩ := enclosed_balances BasicKind.lparen BasicKind.rparen c
  obtain ⟨hne, hc, last, hleast, hrange⟩ := (hok (0, 5)).1 rfl
  obtain rfl : last = 4 := by simpa using (Prod.mk.inj hrange).2.symm
  refine ⟨rfl, hleast, (hopen hne hc 3 (Nat.zero_le 3) (by decide) ?_).1⟩
  intro last hlast
  rw [hlast.unique hleast]
  decide

end Cursor

end ExprLang
