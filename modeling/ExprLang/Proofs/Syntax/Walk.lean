import ExprLang.Parse
import Mathlib

/-!
# Walks over tokens

Parsing moves a cursor over tokens.  `Walk c ts c'` says that taking the tokens at `c` one after the
other takes `ts` and ends at `c'`.  A cursor that is closed has an end token last, as every cursor
made from a list has; there, taking a token of another kind brings the end nearer.
-/

namespace ExprLang

namespace Cursor

/-- Whether the last token is an end token. -/
def Closed (c : Cursor) : Prop :=
  c.final.isEof = true

/-- Taking tokens from `c` on gives these tokens and stops at `c'`. -/
def Walk (c : Cursor) : List Token → Cursor → Prop
  | [], c' => c' = c
  | t :: rest, c' => c.current = t ∧ c.next.Walk rest c'

/-- The token here and all tokens to come. -/
def ahead (c : Cursor) : List Token :=
  c.current :: c.coming

@[simp]
theorem walk_nil (c c' : Cursor) : c.Walk [] c' ↔ c' = c := Iff.rfl

@[simp]
theorem walk_cons (c c' : Cursor) (t : Token) (ts : List Token) :
    c.Walk (t :: ts) c' ↔ c.current = t ∧ c.next.Walk ts c' := Iff.rfl

theorem walk_append {c c'' : Cursor} {ts us : List Token} :
    c.Walk (ts ++ us) c'' ↔ ∃ c', c.Walk ts c' ∧ c'.Walk us c'' := by
  induction ts generalizing c with
  | nil => simp
  | cons t rest ih =>
    simp only [List.cons_append, walk_cons, ih]
    constructor
    · rintro ⟨hhere, c', hrest, hus⟩
      exact ⟨c', ⟨hhere, hrest⟩, hus⟩
    · rintro ⟨c', ⟨hhere, hrest⟩, hus⟩
      exact ⟨hhere, c', hrest, hus⟩

/-- The walk over the token here. -/
theorem walk_singleton (c : Cursor) : c.Walk [c.current] c.next :=
  ⟨rfl, rfl⟩

/-- The token here and a walk behind it. -/
theorem Walk.cons {c c' : Cursor} {ts : List Token} (hts : c.next.Walk ts c') :
    c.Walk (c.current :: ts) c' :=
  ⟨rfl, hts⟩

theorem Walk.append {c c' c'' : Cursor} {ts us : List Token} (hts : c.Walk ts c')
    (hus : c'.Walk us c'') : c.Walk (ts ++ us) c'' :=
  walk_append.2 ⟨c', hts, hus⟩

/-- A walk that ends before the token at `c'`, and that token. -/
theorem Walk.concat {c c' : Cursor} {ts : List Token} (hts : c.Walk ts c') :
    c.Walk (ts ++ [c'.current]) c'.next :=
  hts.append c'.walk_singleton

@[simp]
theorem final_next (c : Cursor) : c.next.final = c.final := by
  unfold next
  split
  · rename_i t rest hcoming
    simp only [final, hcoming]
    cases rest <;> rfl
  · rfl

theorem Closed.next {c : Cursor} (h : c.Closed) : c.next.Closed := by
  unfold Closed
  rwa [final_next]

theorem Closed.walk {c c' : Cursor} {ts : List Token} (h : c.Closed) (hts : c.Walk ts c') :
    c'.Closed := by
  induction ts generalizing c with
  | nil => exact hts ▸ h
  | cons t rest ih => exact ih h.next hts.2

/-- At the last token of a closed cursor there is nothing but the end token. -/
theorem Closed.current_of_coming_nil {c : Cursor} (h : c.Closed) (hcoming : c.coming = []) :
    c.current.kind = BasicKind.eof := by
  simpa [Closed, final, hcoming, Token.isEof] using h

theorem coming_next_le (c : Cursor) : c.next.coming.length ≤ c.coming.length := by
  unfold next
  split
  · rename_i t rest hcoming
    simp [hcoming]
  · exact le_refl _

/-- Taking a token other than the end token leaves one token less to come. -/
theorem Closed.length_coming_next {c : Cursor} (h : c.Closed)
    (hkind : c.current.kind ≠ BasicKind.eof) :
    c.next.coming.length + 1 = c.coming.length := by
  unfold Cursor.next
  split
  · rename_i t rest hcoming
    simp [hcoming]
  · rename_i hcoming
    exact absurd (h.current_of_coming_nil hcoming) hkind

/-- How many tokens of the list are not end tokens. -/
def weight (ts : List Token) : Nat :=
  ts.countP fun t => !t.isEof

@[simp]
theorem weight_nil : weight [] = 0 := rfl

theorem weight_cons_of_ne {t : Token} (ts : List Token) (h : t.kind ≠ BasicKind.eof) :
    weight (t :: ts) = weight ts + 1 := by
  simp [weight, Token.isEof, h]

theorem Walk.coming_le {c c' : Cursor} {ts : List Token} (h : c.Walk ts c') :
    c'.coming.length ≤ c.coming.length := by
  induction ts generalizing c with
  | nil => exact le_of_eq (by rw [walk_nil] at h; rw [h])
  | cons t rest ih => exact (ih h.2).trans c.coming_next_le

/-- Every token of a walk that is no end token brings the end one token nearer. -/
theorem Closed.coming_add_weight_le {c c' : Cursor} {ts : List Token} (hc : c.Closed)
    (h : c.Walk ts c') : c'.coming.length + weight ts ≤ c.coming.length := by
  induction ts generalizing c with
  | nil => exact le_of_eq (by rw [walk_nil] at h; rw [h, weight_nil, Nat.add_zero])
  | cons t rest ih =>
    have hrest := ih hc.next h.2
    by_cases hkind : t.kind = BasicKind.eof
    · have hweight : weight (t :: rest) = weight rest := by simp [weight, Token.isEof, hkind]
      have hnext := c.coming_next_le
      omega
    · have hnext := hc.length_coming_next (by rwa [h.1])
      rw [weight_cons_of_ne rest hkind]
      omega

/-- A walk over tokens that are no end tokens passes exactly these tokens. -/
theorem Closed.walk_iff {c c' : Cursor} {ts : List Token} (hc : c.Closed)
    (hts : ∀ t ∈ ts, t.kind ≠ BasicKind.eof) :
    c.Walk ts c' ↔ c.ahead = ts ++ c'.ahead ∧ c'.passed = ts.reverse ++ c.passed := by
  induction ts generalizing c with
  | nil =>
    simp only [walk_nil, List.nil_append, List.reverse_nil, ahead, List.cons.injEq]
    constructor
    · rintro rfl
      exact ⟨⟨rfl, rfl⟩, rfl⟩
    · rintro ⟨⟨hcurrent, hcoming⟩, hpassed⟩
      obtain ⟨passed, current, coming⟩ := c
      obtain ⟨passed', current', coming'⟩ := c'
      simp_all
  | cons t rest ih =>
    have hkind : t.kind ≠ BasicKind.eof := hts t (by simp)
    have hrest : ∀ t ∈ rest, t.kind ≠ BasicKind.eof := fun u hu => hts u (by simp [hu])
    by_cases hhere : c.current = t
    · have hcoming : c.coming ≠ [] := fun hnil => by
        rw [← hhere] at hkind
        exact hkind (hc.current_of_coming_nil hnil)
      obtain ⟨u, us, hus⟩ := List.exists_cons_of_ne_nil hcoming
      have hnext : c.next = ⟨c.current :: c.passed, u, us⟩ := by simp [Cursor.next, hus]
      rw [walk_cons, ih hc.next hrest, hnext]
      simp [ahead, hus, hhere]
    · simp [ahead, hhere]

end Cursor

end ExprLang
