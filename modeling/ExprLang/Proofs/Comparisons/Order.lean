import ExprLang.Operators.Core
import ExprLang.Proofs.Comparisons.Equality
import Mathlib.Data.Char
import Mathlib.Data.String.Basic
import Mathlib.Order.Compare

/-!
# The order of values

Integers of both widths are ordered as numbers, texts by their characters from the left, and
characters by their code points.  Each of these kinds has a key in a linear order, and the six
comparison operators, though they are computed by different functions, all say what is true of the
keys (`Operators.applyBinary_of_keys`).  So they agree with each other on one total order
(`Operators.comparisons_totalOrder`).
-/

namespace ExprLang

/-- The kinds of values that have an order. -/
inductive Kind where
  /-- integers of both widths -/
  | integers
  | texts
  | characters
  deriving DecidableEq, Repr

namespace Kind

/-- The types of the values of a kind. -/
def tags : Kind → List TypeTag
  | integers => [.int, .long]
  | texts => [.string]
  | characters => [.char]

/-- The value is of the kind. -/
def Has (k : Kind) (v : Value) : Prop :=
  v.tag ∈ k.tags

instance (k : Kind) (v : Value) : Decidable (k.Has v) :=
  inferInstanceAs (Decidable (v.tag ∈ k.tags))

/-! ## Keys -/

/-- What the values of a kind are ordered by. -/
def Key : Kind → Type
  | integers => Int
  | texts => String
  | characters => Char

instance (k : Kind) : LinearOrder k.Key :=
  match k with
  | integers => inferInstanceAs (LinearOrder Int)
  | texts => inferInstanceAs (LinearOrder String)
  | characters => inferInstanceAs (LinearOrder Char)

/-- The key of a value of the kind. -/
def key? : (k : Kind) → Value → Option k.Key
  | integers, v => v.integer?
  | texts, v => v.str?
  | characters, .char c => some c
  | characters, _ => none

theorem has_iff_exists_key {k : Kind} {v : Value} : k.Has v ↔ ∃ x, k.key? v = some x := by
  constructor
  · intro h
    cases k <;> cases v <;> first | exact ⟨_, rfl⟩ | simp [Has, tags, Value.tag] at h
  · rintro ⟨x, hx⟩
    cases k <;> cases v <;> cases hx <;> simp [Has, tags, Value.tag]

theorem exists_key {k : Kind} {v : Value} (h : k.Has v) : ∃ x, k.key? v = some x :=
  has_iff_exists_key.1 h

end Kind

/-- A comparison through an embedding in a linear order is one in this order. -/
theorem compares_of_embedding {α κ : Type} [LT α] [DecidableLT α] [DecidableEq α] [LinearOrder κ]
    {f : α → κ} (hlt : ∀ {x y}, x < y ↔ f x < f y) (heq : ∀ {x y}, f x = f y ↔ x = y) (x y : α) :
    (compareOfLessAndEq x y).Compares (f x) (f y) := by
  rw [compareOfLessAndEq]
  split
  case isTrue h => exact hlt.1 h
  case isFalse hge =>
    split
    case isTrue h => exact heq.2 h
    case isFalse hne => exact lt_of_le_of_ne (not_lt.1 (mt hlt.2 hge)) (mt heq.1 (Ne.symm hne))

section Keys

variable {k : Kind} {a b : Value} {x y : k.Key} (ha : k.key? a = some x) (hb : k.key? b = some y)
include ha hb

/-- Two values of a kind are in the order of their keys. -/
theorem Value.order_of_keys : ∃ o, a.order b = .ok (some o) ∧ o.Compares x y := by
  cases k with
  | integers =>
    obtain ⟨m, hm, rfl⟩ := exists_long_of_integer? ha
    obtain ⟨n, hn, rfl⟩ := exists_long_of_integer? hb
    refine ⟨compareOfLessAndEq m n, ?_, ?_⟩
    · cases a <;> cases hm <;> cases b <;> cases hn <;> rfl
    · exact compares_of_embedding Int64.lt_iff_toInt_lt Int64.toInt_inj m n
  | texts =>
    cases a <;> cases ha
    cases b <;> cases hb
    exact ⟨_, rfl, compares_of_embedding (f := id) Iff.rfl Iff.rfl x y⟩
  | characters =>
    cases a <;> cases ha
    cases b <;> cases hb
    exact ⟨_, rfl, compares_of_embedding (f := id) Iff.rfl Iff.rfl x y⟩

/-- Two values of a kind are equal if their keys are. -/
theorem Value.equals_of_keys : a.equals b = true ↔ x = y := by
  cases k with
  | integers => exact equals_integers_iff ha hb
  | texts =>
    cases a <;> cases ha
    cases b <;> cases hb
    exact beq_iff_eq
  | characters =>
    cases a <;> cases ha
    cases b <;> cases hb
    exact beq_iff_eq

end Keys

namespace Operators

/-- The operations that compare two values. -/
def comparisons : List Operation :=
  [.less, .lessEqual, .equal, .notEqual, .greater, .greaterEqual]

/-- What a comparison says of two keys. -/
def Relates {κ : Type} [LinearOrder κ] (x y : κ) : Operation → Prop
  | .less => x < y
  | .lessEqual => x ≤ y
  | .equal => x = y
  | .notEqual => x ≠ y
  | .greater => y < x
  | .greaterEqual => y ≤ x
  | _ => False

/-- Exactly one of less, equal and greater is true of two keys. -/
theorem existsUnique_relates {κ : Type} [LinearOrder κ] (x y : κ) :
    ∃! op, op ∈ [.less, .equal, .greater] ∧ Relates x y op := by
  rcases lt_trichotomy x y with h | h | h
  · refine ⟨.less, ⟨by decide, h⟩, ?_⟩
    simp [Relates, or_imp, forall_and, h.ne, h.not_gt]
  · refine ⟨.equal, ⟨by decide, h⟩, ?_⟩
    simp [Relates, or_imp, forall_and, h]
  · refine ⟨.greater, ⟨by decide, h⟩, ?_⟩
    simp [Relates, or_imp, forall_and, h.ne', h.not_gt]

/-- The core operators find that the comparison holds. -/
def Holds (op : Operation) (a b : Value) : Prop :=
  core.applyBinary op a b = .ok (.bool true)

theorem Comparison.holds_iff (op : Comparison) {κ : Type} [LinearOrder κ] {x y : κ} {o : Ordering}
    (h : o.Compares x y) : op.holds o = true ↔ Relates x y op.operation := by
  cases op with
  | less => exact beq_iff_eq.trans h.eq_lt
  | lessEqual => exact bne_iff_ne.trans h.ne_gt
  | greater => exact beq_iff_eq.trans h.eq_gt
  | greaterEqual => exact bne_iff_ne.trans h.ne_lt

section Keys

variable {k : Kind} {a b : Value} {x y : k.Key} (ha : k.key? a = some x) (hb : k.key? b = some y)
include ha hb

/-- The first handler for two values of a kind is the one for the kind. -/
theorem applyBinary_comparison (op : Comparison) :
    core.applyBinary op.operation a b = op.apply a b := by
  cases k with
  | integers =>
    obtain ⟨m, hm, -⟩ := Value.exists_long_of_integer? ha
    obtain ⟨n, hn, -⟩ := Value.exists_long_of_integer? hb
    cases a <;> cases hm <;> cases b <;> cases hn <;> cases op <;> rfl
  | texts | characters =>
    cases a <;> cases ha
    cases b <;> cases hb
    cases op <;> rfl

theorem applyBinary_equal : core.applyBinary .equal a b = .ok (.bool (a.equals b)) ∧
    core.applyBinary .notEqual a b = .ok (.bool !(a.equals b)) := by
  have hnull {v : Value} {z : k.Key} (hv : k.key? v = some z) : v.isNull = false := by
    cases v with
    | null => cases k <;> cases hv
    | _ => rfl
  simp only [applyBinary, resolveBinary, hnull ha, hnull hb]
  exact ⟨rfl, rfl⟩

/-- A comparison of two values of a kind has a result, which is what it says of their keys. -/
theorem applyBinary_of_keys {op : Operation} (hop : op ∈ comparisons) :
    ∃ holds, core.applyBinary op a b = .ok (.bool holds) ∧ (holds = true ↔ Relates x y op) := by
  have hordered (c : Comparison) : ∃ holds, core.applyBinary c.operation a b = .ok (.bool holds) ∧
      (holds = true ↔ Relates x y c.operation) := by
    obtain ⟨o, horder, hcompares⟩ := Value.order_of_keys ha hb
    refine ⟨c.holds o, ?_, c.holds_iff hcompares⟩
    rw [applyBinary_comparison ha hb, Comparison.apply, horder]
    rfl
  have hequals := Value.equals_of_keys ha hb
  obtain ⟨hequal, hdiffer⟩ := applyBinary_equal ha hb
  simp only [comparisons, List.mem_cons, List.not_mem_nil, or_false] at hop
  rcases hop with rfl | rfl | rfl | rfl | rfl | rfl
  case inr.inr.inl => exact ⟨_, hequal, hequals⟩
  case inr.inr.inr.inl =>
    refine ⟨_, hdiffer, ?_⟩
    rw [Bool.not_eq_true', ← Bool.not_eq_true, hequals, Relates]
  case inl => exact hordered .less
  case inr.inl => exact hordered .lessEqual
  case inr.inr.inr.inr.inl => exact hordered .greater
  case inr.inr.inr.inr.inr => exact hordered .greaterEqual

theorem holds_of_keys {op : Operation} (hop : op ∈ comparisons) :
    Holds op a b ↔ Relates x y op := by
  obtain ⟨holds, happly, hholds⟩ := applyBinary_of_keys ha hb hop
  rw [Holds, happly, Except.ok.injEq, Value.bool.injEq, hholds]

end Keys

/-- On integers of both widths, on texts and on characters, the six comparisons are those of one
total order.  They always have a result.  Exactly one of less, equal and greater holds, the other
three are their negations, and less is transitive.  Greater is less with the operands exchanged, and
equal operands compare alike with all others. -/
theorem comparisons_totalOrder {k : Kind} {a b c : Value} (ha : k.Has a) (hb : k.Has b)
    (hc : k.Has c) :
    (∀ op ∈ comparisons, ∃ holds, core.applyBinary op a b = .ok (.bool holds)) ∧
    (∃! op, op ∈ [.less, .equal, .greater] ∧ Holds op a b) ∧
    (Holds .lessEqual a b ↔ ¬ Holds .greater a b) ∧
    (Holds .greaterEqual a b ↔ ¬ Holds .less a b) ∧
    (Holds .notEqual a b ↔ ¬ Holds .equal a b) ∧
    (Holds .less a b → Holds .less b c → Holds .less a c) ∧
    (Holds .greater a b ↔ Holds .less b a) ∧
    (Holds .equal a b →
      (Holds .less a c ↔ Holds .less b c) ∧ (Holds .less c a ↔ Holds .less c b)) := by
  obtain ⟨x, hx⟩ := Kind.exists_key ha
  obtain ⟨y, hy⟩ := Kind.exists_key hb
  obtain ⟨z, hz⟩ := Kind.exists_key hc
  have hless {v w : Value} {m n : k.Key} (hv : k.key? v = some m) (hw : k.key? w = some n) :
      Holds .less v w ↔ m < n := holds_of_keys hv hw (by decide)
  have hequal : Holds .equal a b ↔ x = y := holds_of_keys hx hy (by decide)
  have hgreater : Holds .greater a b ↔ y < x := holds_of_keys hx hy (by decide)
  have hlessEqual : Holds .lessEqual a b ↔ x ≤ y := holds_of_keys hx hy (by decide)
  have hgreaterEqual : Holds .greaterEqual a b ↔ y ≤ x := holds_of_keys hx hy (by decide)
  have hnotEqual : Holds .notEqual a b ↔ x ≠ y := holds_of_keys hx hy (by decide)
  rw [hequal, hgreater, hlessEqual, hgreaterEqual, hnotEqual, hless hx hy, hless hy hz,
    hless hx hz, hless hy hx, hless hz hx, hless hz hy]
  refine ⟨?result, ?one, not_lt.symm, not_lt.symm, Iff.rfl, lt_trans, Iff.rfl, ?equal⟩
  case result =>
    intro op hop
    obtain ⟨holds, happly, -⟩ := applyBinary_of_keys hx hy hop
    exact ⟨holds, happly⟩
  case one =>
    have hrelates (op : Operation) : op ∈ [.less, .equal, .greater] ∧ Holds op a b ↔
        op ∈ [.less, .equal, .greater] ∧ Relates x y op :=
      and_congr_right fun hop => holds_of_keys hx hy (by revert hop op; decide)
    simp only [hrelates]
    exact existsUnique_relates x y
  case equal =>
    rintro rfl
    exact ⟨Iff.rfl, Iff.rfl⟩

/-- An integer between two narrow ones is wide, and a text is below its continuations. -/
theorem comparisons_totalOrder_mixed :
    Holds .less (.int (-1)) (.long 0) ∧ Holds .less (.long 0) (.int 1) ∧
      Holds .less (.int (-1)) (.int 1) ∧
    Holds .less (.str "a") (.str "aé") ∧ ¬ Holds .greaterEqual (.str "a") (.str "aé") := by
  have hbelow : Holds .less (.int (-1)) (.long 0) := rfl
  have habove : Holds .less (.long 0) (.int 1) := rfl
  have htext : Holds .less (.str "a") (.str "aé") := rfl
  obtain ⟨-, -, -, -, -, htrans, -⟩ := comparisons_totalOrder (k := .integers) (a := .int (-1))
    (b := .long 0) (c := .int 1) (by decide) (by decide) (by decide)
  obtain ⟨-, -, -, hnot, -⟩ := comparisons_totalOrder (k := .texts) (a := .str "a")
    (b := .str "aé") (c := .str "") (by decide) (by decide) (by decide)
  exact ⟨hbelow, habove, htrans hbelow habove, htext, fun h => hnot.1 h htext⟩

end Operators

end ExprLang
