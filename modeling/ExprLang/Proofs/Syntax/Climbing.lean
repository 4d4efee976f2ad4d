import ExprLang.Grammar.Core
import ExprLang.Proofs.Syntax.OperatorTree
import ExprLang.Proofs.Syntax.Step

/-!
# Precedence climbing

`Rules.Reads` describes operators with an operand behind each as they stand in the input, before
they are nested.  Climbing reads such operations as long as they reach its threshold
(`climb_gives`), and it nests what it has read.  It never runs out of rounds
(`extend_succeeds`), so that the parser of binary expressions gives the one nested tree of a chain
(`binary_gives`).
-/

namespace ExprLang

open Parse

/-- From `c` on, operators and operands alternate as in `rest`, and the last operand ends at
`c'`. -/
def Rules.Reads (rules : Rules) (c : Cursor) : List (BinaryOperator × Node) → Cursor → Prop
  | [], c' => c' = c
  | (op, v) :: rest, c' =>
    rules.binary? c.current.kind = some op ∧
      ∃ c₁, (rules.parse .unary).Gives c.next v c₁ ∧ rules.Reads c₁ rest c'

namespace Rules

variable {rules : Rules} {c c' c'' : Cursor} {rest rest' : List (BinaryOperator × Node)}

theorem Reads.append (h : rules.Reads c rest c') (h' : rules.Reads c' rest' c'') :
    rules.Reads c (rest ++ rest') c'' := by
  induction rest generalizing c with
  | nil => exact h ▸ h'
  | cons first rest ih =>
    obtain ⟨hop, c₁, hunary, hrest⟩ := h
    exact ⟨hop, c₁, hunary, ih hrest⟩

/-- What is read from `c` on to a place without an operator continues everything else that is read
from `c` on. -/
theorem Reads.split (h : rules.Reads c rest c') (hstop : rules.binary? c'.current.kind = none)
    (h' : rules.Reads c rest' c'') :
    ∃ more, rest = rest' ++ more ∧ rules.Reads c'' more c' := by
  induction rest' generalizing c rest with
  | nil => exact ⟨rest, rfl, h' ▸ h⟩
  | cons first rest' ih =>
    obtain ⟨hop, c₁, hunary, hrest⟩ := h'
    cases rest with
    | nil =>
      rw [h, hop] at hstop
      cases hstop
    | cons first' rest =>
      obtain ⟨hop', c₁', hunary', hrest'⟩ := h
      obtain ⟨hnode, rfl⟩ := hunary.unique hunary'
      have hfirst : first' = first :=
        Prod.ext (Option.some.inj (hop'.symm.trans hop)) hnode.symm
      obtain ⟨more, rfl, hmore⟩ := ih hrest' hrest
      exact ⟨more, by rw [hfirst, List.cons_append], hmore⟩

end Rules

namespace ConstructParser

variable {rules : Rules} {c c' : Cursor}

@[simp]
theorem gives_operatorFrom? {least : UInt16} {found : Option BinaryOperator} :
    (operatorFrom? rules least).Gives c found c' ↔
      found = (rules.binary? c.current.kind).filter
        (fun op => least ≤ op.precedence.toUInt16) ∧ c' = c := by
  simp only [operatorFrom?, gives_bind, gives_current, gives_pure]
  constructor
  · rintro ⟨_, _, ⟨rfl, rfl⟩, rfl, rfl⟩
    exact ⟨rfl, rfl⟩
  · rintro ⟨rfl, rfl⟩
    exact ⟨_, _, ⟨rfl, rfl⟩, rfl, rfl⟩

/-- What climbing with a threshold has read: the operations from `c` on to `c'`, nested behind the
tree `left`.  It stops where no operator reaches the threshold. -/
structure Climbed (rules : Rules) (least : UInt16) (left : OperatorTree) (c : Cursor)
    (t : OperatorTree) (rest : List (BinaryOperator × Node)) (c' : Cursor) : Prop where
  reads : rules.Reads c rest c'
  operands : t.operands = left.operands ++ rest.map Prod.snd
  operators : t.operators = left.operators ++ rest.map Prod.fst
  nested : t.Nested
  least_le : ∀ op ∈ rest.map Prod.fst, least ≤ op.precedence.toUInt16
  stops : ∀ op, rules.binary? c'.current.kind = some op → ¬ least ≤ op.precedence.toUInt16

/-- The tree `left` gives way to the operator at `c`, if there is one. -/
def GivesWay (rules : Rules) (left : OperatorTree) (c : Cursor) : Prop :=
  ∀ op, rules.binary? c.current.kind = some op → ∀ q ∈ left.operators, q.FitsLeftOf op

/-- One more operation in front: the right operand has been climbed with the threshold of its
operator, so the operation is nested and gives way to the operator behind it. -/
theorem Climbed.givesWay {left right : OperatorTree} {op : BinaryOperator} {v : Node}
    {taken : List (BinaryOperator × Node)} {c₁ c₂ : Cursor}
    (hop : rules.binary? c.current.kind = some op) (hway : GivesWay rules left c)
    (hright : Climbed rules op.rightLeast (.operand v) c₁ right taken c₂) :
    GivesWay rules (.operation op left right) c₂ := by
  intro next hnext q hq
  have hstop : ¬ next.FitsRightOf op := fun hfits =>
    hright.stops next hnext (BinaryOperator.fitsRightOf_iff.1 hfits)
  have houter := BinaryOperator.fitsLeftOf_of_not_fitsRightOf hstop
  simp only [OperatorTree.operators_operation, List.mem_append, List.mem_cons] at hq
  rcases hq with hq | rfl | hq
  · exact (hway op hop q hq).trans houter
  · exact houter
  · rw [hright.operators] at hq
    have hfits := BinaryOperator.fitsRightOf_iff.2 (hright.least_le q (by simpa using hq))
    exact hfits.fitsLeftOf_trans hstop

theorem Climbed.nested_operation {left right : OperatorTree} {op : BinaryOperator} {v : Node}
    {taken : List (BinaryOperator × Node)} {c₁ c₂ : Cursor} (hleft : left.Nested)
    (hop : rules.binary? c.current.kind = some op) (hway : GivesWay rules left c)
    (hright : Climbed rules op.rightLeast (.operand v) c₁ right taken c₂) :
    (OperatorTree.operation op left right).Nested := by
  refine ⟨hway op hop, ?_, hleft, hright.nested⟩
  intro q hq
  rw [hright.operators] at hq
  exact BinaryOperator.fitsRightOf_iff.2 (hright.least_le q (by simpa using hq))

/-- Climbing, and going on from a left operand, give nested trees of what they read.  The two call
each other with fewer rounds. -/
private theorem climbed_of_gives (rules : Rules) (rounds : Nat) :
    (∀ least c n c', (climb rules rounds least).Gives c n c' →
      ∃ v c₁ t rest, n = t.node ∧ (rules.parse .unary).Gives c v c₁ ∧
        Climbed rules least (.operand v) c₁ t rest c') ∧
    (∀ least left c n c', left.Nested → GivesWay rules left c →
      (extend rules rounds least left.node).Gives c n c' →
      ∃ t rest, n = t.node ∧ Climbed rules least left c t rest c') := by
  induction rounds with
  | zero => constructor <;> intros <;> simp_all [climb, extend]
  | succ rounds ih =>
    obtain ⟨ihclimb, ihextend⟩ := ih
    constructor
    · intro least c n c' h
      simp only [climb, gives_bind] at h
      obtain ⟨v, c₁, hunary, hrest⟩ := h
      obtain ⟨t, rest, hn, ht⟩ := ihextend least (.operand v) c₁ n c' trivial
        (fun _ _ q hq => absurd hq List.not_mem_nil) hrest
      exact ⟨v, c₁, t, rest, hn, hunary, ht⟩
    · intro least left c n c' hleft hway h
      simp only [extend, gives_bind, gives_operatorFrom?] at h
      obtain ⟨found, c₁, ⟨hfound, rfl⟩, h⟩ := h
      cases found with
      | none =>
        simp only [gives_pure] at h
        obtain ⟨rfl, rfl⟩ := h
        refine ⟨left, [], rfl, rfl, by simp, by simp, hleft, by simp, ?_⟩
        intro op hop hle
        rw [hop, Option.filter_some, if_pos (decide_eq_true hle)] at hfound
        cases hfound
      | some op =>
        obtain ⟨hop, hle⟩ := Option.filter_eq_some_iff.1 hfound.symm
        simp only [gives_bind, gives_consume] at h
        obtain ⟨_, _, ⟨-, rfl⟩, r, c₂, hclimb, hextend⟩ := h
        obtain ⟨v, c₃, right, taken, rfl, hunary, hright⟩ := ihclimb _ _ _ _ hclimb
        obtain ⟨t, rest, hn, ht⟩ := ihextend least (.operation op left right) c₂ n c'
          (hright.nested_operation hleft hop hway) (hright.givesWay hop hway) hextend
        refine ⟨t, (op, v) :: (taken ++ rest), hn, ⟨hop, c₃, hunary, hright.reads.append ht.reads⟩,
          ?_, ?_, ht.nested, ?_, ht.stops⟩
        · simp [ht.operands, hright.operands]
        · simp [ht.operators, hright.operators]
        · intro q hq
          simp only [List.map_cons, List.map_append, List.mem_cons, List.mem_append] at hq
          rcases hq with rfl | hq | hq
          · exact of_decide_eq_true hle
          · exact UInt16.le_trans (of_decide_eq_true hle)
              (UInt16.le_trans op.precedence_le_rightLeast (hright.least_le q hq))
          · exact ht.least_le q hq

/-- Climbing gives a nested tree of the operations behind the first operand that reach the
threshold, and stops where none does. -/
theorem climb_gives {rounds : Nat} {least : UInt16} {n : Node}
    (h : (climb rules rounds least).Gives c n c') :
    ∃ v c₁ t rest, n = t.node ∧ (rules.parse .unary).Gives c v c₁ ∧
      Climbed rules least (.operand v) c₁ t rest c' :=
  (climbed_of_gives rules rounds).1 least c n c' h

/-- Where operations are read up to a place without an operator, climbing has rounds enough if
there are two for each operation.  The right operand of an operation takes a part of them, and
going on from there takes the others. -/
private theorem extend_succeeds (count : Nat) :
    ∀ rest : List (BinaryOperator × Node), rest.length ≤ count → ∀ rounds least left c c',
      2 * rest.length + 1 ≤ rounds → rules.Reads c rest c' →
      rules.binary? c'.current.kind = none →
      ∃ n c₁, (extend rules rounds least left).Gives c n c₁ := by
  induction count with
  | zero =>
    intro rest hcount rounds least left c c' hrounds hreads hstop
    obtain rfl : rest = [] := List.eq_nil_of_length_eq_zero (Nat.le_zero.1 hcount)
    obtain ⟨rounds, rfl⟩ := Nat.exists_eq_succ_of_ne_zero (by omega : rounds ≠ 0)
    obtain rfl : c' = c := hreads
    exact ⟨left, c', by simp [extend, hstop]⟩
  | succ count ih =>
    intro rest hcount rounds least left c c' hrounds hreads hstop
    obtain ⟨rounds, rfl⟩ := Nat.exists_eq_succ_of_ne_zero (by omega : rounds ≠ 0)
    cases hfound : (rules.binary? c.current.kind).filter
        (fun op => least ≤ op.precedence.toUInt16) with
    | none => exact ⟨left, c, by simp [extend, hfound]⟩
    | some op =>
      obtain ⟨hop, -⟩ := Option.filter_eq_some_iff.1 hfound
      cases rest with
      | nil =>
        obtain rfl : c' = c := hreads
        rw [hop] at hstop
        cases hstop
      | cons first rest =>
        obtain ⟨-, c₁, hunary, hrest⟩ := hreads
        simp only [List.length_cons] at hcount hrounds
        obtain ⟨rounds, rfl⟩ := Nat.exists_eq_succ_of_ne_zero (by omega : rounds ≠ 0)
        obtain ⟨r, c₂, hright⟩ := ih rest (by omega) rounds op.rightLeast first.2 c₁ c' (by omega)
          hrest hstop
        obtain ⟨t, taken, rfl, ht⟩ := (climbed_of_gives rules rounds).2 op.rightLeast
          (.operand first.2) c₁ r c₂ trivial (fun _ _ q hq => absurd hq List.not_mem_nil) hright
        obtain ⟨more, rfl, hmore⟩ := hrest.split hstop ht.reads
        rw [List.length_append] at hcount hrounds
        obtain ⟨n, c₃, hextend⟩ := ih more (by omega) (rounds + 1) least
          (.binary op.operation left t.node) c₂ c' (by omega) hmore hstop
        refine ⟨n, c₃, ?_⟩
        rw [extend, gives_bind]
        refine ⟨some op, c, gives_operatorFrom?.2 ⟨hfound.symm, rfl⟩, ?_⟩
        simp only [gives_bind, gives_consume]
        refine ⟨_, _, ⟨rfl, rfl⟩, t.node, c₂, ?_, hextend⟩
        rw [climb, gives_bind]
        exact ⟨first.2, c₁, hunary, hright⟩

/-- The parser of binary expressions reads a chain of operations to its end and gives the nested
tree of it. -/
theorem binary_gives {c₁ : Cursor} {u : Node} {rest : List (BinaryOperator × Node)}
    (hfirst : (rules.parse .unary).Gives c u c₁) (hreads : rules.Reads c₁ rest c')
    (hstop : rules.binary? c'.current.kind = none) (hlength : rest.length ≤ c.coming.length) :
    ∃ t : OperatorTree, (binary rules).Gives c t.node c' ∧
      t.operands = u :: rest.map Prod.snd ∧ t.operators = rest.map Prod.fst ∧ t.Nested := by
  obtain ⟨n, c₂, hextend⟩ := extend_succeeds rest.length rest le_rfl
    (2 * c.coming.length + 3) 0 u c₁ c' (by omega) hreads hstop
  have hclimb : (climb rules (2 * c.coming.length + 4) 0).Gives c n c₂ := by
    rw [climb, gives_bind]
    exact ⟨u, c₁, hfirst, hextend⟩
  obtain ⟨v, c₃, t, taken, rfl, hunary, ht⟩ := climb_gives hclimb
  obtain ⟨rfl, rfl⟩ := hunary.unique hfirst
  obtain ⟨more, rfl, hmore⟩ := hreads.split hstop ht.reads
  have hend : more = [] ∧ c' = c₂ := by
    cases more with
    | nil => exact ⟨rfl, hmore⟩
    | cons first more =>
      obtain ⟨hop, -⟩ := hmore
      exact absurd UInt16.zero_le (ht.stops _ hop)
  obtain ⟨rfl, rfl⟩ := hend
  refine ⟨t, ?_, by simp [ht.operands], by simp [ht.operators], ht.nested⟩
  simp only [binary, gives_bind, gives_remaining]
  exact ⟨_, _, ⟨rfl, rfl⟩, hclimb⟩

/-- Whatever the parser of binary expressions gives is the nested tree of a chain of operations, and
no operator stands behind it. -/
theorem binary_reads {n : Node} (h : (binary rules).Gives c n c') :
    ∃ u c₁ rest t, n = OperatorTree.node t ∧ (rules.parse .unary).Gives c u c₁ ∧
      rules.Reads c₁ rest c' ∧ rules.binary? c'.current.kind = none ∧
      t.operands = u :: rest.map Prod.snd ∧ t.operators = rest.map Prod.fst ∧ t.Nested := by
  simp only [binary, gives_bind, gives_remaining] at h
  obtain ⟨_, _, ⟨rfl, rfl⟩, hclimb⟩ := h
  obtain ⟨u, c₁, t, rest, hn, hunary, ht⟩ := climb_gives hclimb
  refine ⟨u, c₁, rest, t, hn, hunary, ht.reads, ?_, by simp [ht.operands], by simp [ht.operators],
    ht.nested⟩
  cases hop : rules.binary? c'.current.kind with
  | none => rfl
  | some op => exact absurd UInt16.zero_le (ht.stops op hop)

end ConstructParser

end ExprLang
