import ExprLang.Grammar
import Mathlib

/-!
# Trees of binary operators

A flat chain of operands and binary operators stands for one tree only.  An operator takes into its
operands what binds more tightly than itself; among operators of the same precedence, a leftward one
lets the operators behind it take it into their left operand, and a rightward one takes them into
its right operand.  `Nested` says so of every operation of a tree, and `eq_of_nested` says that the
operands and operators, read from left to right, determine a nested tree.
-/

namespace ExprLang

namespace BinaryOperator

/-- Whether the operator may stand inside the left operand of `outer`. -/
def FitsLeftOf (inner outer : BinaryOperator) : Prop :=
  outer.precedence < inner.precedence ∨
    (inner.precedence = outer.precedence ∧ inner.associativity = .left)

/-- Whether the operator may stand inside the right operand of `outer`. -/
def FitsRightOf (inner outer : BinaryOperator) : Prop :=
  outer.precedence < inner.precedence ∨
    (inner.precedence = outer.precedence ∧ outer.associativity = .right)

/-- One of two operators in a row goes into an operand of the other, never each into the other. -/
theorem FitsRightOf.not_fitsLeftOf {left right : BinaryOperator}
    (hright : right.FitsRightOf left) : ¬ left.FitsLeftOf right := by
  rintro (hlt | ⟨heq, hleft⟩)
  · rcases hright with hlt' | ⟨heq', -⟩
    · exact absurd hlt (UInt8.lt_asymm hlt')
    · rw [heq'] at hlt
      exact UInt8.lt_irrefl _ hlt
  · rcases hright with hlt' | ⟨-, hassoc⟩
    · rw [heq] at hlt'
      exact UInt8.lt_irrefl _ hlt'
    · rw [hleft] at hassoc
      cases hassoc

/-- The threshold for the right operand is one above the precedence of a leftward operator and the
precedence of a rightward one, also at the highest precedence. -/
theorem toNat_rightLeast (op : BinaryOperator) :
    op.rightLeast.toNat =
      match op.associativity with
      | .left => op.precedence.toNat + 1
      | .right => op.precedence.toNat := by
  have hbound := op.precedence.toNat_lt
  unfold rightLeast
  cases op.associativity with
  | left =>
    simp only [UInt16.toNat_add, UInt8.toNat_toUInt16, UInt16.toNat_ofNat]
    omega
  | right => simp only [UInt8.toNat_toUInt16]

theorem precedence_le_rightLeast (op : BinaryOperator) :
    op.precedence.toUInt16 ≤ op.rightLeast := by
  rw [UInt16.le_iff_toNat_le, toNat_rightLeast, UInt8.toNat_toUInt16]
  cases op.associativity with
  | left => exact Nat.le_succ _
  | right => exact Nat.le_refl _

/-- What the threshold for the right operand admits is what fits there. -/
theorem fitsRightOf_iff {inner outer : BinaryOperator} :
    inner.FitsRightOf outer ↔ outer.rightLeast ≤ inner.precedence.toUInt16 := by
  rw [UInt16.le_iff_toNat_le, toNat_rightLeast, UInt8.toNat_toUInt16, FitsRightOf,
    UInt8.lt_iff_toNat_lt, ← UInt8.toNat_inj]
  cases outer.associativity with
  | left =>
    simp only [reduceCtorEq, and_false, or_false]
    omega
  | right =>
    simp only [and_true]
    omega

/-- An operator that the right operand of `outer` stops at takes `outer` into its left operand. -/
theorem fitsLeftOf_of_not_fitsRightOf {outer next : BinaryOperator}
    (hstop : ¬ next.FitsRightOf outer) : outer.FitsLeftOf next := by
  rw [FitsRightOf, not_or, UInt8.not_lt] at hstop
  obtain ⟨hle, hassoc⟩ := hstop
  rcases UInt8.lt_or_eq_of_le hle with hlt | heq
  · exact .inl hlt
  · refine .inr ⟨heq.symm, ?_⟩
    cases hcase : outer.associativity with
    | left => rfl
    | right => exact absurd ⟨heq, hcase⟩ hassoc

/-- What fits to the right of an operator gives way to all operators that the operator gives way
to. -/
theorem FitsRightOf.fitsLeftOf_trans {inner outer next : BinaryOperator}
    (hinner : inner.FitsRightOf outer) (hstop : ¬ next.FitsRightOf outer) :
    inner.FitsLeftOf next := by
  rw [fitsRightOf_iff, UInt16.le_iff_toNat_le, UInt8.toNat_toUInt16] at hinner hstop
  left
  rw [UInt8.lt_iff_toNat_lt]
  omega

/-- What fits to the left of an operator gives way to all operators that the operator gives way
to. -/
theorem FitsLeftOf.trans {inner outer next : BinaryOperator} (hinner : inner.FitsLeftOf outer)
    (houter : outer.FitsLeftOf next) : inner.FitsLeftOf next := by
  rcases hinner with hlt | ⟨heq, hleft⟩
  · left
    rcases houter with hlt' | ⟨heq', -⟩
    · exact UInt8.lt_trans hlt' hlt
    · rwa [← heq']
  · rcases houter with hlt' | ⟨heq', -⟩
    · left
      rwa [heq]
    · exact .inr ⟨heq.trans heq', hleft⟩

end BinaryOperator

/-- A tree of binary operators over operands that are trees of their own. -/
inductive OperatorTree where
  | operand (node : Node)
  | operation (op : BinaryOperator) (left right : OperatorTree)

namespace OperatorTree

/-- The expression that the tree stands for. -/
def node : OperatorTree → Node
  | operand node => node
  | operation op left right => .binary op.operation left.node right.node

/-- The operands from left to right. -/
def operands : OperatorTree → List Node
  | operand node => [node]
  | operation _ left right => left.operands ++ right.operands

/-- The operators from left to right. -/
def operators : OperatorTree → List BinaryOperator
  | operand _ => []
  | operation op left right => left.operators ++ op :: right.operators

/-- Whether every operation has in its operands only operators that fit there. -/
def Nested : OperatorTree → Prop
  | operand _ => True
  | operation op left right =>
    (∀ q ∈ left.operators, q.FitsLeftOf op) ∧ (∀ q ∈ right.operators, q.FitsRightOf op) ∧
      left.Nested ∧ right.Nested

@[simp]
theorem operators_operand (node : Node) : (operand node).operators = [] := rfl

@[simp]
theorem operators_operation (op : BinaryOperator) (left right : OperatorTree) :
    (operation op left right).operators = left.operators ++ op :: right.operators := rfl

@[simp]
theorem operands_operand (node : Node) : (operand node).operands = [node] := rfl

@[simp]
theorem operands_operation (op : BinaryOperator) (left right : OperatorTree) :
    (operation op left right).operands = left.operands ++ right.operands := rfl

theorem length_operands (t : OperatorTree) : t.operands.length = t.operators.length + 1 := by
  induction t with
  | operand => rfl
  | operation op left right hleft hright =>
    simp only [operands_operation, operators_operation, List.length_append, List.length_cons, hleft,
      hright]
    omega

/-- Two splits of one chain at operators of which each may be the root are the same split. -/
private theorem split_eq {front front' back back' : List BinaryOperator} {op op' : BinaryOperator}
    (hchain : front ++ op :: back = front' ++ op' :: back')
    (hfront : ∀ q ∈ front, q.FitsLeftOf op) (hback : ∀ q ∈ back, q.FitsRightOf op)
    (hfront' : ∀ q ∈ front', q.FitsLeftOf op') (hback' : ∀ q ∈ back', q.FitsRightOf op') :
    front = front' ∧ op = op' ∧ back = back' := by
  rcases List.append_eq_append_iff.1 hchain with ⟨gap, hsplit, hrest⟩ | ⟨gap, hsplit, hrest⟩
  · cases gap with
    | nil =>
      simp only [List.nil_append, List.cons.injEq] at hrest
      exact ⟨by simpa using hsplit.symm, hrest.1, hrest.2⟩
    | cons first gap =>
      simp only [List.cons_append, List.cons.injEq] at hrest
      obtain ⟨rfl, rfl⟩ := hrest
      have hin : op.FitsLeftOf op' := hfront' op (by simp [hsplit])
      exact absurd hin (hback op' (by simp)).not_fitsLeftOf
  · cases gap with
    | nil =>
      simp only [List.nil_append, List.cons.injEq] at hrest
      exact ⟨by simpa using hsplit, hrest.1.symm, hrest.2.symm⟩
    | cons first gap =>
      simp only [List.cons_append, List.cons.injEq] at hrest
      obtain ⟨rfl, rfl⟩ := hrest
      have hin : op'.FitsLeftOf op := hfront op' (by simp [hsplit])
      exact absurd hin (hback' op (by simp)).not_fitsLeftOf

/-- The operands and operators from left to right determine a nested tree. -/
theorem eq_of_nested {t t' : OperatorTree} (hoperands : t.operands = t'.operands)
    (hoperators : t.operators = t'.operators) (ht : t.Nested) (ht' : t'.Nested) : t = t' := by
  induction t generalizing t' with
  | operand node =>
    cases t' with
    | operand node' =>
      simp only [operands_operand, List.cons.injEq, and_true] at hoperands
      rw [hoperands]
    | operation op left right => simp at hoperators
  | operation op left right ihleft ihright =>
    cases t' with
    | operand node' => simp at hoperators
    | operation op' left' right' =>
      obtain ⟨hl, hr, hleft, hright⟩ := ht
      obtain ⟨hl', hr', hleft', hright'⟩ := ht'
      obtain ⟨hfront, rfl, hback⟩ := split_eq hoperators hl hr hl' hr'
      have hlength : left.operands.length = left'.operands.length := by
        rw [length_operands, length_operands, hfront]
      obtain ⟨hbefore, hbehind⟩ := List.append_inj hoperands hlength
      rw [ihleft hbefore hfront hleft hleft', ihright hbehind hback hright hright']

end OperatorTree

end ExprLang
