import ExprLang.Proofs.Effects.SideEffects
import ExprLang.Proofs.Extensions.Independence
import ExprLang.Proofs.Integers.Widths
import ExprLang.Proofs.Writing.RoundTrip

/-!
# Texts of integers

A source has no negative literals: the text of a negative integer is a minus sign in front of the
literal for its magnitude, and evaluating it negates what the literal stands for.  This gives back
the integer except at the lower ends of the two ranges (`Engine.eval_text_integer`).  The magnitude
of the least narrow integer is wide and stays wide when it is negated, and the magnitude of the
least wide integer has no literal.
-/

namespace ExprLang

namespace Value

theorem text_integer (n : Int64) : (integer n).text = n.toInt.repr := by
  rw [integer]
  cases hsmall : int32? n.toInt with
  | none => rfl
  | some small =>
    change small.toInt.repr = _
    rw [int32?_eq_some_iff.1 hsmall]

theorem integer_eq_long {n : Int64} (h : ¬ FitsNarrow n.toInt) : integer n = .long n := by
  rw [integer, int32?_eq_none_iff.2 h]

end Value

/-- A narrow integer may become wide when it is negated, but a wide one stays wide. -/
theorem Operators.applyUnary_negate {m n : Int64} (h : n.toInt = -m.toInt) :
    core.applyUnary .negate (.integer m) =
      .ok (if FitsNarrow m.toInt then .integer n else .long n) := by
  cases hsmall : int32? m.toInt with
  | none =>
    have hnarrow := int32?_eq_none_iff.1 hsmall
    rw [if_neg hnarrow, Value.integer_eq_long hnarrow]
    change negated (.long m) = _
    rw [negated, int64?_eq_some_iff.2 h]
  | some small =>
    have hvalue : small.toInt = m.toInt := int32?_eq_some_iff.1 hsmall
    have hwide : small.toInt64 = m := by rw [← Int64.toInt_inj, Int32.toInt_toInt64, hvalue]
    have hn : -m = n := by rw [← n.ofInt_toInt, h, Int64.ofInt_neg, Int64.ofInt_toInt]
    rw [if_pos (hvalue ▸ fitsNarrow_toInt small), Value.integer, hsmall]
    change Except.ok (Value.integer (-small.toInt64)) = _
    rw [hwide, hn]

/-- A sign stands in front of the digits. -/
theorem repr_neg {m n : Int64} (hm : 0 < m.toInt) (h : n.toInt = -m.toInt) :
    n.toInt.repr = "-" ++ m.toInt.repr := by
  obtain ⟨k, hk⟩ := Int.eq_succ_of_zero_lt hm
  rw [h, hk]
  rfl

/-- A sign in front of a literal. -/
def Node.negative (m : Int64) : Node :=
  .unary .negate .before (.literal (.int m))

namespace Engine

open Fragment

variable {c : Context}

/-- A printed tree is evaluated as it is. -/
theorem eval_text {node : Node} (h : core.grammar.Prints node) {v : Value}
    (hnode : node.evaluate c = (.ok v, c)) : core.eval node.text c = (.ok v, c) := by
  have hcompile : core.compile node.text = .ok ⟨node.text, node⟩ :=
    compile_eq_ok.2 ⟨rfl, parse_expression_iff.2 h.expression.source⟩
  simp only [eval, hcompile, Expression.run, hnode]
  rfl

theorem prints_integer {m : Int64} (hm : 0 ≤ m.toInt) :
    core.grammar.Prints (.literal (.int m)) :=
  .literal hm trivial

theorem eval_nonnegative {n : Int64} (hn : 0 ≤ n.toInt) :
    core.eval n.toInt.repr c = (.ok (.integer n), c) :=
  eval_text (prints_integer hn) rfl

/-- The magnitude decides the width of a negative integer. -/
theorem eval_negative (hc : c.semantics = .core) {m n : Int64} (hm : 0 < m.toInt)
    (h : n.toInt = -m.toInt) :
    core.eval n.toInt.repr c =
      (.ok (if FitsNarrow m.toInt then .integer n else .long n), c) := by
  have hminus : ⟨BasicKind.minus, .negate⟩ ∈ core.grammar.before := by
    rw [coreOperators_core.before_eq]
    simp [Grammar.coreBefore]
  have hprints : core.grammar.Prints (.negative m) :=
    .before coreOperators_core hminus (prints_integer hm.le)
  have hnode : (Node.negative m).evaluate c =
      (.ok (if FitsNarrow m.toInt then .integer n else .long n), c) := by
    have hliteral : (Node.literal (.int m)).evaluate c = (.ok (.integer m), c) := rfl
    rw [Node.negative, Node.evaluate_unary (by decide), Eval.bind_apply, hliteral]
    simp only [Eval.ask, hc]
    rw [← Operators.applyUnary_negate h]
    rfl
  rw [repr_neg hm h]
  exact eval_text hprints hnode

/-- Apart from the least one, every wide integer has an opposite. -/
theorem exists_opposite {n : Int64} (hleast : n.toInt ≠ -2 ^ 63) :
    ∃ m : Int64, n.toInt = -m.toInt := by
  have hfits : FitsWide (-n.toInt) := by
    have hn := fitsWide_toInt n
    simp only [FitsWide] at *
    omega
  obtain ⟨m, hm⟩ := fitsWide_iff.1 hfits
  exact ⟨m, by omega⟩

/-- The magnitude of the least wide integer has no literal. -/
theorem compile_least : core.compile "-9223372036854775808" =
    .error (.located (.invalidNumber "9223372036854775808") 1 2) := by
  have hparse : core.parse .expression "-9223372036854775808" =
      .error (.located (.invalidNumber "9223372036854775808") 1 2) := by
    rw [parse_core_eq, coreSymbols_eq]
    cbv
  simp only [compile, hparse]
  rfl

/-- The text of an integer is evaluated to the integer, narrow if it fits and wide otherwise.  Two
integers are excepted: for the least narrow one there is a wide result, and for the least wide one
the source is refused. -/
theorem eval_text_integer (hc : c.semantics = .core) (n : Int64) :
    ((Value.integer n).integer? = some n.toInt ∧
      (Value.integer n).tag = if FitsNarrow n.toInt then .int else .long) ∧
    (n.toInt ≠ -2 ^ 31 → n.toInt ≠ -2 ^ 63 →
      core.eval (Value.integer n).text c = (.ok (.integer n), c)) ∧
    (n.toInt = -2 ^ 31 → core.eval (Value.integer n).text c = (.ok (.long n), c)) ∧
    (n.toInt = -2 ^ 63 → core.eval (Value.integer n).text c =
      (.error (.located (.invalidNumber "9223372036854775808") 1 2), c)) := by
  rw [Value.text_integer]
  refine ⟨Value.integer_spec n, ?same, ?narrow, ?wide⟩
  case same =>
    intro hnarrow hwide
    by_cases hn : 0 ≤ n.toInt
    · exact eval_nonnegative hn
    · obtain ⟨m, hm⟩ := exists_opposite hwide
      rw [eval_negative hc (by omega) hm]
      split
      · rfl
      · rename_i hmagnitude
        have hlarge : ¬ FitsNarrow n.toInt := by
          simp only [FitsNarrow] at *
          omega
        rw [Value.integer_eq_long hlarge]
  case narrow =>
    intro hn
    obtain ⟨m, hm⟩ := exists_opposite (n := n) (by omega)
    have hmagnitude : ¬ FitsNarrow m.toInt := by
      simp only [FitsNarrow]
      omega
    rw [eval_negative hc (by omega) hm, if_neg hmagnitude]
  case wide =>
    intro hn
    have htext : n.toInt.repr = "-9223372036854775808" := by
      rw [hn]
      rfl
    rw [htext, eval, compile_least, Expression.run]

theorem semantics_context_core : core.context.semantics = .core := by
  change Semantics.empty.extend .core = .core
  rw [Semantics.extend_eq]
  rfl

/-- Behind the lower end of the narrow range, the text of a wide integer gives it back. -/
theorem eval_text_integer_wide :
    core.eval "-2147483649" core.context = (.ok (.long (-2147483649)), core.context) := by
  have htext : (Value.integer (-2147483649)).text = "-2147483649" := rfl
  have hvalue : Value.integer (-2147483649) = .long (-2147483649) := rfl
  obtain ⟨-, hsame, -⟩ := eval_text_integer semantics_context_core (-2147483649)
  rw [htext, hvalue] at hsame
  exact hsame (by decide) (by decide)

/-- The texts of the least integers of both widths do not give them back. -/
theorem eval_text_least :
    Value.integer (-2147483648) = .int (-2147483648) ∧
      core.eval (Value.integer (-2147483648)).text core.context =
        (.ok (.long (-2147483648)), core.context) ∧
      core.eval (Value.integer Int64.minValue).text core.context =
        (.error (.located (.invalidNumber "9223372036854775808") 1 2), core.context) := by
  have hnarrow : (Value.integer (-2147483648)).text = (-2147483648 : Int64).toInt.repr := rfl
  have hwide : (Value.integer Int64.minValue).text = "-9223372036854775808" := rfl
  refine ⟨rfl, ?_, ?_⟩
  · rw [hnarrow]
    exact eval_negative semantics_context_core (m := 2147483648) (by decide) (by decide)
  · rw [hwide, eval, compile_least, Expression.run]

end Engine

end ExprLang
