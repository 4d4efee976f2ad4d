import ExprLang.Proofs.Effects.Stepping

/-!
# Steps on integers

A step takes an integer to the next one or to the one before, of the same type.  If there is none in
the range of the type, the step fails in a conversion: wide integers when they are counted, narrow
ones when the wide result is narrowed (`Semantics.step_int`, `Semantics.step_long`).
-/

namespace ExprLang

namespace Operation

/-- How much more the result of a step is. -/
def delta : Operation → Int
  | increment => 1
  | decrement => -1
  | _ => 0

/-- The step that takes the other direction. -/
def opposite : Operation → Operation
  | increment => decrement
  | decrement => increment
  | operation => operation

theorem isStep_opposite (operation : Operation) :
    operation.opposite.isStep = operation.isStep := by
  cases operation <;> rfl

theorem delta_opposite (operation : Operation) :
    operation.opposite.delta = -operation.delta := by
  cases operation <;> rfl

theorem delta_bounds (operation : Operation) : -1 ≤ operation.delta ∧ operation.delta ≤ 1 := by
  unfold delta
  split <;> decide

end Operation

namespace Value

/-- The integer that is `delta` more and of the same type, if there is one. -/
def shifted? (delta : Int) : Value → Option Value
  | int n => (int32? (n.toInt + delta)).map int
  | long n => (int64? (n.toInt + delta)).map long
  | _ => none

/-- The way back. -/
theorem shifted?_neg {delta : Int} {v w : Value} (h : v.shifted? delta = some w) :
    w.shifted? (-delta) = some v := by
  cases v with
  | int n =>
    obtain ⟨m, hm, rfl⟩ := Option.map_eq_some_iff.1 h
    have hback : int32? (m.toInt + -delta) = some n :=
      int32?_eq_some_iff.2 (by rw [int32?_eq_some_iff.1 hm]; omega)
    rw [shifted?, hback, Option.map_some]
  | long n =>
    obtain ⟨m, hm, rfl⟩ := Option.map_eq_some_iff.1 h
    have hback : int64? (m.toInt + -delta) = some n :=
      int64?_eq_some_iff.2 (by rw [int64?_eq_some_iff.1 hm]; omega)
    rw [shifted?, hback, Option.map_some]
  | _ => cases h

theorem isNumber_of_shifted? {delta : Int} {v w : Value} (h : v.shifted? delta = some w) :
    v.isNumber = true := by
  cases v with
  | int | long => rfl
  | _ => cases h

end Value

namespace Semantics

variable {operation : Operation} (hstep : operation.isStep = true)
include hstep

/-- An integer of either width is counted as a wide one. -/
theorem stepped_long {v : Value} {n : Int64} (hv : v.long? = some n) :
    Operators.stepped (operation == .increment) v =
      match int64? (n.toInt + operation.delta) with
      | some m => .ok (.long m)
      | none => .error (.cannotStep v) := by
  have hcount : (if operation == .increment then n.toInt + 1 else n.toInt - 1) =
      n.toInt + operation.delta := by
    cases operation with
    | increment | decrement => rfl
    | _ => cases hstep
  cases v with
  | double d => cases hv
  | _ =>
    cases hcounted : int64? (n.toInt + operation.delta) <;>
      simp only [Operators.stepped, hv, Option.bind_some, hcount, hcounted]

theorem step_int (n : Int32) :
    core.step operation (.int n) =
      match int32? (n.toInt + operation.delta) with
      | some m => .ok (.int m)
      | none =>
        .error (.doesNotFit operation (.long (Int64.ofInt (n.toInt + operation.delta))) .int) := by
  -- A narrow integer and one more or less always fit the wide type.
  have hfits : (Int64.ofInt (n.toInt + operation.delta)).toInt = n.toInt + operation.delta := by
    have hlower := n.minValue_le_toInt
    have hupper := n.toInt_le
    have hdelta := operation.delta_bounds
    rw [Int32.toInt_minValue] at hlower
    rw [Int32.toInt_maxValue] at hupper
    apply Int64.toInt_ofInt_of_le <;> omega
  have hwide : int64? (n.toInt64.toInt + operation.delta) =
      some (Int64.ofInt (n.toInt + operation.delta)) := by
    rw [int64?_eq_some_iff, hfits, Int32.toInt_toInt64]
  rw [step_of_isNumber hstep rfl, stepped_long hstep rfl, hwide]
  simp only [Value.tag, convert_long_int, Bind.bind, Except.bind, Conversion.partially,
    Conversion.narrowed?, hfits]
  cases int32? (n.toInt + operation.delta) <;> rfl

theorem step_long (n : Int64) :
    core.step operation (.long n) =
      match int64? (n.toInt + operation.delta) with
      | some m => .ok (.long m)
      | none => .error (.cannotStep (.long n)) := by
  rw [step_of_isNumber hstep rfl, stepped_long hstep rfl]
  cases int64? (n.toInt + operation.delta) <;> rfl

/-- A step of an integer gives the integer that is one more or less. -/
theorem step_of_shifted? {old new : Value} (h : old.shifted? operation.delta = some new) :
    core.step operation old = .ok new := by
  cases old with
  | int n =>
    obtain ⟨m, hm, rfl⟩ := Option.map_eq_some_iff.1 h
    rw [step_int hstep, hm]
  | long n =>
    obtain ⟨m, hm, rfl⟩ := Option.map_eq_some_iff.1 h
    rw [step_long hstep, hm]
  | _ => cases h

/-- A step out of the range of the type of an integer fails in a conversion. -/
theorem step_out_of_range {old : Value} (hold : old.long?.isSome = true)
    (h : old.shifted? operation.delta = none) :
    ∃ fault, core.step operation old = .error fault ∧ fault.kind = .conversion := by
  cases old with
  | int n =>
    rw [step_int hstep, Option.map_eq_none_iff.1 h]
    exact ⟨_, rfl, rfl⟩
  | long n =>
    rw [step_long hstep, Option.map_eq_none_iff.1 h]
    exact ⟨_, rfl, rfl⟩
  | _ => cases hold

end Semantics

end ExprLang
