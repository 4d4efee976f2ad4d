/-!
# Sets of code points given by ranges

Character properties are tables of closed ranges of code points. This module says what it means
for a code point to belong to such a table; the tables live with the properties they define.
-/

namespace ExprLang.Text

/-- Whether `n` lies in one of the closed ranges. -/
def inRanges (ranges : List (Nat × Nat)) (n : Nat) : Bool :=
  ranges.any fun r => r.1 ≤ n && n ≤ r.2

theorem inRanges_iff {ranges : List (Nat × Nat)} {n : Nat} :
    inRanges ranges n = true ↔ ∃ r ∈ ranges, r.1 ≤ n ∧ n ≤ r.2 := by
  simp [inRanges]

end ExprLang.Text
