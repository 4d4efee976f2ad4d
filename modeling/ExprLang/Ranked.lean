/-!
# Lists in order of rank

A list kept in ascending order of rank, in which equals stay in the order of their arrival.
Recognizers are consulted and overloads are tried in such an order.
-/

namespace ExprLang.Ranked

variable {α : Type}

/-- Puts `x` behind everything that may stand before it. `le a b` says that the rank of `a` is at
most that of `b`. -/
def insert (le : α → α → Bool) (x : α) : List α → List α
  | [] => [x]
  | y :: rest => if le y x then y :: insert le x rest else x :: y :: rest

/-- The members in the order of rank, equals in the order of the list. -/
def ofList (le : α → α → Bool) (xs : List α) : List α :=
  xs.foldl (fun ranked x => insert le x ranked) []

theorem mem_insert {le : α → α → Bool} {x y : α} {xs : List α} :
    y ∈ insert le x xs ↔ y = x ∨ y ∈ xs := by
  induction xs with
  | nil => simp [insert]
  | cons z rest ih =>
    simp only [insert]
    split
    · simp only [List.mem_cons, ih]
      constructor
      · rintro (h | h | h) <;> simp [h]
      · rintro (h | h | h) <;> simp [h]
    · simp

/-- One more member added at the end is one more insertion. -/
theorem ofList_append_singleton (le : α → α → Bool) (xs : List α) (x : α) :
    ofList le (xs ++ [x]) = insert le x (ofList le xs) := by
  simp [ofList]

end ExprLang.Ranked
