import ExprLang.Ranked
import Mathlib.Data.List.Induction
import Mathlib.Data.Prod.Lex

/-!
# Ranked lists are stable sorts

A list in order of rank is determined by its members of each rank, in their order.  Putting a member
behind all that may stand before it adds it at the end of its own rank and changes no other one.  So
a list into which members are put one by one is the stable sort of all that have arrived
(`Ranked.insert_mergeSort`), and the first member with a property is the one that is least by its
rank and then by its arrival (`Ranked.find?_mergeSort_eq_some_iff`).
-/

namespace ExprLang

/-- In a list that is sorted without ties, the first member with a property is the least one. -/
theorem find?_eq_some_iff_least {β γ : Type} [PartialOrder γ] {rank : β → γ} {zs : List β}
    (hsorted : zs.Pairwise fun z w => rank z ≤ rank w)
    (hinjective : ∀ z ∈ zs, ∀ w ∈ zs, rank z = rank w → z = w) {p : β → Bool} {z : β} :
    zs.find? p = some z ↔
      z ∈ zs ∧ p z = true ∧ ∀ w ∈ zs, p w = true → rank z ≤ rank w := by
  have hleast : ∀ {z}, zs.find? p = some z →
      z ∈ zs ∧ p z = true ∧ ∀ w ∈ zs, p w = true → rank z ≤ rank w := by
    intro z hfind
    obtain ⟨hz, before, after, rfl, hbefore⟩ := List.find?_eq_some_iff_append.1 hfind
    refine ⟨by simp, hz, fun w hw hpw => ?_⟩
    rcases List.mem_append.1 hw with hw | hw
    · have hnot := hbefore w hw
      rw [hpw] at hnot
      cases hnot
    · obtain ⟨-, hback, -⟩ := List.pairwise_append.1 hsorted
      rcases List.mem_cons.1 hw with rfl | hw
      · exact le_rfl
      · exact (List.pairwise_cons.1 hback).1 w hw
  refine ⟨hleast, ?_⟩
  rintro ⟨hz, hpz, hbelow⟩
  obtain ⟨w, hfind⟩ := Option.isSome_iff_exists.1 (List.find?_isSome.2 ⟨z, hz, hpz⟩)
  obtain ⟨hw, hpw, hwbelow⟩ := hleast hfind
  rw [hfind, hinjective w hw z hz (le_antisymm (hwbelow z hz hpz) (hbelow w hw hpw))]

namespace Ranked

variable {α κ : Type} [LinearOrder κ]

/-- The members of one rank, in the order of the list. -/
def tier (key : α → κ) (k : κ) (xs : List α) : List α :=
  xs.filter fun x => key x = k

section

variable {key : α → κ} {k : κ} {x : α} {xs ys : List α}

@[simp]
theorem tier_append : tier key k (xs ++ ys) = tier key k xs ++ tier key k ys :=
  List.filter_append xs ys

theorem tier_cons (x : α) (xs : List α) :
    tier key k (x :: xs) = tier key k [x] ++ tier key k xs :=
  List.filter_append [x] xs

theorem tier_cons_self : tier key (key x) (x :: xs) = x :: tier key (key x) xs := by
  simp [tier]

theorem mem_tier : x ∈ tier key k xs ↔ x ∈ xs ∧ key x = k := by
  simp [tier]

theorem tier_eq_nil_iff : tier key k xs = [] ↔ ∀ x ∈ xs, key x ≠ k := by
  simp [tier]

theorem mem_iff_of_tier_eq (h : ∀ k, tier key k xs = tier key k ys) (x : α) :
    x ∈ xs ↔ x ∈ ys := by
  have hrank : x ∈ tier key (key x) xs ↔ x ∈ tier key (key x) ys := by rw [h]
  simpa [mem_tier] using hrank

theorem le_of_mem_cons (h : ∀ y ∈ xs, key x ≤ key y) {y : α} (hy : y ∈ x :: xs) : key x ≤ key y := by
  rcases List.mem_cons.1 hy with rfl | hy
  · exact le_rfl
  · exact h y hy

/-- If no two members are of one rank, then each rank is the same in every order of them. -/
theorem tier_eq_of_perm (hperm : ys.Perm xs) (hxs : xs.Pairwise fun x y => key x ≠ key y) :
    tier key k ys = tier key k xs := by
  have hranks : (tier key k ys).Perm (tier key k xs) := hperm.filter _
  have hdistinct : (tier key k xs).Pairwise fun x y => key x ≠ key y := hxs.filter _
  have hrank : ∀ x ∈ tier key k xs, key x = k := fun x hx => (mem_tier.1 hx).2
  match tier key k xs, hranks, hdistinct, hrank with
  | [], hranks, _, _ => exact hranks.eq_nil
  | [x], hranks, _, _ => exact List.perm_singleton.1 hranks
  | x :: y :: _, _, hdistinct, hrank =>
    have hne : key x ≠ key y := (List.pairwise_cons.1 hdistinct).1 y List.mem_cons_self
    exact absurd ((hrank x (by simp)).trans (hrank y (by simp)).symm) hne

/-- A sorted list is determined by its ranks. -/
theorem eq_of_tier_eq (hxs : xs.Pairwise fun x y => key x ≤ key y)
    (hys : ys.Pairwise fun x y => key x ≤ key y) (h : ∀ k, tier key k xs = tier key k ys) :
    xs = ys := by
  induction xs generalizing ys with
  | nil =>
    have hmem := mem_iff_of_tier_eq h
    exact (List.eq_nil_iff_forall_not_mem.2 fun y hy => by simpa using (hmem y).2 hy).symm
  | cons x xs ih =>
    have hmem := mem_iff_of_tier_eq h
    cases ys with
    | nil => simpa using (hmem x).1 List.mem_cons_self
    | cons y ys =>
      obtain ⟨hx, hxrest⟩ := List.pairwise_cons.1 hxs
      obtain ⟨hy, hyrest⟩ := List.pairwise_cons.1 hys
      have hkey : key x = key y :=
        le_antisymm (le_of_mem_cons hx ((hmem y).2 List.mem_cons_self))
          (le_of_mem_cons hy ((hmem x).1 List.mem_cons_self))
      -- both stand first in their rank
      have hfirst := h (key x)
      rw [tier_cons_self, hkey, tier_cons_self] at hfirst
      obtain rfl := (List.cons.inj hfirst).1
      have hrest (k : κ) : tier key k xs = tier key k ys := by
        have hk := h k
        rw [tier_cons x xs, tier_cons x ys] at hk
        exact List.append_cancel_left hk
      rw [ih hxrest hyrest hrest]

end

/-! ## Insertions and sorts -/

section

variable {key : α → κ} {le : α → α → Bool} (hle : ∀ a b, le a b = true ↔ key a ≤ key b)
  {k : κ} {x : α} {xs ys : List α}
include hle

/-- A new member comes last in its rank. -/
theorem tier_insert (hxs : xs.Pairwise fun x y => key x ≤ key y) :
    tier key k (insert le x xs) = tier key k (xs ++ [x]) := by
  induction xs with
  | nil => rfl
  | cons y rest ih =>
    obtain ⟨hy, hrest⟩ := List.pairwise_cons.1 hxs
    rw [insert]
    split
    · rw [tier_cons, ih hrest, List.cons_append, tier_cons y (rest ++ [x])]
    · rename_i hlt
      rw [hle, not_le] at hlt
      rw [tier_cons, tier_append]
      by_cases hx : key x = k
      · have hnil : tier key k (y :: rest) = [] := by
          rw [tier_eq_nil_iff, ← hx]
          refine List.forall_mem_cons.2 ⟨hlt.ne', fun z hz => (hlt.trans_le (hy z hz)).ne'⟩
        rw [hnil, List.append_nil, List.nil_append]
      · have hnil : tier key k [x] = [] := by
          rw [tier_eq_nil_iff]
          exact List.forall_mem_singleton.2 hx
        rw [hnil, List.append_nil, List.nil_append]

theorem pairwise_insert (hxs : xs.Pairwise fun x y => key x ≤ key y) :
    (insert le x xs).Pairwise fun x y => key x ≤ key y := by
  induction xs with
  | nil => exact List.pairwise_singleton _ _
  | cons y rest ih =>
    obtain ⟨hy, hrest⟩ := List.pairwise_cons.1 hxs
    rw [insert]
    split
    · rename_i hyx
      refine List.pairwise_cons.2 ⟨fun z hz => ?_, ih hrest⟩
      rcases mem_insert.1 hz with rfl | hz
      · exact (hle y z).1 hyx
      · exact hy z hz
    · rename_i hlt
      rw [hle, not_le] at hlt
      refine List.pairwise_cons.2 ⟨?_, hxs⟩
      exact List.forall_mem_cons.2 ⟨hlt.le, fun z hz => hlt.le.trans (hy z hz)⟩

theorem trans_of_key (a b c : α) (hab : le a b = true) (hbc : le b c = true) : le a c = true := by
  rw [hle] at *
  exact hab.trans hbc

theorem total_of_key (a b : α) : (le a b || le b a) = true := by
  rw [Bool.or_eq_true, hle, hle]
  exact le_total _ _

theorem pairwise_mergeSort_key (xs : List α) :
    (xs.mergeSort le).Pairwise fun x y => key x ≤ key y :=
  (List.pairwise_mergeSort (trans_of_key hle) (total_of_key hle) xs).imp fun h => (hle _ _).1 h

/-- A stable sort keeps the order in each rank. -/
theorem tier_mergeSort : tier key k (xs.mergeSort le) = tier key k xs := by
  have hlevel : (tier key k xs).Pairwise fun a b => le a b = true := by
    refine List.pairwise_of_forall_mem_list fun a ha b hb => ?_
    rw [hle, (mem_tier.1 ha).2, (mem_tier.1 hb).2]
  have hsublist : (tier key k xs).Sublist (xs.mergeSort le) :=
    List.sublist_mergeSort (trans_of_key hle) (total_of_key hle) hlevel List.filter_sublist
  have hinner : (tier key k xs).Sublist (tier key k (xs.mergeSort le)) := by
    have hfilter := hsublist.filter fun x => decide (key x = k)
    rw [tier, List.filter_filter] at hfilter
    simp only [Bool.and_self] at hfilter
    exact hfilter
  have hperm : (tier key k (xs.mergeSort le)).Perm (tier key k xs) :=
    (List.mergeSort_perm xs le).filter _
  exact (hinner.eq_of_length hperm.length_eq.symm).symm

/-- Only the order in each rank matters to a stable sort. -/
theorem mergeSort_eq_of_tier_eq (h : ∀ k, tier key k xs = tier key k ys) :
    xs.mergeSort le = ys.mergeSort le := by
  refine eq_of_tier_eq (pairwise_mergeSort_key hle xs) (pairwise_mergeSort_key hle ys) fun k => ?_
  rw [tier_mergeSort hle, tier_mergeSort hle, h]

/-- Sorting a sorted list with newcomers at its end is sorting all at once. -/
theorem mergeSort_mergeSort_append :
    (xs.mergeSort le ++ ys).mergeSort le = (xs ++ ys).mergeSort le := by
  refine mergeSort_eq_of_tier_eq hle fun k => ?_
  rw [tier_append, tier_append, tier_mergeSort hle]

/-- Putting one more member into a sorted list is sorting all members once more. -/
theorem insert_mergeSort : insert le x (xs.mergeSort le) = (xs ++ [x]).mergeSort le := by
  have hsorted := pairwise_mergeSort_key hle xs
  refine eq_of_tier_eq (pairwise_insert hle hsorted) (pairwise_mergeSort_key hle _) fun k => ?_
  rw [tier_insert hle hsorted, tier_append, tier_mergeSort hle, tier_mergeSort hle, tier_append]

/-- Putting all members in one by one is one stable sort. -/
theorem ofList_eq_mergeSort (xs : List α) : ofList le xs = xs.mergeSort le := by
  induction xs using List.reverseRecOn with
  | nil =>
    rw [List.mergeSort_nil]
    rfl
  | append_singleton xs x ih => rw [ofList_append_singleton, ih, insert_mergeSort hle]

/-- Places break the ties between members of one rank. -/
theorem zipIdxLE_iff (z w : α × ℕ) :
    List.zipIdxLE le z w = true ↔ toLex (key z.1, z.2) ≤ toLex (key w.1, w.2) := by
  rw [List.zipIdxLE, Prod.Lex.toLex_le_toLex]
  by_cases hzw : key z.1 ≤ key w.1
  · rw [if_pos ((hle _ _).2 hzw)]
    by_cases hwz : key w.1 ≤ key z.1
    · rw [if_pos ((hle _ _).2 hwz), decide_eq_true_eq]
      simp [le_antisymm hzw hwz]
    · rw [if_neg (mt (hle _ _).1 hwz)]
      simp [not_le.1 hwz]
  · rw [if_neg (mt (hle _ _).1 hzw)]
    simp [not_le.1 hzw |>.not_gt, (not_le.1 hzw).ne']

/-- The first member of the stable sort with a property is least by its rank and its place. -/
theorem find?_mergeSort_eq_some_iff {p : α → Bool} :
    (xs.mergeSort le).find? p = some x ↔
      ∃ i : ℕ, xs[i]? = some x ∧ p x = true ∧
        ∀ (j : ℕ) y, xs[j]? = some y → p y = true → toLex (key x, i) ≤ toLex (key y, j) := by
  have hmem (z : α × ℕ) : z ∈ xs.zipIdx.mergeSort (List.zipIdxLE le) ↔ xs[z.2]? = some z.1 := by
    rw [List.mem_mergeSort, List.mem_zipIdx_iff_getElem?]
  have hsorted := pairwise_mergeSort_key (zipIdxLE_iff hle) xs.zipIdx
  have hinjective : ∀ z ∈ xs.zipIdx.mergeSort (List.zipIdxLE le),
      ∀ w ∈ xs.zipIdx.mergeSort (List.zipIdxLE le),
        toLex (key z.1, z.2) = toLex (key w.1, w.2) → z = w := by
    intro z hz w hw hrank
    have hplace : z.2 = w.2 := (Prod.mk.inj hrank).2
    rw [hmem] at hz hw
    rw [hplace, hw] at hz
    exact Prod.ext (Option.some.inj hz).symm hplace
  have hleast (z : α × ℕ) := find?_eq_some_iff_least hsorted hinjective (p := p ∘ Prod.fst) (z := z)
  rw [← List.mergeSort_zipIdx, List.find?_map, Option.map_eq_some_iff]
  constructor
  · rintro ⟨⟨y, i⟩, hfind, rfl⟩
    obtain ⟨hy, hpy, hbelow⟩ := (hleast (y, i)).1 hfind
    exact ⟨i, (hmem (y, i)).1 hy, hpy, fun j z hz hpz => hbelow (z, j) ((hmem (z, j)).2 hz) hpz⟩
  · rintro ⟨i, hx, hpx, hbelow⟩
    refine ⟨(x, i), (hleast (x, i)).2 ⟨(hmem (x, i)).2 hx, hpx, fun w hw hpw => ?_⟩, rfl⟩
    exact hbelow w.2 w.1 ((hmem w).1 hw) hpw

end

end Ranked

end ExprLang
