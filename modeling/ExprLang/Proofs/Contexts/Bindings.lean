import ExprLang.Entries
import Mathlib.Data.List.Basic

/-!
# Bindings of sorted entries

Which bindings a map of a list has, what is looked up in a map that overrides another, and which
insertions change nothing.  The last two need the keys to be sorted: a key with two bindings would
be looked up at its first and overridden with its last.
-/

namespace ExprLang

namespace Entries

variable {α : Type} {key : String} {v w : α} {entries base top : Entries α}

theorem get?_eq_none_iff : entries.get? key = none ↔ key ∉ entries.keys := by
  induction entries with
  | nil => simp [keys]
  | cons entry rest ih =>
    obtain ⟨k, v⟩ := entry
    rw [get?]
    by_cases hkey : k = key
    · simp [keys, hkey]
    · rw [if_neg hkey, ih]
      simp [keys, Ne.symm hkey]

theorem contains_iff : entries.contains key = true ↔ key ∈ entries.keys := by
  rw [contains, Option.isSome_iff_ne_none, ne_eq, get?_eq_none_iff, not_not]

theorem mem_of_get? (h : entries.get? key = some v) : (key, v) ∈ entries := by
  induction entries with
  | nil => cases h
  | cons entry rest ih =>
    obtain ⟨k, v⟩ := entry
    by_cases hkey : k = key
    · rw [Entries.get?, if_pos hkey] at h
      obtain rfl := Option.some.inj h
      simp [hkey]
    · rw [Entries.get?, if_neg hkey] at h
      exact List.mem_cons_of_mem _ (ih h)

theorem mem_insert {entry : String × α} (h : entry ∈ insert key v entries) :
    entry = (key, v) ∨ entry ∈ entries := by
  induction entries with
  | nil => exact .inl (List.mem_singleton.1 h)
  | cons first rest ih =>
    simp only [insert] at h
    split at h
    · exact List.mem_cons.1 h
    · split at h
      · exact (List.mem_cons.1 h).imp_right (List.mem_cons_of_mem _)
      · rcases List.mem_cons.1 h with rfl | h
        · exact .inr List.mem_cons_self
        · exact (ih h).imp_right (List.mem_cons_of_mem _)

/-- A map of a list has no bindings but those of the list. -/
theorem mem_of_mem_ofList {entry : String × α} {bindings : List (String × α)}
    (h : entry ∈ ofList bindings) : entry ∈ bindings := by
  have hfold (entries : Entries α) :
      entry ∈ bindings.foldl (fun entries b => insert b.1 b.2 entries) entries →
        entry ∈ entries ∨ entry ∈ bindings := by
    clear h
    induction bindings generalizing entries with
    | nil => exact .inl
    | cons binding rest ih =>
      intro h
      rcases ih _ h with h | h
      · rcases mem_insert h with rfl | h
        · exact .inr List.mem_cons_self
        · exact .inl h
      · exact .inr (List.mem_cons_of_mem _ h)
  exact (hfold [] h).resolve_left List.not_mem_nil

theorem mem_keys_ofList {bindings : List (String × α)} :
    key ∈ (ofList bindings).keys ↔ key ∈ bindings.map Prod.fst := by
  have hfold (entries : Entries α) :
      key ∈ (bindings.foldl (fun entries b => insert b.1 b.2 entries) entries).keys ↔
        key ∈ entries.keys ∨ key ∈ bindings.map Prod.fst := by
    induction bindings generalizing entries with
    | nil => simp
    | cons binding rest ih =>
      rw [List.foldl_cons, ih, mem_keys_insert, List.map_cons, List.mem_cons, or_assoc,
        or_left_comm]
  refine (hfold []).trans ?_
  simp [keys]

/-- The first key of sorted entries has no other binding. -/
theorem Sorted.get?_tail (h : Sorted ((key, v) :: entries)) : entries.get? key = none := by
  rw [get?_eq_none_iff]
  intro hmem
  exact String.lt_irrefl key ((List.pairwise_cons.1 h).1 key hmem)

theorem Sorted.tail {entry : String × α} (h : Sorted (entry :: entries)) : Sorted entries :=
  (List.pairwise_cons.1 h).2

/-- Of two bindings, that of the upper map is found. -/
theorem get?_override (htop : top.Sorted) :
    (override base top).get? key = (top.get? key).or (base.get? key) := by
  induction top generalizing base with
  | nil => rfl
  | cons entry rest ih =>
    obtain ⟨k, v⟩ := entry
    change (override (insert k v base) rest).get? key = _
    rw [ih htop.tail, get?]
    by_cases hkey : k = key
    · subst hkey
      rw [htop.get?_tail, get?_insert_self, if_pos rfl]
      rfl
    · rw [if_neg hkey, get?_insert_of_ne (Ne.symm hkey)]

theorem sorted_override (hbase : base.Sorted) : (override base top).Sorted := by
  induction top generalizing base with
  | nil => exact hbase
  | cons entry rest ih => exact ih (sorted_insert hbase)

/-- Of two insertions for one key, the first leaves no trace. -/
theorem insert_insert : insert key v (insert key w entries) = insert key v entries := by
  induction entries with
  | nil => simp [insert]
  | cons entry rest ih =>
    obtain ⟨k, u⟩ := entry
    by_cases hlt : key < k
    · simp [insert, hlt]
    · by_cases hkey : k = key
      · simp [insert, hkey]
      · simp [insert, hlt, hkey, ih]

/-- Binding a key to what it is bound to changes nothing. -/
theorem Sorted.insert_get? (h : entries.Sorted) (hget : entries.get? key = some v) :
    insert key v entries = entries := by
  induction entries with
  | nil => cases hget
  | cons entry rest ih =>
    obtain ⟨k, u⟩ := entry
    rw [get?] at hget
    by_cases hkey : k = key
    · rw [if_pos hkey] at hget
      obtain rfl := Option.some.inj hget
      simp [insert, hkey]
    · rw [if_neg hkey] at hget
      have hmem : key ∈ keys rest := contains_iff.1 (Option.isSome_of_eq_some hget)
      have hlt : k < key := (List.pairwise_cons.1 h).1 key hmem
      simp [insert, String.lt_asymm hlt, hkey, ih h.tail hget]

end Entries

end ExprLang
