/-!
# Entries sorted by key

Finite maps from names to values, kept as lists of pairs whose keys strictly increase. The list
form allows maps inside recursive types, and two maps with the same content are the same list. Main
statements: what is looked up after an insertion, and that insertion keeps the keys sorted.
-/

namespace ExprLang

abbrev Entries (α : Type) := List (String × α)

namespace Entries

variable {α β : Type}

def get? (key : String) : Entries α → Option α
  | [] => none
  | (k, v) :: rest => if k = key then some v else get? key rest

/-- Binds `key`, in place of an earlier binding or where the order of keys puts it. -/
def insert (key : String) (value : α) : Entries α → Entries α
  | [] => [(key, value)]
  | (k, v) :: rest =>
    if key < k then (key, value) :: (k, v) :: rest
    else if k = key then (key, value) :: rest
    else (k, v) :: insert key value rest

def contains (key : String) (entries : Entries α) : Bool :=
  (entries.get? key).isSome

def keys (entries : Entries α) : List String :=
  entries.map Prod.fst

def values (entries : Entries α) : List α :=
  entries.map Prod.snd

/-- The map with all bindings of the list; of several for one key the last one holds. -/
def ofList (bindings : List (String × α)) : Entries α :=
  bindings.foldl (fun entries (k, v) => insert k v entries) []

/-- The bindings of both maps; where both bind a name, `top` holds. -/
def override (base top : Entries α) : Entries α :=
  top.foldl (fun entries (k, v) => insert k v entries) base

@[simp] theorem get?_nil (key : String) : get? key ([] : Entries α) = none := rfl

theorem get?_insert_self (key : String) (value : α) (entries : Entries α) :
    (insert key value entries).get? key = some value := by
  induction entries with
  | nil => simp [insert, get?]
  | cons entry rest ih =>
    obtain ⟨k, v⟩ := entry
    by_cases hlt : key < k
    · simp [insert, get?, hlt]
    · by_cases heq : k = key
      · simp [insert, get?, heq]
      · simp [insert, get?, hlt, heq, ih]

theorem get?_insert_of_ne {key other : String} (hne : other ≠ key) (value : α)
    (entries : Entries α) : (insert key value entries).get? other = entries.get? other := by
  have hne' : key ≠ other := Ne.symm hne
  induction entries with
  | nil => simp [insert, get?, hne']
  | cons entry rest ih =>
    obtain ⟨k, v⟩ := entry
    by_cases hlt : key < k
    · simp [insert, get?, hlt, hne']
    · by_cases heq : k = key
      · have hk : k ≠ other := fun h => hne' (heq ▸ h)
        simp [insert, get?, heq, hne']
      · simp [insert, get?, hlt, heq, ih]

/-- Keys strictly increase, so each has one binding and its place is fixed. -/
def Sorted (entries : Entries α) : Prop :=
  entries.keys.Pairwise (· < ·)

theorem mem_keys_insert {key k : String} {value : α} {entries : Entries α} :
    k ∈ (insert key value entries).keys ↔ k = key ∨ k ∈ entries.keys := by
  induction entries with
  | nil => simp [insert, keys]
  | cons entry rest ih =>
    obtain ⟨j, v⟩ := entry
    simp only [keys] at ih
    simp only [insert]
    split
    · simp [keys]
    · split
      · rename_i heq
        simp [keys, heq]
      · simp only [keys, List.map_cons, List.mem_cons, ih, or_left_comm]

theorem sorted_insert {key : String} {value : α} {entries : Entries α} (h : entries.Sorted) :
    (insert key value entries).Sorted := by
  induction entries with
  | nil => simp [insert, Sorted, keys]
  | cons entry rest ih =>
    obtain ⟨j, v⟩ := entry
    obtain ⟨hbound, hrest⟩ := List.pairwise_cons.1 h
    simp only [insert]
    split
    · rename_i hlt
      apply List.pairwise_cons.2
      refine ⟨?_, h⟩
      intro k hk
      rcases List.mem_cons.1 hk with rfl | hk
      · exact hlt
      · exact String.lt_trans hlt (hbound k hk)
    · rename_i hge
      split
      · rename_i heq
        exact heq ▸ h
      · rename_i hne
        apply List.pairwise_cons.2
        refine ⟨?_, ih hrest⟩
        intro k hk
        rcases mem_keys_insert.1 hk with rfl | hk
        · exact String.not_le.1 fun hle => hne (String.le_antisymm (String.not_lt.1 hge) hle)
        · exact hbound k hk

theorem sorted_ofList (bindings : List (String × α)) : (ofList bindings).Sorted := by
  have hfold : ∀ (entries : Entries α), entries.Sorted →
      (bindings.foldl (fun entries (k, v) => insert k v entries) entries).Sorted := by
    induction bindings with
    | nil => exact fun _ h => h
    | cons binding rest ih => exact fun entries h => ih _ (sorted_insert h)
  exact hfold [] List.Pairwise.nil

end Entries

end ExprLang
