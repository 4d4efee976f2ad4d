import ExprLang.Proofs.Contexts.Views
import ExprLang.Proofs.Effects.Stepping

/-!
# Canonical contexts

Of two assignments to the same place the second wins, and an assignment of what is read at a place
changes nothing (`Context.setValue_read`).  For the latter, frames and maps have to be sorted, which
is the form that they have: the same content is then the same list.
-/

namespace ExprLang

namespace Value

/-- A value in which all maps are sorted. -/
inductive Canonical : Value → Prop
  | scalar {v : Value} (hlist : ∀ items, v ≠ .list items) (hmap : ∀ entries, v ≠ .map entries) :
      Canonical v
  | list {items : List Value} (h : ∀ v ∈ items, Canonical v) : Canonical (.list items)
  | map {entries : Entries Value} (hsorted : entries.Sorted)
      (h : ∀ name v, entries.get? name = some v → Canonical v) : Canonical (.map entries)

namespace Canonical

variable {entries : Entries Value} {items : List Value} {v w : Value}

theorem of_isNumber (h : v.isNumber = true) : v.Canonical := by
  apply Canonical.scalar
  · rintro items rfl
    cases h
  · rintro entries rfl
    cases h

theorem sorted (h : Canonical (.map entries)) : entries.Sorted := by
  cases h with
  | scalar _ hmap => exact absurd rfl (hmap entries)
  | map hsorted _ => exact hsorted

theorem entry (h : Canonical (.map entries)) {name : String}
    (hget : entries.get? name = some v) : v.Canonical := by
  cases h with
  | scalar _ hmap => exact absurd rfl (hmap entries)
  | map _ hentries => exact hentries name v hget

theorem item (h : Canonical (.list items)) {i : Nat} (hget : items[i]? = some v) :
    v.Canonical := by
  cases h with
  | scalar hlist _ => exact absurd rfl (hlist items)
  | list hitems => exact hitems v (List.mem_of_getElem? hget)

theorem map_nil : Canonical (.map []) :=
  .map List.Pairwise.nil fun _ _ hget => nomatch hget

theorem insert (h : Canonical (.map entries)) (hv : v.Canonical) (name : String) :
    Canonical (.map (entries.insert name v)) := by
  refine .map (Entries.sorted_insert h.sorted) fun other u hget => ?_
  by_cases hother : other = name
  · rw [hother, Entries.get?_insert_self] at hget
    exact Option.some.inj hget ▸ hv
  · rw [Entries.get?_insert_of_ne hother] at hget
    exact h.entry hget

theorem set (h : Canonical (.list items)) (hv : v.Canonical) (i : Nat) :
    Canonical (.list (items.set i v)) := by
  refine .list fun u hu => ?_
  rcases List.mem_or_eq_of_mem_set hu with hmem | rfl
  · obtain ⟨j, hj⟩ := List.mem_iff_getElem?.1 hmem
    exact h.item hj
  · exact hv

end Canonical

namespace Stored

variable {new old v w : Value} {path : Path}

/-- Of two values that are stored at a path, the second one stays. -/
theorem store?_again (h : Stored new v path w) (old : Value) :
    store? old w path = store? old v path := by
  induction h with
  | here v => rw [store?, store?]
  | @entry entries name rest w changed hget hrest ih =>
    cases rest with
    | nil => simp only [store?, Entries.insert_insert]
    | cons next rest =>
      have hw := hget (List.cons_ne_nil next rest)
      simp only [store?, Entries.get?_insert_self, hw, Option.bind_eq_bind, Option.bind_some, ih,
        Entries.insert_insert]
  | @item items n i rest w changed hposition hget hrest ih =>
    have hlt : i < items.length := (List.getElem?_eq_some_iff.1 hget).1
    simp only [store?, List.length_set, hposition, Option.bind_eq_bind, Option.bind_some,
      List.getElem?_set_self hlt, hget, ih, List.set_set]

theorem canonical (h : Stored new v path w) (hnew : new.Canonical) (hv : v.Canonical) :
    w.Canonical := by
  induction h with
  | here v => exact hnew
  | @entry entries name rest w changed hget hrest ih =>
    cases rest with
    | nil =>
      cases hrest
      exact hv.insert hnew name
    | cons next rest =>
      have hw := hget (List.cons_ne_nil next rest)
      exact hv.insert (ih (hv.entry hw)) name
  | @item items n i rest w changed hposition hget hrest ih =>
    exact hv.set (ih (hv.item hget)) i

/-- Storing what is read changes nothing. -/
theorem eq_of_fetch? (h : Stored old v path w) (hv : v.Canonical)
    (hfetch : v.fetch? path = some old) : w = v := by
  induction h with
  | here v =>
    rw [fetch?] at hfetch
    exact (Option.some.inj hfetch).symm
  | @entry entries name rest w changed hget hrest ih =>
    obtain ⟨u, hu, hfetch⟩ := Option.bind_eq_some_iff.1 hfetch
    have hchanged : changed = u := by
      cases rest with
      | nil =>
        rw [fetch?] at hfetch
        cases hrest
        exact (Option.some.inj hfetch).symm
      | cons next rest =>
        obtain rfl : w = u := Option.some.inj ((hget (List.cons_ne_nil next rest)).symm.trans hu)
        exact ih (hv.entry hu) hfetch
    rw [hchanged, hv.sorted.insert_get? hu]
  | @item items n i rest w changed hposition hget hrest ih =>
    simp only [fetch?, hposition, hget, Option.bind_eq_bind, Option.bind_some] at hfetch
    rw [ih (hv.item hget) hfetch]
    obtain ⟨hlt, rfl⟩ := List.getElem?_eq_some_iff.1 hget
    rw [List.set_getElem_self]

end Stored

end Value

namespace Context

variable {c : Context} {root : String} {v w : Value}

/-- Of two values that are assigned to a name, the second one stays. -/
theorem assign_assign (c : Context) (root : String) (v w : Value) :
    (c.assign root v).assign root w = c.assign root w := by
  obtain ⟨globals, inner, strict, semantics⟩ := c
  induction inner with
  | nil => simp [assign, Entries.insert_insert]
  | cons frame rest ih =>
    by_cases hframe : Entries.contains root frame = true
    · have hagain : Entries.contains root (Entries.insert root v frame) = true := by
        rw [Entries.contains, Entries.get?_insert_self]
        rfl
      rw [assign_of_contains hframe, assign_of_contains hagain, assign_of_contains hframe,
        Entries.insert_insert]
    · rw [assign_of_not_contains hframe, assign_of_not_contains hframe,
        assign_of_not_contains hframe]
      exact congrArg (fun d : Context => { d with inner := frame :: d.inner }) ih

/-- Assigning what a name is bound to changes nothing. -/
theorem Sorted.assign_lookup? (h : c.Sorted) (hlookup : c.lookup? root = some v) :
    c.assign root v = c := by
  obtain ⟨globals, inner, strict, semantics⟩ := c
  obtain ⟨hinner, hglobals⟩ := sorted_iff.1 h
  clear h
  induction inner with
  | nil =>
    have hget : globals.get? root = some v := by simpa [lookup?, frames] using hlookup
    have hnone : ¬ ([] : List Frame).any (Entries.contains root) = true := by simp
    rw [Context.assign, if_neg hnone]
    simp only [hglobals.insert_get? hget]
  | cons frame rest ih =>
    obtain ⟨hframe, hrest⟩ := List.forall_mem_cons.1 hinner
    rw [lookup?, frames, List.cons_append, List.findSome?_cons] at hlookup
    by_cases hcontains : Entries.contains root frame = true
    · obtain ⟨u, hu⟩ := Option.isSome_iff_exists.1 hcontains
      rw [hu] at hlookup
      obtain rfl := Option.some.inj hlookup
      rw [assign_of_contains hcontains, hframe.insert_get? hu]
    · have hnone : Entries.get? root frame = none := by simpa [Entries.contains] using hcontains
      rw [hnone] at hlookup
      rw [assign_of_not_contains hcontains, ih hlookup hrest hglobals]

/-- The form that contexts have: all frames and all maps in them are sorted. -/
def Canonical (c : Context) : Prop :=
  ∀ frame ∈ c.frames, (Value.map frame).Canonical

namespace Canonical

theorem new (semantics : Semantics) (strict : Bool) : (Context.new semantics strict).Canonical :=
  List.forall_mem_singleton.2 Value.Canonical.map_nil

variable (h : c.Canonical)
include h

theorem sorted : c.Sorted :=
  fun frame hframe => (h frame hframe).sorted

theorem value (hlookup : c.lookup? root = some v) : v.Canonical := by
  obtain ⟨frame, hframe, hget⟩ := List.exists_of_findSome?_eq_some hlookup
  exact (h frame hframe).entry hget

theorem declare (hv : v.Canonical) (name : String) : (c.declare name v).Canonical :=
  forall_frames_declare h fun _ hframe => hframe.insert hv name

theorem assign (hv : v.Canonical) (name : String) : (c.assign name v).Canonical :=
  forall_frames_assign h fun _ hframe => hframe.insert hv name

/-- Setting a value keeps the form. -/
theorem setValue {d : Context} {path : Path} (hv : v.Canonical)
    (hset : c.setValue path v = .ok d) : d.Canonical := by
  obtain ⟨root, rest, w, rfl, hchanged, rfl⟩ := exists_of_setValue hset
  have hstored := Value.stored_of_store? hchanged
  refine h.assign (hstored.canonical hv ?_) root
  cases hlookup : c.lookup? root with
  | some u => exact h.value hlookup
  | none => exact .scalar nofun nofun

end Canonical

/-- Setting a path twice is setting it to the second value. -/
theorem setValue_setValue {c d : Context} {path : Path} {new : Value}
    (hset : c.setValue path new = .ok d) (old : Value) :
    d.setValue path old = c.setValue path old := by
  obtain ⟨root, rest, w, rfl, hchanged, rfl⟩ := exists_of_setValue hset
  have hagain : (c.assign root w).changed? root rest old = c.changed? root rest old := by
    rw [changed?, lookup?_assign_self, Option.getD_some]
    exact (Value.stored_of_store? hchanged).store?_again old
  rw [setValue_eq, setValue_eq, hagain]
  simp only [assign_assign]

/-- Setting a path to what is read there changes nothing. -/
theorem Canonical.setValue_read {c d : Context} (h : c.Canonical) {path : Path} {old : Value}
    (hread : c.getValue path = .ok old) (hnumber : old.isNumber = true)
    (hset : c.setValue path old = .ok d) : d = c := by
  obtain ⟨root, rest, w, rfl, hchanged, rfl⟩ := exists_of_setValue hset
  obtain ⟨_, _, v, ⟨⟩, hlookup, hfetch⟩ := exists_of_getValue hread hnumber
  rw [changed?, hlookup, Option.getD_some] at hchanged
  obtain rfl := (Value.stored_of_store? hchanged).eq_of_fetch? (h.value hlookup) hfetch
  exact h.sorted.assign_lookup? hlookup

end Context

end ExprLang
