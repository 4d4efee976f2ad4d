import ExprLang.Context
import Mathlib

/-!
# The shape of values

Two values are alike if they have the same parts at the same places, where numbers need only be of
the same type.  Lists that are alike have the same length and maps that are alike have the same
keys.  Storing a value in place of one that is alike gives a value that is alike, whatever the path
is, because reading and writing walk the same way whenever both arrive (`Alike.store`).
-/

namespace ExprLang

namespace Value

/-- A step to a part of a value. -/
inductive Place where
  | item (position : Nat)
  | entry (key : String)
  deriving DecidableEq

/-- The part of a value at some place inside it. -/
def part? : Value → List Place → Option Value
  | v, [] => some v
  | list items, .item position :: rest => items[position]?.bind fun v => part? v rest
  | map entries, .entry key :: rest => (Entries.get? key entries).bind fun v => part? v rest
  | _, _ :: _ => none

/-- A value without its parts, and of a number only the type. -/
def face : Value → Value
  | int _ => .int 0
  | long _ => .long 0
  | double _ => .double 0
  | list items => .list (items.map fun _ => .null)
  | map _ => .map []
  | v => v

/-- The values have the same parts at the same places, up to numbers of the same type. -/
def Alike (v w : Value) : Prop :=
  ∀ places, (v.part? places).map face = (w.part? places).map face

theorem Alike.refl (v : Value) : Alike v v :=
  fun _ => rfl

theorem Alike.trans {u v w : Value} (huv : Alike u v) (hvw : Alike v w) : Alike u w :=
  fun places => (huv places).trans (hvw places)

/-- Values that are alike have the same type. -/
theorem Alike.tag_eq {v w : Value} (h : Alike v w) : w.tag = v.tag := by
  have hface : v.face = w.face := by simpa [part?] using h []
  have htag : ∀ u : Value, u.face.tag = u.tag := by
    intro u
    cases u <;> rfl
  rw [← htag w, ← hface, htag v]

/-- Numbers of one type are alike. -/
theorem alike_of_isNumber {v w : Value} (hnumber : v.isNumber = true) (htag : w.tag = v.tag) :
    Alike v w := by
  intro places
  cases places with
  | nil => cases v <;> cases hnumber <;> cases w <;> cases htag <;> rfl
  | cons place rest =>
    have hnone : ∀ u : Value, u.isNumber = true → u.part? (place :: rest) = none := by
      intro u hu
      cases u <;> cases hu <;> cases place <;> rfl
    rw [hnone v hnumber, hnone w (by cases v <;> cases hnumber <;> cases w <;> cases htag <;> rfl)]

theorem part?_map (entries : Entries Value) (key : String) (rest : List Place) :
    (map entries).part? (.entry key :: rest) =
      (entries.get? key).bind fun v => v.part? rest := rfl

theorem part?_list (items : List Value) (position : Nat) (rest : List Place) :
    (list items).part? (.item position :: rest) =
      items[position]?.bind fun v => v.part? rest := rfl

/-- A map in which a value is replaced by one that is alike. -/
theorem Alike.insert {entries : Entries Value} {key : String} {v w : Value} (h : Alike v w)
    (hget : entries.get? key = some v) : Alike (map entries) (map (entries.insert key w)) := by
  intro places
  cases places with
  | nil => rfl
  | cons place rest =>
    cases place with
    | item position => rfl
    | entry other =>
      rw [part?_map, part?_map]
      by_cases hkey : other = key
      · rw [hkey, hget, Entries.get?_insert_self]
        exact h rest
      · rw [Entries.get?_insert_of_ne hkey]

/-- A list in which an item is replaced by one that is alike. -/
theorem Alike.set {items : List Value} {i : Nat} {v w : Value} (h : Alike v w)
    (hget : items[i]? = some v) : Alike (list items) (list (items.set i w)) := by
  intro places
  cases places with
  | nil => simp [part?, face]
  | cons place rest =>
    cases place with
    | entry key => rfl
    | item position =>
      rw [part?_list, part?_list]
      by_cases hposition : position = i
      · have hlt : i < items.length := (List.getElem?_eq_some_iff.1 hget).1
        rw [hposition, hget, List.getElem?_set_self hlt]
        exact h rest
      · rw [List.getElem?_set_ne (Ne.symm hposition)]

/-- What is stored below a key of a map is stored in the entry of the key. -/
theorem exists_of_store?_map {entries : Entries Value} {new old w v' : Value} {name : String}
    {rest : Path} (hget : entries.get? name = some w) (hfetch : w.fetch? rest = some old)
    (hstore : store? new (map entries) (.property name :: rest) = some v') :
    ∃ changed, store? new w rest = some changed ∧ v' = .map (entries.insert name changed) := by
  cases rest with
  | nil => exact ⟨new, rfl, (Option.some.inj hstore).symm⟩
  | cons key rest =>
    simp only [store?, hget, Option.bind_eq_bind, Option.bind_some] at hstore
    obtain ⟨changed, hchanged, hv'⟩ := Option.bind_eq_some_iff.1 hstore
    exact ⟨changed, hchanged, (Option.some.inj hv').symm⟩

/-- Storing in place of a value that is alike changes numbers only. -/
theorem Alike.store {old new : Value} (h : Alike old new) {path : Path} {v v' : Value}
    (hfetch : v.fetch? path = some old) (hstore : store? new v path = some v') : Alike v v' := by
  induction path generalizing v v' with
  | nil =>
    obtain rfl := Option.some.inj hfetch
    obtain rfl := Option.some.inj hstore
    exact h
  | cons key rest ih =>
    cases v with
    | map entries =>
      cases key with
      | index n => cases hstore
      | property name =>
        obtain ⟨w, hget, hw⟩ := Option.bind_eq_some_iff.1 hfetch
        obtain ⟨changed, hchanged, rfl⟩ := exists_of_store?_map hget hw hstore
        exact (ih hw hchanged).insert hget
    | list items =>
      cases key with
      | property name => simp [store?] at hstore
      | index n =>
        simp only [fetch?, Option.bind_eq_bind] at hfetch
        simp only [store?, Option.bind_eq_bind] at hstore
        obtain ⟨i, hi, hfetch⟩ := Option.bind_eq_some_iff.1 hfetch
        obtain ⟨w, hget, hw⟩ := Option.bind_eq_some_iff.1 hfetch
        rw [hi, Option.bind_some, hget, Option.bind_some] at hstore
        obtain ⟨changed, hchanged, hv'⟩ := Option.bind_eq_some_iff.1 hstore
        obtain rfl := Option.some.inj hv'
        exact (ih hw hchanged).set hget
    | _ => simp [store?] at hstore

end Value

end ExprLang
