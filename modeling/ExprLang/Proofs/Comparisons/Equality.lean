import ExprLang.Proofs.Integers.Widths
import ExprLang.Value.Compare
import Mathlib.Data.List.Forall2

/-!
# Equality of values

Equality does not tell a narrow integer from the wide one of the same number, wherever the two stand
inside lists and maps.  Apart from that it is the identity: values without doubles are equal if and
only if their wide forms are the same (`Value.equals_iff_wide`), so on them equality is an
equivalence (`Value.equals_equivalence`).  Doubles have to be left out because a not-a-number is not
equal to itself.
-/

namespace ExprLang.Value

/-! ## Values inside values -/

/-- Neither a list nor a map. -/
def isScalar : Value → Bool
  | .list _ | .map _ => false
  | _ => true

/-- Induction over everything inside a value. -/
@[elab_as_elim]
theorem inside_induction {motive : Value → Prop}
    (scalar : ∀ v, v.isScalar = true → motive v)
    (list : ∀ items, (∀ v ∈ items, motive v) → motive (.list items))
    (map : ∀ entries : Entries Value, (∀ entry ∈ entries, motive entry.2) →
      motive (.map entries)) (v : Value) : motive v :=
  have hscalar {v : Value} (hv : v.isScalar = true) : motive v := scalar v hv
  @Value.rec motive (fun items => ∀ v ∈ items, motive v)
    (fun entries => ∀ entry ∈ entries, motive entry.2) (fun entry => motive entry.2)
    (hscalar rfl) (fun _ => hscalar rfl) (fun _ => hscalar rfl) (fun _ => hscalar rfl)
    (fun _ => hscalar rfl) (fun _ => hscalar rfl) (fun _ => hscalar rfl) list map
    (List.forall_mem_nil _) (fun _ _ hfirst hrest => List.forall_mem_cons.2 ⟨hfirst, hrest⟩)
    (List.forall_mem_nil _) (fun _ _ hfirst hrest => List.forall_mem_cons.2 ⟨hfirst, hrest⟩)
    (fun _ _ hv => hv) v

mutual
/-- The value and all values inside it. -/
def parts : Value → List Value
  | .list items => .list items :: partsOfItems items
  | .map entries => .map entries :: partsOfEntries entries
  | v => [v]

def partsOfItems : List Value → List Value
  | [] => []
  | v :: rest => v.parts ++ partsOfItems rest

def partsOfEntries : List (String × Value) → List Value
  | [] => []
  | (_, v) :: rest => v.parts ++ partsOfEntries rest
end

theorem partsOfItems_eq (items : List Value) : partsOfItems items = items.flatMap parts := by
  induction items with
  | nil => rfl
  | cons v rest ih => rw [partsOfItems, ih, List.flatMap_cons]

theorem partsOfEntries_eq (entries : Entries Value) :
    partsOfEntries entries = entries.flatMap fun entry => entry.2.parts := by
  induction entries with
  | nil => rfl
  | cons entry rest ih => rw [partsOfEntries, ih, List.flatMap_cons]

/-- No value of the type occurs in the value, at any depth. -/
def Lacks (t : TypeTag) (v : Value) : Prop :=
  ∀ part ∈ v.parts, part.tag ≠ t

instance (t : TypeTag) (v : Value) : Decidable (v.Lacks t) :=
  inferInstanceAs (Decidable (∀ part ∈ v.parts, part.tag ≠ t))

namespace Lacks

variable {t : TypeTag} {v : Value} {items : List Value} {entries : Entries Value}

theorem tag_ne (h : v.Lacks t) : v.tag ≠ t := by
  apply h
  cases v <;> exact List.mem_cons_self

theorem item (h : (Value.list items).Lacks t) (hv : v ∈ items) : v.Lacks t := by
  intro part hpart
  apply h
  rw [parts, partsOfItems_eq]
  exact List.mem_cons_of_mem _ (List.mem_flatMap.2 ⟨v, hv, hpart⟩)

theorem entry (h : (Value.map entries).Lacks t) {entry : String × Value} (hentry : entry ∈ entries) :
    entry.2.Lacks t := by
  intro part hpart
  apply h
  rw [parts, partsOfEntries_eq]
  exact List.mem_cons_of_mem _ (List.mem_flatMap.2 ⟨entry, hentry, hpart⟩)

end Lacks

/-! ## Wide forms -/

mutual
/-- The value in which each narrow integer is replaced by the wide one of the same number. -/
def wide : Value → Value
  | .int n => .long n.toInt64
  | .list items => .list (wideItems items)
  | .map entries => .map (wideEntries entries)
  | v => v

def wideItems : List Value → List Value
  | [] => []
  | v :: rest => v.wide :: wideItems rest

def wideEntries : List (String × Value) → List (String × Value)
  | [] => []
  | (key, v) :: rest => (key, v.wide) :: wideEntries rest
end

theorem wideItems_eq (items : List Value) : wideItems items = items.map wide := by
  induction items with
  | nil => rfl
  | cons v rest ih => rw [wideItems, ih, List.map_cons]

theorem wideEntries_eq (entries : Entries Value) :
    wideEntries entries = entries.map (Prod.map id wide) := by
  induction entries with
  | nil => rfl
  | cons entry rest ih =>
    rw [wideEntries, ih]
    rfl

/-! ## Lists and maps -/

theorem equalItems_iff {xs ys : List Value} :
    equalItems xs ys = true ↔ List.Forall₂ (fun x y => x.equals y = true) xs ys := by
  induction xs generalizing ys with
  | nil => cases ys <;> simp [equalItems]
  | cons x xs ih => cases ys <;> simp [equalItems, ih]

theorem equalEntries_iff {xs ys : Entries Value} : equalEntries xs ys = true ↔
    List.Forall₂ (fun x y => x.1 = y.1 ∧ x.2.equals y.2 = true) xs ys := by
  induction xs generalizing ys with
  | nil => cases ys <;> simp [equalEntries]
  | cons x xs ih => cases ys <;> simp [equalEntries, ih]

/-- Lists are compared by their lengths and their items in order. -/
theorem equals_list_iff {xs ys : List Value} : (Value.list xs).equals (.list ys) = true ↔
    List.Forall₂ (fun x y => x.equals y = true) xs ys := by
  rw [equals, equalItems_iff]

/-- Maps are compared by their keys and what these are bound to. -/
theorem equals_map_iff {xs ys : Entries Value} : (Value.map xs).equals (.map ys) = true ↔
    List.Forall₂ (fun x y => x.1 = y.1 ∧ x.2.equals y.2 = true) xs ys := by
  rw [equals, equalEntries_iff]

/-! ## Equal wide forms -/

theorem equals_scalar_iff {a b : Value} (hscalar : a.isScalar = true) (ha : a.tag ≠ .double)
    (hb : b.tag ≠ .double) : a.equals b = true ↔ a.wide = b.wide := by
  cases a <;> cases hscalar <;> cases b <;>
    simp [equals, wide, sameNumber, Numbers.of, long?, tag] at ha hb ⊢

/-- Relations that agree on the members of two lists relate the lists alike. -/
theorem forall₂_congr_mem {α β : Type} {R S : α → β → Prop} {xs : List α} {ys : List β}
    (h : ∀ x ∈ xs, ∀ y ∈ ys, (R x y ↔ S x y)) :
    List.Forall₂ R xs ys ↔ List.Forall₂ S xs ys := by
  rw [List.forall₂_iff_zip, List.forall₂_iff_zip]
  refine and_congr_right fun _ => forall_congr' fun x => forall_congr' fun y => ?_
  refine forall_congr' fun hmem => ?_
  obtain ⟨hx, hy⟩ := List.of_mem_zip hmem
  exact h x hx y hy

theorem forall₂_eq_iff {α β : Type} {f : α → β} {xs ys : List α} :
    List.Forall₂ (fun x y => f x = f y) xs ys ↔ xs.map f = ys.map f := by
  rw [← List.forall₂_map_right_iff (f := f) (R := fun x z => f x = z),
    ← List.forall₂_map_left_iff (f := f), List.forall₂_eq_eq_eq]

/-- Values without doubles are equal if they only differ in the widths of integers. -/
theorem equals_iff_wide {a b : Value} (ha : a.Lacks .double) (hb : b.Lacks .double) :
    a.equals b = true ↔ a.wide = b.wide := by
  induction a using inside_induction generalizing b with
  | scalar a hscalar => exact equals_scalar_iff hscalar ha.tag_ne hb.tag_ne
  | list xs ih =>
    cases b with
    | list ys =>
      have hitems : ∀ x ∈ xs, ∀ y ∈ ys, (x.equals y = true ↔ x.wide = y.wide) :=
        fun x hx y hy => ih x hx (ha.item hx) (hb.item hy)
      calc
        (Value.list xs).equals (.list ys) = true
          ↔ List.Forall₂ (fun x y => x.wide = y.wide) xs ys :=
            equals_list_iff.trans (forall₂_congr_mem hitems)
        _ ↔ (Value.list xs).wide = (Value.list ys).wide := by
            rw [forall₂_eq_iff, wide, wide, wideItems_eq, wideItems_eq, list.injEq]
    | _ => simp [equals, wide, sameNumber, Numbers.of, long?, double?]
  | map xs ih =>
    cases b with
    | map ys =>
      have hentries : ∀ x ∈ xs, ∀ y ∈ ys, (x.1 = y.1 ∧ x.2.equals y.2 = true ↔
          Prod.map id wide x = Prod.map id wide y) := by
        intro x hx y hy
        rw [ih x hx (ha.entry hx) (hb.entry hy), Prod.ext_iff]
        rfl
      calc
        (Value.map xs).equals (.map ys) = true
          ↔ List.Forall₂ (fun x y => Prod.map id wide x = Prod.map id wide y) xs ys :=
            equals_map_iff.trans (forall₂_congr_mem hentries)
        _ ↔ (Value.map xs).wide = (Value.map ys).wide := by
            rw [forall₂_eq_iff, wide, wide, wideEntries_eq, wideEntries_eq, map.injEq]
    | _ => simp [equals, wide, sameNumber, Numbers.of, long?, double?]

/-- Two integers are equal if they are the same number. -/
theorem equals_integers_iff {a b : Value} {x y : Int} (ha : a.integer? = some x)
    (hb : b.integer? = some y) : a.equals b = true ↔ x = y := by
  obtain ⟨m, hm, rfl⟩ := exists_long_of_integer? ha
  obtain ⟨n, hn, rfl⟩ := exists_long_of_integer? hb
  have hequals : a.equals b = (m == n) := by
    cases a <;> cases hm <;> cases b <;> cases hn <;> rfl
  rw [hequals, beq_iff_eq, Int64.toInt_inj]

/-- On values without doubles, equality is an equivalence, and it only overlooks the widths of
integers: two values are equal if and only if replacing all narrow integers in them makes them the
same.  So integers are compared as numbers, a character is not equal to a text, lists are compared
by their lengths and their items in order, and maps by their keys and what these are bound to. -/
theorem equals_equivalence :
    (Equivalence fun a b : {v : Value // v.Lacks .double} => a.1.equals b.1 = true) ∧
    (∀ a b : Value, a.Lacks .double → b.Lacks .double →
      (a.equals b = true ↔ a.wide = b.wide)) ∧
    (∀ (a b : Value) (x y : Int), a.integer? = some x → b.integer? = some y →
      (a.equals b = true ↔ x = y)) ∧
    (∀ (c : Char) (s : String),
      (Value.char c).equals (.str s) = false ∧ (Value.str s).equals (.char c) = false) ∧
    (∀ xs ys : List Value, (Value.list xs).equals (.list ys) = true ↔
      List.Forall₂ (fun x y => x.equals y = true) xs ys) ∧
    (∀ xs ys : Entries Value, (Value.map xs).equals (.map ys) = true ↔
      List.Forall₂ (fun x y => x.1 = y.1 ∧ x.2.equals y.2 = true) xs ys) := by
  refine ⟨⟨?refl, ?symm, ?trans⟩, ?_, ?_, ?_, ?_, ?_⟩
  case refl =>
    rintro ⟨a, ha⟩
    exact (equals_iff_wide ha ha).2 rfl
  case symm =>
    rintro ⟨a, ha⟩ ⟨b, hb⟩ hab
    exact (equals_iff_wide hb ha).2 ((equals_iff_wide ha hb).1 hab).symm
  case trans =>
    rintro ⟨a, ha⟩ ⟨b, hb⟩ ⟨c, hc⟩ hab hbc
    exact (equals_iff_wide ha hc).2
      (((equals_iff_wide ha hb).1 hab).trans ((equals_iff_wide hb hc).1 hbc))
  · exact fun a b ha hb => equals_iff_wide ha hb
  · exact fun a b x y ha hb => equals_integers_iff ha hb
  · exact fun c s => ⟨rfl, rfl⟩
  · exact fun xs ys => equals_list_iff
  · exact fun xs ys => equals_map_iff

/-- Both widths at two depths, and a character that is no text. -/
theorem equals_equivalence_nested :
    (Value.list [.int 1, .map [("k", .long (-2))]]).equals
      (.list [.long 1, .map [("k", .int (-2))]]) = true ∧
    ¬ (Value.map [("k", .list [.char 'a'])]).equals (.map [("k", .list [.str "a"])]) = true := by
  obtain ⟨-, hwide, -⟩ := equals_equivalence
  constructor
  · exact (hwide _ _ (by decide) (by decide)).2 rfl
  · rw [hwide _ _ (by decide) (by decide)]
    simp [wide, wideEntries, wideItems]

end ExprLang.Value
