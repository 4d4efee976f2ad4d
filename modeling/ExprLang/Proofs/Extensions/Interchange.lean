import ExprLang.Extension
import ExprLang.Proofs.Effects.Services

/-!
# Additions in either order

An extension adds its parts to registries of several kinds: lists of which the first fitting member
counts, lists in order of rank, overloads by name and parsers by construct.  In each of them, what is
found does not depend on the order in which two things are added that can never be found for the
same reason.
-/

namespace ExprLang

section

variable {σ α : Type} {R : σ → σ → Prop} {add : σ → α → σ}

theorem foldl_related (hcongr : ∀ x {s t}, R s t → R (add s x) (add t x)) (xs : List α) {s t : σ}
    (h : R s t) : R (xs.foldl add s) (xs.foldl add t) := by
  induction xs generalizing s t with
  | nil => exact h
  | cons x rest ih => exact ih (hcongr x h)

/-- Additions that can be interchanged one by one can be interchanged as lists.  `R` relates
registries in which the same is found. -/
theorem foldl_interchange (hR : Equivalence R) (hcongr : ∀ x {s t}, R s t → R (add s x) (add t x))
    {xs ys : List α} (h : ∀ x ∈ xs, ∀ y ∈ ys, ∀ s, R (add (add s x) y) (add (add s y) x)) (s : σ) :
    R (ys.foldl add (xs.foldl add s)) (xs.foldl add (ys.foldl add s)) := by
  have hone : ∀ y ∈ ys, ∀ s, R (add (xs.foldl add s) y) (xs.foldl add (add s y)) := by
    intro y hy
    induction xs with
    | nil => exact fun s => hR.refl _
    | cons x rest ih =>
      obtain ⟨hx, hrest⟩ := List.forall_mem_cons.1 h
      intro s
      exact hR.trans (ih hrest (add s x)) (foldl_related hcongr rest (hx y hy s))
  clear h
  induction ys generalizing s with
  | nil => exact hR.refl _
  | cons y rest ih =>
    obtain ⟨hy, hrest⟩ := List.forall_mem_cons.1 hone
    exact hR.trans (foldl_related hcongr rest (hy s)) (ih (add s y) hrest)

/-- Additions that go behind a list that is there already. -/
theorem foldl_append (mk : List α → σ) (hadd : ∀ l x, add (mk l) x = mk (l ++ [x]))
    (xs l : List α) : xs.foldl add (mk l) = mk (l ++ xs) := by
  induction xs generalizing l with
  | nil => rw [List.foldl_nil, List.append_nil]
  | cons x rest ih => rw [List.foldl_cons, hadd, ih, List.append_assoc, List.singleton_append]

end

section

variable {α : Type} {p : α → Bool} {xs ys : List α}

/-- Members of two lists that are not selected for the same reason may be appended in either
order. -/
theorem filter_append_interchange (h : ∀ x ∈ xs, ∀ y ∈ ys, p x = true → p y = false) (l : List α) :
    (l ++ xs ++ ys).filter p = (l ++ ys ++ xs).filter p := by
  simp only [List.filter_append, List.append_assoc]
  by_cases hxs : ∃ x ∈ xs, p x = true
  · obtain ⟨x, hx, hpx⟩ := hxs
    have hys : ys.filter p = [] := by
      apply List.filter_eq_nil_iff.2
      intro y hy
      rw [h x hx y hy hpx]
      exact Bool.false_ne_true
    rw [hys, List.nil_append, List.append_nil]
  · have hnil : xs.filter p = [] := by
      apply List.filter_eq_nil_iff.2
      intro x hx hpx
      exact hxs ⟨x, hx, hpx⟩
    rw [hnil, List.nil_append, List.append_nil]

theorem find?_append_interchange (h : ∀ x ∈ xs, ∀ y ∈ ys, p x = true → p y = false) (l : List α) :
    (l ++ xs ++ ys).find? p = (l ++ ys ++ xs).find? p := by
  rw [← List.head?_filter, ← List.head?_filter, filter_append_interchange h]

/-- Members with different keys are not selected for the same reason if each is selected by its
key. -/
theorem selected_apart {κ : Type} {key : α → κ} {k : κ} (hkey : ∀ x, p x = true → key x = k)
    (h : ∀ x ∈ xs, ∀ y ∈ ys, key x ≠ key y) :
    ∀ x ∈ xs, ∀ y ∈ ys, p x = true → p y = false := by
  intro x hx y hy hpx
  apply Bool.eq_false_iff.2
  intro hpy
  exact h x hx y hy ((hkey x hpx).trans (hkey y hpy).symm)

end

namespace Ranked

variable {α : Type} {le : α → α → Bool} {x y : α}

theorem insert_cons_of_le (h : le y x = true) (rest : List α) :
    insert le x (y :: rest) = y :: insert le x rest :=
  if_pos h

theorem insert_cons_of_not_le (h : le y x = false) (rest : List α) :
    insert le x (y :: rest) = x :: y :: rest :=
  if_neg (Bool.eq_false_iff.1 h)

/-- Two members of different ranks have their places whichever arrives first. -/
theorem insert_comm (htotal : ∀ a b, le a b = false → le b a = true)
    (htrans : ∀ a b c, le a b = true → le b c = true → le a c = true)
    (hne : le x y = true → le y x = false) (xs : List α) :
    insert le y (insert le x xs) = insert le x (insert le y xs) := by
  -- both come before all of `rest`, and the lower one of them before the other
  have hfront : ∀ rest, insert le x rest = x :: rest → insert le y rest = y :: rest →
      insert le y (x :: rest) = insert le x (y :: rest) := by
    intro rest hx hy
    cases hxy : le x y with
    | true => rw [insert_cons_of_le hxy, insert_cons_of_not_le (hne hxy), hy]
    | false => rw [insert_cons_of_not_le hxy, insert_cons_of_le (htotal x y hxy), hx]
  induction xs with
  | nil => exact hfront [] rfl rfl
  | cons z rest ih =>
    cases hzx : le z x with
    | true =>
      rw [insert_cons_of_le hzx]
      cases hzy : le z y with
      | true => rw [insert_cons_of_le hzy, insert_cons_of_le hzy, insert_cons_of_le hzx, ih]
      | false =>
        have hyx : le y x = true := htrans y z x (htotal z y hzy) hzx
        rw [insert_cons_of_not_le hzy, insert_cons_of_not_le hzy, insert_cons_of_le hyx,
          insert_cons_of_le hzx]
    | false =>
      rw [insert_cons_of_not_le hzx]
      cases hzy : le z y with
      | true =>
        have hxy : le x y = true := htrans x z y (htotal z x hzx) hzy
        rw [insert_cons_of_le hzy, insert_cons_of_not_le hzx, insert_cons_of_le hxy,
          insert_cons_of_le hzy]
      | false =>
        rw [insert_cons_of_not_le hzy]
        exact hfront (z :: rest) (insert_cons_of_not_le hzx rest) (insert_cons_of_not_le hzy rest)

end Ranked

namespace Functions

theorem overloadsOf_add (fs : Functions) (f : Function) (name : String) :
    (fs.add f).overloadsOf name =
      if name = f.name then Ranked.insert Function.notAfter f (fs.overloadsOf name)
      else fs.overloadsOf name := by
  by_cases hname : name = f.name
  · rw [if_pos hname, hname, overloadsOf_add_self]
  · rw [if_neg hname, overloadsOf_add_of_ne hname]

theorem addAll_interchange (fs : Functions) {xs ys : List Function}
    (h : ∀ f ∈ xs, ∀ g ∈ ys, f.name ≠ g.name) :
    (ys.foldl add (xs.foldl add fs)).overloadsOf = (xs.foldl add (ys.foldl add fs)).overloadsOf := by
  have hR : Equivalence fun fs gs : Functions => fs.overloadsOf = gs.overloadsOf :=
    ⟨fun _ => rfl, Eq.symm, Eq.trans⟩
  apply foldl_interchange hR
  case hcongr =>
    intro f fs gs hfs
    funext name
    rw [overloadsOf_add, overloadsOf_add, hfs]
  case h =>
    intro f hf g hg fs
    funext name
    have hne := h f hf g hg
    simp only [overloadsOf_add]
    by_cases hname : name = g.name
    · subst hname
      simp only [if_true, if_neg hne.symm]
    · simp only [if_neg hname]

end Functions

namespace Grammar

/-- Each construct has the same parser, and as many constructs have one. -/
structure SameParsers (g k : Grammar) : Prop where
  parser? : g.parser? = k.parser?
  perm : g.parsers.Perm k.parsers

theorem SameParsers.of_eq {g k : Grammar} (h : g.parsers = k.parsers) : g.SameParsers k := by
  refine ⟨?_, h ▸ .rfl⟩
  funext construct
  rw [Grammar.parser?, Grammar.parser?, h]

theorem SameParsers.trans {g k l : Grammar} (hgk : g.SameParsers k) (hkl : k.SameParsers l) :
    g.SameParsers l :=
  ⟨hgk.parser?.trans hkl.parser?, hgk.perm.trans hkl.perm⟩

theorem SameParsers.symm {g k : Grammar} (h : g.SameParsers k) : k.SameParsers g :=
  ⟨h.parser?.symm, h.perm.symm⟩

theorem sameParsers_equivalence : Equivalence SameParsers :=
  ⟨fun _ => .of_eq rfl, SameParsers.symm, SameParsers.trans⟩

theorem parser?_setParser (g : Grammar) (construct : Construct) (parser : ConstructParser)
    (other : Construct) : (g.setParser construct parser).parser? other =
      if construct = other then some parser else g.parser? other := by
  rw [parser?, setParser, List.find?_cons]
  by_cases hsame : construct = other
  · rw [if_pos hsame, decide_eq_true hsame]
    rfl
  · rw [if_neg hsame, decide_eq_false hsame, parser?]
    have hfound : (g.parsers.filter fun entry => entry.1 ≠ construct).find?
        (fun entry => entry.1 = other) = g.parsers.find? fun entry => entry.1 = other := by
      rw [List.find?_filter]
      congr 1
      funext entry
      by_cases hentry : entry.1 = other
      · simp [hentry, Ne.symm hsame]
      · simp [hentry]
    exact congrArg (Option.map Prod.snd) hfound

theorem SameParsers.setParser {g k : Grammar} (h : g.SameParsers k) (construct : Construct)
    (parser : ConstructParser) :
    (g.setParser construct parser).SameParsers (k.setParser construct parser) := by
  refine ⟨?_, (h.perm.filter _).cons _⟩
  funext other
  rw [parser?_setParser, parser?_setParser, h.parser?]

theorem setParser_interchange (g : Grammar) {construct other : Construct}
    (hne : construct ≠ other) (parser parser' : ConstructParser) :
    ((g.setParser construct parser).setParser other parser').SameParsers
      ((g.setParser other parser').setParser construct parser) := by
  constructor
  case parser? =>
    funext wanted
    simp only [parser?_setParser]
    by_cases hwanted : construct = wanted
    · subst hwanted
      simp only [if_true, if_neg hne.symm]
    · simp only [if_neg hwanted]
  case perm =>
    simp only [setParser, List.filter_cons, decide_not, hne, Ne.symm hne, decide_false,
      Bool.not_false, if_true, List.filter_filter]
    have hboth : ∀ entry : Construct × ConstructParser,
        (!decide (entry.1 = other) && !decide (entry.1 = construct)) =
          (!decide (entry.1 = construct) && !decide (entry.1 = other)) :=
      fun _ => Bool.and_comm _ _
    simp only [hboth]
    exact .swap _ _ _

end Grammar

end ExprLang
