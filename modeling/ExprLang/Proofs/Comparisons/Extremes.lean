import ExprLang.Proofs.Comparisons.Order
import ExprLang.Proofs.Effects.Services
import ExprLang.Proofs.Overloads.Inclusion
import Mathlib.Order.Bounds.Basic

/-!
# Extremes

The library finds the least and the greatest of its arguments with the less operator.  It asks this
operator about two values at a time, so the best value so far is the extreme of what has been seen
(`Functions.Library.extreme_of_keys`).  Calls by name first choose among the overloads and may widen
an argument, which does not change the numbers (`Functions.Picks`), and so they give the extreme of
all arguments (`Functions.call_extremes`).
-/

namespace ExprLang

namespace Kind

/-- The keys of the values that are of the kind. -/
def keys (k : Kind) (vs : List Value) : Set k.Key :=
  {x | some x ∈ vs.map k.key?}

theorem keys_nil (k : Kind) : k.keys [] = ∅ := by
  simp [keys]

theorem keys_cons {k : Kind} {v : Value} {x : k.Key} (h : k.key? v = some x) (vs : List Value) :
    k.keys (v :: vs) = insert x (k.keys vs) := by
  ext y
  simp [keys, h]

theorem keys_eq {k : Kind} {vs ws : List Value} (h : vs.map k.key? = ws.map k.key?) :
    k.keys vs = k.keys ws := by
  rw [keys, h, keys]

theorem has_of_map_key?_eq {k : Kind} {vs ws : List Value} (h : vs.map k.key? = ws.map k.key?)
    (hws : ∀ w ∈ ws, k.Has w) : ∀ v ∈ vs, k.Has v := by
  intro v hv
  have hmem : k.key? v ∈ ws.map k.key? := h ▸ List.mem_map_of_mem hv
  obtain ⟨w, hw, hkey⟩ := List.mem_map.1 hmem
  rw [has_iff_exists_key, ← hkey, ← has_iff_exists_key]
  exact hws w hw

end Kind

/-! ## Extremes of keys -/

/-- The least element of a set, or the greatest one. -/
def IsExtreme {κ : Type} [LinearOrder κ] (least : Bool) (s : Set κ) (x : κ) : Prop :=
  if least then IsLeast s x else IsGreatest s x

section IsExtreme

variable {κ : Type} [LinearOrder κ] {least : Bool} {s : Set κ} {x : κ}

theorem isExtreme_singleton (least : Bool) (x : κ) : IsExtreme least {x} x := by
  cases least
  · exact isGreatest_singleton
  · exact isLeast_singleton

/-- A newcomer replaces the least element if it is less, and the greatest one if it is not. -/
theorem IsExtreme.insert (h : IsExtreme least s x) {y : κ} {less : Bool}
    (hless : less = true ↔ y < x) :
    IsExtreme least (insert y s) (if less = least then y else x) := by
  cases least with
  | true =>
    have hmin : (if less = true then y else x) = min y x := by
      simp only [hless, min_def_lt]
    rw [hmin]
    exact IsLeast.insert y h
  | false =>
    have hmax : (if less = false then y else x) = max y x := by
      simp only [← Bool.not_eq_true, hless, max_def_lt, ite_not]
    rw [hmax]
    exact IsGreatest.insert y h

end IsExtreme

namespace Functions

namespace Library

variable {services : Services} (hoperate : services.operate = Operators.core.applyBinary)
include hoperate

/-- The best value so far is the extreme of the keys that have been seen, and each further value
keeps this. -/
theorem extreme_of_keys {k : Kind} {least : Bool} {rest : List Value} (hrest : ∀ v ∈ rest, k.Has v)
    {best : Value} {x : k.Key} (hbest : k.key? best = some x) {seen : Set k.Key}
    (hseen : IsExtreme least seen x) :
    ∃ v y, extreme services least best rest = .ok v ∧ k.key? v = some y ∧
      IsExtreme least (seen ∪ k.keys rest) y := by
  induction rest generalizing best x seen with
  | nil =>
    rw [Kind.keys_nil, Set.union_empty]
    exact ⟨best, x, rfl, hbest, hseen⟩
  | cons v rest ih =>
    obtain ⟨hv, hrest⟩ := List.forall_mem_cons.1 hrest
    obtain ⟨y, hy⟩ := Kind.exists_key hv
    obtain ⟨less, hresult, hless⟩ :=
      Operators.applyBinary_of_keys hy hbest (show Operation.less ∈ _ by decide)
    have hnext : k.key? (if (Value.bool less).bool? = some least then v else best) =
        some (if less = least then y else x) := by
      simp only [Value.bool?, Option.some.injEq]
      split
      · exact hy
      · exact hbest
    rw [extreme, hoperate, hresult, Kind.keys_cons hy, Set.union_insert, ← Set.insert_union]
    exact ih hrest hnext (hseen.insert hless)

theorem pick_of_keys {k : Kind} {args : List Value} (hne : args ≠ []) (hargs : ∀ v ∈ args, k.Has v)
    (name : String) (least : Bool) :
    ∃ v x, pick name least services args = .ok v ∧ k.key? v = some x ∧
      IsExtreme least (k.keys args) x := by
  cases args with
  | nil => exact absurd rfl hne
  | cons first rest =>
    obtain ⟨hfirst, hrest⟩ := List.forall_mem_cons.1 hargs
    obtain ⟨x, hx⟩ := Kind.exists_key hfirst
    rw [Kind.keys_cons hx, Set.insert_eq]
    exact extreme_of_keys hoperate hrest hx (isExtreme_singleton least x)

end Library

open Library

/-! ## Calls by name -/

/-- What the extremes are called by. -/
def extremeName : Bool → String
  | true => "min"
  | false => "max"

/-- The overloads in the order in which they are tried. -/
theorem overloadsOf_extremeName (least : Bool) : core.overloadsOf (extremeName least) =
    ([.int, .string, .long, .double].map fun tag =>
      ⟨extremeName least, .fixed [tag, tag], pick (extremeName least) least⟩) ++
      [⟨extremeName least, .atLeast [.number] .number, pick (extremeName least) least⟩] := by
  cases least <;> rfl

/-- The arguments are accepted by an overload that looks for their extreme, and widening does not
change their keys. -/
def Picks (k : Kind) (least : Bool) (args : List Value) : Prop :=
  ∃ f given, core.resolve (extremeName least) args = .ok f ∧
    f.body = pick (extremeName least) least ∧
    f.widened Conversion.core.convert 0 args = .ok given ∧ given.map k.key? = args.map k.key?

section

variable {args : List Value} (least : Bool)

/-- Other overloads than the last one only accept two arguments. -/
theorem resolve_extremeName (hlength : args.length ≠ 2)
    (haccepts : (Signature.atLeast [.number] .number).accepts args = true) :
    core.resolve (extremeName least) args =
      .ok ⟨extremeName least, .atLeast [.number] .number, pick (extremeName least) least⟩ := by
  have hpairs (tag : TypeTag) : (Signature.fixed [tag, tag]).accepts args = false := by
    rw [← Bool.not_eq_true]
    intro hpair
    have htakes := Signature.takes_of_accepts hpair
    simp [Signature.Takes, Signature.fixed, Signature.isVariadic] at htakes
    omega
  rw [resolve_eq_ok_iff, overloadsOf_extremeName]
  simp [hpairs, haccepts]

theorem picks_integers (hne : args ≠ []) (hargs : ∀ v ∈ args, Kind.integers.Has v) :
    Picks .integers least args := by
  by_cases hlength : args.length = 2
  case pos =>
    -- two narrow integers have an overload of their own, and all other pairs are widened
    obtain ⟨a, b, rfl⟩ := List.length_eq_two.1 hlength
    obtain ⟨m, hm⟩ := Kind.exists_key (hargs a (by simp))
    obtain ⟨n, hn⟩ := Kind.exists_key (hargs b (by simp))
    cases least <;> cases a <;> cases hm <;> cases b <;> cases hn <;>
      exact ⟨_, _, rfl, rfl, rfl, rfl⟩
  case neg =>
    have hnumbers : ∀ v ∈ args, v.isNumber = true := by
      intro v hv
      obtain ⟨n, hn⟩ := Kind.exists_key (hargs v hv)
      cases v <;> cases hn <;> rfl
    have hreceives : (Signature.atLeast [.number] .number).Receives args := by
      cases args with
      | nil => exact absurd rfl hne
      | cons v vs => simpa [Signature.atLeast] using hnumbers
    exact ⟨_, args, resolve_extremeName least hlength hreceives.accepts, rfl,
      Function.widened_of_receives hreceives _, rfl⟩

theorem picks_texts (s t : String) : Picks .texts least [.str s, .str t] := by
  cases least <;> exact ⟨_, _, rfl, rfl, rfl, rfl⟩

end

section

variable {services : Services} (hoperate : services.operate = Operators.core.applyBinary)
  (hconvert : services.convert = Conversion.core.convert)
include hoperate hconvert

theorem Picks.call_eq_ok {k : Kind} {least : Bool} {args : List Value} (h : Picks k least args)
    (hne : args ≠ []) (hargs : ∀ v ∈ args, k.Has v) :
    ∃ v x, core.call services (extremeName least) args = .ok v ∧ k.key? v = some x ∧
      IsExtreme least (k.keys args) x := by
  obtain ⟨f, given, hresolve, hbody, hwidened, hkeys⟩ := h
  rw [← hconvert] at hwidened
  obtain ⟨inner, hinner, hcall⟩ := call_core_of_resolve hresolve hwidened
  have hgiven : given ≠ [] := by
    rintro rfl
    exact hne (List.map_eq_nil_iff.1 hkeys.symm)
  rw [hcall, hbody, ← Kind.keys_eq hkeys]
  exact pick_of_keys (hinner.trans hoperate) hgiven (Kind.has_of_map_key?_eq hkeys hargs) _ least

theorem call_extreme_integers (least : Bool) {args : List Value} (hne : args ≠ [])
    (hargs : ∀ v ∈ args, Kind.integers.Has v) :
    ∃ v n, core.call services (extremeName least) args = .ok v ∧ v.integer? = some n ∧
      IsExtreme least {m | ∃ w ∈ args, w.integer? = some m} n := by
  have hkeys : Kind.integers.keys args = {m : Int | ∃ w ∈ args, w.integer? = some m} :=
    Set.ext fun m => List.mem_map
  rw [← hkeys]
  exact (picks_integers least hne hargs).call_eq_ok hoperate hconvert hne hargs

theorem call_extreme_texts (least : Bool) (s t : String) :
    ∃ u, core.call services (extremeName least) [.str s, .str t] = .ok (.str u) ∧
      IsExtreme least {s, t} u := by
  have hargs : ∀ v ∈ [Value.str s, .str t], Kind.texts.Has v := by
    simp [Kind.Has, Kind.tags, Value.tag]
  have hkeys : Kind.texts.keys [.str s, .str t] = ({s, t} : Set String) := by
    refine Set.ext fun (u : String) => ?_
    change some u ∈ [some s, some t] ↔ u = s ∨ u = t
    rw [List.mem_pair, Option.some.injEq, Option.some.injEq]
  obtain ⟨v, u, hcall, hu, hextreme⟩ :=
    (picks_texts least s t).call_eq_ok hoperate hconvert (List.cons_ne_nil _ _) hargs
  cases v <;> cases hu
  rw [hkeys] at hextreme
  exact ⟨u, hcall, hextreme⟩

/-- The least and the greatest of any number of integers of both widths, and of two texts.  The call
has a result, which is one of the arguments as a number or as a text, and a bound of them all. -/
theorem call_extremes {args : List Value} (hne : args ≠ [])
    (hargs : ∀ v ∈ args, Kind.integers.Has v) :
    (∃ v n, core.call services "min" args = .ok v ∧ v.integer? = some n ∧
      IsLeast {m | ∃ w ∈ args, w.integer? = some m} n) ∧
    (∃ v n, core.call services "max" args = .ok v ∧ v.integer? = some n ∧
      IsGreatest {m | ∃ w ∈ args, w.integer? = some m} n) ∧
    ∀ s t : String,
      (∃ u, core.call services "min" [.str s, .str t] = .ok (.str u) ∧ IsLeast {s, t} u) ∧
      ∃ u, core.call services "max" [.str s, .str t] = .ok (.str u) ∧ IsGreatest {s, t} u := by
  have hintegers (least : Bool) := call_extreme_integers hoperate hconvert least hne hargs
  have htexts (least : Bool) (s t : String) := call_extreme_texts hoperate hconvert least s t
  exact ⟨hintegers true, hintegers false, fun s t => ⟨htexts true s t, htexts false s t⟩⟩

end

/-- Two of three integers are equal but of different widths, and the third one lies below. -/
theorem call_extremes_mixed :
    let services := (Context.new .core false).services
    let args : List Value := [.int 7, .long (-9223372036854775808), .long 7]
    (∃ v n, core.call services "min" args = .ok v ∧ v.integer? = some n ∧
      IsLeast {m | ∃ w ∈ args, w.integer? = some m} n) ∧
    (∃ v n, core.call services "max" args = .ok v ∧ v.integer? = some n ∧
      IsGreatest {m | ∃ w ∈ args, w.integer? = some m} n) ∧
    ∃ u, core.call services "max" [.str "é", .str "z"] = .ok (.str u) ∧ IsGreatest {"é", "z"} u := by
  intro services args
  have hargs : ∀ v ∈ args, Kind.integers.Has v := by decide
  have hextremes := call_extremes (rfl : services.operate = _) rfl (List.cons_ne_nil _ _) hargs
  exact ⟨hextremes.1, hextremes.2.1, (hextremes.2.2 "é" "z").2⟩

end Functions

end ExprLang
