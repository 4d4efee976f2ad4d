import ExprLang.Proofs.Extensions.Interchange
import ExprLang.Proofs.Overloads.Ranking
import Mathlib.Data.List.Induction

/-!
# Resolution of overloads

The overloads of a name are the stable sort of all functions that have been added under this name,
by the flag of variadic signatures and the sum of the ranks of their tags.  So a call takes, of the
overloads that accept its arguments, the one that is least by these two and by its arrival, and the
order of arrival of overloads that differ in them does not matter (`Functions.resolve_ofList`).
-/

namespace ExprLang

namespace Signature

/-- What overloads are sorted by: fixed parameters come before any number of them, then the lower
sum of ranks. -/
def specificity (s : Signature) : Bool ×ₗ ℕ :=
  toLex (s.isVariadic, s.rank)

theorem notAfter_iff (s t : Signature) : s.notAfter t = true ↔ s.specificity ≤ t.specificity := by
  rw [notAfter, specificity, specificity, Prod.Lex.toLex_le_toLex]
  cases s.isVariadic <;> cases t.isVariadic <;> simp

end Signature

namespace Function

def specificity (f : Function) : Bool ×ₗ ℕ :=
  f.signature.specificity

theorem notAfter_iff (f g : Function) : f.notAfter g = true ↔ f.specificity ≤ g.specificity :=
  f.signature.notAfter_iff g.signature

end Function

namespace Functions

open Ranked

variable {functions : List Function} {name : String} {args : List Value}

/-- The functions of one name, in the order of the list. -/
def named (name : String) (functions : List Function) : List Function :=
  functions.filter fun f => f.name = name

/-- The functions sorted by specificity, equals in the order of the list. -/
def sorted (functions : List Function) : List Function :=
  functions.mergeSort fun f g => f.specificity ≤ g.specificity

/-! ## Overloads of a name -/

theorem sorted_eq (functions : List Function) :
    sorted functions = functions.mergeSort Function.notAfter := by
  have hle : (fun f g : Function => decide (f.specificity ≤ g.specificity)) = Function.notAfter := by
    funext f g
    rw [Bool.eq_iff_iff, decide_eq_true_eq, Function.notAfter_iff]
  rw [sorted, hle]

theorem ofList_append_singleton (functions : List Function) (f : Function) :
    ofList (functions ++ [f]) = (ofList functions).add f := by
  rw [ofList, List.foldl_append]
  rfl

theorem named_append (xs ys : List Function) :
    named name (xs ++ ys) = named name xs ++ named name ys :=
  List.filter_append xs ys

/-- After every run of additions, the overloads of a name are those that have been added under it,
sorted. -/
theorem overloadsOf_ofList (functions : List Function) (name : String) :
    (ofList functions).overloadsOf name = sorted (named name functions) := by
  rw [sorted_eq]
  induction functions using List.reverseRecOn with
  | nil =>
    rw [named, List.filter_nil, List.mergeSort_nil]
    rfl
  | append_singleton functions f ih =>
    rw [ofList_append_singleton, overloadsOf_add, ih, named_append]
    by_cases hname : f.name = name
    · have hone : named name [f] = [f] := by simp [named, hname]
      rw [if_pos hname.symm, insert_mergeSort Function.notAfter_iff, hone]
    · have hnone : named name [f] = [] := by simp [named, hname]
      rw [if_neg (Ne.symm hname), hnone, List.append_nil]

/-- Sorting a sorted list with a newcomer at its end is sorting all at once. -/
theorem sorted_append_singleton (functions : List Function) (f : Function) :
    sorted (sorted functions ++ [f]) = sorted (functions ++ [f]) := by
  simp only [sorted_eq]
  exact mergeSort_mergeSort_append Function.notAfter_iff

/-- Functions of different specificities may arrive in any order, in between others. -/
theorem sorted_named_perm {before block permuted after : List Function} (hperm : permuted.Perm block)
    (hblock : (named name block).Pairwise fun f g => f.specificity ≠ g.specificity) :
    sorted (named name (before ++ permuted ++ after)) =
      sorted (named name (before ++ block ++ after)) := by
  have hnamed : (named name permuted).Perm (named name block) := hperm.filter _
  simp only [sorted_eq]
  refine mergeSort_eq_of_tier_eq Function.notAfter_iff fun k => ?_
  simp only [named_append, tier_append, tier_eq_of_perm hnamed hblock]

/-! ## Resolution -/

theorem resolve_eq_ok_iff {fs : Functions} {f : Function} : fs.resolve name args = .ok f ↔
    (fs.overloadsOf name).find? (fun g => g.signature.accepts args) = some f := by
  rw [resolve]
  split
  · rename_i hnil
    simp [hnil]
  · split
    · rename_i found hfound
      simp [hfound]
    · rename_i hnone
      simp [hnone]

theorem exists_resolve_error_iff {fs : Functions} :
    (∃ fault, fs.resolve name args = .error fault) ↔
      ∀ f ∈ fs.overloadsOf name, f.signature.accepts args = false := by
  have hnone : (∃ fault, fs.resolve name args = .error fault) ↔
      ∀ f, fs.resolve name args ≠ .ok f := by
    cases fs.resolve name args <;> simp
  simp only [hnone, ne_eq, resolve_eq_ok_iff, ← Option.eq_none_iff_forall_ne_some,
    List.find?_eq_none, Bool.not_eq_true]

/-- Each addition sorts the overloads of a name once more, and after all additions they are the
stable sort of the functions that have been added under the name.  Resolving gives, of the overloads
that accept the arguments, the least one by specificity and arrival, and it fails exactly if none
accepts them.  Additions one after another whose overloads of a name differ in specificity may come
in any order without a change to what the name resolves to. -/
theorem resolve_ofList (functions : List Function) (name : String) :
    (ofList functions).overloadsOf name = sorted (named name functions) ∧
    (∀ f, f.name = name → (ofList (functions ++ [f])).overloadsOf name =
      sorted ((ofList functions).overloadsOf name ++ [f])) ∧
    (∀ args f, (ofList functions).resolve name args = .ok f ↔
      ∃ i : ℕ, (named name functions)[i]? = some f ∧ f.signature.accepts args = true ∧
        ∀ (j : ℕ) g, (named name functions)[j]? = some g → g.signature.accepts args = true →
          toLex (f.specificity, i) ≤ toLex (g.specificity, j)) ∧
    (∀ args, (∃ fault, (ofList functions).resolve name args = .error fault) ↔
      ∀ f ∈ named name functions, f.signature.accepts args = false) ∧
    ∀ before block permuted after, functions = before ++ block ++ after → permuted.Perm block →
      (named name block).Pairwise (fun f g => f.specificity ≠ g.specificity) →
      ∀ args, (ofList (before ++ permuted ++ after)).resolve name args =
        (ofList functions).resolve name args := by
  refine ⟨overloadsOf_ofList functions name, ?again, ?least, ?none, ?order⟩
  case again =>
    intro f hname
    have hone : named name [f] = [f] := by simp [named, hname]
    rw [overloadsOf_ofList, overloadsOf_ofList, named_append, hone, sorted_append_singleton]
  case least =>
    intro args f
    rw [resolve_eq_ok_iff, overloadsOf_ofList, sorted_eq,
      find?_mergeSort_eq_some_iff Function.notAfter_iff]
  case none =>
    intro args
    rw [exists_resolve_error_iff, overloadsOf_ofList]
    simp only [sorted, List.mem_mergeSort]
  case order =>
    rintro before block permuted after rfl hperm hblock args
    have hsame : (ofList (before ++ permuted ++ after)).overloadsOf name =
        (ofList (before ++ block ++ after)).overloadsOf name := by
      rw [overloadsOf_ofList, overloadsOf_ofList, sorted_named_perm hperm hblock]
    rw [resolve, resolve, hsame]

/-- An overload of `f` that gives a label. -/
def labelled (signature : Signature) (label : String) : Function :=
  ⟨"f", signature, fun _ _ => .ok (.str label)⟩

/-- Of two overloads with the same signature the earlier one is taken, whatever the order of the
others is. -/
theorem resolve_ofList_labelled :
    let rest := labelled (.atLeast [] .any) "rest"
    let number := labelled (.fixed [.number]) "number"
    let first := labelled (.fixed [.long]) "first"
    let second := labelled (.fixed [.long]) "second"
    (ofList [rest, number, first, second]).resolve "f" [.int 1] = .ok first ∧
      (ofList [first, rest, number, second]).resolve "f" [.int 1] = .ok first := by
  intro rest number first second
  have hfirst : (ofList [rest, number, first, second]).resolve "f" [.int 1] = .ok first := by cbv
  have hperm : ([first] ++ [rest, number]).Perm ([rest, number] ++ [first]) :=
    List.perm_append_comm
  have hblock : (named "f" [rest, number, first]).Pairwise
      fun f g => f.specificity ≠ g.specificity := by decide
  obtain ⟨-, -, -, -, horder⟩ := resolve_ofList [rest, number, first, second] "f"
  exact ⟨hfirst, (horder [] _ _ [second] rfl hperm hblock _).trans hfirst⟩

end Functions

end ExprLang
