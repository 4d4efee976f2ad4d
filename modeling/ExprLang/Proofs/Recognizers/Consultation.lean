import ExprLang.Extension
import ExprLang.Proofs.Overloads.Ranking

/-!
# The order in which recognizers are consulted

A chain asks its recognizers by priority, and those of one priority in the order of their arrival.
It does not matter whether they arrive all at once, one by one or with extensions: the chain is that
of the whole list, and the list is sorted once and stably.  So a fragment gets its kind from the
recognizer that is least by priority and arrival among those that know it
(`Lexer.additions_consulted`).
-/

namespace ExprLang

/-- The answer of the first member that has one. -/
theorem findSome?_eq_some_iff_find? {α β : Type} {f : α → Option β} {xs : List α} {b : β} :
    xs.findSome? f = some b ↔
      ∃ x, xs.find? (fun x => (f x).isSome) = some x ∧ f x = some b := by
  induction xs with
  | nil => simp
  | cons x xs ih =>
    rw [List.findSome?_cons, List.find?_cons]
    cases hx : f x with
    | none => exact ih
    | some a => simp [hx]

namespace Recognizer

/-- The recognizers by priority, equals in the order of the list. -/
def byPriority (recognizers : List Recognizer) : List Recognizer :=
  recognizers.mergeSort fun a b => a.priority ≤ b.priority

theorem notAfter_iff (a b : Recognizer) : a.notAfter b = true ↔ a.priority ≤ b.priority :=
  decide_eq_true_iff

theorem byPriority_eq (recognizers : List Recognizer) :
    byPriority recognizers = recognizers.mergeSort notAfter := rfl

theorem mem_byPriority {recognizers : List Recognizer} {r : Recognizer} :
    r ∈ byPriority recognizers ↔ r ∈ recognizers :=
  List.mem_mergeSort

theorem byPriority_append (recognizers added : List Recognizer) :
    byPriority (byPriority recognizers ++ added) = byPriority (recognizers ++ added) :=
  Ranked.mergeSort_mergeSort_append notAfter_iff

end Recognizer

namespace Chain

open Recognizer

variable {recognizers : List Recognizer} {fragment : Fragment} {kind : TokenKind}

theorem members_ofList (recognizers : List Recognizer) :
    (ofList recognizers).members = byPriority recognizers :=
  Ranked.ofList_eq_mergeSort Recognizer.notAfter_iff recognizers

theorem insert_ofList (recognizers : List Recognizer) (r : Recognizer) :
    (ofList recognizers).insert r = ofList (recognizers ++ [r]) := by
  rw [insert, ofList, ofList, Ranked.ofList_append_singleton]

theorem foldl_insert_ofList (recognizers added : List Recognizer) :
    added.foldl (fun chain r => chain.insert r) (ofList recognizers) =
      ofList (recognizers ++ added) := by
  induction added generalizing recognizers with
  | nil => rw [List.foldl_nil, List.append_nil]
  | cons r added ih =>
    rw [List.foldl_cons, insert_ofList, ih, List.append_assoc, List.singleton_append]

/-- Of the recognizers that know a fragment, the least one by priority and arrival answers. -/
theorem recognize_ofList_eq_some_iff : (ofList recognizers).recognize fragment = some kind ↔
    ∃ (i : ℕ) (r : Recognizer), recognizers[i]? = some r ∧ r.recognize fragment = some kind ∧
      ∀ (j : ℕ) r', recognizers[j]? = some r' → (r'.recognize fragment).isSome = true →
        toLex (r.priority, i) ≤ toLex (r'.priority, j) := by
  rw [recognize, members_ofList, findSome?_eq_some_iff_find?, byPriority_eq]
  simp only [Ranked.find?_mergeSort_eq_some_iff Recognizer.notAfter_iff]
  constructor
  · rintro ⟨r, ⟨i, hi, -, hleast⟩, hkind⟩
    exact ⟨i, r, hi, hkind, hleast⟩
  · rintro ⟨i, r, hi, hkind, hleast⟩
    exact ⟨r, ⟨i, hi, Option.isSome_of_eq_some hkind, hleast⟩, hkind⟩

theorem recognize_ofList_eq_none_iff : (ofList recognizers).recognize fragment = none ↔
    ∀ r ∈ recognizers, r.recognize fragment = none := by
  simp only [recognize, members_ofList, List.findSome?_eq_none_iff, mem_byPriority]

end Chain

namespace Lexer

/-- A step by which a lexer gets more recognizers. -/
inductive Addition where
  | recognizer (r : Recognizer)
  | extension (e : Extension)

namespace Addition

def recognizers : Addition → List Recognizer
  | recognizer r => [r]
  | extension e => e.recognizers

/-- The lexer after the step. -/
def apply (lexer : Lexer) : Addition → Lexer
  | recognizer r => lexer.addRecognizer r
  | extension e => lexer.extend e

end Addition

theorem foldl_addRecognizer (lexer : Lexer) (recognizers : List Recognizer) :
    recognizers.foldl addRecognizer lexer =
      { lexer with chain := recognizers.foldl (fun chain r => chain.insert r) lexer.chain } := by
  induction recognizers generalizing lexer with
  | nil => rfl
  | cons r recognizers ih => exact ih (lexer.addRecognizer r)

theorem foldl_apply (lexer : Lexer) (additions : List Addition) :
    additions.foldl Addition.apply lexer =
      (additions.flatMap Addition.recognizers).foldl addRecognizer lexer := by
  induction additions generalizing lexer with
  | nil => rfl
  | cons addition additions ih =>
    rw [List.foldl_cons, ih, List.flatMap_cons, List.foldl_append]
    cases addition <;> rfl

/-- Recognizers that are added to a chain or to a lexer, one by one or with extensions, make the
chain of all recognizers in the order of their arrival.  It asks them as one stable sort by priority
has them, and each addition sorts once more.  A fragment gets its kind from the recognizer that is
least by priority and arrival among those that know it, and none exactly if no recognizer does. -/
theorem additions_consulted (lexer : Lexer) (recognizers : List Recognizer)
    (additions : List Addition) :
    let all := recognizers ++ additions.flatMap Addition.recognizers
    let chain := (additions.flatMap Addition.recognizers).foldl (fun chain r => chain.insert r)
      (Chain.ofList recognizers)
    additions.foldl Addition.apply { lexer with chain := .ofList recognizers } =
        { lexer with chain := chain } ∧
      chain = .ofList all ∧ chain.members = Recognizer.byPriority all ∧
      (∀ r, (chain.insert r).members = Recognizer.byPriority (chain.members ++ [r])) ∧
      ∀ fragment,
        (∀ kind, chain.recognize fragment = some kind ↔
          ∃ (i : ℕ) (r : Recognizer), all[i]? = some r ∧ r.recognize fragment = some kind ∧
            ∀ (j : ℕ) r', all[j]? = some r' → (r'.recognize fragment).isSome = true →
              toLex (r.priority, i) ≤ toLex (r'.priority, j)) ∧
        (chain.recognize fragment = none ↔ ∀ r ∈ all, r.recognize fragment = none) := by
  intro all chain
  have hchain : chain = .ofList all := Chain.foldl_insert_ofList _ _
  refine ⟨?lexer, hchain, ?members, ?again, fun fragment => ⟨fun kind => ?some, ?none⟩⟩
  case lexer => rw [foldl_apply, foldl_addRecognizer]
  case members => rw [hchain, Chain.members_ofList]
  case again =>
    intro r
    rw [hchain, Chain.insert_ofList, Chain.members_ofList, Chain.members_ofList,
      Recognizer.byPriority_append]
  case some => rw [hchain, Chain.recognize_ofList_eq_some_iff]
  case none => rw [hchain, Chain.recognize_ofList_eq_none_iff]

end Lexer

end ExprLang
