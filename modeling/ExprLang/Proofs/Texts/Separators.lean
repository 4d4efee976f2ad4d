import ExprLang.Context
import Mathlib.Data.List.Infix

/-!
# Separators

A text is cut at the first occurrence of a separator, and behind it once more, until none is left.
No occurrence begins before the one that is cut out, not even one that overlaps it
(`Text.CutsFirst`), so the pieces have none inside.  Splitting keeps the pieces and replacing puts
another text between them, so each can be undone or redone by joining
(`Functions.call_split_join`).
-/

namespace ExprLang

namespace Text

variable {sep cs before after : List Char}

/-- The text is cut at an occurrence of the separator, and no other one begins earlier. -/
structure CutsFirst (sep cs before after : List Char) : Prop where
  eq : cs = before ++ sep ++ after
  first : ∀ x y, cs = x ++ sep ++ y → before.length ≤ x.length

/-- What stands in front of the first occurrence has none inside. -/
theorem CutsFirst.none_in_front (h : CutsFirst sep cs before after) (hsep : sep ≠ []) :
    ¬ sep <:+: before := by
  rintro ⟨x, y, hbefore⟩
  have hearlier : cs = x ++ sep ++ (y ++ sep ++ after) := by
    rw [h.eq, ← hbefore]
    simp only [List.append_assoc]
  have hle := h.first x _ hearlier
  have hlength := congrArg List.length hbefore
  simp only [List.length_append] at hlength
  have hpos := List.length_pos_iff.2 hsep
  omega

theorem cutsFirst_of_cutAt? (h : cutAt? sep cs = some (before, after)) :
    CutsFirst sep cs before after := by
  induction cs generalizing before after with
  | nil =>
    rw [cutAt?] at h
    split at h
    · rename_i hempty
      obtain ⟨rfl, rfl⟩ := Prod.mk.inj (Option.some.inj h)
      rw [List.isEmpty_iff.1 hempty]
      exact ⟨rfl, fun _ _ _ => Nat.zero_le _⟩
    · cases h
  | cons c rest ih =>
    rw [cutAt?] at h
    split at h
    · rename_i hfront
      obtain ⟨rfl, rfl⟩ := Prod.mk.inj (Option.some.inj h)
      exact ⟨(List.prefix_iff_eq_append.1 (List.isPrefixOf_iff_prefix.1 hfront)).symm,
        fun _ _ _ => Nat.zero_le _⟩
    · rename_i hfront
      obtain ⟨⟨front, back⟩, hcut, hpair⟩ := Option.map_eq_some_iff.1 h
      obtain ⟨rfl, rfl⟩ := Prod.mk.inj hpair
      obtain ⟨hrest, hfirst⟩ := ih hcut
      refine ⟨by rw [hrest]; rfl, fun x y hother => ?_⟩
      -- no occurrence begins at the first character
      cases x with
      | nil => exact absurd (List.isPrefixOf_iff_prefix.2 ⟨y, hother.symm⟩) hfront
      | cons d x => exact Nat.succ_le_succ (hfirst x y (List.cons.inj hother).2)

/-- Nothing is cut exactly if the separator does not occur. -/
theorem cutAt?_eq_none_iff : cutAt? sep cs = none ↔ ¬ sep <:+: cs := by
  induction cs with
  | nil =>
    rw [cutAt?, List.infix_nil]
    split <;> simp_all
  | cons c rest ih =>
    rw [cutAt?, List.infix_cons_iff, ← List.isPrefixOf_iff_prefix]
    split
    · simp_all
    · rename_i hfront
      rw [Option.map_eq_none_iff, ih]
      simp [hfront]

/-! ## Pieces -/

section

variable (hsep : sep ≠ [])
include hsep

theorem splitAt_of_none (h : cutAt? sep cs = none) : splitAt sep cs = [cs] := by
  rw [splitAt, dif_neg hsep]
  split
  · rfl
  · rename_i hcut
    rw [h] at hcut
    cases hcut

theorem splitAt_of_some (h : cutAt? sep cs = some (before, after)) :
    splitAt sep cs = before :: splitAt sep after := by
  rw [splitAt, dif_neg hsep]
  split
  · rename_i hcut
    rw [h] at hcut
    cases hcut
  · rename_i hcut
    rw [h] at hcut
    obtain ⟨rfl, rfl⟩ := Prod.mk.inj (Option.some.inj hcut)
    rfl

/-- No piece has the separator inside. -/
theorem not_infix_of_mem_splitAt (cs : List Char) : ∀ piece ∈ splitAt sep cs, ¬ sep <:+: piece := by
  fun_induction splitAt sep cs with
  | case1 cs hempty => exact absurd hempty hsep
  | case2 cs _ hnone => exact List.forall_mem_singleton.2 (cutAt?_eq_none_iff.1 hnone)
  | case3 cs _ before after hcut ih =>
    exact List.forall_mem_cons.2 ⟨(cutsFirst_of_cutAt? hcut).none_in_front hsep, ih⟩

/-- Where something is replaced, the pieces are joined by what is put in its place. -/
theorem replaceAll_eq_intercalate (new cs : List Char) :
    replaceAll sep new cs = new.intercalate (splitAt sep cs) := by
  fun_induction replaceAll sep new cs with
  | case1 cs hempty => exact absurd hempty hsep
  | case2 cs _ hnone => rw [splitAt_of_none hsep hnone, List.intercalate_singleton]
  | case3 cs _ before after hcut ih =>
    rw [splitAt_of_some hsep hcut, List.intercalate_cons_of_ne_nil (splitAt_ne_nil sep after), ih]

end

/-- The pieces joined by the separator are the text. -/
theorem intercalate_splitAt (sep cs : List Char) : sep.intercalate (splitAt sep cs) = cs := by
  fun_induction splitAt sep cs with
  | case1 cs | case2 cs => exact List.intercalate_singleton
  | case3 cs _ before after hcut ih =>
    rw [List.intercalate_cons_of_ne_nil (splitAt_ne_nil sep after), ih]
    exact (cutsFirst_of_cutAt? hcut).eq.symm

end Text

namespace Functions

open Library Text

namespace Library

/-- The pieces of the library joined by the separator are the text, also if the separator is empty
and the pieces are the characters. -/
theorem intercalate_pieces (sep cs : List Char) : sep.intercalate (pieces sep cs) = cs := by
  rw [pieces]
  split
  · rename_i hempty
    rw [List.isEmpty_iff.1 hempty]
    induction cs with
    | nil => rfl
    | cons c rest ih =>
      cases rest with
      | nil => rfl
      | cons d rest => simpa [List.intercalate_cons_cons] using ih
  · exact intercalate_splitAt sep cs

theorem pieces_eq_splitAt {sep : List Char} (hsep : sep ≠ []) (cs : List Char) :
    pieces sep cs = splitAt sep cs :=
  if_neg (mt List.isEmpty_iff.1 hsep)

/-- The texts of pieces joined as strings. -/
theorem intercalate_ofList (sep : String) (parts : List (List Char)) :
    sep.intercalate (parts.map String.ofList) = String.ofList (sep.toList.intercalate parts) := by
  apply String.toList_inj.1
  rw [String.toList_intercalate, List.map_map, String.toList_ofList]
  congr 1
  exact List.map_id'' (fun _ => String.toList_ofList) parts

end Library

section

variable (services : Services) (s sep t : String)

theorem call_split : core.call services "split" [.str s, .str sep] =
    .ok (ofPieces (pieces sep.toList s.toList)) := rfl

theorem call_join (parts : List String) :
    core.call services "join" [.list (parts.map .str), .str sep] =
      .ok (.str (sep.intercalate parts)) := by
  have htexts : (parts.map Value.str).map Value.text = parts := by
    rw [List.map_map]
    exact List.map_id'' (fun _ => rfl) parts
  have hcall : core.call services "join" [.list (parts.map .str), .str sep] =
      .ok (.str (sep.intercalate ((parts.map Value.str).map Value.text))) := rfl
  rw [hcall, htexts]

theorem call_replace : core.call services "replace" [.str s, .str sep, .str t] =
    .ok (.str (String.ofList (replaceAll sep.toList t.toList s.toList))) := rfl

/-- What is split at a separator is joined to the same text again, also if the separator is empty.
With one that is not empty, joining the pieces by another text is replacing the separator by that
text, and no piece has the separator inside. -/
theorem call_split_join : ∃ parts : List String,
    core.call services "split" [.str s, .str sep] = .ok (.list (parts.map .str)) ∧
    core.call services "join" [.list (parts.map .str), .str sep] = .ok (.str s) ∧
    (sep ≠ "" →
      (∃ u, core.call services "replace" [.str s, .str sep, .str t] = .ok (.str u) ∧
        core.call services "join" [.list (parts.map .str), .str t] = .ok (.str u)) ∧
      ∀ piece ∈ parts, ¬ sep.toList <:+: piece.toList) := by
  refine ⟨(pieces sep.toList s.toList).map String.ofList, ?split, ?join, fun hsep => ⟨?replace, ?_⟩⟩
  case split =>
    rw [call_split, ofPieces, List.map_map]
    rfl
  case join =>
    rw [call_join, intercalate_ofList, intercalate_pieces, String.ofList_toList]
  all_goals
    have hne : sep.toList ≠ [] := mt String.toList_eq_nil_iff.1 hsep
    rw [pieces_eq_splitAt hne]
  case replace =>
    refine ⟨_, call_replace services s sep t, ?_⟩
    rw [call_join, intercalate_ofList, replaceAll_eq_intercalate hne]
  · intro piece hpiece
    obtain ⟨cs, hcs, rfl⟩ := List.mem_map.1 hpiece
    rw [String.toList_ofList]
    exact not_infix_of_mem_splitAt hne _ cs hcs

end

/-- The first of two occurrences that overlap is the one that is cut out, and a separator in front
or at the end leaves an empty piece there. -/
theorem call_split_join_overlapping :
    let services := (Context.new .core false).services
    let parts : List Value := [.str "", .str "aéb", .str ""]
    core.call services "split" [.str "aaaébaa", .str "aa"] = .ok (.list parts) ∧
      core.call services "join" [.list parts, .str "aa"] = .ok (.str "aaaébaa") ∧
      core.call services "replace" [.str "aaaébaa", .str "aa", .str "-"] =
        core.call services "join" [.list parts, .str "-"] := by
  intro services parts
  obtain ⟨found, hfound, hjoin, hrest⟩ := call_split_join services "aaaébaa" "aa" "-"
  obtain ⟨⟨u, hreplace, hjoined⟩, -⟩ := hrest (by decide)
  have hsplit : core.call services "split" [.str "aaaébaa", .str "aa"] = .ok (.list parts) := by
    rw [call_split]
    cbv
  have hparts : found.map Value.str = parts :=
    Value.list.inj (Except.ok.inj (hfound.symm.trans hsplit))
  rw [hparts] at hjoin hjoined
  exact ⟨hsplit, hjoin, hreplace.trans hjoined.symm⟩

end Functions

end ExprLang
