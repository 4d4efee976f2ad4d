import ExprLang.Proofs.Fragments.Layout
import ExprLang.Proofs.Fragments.Unclosed
import ExprLang.Proofs.Syntax.Places

/-!
# Errors point into the source

Whatever is wrong with a source is wrong at a place in it.  If the source is not cut into tokens,
the place is the quote of a text that is not closed.  Otherwise it is the beginning of a token, or
the end of the source, where the end token stands.  So the place is on one of the lines of the
source, and not farther right than the end of that line (`Engine.compile_error_points`).
-/

namespace ExprLang

open Text Fragment

namespace Text

/-- A line feed ends a line. -/
theorem splitOn_feed (cs ds : List Char) :
    (cs ++ '\n' :: ds).splitOn '\n' = cs.splitOn '\n' ++ ds.splitOn '\n' := by
  simp only [List.splitOn_eq_splitOnP]
  exact List.splitOnP_append_cons cs ds (beq_self_eq_true '\n')

/-- What stands on the line in front of a character is not split. -/
theorem exists_splitOn_append {cs : List Char} (hcs : '\n' ∉ cs) (ds : List Char) :
    ∃ line rest, (cs ++ ds).splitOn '\n' = (cs ++ line) :: rest := by
  induction cs with
  | nil => exact List.exists_cons_of_ne_nil (List.splitOn_ne_nil '\n' ds)
  | cons c cs ih =>
    obtain ⟨hc, hcs⟩ := not_or.1 (mt List.mem_cons.2 hcs)
    obtain ⟨line, rest, hsplit⟩ := ih hcs
    refine ⟨line, rest, ?_⟩
    rw [List.splitOn_eq_splitOnP] at hsplit
    rw [List.cons_append, List.splitOn_eq_splitOnP, List.splitOnP_cons_eq_if_modifyHead,
      if_neg (by simpa using Ne.symm hc), hsplit]
    rfl

/-- There is one line more than there are line feeds. -/
theorem length_splitOn (cs : List Char) : (cs.splitOn '\n').length = cs.count '\n' + 1 := by
  induction cs with
  | nil => rfl
  | cons c cs ih =>
    rw [List.splitOn_eq_splitOnP] at ih
    rw [List.splitOn_eq_splitOnP, List.splitOnP_cons_eq_if_modifyHead, List.count_cons]
    split
    · rw [List.length_cons, ih]
    · rw [List.length_modifyHead, ih, Nat.add_zero]

/-- The line on which the characters in front end begins with their last ones. -/
theorem exists_line (front back : List Char) :
    ∃ line, ((front ++ back).splitOn '\n')[front.count '\n']? =
      some (front.rtakeWhile (· ≠ '\n') ++ line) := by
  have hlast : '\n' ∉ front.rtakeWhile (· ≠ '\n') := fun hmem => by
    simpa using List.mem_rtakeWhile_imp hmem
  have hfront : front.rdropWhile (· ≠ '\n') ++ front.rtakeWhile (· ≠ '\n') = front :=
    List.rdropWhile_append_rtakeWhile
  have hfeed := List.rdropWhile_last_not (· ≠ '\n') front
  generalize front.rdropWhile (· ≠ '\n') = before, front.rtakeWhile (· ≠ '\n') = last at *
  obtain ⟨line, rest, hsplit⟩ := exists_splitOn_append hlast back
  refine ⟨line, ?_⟩
  rw [← hfront, List.append_assoc, List.count_append, List.count_eq_zero.2 hlast, Nat.add_zero]
  rcases List.eq_nil_or_concat' before with rfl | ⟨lines, c, rfl⟩
  · rw [List.nil_append, hsplit]
    rfl
  · obtain rfl : c = '\n' := by simpa using hfeed (by simp)
    rw [List.append_assoc, List.singleton_append, splitOn_feed, hsplit, List.count_append,
      List.count_singleton_self, ← length_splitOn, List.getElem?_append_right (le_refl _),
      Nat.sub_self]
    rfl

end Text

namespace Place

/-- The line and the column behind the characters. -/
structure Behind (place : Place) (front : List Char) : Prop where
  line_eq : place.line = 1 + front.count '\n'
  /-- what counts is the characters behind the last line feed -/
  col_eq : place.col = 1 + (front.rtakeWhile (· ≠ '\n')).length

/-- The place is on a line of the source, at the latest behind the last character there. -/
structure Within (place : Place) (source : String) : Prop where
  line_pos : 1 ≤ place.line
  line_le : place.line ≤ 1 + source.toList.count '\n'
  col_pos : 1 ≤ place.col
  col_le : ∃ line, (source.toList.splitOn '\n')[place.line - 1]? = some line ∧
    place.col ≤ 1 + line.length

theorem Behind.of_follows {m : Mark} {front : List Char} (h : m.Follows front) :
    (⟨m.line, m.col⟩ : Place).Behind front :=
  ⟨h.line_eq, h.col_eq⟩

/-- Behind characters of the source, a place is within it. -/
theorem Behind.within {place : Place} {front : List Char} (h : place.Behind front)
    {source : String} (hfront : front <+: source.toList) : place.Within source := by
  have hcount := hfront.sublist.count_le '\n'
  obtain ⟨back, hsource⟩ := hfront
  obtain ⟨line, hline⟩ := exists_line front back
  rw [hsource] at hline
  constructor
  case line_pos =>
    rw [h.line_eq]
    exact Nat.le_add_right 1 _
  case line_le =>
    rw [h.line_eq]
    exact Nat.add_le_add_left hcount 1
  case col_pos =>
    rw [h.col_eq]
    exact Nat.le_add_right 1 _
  case col_le =>
    refine ⟨front.rtakeWhile (· ≠ '\n') ++ line, ?_, ?_⟩
    · rw [h.line_eq, Nat.add_sub_cancel_left, hline]
    · rw [h.col_eq, List.length_append]
      exact Nat.add_le_add_left (Nat.le_add_right _ _) 1

end Place

namespace Lexer

/-- What is wrong behind the characters `front` of a source: a text that is not closed, a token, or
that the source ends there. -/
inductive Culprit (lexer : Lexer) (source : String) : ErrorKind → List Char → Prop
  | text {front : List Char} (h : lexer.EndsInText source front) :
      Culprit lexer source .lexical front
  | token {front back : List Char} {tokens : List Token} {t : Token}
      (htokens : lexer.tokens source = .ok tokens) (ht : t ∈ tokens) (hne : t.text ≠ "")
      (hfirst : t.span.first.Follows front) (hsource : source.toList = front ++ t.text.toList ++ back) :
      Culprit lexer source .grammar front
  | stop {tokens : List Token} (htokens : lexer.tokens source = .ok tokens) :
      Culprit lexer source .grammar source.toList

variable {source : String}

theorem Culprit.beginning {lexer : Lexer} {kind : ErrorKind} {front : List Char}
    (h : lexer.Culprit source kind front) : front <+: source.toList := by
  cases h with
  | text h =>
    obtain ⟨quote, rest, hsource, -⟩ := h.unclosed
    exact ⟨quote :: rest, hsource.symm⟩
  | token _ _ _ _ hsource =>
    rw [hsource, List.append_assoc]
    exact List.prefix_append _ _
  | stop => exact List.prefix_rfl

/-- A token of a source begins somewhere in it, and the end token at its end. -/
theorem exists_culprit {tokens : List Token} (htokens : core.tokens source = .ok tokens) {t : Token}
    (ht : t ∈ tokens) : ∃ front, t.span.first.Follows front ∧ core.Culprit source .grammar front := by
  obtain ⟨fragments, hfragments, rfl⟩ := tokens_core htokens
  rcases List.mem_append.1 ht with hbody | hlast
  · obtain ⟨f, hf, rfl⟩ := List.mem_map.1 hbody
    have hcovers := covers_of_ofChars Mark.follows_start hfragments
    obtain ⟨front, back, hsource, hfirst, -⟩ := hcovers.placed f hf
    exact ⟨front, hfirst, .token htokens ht (hcovers.nonempty f hf) hfirst hsource⟩
  · obtain rfl := List.mem_singleton.1 hlast
    exact ⟨source.toList, Mark.follows_start.advance source.toList, .stop htokens⟩

end Lexer

namespace Engine

/-- Every error of a source, whatever it is parsed for, has a culprit and stands where that begins. -/
theorem parse_error_points {construct : Construct} {source : String} {e : Error}
    (h : core.parse construct source = .error e) :
    ∃ place front, e.place = some place ∧ place.Behind front ∧
      core.lexer.Culprit source e.kind front := by
  change (Lexer.core.cursor source >>= fun c => _) = _ at h
  rw [Lexer.cursor] at h
  cases htokens : Lexer.core.tokens source with
  | error e' =>
    rw [htokens] at h
    obtain rfl := Except.error.inj h
    obtain ⟨front, m, hends, hm, rfl⟩ := Lexer.endsInText_of_tokens htokens
    exact ⟨_, front, rfl, .of_follows hm, .text hends⟩
  | ok tokens =>
    rw [htokens] at h
    change ((core.grammar.parseAll construct).start (.ofList tokens)).1 = _ at h
    have hover : (Cursor.ofList tokens).tokens = tokens := by
      obtain ⟨fragments, -, rfl⟩ := Lexer.tokens_core htokens
      exact Cursor.tokens_ofList rfl
    have hinside := onlyCore_core.confined_parseAll construct (.ofList tokens) hover
    generalize (core.grammar.parseAll construct).start (.ofList tokens) = outcome at h hinside
    cases hinside with
    | ok => cases h
    | error he =>
      obtain rfl := Except.error.inj h
      obtain ⟨hkind, t, ht, hplace⟩ := he
      obtain ⟨front, hfirst, hculprit⟩ := Lexer.exists_culprit htokens ht
      rw [hkind]
      exact ⟨_, front, hplace, .of_follows hfirst, hculprit⟩

/-- If a source is not compiled, the error stands within the source, at the quote of a text that is
not closed, at the beginning of a token, or at the end. -/
theorem compile_error_points (source : String) (e : Error) (h : core.compile source = .error e) :
    ∃ place front, e.place = some place ∧ place.Within source ∧ place.Behind front ∧
      core.lexer.Culprit source e.kind front := by
  have hparse : core.parse .expression source = .error e := by
    change (core.parse .expression source >>= fun n => _) = _ at h
    cases hparse : core.parse .expression source with
    | error e' =>
      rw [hparse] at h
      rw [Except.error.inj h]
    | ok n =>
      rw [hparse] at h
      cases h
  obtain ⟨place, front, hplace, hbehind, hculprit⟩ := parse_error_points hparse
  exact ⟨place, front, hplace, hbehind.within hculprit.beginning, hbehind, hculprit⟩

/-- A text that is not closed, and a product without its second factor, on the second line each. -/
theorem compile_error_points_lines :
    (∃ front, (⟨2, 2⟩ : Place).Within "a +\n 'b\\'" ∧ (⟨2, 2⟩ : Place).Behind front ∧
      core.lexer.Culprit "a +\n 'b\\'" .lexical front) ∧
    ∃ front, (⟨2, 3⟩ : Place).Within "(a\n* )" ∧ (⟨2, 3⟩ : Place).Behind front ∧
      core.lexer.Culprit "(a\n* )" .grammar front := by
  have htext : core.compile "a +\n 'b\\'" = .error (.located .unterminatedString 2 2) := by
    change (core.parse .expression _ >>= fun n => _) = _
    rw [parse_core_eq, coreSymbols_eq]
    cbv
  have hgroup : core.compile "(a\n* )" =
      .error (.located (.expected "an expression" "')'") 2 3) := by
    change (core.parse .expression _ >>= fun n => _) = _
    rw [parse_core_eq, coreSymbols_eq]
    cbv
  obtain ⟨place, front, hplace, hwithin, hbehind, hculprit⟩ := compile_error_points _ _ htext
  obtain ⟨place', front', hplace', hwithin', hbehind', hculprit'⟩ := compile_error_points _ _ hgroup
  obtain rfl := Option.some.inj hplace
  obtain rfl := Option.some.inj hplace'
  exact ⟨⟨front, hwithin, hbehind, hculprit⟩, front', hwithin', hbehind', hculprit'⟩

end Engine

end ExprLang
