import ExprLang.Proofs.Fragments.Munch
import ExprLang.Proofs.Syntax.Termination

/-!
# The end of a token sequence

A lexer puts the end token of a source behind its last character.  A cursor over tokens that lack an
end token adds one, and takes its place from the last token alone: on the line where that token
begins, right of as many columns as it has characters.  For a source without blank characters at its
end, both give the same end token if the last token is all on one line.  If it is a text that goes
over several lines, or if there is no token at all, the added end token has another line or column
(`Lexer.tokens_ofList_dropLast`).
-/

namespace ExprLang

open Text

namespace Mark

/-- Each line feed begins a line. -/
theorem line_advance (m : Mark) (cs : List Char) :
    (m.advance cs).line = m.line + cs.count '\n' := by
  induction cs generalizing m with
  | nil => rfl
  | cons c cs ih =>
    rw [advance_cons, ih, List.count_cons, step]
    by_cases hc : c = '\n'
    · simp [hc, Nat.add_assoc, Nat.add_comm 1]
    · simp [hc]

/-- Without a line feed, each character takes a column. -/
theorem col_advance (m : Mark) {cs : List Char} (hcs : '\n' ∉ cs) :
    (m.advance cs).col = m.col + cs.length := by
  induction cs generalizing m with
  | nil => rfl
  | cons c cs ih =>
    obtain ⟨hc, hcs⟩ := not_or.1 (mt List.mem_cons.2 hcs)
    have hstep : m.step c = ⟨m.offset + c.utf8Size, m.line, m.col + 1⟩ := if_neg (Ne.symm hc)
    rw [advance_cons, ih _ hcs, hstep, List.length_cons, Nat.add_assoc, Nat.add_comm 1]

/-- The characters end on the line where they begin exactly if there is no line feed in them. -/
theorem advance_stays_iff {m : Mark} {cs : List Char} :
    m.line = (m.advance cs).line ∧ m.col + cs.length = (m.advance cs).col ↔ '\n' ∉ cs := by
  constructor
  · rintro ⟨hline, -⟩
    rw [line_advance] at hline
    exact List.count_eq_zero.1 (by omega)
  · intro hcs
    rw [line_advance, col_advance m hcs, List.count_eq_zero.2 hcs]
    exact ⟨rfl, rfl⟩

end Mark

namespace Fragment

/-- Nothing is cut off no characters. -/
theorem Cut.eq_nil {symbols : List (List Char)} {m : Mark} {fragments : List Fragment}
    (h : Cut symbols m [] fragments) : fragments = [] := by
  generalize hcs : ([] : List Char) = cs at h
  cases h with
  | blank => rfl
  | fragment _ _ hnext _ =>
    have hnil := (List.append_eq_nil_iff.1 (List.append_eq_nil_iff.1 hcs.symm).1).2
    exact absurd hnil (Lexeme.append_of_next? hnext).2

/-- Without blank characters at the end, the last fragment goes to the end of the characters. -/
theorem last_of_ofChars {symbols : List (List Char)} {m : Mark} {cs : List Char}
    {fragments : List Fragment} (h : ofChars symbols m cs = .ok fragments)
    (hend : ∀ c ∈ cs.getLast?, isBlank c = false) (hne : cs ≠ []) :
    ∃ f first, fragments.getLast? = some f ∧ f.span = .between first (m.advance cs) ∧
      first.advance f.text.toList = m.advance cs := by
  replace h := cut_of_ofChars h
  induction h with
  | @blank m gap hgap =>
    have hblank := hgap (gap.getLast hne) (List.getLast_mem hne)
    rw [hend _ (List.getLast?_eq_some_getLast hne)] at hblank
    cases hblank
  | @fragment m gap rest lexeme after c others hgap hc hnext hothers ih =>
    have hadvance : m.advance (gap ++ lexeme ++ after) =
        ((m.advance gap).advance lexeme).advance after := by
      rw [Mark.advance_append, Mark.advance_append]
    rw [hadvance]
    -- The last fragment is this one if nothing follows, and comes from what follows otherwise.
    by_cases hafter : after = []
    · subst hafter
      obtain rfl := hothers.eq_nil
      exact ⟨_, _, List.getLast?_singleton, rfl, by rw [String.toList_ofList, Mark.advance_nil]⟩
    · rw [List.getLast?_append_of_ne_nil _ hafter] at hend
      obtain ⟨f, first, hf, hspan, hfirst⟩ := ih hend hafter
      refine ⟨f, first, ?_, hspan, hfirst⟩
      rw [List.getLast?_cons, hf]
      rfl

end Fragment

namespace Cursor

theorem closed_of_kind_ne_eof {body : List Token} (hbody : ∀ t ∈ body, t.kind ≠ BasicKind.eof) :
    closed body = body ++ [closing body] := by
  rw [closed, if_neg]
  cases hlast : body.getLast? with
  | none => simp
  | some t => simpa [Token.isEof] using hbody t (List.mem_of_getLast? hlast)

/-- The added end token stands behind the last one. -/
theorem closing_of_getLast? {body : List Token} {t : Token} (hlast : body.getLast? = some t) :
    closing body = ⟨BasicKind.eof, "",
      ⟨t.span.stop, t.span.stop, t.span.line, t.span.col + t.text.length⟩⟩ := by
  fun_induction closing body with
  | case1 => cases hlast
  | case2 u =>
    obtain rfl := Option.some.inj hlast
    rfl
  | case3 u rest hrest ih =>
    obtain ⟨v, rest, rfl⟩ := List.exists_cons_of_ne_nil hrest
    exact ih hlast

end Cursor

namespace Lexer

/-- Let a source have no blank character at its end.  Without their end token, its tokens get the
same one back when a cursor is made of them, exactly if there are any and the last one is all on one
line.  The added end token always stands behind the last byte, but on the line of the last token. -/
theorem tokens_ofList_dropLast {source : String}
    (hend : ∀ c ∈ source.toList.getLast?, isBlank c = false) {cursor : Cursor}
    (h : core.cursor source = .ok cursor) :
    let body := cursor.tokens.dropLast
    ((Cursor.ofList body).tokens = cursor.tokens ↔
      source ≠ "" ∧ ∀ t ∈ body.getLast?, '\n' ∉ t.text.toList) ∧
    ∀ t ∈ body.getLast?, (Cursor.ofList body).tokens = body ++ [⟨BasicKind.eof, "",
      ⟨source.utf8ByteSize, source.utf8ByteSize, t.span.line, t.span.col + t.text.length⟩⟩] := by
  obtain ⟨tokens, htokens, rfl⟩ := exists_of_map_eq_ok h
  obtain ⟨fragments, hfragments, rfl⟩ := tokens_core htokens
  have hbody : ∀ t ∈ fragments.map coreToken, t.kind ≠ BasicKind.eof :=
    fun t ht => (regular_map_coreToken fragments t ht).2
  rw [Cursor.tokens_ofList rfl]
  simp only [List.dropLast_concat, Cursor.tokens_ofList_eq, Cursor.closed_of_kind_ne_eof hbody,
    List.append_cancel_left_eq, List.cons.injEq, and_true]
  by_cases hsource : source = ""
  case pos =>
    subst hsource
    rw [String.toList_empty, Fragment.ofChars_nil] at hfragments
    obtain rfl := Except.ok.inj hfragments
    simp only [ne_eq, not_true_eq_false, false_and, iff_false, List.map_nil, List.getLast?_nil]
    exact ⟨by decide, nofun⟩
  case neg =>
    obtain ⟨f, first, hlast, hspan, hadvance⟩ :=
      Fragment.last_of_ofChars hfragments hend (mt String.toList_eq_nil_iff.1 hsource)
    have hbodyLast : (fragments.map coreToken).getLast? = some (coreToken f) := by
      rw [List.getLast?_map, hlast]
      rfl
    have hoffset : (Mark.start.advance source.toList).offset = source.utf8ByteSize := by
      rw [(Mark.follows_start.advance source.toList).offset_eq, List.nil_append, byteSize_toList]
    have htoken : (coreToken f).span = .between first (Mark.start.advance source.toList) := hspan
    simp only [Cursor.closing_of_getLast? hbodyLast, hbodyLast, Option.mem_some_iff, forall_eq',
      htoken, Span.between, Token.eof, hoffset, and_true, ne_eq, hsource, not_false_eq_true,
      true_and]
    simp only [Token.mk.injEq, Span.mk.injEq, true_and, ← hadvance]
    exact Mark.advance_stays_iff

theorem tokens_ofList_dropLast_lines :
    (∀ c ∈ "-\n'é'".toList.getLast?, isBlank c = false) ∧
      ∃ cursor, core.cursor "-\n'é'" = .ok cursor ∧
        (Cursor.ofList cursor.tokens.dropLast).tokens = cursor.tokens := by
  have hend : ∀ c ∈ "-\n'é'".toList.getLast?, isBlank c = false := by
    simp
    decide
  have htokens : core.tokens "-\n'é'" = .ok [⟨BasicKind.minus, "-", ⟨0, 1, 1, 1⟩⟩,
      ⟨BasicKind.string, "'é'", ⟨2, 6, 2, 1⟩⟩, .eof ⟨6, 2, 4⟩] := by
    rw [tokens_core_eq, Fragment.coreSymbols_eq]
    cbv
  have hcursor := congrArg (Except.map Cursor.ofList) htokens
  refine ⟨hend, _, hcursor, (tokens_ofList_dropLast hend hcursor).1.2 ⟨by decide, ?_⟩⟩
  intro t ht
  obtain rfl := Option.some.inj ht
  decide

/-- Behind a text on two lines, and behind nothing, the added end token has its own place. -/
theorem added_end_differs :
    (∃ cursor, core.cursor "'a\nb'" = .ok cursor ∧
      (Cursor.ofList cursor.tokens.dropLast).tokens ≠ cursor.tokens) ∧
    ∃ cursor, core.cursor "" = .ok cursor ∧
      (Cursor.ofList cursor.tokens.dropLast).tokens ≠ cursor.tokens := by
  constructor
  case left =>
    have htokens : core.tokens "'a\nb'" =
        .ok [⟨BasicKind.string, "'a\nb'", ⟨0, 5, 1, 1⟩⟩, .eof ⟨5, 2, 3⟩] := by
      rw [tokens_core_eq, Fragment.coreSymbols_eq]
      cbv
    exact ⟨_, congrArg (Except.map Cursor.ofList) htokens, by decide⟩
  case right =>
    have htokens : core.tokens "" = .ok [.eof .start] := by
      rw [tokens_core_eq, String.toList_empty, Fragment.ofChars_nil]
      rfl
    exact ⟨_, congrArg (Except.map Cursor.ofList) htokens, by decide⟩

end Lexer

end ExprLang
