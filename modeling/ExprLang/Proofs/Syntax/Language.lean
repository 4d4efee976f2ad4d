import ExprLang.Proofs.Syntax.Completeness
import ExprLang.Proofs.Syntax.CoreTokens

/-!
# The language of the parser

Parsing up to the end of the input succeeds if and only if the tokens up to the end are derivable,
and it gives what they stand for.  This needs a closing end token, as every source has one, and no
other end token before it; words must not be parentheses.
-/

namespace ExprLang

open Parse Cursor

namespace Cursor

theorem ofList_terminated {body : List Token} {last : Token} (hlast : last.kind = BasicKind.eof) :
    ofList (body ++ [last]) =
      match body with
      | [] => ⟨[], last, []⟩
      | first :: rest => ⟨[], first, rest ++ [last]⟩ := by
  have hclosed : closed (body ++ [last]) = body ++ [last] := by
    simp [closed, Token.isEof, hlast]
  rw [ofList, hclosed]
  cases body <;> rfl

theorem ahead_ofList {body : List Token} {last : Token} (hlast : last.kind = BasicKind.eof) :
    (ofList (body ++ [last])).ahead = body ++ [last] := by
  rw [ofList_terminated hlast]
  cases body <;> rfl

theorem closed_ofList {body : List Token} {last : Token} (hlast : last.kind = BasicKind.eof) :
    (ofList (body ++ [last])).Closed := by
  rw [ofList_terminated hlast]
  cases body <;> simp [Closed, final, Token.isEof, hlast]

/-- The tokens of a walk stand at the cursor. -/
theorem Walk.mem_ahead {c c' : Cursor} {ts : List Token} (h : c.Walk ts c') :
    ∀ t ∈ ts, t ∈ c.ahead := by
  induction ts generalizing c with
  | nil => exact fun t ht => absurd ht List.not_mem_nil
  | cons first rest ih =>
    obtain ⟨rfl, hrest⟩ := h
    intro t ht
    rcases List.mem_cons.1 ht with rfl | ht
    · exact List.mem_cons_self
    · have hmem := ih hrest t ht
      unfold Cursor.next at hmem
      split at hmem
      · rename_i u us hcoming
        rw [ahead, hcoming]
        exact List.mem_cons_of_mem _ hmem
      · exact hmem

end Cursor

namespace Grammar

variable {g : Grammar} {body : List Token} {last : Token} {n : Node}

theorem parseAll_eq_ok {construct : Construct} {c : Cursor} :
    (g.parseAll construct c).1 = .ok n ↔
      ∃ c', (g.parse construct).Gives c n c' ∧ c'.current.kind = BasicKind.eof := by
  change ((g.parseAll construct).start c).1 = .ok n ↔ _
  rw [parseAll, toEnd, start_bind]
  have hbehind : ∀ (m : Node) (c' : Cursor),
      (((do if (← get).isEnd then return m else unexpected "end of input") : Parse Node).start
        c').1 = .ok n ↔ m = n ∧ c'.current.kind = BasicKind.eof := by
    intro m c'
    by_cases hend : c'.isEnd = true
    · have hkind : c'.current.kind = BasicKind.eof := by simpa [isEnd, Token.isEof] using hend
      change ((if c'.isEnd then return m else unexpected "end of input" : Parse Node).start
        c').1 = _ ↔ _
      rw [if_pos hend]
      change Except.ok m = Except.ok n ↔ _
      simp [hkind]
    · have hkind : c'.current.kind ≠ BasicKind.eof := by simpa [isEnd, Token.isEof] using hend
      change ((if c'.isEnd then return m else unexpected "end of input" : Parse Node).start
        c').1 = _ ↔ _
      rw [if_neg hend]
      simp only [hkind, and_false, iff_false]
      intro h
      cases h
  rcases hparse : (g.parse construct).start c with ⟨e | m, c'⟩
  · simp [Gives, hparse]
  · simp only [hbehind, Gives, hparse, Prod.mk.injEq, Except.ok.injEq]
    constructor
    · rintro ⟨rfl, heof⟩
      exact ⟨c', ⟨rfl, rfl⟩, heof⟩
    · rintro ⟨_, ⟨rfl, rfl⟩, heof⟩
      exact ⟨rfl, heof⟩

theorem exists_walk (hlast : last.kind = BasicKind.eof)
    (hbody : ∀ t ∈ body, t.kind ≠ BasicKind.eof) :
    ∃ c', (ofList (body ++ [last])).Walk body c' ∧ c'.current = last := by
  refine ⟨⟨body.reverse, last, []⟩, ?_, rfl⟩
  rw [(closed_ofList hlast).walk_iff hbody, ahead_ofList hlast, ofList_terminated hlast]
  cases body <;> simp [ahead]

/-- A walk over balanced tokens from the first token to an end token is a walk over all tokens. -/
theorem eq_of_walk (hlast : last.kind = BasicKind.eof) (hbody : ∀ t ∈ body, t.kind ≠ BasicKind.eof)
    {ts : List Token} {c' : Cursor} (hwalk : (ofList (body ++ [last])).Walk ts c')
    (hts : Balanced ts) (hend : c'.current.kind = BasicKind.eof) : ts = body := by
  have hahead := ((closed_ofList hlast).walk_iff hts.kind_ne_eof).1 hwalk |>.1
  rw [ahead_ofList hlast, ahead] at hahead
  -- The first end token of both lists ends the tokens in front of it.
  have hcut : ∀ (xs ys : List Token) (x y : Token) (more : List Token),
      xs ++ [x] = ys ++ y :: more → (∀ t ∈ xs, t.kind ≠ BasicKind.eof) →
        (∀ t ∈ ys, t.kind ≠ BasicKind.eof) → y.kind = BasicKind.eof → ys = xs := by
    intro xs
    induction xs with
    | nil =>
      intro ys x y more heq _ hys hy
      cases ys with
      | nil => rfl
      | cons z zs => simp at heq
    | cons w ws ih =>
      intro ys x y more heq hxs hys hy
      cases ys with
      | nil =>
        simp only [List.cons_append, List.nil_append, List.cons.injEq] at heq
        exact absurd hy (heq.1 ▸ hxs w List.mem_cons_self)
      | cons z zs =>
        simp only [List.cons_append, List.cons.injEq] at heq
        rw [heq.1, ih zs x y more heq.2 (List.forall_mem_cons.1 hxs).2
          (List.forall_mem_cons.1 hys).2 hy]
  exact hcut body ts last c'.current c'.coming hahead hbody hts.kind_ne_eof hend

/-- The tokens of a walk from the first token to an end token are regular if all tokens are. -/
theorem regular_of_walk (hlast : last.kind = BasicKind.eof) (hregular : last.Regular)
    (hbody : ∀ t ∈ body, t.Regular) {ts : List Token} {c' : Cursor}
    (hwalk : (ofList (body ++ [last])).Walk ts c') : ∀ t ∈ ts, t.Regular := by
  intro t ht
  have hmem := hwalk.mem_ahead t ht
  rw [ahead_ofList hlast, List.mem_append, List.mem_singleton] at hmem
  rcases hmem with hmem | rfl
  · exact hbody t hmem
  · exact hregular

/-- The whole input is parsed as an expression if and only if it is derivable as one. -/
theorem KeepsCore.parseAll_expression (hkeeps : g.KeepsCore) (hg : g.Distinct)
    (hlast : last.kind = BasicKind.eof) (hregular : last.Regular)
    (hbody : ∀ t ∈ body, t.Regular ∧ t.kind ≠ BasicKind.eof) :
    (g.parseAll .expression (ofList (body ++ [last]))).1 = .ok n ↔
      g.Derives .expression body n := by
  rw [parseAll_eq_ok]
  constructor
  · rintro ⟨c', hgives, hend⟩
    obtain ⟨ts, hwalk, hderives⟩ := hkeeps.walk_of_parse (by decide) _ _ _ hgives
    have hts := regular_of_walk hlast hregular (fun t ht => (hbody t ht).1) hwalk
    have hbalanced := Derives.balanced hg hderives hts
    rwa [← eq_of_walk hlast (fun t ht => (hbody t ht).2) hwalk hbalanced hend]
  · intro hderives
    have hc : (ofList (body ++ [last])).Closed := closed_ofList hlast
    obtain ⟨c', hwalk, hcurrent⟩ := exists_walk hlast (fun t ht => (hbody t ht).2)
    refine ⟨c', ?_, by rw [hcurrent, hlast]⟩
    refine hderives.completes hkeeps hg (fun t ht => (hbody t ht).1) _ c' hc hwalk ?_
    rw [hcurrent, hlast]
    exact hg.endsExpression (by decide) ⟨by decide, by decide, by decide⟩ (by decide)

/-- The whole input is parsed as a list of parameters if and only if it is derivable as one. -/
theorem KeepsCore.parseAll_parameters (hkeeps : g.KeepsCore) (hg : g.Distinct)
    (hlast : last.kind = BasicKind.eof) (hregular : last.Regular)
    (hbody : ∀ t ∈ body, t.Regular ∧ t.kind ≠ BasicKind.eof) :
    (g.parseAll .parameters (ofList (body ++ [last]))).1 = .ok n ↔
      ∃ params, n = .parameters params ∧ g.DerivesParameters body params := by
  rw [parseAll_eq_ok]
  constructor
  · rintro ⟨c', hgives, hend⟩
    obtain ⟨ts, hwalk, params, rfl, hderives⟩ := hkeeps.walk_of_parse (by decide) _ _ _ hgives
    have hts := regular_of_walk hlast hregular (fun t ht => (hbody t ht).1) hwalk
    have hbalanced := hderives.balanced hg hts
    refine ⟨params, rfl, ?_⟩
    rwa [← eq_of_walk hlast (fun t ht => (hbody t ht).2) hwalk hbalanced hend]
  · rintro ⟨params, rfl, hderives⟩
    obtain ⟨c', hwalk, hcurrent⟩ := exists_walk hlast (fun t ht => (hbody t ht).2)
    refine ⟨c', ?_, by rw [hcurrent, hlast]⟩
    exact hderives.gives hkeeps hg (fun t ht => (hbody t ht).1) (closed_ofList hlast) hwalk

/-- For the tokens of a source, the core grammar parses exactly the derivable ones and gives what
they stand for.  At a group in them, the search for the closing parenthesis finds the one of the
group. -/
theorem parse_source_iff {source : String} {ts : List Token}
    (hts : Lexer.core.tokens source = .ok ts) :
    (∀ n, (core.parseAll .expression (ofList ts)).1 = .ok n ↔
      core.Derives .expression ts.dropLast n) ∧
    ∀ (front inner back : List Token) (opener close : Token) (n : Node),
      ts = front ++ opener :: (inner ++ close :: back) → opener.kind = BasicKind.lparen →
      close.kind = BasicKind.rparen → core.Derives .expression inner n →
        (⟨front.reverse, opener, inner ++ close :: back⟩ : Cursor).enclosed
          BasicKind.lparen BasicKind.rparen =
            .ok (front.length, front.length + inner.length + 2) := by
  obtain ⟨fragments, -, rfl⟩ := Lexer.tokens_core hts
  have hbody := Lexer.regular_map_coreToken fragments
  constructor
  · intro n
    rw [List.dropLast_concat]
    exact (keepsCore_of_parsers rfl).parseAll_expression distinct_core rfl (Token.regular_eof _) hbody
  · intro front inner back opener close n heq hopener hclose hinner
    have hregular : ∀ t ∈ inner, t.Regular := by
      intro t ht
      have hmem : t ∈ fragments.map Lexer.coreToken ++
          [.eof (Mark.start.advance source.toList)] := by
        rw [heq]
        simp [ht]
      rcases List.mem_append.1 hmem with hmem | hmem
      · exact (hbody t hmem).1
      · rw [List.mem_singleton.1 hmem]
        exact Token.regular_eof _
    rw [enclosed_of_balanced rfl hopener (hinner.balanced distinct_core hregular) hclose]
    simp [position]

/-- The tokens of `!(true)`. -/
def negatedGroup : List Token :=
  [⟨BasicKind.bang, "!", ⟨0, 1, 1, 1⟩⟩, ⟨BasicKind.lparen, "(", ⟨1, 2, 1, 2⟩⟩,
    ⟨BasicKind.trueWord, "true", ⟨2, 6, 1, 3⟩⟩, ⟨BasicKind.rparen, ")", ⟨6, 7, 1, 7⟩⟩,
    ⟨BasicKind.eof, "", ⟨7, 7, 1, 8⟩⟩]

/-- These tokens are derived as a negation of a group, and so parsed. -/
theorem parse_source_group :
    (core.parseAll .expression (ofList negatedGroup)).1 =
      .ok (.unary .not .before (.literal (.bool true))) := by
  have hword : core.Derives .expression [⟨BasicKind.trueWord, "true", ⟨2, 6, 1, 3⟩⟩] _ :=
    .plain (.nested (.operand _) (.bare (.trueWord rfl)) .noOperation rfl rfl trivial)
  have hsource : core.Derives .expression negatedGroup.dropLast _ :=
    .plain (.nested (.operand _) (.before rfl (.bare (.group rfl hword rfl))) .noOperation rfl rfl
      trivial)
  have htokens : Lexer.core.tokens "!(true)" = .ok negatedGroup := by
    rw [Lexer.tokens_core_eq, Fragment.coreSymbols_eq]
    cbv
  exact ((parse_source_iff htokens).1 _).2 hsource

end Grammar

end ExprLang
