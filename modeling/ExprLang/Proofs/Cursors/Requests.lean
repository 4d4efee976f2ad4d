import ExprLang.Proofs.Cursors.Positions
import ExprLang.Proofs.Syntax.Termination

/-!
# Requests to cursors

A parser asks a cursor for one thing after the other, and it may have several cursors over the same
tokens, as each fork is one of its own.  `Cursor.Effect` says what a single request comes to by the
tokens and the position alone, and `Cursor.sound_run` that it comes to this.  No request changes the
tokens, so after any number of them, to any of the cursors, each is at a position of the one
sequence, which ends with an end token; and a request that fails has moved nothing
(`Cursor.askAll_positions`).
-/

namespace ExprLang

namespace Cursor

/-- What a parser asks of a cursor. -/
inductive Request where
  | next
  | previous
  | consume
  | moveTo (position : Nat)
  | look (offset : Int)
  | startsWith (kinds : List TokenKind)
  | forward (p : Token → Bool)
  | backward (p : Token → Bool)
  | ensure (kind : TokenKind)
  | ensureAny (kinds : List TokenKind)
  | accept (kind : TokenKind)
  | enclosed (opener close : TokenKind)
  | fork (offset : Int)

/-- What a request is answered. -/
inductive Answer where
  | nothing
  | found (success : Bool)
  | token (result : Except Error (Option Token))
  | range (result : Except Error (Nat × Nat))
  | cursor (c : Cursor)

namespace Answer

/-- Whether what was asked for is not there. -/
def failed : Answer → Bool
  | .nothing => false
  | .found success => !success
  | .token (.ok t?) => t?.isNone
  | .token (.error _) => true
  | .range (.ok _) => false
  | .range (.error _) => true
  | .cursor _ => false

/-- The cursors that there are from now on besides those there were. -/
def opened : Answer → List Cursor
  | .cursor c => [c]
  | _ => []

end Answer

/-- The answer of a parsing step, and the cursor where it stops. -/
def answered {α : Type} (p : Parse α) (token? : α → Option Token) (c : Cursor) : Answer × Cursor :=
  let (result, d) := p.start c
  (.token (result.map token?), d)

/-- The answer of a search, and the cursor where it stops. -/
def sought (found? : Option Cursor) (c : Cursor) : Answer × Cursor :=
  (.found found?.isSome, found?.getD c)

/-- The answer to a request, and the cursor after it. -/
def Request.run : Request → Cursor → Answer × Cursor
  | .next, c => (.token (.ok c.next.current), c.next)
  | .previous, c => (.token (.ok c.previous.current), c.previous)
  | .consume, c => answered Parse.consume some c
  | .moveTo position, c => (.nothing, c.moveTo position)
  | .look offset, c => (.token (.ok (c.look? offset)), c)
  | .startsWith kinds, c => (.found (c.startsWith kinds), c)
  | .forward p, c => sought (c.forward? p) c
  | .backward p, c => sought (c.backward? p) c
  | .ensure kind, c => answered (Parse.ensure kind) some c
  | .ensureAny kinds, c => answered (Parse.ensureAny kinds) some c
  | .accept kind, c => answered (Parse.accept? kind) id c
  | .enclosed opener close, c => (.range (c.enclosed opener close), c)
  | .fork offset, c => (.cursor (c.fork offset), c)

/-- The cursors after a request to the one at `i`, if there is one. -/
def ask (cursors : List Cursor) : Nat × Request → List Cursor
  | (i, r) =>
    match cursors[i]? with
    | none => cursors
    | some c => cursors.set i (r.run c).2 ++ (r.run c).1.opened

/-- The cursors after a number of requests, each of which names the cursor that it goes to. -/
def askAll (asked : List (Nat × Request)) (cursors : List Cursor) : List Cursor :=
  asked.foldl ask cursors

/-! ## One request -/

/-- The next position, or the one here at the last token. -/
def following (c : Cursor) : Nat :=
  min (c.position + 1) (c.size - 1)

/-- Whether the request takes a token of the kind. -/
def Request.Takes : Request → TokenKind → Prop
  | .consume, _ => True
  | .ensure expected, kind => kind = expected
  | .ensureAny expected, kind => kind ∈ expected
  | .accept expected, kind => kind = expected
  | _, _ => False

/-- What comes of a request at a cursor: the answer, and the position after it. -/
inductive Effect (c : Cursor) : Request → Answer → Nat → Prop
  | next {t : Token} (h : c.tokens[c.following]? = some t) :
      Effect c .next (.token (.ok (some t))) c.following
  | previous {t : Token} (h : c.tokens[c.position - 1]? = some t) :
      Effect c .previous (.token (.ok (some t))) (c.position - 1)
  | moveTo (i : Nat) : Effect c (.moveTo i) .nothing (min i (c.size - 1))
  | look (offset : Int) :
      Effect c (.look offset) (.token (.ok
        (if 0 ≤ c.position + offset then c.tokens[(c.position + offset).toNat]? else none)))
        c.position
  | startsWith {kinds : List TokenKind} {found : Bool}
      (h : found = true ↔ kinds <+: (c.tokens.drop c.position).map Token.kind) :
      Effect c (.startsWith kinds) (.found found) c.position
  | ahead {p : Token → Bool} {i : Nat} (h : IsLeast (c.matchesAhead p) i) :
      Effect c (.forward p) (.found true) i
  | noneAhead {p : Token → Bool} (h : c.matchesAhead p = ∅) :
      Effect c (.forward p) (.found false) c.position
  | behind {p : Token → Bool} {i : Nat} (h : IsGreatest (c.matchesBehind p) i) :
      Effect c (.backward p) (.found true) i
  | noneBehind {p : Token → Bool} (h : c.matchesBehind p = ∅) :
      Effect c (.backward p) (.found false) c.position
  | taken {r : Request} (h : r.Takes c.current.kind) :
      Effect c r (.token (.ok (some c.current))) c.following
  | missing {kind : TokenKind} (h : c.current.kind ≠ kind) :
      Effect c (.ensure kind)
        (.token (.error (c.unexpected (Fault.mention kind.describe)))) c.position
  | missingAny {kinds : List TokenKind} (h : c.current.kind ∉ kinds) :
      Effect c (.ensureAny kinds) (.token (.error (c.unexpected
        (" or ".intercalate (kinds.map fun kind => Fault.mention kind.describe))))) c.position
  | declined {kind : TokenKind} (h : c.current.kind ≠ kind) :
      Effect c (.accept kind) (.token (.ok none)) c.position
  | enclosed {opener close : TokenKind} {last : Nat} (hne : opener ≠ close)
      (hopener : c.current.kind = opener) (h : IsLeast {i | c.BalancedUpTo opener close i} last) :
      Effect c (.enclosed opener close) (.range (.ok (c.position, last + 1))) c.position
  | unclosed {opener close : TokenKind} {e : Error} (he : e.kind = .grammar)
      (h : opener ≠ close → c.current.kind = opener → ∀ i, ¬ c.BalancedUpTo opener close i) :
      Effect c (.enclosed opener close) (.range (.error e)) c.position
  | fork {offset : Int} {d : Cursor} (htokens : d.tokens = c.tokens)
      (hposition : d.position = min (c.position + offset).toNat (c.size - 1)) :
      Effect c (.fork offset) (.cursor d) c.position

section

variable {c : Cursor} {r : Request}

/-- A request that fails leaves the cursor where it is. -/
theorem Effect.stays {answer : Answer} {i : Nat} (h : Effect c r answer i)
    (hfailed : answer.failed = true) : i = c.position := by
  cases h with
  | next | previous | moveTo | ahead | behind | taken | enclosed | fork => cases hfailed
  | look | startsWith | noneAhead | noneBehind | missing | missingAny | declined | unclosed => rfl

/-- A search forward that succeeds goes to the first match from here on. -/
theorem Effect.isLeast {p : Token → Bool} {answer : Answer} {i : Nat}
    (h : Effect c (.forward p) answer i) (hfound : answer.failed = false) :
    IsLeast (c.matchesAhead p) i := by
  cases h with
  | ahead hleast => exact hleast
  | noneAhead => cases hfound
  | taken htakes => cases htakes

/-- A search backward that succeeds goes to the last match up to here. -/
theorem Effect.isGreatest {p : Token → Bool} {answer : Answer} {i : Nat}
    (h : Effect c (.backward p) answer i) (hfound : answer.failed = false) :
    IsGreatest (c.matchesBehind p) i := by
  cases h with
  | behind hgreatest => exact hgreatest
  | noneBehind => cases hfound
  | taken htakes => cases htakes

theorem Effect.tokens_opened {answer : Answer} {i : Nat} (h : Effect c r answer i) :
    ∀ d ∈ answer.opened, d.tokens = c.tokens := by
  cases h with
  | fork htokens => exact fun d hd => List.mem_singleton.1 hd ▸ htokens
  | _ => exact fun _ hd => absurd hd List.not_mem_nil

/-- The request keeps the tokens, and otherwise comes to what its effect is. -/
def Request.Sound (r : Request) (c : Cursor) (result : Answer × Cursor) : Prop :=
  result.2.tokens = c.tokens ∧ Effect c r result.1 result.2.position

theorem Request.Sound.of_position {answer : Answer} {d : Cursor} {i : Nat}
    (htokens : d.tokens = c.tokens) (hposition : d.position = i) (h : Effect c r answer i) :
    r.Sound c (answer, d) :=
  ⟨htokens, hposition ▸ h⟩

/-- A step that takes the token here under a condition. -/
theorem sound_answered {α : Type} {p : Parse α} {token? : α → Option Token} {a : α}
    {refusal : Except Error α} {Taken : Prop} [Decidable Taken]
    (hstart : p.start c = if Taken then (.ok a, c.next) else (refusal, c))
    (ha : token? a = some c.current) (htaken : Taken → r.Takes c.current.kind)
    (hrefused : ¬ Taken → Effect c r (.token (refusal.map token?)) c.position) :
    r.Sound c (answered p token? c) := by
  rw [answered, hstart]
  by_cases h : Taken
  · have htoken : Effect c r (.token (.ok (token? a))) c.following := by
      rw [ha]
      exact .taken (htaken h)
    rw [if_pos h]
    exact .of_position c.tokens_next c.position_next htoken
  · rw [if_neg h]
    exact ⟨rfl, hrefused h⟩

theorem sound_forward (p : Token → Bool) (c : Cursor) :
    (Request.forward p).Sound c (sought (c.forward? p) c) := by
  cases h : c.forward? p with
  | none => exact ⟨rfl, .noneAhead (matchesAhead_of_forward? h)⟩
  | some d =>
    obtain ⟨htokens, hleast⟩ := forward?_eq_some_iff.1 h
    exact ⟨htokens, .ahead hleast⟩

theorem sound_backward (p : Token → Bool) (c : Cursor) :
    (Request.backward p).Sound c (sought (c.backward? p) c) := by
  cases h : c.backward? p with
  | none => exact ⟨rfl, .noneBehind (matchesBehind_of_backward? h)⟩
  | some d =>
    obtain ⟨htokens, hgreatest⟩ := backward?_eq_some_iff.1 h
    exact ⟨htokens, .behind hgreatest⟩

theorem sound_enclosed (opener close : TokenKind) (c : Cursor) :
    (Request.enclosed opener close).Sound c (.range (c.enclosed opener close), c) := by
  cases h : c.enclosed opener close with
  | ok range =>
    have hopener := kind_of_enclosed h
    have hne : opener ≠ close := by
      rintro rfl
      rw [enclosed, if_neg (not_not_intro hopener), closer?_self] at h
      cases h
    obtain ⟨last, hleast, rfl⟩ := (enclosed_eq_ok_iff hne hopener).1 h
    exact ⟨rfl, .enclosed hne hopener hleast⟩
  | error e =>
    refine ⟨rfl, .unclosed (kind_of_enclosed_eq_error h) fun hne hopener i hi => ?_⟩
    have hleast : IsLeast {i | c.BalancedUpTo opener close i}
        (sInf {i | c.BalancedUpTo opener close i}) :=
      ⟨Nat.sInf_mem ⟨i, hi⟩, fun _ => Nat.sInf_le⟩
    rw [(enclosed_eq_ok_iff hne hopener).2 ⟨_, hleast, rfl⟩] at h
    cases h

theorem sound_run (r : Request) (c : Cursor) : r.Sound c (r.run c) := by
  cases r with
  | next =>
    have hcurrent := c.next.getElem?_position
    rw [tokens_next, position_next] at hcurrent
    exact .of_position c.tokens_next c.position_next (.next hcurrent)
  | previous =>
    have hcurrent := c.previous.getElem?_position
    rw [tokens_previous, position_previous] at hcurrent
    exact .of_position c.tokens_previous c.position_previous (.previous hcurrent)
  | consume => exact .of_position c.tokens_next c.position_next (.taken trivial)
  | moveTo i => exact .of_position (c.tokens_moveTo i) (c.position_moveTo i) (.moveTo i)
  | look offset =>
    rw [Request.run, look?_eq]
    exact ⟨rfl, .look offset⟩
  | startsWith kinds =>
    refine ⟨rfl, .startsWith ?_⟩
    rw [drop_position, Cursor.startsWith, List.isPrefixOf_iff_prefix]
  | forward p => exact sound_forward p c
  | backward p => exact sound_backward p c
  | ensure kind => exact sound_answered (Parse.start_ensure kind c) rfl id .missing
  | ensureAny kinds => exact sound_answered (Parse.start_ensureAny kinds c) rfl id .missingAny
  | accept kind => exact sound_answered (Parse.start_accept? kind c) rfl id .declined
  | enclosed opener close => exact sound_enclosed opener close c
  | fork offset => exact ⟨rfl, .fork (c.tokens_fork offset) (c.position_fork offset)⟩

end

/-! ## Any number of requests -/

theorem tokens_ask {ts : List Token} {cursors : List Cursor} (h : ∀ c ∈ cursors, c.tokens = ts)
    (asked : Nat × Request) : ∀ c ∈ ask cursors asked, c.tokens = ts := by
  obtain ⟨i, r⟩ := asked
  rw [ask]
  cases hi : cursors[i]? with
  | none => exact h
  | some d =>
    have hd : d.tokens = ts := h d (List.mem_of_getElem? hi)
    obtain ⟨htokens, heffect⟩ := sound_run r d
    intro c hc
    rcases List.mem_append.1 hc with hc | hc
    · rcases List.mem_or_eq_of_mem_set hc with hc | rfl
      · exact h c hc
      · exact htokens.trans hd
    · exact (heffect.tokens_opened c hc).trans hd

theorem tokens_askAll {ts : List Token} {cursors : List Cursor}
    (h : ∀ c ∈ cursors, c.tokens = ts) (asked : List (Nat × Request)) :
    ∀ c ∈ askAll asked cursors, c.tokens = ts := by
  induction asked generalizing cursors with
  | nil => exact h
  | cons first rest ih => exact ih (tokens_ask h first)

/-- Let a sequence of tokens be given, and let requests be made to a cursor over it and to its
forks, in any order.  Then all these cursors have the tokens that the first one began with, and the
last of them is an end token.  Each cursor is at a position of the sequence, and at its token there.
Whatever is asked next comes to what the tokens and the position say; if it fails, the cursor stays,
and a search that succeeds goes to the nearest match in its direction. -/
theorem askAll_positions (tokens : List Token) (asked : List (Nat × Request)) :
    ∀ c ∈ askAll asked [ofList tokens],
      c.tokens = closed tokens ∧
      (∃ last, c.tokens.getLast? = some last ∧ last.isEof = true) ∧
      c.position < c.size ∧ c.tokens[c.position]? = some c.current ∧
      (∀ r : Request, r.Sound c (r.run c) ∧
        ((r.run c).1.failed = true → (r.run c).2.position = c.position)) ∧
      ∀ p : Token → Bool,
        (((Request.forward p).run c).1.failed = false →
          IsLeast {i | c.position ≤ i ∧ c.HoldsAt p i} ((Request.forward p).run c).2.position) ∧
        (((Request.backward p).run c).1.failed = false →
          IsGreatest {i | i ≤ c.position ∧ c.HoldsAt p i}
            ((Request.backward p).run c).2.position) := by
  intro c hc
  have hfirst : ∀ d ∈ [ofList tokens], d.tokens = closed tokens := fun d hd =>
    List.mem_singleton.1 hd ▸ tokens_ofList_eq tokens
  have htokens : c.tokens = closed tokens := tokens_askAll hfirst asked c hc
  obtain ⟨body, last, hclosed, hlast⟩ := closed_eq_concat tokens
  have hend : c.tokens.getLast? = some last := by
    rw [htokens, hclosed, List.getLast?_concat]
  exact ⟨htokens, ⟨last, hend, hlast⟩, c.position_lt_size, c.getElem?_position,
    fun r => ⟨sound_run r c, (sound_run r c).2.stays⟩,
    fun p => ⟨(sound_run (.forward p) c).2.isLeast, (sound_run (.backward p) c).2.isGreatest⟩⟩

/-- There is an end token in the middle, and one is added.  A fork begins one token before the first
of them, and stays there as it cannot take what it is asked for. -/
theorem askAll_positions_forked :
    let t (kind : BasicKind) : Token := ⟨kind, "", .none⟩
    let tokens := [t .identifier, t .lparen, t .eof, t .identifier]
    let asked : List (Nat × Request) := [(0, .forward Token.isEof), (0, .fork (-1)),
      (1, .ensure BasicKind.rparen), (0, .next), (1, .fork 9), (7, .consume)]
    let c : Cursor := ⟨[t .identifier], t .lparen, [t .eof, t .identifier, t .eof]⟩
    c ∈ askAll asked [ofList tokens] ∧ c.tokens = closed tokens ∧
      IsLeast {i | 1 ≤ i ∧ c.HoldsAt Token.isEof i} 2 := by
  intro t tokens asked c
  have hmem : c ∈ askAll asked [ofList tokens] := by decide
  obtain ⟨htokens, -, -, -, -, hsearch⟩ := askAll_positions tokens asked c hmem
  exact ⟨hmem, htokens, (hsearch Token.isEof).1 rfl⟩

end Cursor

end ExprLang
