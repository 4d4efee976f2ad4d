import ExprLang.Proofs.Syntax.Failures
import ExprLang.Proofs.Syntax.Language
import ExprLang.Proofs.Syntax.Precedence
import ExprLang.Proofs.Syntax.Resemblance

/-!
# Termination

The parsers limit how deep constructs stand inside one another and how often their loops go round.
None of these limits is needed: a construct asks for another one only further on in the tokens, or
at its own place for one of lower rank, and a loop takes a token in each round.  So the recursion of
the parsers is well founded, and it never ends because a limit is reached
(`Grammar.terminates`).  End tokens may stand anywhere; only the operators of the grammar must not
be spelled by them.
-/

namespace ExprLang

open Parse Cursor

namespace Cursor

theorem kind_closing (tokens : List Token) : (closing tokens).kind = BasicKind.eof := by
  fun_induction closing tokens with
  | case1 => rfl
  | case2 => rfl
  | case3 _ _ _ ih => exact ih

theorem closed_eq_concat (tokens : List Token) :
    ∃ body last, closed tokens = body ++ [last] ∧ last.isEof = true := by
  unfold closed
  split
  · rename_i hlast
    cases tokens using List.reverseRecOn with
    | nil => simp at hlast
    | append_singleton body last => exact ⟨body, last, rfl, by simpa using hlast⟩
  · exact ⟨tokens, closing tokens, rfl, by simp [Token.isEof, kind_closing]⟩

/-- The tokens of a cursor are those of the closed sequence. -/
theorem tokens_ofList_eq (tokens : List Token) : (ofList tokens).tokens = closed tokens := by
  obtain ⟨body, last, hclosed, -⟩ := closed_eq_concat tokens
  rw [ofList, hclosed]
  cases body <;> rfl

/-- A cursor made from a list of tokens is closed, whatever the tokens are. -/
theorem closed_of_tokens (tokens : List Token) : (ofList tokens).Closed := by
  obtain ⟨body, last, hclosed, hlast⟩ := closed_eq_concat tokens
  have hbody : closed (body ++ [last]) = body ++ [last] := by simp [closed, hlast]
  have hlist : ofList tokens = ofList (body ++ [last]) := by rw [ofList, ofList, hclosed, hbody]
  rw [hlist]
  exact closed_ofList (by simpa [Token.isEof] using hlast)

/-- The closed cursors are the places in lists of tokens. -/
theorem closed_iff_reaches {c : Cursor} :
    c.Closed ↔ ∃ tokens, (ofList tokens).Reaches c := by
  constructor
  · intro hc
    obtain ⟨passed, current, coming⟩ := c
    induction passed generalizing current coming with
    | nil =>
      refine ⟨current :: coming, ?_⟩
      have hclosed : closed (current :: coming) = current :: coming := by
        rw [closed, if_pos]
        simpa [Closed, final, List.getLast?_cons] using hc
      rw [ofList, hclosed]
      exact .refl _
    | cons t passed ih =>
      have hbefore : Closed ⟨passed, t, current :: coming⟩ := by
        simpa [Closed, final, List.getLast?_cons] using hc
      obtain ⟨tokens, hreaches⟩ := ih t (current :: coming) hbefore
      exact ⟨tokens, hreaches.next⟩
  · rintro ⟨tokens, hreaches⟩
    exact hreaches.closed (closed_of_tokens tokens)

end Cursor

/-- There is less to do for `inner` at `d` than for `construct` at `c`: it is further on, or here
and lower in the order of constructs. -/
def Construct.Below (inner : Construct) (d : Cursor) (construct : Construct) (c : Cursor) : Prop :=
  c.Reaches d ∧ (c.position < d.position ∨ d = c ∧ inner.rank < construct.rank)

namespace Construct

variable {inner construct : Construct} {c d : Cursor}

theorem below_of_reaches (h : c.Reaches d) (hrank : inner.rank < construct.rank) :
    inner.Below d construct c := by
  rcases h.eq_or_lt with heq | hlt
  · exact ⟨h, .inr ⟨heq, hrank⟩⟩
  · exact ⟨h, .inl hlt⟩

theorem below_of_lt (h : c.Reaches d) (hlt : c.position < d.position) :
    inner.Below d construct c :=
  ⟨h, .inl hlt⟩

/-- Behind a token that is no end token everything is below. -/
theorem below_next (hc : c.Closed) (hkind : c.current.kind ≠ BasicKind.eof)
    (h : c.next.Reaches d) : inner.Below d construct c := by
  have hnext := hc.position_next hkind
  have hle := h.position_le
  exact below_of_lt ((Reaches.refl c).next.trans h) (by omega)

theorem Below.trans {outer : Construct} {c₁ : Cursor} (h : inner.Below d construct c)
    (h' : construct.Below c outer c₁) : inner.Below d outer c₁ := by
  obtain ⟨hreaches, hd⟩ := h
  obtain ⟨hreaches', hc⟩ := h'
  refine ⟨hreaches'.trans hreaches, ?_⟩
  have hle := hreaches.position_le
  have hle' := hreaches'.position_le
  rcases hd with hlt | ⟨rfl, hrank⟩
  · exact .inl (by omega)
  · rcases hc with hlt | ⟨rfl, hrank'⟩
    · exact .inl hlt
    · exact .inr ⟨rfl, hrank.trans hrank'⟩

theorem Below.height_lt (h : inner.Below d construct c) : d.height inner < c.height construct := by
  obtain ⟨hreaches, hlt | ⟨rfl, hrank⟩⟩ := h
  · have hsum := hreaches.position_add
    have hinner := inner.rank_le
    have hpos := construct.rank_pos
    unfold height
    omega
  · exact Nat.add_lt_add_left hrank _

end Construct

namespace ConstructParser

open Construct

variable {g : Grammar} {parse : Construct → Parse Node} {E : Error → Cursor → Prop}
  {construct : Construct} {c : Cursor}

/-- Wherever there is less to do than for `construct` at `c`, the constructs fail with these errors
only. -/
def FailsBelow (E : Error → Cursor → Prop) (parse : Construct → Parse Node)
    (construct : Construct) (c : Cursor) : Prop :=
  ∀ inner ∈ Construct.core, ∀ d, inner.Below d construct c → FailsWith E (parse inner) d

theorem FailsBelow.here (h : FailsBelow E parse construct c) (inner : Construct)
    (hcore : inner ∈ Construct.core) (hrank : inner.rank < construct.rank) {d : Cursor}
    (hd : c.Reaches d) : FailsWith E (parse inner) d :=
  h inner hcore d (below_of_reaches hd hrank)

theorem FailsBelow.behind (h : FailsBelow E parse construct c) (inner : Construct)
    (hcore : inner ∈ Construct.core) (hc : c.Closed) (hkind : c.current.kind ≠ BasicKind.eof)
    {d : Cursor} (hd : c.next.Reaches d) : FailsWith E (parse inner) d :=
  h inner hcore d (below_next hc hkind hd)

variable (hE : ∀ e c, e.fault.Ordinary → E e c) (hc : c.Closed)

theorem expression_failsWith (h : FailsBelow E parse .expression c) :
    FailsWith E (expression (g.rules parse)) c :=
  h.here _ (by decide) (by decide) (.refl c)

include hE hc

theorem ternary_failsWith (h : FailsBelow E parse .ternary c)
    (hadvances : ∀ inner ∈ Construct.core, (parse inner).Advances) :
    FailsWith E (ternary (g.rules parse)) c := by
  refine (h.here .binary (by decide) (by decide) (.refl c)).bind
    fun condition c₁ hcondition => .accepts_bind (fun hquestion => ?_) fun _ => .pure _
  obtain ⟨hc₁, hlt⟩ := hadvances .binary (by decide) _ _ _ hc hcondition
  have hbranch : ∀ d, c₁.next.Reaches d → FailsWith E (parse .expression) d := fun d hd => by
    have hbehind := (Reaches.refl c₁).next.trans hd
    exact h .expression (by decide) d
      (below_of_lt (hc₁.trans hbehind) (hlt.trans_le hbehind.position_le))
  refine (hbranch _ (.refl _)).bind fun positive c₂ hpositive => .ensure_bind hE fun _ => ?_
  obtain ⟨hc₂, -⟩ := hadvances .expression (by decide) _ _ _ (hc₁.closed hc).next hpositive
  exact (hbranch _ hc₂.next).bind fun negative c₃ _ => .pure _

omit hE in
theorem binary_failsWith (hg : g.EofFree) (h : FailsBelow E parse .binary c)
    (hadvances : (parse .unary).Advances) : FailsWith E (binary (g.rules parse)) c := by
  have hunary : ∀ d, c.Reaches d → FailsWith E (parse .unary) d := fun d hd =>
    h.here _ (by decide) (by decide) hd
  refine .remaining_bind ?_
  exact (climb_failsWith hc hg hunary hadvances _).1 0 c (.refl c) (spent_of_lt (by omega))

omit hE in
theorem unary_failsWith (hg : g.EofFree) (h : FailsBelow E parse .unary c) :
    FailsWith E (unary (g.rules parse)) c := by
  refine .current_bind ?_
  split
  · rename_i op hop
    refine .consume_bind (FailsWith.bind ?_ fun _ _ _ => .pure _)
    exact h.behind _ (by decide) hc (hg.ne_of_before? hop) (.refl _)
  · refine (h.here .primary (by decide) (by decide) (.refl c)).bind
      fun operand c₁ _ => .current_bind ?_
    split
    · exact .consume_bind (.pure _)
    · exact .pure _

theorem primary_failsWith (h : FailsBelow E parse .primary c) :
    FailsWith E (primary (g.rules parse)) c := by
  refine .current_bind ?_
  split
  · refine .consume_bind ?_
    split
    · exact .pure _
    · exact .throw (hE _ _ trivial)
  · refine .consume_bind (FailsWith.bind ?_ fun _ _ _ => .pure _)
    exact .liftAt hE _ fun fault => Literal.ordinary_of_ofQuoted
  · exact .consume_bind (.pure _)
  · exact .consume_bind (.pure _)
  · exact .consume_bind (.pure _)
  · rename_i hkind
    refine .ensureEnclosed_bind hE fun _ => .consume_bind ?_
    exact (h.behind .expression (by decide) hc (by simp [hkind]) (.refl _)).bind
      fun _ _ _ => .ensure_bind hE fun _ => .pure _
  · rename_i hkind
    refine .consume_bind (.accepts_bind (fun _ => .pure _) fun _ => ?_)
    exact (h.behind .arguments (by decide) hc (by simp [hkind]) (.refl _)).bind
      fun _ _ _ => .ensure_bind hE fun _ => .pure _
  · exact h.here .path (by decide) (by decide) (.refl c)
  · exact .unexpected hE _

theorem path_failsWith (h : FailsBelow E parse .path c)
    (hadvances : (parse .expression).Advances) : FailsWith E (path (g.rules parse)) c := by
  refine .ensure_bind hE fun hroot => .remaining_bind ?_
  have hinside : ∀ inner ∈ Construct.core, ∀ d, c.next.Reaches d → FailsWith E (parse inner) d :=
    fun inner hcore d hd => h.behind inner hcore hc (by simp [hroot]) hd
  refine (segmentsWithin_failsWith hc.next hE (hinside _ (by decide)) hadvances
    (hinside _ (by decide)) _ _ (.refl _) (spent_of_lt (Nat.lt_succ_self _))).bind
    fun result c₁ _ => ?_
  split <;> exact .pure _

omit hE in
theorem arguments_failsWith (h : FailsBelow E parse .arguments c)
    (hadvances : (parse .expression).Advances) : FailsWith E (arguments (g.rules parse)) c := by
  refine FailsWith.bind (.remaining_bind ?_) fun _ _ _ => .pure _
  exact itemsWithin_failsWith hc hadvances (fun d hd => h.here _ (by decide) (by decide) hd) _
    (.refl c) (spent_of_lt (Nat.lt_succ_self _))

theorem parameters_failsWith (h : FailsBelow E parse .parameters c)
    (hadvances : (parse .expression).Advances) : FailsWith E (parameters (g.rules parse)) c := by
  refine .ensureEnclosed_bind hE fun hopener => .consume_bind ?_
  refine .accepts_bind (fun _ => .pure _) fun _ => .remaining_bind ?_
  have hexpression : ∀ d, c.next.Reaches d → FailsWith E (parse .expression) d := fun d hd =>
    h.behind _ (by decide) hc (by simp [hopener]) hd
  exact (parametersWithin_failsWith hc.next hE hexpression hadvances _ _ (.refl _)
    (spent_of_lt (Nat.lt_succ_self _))).bind fun _ _ _ => .ensure_bind hE fun _ => .pure _

theorem names_failsWith : FailsWith E (names (g.rules parse)) c := by
  refine FailsWith.bind (.remaining_bind ?_) fun _ _ _ => .pure _
  exact itemsWithin_failsWith hc aliased_advances (fun d hd => aliased_failsWith hc hE hd) _
    (.refl c) (spent_of_lt (Nat.lt_succ_self _))

/-- A core parser fails with these errors only if the constructs that it asks for do, and these are
all below its own. -/
theorem failsWith_of_below (hg : g.EofFree) {parser : ConstructParser}
    (hcore : core? construct = some parser) (h : FailsBelow E parse construct c)
    (hadvances : ∀ inner ∈ Construct.core, (parse inner).Advances) :
    FailsWith E (parser (g.rules parse)) c := by
  cases construct with
  | expression =>
    obtain rfl := Option.some.inj hcore
    exact expression_failsWith h
  | ternary =>
    obtain rfl := Option.some.inj hcore
    exact ternary_failsWith hE hc h hadvances
  | binary =>
    obtain rfl := Option.some.inj hcore
    exact binary_failsWith hc hg h (hadvances _ (by decide))
  | unary =>
    obtain rfl := Option.some.inj hcore
    exact unary_failsWith hc hg h
  | primary =>
    obtain rfl := Option.some.inj hcore
    exact primary_failsWith hE hc h
  | path =>
    obtain rfl := Option.some.inj hcore
    exact path_failsWith hE hc h (hadvances _ (by decide))
  | arguments =>
    obtain rfl := Option.some.inj hcore
    exact arguments_failsWith hc h (hadvances _ (by decide))
  | parameters =>
    obtain rfl := Option.some.inj hcore
    exact parameters_failsWith hE hc h (hadvances _ (by decide))
  | names =>
    obtain rfl := Option.some.inj hcore
    exact names_failsWith hE hc
  | custom name => cases hcore

end ConstructParser

namespace Parse

/-- An error that says that a limit is reached arises at least as many tokens behind `c` as there
are rounds. -/
def Late (c : Cursor) (rounds : Nat) (e : Error) (c' : Cursor) : Prop :=
  e.fault = .nestedTooDeep → c.position + rounds ≤ c'.position

theorem late_of_ordinary (c : Cursor) (rounds : Nat) (e : Error) (c' : Cursor)
    (h : e.fault.Ordinary) : Late c rounds e c' :=
  fun heq => absurd heq h.ne_nestedTooDeep

theorem spent_late (c : Cursor) (rounds : Nat) :
    ConstructParser.Spent (Late c rounds) c rounds :=
  fun _ _ _ hle _ => hle

/-- If the step is stopped because its rounds are used up, each of them has moved the cursor on. -/
def Paced {α : Type} (rounds : Nat) (p : Parse α) : Prop :=
  ∀ c, c.Closed → FailsWith (Late c rounds) p c

end Parse

namespace Grammar

/-- Parses constructs, except that the one that is given ends with an error at its cursor. -/
def interrupted (g : Grammar) (inner : Construct × Cursor) (e : Error) (construct : Construct) :
    Parse Node := do
  if construct = inner.1 ∧ (← get) = inner.2 then throw e else g.parse construct

/-- Parsing the outer construct at its cursor asks for the inner one: it ends with every error that
the inner one may end with. -/
def Asks (g : Grammar) (outer inner : Construct × Cursor) : Prop :=
  ∃ parser, g.parser? outer.1 = some parser ∧
    ∀ e, ((parser (g.rules (g.interrupted inner e))).start outer.2).1 = .error e

/-- In every round the loops of the core parsers move on. -/
structure PacedLoops (g : Grammar) : Prop where
  climbing : ∀ rounds least, (ConstructParser.climb (g.rules g.parse) rounds least).Paced rounds
  extending : ∀ rounds least left,
    Paced rounds (ConstructParser.extend (g.rules g.parse) rounds least left)
  arguments : ∀ rounds, Paced rounds (itemsWithin BasicKind.comma (g.parse .expression) rounds)
  segments : ∀ rounds passed,
    Paced rounds (ConstructParser.segmentsWithin (g.rules g.parse) rounds passed)
  parameters : ∀ rounds taken,
    Paced rounds (ConstructParser.parametersWithin (g.rules g.parse) rounds taken)
  names : ∀ rounds, Paced rounds (itemsWithin BasicKind.comma ConstructParser.aliased rounds)
  dotted : ∀ rounds, Paced rounds (ConstructParser.dottedWithin rounds)

/-- Parsing ends of itself at every place in every list of tokens: there are limits, but they do
not show. -/
structure Terminating (g : Grammar) : Prop where
  /-- a construct is parsed by running its parser over the constructs, without a limit on depth -/
  unfolds : ∀ construct parser c, g.parser? construct = some parser → c.Closed →
    (g.parse construct).start c = (parser (g.rules g.parse)).start c
  /-- neither a depth nor the rounds of a loop are used up -/
  unlimited : ∀ construct c, c.Closed →
    FailsWith (fun e _ => e.fault ≠ .nestedTooDeep) (g.parse construct) c
  wellFounded : WellFounded fun inner outer => outer.2.Closed ∧ g.Asks outer inner
  /-- a construct that stands inside itself is further on there -/
  cycles : ∀ construct c d, c.Closed →
    Relation.TransGen g.Asks (construct, c) (construct, d) → c.position < d.position
  loops : g.PacedLoops

variable {g : Grammar} {c : Cursor}

theorem start_interrupted (inner : Construct × Cursor) (e : Error) (construct : Construct) :
    (g.interrupted inner e construct).start c =
      if construct = inner.1 ∧ c = inner.2 then (.error e, c) else (g.parse construct).start c := by
  change (if construct = inner.1 ∧ c = inner.2 then throw e else g.parse construct :
    Parse Node).start c = _
  split <;> rfl

/-- Where a construct gives a result although another one may not, it gives it anyway. -/
theorem gives_of_interrupted {inner : Construct × Cursor} {e : Error} {construct : Construct}
    {n : Node} {c' : Cursor} (h : (g.interrupted inner e construct).Gives c n c') :
    (g.parse construct).Gives c n c' := by
  rw [Gives, start_interrupted] at h
  split at h
  · cases h
  · exact h

/-- A construct of the core grammar fails for what stands in the input only. -/
theorem KeepsCore.failsWith_parse (hkeeps : g.KeepsCore) (hg : g.EofFree) {construct : Construct}
    (hcore : construct ∈ Construct.core) (hc : c.Closed) :
    FailsWith (fun e _ => e.fault.Ordinary) (g.parse construct) c := by
  induction hheight : c.height construct using Nat.strong_induction_on generalizing construct c with
  | _ height ih =>
    obtain ⟨parser, hparser⟩ := ConstructParser.exists_core? hcore
    intro e c' h
    rw [hkeeps.start_parse hparser hc] at h
    refine ConstructParser.failsWith_of_below (fun _ _ => id) hc hg hparser ?_
      (fun inner hinner => hkeeps.advances hg hinner) e c' h
    intro inner hinner d hd
    exact ih _ (hheight ▸ hd.height_lt) hinner (hd.1.closed hc) rfl

theorem OnlyCore.failsWith_parse (honly : g.OnlyCore) {construct : Construct}
    (hcore : construct ∉ Construct.core) :
    FailsWith (fun e _ => e.fault.Ordinary) (g.parse construct) c := by
  have hnone : g.parser? construct = none := by
    rw [Option.eq_none_iff_forall_ne_some]
    intro parser hparser
    exact hcore (ConstructParser.mem_core (honly _ _ hparser))
  obtain ⟨depth, hdepth⟩ := Nat.exists_eq_succ_of_ne_zero
    (n := (c.coming.length + 1) * (g.parsers.length + 1)) (by positivity)
  refine .remaining_bind ?_
  rw [hdepth, parseWithin, hnone]
  exact .throw trivial

/-- What a construct asks for is below it. -/
theorem Asks.below (hkeeps : g.KeepsCore) (honly : g.OnlyCore) (hg : g.EofFree)
    {outer inner : Construct × Cursor} (hc : outer.2.Closed) (h : g.Asks outer inner) :
    inner.1.Below inner.2 outer.1 outer.2 := by
  obtain ⟨parser, hparser, hasks⟩ := h
  by_contra hbelow
  -- an error that nothing but the interruption can end with
  let e : Error := .inSpan (.reported .evaluation "" none none) .none
  have hfails : FailsWith (fun e _ => e.fault.Ordinary)
      (parser (g.rules (g.interrupted inner e))) outer.2 := by
    refine ConstructParser.failsWith_of_below (fun _ _ => id) hc hg (honly _ _ hparser) ?_ ?_
    · intro construct hcore d hd e' c' h
      rw [start_interrupted, if_neg] at h
      · exact hkeeps.failsWith_parse hg hcore (hd.1.closed hc) e' c' h
      · rintro ⟨rfl, rfl⟩
        exact hbelow hd
    · intro construct hcore d n c' hd h
      exact hkeeps.advances hg hcore d n c' hd (gives_of_interrupted h)
  have herror := hasks e
  exact hfails e _ (Prod.ext herror rfl)

theorem Asks.chain_below (hkeeps : g.KeepsCore) (honly : g.OnlyCore) (hg : g.EofFree)
    {outer inner : Construct × Cursor} (hc : outer.2.Closed)
    (h : Relation.TransGen g.Asks outer inner) : inner.1.Below inner.2 outer.1 outer.2 := by
  induction h with
  | single hasks => exact hasks.below hkeeps honly hg hc
  | tail _ hasks ih => exact (hasks.below hkeeps honly hg (ih.1.closed hc)).trans ih

theorem Asks.wellFounded (hkeeps : g.KeepsCore) (honly : g.OnlyCore) (hg : g.EofFree) :
    WellFounded fun inner outer : Construct × Cursor => outer.2.Closed ∧ g.Asks outer inner := by
  refine Subrelation.wf ?_ (measure fun p : Construct × Cursor => p.2.height p.1).wf
  rintro inner outer ⟨hc, hasks⟩
  exact (hasks.below hkeeps honly hg hc).height_lt

/-- A construct fails for what stands in the input, or because it has no parser. -/
theorem failsWith_ordinary (hkeeps : g.KeepsCore) (honly : g.OnlyCore) (hg : g.EofFree)
    (construct : Construct) (hc : c.Closed) :
    FailsWith (fun e _ => e.fault.Ordinary) (g.parse construct) c := by
  by_cases hcore : construct ∈ Construct.core
  · exact hkeeps.failsWith_parse hg hcore hc
  · exact honly.failsWith_parse hcore

theorem pacedLoops (hkeeps : g.KeepsCore) (honly : g.OnlyCore) (hg : g.EofFree) :
    g.PacedLoops := by
  have hadvances : ∀ inner ∈ Construct.core, (g.parse inner).Advances := fun inner hcore =>
    hkeeps.advances hg hcore
  -- The constructs inside a loop reach no limit, so that only the loop itself can.
  have hlate : ∀ rounds (c : Cursor), c.Closed → ∀ construct d, c.Reaches d →
      FailsWith (Late c rounds) (g.parse construct) d := fun rounds c hc construct d hd =>
    (failsWith_ordinary hkeeps honly hg construct (hd.closed hc)).mono (late_of_ordinary c rounds)
  constructor
  case climbing =>
    intro rounds least c hc
    exact (ConstructParser.climb_failsWith hc hg (hlate rounds c hc _) (hadvances _ (by decide))
      rounds).1 least c (.refl c) (spent_late c rounds)
  case extending =>
    intro rounds least left c hc
    exact (ConstructParser.climb_failsWith hc hg (hlate rounds c hc _) (hadvances _ (by decide))
      rounds).2 least left c (.refl c) (spent_late c rounds)
  case arguments =>
    intro rounds c hc
    exact ConstructParser.itemsWithin_failsWith hc (hadvances _ (by decide)) (hlate rounds c hc _)
      rounds (.refl c) (spent_late c rounds)
  case segments =>
    intro rounds passed c hc
    exact ConstructParser.segmentsWithin_failsWith hc (late_of_ordinary c rounds)
      (hlate rounds c hc _) (hadvances _ (by decide)) (hlate rounds c hc _) rounds passed (.refl c)
      (spent_late c rounds)
  case parameters =>
    intro rounds taken c hc
    exact ConstructParser.parametersWithin_failsWith hc (late_of_ordinary c rounds)
      (hlate rounds c hc _) (hadvances _ (by decide)) rounds taken (.refl c) (spent_late c rounds)
  case names =>
    intro rounds c hc
    exact ConstructParser.itemsWithin_failsWith hc ConstructParser.aliased_advances
      (fun d hd => ConstructParser.aliased_failsWith hc (late_of_ordinary c rounds) hd)
      rounds (.refl c) (spent_late c rounds)
  case dotted =>
    intro rounds c hc
    exact ConstructParser.dottedWithin_failsWith hc (late_of_ordinary c rounds) rounds (.refl c)
      (spent_late c rounds)

/-- The parsers of the core constructs terminate over every table of operators in which no operator
is spelled by an end token, on every sequence of tokens. -/
theorem terminates (hkeeps : g.KeepsCore) (honly : g.OnlyCore) (hg : g.EofFree) :
    g.Terminating where
  unfolds construct parser c hparser hc := hkeeps.start_parse (honly _ _ hparser) hc
  unlimited construct c hc :=
    (failsWith_ordinary hkeeps honly hg construct hc).mono fun _ _ he => he.ne_nestedTooDeep
  wellFounded := Asks.wellFounded hkeeps honly hg
  cycles construct c d hc hchain := by
    obtain ⟨-, hlt | ⟨-, hrank⟩⟩ := Asks.chain_below hkeeps honly hg hc hchain
    · exact hlt
    · exact absurd hrank (lt_irrefl _)
  loops := pacedLoops hkeeps honly hg

theorem onlyCore_of_parsers (hparsers : g.parsers = Grammar.core.parsers) : g.OnlyCore := by
  intro construct parser hparser
  rw [parser?, hparsers] at hparser
  cases construct with
  | custom name => cases hparser
  | _ => exact hparser

/-- Names are operators themselves, in front of operands, between them and behind them. -/
def juxtaposed : Grammar where
  parsers := core.parsers
  binary := [⟨BasicKind.identifier, .add, 255, .right⟩, ⟨BasicKind.comma, .multiply, 0, .left⟩]
  before := [⟨BasicKind.identifier, .negate⟩, ⟨BasicKind.dot, .not⟩]
  after := [⟨BasicKind.identifier, .increment⟩]

/-- The tokens of `a` and `b` with an end token between them. -/
def apart : Cursor :=
  .ofList [⟨BasicKind.identifier, "a", .none⟩, ⟨BasicKind.eof, "", .none⟩,
    ⟨BasicKind.identifier, "b", .none⟩]

/-- A name that is an operator asks for an operand at the end token behind it, and there is none. -/
theorem terminates_juxtaposed :
    juxtaposed.KeepsCore ∧ juxtaposed.OnlyCore ∧ juxtaposed.EofFree ∧ juxtaposed.Terminating ∧
      juxtaposed.Asks (.unary, apart) (.unary, apart.next) ∧
      ((juxtaposed.parse .expression).start apart).1 =
        .error (.inSpan (.expected "an expression" "end of input") .none) := by
  have hkeeps : juxtaposed.KeepsCore := keepsCore_of_parsers rfl
  have honly : juxtaposed.OnlyCore := onlyCore_of_parsers rfl
  have hg : juxtaposed.EofFree := ⟨by decide, by decide, by decide⟩
  refine ⟨hkeeps, honly, hg, terminates hkeeps honly hg, ⟨_, rfl, fun _ => rfl⟩, ?_⟩
  rfl

end Grammar

end ExprLang
