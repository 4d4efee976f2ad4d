import ExprLang.Grammar.Core
import ExprLang.Proofs.Syntax.Step

/-!
# Tokens that resemble each other

Of the tokens at a cursor and behind it the core grammar reads the kinds, the texts of names and
literals, and the words behind points.  Parses that begin at two cursors with the same of these go
side by side: they give the same tree, or they fail for the same reason
(`Resemblance.parallel_parseAll`).  Where the tokens stand and how operators are spelled is only
mentioned in errors.
-/

namespace ExprLang

open Parse

/-- A relation between the cursors of two parses, which keeps what the grammar reads, and one
between the errors that they may end with. -/
structure Resemblance where
  Related : Cursor → Cursor → Prop
  Alike : Error → Error → Prop
  next : ∀ {c d : Cursor}, Related c d → Related c.next d.next
  kinds : ∀ {c d : Cursor}, Related c d → c.ahead.map Token.kind = d.ahead.map Token.kind
  name : ∀ {c d : Cursor}, Related c d → c.current.kind = BasicKind.identifier →
    c.current.text = d.current.text
  number : ∀ {c d : Cursor}, Related c d → c.current.kind = BasicKind.number →
    c.current.text = d.current.text
  string : ∀ {c d : Cursor}, Related c d → c.current.kind = BasicKind.string →
    c.current.text = d.current.text
  /-- the text behind a point -/
  property : ∀ {c d : Cursor}, Related c d → c.current.kind = BasicKind.dot →
    c.next.current.text = d.next.current.text
  /-- one fault at two places -/
  fault : ∀ fault (s s' : Span), Alike (.inSpan fault s) (.inSpan fault s')
  unexpected : ∀ {c d : Cursor}, Related c d → ∀ what, Alike (c.unexpected what) (d.unexpected what)
  /-- openers at two places that are not closed -/
  unclosed : ∀ close opener (here here' s s' : Span),
    Alike (.inSpan (.unclosed close opener here.line here.col) s)
      (.inSpan (.unclosed close opener here'.line here'.col) s')

/-- Which token closes an opener depends on the kinds of the tokens. -/
theorem Cursor.closer?_congr {opener close : TokenKind} {depth : Nat} {ts us : List Token}
    (h : ts.map Token.kind = us.map Token.kind) :
    closer? opener close depth ts = closer? opener close depth us := by
  induction ts generalizing us depth with
  | nil =>
    rw [List.map_eq_nil_iff.1 h.symm]
  | cons t ts ih =>
    cases us with
    | nil => cases h
    | cons u us =>
      obtain ⟨hkind, hrest⟩ := List.cons.inj h
      simp only [closer?, hkind, ih hrest]

namespace Resemblance

variable {S : Resemblance} {α β : Type} {c d : Cursor}

theorem kind (h : S.Related c d) : c.current.kind = d.current.kind :=
  (List.cons.inj (S.kinds h)).1

theorem coming (h : S.Related c d) : c.coming.length = d.coming.length := by
  simpa using congrArg List.length (List.cons.inj (S.kinds h)).2

/-- Two steps give the same result and stop at related cursors, or they end with errors that are
alike. -/
inductive Same (S : Resemblance) : Except Error α × Cursor → Except Error α × Cursor → Prop
  | ok {a : α} {c d : Cursor} (h : S.Related c d) : Same S (.ok a, c) (.ok a, d)
  | error {e e' : Error} {c d : Cursor} (h : S.Alike e e') : Same S (.error e, c) (.error e', d)

/-- The first step at the first cursor does the same as the second one at the second. -/
def Parallel (S : Resemblance) (p q : Parse α) (c d : Cursor) : Prop :=
  S.Same (p.start c) (q.start d)

namespace Parallel

theorem bind {p q : Parse α} {f h : α → Parse β} (hfirst : S.Parallel p q c d)
    (hrest : ∀ a c' d', S.Related c' d' → S.Parallel (f a) (h a) c' d') :
    S.Parallel (p >>= f) (q >>= h) c d := by
  rw [Parallel] at hfirst
  rw [Parallel, start_bind, start_bind]
  generalize p.start c = left, q.start d = right at hfirst
  cases hfirst with
  | ok hrelated => exact hrest _ _ _ hrelated
  | error halike => exact .error halike

theorem pure (h : S.Related c d) (a : α) : S.Parallel (Pure.pure a) (Pure.pure a) c d :=
  .ok h

theorem map {p q : Parse α} (f : α → β) (h : S.Parallel p q c d) :
    S.Parallel (f <$> p) (f <$> q) c d := by
  rw [← bind_pure_comp, ← bind_pure_comp]
  exact h.bind fun a c' d' hrelated => pure hrelated _

theorem throw {e e' : Error} (h : S.Alike e e') :
    S.Parallel (MonadExcept.throw e : Parse α) (MonadExcept.throw e') c d :=
  .error h

theorem failHere (fault : Fault) :
    S.Parallel (Parse.failHere fault : Parse α) (Parse.failHere fault) c d :=
  .error (S.fault fault _ _)

theorem unexpected (h : S.Related c d) (what : String) :
    S.Parallel (Parse.unexpected what : Parse α) (Parse.unexpected what) c d :=
  .error (S.unexpected h what)

theorem liftAt (h : S.Related c d) (t u : Token) (result : Except Fault α) :
    S.Parallel (Parse.liftAt t result) (Parse.liftAt u result) c d := by
  cases result with
  | ok a => exact .ok h
  | error fault => exact .error (S.fault fault _ _)

theorem current_bind {f h : Token → Parse β}
    (hrest : S.Parallel (f c.current) (h d.current) c d) :
    S.Parallel (Parse.current >>= f) (Parse.current >>= h) c d :=
  hrest

theorem consume_bind {f h : Token → Parse β}
    (hrest : S.Parallel (f c.current) (h d.current) c.next d.next) :
    S.Parallel (Parse.consume >>= f) (Parse.consume >>= h) c d :=
  hrest

theorem remaining_bind {f h : Nat → Parse β} (hrelated : S.Related c d)
    (hrest : S.Parallel (f c.coming.length) (h c.coming.length) c d) :
    S.Parallel (Parse.remaining >>= f) (Parse.remaining >>= h) c d := by
  rw [Parallel, start_remaining_bind, start_remaining_bind, ← coming hrelated]
  exact hrest

theorem ensure_bind {kind : TokenKind} {f h : Token → Parse β} (hrelated : S.Related c d)
    (hrest : c.current.kind = kind → S.Parallel (f c.current) (h d.current) c.next d.next) :
    S.Parallel (Parse.ensure kind >>= f) (Parse.ensure kind >>= h) c d := by
  by_cases hkind : c.current.kind = kind
  · rw [Parallel, start_ensure_bind hkind, start_ensure_bind ((S.kind hrelated).symm.trans hkind)]
    exact hrest hkind
  · have hkind' : d.current.kind ≠ kind := fun h => hkind ((S.kind hrelated).trans h)
    rw [Parallel, start_bind, start_bind, Parse.ensure, start_bind, start_bind, start_accept?,
      start_accept?, if_neg hkind, if_neg hkind']
    exact .error (S.unexpected hrelated _)

theorem accepts_bind {kind : TokenKind} {f h : Bool → Parse β} (hrelated : S.Related c d)
    (htaken : c.current.kind = kind → S.Parallel (f true) (h true) c.next d.next)
    (hleft : S.Parallel (f false) (h false) c d) :
    S.Parallel (Parse.accepts kind >>= f) (Parse.accepts kind >>= h) c d := by
  by_cases hkind : c.current.kind = kind
  · rw [Parallel, start_accepts_bind_of_eq hkind,
      start_accepts_bind_of_eq ((S.kind hrelated).symm.trans hkind)]
    exact htaken hkind
  · rw [Parallel, start_accepts_bind_of_ne hkind,
      start_accepts_bind_of_ne fun h => hkind ((S.kind hrelated).trans h)]
    exact hleft

theorem ensureEnclosed (opener close : TokenKind) (h : S.Related c d) :
    S.Parallel (Parse.ensureEnclosed opener close) (Parse.ensureEnclosed opener close) c d := by
  have hclosed : Cursor.closer? opener close 1 c.coming = Cursor.closer? opener close 1 d.coming :=
    Cursor.closer?_congr (List.cons.inj (S.kinds h)).2
  rw [Parallel, start_ensureEnclosed, start_ensureEnclosed, Cursor.enclosed, Cursor.enclosed,
    ← S.kind h, ← hclosed]
  by_cases hopener : c.current.kind ≠ opener
  · rw [if_pos hopener, if_pos hopener]
    exact .error (S.unexpected h _)
  · rw [if_neg hopener, if_neg hopener]
    cases Cursor.closer? opener close 1 c.coming with
    | some distance => exact .ok h
    | none => exact .error (S.unclosed close opener _ _ _ _)

/-- Items are taken side by side. -/
theorem itemsWithin {separator : TokenKind} {item item' : Parse α}
    (hitem : ∀ c d, S.Related c d → S.Parallel item item' c d) (rounds : Nat)
    (hrelated : S.Related c d) :
    S.Parallel (Parse.itemsWithin separator item rounds) (Parse.itemsWithin separator item' rounds)
      c d := by
  induction rounds generalizing c d with
  | zero => exact failHere _
  | succ rounds ih =>
    refine (hitem c d hrelated).bind fun first c₁ d₁ h₁ => accepts_bind h₁ (fun _ => ?_) ?_
    · exact (ih (S.next h₁)).bind fun rest c₂ d₂ h₂ => pure h₂ _
    · exact pure h₁ _

end Parallel

open ConstructParser

/-- The word behind a point. -/
theorem propertyName_parallel (h : S.Related c d) (htext : c.current.text = d.current.text) :
    S.Parallel propertyName propertyName c d := by
  refine .current_bind ?_
  rw [htext]
  split
  · refine .consume_bind ?_
    rw [htext]
    exact .pure (S.next h) _
  · exact .unexpected h _

theorem dottedWithin_parallel (rounds : Nat) (h : S.Related c d) :
    S.Parallel (dottedWithin rounds) (dottedWithin rounds) c d := by
  induction rounds generalizing c d with
  | zero => exact .failHere _
  | succ rounds ih =>
    refine .accepts_bind h (fun hdot => ?_) (.pure h _)
    refine (propertyName_parallel (S.next h) (S.property h hdot)).bind fun word c₁ d₁ h₁ => ?_
    exact (ih h₁).bind fun rest c₂ d₂ h₂ => .pure h₂ _

theorem aliased_parallel (h : S.Related c d) : S.Parallel aliased aliased c d := by
  refine .ensure_bind h fun hroot => .remaining_bind (S.next h) ?_
  rw [S.name h hroot]
  refine (dottedWithin_parallel _ (S.next h)).bind fun rest c₁ d₁ h₁ =>
    .accepts_bind h₁ (fun _ => ?_) (.pure h₁ _)
  refine .ensure_bind (S.next h₁) fun hgiven => ?_
  rw [S.name (S.next h₁) hgiven]
  exact .pure (S.next (S.next h₁)) _

section

variable {g : Grammar} {parse : Construct → Parse Node}
  (hparse : ∀ construct c d, S.Related c d → S.Parallel (parse construct) (parse construct) c d)

include hparse

theorem expression_parallel (h : S.Related c d) :
    S.Parallel (expression (g.rules parse)) (expression (g.rules parse)) c d :=
  hparse .ternary c d h

theorem ternary_parallel (h : S.Related c d) :
    S.Parallel (ternary (g.rules parse)) (ternary (g.rules parse)) c d := by
  refine (hparse .binary c d h).bind fun condition c₁ d₁ h₁ =>
    .accepts_bind h₁ (fun _ => ?_) (.pure h₁ _)
  refine (hparse .expression _ _ (S.next h₁)).bind fun positive c₂ d₂ h₂ =>
    .ensure_bind h₂ fun _ => ?_
  exact (hparse .expression _ _ (S.next h₂)).bind fun negative c₃ d₃ h₃ => .pure h₃ _

theorem climb_parallel (rounds : Nat) :
    (∀ least c d, S.Related c d →
        S.Parallel (climb (g.rules parse) rounds least) (climb (g.rules parse) rounds least) c d) ∧
      ∀ least left c d, S.Related c d →
        S.Parallel (extend (g.rules parse) rounds least left)
          (extend (g.rules parse) rounds least left) c d := by
  induction rounds with
  | zero => exact ⟨fun _ _ _ _ => .failHere _, fun _ _ _ _ _ => .failHere _⟩
  | succ rounds ih =>
    obtain ⟨ihclimb, ihextend⟩ := ih
    constructor
    · intro least c d h
      exact (hparse .unary c d h).bind fun left c₁ d₁ h₁ => ihextend least left c₁ d₁ h₁
    · intro least left c d h
      have hfound : S.Parallel (operatorFrom? (g.rules parse) least)
          (operatorFrom? (g.rules parse) least) c d := by
        refine .current_bind ?_
        rw [S.kind h]
        exact .pure h _
      refine hfound.bind fun found c₁ d₁ h₁ => ?_
      cases found with
      | none => exact .pure h₁ _
      | some op =>
        refine .consume_bind ((ihclimb op.rightLeast _ _ (S.next h₁)).bind ?_)
        exact fun right c₂ d₂ h₂ => ihextend least _ c₂ d₂ h₂

theorem binary_parallel (h : S.Related c d) :
    S.Parallel (binary (g.rules parse)) (binary (g.rules parse)) c d :=
  .remaining_bind h ((climb_parallel hparse _).1 0 c d h)

theorem unary_parallel (h : S.Related c d) :
    S.Parallel (unary (g.rules parse)) (unary (g.rules parse)) c d := by
  refine .current_bind ?_
  rw [S.kind h]
  split
  · exact .consume_bind ((hparse .unary _ _ (S.next h)).bind fun operand c₁ d₁ h₁ => .pure h₁ _)
  · refine (hparse .primary c d h).bind fun operand c₁ d₁ h₁ => .current_bind ?_
    rw [S.kind h₁]
    split
    · exact .consume_bind (.pure (S.next h₁) _)
    · exact .pure h₁ _

theorem primary_parallel (h : S.Related c d) :
    S.Parallel (primary (g.rules parse)) (primary (g.rules parse)) c d := by
  refine .current_bind ?_
  have hkind := S.kind h
  rw [← hkind]
  split
  · rename_i hnumber
    refine .consume_bind ?_
    rw [S.number h hnumber]
    split
    · exact .pure (S.next h) _
    · exact .throw (S.fault _ _ _)
  · rename_i hstring
    refine .consume_bind ?_
    rw [S.string h hstring]
    exact (Parallel.liftAt (S.next h) _ _ _).bind fun value c₁ d₁ h₁ => .pure h₁ _
  · exact .consume_bind (.pure (S.next h) _)
  · exact .consume_bind (.pure (S.next h) _)
  · exact .consume_bind (.pure (S.next h) _)
  · refine (Parallel.ensureEnclosed _ _ h).bind fun _ c₁ d₁ h₁ => .consume_bind ?_
    exact (hparse .expression _ _ (S.next h₁)).bind fun inner c₂ d₂ h₂ =>
      .ensure_bind h₂ fun _ => .pure (S.next h₂) _
  · refine .consume_bind (.accepts_bind (S.next h) (fun _ => .pure (S.next (S.next h)) _) ?_)
    exact (hparse .arguments _ _ (S.next h)).bind fun items c₁ d₁ h₁ =>
      .ensure_bind h₁ fun _ => .pure (S.next h₁) _
  · exact hparse .path c d h
  · exact .unexpected h _

theorem callArguments_parallel (h : S.Related c d) :
    S.Parallel (callArguments (g.rules parse)) (callArguments (g.rules parse)) c d := by
  refine .ensure_bind h fun _ =>
    .accepts_bind (S.next h) (fun _ => .pure (S.next (S.next h)) _) ?_
  refine (hparse .arguments _ _ (S.next h)).bind fun items c₁ d₁ h₁ => .ensure_bind h₁ fun _ => ?_
  split
  · exact .pure (S.next h₁) _
  · exact .pure (S.next h₁) _

theorem segmentsWithin_parallel (rounds : Nat) (passed : List Segment) (h : S.Related c d) :
    S.Parallel (segmentsWithin (g.rules parse) rounds passed)
      (segmentsWithin (g.rules parse) rounds passed) c d := by
  induction rounds generalizing c d passed with
  | zero => exact .failHere _
  | succ rounds ih =>
    refine .accepts_bind h (fun hdot => ?_) (.current_bind ?_)
    · exact (propertyName_parallel (S.next h) (S.property h hdot)).bind
        fun name c₁ d₁ h₁ => ih _ h₁
    · rw [S.kind h]
      split
      · refine .consume_bind ((hparse .expression _ _ (S.next h)).bind fun index c₁ d₁ h₁ => ?_)
        exact .ensure_bind h₁ fun _ => ih _ (S.next h₁)
      · refine .current_bind ?_
        rw [S.kind h]
        split
        · split
          · exact .unexpected h _
          · exact (callArguments_parallel hparse h).bind fun arguments c₁ d₁ h₁ => .pure h₁ _
        · exact .pure h _

theorem path_parallel (h : S.Related c d) :
    S.Parallel (path (g.rules parse)) (path (g.rules parse)) c d := by
  refine .ensure_bind h fun hroot => .remaining_bind (S.next h) ?_
  rw [S.name h hroot]
  refine (segmentsWithin_parallel hparse _ _ (S.next h)).bind fun result c₁ d₁ h₁ => ?_
  split <;> exact .pure h₁ _

theorem arguments_parallel (h : S.Related c d) :
    S.Parallel (arguments (g.rules parse)) (arguments (g.rules parse)) c d := by
  have hitems : S.Parallel (items BasicKind.comma (parse .expression))
      (items BasicKind.comma (parse .expression)) c d :=
    .remaining_bind h (.itemsWithin (hparse .expression) _ h)
  exact hitems.bind fun nodes c₁ d₁ h₁ => .pure h₁ _

theorem parametersWithin_parallel (rounds : Nat) (taken : List String) (h : S.Related c d) :
    S.Parallel (parametersWithin (g.rules parse) rounds taken)
      (parametersWithin (g.rules parse) rounds taken) c d := by
  induction rounds generalizing c d taken with
  | zero => exact .failHere _
  | succ rounds ih =>
    refine .ensure_bind h fun hname => ?_
    have htext := S.name h hname
    have hmore : ∀ (default : Option Node) c₁ d₁, S.Related c₁ d₁ →
        S.Parallel (do
            if ← accepts BasicKind.comma then
              return Parameter.mk d.current.text default ::
                (← parametersWithin (g.rules parse) rounds (d.current.text :: taken))
            else return [Parameter.mk d.current.text default])
          (do
            if ← accepts BasicKind.comma then
              return Parameter.mk d.current.text default ::
                (← parametersWithin (g.rules parse) rounds (d.current.text :: taken))
            else return [Parameter.mk d.current.text default]) c₁ d₁ := by
      intro default c₁ d₁ h₁
      refine .accepts_bind h₁ (fun _ => ?_) (.pure h₁ _)
      exact (ih _ (S.next h₁)).bind fun rest c₂ d₂ h₂ => .pure h₂ _
    rw [htext]
    split
    · exact .throw (S.fault _ _ _)
    · refine .accepts_bind (S.next h) (fun _ => ?_) ?_
      · exact ((hparse .expression _ _ (S.next (S.next h))).map some).bind hmore
      · exact (Parallel.pure (S.next h) none).bind hmore

theorem parameters_parallel (h : S.Related c d) :
    S.Parallel (parameters (g.rules parse)) (parameters (g.rules parse)) c d := by
  refine (Parallel.ensureEnclosed _ _ h).bind fun _ c₁ d₁ h₁ => .consume_bind ?_
  refine .accepts_bind (S.next h₁) (fun _ => .pure (S.next (S.next h₁)) _)
    (.remaining_bind (S.next h₁) ?_)
  exact (parametersWithin_parallel hparse _ _ (S.next h₁)).bind fun params c₂ d₂ h₂ =>
    .ensure_bind h₂ fun _ => .pure (S.next h₂) _

omit hparse in
theorem names_parallel (h : S.Related c d) :
    S.Parallel (names (g.rules parse)) (names (g.rules parse)) c d := by
  have hitems : S.Parallel (items BasicKind.comma aliased) (items BasicKind.comma aliased) c d :=
    .remaining_bind h (.itemsWithin (fun _ _ => aliased_parallel) _ h)
  exact hitems.bind fun nodes c₁ d₁ h₁ => .pure h₁ _

/-- The core parsers go side by side if the constructs inside do. -/
theorem core_parallel {construct : Construct} {parser : ConstructParser}
    (hcore : core? construct = some parser) (h : S.Related c d) :
    S.Parallel (parser (g.rules parse)) (parser (g.rules parse)) c d := by
  cases construct with
  | expression =>
    obtain rfl := Option.some.inj hcore
    exact expression_parallel hparse h
  | ternary =>
    obtain rfl := Option.some.inj hcore
    exact ternary_parallel hparse h
  | binary =>
    obtain rfl := Option.some.inj hcore
    exact binary_parallel hparse h
  | unary =>
    obtain rfl := Option.some.inj hcore
    exact unary_parallel hparse h
  | primary =>
    obtain rfl := Option.some.inj hcore
    exact primary_parallel hparse h
  | path =>
    obtain rfl := Option.some.inj hcore
    exact path_parallel hparse h
  | arguments =>
    obtain rfl := Option.some.inj hcore
    exact arguments_parallel hparse h
  | parameters =>
    obtain rfl := Option.some.inj hcore
    exact parameters_parallel hparse h
  | names =>
    obtain rfl := Option.some.inj hcore
    exact names_parallel h
  | custom name => cases hcore

end

end Resemblance

/-- Every parser of the grammar is the core one of its construct.  The operators are arbitrary. -/
def Grammar.OnlyCore (g : Grammar) : Prop :=
  ∀ construct parser, g.parser? construct = some parser →
    ConstructParser.core? construct = some parser

namespace Resemblance

variable {S : Resemblance} {g : Grammar} {c d : Cursor}

theorem parallel_parseWithin (hg : g.OnlyCore) (depth : Nat) (construct : Construct)
    (h : S.Related c d) :
    S.Parallel (g.parseWithin depth construct) (g.parseWithin depth construct) c d := by
  induction depth generalizing construct c d with
  | zero => exact .failHere _
  | succ depth ih =>
    rw [Grammar.parseWithin]
    cases hparser : g.parser? construct with
    | none => exact .failHere _
    | some parser => exact core_parallel (fun inner _ _ => ih inner) (hg _ _ hparser) h

theorem parallel_parse (hg : g.OnlyCore) (construct : Construct) (h : S.Related c d) :
    S.Parallel (g.parse construct) (g.parse construct) c d :=
  .remaining_bind h (parallel_parseWithin hg _ construct h)

/-- Parses of whole inputs that resemble each other give the same tree or fail for the same
reason. -/
theorem parallel_parseAll (hg : g.OnlyCore) (construct : Construct) (h : S.Related c d) :
    S.Parallel (g.parseAll construct) (g.parseAll construct) c d := by
  refine (parallel_parse hg construct h).bind fun n c₁ d₁ h₁ => ?_
  change S.Parallel (if c₁.isEnd then Pure.pure n else Parse.unexpected "end of input")
    (if d₁.isEnd then Pure.pure n else Parse.unexpected "end of input") c₁ d₁
  have hend : c₁.isEnd = d₁.isEnd := by
    rw [Cursor.isEnd, Cursor.isEnd, Token.isEof, Token.isEof, S.kind h₁]
  rw [hend]
  split
  · exact .pure h₁ n
  · exact .unexpected h₁ _

end Resemblance

/-- What a token says wherever it stands. -/
def Token.content (t : Token) : TokenKind × String :=
  (t.kind, t.text)

/-- Two faults that differ at most in a place that they mention. -/
inductive Fault.Alike : Fault → Fault → Prop
  | refl (fault : Fault) : Alike fault fault
  | unclosed (close opener : TokenKind) (line col line' col' : Nat) :
      Alike (.unclosed close opener line col) (.unclosed close opener line' col')

theorem Cursor.content_next {c d : Cursor}
    (h : c.ahead.map Token.content = d.ahead.map Token.content) :
    c.next.ahead.map Token.content = d.next.ahead.map Token.content := by
  have hcoming := (List.cons.inj h).2
  unfold Cursor.next
  cases hc : c.coming with
  | nil =>
    have hd : d.coming = [] := by simpa [hc] using hcoming.symm
    simpa only [hd] using h
  | cons t rest =>
    obtain ⟨u, us, hd⟩ : ∃ u us, d.coming = u :: us := by
      apply List.exists_cons_of_ne_nil
      rintro hd
      rw [hc, hd] at hcoming
      cases hcoming
    rw [hc, hd] at hcoming
    rw [hd]
    exact hcoming

/-- Tokens with the same contents resemble each other. -/
def Resemblance.contents : Resemblance where
  Related c d := c.ahead.map Token.content = d.ahead.map Token.content
  Alike e e' := e.fault.Alike e'.fault
  next := Cursor.content_next
  kinds {c d} h := by
    have hkinds := congrArg (List.map Prod.fst) h
    rwa [List.map_map, List.map_map] at hkinds
  name h _ := congrArg Prod.snd (List.cons.inj h).1
  number h _ := congrArg Prod.snd (List.cons.inj h).1
  string h _ := congrArg Prod.snd (List.cons.inj h).1
  property h _ := congrArg Prod.snd (List.cons.inj (Cursor.content_next h)).1
  fault fault _ _ := .refl fault
  unexpected {c d} h what := by
    obtain ⟨hkind, htext⟩ := Prod.mk.inj (List.cons.inj h).1
    have hdescribe : c.current.describe = d.current.describe := by
      rw [Token.describe, Token.describe, Token.isEof, Token.isEof, hkind, htext]
    change Fault.Alike (.expected what c.current.describe) (.expected what d.current.describe)
    rw [hdescribe]
    exact .refl _
  unclosed close opener _ _ _ _ := .unclosed close opener _ _ _ _

end ExprLang
