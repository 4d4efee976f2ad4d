import ExprLang.Proofs.Syntax.Soundness

/-!
# Constructs inside one another

Parsing limits how deep constructs stand inside one another.  The limit is never reached: a
construct asks for another one only at a place with fewer tokens to come, or at its own place for
one of lower rank.  With as much depth as the tokens to come and the rank call for, more depth
changes nothing (`KeepsCore.start_parseWithin`), and so parsing a construct is running its parser
over the rules of the grammar (`KeepsCore.start_parse`).

The exception is an operator in front of an operand that is spelled by an end token.  At the last
token it asks for a unary expression at its own place over and over, whatever the depth is.
-/

namespace ExprLang

open Parse Cursor

/-- The place of the construct among those that are asked for at one place: each asks for others of
lower rank only. -/
def Construct.rank : Construct → Nat
  | .path | .parameters | .names | .custom _ => 1
  | .primary => 2
  | .unary => 3
  | .binary => 4
  | .ternary => 5
  | .expression => 6
  | .arguments => 7

theorem Construct.rank_pos (construct : Construct) : 0 < construct.rank := by
  cases construct <;> simp [rank]

theorem Construct.rank_le (construct : Construct) : construct.rank ≤ 7 := by
  cases construct <;> simp [rank]

/-- How deep constructs can stand inside one another from here on. -/
def Cursor.height (c : Cursor) (construct : Construct) : Nat :=
  7 * c.coming.length + construct.rank

/-- A construct one token further on needs less depth than any construct here. -/
theorem Cursor.Closed.height_lt {c c₁ c₂ : Cursor} (hc : c.Closed) {ts : List Token}
    (hts : c.Walk ts c₁) (hkind : c₁.current.kind ≠ BasicKind.eof)
    (hrest : c₂.coming.length ≤ c₁.next.coming.length) (construct inner : Construct) :
    c₂.height inner < c.height construct := by
  have hstep := (hc.walk hts).length_coming_next hkind
  have hle := hts.coming_le
  have hinner := inner.rank_le
  have hrank := construct.rank_pos
  unfold height
  omega

namespace Parse

variable {α β : Type} {c : Cursor}

/-- The two steps do the same at `c`, and they only move on from there. -/
structure Agree (p q : Parse α) (c : Cursor) : Prop where
  start_eq : p.start c = q.start c
  walk : ∀ a c', p.Gives c a c' → ∃ ts, c.Walk ts c'

namespace Agree

theorem of_walk {p : Parse α} (hwalk : ∀ a c', p.Gives c a c' → ∃ ts, c.Walk ts c') :
    Agree p p c :=
  ⟨rfl, hwalk⟩

theorem bind {p q : Parse α} {f h : α → Parse β} (hfirst : Agree p q c)
    (hrest : ∀ a c' ts, p.Gives c a c' → c.Walk ts c' → Agree (f a) (h a) c') :
    Agree (p >>= f) (q >>= h) c := by
  constructor
  · rw [start_bind, start_bind, ← hfirst.start_eq]
    rcases hp : p.start c with ⟨e | a, c'⟩
    · rfl
    · obtain ⟨ts, hts⟩ := hfirst.walk a c' hp
      exact (hrest a c' ts hp hts).start_eq
  · intro b c'' hgives
    obtain ⟨a, c', hp, hf⟩ := gives_bind.1 hgives
    obtain ⟨ts, hts⟩ := hfirst.walk a c' hp
    obtain ⟨us, hus⟩ := (hrest a c' ts hp hts).walk b c'' hf
    exact ⟨ts ++ us, hts.append hus⟩

theorem map {p q : Parse α} (f : α → β) (h : Agree p q c) : Agree (f <$> p) (f <$> q) c := by
  rw [← bind_pure_comp, ← bind_pure_comp]
  exact h.bind fun a c' ts _ _ => of_walk fun b c'' hb => ⟨[], (gives_pure.1 hb).2⟩

theorem pure (a : α) : Agree (Pure.pure a) (Pure.pure a) c :=
  of_walk fun _ _ h => ⟨[], (gives_pure.1 h).2⟩

theorem throw (e : Error) : Agree (MonadExcept.throw e : Parse α) (MonadExcept.throw e) c :=
  of_walk fun _ _ h => absurd h not_gives_throw

theorem failHere (fault : Fault) :
    Agree (Parse.failHere fault : Parse α) (Parse.failHere fault) c :=
  of_walk fun _ _ h => absurd h not_gives_failHere

theorem unexpected (what : String) :
    Agree (Parse.unexpected what : Parse α) (Parse.unexpected what) c :=
  of_walk fun _ _ h => absurd h not_gives_unexpected

theorem liftAt (token : Token) (result : Except Fault α) :
    Agree (Parse.liftAt token result) (Parse.liftAt token result) c :=
  of_walk fun _ _ h => ⟨[], (gives_liftAt.1 h).2⟩

/-- What needs only the token here does the same if it does the same for this token. -/
theorem current_bind {f h : Token → Parse β} (hrest : Agree (f c.current) (h c.current) c) :
    Agree (Parse.current >>= f) (Parse.current >>= h) c :=
  (of_walk fun _ _ hgives => ⟨[], (gives_current.1 hgives).2⟩).bind fun a c' ts hgives _ => by
    obtain ⟨rfl, rfl⟩ := gives_current.1 hgives
    exact hrest

theorem remaining_bind {f h : Nat → Parse β}
    (hrest : Agree (f c.coming.length) (h c.coming.length) c) :
    Agree (Parse.remaining >>= f) (Parse.remaining >>= h) c :=
  (of_walk fun _ _ hgives => ⟨[], (gives_remaining.1 hgives).2⟩).bind fun a c' ts hgives _ => by
    obtain ⟨rfl, rfl⟩ := gives_remaining.1 hgives
    exact hrest

theorem consume_bind {f h : Token → Parse β} (hrest : Agree (f c.current) (h c.current) c.next) :
    Agree (Parse.consume >>= f) (Parse.consume >>= h) c :=
  (of_walk fun _ _ hgives => ⟨_, (gives_consume.1 hgives).2 ▸ c.walk_singleton⟩).bind
    fun a c' ts hgives _ => by
      obtain ⟨rfl, rfl⟩ := gives_consume.1 hgives
      exact hrest

theorem ensure_bind {kind : TokenKind} {f h : Token → Parse β}
    (hrest : c.current.kind = kind → Agree (f c.current) (h c.current) c.next) :
    Agree (Parse.ensure kind >>= f) (Parse.ensure kind >>= h) c :=
  (of_walk fun _ _ hgives => ⟨_, (gives_ensure.1 hgives).2.2 ▸ c.walk_singleton⟩).bind
    fun a c' ts hgives _ => by
      obtain ⟨rfl, hkind, rfl⟩ := gives_ensure.1 hgives
      exact hrest hkind

theorem ensureEnclosed_bind {opener close : TokenKind} {f h : Unit → Parse β}
    (hrest : c.current.kind = opener → Agree (f ()) (h ()) c) :
    Agree (Parse.ensureEnclosed opener close >>= f) (Parse.ensureEnclosed opener close >>= h) c :=
  (of_walk fun _ _ hgives => ⟨[], (gives_ensureEnclosed.1 hgives).2⟩).bind
    fun a c' ts hgives _ => by
      obtain ⟨⟨range, hrange⟩, rfl⟩ := gives_ensureEnclosed.1 hgives
      exact hrest (kind_of_enclosed hrange)

/-- What goes on with or without a token of the kind does the same if it does so in both cases. -/
theorem accepts_bind {kind : TokenKind} {f h : Bool → Parse β}
    (htaken : c.current.kind = kind → Agree (f true) (h true) c.next)
    (hleft : c.current.kind ≠ kind → Agree (f false) (h false) c) :
    Agree (Parse.accepts kind >>= f) (Parse.accepts kind >>= h) c := by
  refine (of_walk fun b c' hgives => ?_).bind fun b c' ts hgives _ => ?_
  · rcases gives_accepts.1 hgives with ⟨-, -, rfl⟩ | ⟨-, -, rfl⟩
    · exact ⟨_, c.walk_singleton⟩
    · exact ⟨[], rfl⟩
  · rcases gives_accepts.1 hgives with ⟨rfl, hkind, rfl⟩ | ⟨rfl, hkind, rfl⟩
    · exact htaken hkind
    · exact hleft hkind

/-- Steps over items agree if the items do at all places further on. -/
theorem itemsWithin {separator : TokenKind} {item item' : Parse α} {n : Nat}
    (hitem : ∀ c : Cursor, c.Closed → c.coming.length ≤ n → Agree item item' c) (rounds : Nat)
    (hc : c.Closed) (hn : c.coming.length ≤ n) :
    Agree (Parse.itemsWithin separator item rounds) (Parse.itemsWithin separator item' rounds) c := by
  induction rounds generalizing c with
  | zero => exact failHere _
  | succ rounds ih =>
    refine (hitem c hc hn).bind fun first c' ts _ hts => accepts_bind (fun _ => ?_) fun _ => ?_
    · have hc' := hc.walk hts
      have hle := hts.coming_le
      have hnext := c'.coming_next_le
      exact (ih hc'.next (by omega)).bind fun _ _ _ _ _ => pure _
    · exact pure _

end Agree

end Parse

/-- Two ways to parse constructs agree wherever less depth is needed than `bound`. -/
def AgreeBelow (parse parse' : Construct → Parse Node) (bound : Nat) : Prop :=
  ∀ construct ∈ Construct.core, ∀ c : Cursor, c.Closed → c.height construct < bound →
    Agree (parse construct) (parse' construct) c

namespace ConstructParser

variable {g : Grammar} {parse parse' : Construct → Parse Node} {c : Cursor}

theorem exists_core? {construct : Construct} (hcore : construct ∈ Construct.core) :
    ∃ parser, core? construct = some parser := by
  cases construct with
  | custom name => simp [Construct.core] at hcore
  | _ => exact ⟨_, rfl⟩

theorem mem_core {construct : Construct} {parser : ConstructParser}
    (hparser : core? construct = some parser) : construct ∈ Construct.core := by
  cases construct with
  | custom name => cases hparser
  | _ => decide

theorem expression_agree (hc : c.Closed) (h : AgreeBelow parse parse' (c.height .expression)) :
    Agree (expression (g.rules parse)) (expression (g.rules parse')) c :=
  h _ (by decide) c hc (by simp [height, Construct.rank])

theorem ternary_agree (hc : c.Closed) (h : AgreeBelow parse parse' (c.height .ternary)) :
    Agree (ternary (g.rules parse)) (ternary (g.rules parse')) c := by
  refine (h .binary (by decide) c hc (by simp [height, Construct.rank])).bind
    fun condition c₁ cs _ hcs => .accepts_bind (fun hquestion => ?_) fun _ => .pure _
  have hc₁ := hc.walk hcs
  have hkind : c₁.current.kind ≠ BasicKind.eof := by simp [hquestion]
  refine (h .expression (by decide) _ hc₁.next (hc.height_lt hcs hkind le_rfl _ _)).bind
    fun positive c₂ ps _ hps => .ensure_bind fun _ => ?_
  have hc₂ := hc₁.next.walk hps
  have hle := c₂.coming_next_le.trans hps.coming_le
  exact (h .expression (by decide) _ hc₂.next (hc.height_lt hcs hkind hle _ _)).bind
    fun negative c₃ ns _ _ => .pure _

/-- Climbing agrees if unary expressions do at all places further on. -/
theorem climb_agree {n : Nat}
    (hunary : ∀ c : Cursor, c.Closed → c.coming.length ≤ n →
      Agree (parse .unary) (parse' .unary) c) (rounds : Nat) :
    (∀ least (c : Cursor), c.Closed → c.coming.length ≤ n →
        Agree (climb (g.rules parse) rounds least) (climb (g.rules parse') rounds least) c) ∧
      ∀ least left (c : Cursor), c.Closed → c.coming.length ≤ n →
        Agree (extend (g.rules parse) rounds least left)
          (extend (g.rules parse') rounds least left) c := by
  induction rounds with
  | zero => exact ⟨fun _ _ _ _ => .failHere _, fun _ _ _ _ _ => .failHere _⟩
  | succ rounds ih =>
    obtain ⟨ihclimb, ihextend⟩ := ih
    constructor
    · intro least c hc hn
      exact (hunary c hc hn).bind fun left c₁ ts _ hts =>
        ihextend least left c₁ (hc.walk hts) (hts.coming_le.trans hn)
    · intro least left c hc hn
      refine (Agree.of_walk fun found c₁ h => ⟨[], (gives_operatorFrom?.1 h).2⟩).bind
        fun found c₁ ts hfound hts => ?_
      obtain ⟨-, rfl⟩ := gives_operatorFrom?.1 hfound
      cases found with
      | none => exact .pure _
      | some op =>
        have hle := c₁.coming_next_le.trans hn
        refine .consume_bind ((ihclimb op.rightLeast _ hc.next hle).bind fun right c₂ us _ hus => ?_)
        exact ihextend least _ c₂ (hc.next.walk hus) (hus.coming_le.trans hle)

theorem binary_agree (hc : c.Closed) (h : AgreeBelow parse parse' (c.height .binary)) :
    Agree (binary (g.rules parse)) (binary (g.rules parse')) c := by
  have hunary : ∀ c₁ : Cursor, c₁.Closed → c₁.coming.length ≤ c.coming.length →
      Agree (parse .unary) (parse' .unary) c₁ := fun c₁ hc₁ hle =>
    h .unary (by decide) c₁ hc₁ (by simp only [height, Construct.rank]; omega)
  exact .remaining_bind ((climb_agree hunary _).1 0 c hc le_rfl)

/-- An operator in front that is spelled by the last token is not passed by. -/
theorem unary_agree (hc : c.Closed) (h : AgreeBelow parse parse' (c.height .unary))
    (hlast : c.coming = [] → g.before? c.current.kind ≠ none →
      Agree (parse .unary) (parse' .unary) c) :
    Agree (unary (g.rules parse)) (unary (g.rules parse')) c := by
  refine .current_bind ?_
  cases hop : g.before? c.current.kind with
  | some op =>
    simp only [Grammar.rules_before?, hop]
    refine .consume_bind (Agree.bind ?_ fun _ _ _ _ _ => .pure _)
    cases hcoming : c.coming with
    | nil =>
      have hnext : c.next = c := by simp [Cursor.next, hcoming]
      rw [hnext]
      exact hlast hcoming (by simp [hop])
    | cons t rest =>
      apply h .unary (by decide) _ hc.next
      simp [height, Cursor.next, hcoming]
  | none =>
    simp only [Grammar.rules_before?, hop]
    refine (h .primary (by decide) c hc (by simp [height, Construct.rank])).bind
      fun operand c₁ ts _ _ => .current_bind ?_
    simp only [Grammar.rules_after?]
    split
    · exact .consume_bind (.pure _)
    · exact .pure _

theorem primary_agree (hc : c.Closed) (h : AgreeBelow parse parse' (c.height .primary)) :
    Agree (primary (g.rules parse)) (primary (g.rules parse')) c := by
  refine .current_bind ?_
  have hinside : c.current.kind ≠ BasicKind.eof → ∀ construct ∈ Construct.core,
      Agree (parse construct) (parse' construct) c.next := fun hkind construct hcore =>
    h construct hcore c.next hc.next (hc.height_lt (walk_nil c c |>.2 rfl) hkind le_rfl _ _)
  split
  · refine .consume_bind ?_
    split
    · exact .pure _
    · exact .throw _
  · exact .consume_bind ((Agree.liftAt _ _).bind fun _ _ _ _ _ => .pure _)
  · exact .consume_bind (.pure _)
  · exact .consume_bind (.pure _)
  · exact .consume_bind (.pure _)
  · rename_i hkind
    refine .ensureEnclosed_bind fun _ => .consume_bind ?_
    exact (hinside (by simp [hkind]) .expression (by decide)).bind
      fun _ _ _ _ _ => .ensure_bind fun _ => .pure _
  · rename_i hkind
    refine .consume_bind (.accepts_bind (fun _ => .pure _) fun _ => ?_)
    exact (hinside (by simp [hkind]) .arguments (by decide)).bind
      fun _ _ _ _ _ => .ensure_bind fun _ => .pure _
  · exact h .path (by decide) c hc (by simp [height, Construct.rank])
  · exact .unexpected _

theorem callArguments_agree {n : Nat}
    (harguments : ∀ c : Cursor, c.Closed → c.coming.length ≤ n →
      Agree (parse .arguments) (parse' .arguments) c)
    (hc : c.Closed) (hn : c.coming.length ≤ n) :
    Agree (callArguments (g.rules parse)) (callArguments (g.rules parse')) c := by
  refine .ensure_bind fun _ => .accepts_bind (fun _ => .pure _) fun _ => ?_
  refine (harguments _ hc.next (c.coming_next_le.trans hn)).bind fun items c₁ _ _ _ =>
    .ensure_bind fun _ => ?_
  split <;> exact .pure _

theorem segmentsWithin_agree {n : Nat}
    (hexpression : ∀ c : Cursor, c.Closed → c.coming.length ≤ n →
      Agree (parse .expression) (parse' .expression) c)
    (harguments : ∀ c : Cursor, c.Closed → c.coming.length ≤ n →
      Agree (parse .arguments) (parse' .arguments) c)
    (rounds : Nat) (passed : List Segment) (hc : c.Closed) (hn : c.coming.length ≤ n) :
    Agree (segmentsWithin (g.rules parse) rounds passed)
      (segmentsWithin (g.rules parse') rounds passed) c := by
  induction rounds generalizing c passed with
  | zero => exact .failHere _
  | succ rounds ih =>
    refine .accepts_bind (fun _ => ?_) fun _ => .current_bind ?_
    · have hle := c.coming_next_le.trans hn
      refine Agree.bind ?_ fun name c₁ ts _ hts =>
        ih _ (hc.next.walk hts) (hts.coming_le.trans hle)
      refine .current_bind ?_
      split
      · exact .consume_bind (.pure _)
      · exact .unexpected _
    · split
      · have hle := c.coming_next_le.trans hn
        refine .consume_bind ((hexpression _ hc.next hle).bind fun index c₁ ts _ hts =>
          .ensure_bind fun _ => ?_)
        have hc₁ := hc.next.walk hts
        exact ih _ hc₁.next (c₁.coming_next_le.trans (hts.coming_le.trans hle))
      · refine .current_bind ?_
        split
        · split
          · exact .unexpected _
          · exact (callArguments_agree harguments hc hn).bind fun _ _ _ _ _ => .pure _
        · exact .pure _

theorem path_agree (hc : c.Closed) (h : AgreeBelow parse parse' (c.height .path)) :
    Agree (path (g.rules parse)) (path (g.rules parse')) c := by
  refine .ensure_bind fun hroot => .remaining_bind ?_
  have hinside : ∀ construct ∈ Construct.core, ∀ c₁ : Cursor, c₁.Closed →
      c₁.coming.length ≤ c.next.coming.length →
        Agree (parse construct) (parse' construct) c₁ := fun construct hcore c₁ hc₁ hle =>
    h construct hcore c₁ hc₁
      (hc.height_lt (walk_nil c c |>.2 rfl) (by simp [hroot]) hle _ _)
  refine (segmentsWithin_agree (hinside _ (by decide)) (hinside _ (by decide)) _ _ hc.next
    le_rfl).bind fun result c₁ ts _ _ => ?_
  split <;> exact .pure _

theorem arguments_agree (hc : c.Closed) (h : AgreeBelow parse parse' (c.height .arguments)) :
    Agree (arguments (g.rules parse)) (arguments (g.rules parse')) c := by
  have hexpression : ∀ c₁ : Cursor, c₁.Closed → c₁.coming.length ≤ c.coming.length →
      Agree (parse .expression) (parse' .expression) c₁ := fun c₁ hc₁ hle =>
    h .expression (by decide) c₁ hc₁ (by simp only [height, Construct.rank]; omega)
  refine Agree.bind ?_ fun _ _ _ _ _ => .pure _
  exact .remaining_bind (Agree.itemsWithin hexpression _ hc le_rfl)

theorem parametersWithin_agree {n : Nat}
    (hexpression : ∀ c : Cursor, c.Closed → c.coming.length ≤ n →
      Agree (parse .expression) (parse' .expression) c)
    (rounds : Nat) (taken : List String) (hc : c.Closed) (hn : c.coming.length ≤ n) :
    Agree (parametersWithin (g.rules parse) rounds taken)
      (parametersWithin (g.rules parse') rounds taken) c := by
  induction rounds generalizing c taken with
  | zero => exact .failHere _
  | succ rounds ih =>
    refine .ensure_bind fun _ => ?_
    have hle := c.coming_next_le.trans hn
    have hmore : ∀ (default : Option Node) (c₁ : Cursor) ts, c.next.Walk ts c₁ →
        Agree (do
            if ← accepts BasicKind.comma then
              return Parameter.mk c.current.text default ::
                (← parametersWithin (g.rules parse) rounds (c.current.text :: taken))
            else return [Parameter.mk c.current.text default])
          (do
            if ← accepts BasicKind.comma then
              return Parameter.mk c.current.text default ::
                (← parametersWithin (g.rules parse') rounds (c.current.text :: taken))
            else return [Parameter.mk c.current.text default]) c₁ := by
      intro default c₁ ts hts
      refine .accepts_bind (fun _ => ?_) fun _ => .pure _
      have hlast := c₁.coming_next_le.trans (hts.coming_le.trans hle)
      exact (ih _ (hc.next.walk hts).next hlast).bind fun _ _ _ _ _ => .pure _
    split
    · exact .throw _
    · refine .accepts_bind (fun _ => ?_) fun _ => ?_
      · refine ((hexpression _ hc.next.next (c.next.coming_next_le.trans hle)).map _).bind
          fun default c₁ ts _ hts => hmore default c₁ _ (.cons hts)
      · exact (Agree.pure _).bind fun default c₁ ts _ hts => hmore default c₁ ts hts

theorem parameters_agree (hc : c.Closed) (h : AgreeBelow parse parse' (c.height .parameters)) :
    Agree (parameters (g.rules parse)) (parameters (g.rules parse')) c := by
  refine .ensureEnclosed_bind fun hopener => .consume_bind ?_
  refine .accepts_bind (fun _ => .pure _) fun _ => .remaining_bind ?_
  have hexpression : ∀ c₁ : Cursor, c₁.Closed → c₁.coming.length ≤ c.next.coming.length →
      Agree (parse .expression) (parse' .expression) c₁ := fun c₁ hc₁ hle =>
    h .expression (by decide) c₁ hc₁
      (hc.height_lt (walk_nil c c |>.2 rfl) (by simp [hopener]) hle _ _)
  exact (parametersWithin_agree hexpression _ _ hc.next le_rfl).bind
    fun _ _ _ _ _ => .ensure_bind fun _ => .pure _

theorem names_agree : Agree (names (g.rules parse)) (names (g.rules parse')) c := by
  refine .of_walk fun n c' h => ?_
  obtain ⟨ts, hts, -⟩ := names_walk h
  exact ⟨ts, hts⟩

/-- A core parser does the same over rules that agree below its own construct. -/
theorem agree_of_below {parse parse' : Construct → Parse Node}
    {construct : Construct} {parser : ConstructParser} (hcore : core? construct = some parser)
    (hc : c.Closed) (h : AgreeBelow parse parse' (c.height construct))
    (hlast : c.coming = [] → g.before? c.current.kind ≠ none →
      Agree (parse .unary) (parse' .unary) c) :
    Agree (parser (g.rules parse)) (parser (g.rules parse')) c := by
  cases construct with
  | expression =>
    obtain rfl := Option.some.inj hcore
    exact expression_agree hc h
  | ternary =>
    obtain rfl := Option.some.inj hcore
    exact ternary_agree hc h
  | binary =>
    obtain rfl := Option.some.inj hcore
    exact binary_agree hc h
  | unary =>
    obtain rfl := Option.some.inj hcore
    exact unary_agree hc h hlast
  | primary =>
    obtain rfl := Option.some.inj hcore
    exact primary_agree hc h
  | path =>
    obtain rfl := Option.some.inj hcore
    exact path_agree hc h
  | arguments =>
    obtain rfl := Option.some.inj hcore
    exact arguments_agree hc h
  | parameters =>
    obtain rfl := Option.some.inj hcore
    exact parameters_agree hc h
  | names =>
    obtain rfl := Option.some.inj hcore
    exact names_agree
  | custom name => cases hcore

end ConstructParser

namespace Grammar

variable {g : Grammar} {c : Cursor}

theorem KeepsCore.agree_parseWithin (hg : g.KeepsCore) {depth : Nat} {construct : Construct}
    {p : Parse Node} (hcore : construct ∈ Construct.core)
    (h : (g.parseWithin depth construct).start c = p.start c) :
    Agree (g.parseWithin depth construct) p c := by
  refine ⟨h, fun n c' hgives => ?_⟩
  obtain ⟨ts, hts, -⟩ := hg.walk_of_parseWithin depth construct hcore c n c' hgives
  exact ⟨ts, hts⟩

/-- An operator in front that is spelled by the last token exhausts every depth. -/
theorem KeepsCore.start_unary_last (hg : g.KeepsCore) (hlast : c.coming = [])
    (hop : g.before? c.current.kind ≠ none) (depth : Nat) :
    (g.parseWithin depth .unary).start c =
      (.error (.inSpan .nestedTooDeep c.current.span), c) := by
  induction depth with
  | zero => rfl
  | succ depth ih =>
    obtain ⟨op, hop⟩ := Option.ne_none_iff_exists'.1 hop
    have hnext : c.next = c := by simp [Cursor.next, hlast]
    rw [hg.parseWithin_succ rfl, ConstructParser.unary, start_current_bind]
    simp only [rules_before?, hop]
    rw [start_consume_bind, start_bind, hnext, rules_parse, ih]

/-- With the depth that the place and the construct call for, more depth changes nothing. -/
theorem KeepsCore.start_parseWithin (hg : g.KeepsCore) {depth depth' : Nat} {construct : Construct}
    (hcore : construct ∈ Construct.core) (hc : c.Closed) (hdepth : c.height construct ≤ depth)
    (hdepth' : c.height construct ≤ depth') :
    (g.parseWithin depth construct).start c = (g.parseWithin depth' construct).start c := by
  induction depth generalizing depth' construct c with
  | zero =>
    have hrank := construct.rank_pos
    unfold height at hdepth
    omega
  | succ depth ih =>
    obtain ⟨depth', rfl⟩ := Nat.exists_eq_succ_of_ne_zero (n := depth') (by
      have hrank := construct.rank_pos
      unfold height at hdepth'
      omega)
    have hbelow : AgreeBelow (g.parseWithin depth) (g.parseWithin depth') (c.height construct) :=
      fun inner hinner c₁ hc₁ hlt =>
        hg.agree_parseWithin hinner (ih hinner hc₁ (by omega) (by omega))
    have hlast : c.coming = [] → g.before? c.current.kind ≠ none →
        Agree (g.parseWithin depth .unary) (g.parseWithin depth' .unary) c := fun hlast hop =>
      hg.agree_parseWithin (by decide) (by
        rw [hg.start_unary_last hlast hop, hg.start_unary_last hlast hop])
    obtain ⟨parser, hparser⟩ := ConstructParser.exists_core? hcore
    rw [hg.parseWithin_succ hparser, hg.parseWithin_succ hparser]
    exact (ConstructParser.agree_of_below hparser hc hbelow hlast).start_eq

theorem KeepsCore.length_parsers (hg : g.KeepsCore) : 9 ≤ g.parsers.length := by
  have hsubset : Construct.core ⊆ g.parsers.map Prod.fst := by
    intro construct hcore
    obtain ⟨parser, hparser⟩ := ConstructParser.exists_core? hcore
    obtain ⟨entry, hentry, -⟩ := Option.map_eq_some_iff.1 (hg construct parser hparser)
    have hkey := List.find?_some hentry
    exact List.mem_map.2 ⟨entry, List.mem_of_find?_eq_some hentry, by simpa using hkey⟩
  have hnodup : Construct.core.Nodup := by decide
  have hlength := (hnodup.subperm hsubset).length_le
  rwa [List.length_map] at hlength

/-- The tokens to come give enough depth for every construct. -/
theorem KeepsCore.start_parse_eq (hg : g.KeepsCore) {construct : Construct}
    (hcore : construct ∈ Construct.core) (hc : c.Closed) {depth : Nat}
    (hdepth : c.height construct ≤ depth) :
    (g.parse construct).start c = (g.parseWithin depth construct).start c := by
  have hlength := hg.length_parsers
  have hrank := construct.rank_le
  rw [Grammar.parse, start_remaining_bind]
  refine hg.start_parseWithin hcore hc ?_ hdepth
  unfold height
  nlinarith

/-- Parsing a construct is running its parser over the rules of the grammar. -/
theorem KeepsCore.start_parse (hg : g.KeepsCore) {construct : Construct} {parser : ConstructParser}
    (hparser : ConstructParser.core? construct = some parser) (hc : c.Closed) :
    (g.parse construct).start c = (parser (g.rules g.parse)).start c := by
  have hcore := ConstructParser.mem_core hparser
  rw [hg.start_parse_eq hcore hc (Nat.le_succ _), hg.parseWithin_succ hparser]
  refine (ConstructParser.agree_of_below hparser hc ?_ ?_).start_eq
  · intro inner hinner c₁ hc₁ hlt
    exact hg.agree_parseWithin hinner (hg.start_parse_eq hinner hc₁ hlt.le).symm
  · intro hlast hop
    apply hg.agree_parseWithin (by decide)
    rw [Grammar.parse, start_remaining_bind, hg.start_unary_last hlast hop,
      hg.start_unary_last hlast hop]

theorem KeepsCore.gives_parse (hg : g.KeepsCore) {construct : Construct} {parser : ConstructParser}
    (hparser : ConstructParser.core? construct = some parser) (hc : c.Closed) {n : Node}
    {c' : Cursor} :
    (g.parse construct).Gives c n c' ↔ (parser (g.rules g.parse)).Gives c n c' := by
  rw [Gives, Gives, hg.start_parse hparser hc]

end Grammar

end ExprLang
