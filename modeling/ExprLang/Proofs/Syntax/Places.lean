import ExprLang.Proofs.Syntax.Failures
import ExprLang.Proofs.Syntax.Resemblance

/-!
# Places of grammar errors

A parse blames a token for whatever goes wrong: the token here, one that it took before, or the last
one.  No step puts tokens in or leaves the sequence.  So wherever a parse over a sequence of tokens
begins, the error that it ends with stands at the beginning of one of them
(`Grammar.OnlyCore.confined_parseAll`).
-/

namespace ExprLang

/-- A grammar error at the beginning of one of the tokens. -/
def Error.PointsTo (ts : List Token) (e : Error) : Prop :=
  e.kind = .grammar ∧ ∃ t ∈ ts, e.place = some ⟨t.span.line, t.span.col⟩

theorem Error.pointsTo_inSpan {ts : List Token} {t : Token} {fault : Fault} (ht : t ∈ ts)
    (hfault : fault.kind = .grammar) : (Error.inSpan fault t.span).PointsTo ts :=
  ⟨hfault, t, ht, rfl⟩

theorem Literal.kind_of_ofQuoted {cs : List Char} {fault : Fault}
    (h : ofQuoted cs = .error fault) : fault.kind = .grammar := by
  have hfault := faults_of_ofQuoted h
  simp only [List.mem_cons, List.not_mem_nil, or_false] at hfault
  rcases hfault with rfl | rfl | rfl | rfl <;> rfl

namespace Cursor

theorem current_mem_tokens (c : Cursor) : c.current ∈ c.tokens := by
  simp [tokens]

theorem final_mem_tokens (c : Cursor) : c.final ∈ c.tokens := by
  unfold final
  cases hlast : c.coming.getLast? with
  | none => exact c.current_mem_tokens
  | some t =>
    have hmem := List.mem_of_getLast? hlast
    simp [tokens, hmem]

theorem pointsTo_of_enclosed {c : Cursor} {opener close : TokenKind} {e : Error}
    (h : c.enclosed opener close = .error e) : e.PointsTo c.tokens := by
  unfold enclosed at h
  split at h
  · rw [← Except.error.inj h]
    exact Error.pointsTo_inSpan c.current_mem_tokens rfl
  · split at h
    · cases h
    · rw [← Except.error.inj h]
      exact Error.pointsTo_inSpan c.final_mem_tokens rfl

end Cursor

namespace Parse

variable {ts : List Token} {α β : Type} {Q : α → Prop} {R : β → Prop}

/-- A result with the property, at a cursor over the tokens, or an error that points to one of
them. -/
inductive Inside (ts : List Token) (Q : α → Prop) : Except Error α × Cursor → Prop
  | ok {a : α} {c : Cursor} (ha : Q a) (hc : c.tokens = ts) : Inside ts Q (.ok a, c)
  | error {e : Error} {c : Cursor} (he : e.PointsTo ts) : Inside ts Q (.error e, c)

/-- Wherever it begins in the tokens, the step stays inside. -/
def Confined (ts : List Token) (Q : α → Prop) (p : Parse α) : Prop :=
  ∀ c : Cursor, c.tokens = ts → Inside ts Q (p.start c)

namespace Confined

theorem bind {p : Parse α} {f : α → Parse β} (hp : Confined ts Q p)
    (hf : ∀ a, Q a → Confined ts R (f a)) : Confined ts R (p >>= f) := by
  intro c hc
  have hfirst := hp c hc
  rw [start_bind]
  generalize p.start c = outcome at hfirst
  cases hfirst with
  | ok ha hc' => exact hf _ ha _ hc'
  | error he => exact .error he

theorem pure {a : α} (ha : Q a) : Confined ts Q (Pure.pure a : Parse α) :=
  fun _ hc => .ok ha hc

theorem map {p : Parse α} {f : α → β} (hp : Confined ts Q p) (hf : ∀ a, Q a → R (f a)) :
    Confined ts R (f <$> p) := by
  rw [← bind_pure_comp]
  exact hp.bind fun a ha => pure (hf a ha)

theorem throw {t : Token} {fault : Fault} (ht : t ∈ ts) (hfault : fault.kind = .grammar) :
    Confined ts Q (MonadExcept.throw (Error.inSpan fault t.span) : Parse α) :=
  fun _ _ => .error (Error.pointsTo_inSpan ht hfault)

theorem current : Confined ts (· ∈ ts) Parse.current := by
  rintro c rfl
  exact .ok c.current_mem_tokens rfl

theorem consume : Confined ts (· ∈ ts) Parse.consume := by
  rintro c rfl
  exact .ok c.current_mem_tokens c.tokens_next

theorem remaining : Confined ts (fun _ => True) Parse.remaining :=
  fun _ hc => .ok trivial hc

theorem accept? (kind : TokenKind) : Confined ts (fun t => ∀ u ∈ t, u ∈ ts) (Parse.accept? kind) := by
  refine current.bind fun t _ => ?_
  split
  · exact consume.bind fun u hu => pure fun v hv => Option.some.inj hv ▸ hu
  · exact pure nofun

theorem accepts (kind : TokenKind) : Confined ts (fun _ => True) (Parse.accepts kind) :=
  (accept? kind).bind fun _ _ => pure trivial

theorem unexpected (what : String) : Confined ts Q (Parse.unexpected what : Parse α) := by
  rintro c rfl
  exact .error (Error.pointsTo_inSpan c.current_mem_tokens rfl)

theorem failHere {fault : Fault} (hfault : fault.kind = .grammar) :
    Confined ts Q (Parse.failHere fault : Parse α) :=
  current.bind fun _ ht => throw ht hfault

theorem ensure (kind : TokenKind) : Confined ts (· ∈ ts) (Parse.ensure kind) := by
  refine (accept? kind).bind fun t ht => ?_
  split
  · exact pure (ht _ rfl)
  · exact unexpected _

theorem ensureEnclosed (opener close : TokenKind) :
    Confined ts (fun _ => True) (Parse.ensureEnclosed opener close) := by
  rintro c rfl
  rw [start_ensureEnclosed]
  cases hrange : c.enclosed opener close with
  | ok range => exact .ok trivial rfl
  | error e => exact .error (Cursor.pointsTo_of_enclosed hrange)

theorem liftAt {t : Token} (ht : t ∈ ts) {result : Except Fault α}
    (h : ∀ fault, result = .error fault → fault.kind = .grammar) :
    Confined ts (fun _ => True) (Parse.liftAt t result) := by
  cases result with
  | ok a => exact pure trivial
  | error fault => exact throw ht (h fault rfl)

theorem items {separator : TokenKind} {item : Parse α} (hitem : Confined ts Q item) :
    Confined ts (fun _ => True) (Parse.items separator item) := by
  have hwithin (rounds : Nat) : Confined ts (fun _ => True) (itemsWithin separator item rounds) := by
    induction rounds with
    | zero => exact failHere rfl
    | succ rounds ih =>
      refine hitem.bind fun first _ => (accepts separator).bind fun more _ => ?_
      split
      · exact ih.bind fun rest _ => pure trivial
      · exact pure trivial
  exact remaining.bind fun rounds _ => hwithin (rounds + 1)

end Confined

end Parse

namespace ConstructParser

open Parse (Confined)
open Parse.Confined

variable {ts : List Token} {g : Grammar} {parse : Construct → Parse Node}

theorem propertyName_confined : Confined ts (fun _ => True) propertyName := by
  refine current.bind fun t _ => ?_
  split
  · exact consume.bind fun word _ => .pure trivial
  · exact .unexpected _

theorem dottedWithin_confined (rounds : Nat) : Confined ts (fun _ => True) (dottedWithin rounds) := by
  induction rounds with
  | zero => exact .failHere rfl
  | succ rounds ih =>
    refine (accepts _).bind fun isDot _ => ?_
    split
    · exact propertyName_confined.bind fun word _ => ih.bind fun rest _ => .pure trivial
    · exact .pure trivial

theorem aliased_confined : Confined ts (fun _ => True) aliased := by
  refine (ensure _).bind fun root _ => remaining.bind fun rounds _ =>
    (dottedWithin_confined _).bind fun rest _ => (accepts _).bind fun isAs _ => ?_
  split
  · exact (ensure _).bind fun given _ => .pure trivial
  · exact .pure trivial

section

variable (hparse : ∀ construct, Confined ts (fun _ => True) (parse construct))
include hparse

theorem ternary_confined : Confined ts (fun _ => True) (ternary (g.rules parse)) := by
  refine (hparse .binary).bind fun condition _ => (accepts _).bind fun isQuestion _ => ?_
  split
  · exact (hparse .expression).bind fun positive _ => (ensure _).bind fun colon _ =>
      (hparse .expression).bind fun negative _ => .pure trivial
  · exact .pure trivial

theorem climb_confined (rounds : Nat) :
    (∀ least, Confined ts (fun _ => True) (climb (g.rules parse) rounds least)) ∧
      ∀ least left, Confined ts (fun _ => True) (extend (g.rules parse) rounds least left) := by
  induction rounds with
  | zero => exact ⟨fun _ => .failHere rfl, fun _ _ => .failHere rfl⟩
  | succ rounds ih =>
    obtain ⟨ihclimb, ihextend⟩ := ih
    refine ⟨fun least => (hparse .unary).bind fun left _ => ihextend least left, ?_⟩
    intro least left
    have hfound : Confined ts (fun _ => True) (operatorFrom? (g.rules parse) least) :=
      current.bind fun t _ => .pure trivial
    refine hfound.bind fun found _ => ?_
    cases found with
    | none => exact .pure trivial
    | some op =>
      exact consume.bind fun t _ => (ihclimb op.rightLeast).bind fun right _ => ihextend least _

theorem unary_confined : Confined ts (fun _ => True) (unary (g.rules parse)) := by
  refine current.bind fun t _ => ?_
  split
  · exact consume.bind fun u _ => (hparse .unary).bind fun operand _ => .pure trivial
  · refine (hparse .primary).bind fun operand _ => current.bind fun u _ => ?_
    split
    · exact consume.bind fun v _ => .pure trivial
    · exact .pure trivial

theorem primary_confined : Confined ts (fun _ => True) (primary (g.rules parse)) := by
  refine current.bind fun t _ => ?_
  split
  · refine consume.bind fun number hnumber => ?_
    split
    · exact .pure trivial
    · exact .throw hnumber rfl
  · exact consume.bind fun text htext =>
      (liftAt htext fun _ => Literal.kind_of_ofQuoted).bind fun value _ => .pure trivial
  · exact consume.bind fun u _ => .pure trivial
  · exact consume.bind fun u _ => .pure trivial
  · exact consume.bind fun u _ => .pure trivial
  · exact (ensureEnclosed _ _).bind fun _ _ => consume.bind fun u _ =>
      (hparse .expression).bind fun inner _ => (ensure _).bind fun close _ => .pure trivial
  · refine consume.bind fun u _ => (accepts _).bind fun isClosed _ => ?_
    split
    · exact .pure trivial
    · exact (hparse .arguments).bind fun items _ => (ensure _).bind fun close _ => .pure trivial
  · exact hparse .path
  · exact .unexpected _

theorem callArguments_confined : Confined ts (fun _ => True) (callArguments (g.rules parse)) := by
  refine (ensure _).bind fun opener _ => (accepts _).bind fun isClosed _ => ?_
  split
  · exact .pure trivial
  · refine (hparse .arguments).bind fun items _ => (ensure _).bind fun close _ => ?_
    split <;> exact .pure trivial

theorem segmentsWithin_confined (rounds : Nat) (passed : List Segment) :
    Confined ts (fun _ => True) (segmentsWithin (g.rules parse) rounds passed) := by
  induction rounds generalizing passed with
  | zero => exact .failHere rfl
  | succ rounds ih =>
    refine (accepts _).bind fun isDot _ => ?_
    split
    · exact propertyName_confined.bind fun name _ => ih _
    · refine current.bind fun t _ => ?_
      split
      · exact consume.bind fun opener _ => (hparse .expression).bind fun index _ =>
          (ensure _).bind fun close _ => ih _
      · refine current.bind fun u _ => ?_
        split
        · split
          · exact .unexpected _
          · exact (callArguments_confined hparse).bind fun arguments _ => .pure trivial
        · exact .pure trivial

theorem path_confined : Confined ts (fun _ => True) (path (g.rules parse)) := by
  refine (ensure _).bind fun root _ => remaining.bind fun rounds _ =>
    (segmentsWithin_confined hparse _ _).bind fun result _ => ?_
  split <;> exact .pure trivial

theorem parametersWithin_confined (rounds : Nat) (taken : List String) :
    Confined ts (fun _ => True) (parametersWithin (g.rules parse) rounds taken) := by
  induction rounds generalizing taken with
  | zero => exact .failHere rfl
  | succ rounds ih =>
    refine (ensure _).bind fun name hname => ?_
    have hmore : ∀ default : Option Node, Confined ts (fun _ => True) (do
        if ← Parse.accepts BasicKind.comma then
          return Parameter.mk name.text default ::
            (← parametersWithin (g.rules parse) rounds (name.text :: taken))
        else return [Parameter.mk name.text default]) := by
      refine fun default => (accepts _).bind fun isComma _ => ?_
      split
      · exact (ih _).bind fun rest _ => .pure trivial
      · exact .pure trivial
    split
    · exact .throw hname rfl
    · refine (accepts _).bind fun isColon _ => ?_
      split
      · have hdefault : Confined ts (fun _ => True) (some <$> parse .expression) :=
          (hparse .expression).map fun _ _ => trivial
        exact hdefault.bind fun default _ => hmore default
      · exact hmore none

theorem parameters_confined : Confined ts (fun _ => True) (parameters (g.rules parse)) := by
  refine (ensureEnclosed _ _).bind fun _ _ => consume.bind fun opener _ =>
    (accepts _).bind fun isClosed _ => ?_
  split
  · exact .pure trivial
  · exact remaining.bind fun rounds _ => (parametersWithin_confined hparse _ _).bind fun params _ =>
      (ensure _).bind fun close _ => .pure trivial

/-- The core parsers stay inside if the constructs in them do. -/
theorem core_confined {construct : Construct} {parser : ConstructParser}
    (hcore : core? construct = some parser) :
    Confined ts (fun _ => True) (parser (g.rules parse)) := by
  cases construct with
  | expression =>
    obtain rfl := Option.some.inj hcore
    exact hparse .ternary
  | ternary =>
    obtain rfl := Option.some.inj hcore
    exact ternary_confined hparse
  | binary =>
    obtain rfl := Option.some.inj hcore
    exact remaining.bind fun rounds _ => (climb_confined hparse _).1 0
  | unary =>
    obtain rfl := Option.some.inj hcore
    exact unary_confined hparse
  | primary =>
    obtain rfl := Option.some.inj hcore
    exact primary_confined hparse
  | path =>
    obtain rfl := Option.some.inj hcore
    exact path_confined hparse
  | arguments =>
    obtain rfl := Option.some.inj hcore
    exact (items (hparse .expression)).bind fun nodes _ => .pure trivial
  | parameters =>
    obtain rfl := Option.some.inj hcore
    exact parameters_confined hparse
  | names =>
    obtain rfl := Option.some.inj hcore
    exact (items aliased_confined).bind fun nodes _ => .pure trivial
  | custom name => cases hcore

end

end ConstructParser

namespace Grammar.OnlyCore

open Parse (Confined)

variable {g : Grammar} {ts : List Token}

theorem confined_parseWithin (hg : g.OnlyCore) (depth : Nat) (construct : Construct) :
    Confined ts (fun _ => True) (g.parseWithin depth construct) := by
  induction depth generalizing construct with
  | zero => exact .failHere rfl
  | succ depth ih =>
    rw [parseWithin]
    cases hparser : g.parser? construct with
    | none => exact .failHere rfl
    | some parser => exact ConstructParser.core_confined ih (hg _ _ hparser)

/-- Whatever the operators are, a parse over tokens fails at one of them. -/
theorem confined_parseAll (hg : g.OnlyCore) (construct : Construct) :
    Confined ts (fun _ => True) (g.parseAll construct) := by
  have hparse : Confined ts (fun _ => True) (g.parse construct) :=
    Confined.remaining.bind fun rounds _ => hg.confined_parseWithin _ construct
  refine hparse.bind fun n _ => ?_
  have hget : Confined ts (fun _ => True) (get : Parse Cursor) := fun _ hc => .ok trivial hc
  refine hget.bind fun c _ => ?_
  split
  · exact .pure trivial
  · exact .unexpected _

end Grammar.OnlyCore

end ExprLang
