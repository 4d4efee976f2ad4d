import ExprLang.Proofs.Syntax.Progress

/-!
# How parsing fails

`FailsWith E p c` says which errors the step `p` may end with at the cursor `c`, and where it may
stop with them.  The loops of the core parsers count their rounds, and they fail if there are too
few.  Each round takes a token, though: a loop that has used up its rounds is as many tokens further
on, and one with more rounds than tokens fails only as its constructs do.
-/

namespace ExprLang

open Parse Cursor

/-- The fault is one of the input: neither was a limit reached, nor does it come from a host. -/
def Fault.Ordinary : Fault → Prop
  | nestedTooDeep | reported _ _ _ _ => False
  | _ => True

theorem Fault.Ordinary.ne_nestedTooDeep {fault : Fault} (h : fault.Ordinary) :
    fault ≠ .nestedTooDeep := by
  rintro rfl
  exact h

theorem Literal.faults_of_unescape {cs : List Char} {fault : Fault}
    (h : unescape cs = .error fault) : fault = .invalidEscape ∨ fault = .danglingEscape := by
  have hrest {rest : List Char} {f : List Char → List Char}
      (h : (unescape rest).map f = .error fault) : unescape rest = .error fault := by
    cases hrest : unescape rest with
    | ok inside =>
      rw [hrest] at h
      cases h
    | error fault' =>
      rw [hrest] at h
      rw [Except.error.inj h]
  fun_induction unescape cs with
  | case1 => cases h
  | case3 | case4 => exact .inl (Except.error.inj h).symm
  | case9 => exact .inr (Except.error.inj h).symm
  | case2 | case5 | case6 | case7 | case8 | case10 =>
    rename_i ih
    exact ih (hrest h)

/-- What may be wrong with a text. -/
theorem Literal.faults_of_ofQuoted {cs : List Char} {fault : Fault}
    (h : ofQuoted cs = .error fault) :
    fault ∈ [Fault.emptyString, .unclosedString, .invalidEscape, .danglingEscape] := by
  unfold ofQuoted at h
  split at h
  · simp [← Except.error.inj h]
  · split at h
    · rename_i body _
      cases hbody : unescape body.dropLast with
      | ok inside =>
        rw [hbody] at h
        cases h
      | error fault' =>
        rw [hbody] at h
        rw [← Except.error.inj h]
        rcases faults_of_unescape hbody with rfl | rfl <;> simp
    · simp [← Except.error.inj h]

theorem Literal.ordinary_of_ofQuoted {cs : List Char} {fault : Fault}
    (h : ofQuoted cs = .error fault) : fault.Ordinary := by
  have hfault := faults_of_ofQuoted h
  simp only [List.mem_cons, List.not_mem_nil, or_false] at hfault
  rcases hfault with rfl | rfl | rfl | rfl <;> trivial

theorem Cursor.ordinary_of_enclosed {c : Cursor} {opener close : TokenKind} {e : Error}
    (h : c.enclosed opener close = .error e) : e.fault.Ordinary := by
  unfold enclosed at h
  split at h
  · rw [← Except.error.inj h]
    trivial
  · split at h
    · cases h
    · rw [← Except.error.inj h]
      trivial

namespace Parse

variable {α β : Type} {E : Error → Cursor → Prop} {c : Cursor}

/-- If the step at `c` ends with an error, the error and the cursor where it stops are among
these. -/
def FailsWith (E : Error → Cursor → Prop) (p : Parse α) (c : Cursor) : Prop :=
  ∀ e c', p.start c = (.error e, c') → E e c'

namespace FailsWith

theorem mono {E' : Error → Cursor → Prop} {p : Parse α} (h : FailsWith E p c)
    (hE : ∀ e c', E e c' → E' e c') : FailsWith E' p c :=
  fun e c' herror => hE e c' (h e c' herror)

theorem bind {p : Parse α} {f : α → Parse β} (hfirst : FailsWith E p c)
    (hrest : ∀ a c', p.Gives c a c' → FailsWith E (f a) c') : FailsWith E (p >>= f) c := by
  intro e c'' h
  rw [start_bind] at h
  rcases hp : p.start c with ⟨e' | a, c'⟩
  · rw [hp] at h
    obtain ⟨he, rfl⟩ := Prod.mk.inj h
    rw [Except.error.inj he] at hp
    exact hfirst e c' hp
  · rw [hp] at h
    exact hrest a c' hp e c'' h

theorem pure (a : α) : FailsWith E (Pure.pure a) c := by
  intro e c' h
  cases h

theorem map {p : Parse α} (f : α → β) (h : FailsWith E p c) : FailsWith E (f <$> p) c := by
  rw [← bind_pure_comp]
  exact h.bind fun a c' _ => pure _

theorem throw {e : Error} (h : E e c) : FailsWith E (MonadExcept.throw e : Parse α) c := by
  intro e' c' heq
  obtain ⟨he, hc⟩ := Prod.mk.inj heq
  rw [← Except.error.inj he, ← hc]
  exact h

theorem current_bind {f : Token → Parse β} (h : FailsWith E (f c.current) c) :
    FailsWith E (Parse.current >>= f) c :=
  h

theorem consume_bind {f : Token → Parse β} (h : FailsWith E (f c.current) c.next) :
    FailsWith E (Parse.consume >>= f) c :=
  h

theorem remaining_bind {f : Nat → Parse β} (h : FailsWith E (f c.coming.length) c) :
    FailsWith E (Parse.remaining >>= f) c :=
  h

theorem accepts_bind {kind : TokenKind} {f : Bool → Parse β}
    (htaken : c.current.kind = kind → FailsWith E (f true) c.next)
    (hleft : c.current.kind ≠ kind → FailsWith E (f false) c) :
    FailsWith E (Parse.accepts kind >>= f) c := by
  intro e c' h
  by_cases hkind : c.current.kind = kind
  · rw [start_accepts_bind_of_eq hkind] at h
    exact htaken hkind e c' h
  · rw [start_accepts_bind_of_ne hkind] at h
    exact hleft hkind e c' h

section

variable (hE : ∀ e c, e.fault.Ordinary → E e c)
include hE

theorem unexpected (what : String) : FailsWith E (Parse.unexpected what : Parse α) c :=
  throw (hE _ _ trivial)

theorem ensure_bind {kind : TokenKind} {f : Token → Parse β}
    (h : c.current.kind = kind → FailsWith E (f c.current) c.next) :
    FailsWith E (Parse.ensure kind >>= f) c := by
  by_cases hkind : c.current.kind = kind
  · intro e c' heq
    rw [start_ensure_bind hkind] at heq
    exact h hkind e c' heq
  · refine bind ?_ fun t c' hgives => absurd (gives_ensure.1 hgives).2.1 hkind
    intro e c' heq
    rw [Parse.ensure, start_bind, start_accept?, if_neg hkind] at heq
    exact unexpected hE _ e c' heq

theorem ensureEnclosed_bind {opener close : TokenKind} {f : Unit → Parse β}
    (h : c.current.kind = opener → FailsWith E (f ()) c) :
    FailsWith E (Parse.ensureEnclosed opener close >>= f) c := by
  refine bind ?_ fun _ c' hgives => ?_
  · intro e c' heq
    rw [start_ensureEnclosed] at heq
    cases hrange : c.enclosed opener close with
    | ok range =>
      rw [hrange] at heq
      cases heq
    | error e' =>
      rw [hrange] at heq
      obtain ⟨he, rfl⟩ := Prod.mk.inj heq
      rw [← Except.error.inj he]
      exact hE e' c (ordinary_of_enclosed hrange)
  · obtain ⟨⟨range, hrange⟩, rfl⟩ := gives_ensureEnclosed.1 hgives
    exact h (kind_of_enclosed hrange)

theorem liftAt (token : Token) {result : Except Fault α}
    (h : ∀ fault, result = .error fault → fault.Ordinary) :
    FailsWith E (Parse.liftAt token result) c := by
  cases result with
  | ok a => exact pure a
  | error fault => exact throw (hE _ _ (h fault rfl))

end

end FailsWith

end Parse

namespace ConstructParser

variable {g : Grammar} {parse : Construct → Parse Node} {E : Error → Cursor → Prop}
  {c : Cursor}

/-- Every end is allowed that lies as many tokens on as the loop at `c` has rounds. -/
def Spent (E : Error → Cursor → Prop) (c : Cursor) (rounds : Nat) : Prop :=
  ∀ e c', c.Reaches c' → c.position + rounds ≤ c'.position → E e c'

theorem Spent.move {rounds : Nat} (h : Spent E c (rounds + 1)) {d : Cursor} (hd : c.Reaches d)
    (hlt : c.position < d.position) : Spent E d rounds :=
  fun e c' hc' hle => h e c' (hd.trans hc') (by omega)

/-- As many rounds as there are tokens are not spent. -/
theorem spent_of_lt {rounds : Nat} (h : c.coming.length < rounds) : Spent E c rounds := by
  intro e c' hc' hle
  have hsum := hc'.position_add
  omega

theorem Spent.failsWith {α : Type} (h : Spent E c 0) :
    FailsWith E (failHere .nestedTooDeep : Parse α) c :=
  .throw (h _ c (.refl c) le_rfl)

theorem propertyName_reaches {name : String} {c' : Cursor} (h : propertyName.Gives c name c') :
    c.Reaches c' := by
  simp only [propertyName, gives_bind, gives_current] at h
  obtain ⟨_, _, ⟨rfl, rfl⟩, h⟩ := h
  split at h
  · simp only [gives_bind, gives_consume, gives_pure] at h
    obtain ⟨_, _, ⟨rfl, rfl⟩, -, rfl⟩ := h
    exact (Reaches.refl _).next
  · exact absurd h not_gives_unexpected

theorem reaches_of_reads {rules : Rules} (hadvances : (rules.parse .unary).Advances)
    {rest : List (BinaryOperator × Node)} {c' : Cursor} (hc : c.Closed)
    (h : rules.Reads c rest c') : c.Reaches c' := by
  induction rest generalizing c with
  | nil =>
    obtain rfl : c' = c := h
    exact .refl _
  | cons first rest ih =>
    obtain ⟨-, c₁, hunary, hrest⟩ := h
    obtain ⟨hc₁, -⟩ := hadvances _ _ _ hc.next hunary
    exact ((Reaches.refl c).next.trans hc₁).trans (ih (hc₁.closed hc.next) hrest)

theorem climb_reaches {rules : Rules} (hadvances : (rules.parse .unary).Advances) {rounds : Nat}
    {least : UInt16} {n : Node} {c' : Cursor} (hc : c.Closed)
    (h : (climb rules rounds least).Gives c n c') : c.Reaches c' := by
  obtain ⟨v, c₁, t, rest, -, hunary, hclimbed⟩ := climb_gives h
  obtain ⟨hc₁, -⟩ := hadvances _ _ _ hc hunary
  exact hc₁.trans (reaches_of_reads hadvances (hc₁.closed hc) hclimbed.reads)

section Loops

variable {c₀ : Cursor} (hc₀ : c₀.Closed) (hE : ∀ e c, e.fault.Ordinary → E e c)
include hc₀

theorem itemsWithin_failsWith {α : Type} {separator : TokenKind} {item : Parse α}
    (hadvances : item.Advances) (hitem : ∀ d, c₀.Reaches d → FailsWith E item d) (rounds : Nat)
    (h : c₀.Reaches c) (hspent : Spent E c rounds) :
    FailsWith E (itemsWithin separator item rounds) c := by
  induction rounds generalizing c with
  | zero => exact hspent.failsWith
  | succ rounds ih =>
    refine (hitem c h).bind fun first c₁ hfirst => .accepts_bind (fun _ => ?_) fun _ => .pure _
    obtain ⟨hc₁, hlt⟩ := hadvances _ _ _ (h.closed hc₀) hfirst
    have hle := (Reaches.refl c₁).next.position_le
    exact (ih (h.trans hc₁.next) (hspent.move hc₁.next (by omega))).bind fun _ _ _ => .pure _

/-- Climbing takes an operand or an operator in each round. -/
theorem climb_failsWith (hg : g.EofFree)
    (hunary : ∀ d, c₀.Reaches d → FailsWith E (parse .unary) d)
    (hadvances : (parse .unary).Advances) (rounds : Nat) :
    (∀ least c, c₀.Reaches c → Spent E c rounds →
        FailsWith E (climb (g.rules parse) rounds least) c) ∧
      ∀ least left c, c₀.Reaches c → Spent E c rounds →
        FailsWith E (extend (g.rules parse) rounds least left) c := by
  induction rounds with
  | zero => exact ⟨fun _ _ _ hspent => hspent.failsWith, fun _ _ _ _ hspent => hspent.failsWith⟩
  | succ rounds ih =>
    obtain ⟨ihclimb, ihextend⟩ := ih
    constructor
    · intro least c h hspent
      refine (hunary c h).bind fun left c₁ hleft => ?_
      obtain ⟨hc₁, hlt⟩ := hadvances _ _ _ (h.closed hc₀) hleft
      exact ihextend least left c₁ (h.trans hc₁) (hspent.move hc₁ hlt)
    · intro least left c h hspent
      have hc := h.closed hc₀
      refine FailsWith.bind (.current_bind (.pure _)) fun found c₁ hfound => ?_
      obtain ⟨rfl, rfl⟩ := gives_operatorFrom?.1 hfound
      split
      · exact .pure _
      · rename_i op hop
        have hkind := hg.ne_of_binary? (Option.filter_eq_some_iff.1 hop).1
        have hnext := hc.position_next hkind
        have hmove := (Reaches.refl c₁).next
        refine .consume_bind ?_
        refine (ihclimb op.rightLeast _ h.next (hspent.move hmove (by omega))).bind
          fun right c₂ hright => ?_
        have hc₂ := climb_reaches hadvances hc.next hright
        have hle := hc₂.position_le
        have hreaches := hmove.trans hc₂
        exact ihextend least _ c₂ (h.trans hreaches) (hspent.move hreaches (by omega))

include hE

omit hc₀ in
theorem propertyName_failsWith : FailsWith E propertyName c := by
  refine .current_bind ?_
  split
  · exact .consume_bind (.pure _)
  · exact .unexpected hE _

omit hc₀ in
theorem callArguments_failsWith
    (harguments : ∀ d, c₀.Reaches d → FailsWith E (parse .arguments) d) (h : c₀.Reaches c) :
    FailsWith E (callArguments (g.rules parse)) c := by
  refine .ensure_bind hE fun _ => .accepts_bind (fun _ => .pure _) fun _ => ?_
  refine (harguments _ h.next).bind fun items c₁ _ => .ensure_bind hE fun _ => ?_
  split <;> exact .pure _

theorem dottedWithin_failsWith (rounds : Nat) (h : c₀.Reaches c) (hspent : Spent E c rounds) :
    FailsWith E (dottedWithin rounds) c := by
  induction rounds generalizing c with
  | zero => exact hspent.failsWith
  | succ rounds ih =>
    refine .accepts_bind (fun hdot => ?_) fun _ => .pure _
    have hnext := (h.closed hc₀).position_next (by simp [hdot])
    refine (propertyName_failsWith hE).bind fun word c₁ hword => ?_
    have hc₁ := propertyName_reaches hword
    have hle := hc₁.position_le
    have hreaches := (Reaches.refl c).next.trans hc₁
    exact (ih (h.trans hreaches) (hspent.move hreaches (by omega))).bind fun _ _ _ => .pure _

theorem aliased_failsWith (h : c₀.Reaches c) : FailsWith E aliased c := by
  refine .ensure_bind hE fun _ => .remaining_bind ?_
  refine (dottedWithin_failsWith hc₀ hE _ h.next (spent_of_lt (Nat.lt_succ_self _))).bind
    fun rest c₁ _ => .accepts_bind (fun _ => ?_) fun _ => .pure _
  exact .ensure_bind hE fun _ => .pure _

section

variable (hexpression : ∀ d, c₀.Reaches d → FailsWith E (parse .expression) d)
  (hadvances : (parse .expression).Advances)
include hexpression hadvances

theorem segmentsWithin_failsWith
    (harguments : ∀ d, c₀.Reaches d → FailsWith E (parse .arguments) d) (rounds : Nat)
    (passed : List Segment) (h : c₀.Reaches c) (hspent : Spent E c rounds) :
    FailsWith E (segmentsWithin (g.rules parse) rounds passed) c := by
  induction rounds generalizing c passed with
  | zero => exact hspent.failsWith
  | succ rounds ih =>
    have hc := h.closed hc₀
    refine .accepts_bind (fun hdot => ?_) fun _ => .current_bind ?_
    · have hnext := hc.position_next (by simp [hdot])
      refine (propertyName_failsWith hE).bind fun name c₁ hname => ?_
      have hc₁ := propertyName_reaches hname
      have hle := hc₁.position_le
      have hreaches := (Reaches.refl c).next.trans hc₁
      exact ih _ (h.trans hreaches) (hspent.move hreaches (by omega))
    · split
      · rename_i hopener
        have hnext := hc.position_next (by simp [hopener])
        refine .consume_bind ((hexpression _ h.next).bind fun index c₁ hindex =>
          .ensure_bind hE fun _ => ?_)
        obtain ⟨hc₁, hlt⟩ := hadvances _ _ _ hc.next hindex
        have hle := (Reaches.refl c₁).next.position_le
        have hreaches := (Reaches.refl c).next.trans hc₁.next
        exact ih _ (h.trans hreaches) (hspent.move hreaches (by omega))
      · refine .current_bind ?_
        split
        · split
          · exact .unexpected hE _
          · exact (callArguments_failsWith hE harguments h).bind fun _ _ _ => .pure _
        · exact .pure _

theorem parametersWithin_failsWith (rounds : Nat) (taken : List String) (h : c₀.Reaches c)
    (hspent : Spent E c rounds) :
    FailsWith E (parametersWithin (g.rules parse) rounds taken) c := by
  induction rounds generalizing c taken with
  | zero => exact hspent.failsWith
  | succ rounds ih =>
    have hc := h.closed hc₀
    refine .ensure_bind hE fun hname => ?_
    have hnext := hc.position_next (by simp [hname])
    have hmore : ∀ (default : Option Node) c₁, c.next.Reaches c₁ →
        FailsWith E (do
          if ← accepts BasicKind.comma then
            return Parameter.mk c.current.text default ::
              (← parametersWithin (g.rules parse) rounds (c.current.text :: taken))
          else return [Parameter.mk c.current.text default]) c₁ := by
      intro default c₁ hc₁
      refine .accepts_bind (fun _ => ?_) fun _ => .pure _
      have hle := hc₁.next.position_le
      have hreaches := (Reaches.refl c).next.trans hc₁.next
      exact (ih _ (h.trans hreaches) (hspent.move hreaches (by omega))).bind fun _ _ _ => .pure _
    split
    · exact .throw (hE _ _ trivial)
    · refine .accepts_bind (fun _ => ?_) fun _ => ?_
      · refine ((hexpression _ h.next.next).map some).bind fun default c₁ hdefault => ?_
        obtain ⟨n, hn, -⟩ := gives_map.1 hdefault
        obtain ⟨hc₁, -⟩ := hadvances _ _ _ hc.next.next hn
        exact hmore default c₁ ((Reaches.refl _).next.trans hc₁)
      · exact (FailsWith.pure none).bind fun default c₁ hdefault => by
          obtain ⟨-, rfl⟩ := gives_pure.1 hdefault
          exact hmore default _ (.refl _)

end

end Loops

end ConstructParser

end ExprLang
