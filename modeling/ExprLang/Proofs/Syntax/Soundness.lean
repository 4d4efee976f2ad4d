import ExprLang.Proofs.Syntax.Climbing
import ExprLang.Proofs.Syntax.Derivation

/-!
# Soundness of parsing

Whatever the core parsers give for a construct is derivable: the tokens between the cursors derive
the result.  This holds for all operator tables and all cursors, and for each limit on the depth of
constructs (`KeepsCore.walk_of_parseWithin`).
-/

namespace ExprLang

open Parse Cursor

namespace Grammar

/-- Whether the grammar parses the core constructs as the core grammar does.  Its operators, and
constructs of its own, may be any. -/
def KeepsCore (g : Grammar) : Prop :=
  ∀ construct parser, ConstructParser.core? construct = some parser →
    g.parser? construct = some parser

/-- The tokens are the arguments of a call, with the parentheses around them. -/
def DerivesCall (g : Grammar) (ts : List Token) (items : List Node) : Prop :=
  (∃ opener close : Token, ts = [opener, close] ∧ opener.kind = BasicKind.lparen ∧
    close.kind = BasicKind.rparen ∧ items = []) ∨
  ∃ (opener close : Token) (us : List Token), ts = opener :: (us ++ [close]) ∧
    opener.kind = BasicKind.lparen ∧ g.Derives .arguments us items ∧
    close.kind = BasicKind.rparen

/-- The tokens are parameters between parentheses, with a different name each. -/
def DerivesParameters (g : Grammar) (ts : List Token) (params : List Parameter) : Prop :=
  ∃ (opener close : Token) (us : List Token), ts = opener :: (us ++ [close]) ∧ opener.kind = BasicKind.lparen ∧
    close.kind = BasicKind.rparen ∧ ((us = [] ∧ params = []) ∨ g.Derives .parameters us params) ∧
    (params.map Parameter.name).Nodup

/-- The tokens make up this construct. -/
def Produces (g : Grammar) : Construct → List Token → Node → Prop
  | .expression, ts, n | .ternary, ts, n => g.Derives .expression ts n
  | .binary, ts, n => g.Derives .binary ts n
  | .unary, ts, n => g.Derives .unary ts n
  | .primary, ts, n | .path, ts, n => g.Derives .primary ts n
  | .arguments, ts, n => ∃ items, n = .arguments items ∧ g.Derives .arguments ts items
  | .parameters, ts, n => ∃ params, n = .parameters params ∧ g.DerivesParameters ts params
  | .names, _, n => ∃ items, n = .arguments items ∧
      ∀ item ∈ items, ∃ name given, item = .name name given
  | .custom _, _, _ => False

/-- Whatever the way to parse a construct gives is derivable. -/
def SoundAt (g : Grammar) (parse : Construct → Parse Node) (construct : Construct) : Prop :=
  ∀ c n c', (parse construct).Gives c n c' → ∃ ts, c.Walk ts c' ∧ g.Produces construct ts n

end Grammar

namespace ConstructParser

open Grammar

variable {g : Grammar} {parse : Construct → Parse Node} {c c' : Cursor} {n : Node}

theorem expression_walk (hternary : g.SoundAt parse .ternary)
    (h : (expression (g.rules parse)).Gives c n c') :
    ∃ ts, c.Walk ts c' ∧ g.Derives .expression ts n :=
  hternary c n c' h

theorem ternary_walk (hbinary : g.SoundAt parse .binary) (hexpression : g.SoundAt parse .expression)
    (h : (ternary (g.rules parse)).Gives c n c') :
    ∃ ts, c.Walk ts c' ∧ g.Derives .expression ts n := by
  simp only [ternary, rules, gives_bind, gives_accepts] at h
  obtain ⟨condition, c₁, hcondition, _, c₂, haccept, h⟩ := h
  obtain ⟨cs, hcs, hderive⟩ := hbinary _ _ _ hcondition
  rcases haccept with ⟨rfl, hquestion, rfl⟩ | ⟨rfl, -, rfl⟩
  · simp only [↓reduceIte, gives_bind, gives_ensure, gives_pure] at h
    obtain ⟨positive, c₃, hpositive, _, _, ⟨rfl, hcolon, rfl⟩, negative, c₄, hnegative, rfl, rfl⟩ :=
      h
    obtain ⟨ps, hps, hpositive⟩ := hexpression _ _ _ hpositive
    obtain ⟨ns, hns, hnegative⟩ := hexpression _ _ _ hnegative
    exact ⟨_, hcs.append (.cons (hps.append (.cons hns))),
      .choice hderive hquestion hpositive hcolon hnegative⟩
  · simp only [Bool.false_eq_true, ↓reduceIte, gives_pure] at h
    obtain ⟨rfl, rfl⟩ := h
    exact ⟨cs, hcs, .plain hderive⟩

/-- The operations that are read from a place on are derivable. -/
theorem walk_of_reads (hunary : g.SoundAt parse .unary) {rest : List (BinaryOperator × Node)}
    (h : (g.rules parse).Reads c rest c') :
    ∃ ts, c.Walk ts c' ∧ g.Derives .operations ts rest := by
  induction rest generalizing c with
  | nil => exact ⟨[], h, .noOperation⟩
  | cons first rest ih =>
    obtain ⟨hop, c₁, hoperand, hrest⟩ := h
    obtain ⟨us, hus, hoperand⟩ := hunary _ _ _ hoperand
    obtain ⟨os, hos, hrest⟩ := ih hrest
    exact ⟨_, .cons (hus.append hos), .operation hop hoperand hrest⟩

theorem binary_walk (hunary : g.SoundAt parse .unary)
    (h : (binary (g.rules parse)).Gives c n c') :
    ∃ ts, c.Walk ts c' ∧ g.Derives .binary ts n := by
  obtain ⟨u, c₁, rest, t, rfl, hfirst, hreads, -, hoperands, hoperators, hnested⟩ := binary_reads h
  obtain ⟨us, hus, hfirst⟩ := hunary _ _ _ hfirst
  obtain ⟨os, hos, hrest⟩ := walk_of_reads hunary hreads
  exact ⟨us ++ os, hus.append hos, .nested t hfirst hrest hoperands hoperators hnested⟩

theorem unary_walk (hunary : g.SoundAt parse .unary) (hprimary : g.SoundAt parse .primary)
    (h : (unary (g.rules parse)).Gives c n c') :
    ∃ ts, c.Walk ts c' ∧ g.Derives .unary ts n := by
  simp only [unary, gives_bind, gives_current] at h
  obtain ⟨_, _, ⟨rfl, rfl⟩, h⟩ := h
  split at h
  · rename_i op hop
    simp only [gives_bind, gives_consume, gives_pure] at h
    obtain ⟨_, _, ⟨rfl, rfl⟩, u, c₁, hoperand, rfl, rfl⟩ := h
    obtain ⟨us, hus, hderive⟩ := hunary _ _ _ hoperand
    exact ⟨_, .cons hus, .before hop hderive⟩
  · simp only [gives_bind, gives_current] at h
    obtain ⟨operand, c₁, hoperand, _, _, ⟨rfl, rfl⟩, h⟩ := h
    obtain ⟨ts, hts, hderive⟩ := hprimary _ _ _ hoperand
    split at h
    · rename_i op hop
      simp only [gives_bind, gives_consume, gives_pure] at h
      obtain ⟨_, _, ⟨rfl, rfl⟩, rfl, rfl⟩ := h
      exact ⟨_, hts.concat, .after hderive hop⟩
    · simp only [gives_pure] at h
      obtain ⟨rfl, rfl⟩ := h
      exact ⟨ts, hts, .bare hderive⟩

theorem primary_walk (hexpression : g.SoundAt parse .expression)
    (harguments : g.SoundAt parse .arguments) (hpath : g.SoundAt parse .path)
    (h : (primary (g.rules parse)).Gives c n c') :
    ∃ ts, c.Walk ts c' ∧ g.Derives .primary ts n := by
  simp only [primary, gives_bind, gives_current] at h
  obtain ⟨_, _, ⟨rfl, rfl⟩, h⟩ := h
  split at h
  · rename_i hkind
    simp only [gives_bind, gives_consume] at h
    obtain ⟨_, _, ⟨rfl, rfl⟩, h⟩ := h
    split at h
    · rename_i value hvalue
      simp only [gives_pure] at h
      obtain ⟨rfl, rfl⟩ := h
      exact ⟨_, walk_singleton _, .number hkind hvalue⟩
    · simp at h
  · rename_i hkind
    simp only [gives_bind, gives_consume, gives_liftAt, gives_pure] at h
    obtain ⟨_, _, ⟨rfl, rfl⟩, value, _, ⟨hvalue, rfl⟩, rfl, rfl⟩ := h
    exact ⟨_, walk_singleton _, .string hkind hvalue⟩
  · rename_i hkind
    simp only [gives_bind, gives_consume, gives_pure] at h
    obtain ⟨_, _, ⟨rfl, rfl⟩, rfl, rfl⟩ := h
    exact ⟨_, walk_singleton _, .trueWord hkind⟩
  · rename_i hkind
    simp only [gives_bind, gives_consume, gives_pure] at h
    obtain ⟨_, _, ⟨rfl, rfl⟩, rfl, rfl⟩ := h
    exact ⟨_, walk_singleton _, .falseWord hkind⟩
  · rename_i hkind
    simp only [gives_bind, gives_consume, gives_pure] at h
    obtain ⟨_, _, ⟨rfl, rfl⟩, rfl, rfl⟩ := h
    exact ⟨_, walk_singleton _, .nullWord hkind⟩
  · rename_i hkind
    simp only [gives_bind, gives_ensureEnclosed, gives_consume, gives_ensure, gives_pure] at h
    obtain ⟨_, _, ⟨-, rfl⟩, _, _, ⟨rfl, rfl⟩, inner, c₁, hinner, _, _, ⟨rfl, hclose, rfl⟩, rfl,
      rfl⟩ := h
    obtain ⟨ts, hts, hinner⟩ := hexpression _ _ _ hinner
    exact ⟨_, .cons hts.concat, .group hkind hinner hclose⟩
  · rename_i hkind
    simp only [gives_bind, gives_consume, gives_accepts] at h
    obtain ⟨_, _, ⟨rfl, rfl⟩, _, c₁, haccept, h⟩ := h
    rcases haccept with ⟨rfl, hclose, rfl⟩ | ⟨rfl, -, rfl⟩
    · simp only [↓reduceIte, gives_pure] at h
      obtain ⟨rfl, rfl⟩ := h
      exact ⟨_, .cons (walk_singleton _), .emptyList hkind hclose⟩
    · simp only [Bool.false_eq_true, ↓reduceIte, gives_bind, gives_ensure, gives_pure] at h
      obtain ⟨inner, c₁, hinner, _, _, ⟨rfl, hclose, rfl⟩, rfl, rfl⟩ := h
      obtain ⟨ts, hts, items, rfl, hitems⟩ := harguments _ _ _ hinner
      exact ⟨_, .cons hts.concat, .list hkind hitems hclose⟩
  · exact hpath _ _ _ h
  · simp at h

/-- A path has the name of a call if and only if all of its segments are properties. -/
theorem callName?_eq_some {segments : List Segment} {name : String} :
    callName? segments = some name ↔
      ∃ names : List String, segments = names.map Segment.property ∧
        name = ".".intercalate names := by
  have hnames : ∀ names : List String,
      segments.mapM Segment.name? = some names ↔ segments = names.map Segment.property := by
    induction segments with
    | nil => intro names; cases names <;> simp
    | cons first rest ih =>
      intro names
      cases first with
      | property name =>
        cases names with
        | nil => simp [List.mapM_cons, Segment.name?, Option.bind_eq_some_iff]
        | cons other names =>
          simp [List.mapM_cons, Segment.name?, Option.bind_eq_some_iff, ih, and_comm]
      | index node => cases names <;> simp [List.mapM_cons, Segment.name?]
  unfold callName?
  rw [Option.map_eq_some_iff]
  constructor
  · rintro ⟨names, hsome, rfl⟩
    exact ⟨names, (hnames names).1 hsome, rfl⟩
  · rintro ⟨names, hsegments, rfl⟩
    exact ⟨names, (hnames names).2 hsegments, rfl⟩

theorem callArguments_walk (harguments : g.SoundAt parse .arguments) {items : List Node}
    (h : (callArguments (g.rules parse)).Gives c items c') :
    ∃ ts, c.Walk ts c' ∧ g.DerivesCall ts items := by
  simp only [callArguments, gives_bind, gives_ensure, gives_accepts] at h
  obtain ⟨_, _, ⟨rfl, hopener, rfl⟩, _, c₁, haccept, h⟩ := h
  rcases haccept with ⟨rfl, hclose, rfl⟩ | ⟨rfl, -, rfl⟩
  · simp only [↓reduceIte, gives_pure] at h
    obtain ⟨rfl, rfl⟩ := h
    exact ⟨_, .cons (walk_singleton _), .inl ⟨_, _, rfl, hopener, hclose, rfl⟩⟩
  · simp only [Bool.false_eq_true, ↓reduceIte, gives_bind, gives_ensure] at h
    obtain ⟨inner, c₂, hinner, _, _, ⟨rfl, hclose, rfl⟩, h⟩ := h
    obtain ⟨ts, hts, nodes, rfl, hnodes⟩ := harguments _ _ _ hinner
    simp only [gives_pure] at h
    obtain ⟨rfl, rfl⟩ := h
    exact ⟨_, .cons hts.concat, .inr ⟨_, _, ts, rfl, hopener, hnodes, hclose⟩⟩

/-- The steps behind a root name, with a call behind them if there are arguments. -/
theorem segmentsWithin_walk (hexpression : g.SoundAt parse .expression)
    (harguments : g.SoundAt parse .arguments) {rounds : Nat} {passed segments : List Segment}
    {given : Option (List Node)}
    (h : (segmentsWithin (g.rules parse) rounds passed).Gives c (segments, given) c') :
    ∃ steps ts c₁, segments = passed ++ steps ∧ c.Walk ts c₁ ∧ g.Derives .steps ts steps ∧
      ((given = none ∧ c' = c₁) ∨
        ∃ items us, given = some items ∧ (callName? segments).isSome = true ∧ c₁.Walk us c' ∧
          g.DerivesCall us items) := by
  induction rounds generalizing c passed with
  | zero => simp [segmentsWithin] at h
  | succ rounds ih =>
    simp only [segmentsWithin, gives_bind, gives_accepts] at h
    obtain ⟨_, c₁, haccept, h⟩ := h
    rcases haccept with ⟨rfl, hdot, rfl⟩ | ⟨rfl, -, hc⟩
    · simp only [↓reduceIte, propertyName, gives_bind, gives_current] at h
      obtain ⟨word, c₂, ⟨_, _, ⟨rfl, rfl⟩, hword⟩, h⟩ := h
      split at hword
      · rename_i hisWord
        simp only [gives_bind, gives_consume, gives_pure] at hword
        obtain ⟨_, _, ⟨rfl, rfl⟩, rfl, rfl⟩ := hword
        obtain ⟨steps, ts, c₂, rfl, hts, hsteps, hgiven⟩ := ih h
        exact ⟨_, _, c₂, List.append_assoc _ _ _, .cons (.cons hts),
          .property hdot hisWord hsteps, hgiven⟩
      · simp at hword
    · simp only [Bool.false_eq_true, ↓reduceIte, gives_bind, gives_current, hc] at h
      obtain ⟨_, _, ⟨rfl, hsame⟩, h⟩ := h
      rw [hsame] at h
      by_cases hopener : c.current.kind = BasicKind.lbracket
      · simp only [hopener, ↓reduceIte, gives_bind, gives_consume, gives_ensure] at h
        obtain ⟨_, _, ⟨rfl, rfl⟩, index, c₂, hindex, _, _, ⟨rfl, hclose, rfl⟩, h⟩ := h
        obtain ⟨is, his, hderive⟩ := hexpression _ _ _ hindex
        obtain ⟨steps, ts, c₃, rfl, hts, hsteps, hgiven⟩ := ih h
        exact ⟨_, _, c₃, List.append_assoc _ _ _, .cons (his.append (.cons hts)),
          .index hopener hderive hclose hsteps, hgiven⟩
      · simp only [hopener, ↓reduceIte, gives_bind, gives_current] at h
        obtain ⟨_, _, ⟨rfl, hsame⟩, h⟩ := h
        rw [hsame] at h
        by_cases hcall : c.current.kind = BasicKind.lparen
        · rw [if_pos hcall] at h
          cases hname : (callName? passed).isNone with
          | true => simp [hname] at h
          | false =>
            simp only [hname, Bool.false_eq_true, ↓reduceIte, gives_bind, gives_pure,
              Prod.mk.injEq] at h
            obtain ⟨items, c₂, hitems, ⟨rfl, rfl⟩, rfl⟩ := h
            obtain ⟨us, hus, hderive⟩ := callArguments_walk harguments hitems
            refine ⟨[], [], _, by simp, rfl, .noStep, .inr ⟨items, us, rfl, ?_, hus, hderive⟩⟩
            simpa [Option.isSome_iff_ne_none] using hname
        · simp only [hcall, ↓reduceIte, gives_pure, Prod.mk.injEq] at h
          obtain ⟨⟨rfl, rfl⟩, rfl⟩ := h
          exact ⟨[], [], _, by simp, rfl, .noStep, .inl ⟨rfl, rfl⟩⟩

theorem path_walk (hexpression : g.SoundAt parse .expression)
    (harguments : g.SoundAt parse .arguments) (h : (path (g.rules parse)).Gives c n c') :
    ∃ ts, c.Walk ts c' ∧ g.Derives .primary ts n := by
  simp only [path, gives_bind, gives_ensure, gives_remaining] at h
  obtain ⟨_, _, ⟨rfl, hroot, rfl⟩, _, _, ⟨rfl, rfl⟩, ⟨segments, given⟩, c₁, hsegments, h⟩ := h
  obtain ⟨steps, ts, c₂, rfl, hts, hsteps, hgiven⟩ :=
    segmentsWithin_walk hexpression harguments hsegments
  rcases hgiven with ⟨rfl, rfl⟩ | ⟨items, us, rfl, hname, hus, hcall⟩
  · cases steps with
    | nil =>
      simp only [List.append_nil, gives_pure] at h
      obtain ⟨rfl, rfl⟩ := h
      exact ⟨_, .cons hts, .reference hroot hsteps⟩
    | cons first rest =>
      simp only [List.cons_append, List.nil_append, gives_pure] at h
      obtain ⟨rfl, rfl⟩ := h
      exact ⟨_, .cons hts, .reference hroot hsteps⟩
  · obtain ⟨name, hname⟩ := Option.isSome_iff_exists.1 hname
    simp only [hname, Option.getD_some, gives_pure] at h
    obtain ⟨rfl, rfl⟩ := h
    obtain ⟨names, hnames, rfl⟩ := callName?_eq_some.1 hname
    cases names with
    | nil => simp at hnames
    | cons first names =>
      simp only [List.singleton_append, List.map_cons, List.cons.injEq, Segment.property.injEq]
        at hnames
      obtain ⟨rfl, rfl⟩ := hnames
      rcases hcall with ⟨opener, close, rfl, hopener, hclose, rfl⟩ |
        ⟨opener, close, vs, rfl, hopener, hitems, hclose⟩
      · exact ⟨_, .cons (hts.append hus), .emptyCall hroot hsteps hopener hclose⟩
      · exact ⟨_, .cons (hts.append hus), .call hroot hsteps hopener hitems hclose⟩

theorem arguments_walk (hexpression : g.SoundAt parse .expression)
    (h : (arguments (g.rules parse)).Gives c n c') :
    ∃ ts, c.Walk ts c' ∧ ∃ items, n = .arguments items ∧ g.Derives .arguments ts items := by
  have hwithin : ∀ rounds {c items},
      (itemsWithin BasicKind.comma (parse .expression) rounds).Gives c items c' →
        ∃ ts, c.Walk ts c' ∧ g.Derives .arguments ts items := by
    intro rounds
    induction rounds with
    | zero => intro c items h; simp [itemsWithin] at h
    | succ rounds ih =>
      intro c items h
      simp only [itemsWithin, gives_bind, gives_accepts] at h
      obtain ⟨first, c₁, hfirst, _, c₂, haccept, h⟩ := h
      obtain ⟨ts, hts, hderive⟩ := hexpression _ _ _ hfirst
      rcases haccept with ⟨rfl, hcomma, rfl⟩ | ⟨rfl, -, rfl⟩
      · simp only [↓reduceIte, gives_bind, gives_pure] at h
        obtain ⟨rest, c₃, hrest, rfl, rfl⟩ := h
        obtain ⟨us, hus, hrest⟩ := ih hrest
        exact ⟨_, hts.append (.cons hus), .argument hderive hcomma hrest⟩
      · simp only [Bool.false_eq_true, ↓reduceIte, gives_pure] at h
        obtain ⟨rfl, rfl⟩ := h
        exact ⟨ts, hts, .lastArgument hderive⟩
  simp only [arguments, items, gives_bind, gives_remaining, gives_pure] at h
  obtain ⟨nodes, c₁, ⟨_, _, ⟨rfl, rfl⟩, hnodes⟩, rfl, rfl⟩ := h
  obtain ⟨ts, hts, hderive⟩ := hwithin _ hnodes
  exact ⟨ts, hts, nodes, rfl, hderive⟩

/-- Parameters have different names, and none of them is a name that is taken already. -/
theorem parametersWithin_walk (hexpression : g.SoundAt parse .expression) {rounds : Nat}
    {taken : List String} {params : List Parameter}
    (h : (parametersWithin (g.rules parse) rounds taken).Gives c params c') :
    ∃ ts, c.Walk ts c' ∧ g.Derives .parameters ts params ∧
      (params.map Parameter.name).Nodup ∧ ∀ p ∈ params, p.name ∉ taken := by
  induction rounds generalizing c taken params with
  | zero => simp [parametersWithin] at h
  | succ rounds ih =>
    simp only [parametersWithin, gives_bind, gives_ensure] at h
    obtain ⟨token, _, ⟨rfl, hname, rfl⟩, h⟩ := h
    split at h
    · simp at h
    · rename_i htaken
      have hfresh : c.current.text ∉ taken := by simpa using htaken
      simp only [gives_bind, gives_accepts] at h
      obtain ⟨_, c₁, hcolon, h⟩ := h
      have hfirst : ∃ ts default c₂, c.Walk ts c₂ ∧
          g.Derives .parameter ts (.mk c.current.text default) ∧
          Gives (do
            if ← accepts BasicKind.comma then
              return Parameter.mk c.current.text default ::
                (← parametersWithin (g.rules parse) rounds (c.current.text :: taken))
            else return [Parameter.mk c.current.text default]) c₂ params c' := by
        rcases hcolon with ⟨rfl, hcolon, rfl⟩ | ⟨rfl, -, rfl⟩
        · simp only [↓reduceIte, gives_bind, gives_map] at h
          obtain ⟨_, c₂, ⟨n, hn, rfl⟩, h⟩ := h
          obtain ⟨ts, hts, hdefault⟩ := hexpression _ _ _ hn
          exact ⟨_, some n, c₂, .cons (.cons hts), .optional hname hcolon hdefault, by
            simpa only [gives_bind, gives_accepts] using h⟩
        · simp only [Bool.false_eq_true, ↓reduceIte, gives_bind, gives_pure] at h
          obtain ⟨_, c₂, ⟨rfl, rfl⟩, h⟩ := h
          exact ⟨_, none, _, walk_singleton _, .required hname, by
            simpa only [gives_bind, gives_accepts] using h⟩
      obtain ⟨ts, default, c₂, hts, hfirst, hmore⟩ := hfirst
      simp only [gives_bind, gives_accepts] at hmore
      obtain ⟨_, c₃, ⟨rfl, hcomma, rfl⟩ | ⟨rfl, -, rfl⟩, hmore⟩ := hmore
      · simp only [↓reduceIte, gives_bind, gives_pure] at hmore
        obtain ⟨rest, c₄, hrest, rfl, rfl⟩ := hmore
        obtain ⟨us, hus, hderive, hnodup, hnot⟩ := ih hrest
        refine ⟨_, hts.append (.cons hus), .moreParameters hfirst hcomma hderive, ?_, ?_⟩
        · rw [List.map_cons, List.nodup_cons]
          refine ⟨?_, hnodup⟩
          rintro hmem
          obtain ⟨p, hp, heq⟩ := List.mem_map.1 hmem
          exact hnot p hp (by rw [heq]; exact List.mem_cons_self)
        · intro p hp
          rcases List.mem_cons.1 hp with rfl | hp
          · exact hfresh
          · exact fun hmem => hnot p hp (List.mem_cons_of_mem _ hmem)
      · simp only [Bool.false_eq_true, ↓reduceIte, gives_pure] at hmore
        obtain ⟨rfl, rfl⟩ := hmore
        refine ⟨ts, hts, .lastParameter hfirst, by simp, ?_⟩
        intro p hp
        obtain rfl := List.mem_singleton.1 hp
        exact hfresh

theorem parameters_walk (hexpression : g.SoundAt parse .expression)
    (h : (parameters (g.rules parse)).Gives c n c') :
    ∃ ts, c.Walk ts c' ∧ ∃ params, n = .parameters params ∧ g.DerivesParameters ts params := by
  simp only [parameters, gives_bind, gives_ensureEnclosed, gives_consume, gives_accepts] at h
  obtain ⟨_, _, ⟨⟨range, hrange⟩, rfl⟩, _, _, ⟨rfl, rfl⟩, _, c₂, haccept, h⟩ := h
  have hopener := Cursor.kind_of_enclosed hrange
  rcases haccept with ⟨rfl, hclose, rfl⟩ | ⟨rfl, -, rfl⟩
  · simp only [↓reduceIte, gives_pure] at h
    obtain ⟨rfl, rfl⟩ := h
    exact ⟨_, .cons (walk_singleton _), [], rfl, _, _, [], rfl, hopener, hclose, .inl ⟨rfl, rfl⟩,
      by simp⟩
  · simp only [Bool.false_eq_true, ↓reduceIte, gives_bind, gives_remaining, gives_ensure,
      gives_pure] at h
    obtain ⟨_, _, ⟨rfl, rfl⟩, params, c₃, hparams, _, _, ⟨rfl, hclose, rfl⟩, rfl, rfl⟩ := h
    obtain ⟨ts, hts, hderive, hnodup, -⟩ := parametersWithin_walk hexpression hparams
    exact ⟨_, .cons hts.concat, params, rfl, _, _, ts, rfl, hopener, hclose, .inr hderive, hnodup⟩

/-- Items that are good each make up a good list. -/
theorem itemsWithin_gives {α : Type} {separator : TokenKind} {item : Parse α} {Good : α → Prop}
    (hitem : ∀ c a c', item.Gives c a c' → Good a ∧ ∃ ts, c.Walk ts c') {rounds : Nat} {as : List α}
    (h : (itemsWithin separator item rounds).Gives c as c') :
    (∀ a ∈ as, Good a) ∧ ∃ ts, c.Walk ts c' := by
  induction rounds generalizing c as with
  | zero => simp [itemsWithin] at h
  | succ rounds ih =>
    simp only [itemsWithin, gives_bind, gives_accepts] at h
    obtain ⟨first, c₁, hfirst, _, c₂, haccept, h⟩ := h
    obtain ⟨hgood, ts, hts⟩ := hitem _ _ _ hfirst
    rcases haccept with ⟨rfl, -, rfl⟩ | ⟨rfl, -, rfl⟩
    · simp only [↓reduceIte, gives_bind, gives_pure] at h
      obtain ⟨rest, c₃, hrest, rfl, rfl⟩ := h
      obtain ⟨hall, us, hus⟩ := ih hrest
      exact ⟨List.forall_mem_cons.2 ⟨hgood, hall⟩, _, hts.append (.cons hus)⟩
    · simp only [Bool.false_eq_true, ↓reduceIte, gives_pure] at h
      obtain ⟨rfl, rfl⟩ := h
      exact ⟨List.forall_mem_singleton.2 hgood, ts, hts⟩

theorem dottedWithin_walk {rounds : Nat} {rest : String}
    (h : (dottedWithin rounds).Gives c rest c') : ∃ ts, c.Walk ts c' := by
  induction rounds generalizing c rest with
  | zero => simp [dottedWithin] at h
  | succ rounds ih =>
    simp only [dottedWithin, gives_bind, gives_accepts] at h
    obtain ⟨_, c₁, haccept, h⟩ := h
    rcases haccept with ⟨rfl, -, rfl⟩ | ⟨rfl, -, rfl⟩
    · simp only [↓reduceIte, propertyName, gives_bind, gives_current] at h
      obtain ⟨word, c₂, ⟨_, _, ⟨rfl, rfl⟩, hword⟩, more, c₃, hmore, h⟩ := h
      obtain ⟨-, rfl⟩ := gives_pure.1 h
      split at hword
      · simp only [gives_bind, gives_consume, gives_pure] at hword
        obtain ⟨_, _, ⟨rfl, rfl⟩, rfl, rfl⟩ := hword
        obtain ⟨ts, hts⟩ := ih hmore
        exact ⟨_, .cons (.cons hts)⟩
      · simp at hword
    · simp only [Bool.false_eq_true, ↓reduceIte, gives_pure] at h
      exact ⟨[], h.2⟩

/-- A name begins with an identifier. -/
theorem aliased_walk (h : aliased.Gives c n c') :
    (∃ name given, n = .name name given) ∧ c.current.kind = BasicKind.identifier ∧
      ∃ ts, c.next.Walk ts c' := by
  simp only [aliased, gives_bind, gives_ensure, gives_remaining, gives_accepts] at h
  obtain ⟨_, _, ⟨rfl, hroot, rfl⟩, _, _, ⟨rfl, rfl⟩, rest, c₁, hrest, _, c₂, haccept, h⟩ := h
  obtain ⟨ts, hts⟩ := dottedWithin_walk hrest
  rcases haccept with ⟨rfl, -, rfl⟩ | ⟨rfl, -, rfl⟩
  · simp only [↓reduceIte, gives_bind, gives_ensure, gives_pure] at h
    obtain ⟨_, _, ⟨rfl, -, rfl⟩, rfl, rfl⟩ := h
    exact ⟨⟨_, _, rfl⟩, hroot, _, hts.append (.cons (walk_singleton _))⟩
  · simp only [Bool.false_eq_true, ↓reduceIte, gives_pure] at h
    obtain ⟨rfl, rfl⟩ := h
    exact ⟨⟨_, _, rfl⟩, hroot, _, hts⟩

theorem names_walk (h : (names (g.rules parse)).Gives c n c') :
    ∃ ts, c.Walk ts c' ∧ ∃ items, n = .arguments items ∧
      ∀ item ∈ items, ∃ name given, item = .name name given := by
  simp only [names, items, gives_bind, gives_remaining, gives_pure] at h
  obtain ⟨nodes, c₁, ⟨_, _, ⟨rfl, rfl⟩, hnodes⟩, rfl, rfl⟩ := h
  have hitem : ∀ c n c', aliased.Gives c n c' →
      (∃ name given, n = .name name given) ∧ ∃ ts, c.Walk ts c' := by
    intro c n c' h
    obtain ⟨hname, -, ts, hts⟩ := aliased_walk h
    exact ⟨hname, _, .cons hts⟩
  obtain ⟨hall, ts, hts⟩ := itemsWithin_gives hitem hnodes
  exact ⟨ts, hts, nodes, rfl, hall⟩

end ConstructParser

namespace Grammar

variable {g : Grammar}

theorem KeepsCore.parseWithin_succ (hg : g.KeepsCore) {construct : Construct}
    {parser : ConstructParser} (hcore : ConstructParser.core? construct = some parser)
    (depth : Nat) :
    g.parseWithin (depth + 1) construct = parser (g.rules (g.parseWithin depth)) := by
  rw [parseWithin, hg construct parser hcore]

/-- Whatever a core construct gives is derivable, whatever the limit on the depth is. -/
theorem KeepsCore.walk_of_parseWithin (hg : g.KeepsCore) (depth : Nat) :
    ∀ construct ∈ Construct.core, g.SoundAt (g.parseWithin depth) construct := by
  induction depth with
  | zero =>
    intro construct hcore c n c' h
    simp [parseWithin] at h
  | succ depth ih =>
    intro construct hcore c n c' h
    cases construct with
    | expression =>
      rw [hg.parseWithin_succ rfl] at h
      exact ConstructParser.expression_walk (ih _ (by decide)) h
    | ternary =>
      rw [hg.parseWithin_succ rfl] at h
      exact ConstructParser.ternary_walk (ih _ (by decide)) (ih _ (by decide)) h
    | binary =>
      rw [hg.parseWithin_succ rfl] at h
      exact ConstructParser.binary_walk (ih _ (by decide)) h
    | unary =>
      rw [hg.parseWithin_succ rfl] at h
      exact ConstructParser.unary_walk (ih _ (by decide)) (ih _ (by decide)) h
    | primary =>
      rw [hg.parseWithin_succ rfl] at h
      exact ConstructParser.primary_walk (ih _ (by decide)) (ih _ (by decide)) (ih _ (by decide)) h
    | path =>
      rw [hg.parseWithin_succ rfl] at h
      exact ConstructParser.path_walk (ih _ (by decide)) (ih _ (by decide)) h
    | arguments =>
      rw [hg.parseWithin_succ rfl] at h
      exact ConstructParser.arguments_walk (ih _ (by decide)) h
    | parameters =>
      rw [hg.parseWithin_succ rfl] at h
      exact ConstructParser.parameters_walk (ih _ (by decide)) h
    | names =>
      rw [hg.parseWithin_succ rfl] at h
      exact ConstructParser.names_walk h
    | custom name => simp [Construct.core] at hcore

/-- Whatever the grammar parses as a core construct is derivable. -/
theorem KeepsCore.walk_of_parse (hg : g.KeepsCore) {construct : Construct}
    (hcore : construct ∈ Construct.core) : g.SoundAt g.parse construct := by
  intro c n c' h
  simp only [Grammar.parse, gives_bind, gives_remaining] at h
  obtain ⟨_, _, ⟨rfl, rfl⟩, h⟩ := h
  exact hg.walk_of_parseWithin _ construct hcore _ n c' h

end Grammar

end ExprLang
