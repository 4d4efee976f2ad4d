import ExprLang.Proofs.Contexts.Actions

/-!
# Nested scopes

A scope ends with dropping the innermost frame, whichever it is.  That is the frame of the scope if
the actions in between close the frames that they open, and none that were open before.  Then the
frames around the scope are kept with the names that they bind, and what the actions declare is not
visible behind it (`Action.scope_retained`).
-/

namespace ExprLang

/-- One frame less, as long as one is left that may be dropped. -/
def Action.closed? : Nat → Option Nat
  | 0 => none
  | opened + 1 => some opened

mutual
/-- How many frames are open inside a scope behind an action, if `opened` are open before it.  There
is no such number if the action drops the frame of the scope or frames around it. -/
def Action.level? : Action → Nat → Option Nat
  | .push, opened => some (opened + 1)
  | .pop, opened => Action.closed? opened
  | .clear, _ => none
  | .scope body, opened => (Action.levelAll? body (opened + 1)).bind Action.closed?
  | _, opened => some opened

def Action.levelAll? : List Action → Nat → Option Nat
  | [], opened => some opened
  | action :: rest, opened => (action.level? opened).bind fun opened =>
    Action.levelAll? rest opened
end

/-- The actions close all frames that they open, and no others. -/
def Action.Balanced (actions : List Action) : Prop :=
  Action.levelAll? actions 0 = some 0

/-- The action assigns the variable, in whatever frame. -/
def Action.Assigns : Action → Context → String → Prop
  | .setValue path value, c, name => path.root? = some name ∧ ∃ d, c.setValue path value = .ok d
  | .setVariable assigned _, _, name => assigned = name
  | .evaluate node, _, name => node.Steps name
  | _, _, _ => False

mutual
/-- The action assigns the variable in one of the `outer` outermost frames. -/
def Action.Reaches (outer : Nat) : Action → Context → String → Prop
  | .scope body, c, name => Action.ReachesAll outer body c.push name
  | action, c, name => action.Assigns c name ∧ c.depth ≤ c.home name + outer

def Action.ReachesAll (outer : Nat) : List Action → Context → String → Prop
  | [], _, _ => False
  | action :: rest, c, name =>
    action.Reaches outer c name ∨ Action.ReachesAll outer rest (action.run c) name
end

namespace Context

/-- The context with further frames inside. -/
def withFrames (c : Context) (own : List Frame) : Context :=
  { c with inner := own ++ c.inner }

section

variable {c : Context} {own : List Frame} {name : String}

theorem depth_withFrames : (c.withFrames own).depth = own.length + c.depth := by
  simp [withFrames, depth, Nat.add_assoc]

/-- A name that the frames inside do not bind belongs to a frame around them. -/
theorem length_le_home (hown : ¬ own.any (Entries.contains name) = true) :
    own.length ≤ (c.withFrames own).home name := by
  simp only [List.any_eq_true, not_exists, not_and] at hown
  have hnone : own.findIdx (Entries.contains name) = own.length :=
    List.findIdx_eq_length.2 fun frame hframe => by simpa using hown frame hframe
  simp [withFrames, home, List.findIdx_append, hnone]

/-- There it is assigned. -/
theorem assign_withFrames (hown : ¬ own.any (Entries.contains name) = true) (w : Value) :
    (c.withFrames own).assign name w = (c.assign name w).withFrames own := by
  induction own with
  | nil => rfl
  | cons frame rest ih =>
    rw [List.any_cons, Bool.or_eq_true, not_or] at hown
    have hrest := ih hown.2
    simp only [withFrames, List.cons_append] at hrest ⊢
    rw [assign_of_not_contains hown.1, hrest]

/-- A name that the frames inside bind is assigned in one of them. -/
theorem exists_assign_withFrames (hown : own.any (Entries.contains name) = true) (w : Value) :
    ∃ changed, (c.withFrames own).assign name w = c.withFrames changed ∧
      changed.length = own.length ∧
      ∀ other, changed.any (Entries.contains other) = own.any (Entries.contains other) := by
  induction own with
  | nil => cases hown
  | cons frame rest ih =>
    by_cases hframe : Entries.contains name frame = true
    · refine ⟨Entries.insert name w frame :: rest, assign_of_contains hframe, rfl, fun other => ?_⟩
      have hsame : Entries.contains other (Entries.insert name w frame) =
          Entries.contains other frame := by
        by_cases hother : other = name
        · rw [hother, hframe, Entries.contains, Entries.get?_insert_self]
          rfl
        · rw [Entries.contains, Entries.get?_insert_of_ne hother, Entries.contains]
      rw [List.any_cons, List.any_cons, hsame]
    · have hrest : rest.any (Entries.contains name) = true := by simpa [hframe] using hown
      obtain ⟨changed, hassign, hlength, hany⟩ := ih hrest
      refine ⟨frame :: changed, ?_, by simp [hlength], fun other => by simp [hany]⟩
      simp only [withFrames, List.cons_append] at hassign ⊢
      rw [assign_of_not_contains hframe, hassign]

end

/-- What becomes of a context with frames inside: these bind the names that they bound, and other
names are assigned around them. -/
theorem Reassigned.split {c d : Context} {own : List Frame} {Written : String → Prop}
    (h : (c.withFrames own).Reassigned Written d) :
    ∃ changed base, d = base.withFrames changed ∧ changed.length = own.length ∧
      (∀ other, changed.any (Entries.contains other) = own.any (Entries.contains other)) ∧
      c.Reassigned (fun name => Written name ∧ ¬ own.any (Entries.contains name) = true) base := by
  induction h with
  | refl => exact ⟨own, c, rfl, rfl, fun _ => rfl, .refl⟩
  | @assign _ name _ hname w ih =>
    obtain ⟨changed, base, rfl, hlength, hany, hbase⟩ := ih
    by_cases hown : changed.any (Entries.contains name) = true
    · obtain ⟨again, hassign, hlength', hany'⟩ := exists_assign_withFrames (c := base) hown w
      refine ⟨again, base, hassign, hlength'.trans hlength, fun other => ?_, hbase⟩
      exact (hany' other).trans (hany other)
    · have hout : ¬ own.any (Entries.contains name) = true := by rwa [← hany name]
      exact ⟨changed, base.assign name w, assign_withFrames hown w, hlength, hany,
        .assign hbase ⟨hname, hout⟩ w⟩
  | setStrict _ strict ih =>
    obtain ⟨changed, base, rfl, hlength, hany, hbase⟩ := ih
    exact ⟨changed, base.setStrict strict, rfl, hlength, hany, .setStrict hbase strict⟩
  | withSemantics _ s ih =>
    obtain ⟨changed, base, rfl, hlength, hany, hbase⟩ := ih
    exact ⟨changed, base.withSemantics s, rfl, hlength, hany, .withSemantics hbase s⟩

/-- The context has the frame of a scope and `opened` more inside of what has become of `c`. -/
def Leaves (c : Context) (opened : Nat) (Written : String → Prop) (d : Context) : Prop :=
  ∃ own base, d = base.withFrames own ∧ own.length = opened + 1 ∧ c.Reassigned Written base

section

variable {c d : Context} {own : List Frame} {opened : Nat} {Written : String → Prop}

theorem Reassigned.leaves (h : (c.withFrames own).Reassigned Written d)
    (hlength : own.length = opened + 1) :
    c.Leaves opened (fun name => Written name ∧
      (c.withFrames own).depth ≤ (c.withFrames own).home name + c.depth) d := by
  obtain ⟨changed, base, rfl, hsame, -, hbase⟩ := h.split
  refine ⟨changed, base, rfl, hsame.trans hlength, hbase.mono fun name hname => ⟨hname.1, ?_⟩⟩
  rw [depth_withFrames]
  exact Nat.add_le_add_right (length_le_home hname.2) c.depth

/-- Dropping the innermost frame leaves those around it. -/
theorem Leaves.pop (h : c.Leaves (opened + 1) Written d) : c.Leaves opened Written d.pop := by
  obtain ⟨own, base, rfl, hlength, hbase⟩ := h
  refine ⟨own.tail, base, ?_, by rw [List.length_tail, hlength]; rfl, hbase⟩
  cases own with
  | nil => cases hlength
  | cons frame rest => rfl

/-- Dropping the frame of the scope leaves what has become of the context. -/
theorem Leaves.reassigned (h : c.Leaves 0 Written d) : c.Reassigned Written d.pop := by
  obtain ⟨own, base, rfl, hlength, hbase⟩ := h
  obtain ⟨frame, rfl⟩ := List.length_eq_one_iff.1 hlength
  exact hbase

end

end Context

open Context

mutual
/-- Inside a scope, an action leaves so many frames open, and around the scope it changes nothing but
by assignments. -/
theorem Action.run_leaves : ∀ (action : Action) {c : Context} {own : List Frame}
    {opened next : Nat}, own.length = opened + 1 → action.level? opened = some next →
      c.Leaves next (action.Reaches c.depth (c.withFrames own)) (action.run (c.withFrames own))
  | .declare name value, c, own, opened, next, hlength, hlevel => by
    obtain rfl := Option.some.inj hlevel
    cases own with
    | nil => cases hlength
    | cons frame rest => exact ⟨Entries.insert name value frame :: rest, c, rfl, hlength, .refl⟩
  | .setValue path value, c, own, opened, next, hlength, hlevel => by
    obtain rfl := Option.some.inj hlevel
    exact ((c.withFrames own).setValue_reassigned path value).leaves hlength
  | .setVariable name value, c, own, opened, next, hlength, hlevel => by
    obtain rfl := Option.some.inj hlevel
    have hset := (c.withFrames own).setValue_reassigned (.ofName name) value
    exact (hset.mono fun _ h => Option.some.inj h.1).leaves hlength
  | .push, c, own, opened, next, hlength, hlevel => by
    obtain rfl := Option.some.inj hlevel
    exact ⟨[] :: own, c, rfl, by rw [List.length_cons, hlength], .refl⟩
  | .pop, c, own, opened, next, hlength, hlevel => by
    cases opened with
    | zero => cases hlevel
    | succ opened =>
      obtain rfl := Option.some.inj hlevel
      exact Leaves.pop ⟨own, c, rfl, hlength, .refl⟩
  | .clear, _, _, _, _, _, hlevel => by cases hlevel
  | .setStrict strict, c, own, opened, next, hlength, hlevel => by
    obtain rfl := Option.some.inj hlevel
    exact ⟨own, c.setStrict strict, rfl, hlength, .setStrict .refl strict⟩
  | .evaluate node, c, own, opened, next, hlength, hlevel => by
    obtain rfl := Option.some.inj hlevel
    exact (node.evaluate_assigns (c.withFrames own)).leaves hlength
  | .extend e, c, own, opened, next, hlength, hlevel => by
    obtain rfl := Option.some.inj hlevel
    exact ⟨own, c.withSemantics (c.semantics.extend e), rfl, hlength, .withSemantics .refl _⟩
  | .scope body, c, own, opened, next, hlength, hlevel => by
    obtain ⟨inside, hinside, hclosed⟩ := Option.bind_eq_some_iff.1 hlevel
    have hpushed : ([] :: own : List Frame).length = opened + 1 + 1 := by
      rw [List.length_cons, hlength]
    have hbody := Action.runAll_leaves body (c := c) hpushed hinside
    cases inside with
    | zero => cases hclosed
    | succ inside =>
      obtain rfl := Option.some.inj hclosed
      exact hbody.pop

theorem Action.runAll_leaves : ∀ (actions : List Action) {c : Context} {own : List Frame}
    {opened next : Nat}, own.length = opened + 1 → Action.levelAll? actions opened = some next →
      c.Leaves next (Action.ReachesAll c.depth actions (c.withFrames own))
        (Action.runAll actions (c.withFrames own))
  | [], c, own, opened, next, hlength, hlevel => by
    obtain rfl := Option.some.inj hlevel
    exact ⟨own, c, rfl, hlength, .refl⟩
  | action :: rest, c, own, opened, next, hlength, hlevel => by
    obtain ⟨behind, hbehind, hlevel⟩ := Option.bind_eq_some_iff.1 hlevel
    obtain ⟨changed, base, hrun, hchanged, hbase⟩ := Action.run_leaves action hlength hbehind
    obtain ⟨last, final, hlast, hlength', hfinal⟩ :=
      Action.runAll_leaves rest (c := base) hchanged hlevel
    refine ⟨last, final, ?_, hlength', ?_⟩
    · rw [runAll, hrun, hlast]
    · rw [hbase.depth_eq, ← hrun] at hfinal
      exact (hbase.mono fun _ => Or.inl).trans (hfinal.mono fun _ => Or.inr)
end

namespace Context

/-- The frames of a context are still there, and nothing is different but variables with the
property. -/
structure Retained (Written : String → Prop) (c d : Context) : Prop where
  depth_eq : d.depth = c.depth
  /-- every frame binds the names that it bound, -/
  names : ∀ i name, (c.bound? i name).isSome = true → (d.bound? i name).isSome = true
  /-- and no others, apart from the globals; -/
  inner : ∀ i name, i + 1 < c.depth → (d.bound? i name).isSome = (c.bound? i name).isSome
  /-- other variables are bound to the same values, -/
  others : ∀ i name, ¬ Written name → d.bound? i name = c.bound? i name
  /-- and no others are visible that were not visible before. -/
  visible : ∀ name, d.hasVariable name = true → c.hasVariable name = true ∨ Written name

variable {Written : String → Prop} {c d : Context}

theorem hasVariable_iff {name : String} :
    c.hasVariable name = true ↔ ∃ i, (c.bound? i name).isSome = true := by
  rw [hasVariable, lookup?, List.findSome?_isSome_iff]
  constructor
  · rintro ⟨frame, hframe, hbound⟩
    obtain ⟨i, hi⟩ := List.mem_iff_getElem?.1 hframe
    exact ⟨i, by rwa [bound?, hi, Option.bind_some]⟩
  · rintro ⟨i, hi⟩
    obtain ⟨v, hv⟩ := Option.isSome_iff_exists.1 hi
    obtain ⟨frame, hframe, hbound⟩ := Option.bind_eq_some_iff.1 hv
    exact ⟨frame, List.mem_of_getElem? hframe, Option.isSome_of_eq_some hbound⟩

/-- A name that is assigned inside the globals is bound where it is assigned. -/
theorem isSome_bound?_home {name : String} (hhome : c.home name + 1 < c.depth) :
    (c.bound? (c.home name) name).isSome = true := by
  have hlt : c.inner.findIdx (Entries.contains name) < c.inner.length := Nat.lt_of_succ_lt_succ hhome
  obtain ⟨frame, hframe, hbound⟩ := List.findIdx_lt_length.1 hlt
  rw [bound?_home, lookup?, List.findSome?_isSome_iff]
  exact ⟨frame, List.mem_append_left _ hframe, hbound⟩

theorem Reassigned.bound?_eq (h : c.Reassigned Written d) {name : String} (hname : ¬ Written name)
    (i : Nat) : d.bound? i name = c.bound? i name := by
  induction h with
  | refl => rfl
  | assign _ hwritten w ih =>
    rw [bound?_assign, if_neg, ih]
    rintro ⟨-, rfl⟩
    exact hname hwritten
  | setStrict _ _ ih => exact ih
  | withSemantics _ _ ih => exact ih

theorem Reassigned.isSome_bound? (h : c.Reassigned Written d) {i : Nat} {name : String}
    (hbound : (c.bound? i name).isSome = true) : (d.bound? i name).isSome = true := by
  induction h with
  | refl => exact hbound
  | assign _ _ w ih =>
    rw [bound?_assign]
    split
    · rfl
    · exact ih
  | setStrict _ _ ih => exact ih
  | withSemantics _ _ ih => exact ih

theorem Reassigned.isSome_bound?_eq (h : c.Reassigned Written d) {i : Nat} {name : String}
    (hi : i + 1 < c.depth) : (d.bound? i name).isSome = (c.bound? i name).isSome := by
  induction h with
  | refl => rfl
  | @assign d assigned h _ w ih =>
    rw [bound?_assign]
    split
    · rename_i hhere
      obtain ⟨rfl, rfl⟩ := hhere
      rw [← ih, isSome_bound?_home]
      · rfl
      · rwa [h.depth_eq]
    · exact ih
  | setStrict _ _ ih => exact ih
  | withSemantics _ _ ih => exact ih

theorem Reassigned.retained (h : c.Reassigned Written d) : c.Retained Written d where
  depth_eq := h.depth_eq
  names _ _ := h.isSome_bound?
  inner _ _ := h.isSome_bound?_eq
  others i _ hname := h.bound?_eq hname i
  visible name hvisible := by
    by_contra hnot
    rw [not_or] at hnot
    obtain ⟨i, hi⟩ := hasVariable_iff.1 hvisible
    rw [h.bound?_eq hnot.2] at hi
    exact hnot.1 (hasVariable_iff.2 ⟨i, hi⟩)

end Context

/-- A scope around actions that close all frames that they open, and no others, keeps the frames
that were there.  Around it only variables that the actions assign there are different, and behind
it no others are visible than before. -/
theorem Action.scope_retained {actions : List Action} (hbalanced : Balanced actions)
    (c : Context) :
    c.Retained (ReachesAll c.depth actions c.push) ((Action.scope actions).run c) := by
  have hframe : ([[]] : List Frame).length = 0 + 1 := rfl
  exact (runAll_leaves actions (c := c) hframe hbalanced).reassigned.retained

/-- Actions that open a frame and close it again, and step a variable of the globals. -/
def Action.counting : List Action :=
  [.declare "x" (.int 1), .push, .declare "y" (.int 2), .pop,
    .evaluate (.unary .increment .before (.name "n" none))]

/-- Behind a scope around them, `x` is not visible. -/
theorem Action.scope_retained_counting :
    let c : Context := ⟨[("n", .int 1)], [], false, .core⟩
    Balanced counting ∧ c.Retained (ReachesAll 1 counting c.push) ((Action.scope counting).run c) ∧
      ((Action.scope counting).run c).hasVariable "x" = false := by
  intro c
  have hbalanced : Balanced counting := rfl
  have hretained := scope_retained hbalanced c
  refine ⟨hbalanced, hretained, Bool.eq_false_iff.2 fun hvisible => ?_⟩
  have hroot : (Node.name "n" none).root? = some "n" := by cbv
  have hreaches : ¬ ReachesAll 1 counting c.push "x" := by
    simp [counting, ReachesAll, Reaches, Assigns, Node.Steps, Node.stepped, Operation.isStep,
      Node.isReference, hroot]
  rcases hretained.visible "x" hvisible with hbefore | hafter
  · cases hbefore
  · exact hreaches hafter

/-- A frame that is left open is dropped in place of the frame of the scope, and what is declared
there stays visible.  If the frame of the scope is dropped before, a frame around it is lost. -/
theorem Action.scope_unbalanced :
    let c : Context := ⟨[], [[("y", .null)]], false, .core⟩
    let unclosed := (Action.scope [.declare "x" (.int 1), .push]).run c
    let dropped := (Action.scope [.pop]).run c
    (c.depth = 2 ∧ unclosed.depth = 3 ∧ c.hasVariable "x" = false ∧
      ¬ ReachesAll 2 [.declare "x" (.int 1), .push] c.push "x" ∧ unclosed.hasVariable "x" = true) ∧
    dropped.depth = 1 ∧ c.hasVariable "y" = true ∧ dropped.hasVariable "y" = false := by
  refine ⟨⟨rfl, rfl, rfl, ?_, rfl⟩, rfl, rfl, rfl⟩
  simp [ReachesAll, Reaches, Assigns]

end ExprLang
