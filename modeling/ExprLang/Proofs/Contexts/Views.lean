import ExprLang.Error.Kind
import ExprLang.Proofs.Contexts.Actions
import ExprLang.Proofs.Contexts.Bindings

/-!
# Views of the variables

A name is looked up from the innermost frame outwards; the list of visible variables is written from
the globals inwards.  Both find the same bindings as long as the frames are sorted, which they are
after every run of actions on a new context (`Action.runAll_consistent`).
-/

namespace ExprLang

namespace Context

section

variable {c : Context} {P : Frame → Prop} {name : String} {value : Value}

/-- What all frames have, and insertions keep, all frames have after a declaration. -/
theorem forall_frames_declare (h : ∀ frame ∈ c.frames, P frame)
    (hinsert : ∀ frame : Frame, P frame → P (Entries.insert name value frame)) :
    ∀ frame ∈ (c.declare name value).frames, P frame := by
  obtain ⟨globals, inner, strict, semantics⟩ := c
  cases inner with
  | nil =>
    have hglobals := List.forall_mem_singleton.1 h
    exact List.forall_mem_singleton.2 (hinsert globals hglobals)
  | cons frame rest =>
    obtain ⟨hframe, hrest⟩ := List.forall_mem_cons.1 h
    exact List.forall_mem_cons.2 ⟨hinsert frame hframe, hrest⟩

/-- What all frames have, and insertions keep, all frames have after an assignment. -/
theorem forall_frames_assign (h : ∀ frame ∈ c.frames, P frame)
    (hinsert : ∀ frame : Frame, P frame → P (Entries.insert name value frame)) :
    ∀ frame ∈ (c.assign name value).frames, P frame := by
  intro frame hframe
  rw [frames_assign] at hframe
  obtain ⟨i, hi⟩ := List.mem_iff_getElem?.1 hframe
  rw [List.getElem?_modify] at hi
  obtain ⟨old, hold, hchanged⟩ := Option.map_eq_some_iff.1 hi
  have hkept := h old (List.mem_of_getElem? hold)
  split at hchanged
  · exact hchanged ▸ hinsert old hkept
  · exact hchanged ▸ hkept

end

/-- No frame binds a name twice. -/
def Sorted (c : Context) : Prop :=
  ∀ frame ∈ c.frames, Entries.Sorted frame

theorem sorted_iff {c : Context} :
    c.Sorted ↔ (∀ frame ∈ c.inner, Entries.Sorted frame) ∧ Entries.Sorted c.globals := by
  rw [Sorted, frames, List.forall_mem_append, List.forall_mem_singleton]

theorem kept_sorted : Kept Sorted where
  declare _ _ h := forall_frames_declare h fun _ => Entries.sorted_insert
  assign _ _ h := forall_frames_assign h fun _ => Entries.sorted_insert
  push h := List.forall_mem_cons.2 ⟨List.Pairwise.nil, h⟩
  pop h := by
    obtain ⟨hinner, hglobals⟩ := sorted_iff.1 h
    exact sorted_iff.2 ⟨fun frame hframe => hinner frame (List.mem_of_mem_tail hframe), hglobals⟩
  clear _ := List.forall_mem_singleton.2 List.Pairwise.nil
  setStrict _ h := h
  withSemantics _ h := h

/-- What is visible is what is looked up. -/
theorem Sorted.get?_visible {c : Context} (h : c.Sorted) (name : String) :
    c.visible.get? name = c.lookup? name := by
  obtain ⟨globals, inner, strict, semantics⟩ := c
  have hinner := (sorted_iff.1 h).1
  simp only [visible, lookup?, frames]
  clear h
  induction inner with
  | nil => simp
  | cons frame rest ih =>
    obtain ⟨hframe, hrest⟩ := List.forall_mem_cons.1 hinner
    rw [List.foldr_cons, Entries.get?_override hframe, ih hrest, List.cons_append,
      List.findSome?_cons]
    cases Entries.get? name frame <;> rfl

theorem Sorted.visible {c : Context} (h : c.Sorted) : c.visible.Sorted := by
  obtain ⟨globals, inner, strict, semantics⟩ := c
  obtain ⟨hinner, hglobals⟩ := sorted_iff.1 h
  simp only [Context.visible]
  clear h
  induction inner with
  | nil => exact hglobals
  | cons frame rest ih =>
    exact Entries.sorted_override (ih (List.forall_mem_cons.1 hinner).2 hglobals)

theorem getVariable_eq (c : Context) (name : String) :
    c.getVariable name =
      match c.lookup? name with
      | some v => .ok v
      | none => c.missing (.ofName name) := by
  rw [getVariable, Path.ofName, getValue]
  cases c.lookup? name <;> rfl

/-- The views of the variables of a context agree. -/
structure Consistent (c : Context) : Prop where
  depth_pos : 0 < c.frames.length
  /-- each visible variable is listed once -/
  visible_sorted : c.visible.Sorted
  hasVariable_eq : ∀ name, c.hasVariable name = c.visible.contains name
  bound : ∀ name v, c.visible.get? name = some v → c.getVariable name = .ok v
  lax : ∀ name, c.strict = false → c.visible.get? name = none → c.getVariable name = .ok .null
  strict : ∀ name, c.strict = true → c.visible.get? name = none →
    ∃ fault : Fault, c.getVariable name = .error fault ∧ fault.kind = .unresolved

theorem Sorted.consistent {c : Context} (h : c.Sorted) : c.Consistent := by
  constructor
  case depth_pos => simp [frames]
  case visible_sorted => exact h.visible
  case hasVariable_eq =>
    intro name
    rw [hasVariable, Entries.contains, h.get?_visible]
  case bound =>
    intro name v hv
    rw [h.get?_visible] at hv
    rw [getVariable_eq, hv]
  case lax =>
    intro name hlax hnone
    rw [h.get?_visible] at hnone
    rw [getVariable_eq, hnone, missing, hlax]
    rfl
  case strict =>
    intro name hstrict hnone
    rw [h.get?_visible] at hnone
    rw [getVariable_eq, hnone, missing, hstrict]
    exact ⟨_, rfl, rfl⟩

end Context

/-- After every run of actions on a new context, there is a frame, and each name is visible,
present and read in agreement. -/
theorem Action.runAll_consistent (semantics : Semantics) (strict : Bool) (actions : List Action) :
    (runAll actions (.new semantics strict)).Consistent := by
  have hnew : (Context.new semantics strict).Sorted :=
    List.forall_mem_singleton.2 List.Pairwise.nil
  exact (runAll_keeps Context.kept_sorted actions _ hnew).consistent

end ExprLang
