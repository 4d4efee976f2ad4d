import ExprLang.Evaluation
import ExprLang.Proofs.Effects.Shape

/-!
# Assignments

An assignment that succeeds is read back at its path and changes nothing else: it replaces one value
in one binding of one frame, which is the innermost frame that binds the root name, or the globals
if none does.  An assignment that fails changes nothing (`Context.setValue_spec`).  Where an
assignment ends depends only on what the root name is bound to (`Context.setValue_eq`).
-/

namespace ExprLang

/-- The place that a path leads to inside the variable that it begins with. -/
def PathKey.place : PathKey → Value.Place
  | property name => .entry name
  | index n => .item n.toInt.toNat

def Path.places (path : Path) : List Value.Place :=
  path.map PathKey.place

theorem Path.places_property (name : String) (rest : Path) :
    places (.property name :: rest) = .entry name :: places rest := rfl

theorem Path.places_index {n : Int64} {i : Nat} (hn : n.toInt = i) (rest : Path) :
    places (.index n :: rest) = .item i :: places rest := by
  simp only [places, List.map_cons, PathKey.place, hn, Int.toNat_natCast]

namespace Value

/-- Storing `new` at a path turns one value into another.  A step to the end of the path may add a
key to a map; all other steps lead to parts that are there. -/
inductive Stored (new : Value) : Value → Path → Value → Prop
  | here (v : Value) : Stored new v [] new
  | entry {entries : Entries Value} {name : String} {rest : Path} {w changed : Value}
      (hget : rest ≠ [] → entries.get? name = some w) (hrest : Stored new w rest changed) :
      Stored new (.map entries) (.property name :: rest) (.map (entries.insert name changed))
  | item {items : List Value} {n : Int64} {i : Nat} {rest : Path} {w changed : Value}
      (hposition : position? items.length n = some i) (hget : items[i]? = some w)
      (hrest : Stored new w rest changed) :
      Stored new (.list items) (.index n :: rest) (.list (items.set i changed))

theorem stored_of_store? {new v v' : Value} {path : Path} (h : store? new v path = some v') :
    Stored new v path v' := by
  induction path generalizing v v' with
  | nil =>
    rw [store?] at h
    obtain rfl := Option.some.inj h
    exact .here v
  | cons key rest ih =>
    cases v with
    | map entries =>
      cases key with
      | index n => cases h
      | property name =>
        cases rest with
        | nil =>
          obtain rfl := Option.some.inj h
          exact .entry (w := .null) (fun hnil => absurd rfl hnil) (.here _)
        | cons next rest =>
          simp only [store?, Option.bind_eq_bind] at h
          obtain ⟨w, hget, h⟩ := Option.bind_eq_some_iff.1 h
          obtain ⟨changed, hchanged, h⟩ := Option.bind_eq_some_iff.1 h
          obtain rfl := Option.some.inj h
          exact .entry (fun _ => hget) (ih hchanged)
    | list items =>
      cases key with
      | property name => simp [store?] at h
      | index n =>
        simp only [store?, Option.bind_eq_bind] at h
        obtain ⟨i, hposition, h⟩ := Option.bind_eq_some_iff.1 h
        obtain ⟨w, hget, h⟩ := Option.bind_eq_some_iff.1 h
        obtain ⟨changed, hchanged, h⟩ := Option.bind_eq_some_iff.1 h
        obtain rfl := Option.some.inj h
        exact .item hposition hget (ih hchanged)
    | _ => simp [store?] at h

namespace Stored

variable {new v v' : Value} {path : Path}

/-- What is stored at a path is read there. -/
theorem fetch?_eq (h : Stored new v path v') : v'.fetch? path = some new := by
  induction h with
  | here v => rw [fetch?]
  | entry _ _ ih =>
    rw [fetch?, Entries.get?_insert_self]
    exact ih
  | @item items n i rest w changed hposition hget _ ih =>
    have hlt : i < items.length := (List.getElem?_eq_some_iff.1 hget).1
    rw [fetch?, List.length_set, hposition]
    simp only [Option.bind_eq_bind, Option.bind_some, List.getElem?_set_self hlt]
    exact ih

/-- Parts that are neither inside nor around the place of the path stay as they are. -/
theorem part?_eq (h : Stored new v path v') {places : List Place}
    (hinside : ¬ path.places <+: places) (haround : ¬ places <+: path.places) : v'.part? places = v.part? places := by
  induction h generalizing places with
  | here v => exact absurd List.nil_prefix hinside
  | @entry entries name rest w changed hget _ ih =>
    rw [Path.places_property] at hinside haround
    cases places with
    | nil => exact absurd List.nil_prefix haround
    | cons place others =>
      cases place with
      | item position => rfl
      | entry other =>
        rw [part?_map, part?_map]
        by_cases hname : other = name
        · simp only [hname, List.cons_prefix_cons, true_and] at hinside haround
          have hrest : rest ≠ [] := fun hnil => hinside (hnil ▸ List.nil_prefix)
          rw [hname, Entries.get?_insert_self, hget hrest]
          exact ih hinside haround
        · rw [Entries.get?_insert_of_ne hname]
  | @item items n i rest w changed hposition hget _ ih =>
    obtain ⟨hn, hlt⟩ := position?_eq_some_iff.1 hposition
    rw [Path.places_index hn] at hinside haround
    cases places with
    | nil => exact absurd List.nil_prefix haround
    | cons place others =>
      cases place with
      | entry name => rfl
      | item position =>
        rw [part?_list, part?_list]
        by_cases heq : position = i
        · simp only [heq, List.cons_prefix_cons, true_and] at hinside haround
          rw [heq, List.getElem?_set_self hlt, hget]
          exact ih hinside haround
        · rw [List.getElem?_set_ne (Ne.symm heq)]

/-- The containers around the place of the path stay of the same type. -/
theorem tag_eq (h : Stored new v path v') {places : List Place} (haround : places <+: path.places)
    (hne : places ≠ path.places) : (v'.part? places).map tag = (v.part? places).map tag := by
  induction h generalizing places with
  | here v => exact absurd (List.prefix_nil.1 haround) hne
  | @entry entries name rest w changed hget _ ih =>
    rw [Path.places_property] at haround hne
    cases places with
    | nil => rfl
    | cons place others =>
      obtain ⟨rfl, hothers⟩ := List.cons_prefix_cons.1 haround
      have hne' : others ≠ Path.places rest := fun heq => hne (heq ▸ rfl)
      have hrest : rest ≠ [] := by
        intro hnil
        rw [hnil] at hothers hne'
        exact hne' (List.prefix_nil.1 hothers)
      rw [part?_map, part?_map, Entries.get?_insert_self, hget hrest]
      exact ih hothers hne'
  | @item items n i rest w changed hposition hget _ ih =>
    obtain ⟨hn, hlt⟩ := position?_eq_some_iff.1 hposition
    rw [Path.places_index hn] at haround hne
    cases places with
    | nil => rfl
    | cons place others =>
      obtain ⟨rfl, hothers⟩ := List.cons_prefix_cons.1 haround
      have hne' : others ≠ Path.places rest := fun heq => hne (heq ▸ rfl)
      rw [part?_list, part?_list, List.getElem?_set_self hlt, hget]
      exact ih hothers hne'

end Stored

end Value

namespace Context

/-- The value of a name in the frame at a position, the innermost first. -/
def bound? (c : Context) (i : Nat) (name : String) : Option Value :=
  c.frames[i]?.bind fun frame => frame.get? name

/-- The position of the frame where a name is assigned, the innermost one first: the innermost frame
that binds the name, or the globals behind all others if none does. -/
def home (c : Context) (name : String) : Nat :=
  c.inner.findIdx (Entries.contains name)

/-- The context with a value bound to a name in the frame where the name is assigned. -/
def assign (c : Context) (name : String) (w : Value) : Context :=
  if c.inner.any (Entries.contains name) then
    { c with inner := c.inner.modify (c.home name) (Entries.insert name w) }
  else { c with globals := Entries.insert name w c.globals }

section

variable {globals frame : Frame} {rest : List Frame} {strict : Bool} {semantics : Semantics}
  {name : String} {w : Value}

/-- A frame that binds the name hides the frames behind it. -/
theorem assign_of_contains (hframe : Entries.contains name frame = true) :
    assign ⟨globals, frame :: rest, strict, semantics⟩ name w =
      ⟨globals, Entries.insert name w frame :: rest, strict, semantics⟩ := by
  simp [assign, home, hframe, List.findIdx_cons]

/-- A frame that does not bind the name stays as it is. -/
theorem assign_of_not_contains (hframe : ¬ Entries.contains name frame = true) :
    assign ⟨globals, frame :: rest, strict, semantics⟩ name w =
      { assign ⟨globals, rest, strict, semantics⟩ name w with
        inner := frame :: (assign ⟨globals, rest, strict, semantics⟩ name w).inner } := by
  by_cases hany : rest.any (Entries.contains name) = true
  · simp [assign, home, hframe, hany, List.findIdx_cons]
  · simp [assign, hframe, hany]

end

variable (c : Context) (name : String) (w : Value)

@[simp] theorem strict_assign : (c.assign name w).strict = c.strict := by
  rw [assign]
  split <;> rfl

@[simp] theorem semantics_assign : (c.assign name w).semantics = c.semantics := by
  rw [assign]
  split <;> rfl

/-- An assignment changes one frame and keeps all others at their places. -/
theorem frames_assign :
    (c.assign name w).frames = c.frames.modify (c.home name) (Entries.insert name w) := by
  obtain ⟨globals, inner, strict, semantics⟩ := c
  induction inner with
  | nil => simp [assign, frames, home]
  | cons frame rest ih =>
    simp only [frames, home] at ih ⊢
    by_cases hframe : Entries.contains name frame = true
    · rw [assign_of_contains hframe]
      simp [List.findIdx_cons, hframe]
    · rw [assign_of_not_contains hframe]
      simp [List.findIdx_cons, hframe, ih]

@[simp] theorem depth_assign : (c.assign name w).depth = c.depth := by
  rw [← length_frames, frames_assign, List.length_modify, length_frames]

theorem lookup?_assign_self : (c.assign name w).lookup? name = some w := by
  obtain ⟨globals, inner, strict, semantics⟩ := c
  induction inner with
  | nil => simp [assign, lookup?, frames, Entries.get?_insert_self]
  | cons frame rest ih =>
    simp only [lookup?, frames] at ih ⊢
    by_cases hframe : Entries.contains name frame = true
    · rw [assign_of_contains hframe]
      simp [Entries.get?_insert_self]
    · have hnone : Entries.get? name frame = none := by simpa [Entries.contains] using hframe
      rw [assign_of_not_contains hframe]
      simpa [hnone] using ih

theorem lookup?_assign_of_ne {other : String} (hne : other ≠ name) :
    (c.assign name w).lookup? other = c.lookup? other := by
  have hget : ∀ frames : List Frame, ∀ i : Nat,
      ((frames.modify i (Entries.insert name w)).findSome? fun frame => frame.get? other) =
        frames.findSome? fun frame => frame.get? other := by
    intro frames
    induction frames with
    | nil => simp
    | cons frame rest ih =>
      intro i
      cases i with
      | zero => simp [List.findSome?_cons, Entries.get?_insert_of_ne hne]
      | succ i => simp [List.findSome?_cons, ih]
  rw [lookup?, frames_assign]
  exact hget _ _

end Context

/-- A name that is not bound is assigned as if it were bound to null, which has no parts. -/
theorem Frame.store?_eq (frame : Frame) (root : String) (rest : Path) (value : Value) :
    frame.store? root rest value =
      (Value.store? value ((frame.get? root).getD .null) rest).map fun w =>
        Entries.insert root w frame := by
  cases rest with
  | nil => rw [store?, Value.store?, Option.map_some]
  | cons key rest =>
    cases hget : Entries.get? root frame with
    | none => simp [store?, hget, Value.store?]
    | some v => simp [store?, hget, Option.map_eq_bind]

namespace Context

/-- What an assignment to a path binds to the name that the path begins with, if it succeeds. -/
def changed? (c : Context) (root : String) (rest : Path) (value : Value) : Option Value :=
  Value.store? value ((c.lookup? root).getD .null) rest

theorem changeFrame?_store (c : Context) (root : String) (rest : Path) (value : Value) :
    changeFrame? root (fun frame => frame.store? root rest value) c.globals c.inner =
      (c.changed? root rest value).map fun w =>
        ((c.assign root w).globals, (c.assign root w).inner) := by
  obtain ⟨globals, inner, strict, semantics⟩ := c
  induction inner with
  | nil =>
    simp [changeFrame?, Frame.store?_eq, changed?, lookup?, frames, assign, Option.map_map,
      Function.comp_def]
  | cons frame inner ih =>
    simp only at ih
    by_cases hframe : Entries.contains root frame = true
    · obtain ⟨v, hv⟩ := Option.isSome_iff_exists.1 hframe
      simp [changeFrame?, Frame.store?_eq, changed?, lookup?, frames, assign_of_contains hframe,
        hframe, hv, Option.map_map, Function.comp_def]
    · have hnone : Entries.get? root frame = none := by simpa [Entries.contains] using hframe
      simp [changeFrame?, ih, hframe, changed?, lookup?, frames, assign_of_not_contains hframe,
        hnone, Option.map_map, Function.comp_def]

/-- Whether an assignment succeeds, and what it binds, depends only on what the root name is bound
to before. -/
theorem setValue_eq (c : Context) (root : String) (rest : Path) (value : Value) :
    c.setValue (.property root :: rest) value =
      match c.changed? root rest value with
      | some w => .ok (c.assign root w)
      | none => .error (.cannotAssign (.property root :: rest)) := by
  rw [setValue, changeFrame?_store]
  cases c.changed? root rest value with
  | none => rfl
  | some w =>
    have hstrict := strict_assign c root w
    have hsemantics := semantics_assign c root w
    simp only [Option.map_some, ← hstrict, ← hsemantics]

/-- An assignment that succeeds binds the name that the path begins with. -/
theorem exists_of_setValue {c d : Context} {path : Path} {value : Value}
    (h : c.setValue path value = .ok d) :
    ∃ root rest w, path = .property root :: rest ∧ c.changed? root rest value = some w ∧
      d = c.assign root w := by
  match path with
  | [] | .index _ :: _ => cases h
  | .property root :: rest =>
    rw [setValue_eq] at h
    cases hchanged : c.changed? root rest value with
    | none =>
      rw [hchanged] at h
      cases h
    | some w =>
      rw [hchanged] at h
      exact ⟨root, rest, w, rfl, hchanged, (Except.ok.inj h).symm⟩

/-- The context after `value` has been assigned to the path `rest` below the name `root`. -/
structure Assigned (c : Context) (root : String) (rest : Path) (value : Value) (c' : Context) :
    Prop where
  /-- the path is read as the value that was assigned -/
  reads : c'.getValue (.property root :: rest) = .ok value
  depth_eq : c'.depth = c.depth
  strict_eq : c'.strict = c.strict
  semantics_eq : c'.semantics = c.semantics
  /-- frames other than the one where the name is assigned have not changed, -/
  frames : ∀ i, i ≠ c.home root → c'.frames[i]? = c.frames[i]?
  /-- in that frame, bindings of other names have not, -/
  bindings : ∀ name, name ≠ root → c'.bound? (c.home root) name = c.bound? (c.home root) name
  /-- in the binding of the name, parts that are neither inside nor around the path have not, -/
  parts : ∀ places, ¬ Path.places rest <+: places → ¬ places <+: Path.places rest →
    ((c'.bound? (c.home root) root).bind fun v => v.part? places) =
      (c.bound? (c.home root) root).bind fun v => v.part? places
  /-- and the containers around the path are of the types that they were of. -/
  tags : ∀ places, places <+: Path.places rest → places ≠ Path.places rest →
    (((c'.bound? (c.home root) root).bind fun v => v.part? places).map Value.tag) =
      ((c.bound? (c.home root) root).bind fun v => v.part? places).map Value.tag

section

variable (c : Context) (name : String) (w : Value)

/-- The frame where a name is assigned is the one where it is looked up. -/
theorem bound?_home : c.bound? (c.home name) name = c.lookup? name := by
  obtain ⟨globals, inner, strict, semantics⟩ := c
  simp only [bound?, lookup?, frames, home]
  induction inner with
  | nil => simp
  | cons frame inner ih =>
    by_cases hframe : Entries.contains name frame = true
    · obtain ⟨v, hv⟩ := Option.isSome_iff_exists.1 hframe
      simp [List.findIdx_cons, hframe, hv]
    · have hnone : Entries.get? name frame = none := by simpa [Entries.contains] using hframe
      simpa [List.findIdx_cons, hframe, hnone] using ih

theorem home_lt_depth : c.home name < c.depth := by
  rw [home, depth]
  exact Nat.lt_succ_of_le List.findIdx_le_length

/-- An assignment changes one binding. -/
theorem bound?_assign (i : Nat) (other : String) :
    (c.assign name w).bound? i other =
      if i = c.home name ∧ other = name then some w else c.bound? i other := by
  have hlt : c.home name < c.frames.length := c.length_frames ▸ c.home_lt_depth name
  rw [bound?, frames_assign]
  by_cases hi : i = c.home name
  · rw [hi, List.getElem?_modify_eq, List.getElem?_eq_getElem hlt]
    by_cases hother : other = name
    · simp [hother, Entries.get?_insert_self]
    · simp [hother, Entries.get?_insert_of_ne hother, bound?, List.getElem?_eq_getElem hlt]
  · rw [List.getElem?_modify_ne _ _ (Ne.symm hi), if_neg fun h => hi h.1, bound?]

theorem bound?_assign_self : (c.assign name w).bound? (c.home name) name = some w := by
  rw [bound?_assign, if_pos ⟨rfl, rfl⟩]

end

/-- An assignment that stores a value below what the name is bound to. -/
theorem assigned_of_changed? {c : Context} {root : String} {rest : Path} {value w : Value}
    (hchanged : c.changed? root rest value = some w) :
    c.Assigned root rest value (c.assign root w) := by
  have hstored := Value.stored_of_store? hchanged
  -- A path that does not end at the name itself needs the name to be bound.
  have hbound : rest ≠ [] → c.lookup? root = some ((c.lookup? root).getD .null) := by
    intro hrest
    cases hlookup : c.lookup? root with
    | some v => rfl
    | none =>
      rw [hlookup] at hstored
      cases hstored with
      | here v => exact absurd rfl hrest
  constructor
  case reads =>
    simp only [getValue, lookup?_assign_self, Option.bind_some, hstored.fetch?_eq]
  case depth_eq => exact depth_assign c root w
  case strict_eq => exact strict_assign c root w
  case semantics_eq => exact semantics_assign c root w
  case frames =>
    intro i hi
    rw [frames_assign, List.getElem?_modify_ne _ _ (Ne.symm hi)]
  case bindings =>
    intro name hname
    rw [bound?_assign, if_neg fun h => hname h.2]
  case parts =>
    intro places hinside haround
    have hrest : rest ≠ [] := fun hnil => hinside (hnil ▸ List.nil_prefix)
    rw [bound?_assign_self, bound?_home, hbound hrest]
    exact hstored.part?_eq hinside haround
  case tags =>
    intro places haround hne
    have hrest : rest ≠ [] := by
      intro hnil
      rw [hnil] at haround hne
      exact hne (List.prefix_nil.1 haround)
    rw [bound?_assign_self, bound?_home, hbound hrest]
    exact hstored.tag_eq haround hne

/-- An assignment that succeeds is read back at its path; it has changed no frame but the innermost
one that bound the root name, or the globals if none did, there no binding but that of the root
name, and in it nothing that is off the path.  An assignment that fails has changed nothing. -/
theorem setValue_spec (c : Context) (path : Path) (value : Value) :
    match (Eval.change fun c => c.setValue path value) c with
    | (.ok (), c') => ∃ root rest, path = .property root :: rest ∧ c.Assigned root rest value c'
    | (.error fault, c') => c' = c ∧ fault = .cannotAssign path := by
  rw [Eval.change]
  cases path with
  | nil => exact ⟨rfl, rfl⟩
  | cons key rest =>
    cases key with
    | index n => exact ⟨rfl, rfl⟩
    | property root =>
      rw [setValue_eq]
      cases hchanged : c.changed? root rest value with
      | none => exact ⟨rfl, rfl⟩
      | some w => exact ⟨root, rest, rfl, assigned_of_changed? hchanged⟩

/-- A variable of the globals is assigned through a frame that does not bind it. -/
example :
    setValue ⟨[("x", .list [.int 1, .int 2])], [[("y", .null)]], false, .core⟩
        [.property "x", .index 1] (.int 7) =
      .ok ⟨[("x", .list [.int 1, .int 7])], [[("y", .null)]], false, .core⟩ := by
  rfl

end Context

end ExprLang
