import ExprLang.Proofs.Effects.Integers
import ExprLang.Proofs.Effects.Simulation

/-!
# Increments

If a reference is read as an integer that has a next one, an increment writes the next one where the
integer was read (`Grammar.KeepsCore.evaluate_increment`).  Reading and writing arrive at the same
place, with one exception: to be read, an entry of a map may also be named by an integer, and such
an entry is not assigned.
-/

namespace ExprLang

namespace Value

/-- An integer and the next one of the same type. -/
inductive Precedes : Value → Value → Prop
  | int {n : Int32} (h : n < Int32.maxValue) : Precedes (.int n) (.int (n + 1))
  | long {n : Int64} (h : n < Int64.maxValue) : Precedes (.long n) (.long (n + 1))

theorem toInt_next_int {n : Int32} (h : n < Int32.maxValue) : (n + 1).toInt = n.toInt + 1 := by
  have hlt := Int32.lt_iff_toInt_lt.1 h
  have hle := n.minValue_le_toInt
  rw [Int32.toInt_maxValue] at hlt
  rw [Int32.toInt_minValue] at hle
  rw [Int32.toInt_add, Int32.toInt_one]
  apply Int.bmod_eq_of_le <;> omega

theorem toInt_next_long {n : Int64} (h : n < Int64.maxValue) : (n + 1).toInt = n.toInt + 1 := by
  have hlt := Int64.lt_iff_toInt_lt.1 h
  have hle := n.minValue_le_toInt
  rw [Int64.toInt_maxValue] at hlt
  rw [Int64.toInt_minValue] at hle
  rw [Int64.toInt_add, Int64.toInt_one]
  apply Int.bmod_eq_of_le <;> omega

theorem Precedes.isNumber {old new : Value} (h : Precedes old new) : old.isNumber = true := by
  cases h <;> rfl

theorem Precedes.shifted?_eq {old new : Value} (h : Precedes old new) :
    old.shifted? 1 = some new := by
  cases h with
  | int h => rw [shifted?, int32?_eq_some_iff.2 (toInt_next_int h), Option.map_some]
  | long h => rw [shifted?, int64?_eq_some_iff.2 (toInt_next_long h), Option.map_some]

/-- An increment gives the next integer. -/
theorem Precedes.step_eq {old new : Value} (h : Precedes old new) :
    Semantics.core.step .increment old = .ok new :=
  Semantics.step_of_shifted? rfl h.shifted?_eq

/-- Some step of the path takes an integer for a key of a map. -/
def IndexesMap (v : Value) (path : Path) : Prop :=
  ∃ front n back entries, path = front ++ .index n :: back ∧ v.fetch? front = some (.map entries)

theorem not_indexesMap_nil (v : Value) : ¬ v.IndexesMap [] := by
  intro h
  obtain ⟨front, n, back, entries, hpath, -⟩ := h
  cases front <;> cases hpath

theorem indexesMap_map_index (entries : Entries Value) (n : Int64) (rest : Path) :
    (map entries).IndexesMap (.index n :: rest) :=
  ⟨[], n, rest, entries, rfl, rfl⟩

/-- A step that is no integer into a map leaves the other steps to the part that it leads to. -/
theorem indexesMap_cons {v w : Value} {key : PathKey} {rest : Path}
    (hhere : ∀ n entries, key = .index n → v ≠ .map entries)
    (hstep : ∀ more, v.fetch? (key :: more) = w.fetch? more) :
    v.IndexesMap (key :: rest) ↔ w.IndexesMap rest := by
  constructor
  · intro h
    obtain ⟨front, n, back, entries, hpath, hfetch⟩ := h
    cases front with
    | nil =>
      obtain ⟨hkey, -⟩ := List.cons.inj hpath
      rw [fetch?] at hfetch
      exact absurd (Option.some.inj hfetch) (hhere n entries hkey)
    | cons first front =>
      obtain ⟨rfl, hrest⟩ := List.cons.inj hpath
      exact ⟨front, n, back, entries, hrest, hstep front ▸ hfetch⟩
  · intro h
    obtain ⟨front, n, back, entries, rfl, hfetch⟩ := h
    exact ⟨key :: front, n, back, entries, rfl, (hstep front).trans hfetch⟩

/-- Where a number is read, a value can be stored, unless the path takes an integer from a map. -/
theorem isSome_store?_iff {v old : Value} {path : Path} (hfetch : v.fetch? path = some old)
    (hnumber : old.isNumber = true) (new : Value) :
    (store? new v path).isSome = true ↔ ¬ v.IndexesMap path := by
  induction path generalizing v with
  | nil =>
    rw [store?]
    exact iff_of_true rfl v.not_indexesMap_nil
  | cons key rest ih =>
    cases v with
    | map entries =>
      cases key with
      | index n =>
        have hnone : store? new (.map entries) (.index n :: rest) = none := rfl
        rw [hnone]
        exact iff_of_false Bool.false_ne_true fun h => h (indexesMap_map_index entries n rest)
      | property name =>
        obtain ⟨w, hget, hw⟩ := Option.bind_eq_some_iff.1 hfetch
        have hstep : ∀ more, (map entries).fetch? (.property name :: more) = w.fetch? more := by
          intro more
          simp only [fetch?, hget, Option.bind_eq_bind, Option.bind_some]
        have hhere : ∀ n others, PathKey.property name = .index n → map entries ≠ map others := by
          rintro n others ⟨⟩
        rw [indexesMap_cons hhere hstep, ← ih hw]
        cases rest with
        | nil =>
          rw [store?, store?]
          exact iff_of_true rfl rfl
        | cons next rest =>
          simp only [store?, hget, Option.bind_eq_bind, Option.bind_some]
          cases store? new w (next :: rest) <;> rfl
    | list items =>
      cases key with
      | property name => simp [fetch?] at hfetch
      | index n =>
        simp only [fetch?, Option.bind_eq_bind] at hfetch
        obtain ⟨i, hposition, hfetch⟩ := Option.bind_eq_some_iff.1 hfetch
        obtain ⟨w, hget, hw⟩ := Option.bind_eq_some_iff.1 hfetch
        have hstep : ∀ more, (list items).fetch? (.index n :: more) = w.fetch? more := by
          intro more
          simp only [fetch?, hposition, hget, Option.bind_eq_bind, Option.bind_some]
        have hhere : ∀ m entries, PathKey.index n = .index m → list items ≠ map entries := by
          rintro m entries - ⟨⟩
        rw [indexesMap_cons hhere hstep, ← ih hw]
        simp only [store?, hposition, hget, Option.bind_eq_bind, Option.bind_some]
        cases store? new w rest <;> rfl
    | str s =>
      -- A text is left for a character, which is no number.
      cases key with
      | property name => simp [fetch?] at hfetch
      | index n =>
        cases rest with
        | cons next rest => simp [fetch?] at hfetch
        | nil =>
          simp only [fetch?, Option.bind_eq_bind] at hfetch
          obtain ⟨i, -, hfetch⟩ := Option.bind_eq_some_iff.1 hfetch
          obtain ⟨ch, -, hchar⟩ := Option.bind_eq_some_iff.1 hfetch
          obtain rfl := Option.some.inj hchar
          cases hnumber
    | _ => simp [fetch?] at hfetch

end Value

namespace Context

/-- Some step of the path takes an integer for a key of a map. -/
def IndexesMap (c : Context) (path : Path) : Prop :=
  ∃ front n back entries, path = front ++ .index n :: back ∧ c.getValue front = .ok (.map entries)

theorem indexesMap_iff {c : Context} {root : String} {rest : Path} {v : Value}
    (hlookup : c.lookup? root = some v) :
    c.IndexesMap (.property root :: rest) ↔ v.IndexesMap rest := by
  have hread : ∀ front entries, c.getValue (.property root :: front) = .ok (.map entries) ↔
      v.fetch? front = some (.map entries) := by
    intro front entries
    rw [getValue, hlookup, Option.bind_some]
    cases v.fetch? front with
    | some w => simp
    | none =>
      simp only [missing]
      split <;> simp
  constructor
  · intro h
    obtain ⟨front, n, back, entries, hpath, hmap⟩ := h
    cases front with
    | nil => cases hmap
    | cons first front =>
      obtain ⟨rfl, hrest⟩ := List.cons.inj hpath
      exact ⟨front, n, back, entries, hrest, (hread front entries).1 hmap⟩
  · intro h
    obtain ⟨front, n, back, entries, rfl, hmap⟩ := h
    exact ⟨.property root :: front, n, back, entries, rfl, (hread front entries).2 hmap⟩

end Context

/-- An increment at a path where an integer is read writes the next one there, unless the path takes
an integer from a map. -/
theorem stepAt_increment {c : Context} (hcore : c.semantics = Semantics.core) {path : Path}
    {old new : Value} (hread : c.getValue path = .ok old) (hnext : old.Precedes new) :
    (c.IndexesMap path →
      stepAt .increment .before path c = (.error (.cannotAssign path), c)) ∧
    (¬ c.IndexesMap path → ∃ root rest w, path = .property root :: rest ∧
      stepAt .increment .before path c = (.ok new, c.assign root w) ∧
      c.Assigned root rest new (c.assign root w)) := by
  obtain ⟨root, rest, v, rfl, hlookup, hfetch⟩ := exists_of_getValue hread hnext.isNumber
  have hchanged : c.changed? root rest new = Value.store? new v rest := by
    rw [Context.changed?, hlookup, Option.getD_some]
  have hstores := Value.isSome_store?_iff hfetch hnext.isNumber new
  rw [Context.indexesMap_iff hlookup, stepAt_eq, hread, hcore]
  simp only [hnext.step_eq, Context.setValue_eq]
  constructor
  · intro hindexes
    have hnone : Value.store? new v rest = none :=
      Option.not_isSome_iff_eq_none.1 fun h => hstores.1 h hindexes
    rw [hchanged, hnone]
  · intro hindexes
    obtain ⟨w, hw⟩ := Option.isSome_iff_exists.1 (hstores.2 hindexes)
    have hassigned := Context.assigned_of_changed? (hchanged.trans hw)
    rw [hchanged, hw]
    exact ⟨root, rest, w, rfl, rfl, hassigned⟩

theorem Path.isSome_root?_ofDotted (dotted : String) : (ofDotted dotted).root?.isSome = true := by
  rw [ofDotted]
  cases hparts : Text.splitAt ['.'] dotted.toList with
  | nil => exact absurd hparts (Text.splitAt_ne_nil _ _)
  | cons part rest => rfl

mutual
/-- What a rooted tree has for references are references, and they are rooted. -/
theorem Node.rooted_references :
    ∀ node : Node, node.Rooted → ∀ r ∈ node.references, r.isReference = true ∧ r.Rooted
  | .literal _, _ => fun r hr => nomatch hr
  | .name _ _, _ => by
    rw [Node.references, List.forall_mem_singleton]
    exact ⟨rfl, trivial⟩
  | .path segments, h => by
    rw [Node.references, List.forall_mem_cons]
    exact ⟨⟨rfl, h⟩, Segment.rooted_references segments h.2⟩
  | .unary _ _ operand, h => by
    rw [Node.references]
    exact Node.rooted_references operand h
  | .binary _ left right, h => by
    rw [Node.references, List.forall_mem_append]
    exact ⟨Node.rooted_references left h.1, Node.rooted_references right h.2⟩
  | .ternary condition positive negative, h => by
    rw [Node.references, List.forall_mem_append, List.forall_mem_append]
    exact ⟨Node.rooted_references condition h.1, Node.rooted_references positive h.2.1,
      Node.rooted_references negative h.2.2⟩
  | .call _ arguments, h => by
    rw [Node.references]
    exact Node.rooted_referencesAll arguments h
  | .arguments items, h => by
    rw [Node.references]
    exact Node.rooted_referencesAll items h
  | .parameters params, h => by
    rw [Node.references]
    exact Parameter.rooted_references params h

theorem Node.rooted_referencesAll :
    ∀ nodes : List Node, Node.RootedAll nodes →
      ∀ r ∈ Node.referencesAll nodes, r.isReference = true ∧ r.Rooted
  | [], _ => fun r hr => nomatch hr
  | node :: rest, h => by
    rw [Node.referencesAll, List.forall_mem_append]
    exact ⟨Node.rooted_references node h.1, Node.rooted_referencesAll rest h.2⟩

theorem Segment.rooted_references :
    ∀ segments : List Segment, Segment.Rooted segments →
      ∀ r ∈ Segment.references segments, r.isReference = true ∧ r.Rooted
  | [], _ => fun r hr => nomatch hr
  | .property _ :: rest, h => by
    rw [Segment.references]
    exact Segment.rooted_references rest h
  | .index node :: rest, h => by
    rw [Segment.references, List.forall_mem_append]
    exact ⟨Node.rooted_references node h.1, Segment.rooted_references rest h.2⟩

theorem Parameter.rooted_references :
    ∀ params : List Parameter, Parameter.Rooted params →
      ∀ r ∈ Parameter.references params, r.isReference = true ∧ r.Rooted
  | [], _ => fun r hr => nomatch hr
  | .mk _ none :: rest, h => by
    rw [Parameter.references]
    exact Parameter.rooted_references rest h
  | .mk _ (some default) :: rest, h => by
    rw [Parameter.references, List.forall_mem_append]
    exact ⟨Node.rooted_references default h.1, Parameter.rooted_references rest h.2⟩
end

/-- The simulation of contexts that differ in one variable only, among trees that do not refer to
it. -/
def Simulation.besides (root : String) : Simulation where
  Related c d := (c.semantics = Semantics.core ∧ d.semantics = Semantics.core) ∧
    c.strict = d.strict ∧ ∀ name, name ≠ root → c.lookup? name = d.lookup? name
  Excused _ := False
  Allowed name := name ≠ root
  core h := h.1
  lookup h hname := h.2.2 _ hname
  missing h path := Or.inl (by rw [Context.missing, Context.missing, h.2.1])
  assign := by
    intro c d name h hname w
    obtain ⟨hcore, hstrict, hlookup⟩ := h
    simp only [Context.semantics_assign, Context.strict_assign]
    refine ⟨hcore, hstrict, ?_⟩
    intro other hother
    by_cases heq : other = name
    · rw [heq, Context.lookup?_assign_self, Context.lookup?_assign_self]
    · rw [Context.lookup?_assign_of_ne c name w heq, Context.lookup?_assign_of_ne d name w heq]
      exact hlookup other hother

namespace Node

/-- The references inside the index expressions of a reference. -/
def inner : Node → List Node
  | .path segments => Segment.references segments
  | _ => []

section

variable {r : Node} (hreference : r.isReference = true)
include hreference

/-- A reference is read at its path. -/
theorem evaluate_reference :
    r.evaluate = r.keys >>= fun path => Eval.ask fun c => c.getValue path := by
  cases r with
  | name dotted given => rw [evaluate, keys, pure_bind]
  | path segments => rw [evaluate, keys]
  | _ => cases hreference

/-- A step on a reference is a step at its path. -/
theorem evaluate_step_reference {operation : Operation} (hstep : operation.isStep = true)
    (fix : Fix) :
    (unary operation fix r).evaluate = r.keys >>= fun path => stepAt operation fix path := by
  cases r with
  | name dotted given => rw [evaluate_step_name hstep, keys, pure_bind]
  | path segments => rw [evaluate, if_pos hstep, keys]
  | _ => cases hreference

variable (hrooted : r.Rooted)
include hrooted

theorem root?_of_keys {c : Context} {path : Path} (hkeys : (r.keys c).1 = .ok path) :
    path.root? = r.root? := by
  cases r with
  | name dotted given =>
    obtain rfl := Except.ok.inj hkeys
    rfl
  | path segments =>
    obtain ⟨⟨root, rest, rfl⟩, -⟩ := hrooted
    exact Segment.root?_of_keys hkeys
  | _ => cases hreference

theorem isSome_root? : r.root?.isSome = true := by
  cases r with
  | name dotted given => exact Path.isSome_root?_ofDotted dotted
  | path segments =>
    obtain ⟨⟨root, rest, rfl⟩, -⟩ := hrooted
    rfl
  | _ => cases hreference

/-- The path of a reference that steps nothing is found without a change. -/
theorem keys_same (hsteps : r.stepped = []) {c : Context} (hcore : c.semantics = Semantics.core) :
    (r.keys c).2 = c := by
  cases r with
  | name dotted given => rfl
  | path segments => exact (Segment.keys_within segments hrooted.2 c hcore).2 hsteps
  | _ => cases hreference

/-- The path of a reference does not depend on a variable that its index expressions do not refer
to. -/
theorem keys_assign {root : String} (hroot : ∀ node ∈ r.inner, node.root? ≠ some root)
    {c : Context} (hcore : c.semantics = Semantics.core) (w : Value) :
    (r.keys (c.assign root w)).1 = (r.keys c).1 := by
  cases r with
  | name dotted given => rfl
  | path segments =>
    have hadmits : (Simulation.besides root).Admits (Segment.references segments) := by
      intro node hnode name hname heq
      obtain ⟨hreference, hrooted⟩ := Segment.rooted_references segments hrooted.2 node hnode
      have hsome := isSome_root? hreference hrooted
      cases hname with
      | inl hnone => simp [hnone] at hsome
      | inr hname => exact hroot node hnode (heq ▸ hname)
    have hrelated : (Simulation.besides root).Related c (c.assign root w) := by
      refine ⟨⟨hcore, (c.semantics_assign root w).trans hcore⟩, (c.strict_assign root w).symm, ?_⟩
      intro name hname
      exact (c.lookup?_assign_of_ne root w hname).symm
    cases Simulation.keys_parallel segments hadmits c _ hrelated with
    | inl hsame => exact hsame.1.symm
    | inr hexcused => exact hexcused.elim fun _ h => h.2.elim
  | _ => cases hreference

end

/-- A reference that stays the same when its variable changes: its index expressions step nothing and
do not refer to the variable. -/
structure Stable (r : Node) : Prop where
  reference : r.isReference = true
  rooted : r.Rooted
  steps : r.stepped = []
  inner : ∀ node ∈ r.inner, node.root? ≠ r.root?

namespace Stable

variable {r : Node} (h : r.Stable) {c : Context} (hcore : c.semantics = Semantics.core)
include h hcore

theorem keys_eq : r.keys c = ((r.keys c).1, c) :=
  Prod.ext rfl (keys_same h.reference h.rooted h.steps hcore)

theorem evaluate_eq {path : Path} (hpath : (r.keys c).1 = .ok path) :
    r.evaluate c = (c.getValue path, c) := by
  rw [evaluate_reference h.reference, Eval.bind_apply, h.keys_eq hcore, hpath]
  rfl

/-- A reference that has a value has a path. -/
theorem exists_path {v : Value} (hread : (r.evaluate c).1 = .ok v) :
    ∃ path, (r.keys c).1 = .ok path := by
  rw [evaluate_reference h.reference, Eval.bind_apply, h.keys_eq hcore] at hread
  cases hkeys : (r.keys c).1 with
  | error fault =>
    rw [hkeys] at hread
    cases hread
  | ok path => exact ⟨path, rfl⟩

theorem evaluate_step_eq {operation : Operation} (hstep : operation.isStep = true) (fix : Fix)
    {path : Path} (hpath : (r.keys c).1 = .ok path) :
    (unary operation fix r).evaluate c = stepAt operation fix path c := by
  rw [evaluate_step_reference h.reference hstep, Eval.bind_apply, h.keys_eq hcore, hpath]

/-- An assignment to the variable does not change the path. -/
theorem keys_assigned {root : String} {rest : Path}
    (hpath : (r.keys c).1 = .ok (.property root :: rest)) (w : Value) :
    (r.keys (c.assign root w)).1 = .ok (.property root :: rest) := by
  have hroot : r.root? = some root := (root?_of_keys h.reference h.rooted hpath).symm
  rw [keys_assign h.reference h.rooted (fun node hnode => hroot ▸ h.inner node hnode) hcore, hpath]

end Stable

/-- A reference that is read as an integer that has a next one is incremented. -/
theorem increment_of_rooted {r : Node} (hreference : r.isReference = true) (hrooted : r.Rooted)
    (hsteps : r.stepped = []) (hroot : ∀ node ∈ r.inner, node.root? ≠ r.root?) {c : Context}
    (hcore : c.semantics = Semantics.core) {old new : Value} (hread : (r.evaluate c).1 = .ok old)
    (hnext : old.Precedes new) :
    ∃ path, r.keys c = (.ok path, c) ∧
      (c.IndexesMap path →
        (unary .increment .before r).evaluate c = (.error (.cannotAssign path), c)) ∧
      (¬ c.IndexesMap path → ∃ c', (unary .increment .before r).evaluate c = (.ok new, c') ∧
        (r.evaluate c').1 = .ok new) := by
  have hstable : r.Stable := ⟨hreference, hrooted, hsteps, hroot⟩
  obtain ⟨path, hpath⟩ := hstable.exists_path hcore hread
  rw [hstable.evaluate_eq hcore hpath] at hread
  rw [hstable.evaluate_step_eq hcore rfl .before hpath]
  obtain ⟨hfails, hsucceeds⟩ := stepAt_increment hcore hread hnext
  refine ⟨path, by rw [hstable.keys_eq hcore, hpath], hfails, fun hindexes => ?_⟩
  obtain ⟨root, rest, w, rfl, hstep, hassigned⟩ := hsucceeds hindexes
  have hcore' := hassigned.semantics_eq.trans hcore
  have hagain := hstable.keys_assigned hcore hpath w
  refine ⟨_, hstep, ?_⟩
  rw [hstable.evaluate_eq hcore' hagain]
  exact hassigned.reads

end Node

namespace Grammar

/-- Over the core semantics, let a reference in a tree that was parsed be read as an integer that
has a next one.  If its index expressions step nothing and do not refer to its variable, then an
increment gives the next integer and the reference is read as it afterwards.  There is one
exception: if the path of the reference takes an integer for a key of a map, the increment fails and
changes nothing. -/
theorem KeepsCore.evaluate_increment {g : Grammar} (hkeeps : g.KeepsCore) {construct : Construct}
    (hconstruct : construct ∈ Construct.core) {start stop : Cursor} {n r : Node}
    (hparse : (g.parse construct).Gives start n stop) (hr : r ∈ n.references)
    (hsteps : r.stepped = []) (hroot : ∀ node ∈ r.inner, node.root? ≠ r.root?) {c : Context}
    (hcore : c.semantics = Semantics.core) {old new : Value} (hread : (r.evaluate c).1 = .ok old)
    (hnext : old.Precedes new) :
    ∃ path, r.keys c = (.ok path, c) ∧
      (c.IndexesMap path →
        (Node.unary .increment .before r).evaluate c = (.error (.cannotAssign path), c)) ∧
      (¬ c.IndexesMap path → ∃ c', (Node.unary .increment .before r).evaluate c = (.ok new, c') ∧
        (r.evaluate c').1 = .ok new) := by
  have hrooted := hkeeps.rooted_of_parse hconstruct hparse
  obtain ⟨hreference, hrooted⟩ := Node.rooted_references n hrooted r hr
  exact Node.increment_of_rooted hreference hrooted hsteps hroot hcore hread hnext

/-- A list, a position in it, and a map with a key that spells an integer. -/
def stocked : Context :=
  ⟨[("counts", .list [.int 1, .int 2]), ("i", .int 1), ("m", .map [("1", .int 5)])], [], false,
    .core⟩

/-- The tree of `counts[i]`. -/
def countAt : Node :=
  .path [.property "counts", .index (.name "i" none)]

/-- `++counts[i]` counts the second item on. -/
theorem evaluate_increment_countAt :
    ∃ c', (Node.unary .increment .before countAt).evaluate stocked = (.ok (.int 3), c') ∧
      (countAt.evaluate c').1 = .ok (.int 3) := by
  have hkeeps : core.KeepsCore := keepsCore_of_parsers rfl
  have hparse : (core.parse .expression).Gives
      ⟨[], ⟨BasicKind.increment, "++", .none⟩,
        [⟨BasicKind.identifier, "counts", .none⟩, ⟨BasicKind.lbracket, "[", .none⟩,
          ⟨BasicKind.identifier, "i", .none⟩, ⟨BasicKind.rbracket, "]", .none⟩,
          ⟨BasicKind.eof, "", .none⟩]⟩
      (Node.unary .increment .before countAt)
      ⟨[⟨BasicKind.rbracket, "]", .none⟩, ⟨BasicKind.identifier, "i", .none⟩,
        ⟨BasicKind.lbracket, "[", .none⟩, ⟨BasicKind.identifier, "counts", .none⟩,
        ⟨BasicKind.increment, "++", .none⟩], ⟨BasicKind.eof, "", .none⟩, []⟩ := rfl
  have hr : countAt ∈ (Node.unary .increment .before countAt).references := List.mem_cons_self
  have hsteps : countAt.stepped = [] := by cbv
  have hroot : ∀ node ∈ countAt.inner, node.root? ≠ countAt.root? := by
    have hinner : countAt.inner = [.name "i" none] := by cbv
    have hi : (Node.name "i" none).root? = some "i" := by cbv
    have hcounts : countAt.root? = some "counts" := rfl
    rw [hinner, List.forall_mem_singleton, hi, hcounts]
    decide
  have hread : (countAt.evaluate stocked).1 = .ok (.int 2) := by cbv
  have hnext : Value.Precedes (.int 2) (.int 3) := Value.Precedes.int (by decide)
  obtain ⟨path, hkeys, -, hsucceeds⟩ :=
    hkeeps.evaluate_increment (by decide) hparse hr hsteps hroot rfl hread hnext
  have hpath : (countAt.keys stocked).1 = .ok [.property "counts", .index 1] := by cbv
  rw [hkeys] at hpath
  obtain rfl := Except.ok.inj hpath
  apply hsucceeds
  have hlookup : stocked.lookup? "counts" = some (.list [.int 1, .int 2]) := rfl
  have hfetch : (Value.list [.int 1, .int 2]).fetch? [.index 1] = some (.int 2) := rfl
  rw [Context.indexesMap_iff hlookup]
  exact (Value.isSome_store?_iff hfetch rfl .null).1 rfl

/-- The tree of `m[1]`. -/
def entryAt : Node :=
  .path [.property "m", .index (.literal (.int 1))]

/-- In `++m[1]`, the entry is read as 5, but it is not incremented. -/
theorem increment_entryAt_fails :
    (∃ start stop, (core.parse .expression).Gives start (Node.unary .increment .before entryAt)
      stop) ∧
      entryAt ∈ (Node.unary .increment .before entryAt).references ∧ entryAt.stepped = [] ∧
      entryAt.inner = [] ∧ (entryAt.evaluate stocked).1 = .ok (.int 5) ∧
      (5 : Int32) < Int32.maxValue ∧
      (Node.unary .increment .before entryAt).evaluate stocked =
        (.error (.cannotAssign [.property "m", .index 1]), stocked) := by
  have hparse : (core.parse .expression).Gives
      ⟨[], ⟨BasicKind.increment, "++", .none⟩,
        [⟨BasicKind.identifier, "m", .none⟩, ⟨BasicKind.lbracket, "[", .none⟩,
          ⟨BasicKind.number, "1", .none⟩, ⟨BasicKind.rbracket, "]", .none⟩,
          ⟨BasicKind.eof, "", .none⟩]⟩
      (Node.unary .increment .before entryAt)
      ⟨[⟨BasicKind.rbracket, "]", .none⟩, ⟨BasicKind.number, "1", .none⟩,
        ⟨BasicKind.lbracket, "[", .none⟩, ⟨BasicKind.identifier, "m", .none⟩,
        ⟨BasicKind.increment, "++", .none⟩], ⟨BasicKind.eof, "", .none⟩, []⟩ := rfl
  have hread : (entryAt.evaluate stocked).1 = .ok (.int 5) := by cbv
  have hfails : (Node.unary .increment .before entryAt).evaluate stocked =
      (.error (.cannotAssign [.property "m", .index 1]), stocked) := by cbv
  exact ⟨⟨_, _, hparse⟩, List.mem_cons_self, rfl, rfl, hread, by decide, hfails⟩

end Grammar

end ExprLang
