import ExprLang.Proofs.Effects.Assignment

/-!
# Steps on variables

Only a step on a reference writes to the context.  It writes a number over a number of the same
type, in the innermost frame that binds the root name of the path, which is where it has read
(`stepAt_changes`).
-/

namespace ExprLang

/-- The variable that a path begins with. -/
def Path.root? : Path → Option String
  | .property root :: _ => some root
  | _ => none

namespace Context

/-- All frames bind the same names as before, to values that are alike; what differs is bound to
one of the names `roots`. -/
structure ChangesWithin (roots : List String) (before after : Context) : Prop where
  depth_eq : after.depth = before.depth
  strict_eq : after.strict = before.strict
  semantics_eq : after.semantics = before.semantics
  alike : ∀ i name, Option.Rel Value.Alike (before.bound? i name) (after.bound? i name)
  others : ∀ i name, name ∉ roots → after.bound? i name = before.bound? i name

namespace ChangesWithin

theorem rel_refl (v : Option Value) : Option.Rel Value.Alike v v := by
  cases v with
  | none => exact .none
  | some v => exact .some (.refl v)

theorem rel_trans {u v w : Option Value} (huv : Option.Rel Value.Alike u v)
    (hvw : Option.Rel Value.Alike v w) : Option.Rel Value.Alike u w := by
  cases huv with
  | none => exact hvw
  | some huv =>
    cases hvw with
    | some hvw => exact .some (huv.trans hvw)

theorem refl (roots : List String) (c : Context) : ChangesWithin roots c c where
  depth_eq := rfl
  strict_eq := rfl
  semantics_eq := rfl
  alike := fun _ _ => rel_refl _
  others := fun _ _ _ => rfl

theorem trans {roots : List String} {a b c : Context} (hab : ChangesWithin roots a b)
    (hbc : ChangesWithin roots b c) : ChangesWithin roots a c where
  depth_eq := hbc.depth_eq.trans hab.depth_eq
  strict_eq := hbc.strict_eq.trans hab.strict_eq
  semantics_eq := hbc.semantics_eq.trans hab.semantics_eq
  alike := fun i name => rel_trans (hab.alike i name) (hbc.alike i name)
  others := fun i name hname => (hbc.others i name hname).trans (hab.others i name hname)

theorem mono {roots more : List String} {a b : Context} (h : ChangesWithin roots a b)
    (hsubset : roots ⊆ more) : ChangesWithin more a b where
  depth_eq := h.depth_eq
  strict_eq := h.strict_eq
  semantics_eq := h.semantics_eq
  alike := h.alike
  others := fun i name hname => h.others i name fun hmem => hname (hsubset hmem)

end ChangesWithin

/-- Assigning to a location a value that is alike to the one that is read there. -/
theorem setValue_changes {c c' : Context} {root : String} {rest : Path} {v old new : Value}
    (hlookup : c.lookup? root = some v) (hfetch : v.fetch? rest = some old)
    (halike : Value.Alike old new) (hset : c.setValue (.property root :: rest) new = .ok c') :
    ChangesWithin [root] c c' := by
  obtain ⟨_, _, w, ⟨⟩, hchanged, rfl⟩ := exists_of_setValue hset
  rw [changed?, hlookup, Option.getD_some] at hchanged
  have hvalue := halike.store hfetch hchanged
  constructor
  case depth_eq => exact depth_assign c root w
  case strict_eq => exact strict_assign c root w
  case semantics_eq => exact semantics_assign c root w
  case alike =>
    intro i name
    rw [bound?_assign]
    by_cases hhere : i = c.home root ∧ name = root
    · rw [if_pos hhere, hhere.1, hhere.2, bound?_home, hlookup]
      exact .some hvalue
    · rw [if_neg hhere]
      exact ChangesWithin.rel_refl _
  case others =>
    intro i name hname
    rw [bound?_assign, if_neg]
    exact fun hhere => hname (hhere.2 ▸ List.mem_cons_self)

end Context

namespace Semantics

/-- The handler of a step takes numbers and nothing else. -/
theorem resolveUnary_step {operation : Operation} (hstep : operation.isStep = true) (v : Value) :
    core.operators.resolveUnary operation v =
      if v.isNumber then .ok ⟨operation, .number, Operators.stepped (operation == .increment)⟩
      else .error (.noUnaryHandler operation v.tag) := by
  cases operation with
  | increment | decrement => cases v <;> rfl
  | _ => cases hstep

/-- A number is stepped and the result is given the type of the number again. -/
theorem step_of_isNumber {operation : Operation} (hstep : operation.isStep = true) {old : Value}
    (hnumber : old.isNumber = true) :
    core.step operation old =
      (Operators.stepped (operation == .increment) old >>= fun stepped =>
        match core.conversion.convert stepped old.tag with
        | .ok updated => .ok updated
        | .error _ => .error (.doesNotFit operation stepped old.tag)) := by
  rw [step, resolveUnary_step hstep, if_pos hnumber]
  rfl

/-- One more or less than an integer is a wide integer. -/
theorem exists_long_of_stepped {up : Bool} {n : Int64} {v w : Value} (hv : v.long? = some n)
    (h : Operators.stepped up v = .ok w) : ∃ m, w = .long m := by
  cases v with
  | int k =>
    simp only [Operators.stepped] at h
    split at h
    · exact ⟨_, (Except.ok.inj h).symm⟩
    · cases h
  | long k =>
    simp only [Operators.stepped] at h
    split at h
    · exact ⟨_, (Except.ok.inj h).symm⟩
    · cases h
  | _ => cases hv

theorem convert_long_int (m : Int64) :
    core.conversion.convert (.long m) .int =
      Conversion.partially .int Conversion.narrowed? (.long m) := rfl

/-- A wide integer that is converted to a narrow one is narrow, if it fits. -/
theorem tag_of_convert_long {m : Int64} {w : Value}
    (h : core.conversion.convert (.long m) .int = .ok w) : w.tag = .int := by
  rw [convert_long_int, Conversion.partially] at h
  split at h
  · rename_i result hresult
    obtain ⟨k, -, rfl⟩ := Option.map_eq_some_iff.1 hresult
    rw [← Except.ok.inj h]
    rfl
  · cases h

/-- Stepping succeeds for numbers only, and keeps their type. -/
theorem step_core {operation : Operation} (hstep : operation.isStep = true) {old updated : Value}
    (h : core.step operation old = .ok updated) :
    old.isNumber = true ∧ updated.tag = old.tag := by
  by_cases hnumber : old.isNumber = true
  · refine ⟨hnumber, ?_⟩
    rw [step_of_isNumber hstep hnumber] at h
    cases hstepped : Operators.stepped (operation == .increment) old with
    | error fault =>
      rw [hstepped] at h
      cases h
    | ok stepped =>
      rw [hstepped] at h
      cases hconverted : core.conversion.convert stepped old.tag with
      | error fault =>
        simp only [Bind.bind, Except.bind, hconverted] at h
        cases h
      | ok converted =>
        simp only [Bind.bind, Except.bind, hconverted] at h
        obtain rfl := Except.ok.inj h
        cases old with
        | int n =>
          obtain ⟨m, rfl⟩ := exists_long_of_stepped rfl hstepped
          exact tag_of_convert_long hconverted
        | long n =>
          obtain ⟨m, rfl⟩ := exists_long_of_stepped rfl hstepped
          rw [← Except.ok.inj hconverted]
          rfl
        | double d =>
          obtain rfl := Except.ok.inj hstepped
          rw [← Except.ok.inj hconverted]
          rfl
        | _ => cases hnumber
  · rw [step, resolveUnary_step hstep, if_neg hnumber] at h
    cases h

end Semantics

/-- An evaluation with another one behind it, which needs the result of the first. -/
theorem Eval.bind_apply {α β : Type} (p : Eval α) (f : α → Eval β) (c : Context) :
    (p >>= f) c =
      match p c with
      | (.ok a, c') => f a c'
      | (.error e, c') => (.error e, c') := by
  rcases hp : p c with ⟨_ | a, c'⟩
  · change (match p c with | (r, c₁) => (ExceptT.bindCont f r : StateM _ _) c₁) = _
    rw [hp]
    rfl
  · change (match p c with | (r, c₁) => (ExceptT.bindCont f r : StateM _ _) c₁) = _
    rw [hp]
    rfl

/-- A step reads the path, computes the updated value and assigns it. -/
theorem stepAt_eq (operation : Operation) (fix : Fix) (path : Path) (c : Context) :
    stepAt operation fix path c =
      match c.getValue path with
      | .error fault => (.error fault, c)
      | .ok old =>
        match c.semantics.step operation old with
        | .error fault => (.error fault, c)
        | .ok updated =>
          match c.setValue path updated with
          | .error fault => (.error fault, c)
          | .ok changed =>
            (.ok (match fix with
              | .before => updated
              | .after => old), changed) := by
  have hask : ∀ f : Context → Outcome, (Eval.ask f) c = (f c, c) := fun _ => rfl
  rw [stepAt, Eval.bind_apply, hask]
  cases c.getValue path with
  | error fault => rfl
  | ok old =>
    simp only
    rw [Eval.bind_apply, hask]
    cases c.semantics.step operation old with
    | error fault => rfl
    | ok updated =>
      simp only
      rw [Eval.bind_apply, Eval.change]
      cases c.setValue path updated with
      | error fault => rfl
      | ok changed => rfl

/-- A step leaves the context as it is, or it assigns the updated value. -/
theorem stepAt_apply (operation : Operation) (fix : Fix) (path : Path) (c : Context) :
    (stepAt operation fix path c).2 = c ∨ ∃ old updated, c.getValue path = .ok old ∧
      c.semantics.step operation old = .ok updated ∧
      c.setValue path updated = .ok (stepAt operation fix path c).2 := by
  rw [stepAt_eq]
  cases hget : c.getValue path with
  | error fault => exact Or.inl rfl
  | ok old =>
    simp only
    cases hupdate : c.semantics.step operation old with
    | error fault => exact Or.inl rfl
    | ok updated =>
      simp only
      cases hset : c.setValue path updated with
      | error fault => exact Or.inl rfl
      | ok changed => exact Or.inr ⟨old, updated, rfl, hupdate, hset⟩

/-- A number that is read is a part of the variable that the path begins with. -/
theorem exists_of_getValue {c : Context} {path : Path} {old : Value}
    (h : c.getValue path = .ok old) (hnumber : old.isNumber = true) :
    ∃ root rest v, path = .property root :: rest ∧ c.lookup? root = some v ∧
      v.fetch? rest = some old := by
  cases path with
  | nil => cases h
  | cons key rest =>
    cases key with
    | index n => cases h
    | property root =>
      rw [Context.getValue] at h
      cases hfound : (c.lookup? root).bind fun v => v.fetch? rest with
      | some found =>
        rw [hfound] at h
        obtain rfl := Except.ok.inj h
        obtain ⟨v, hlookup, hfetch⟩ := Option.bind_eq_some_iff.1 hfound
        exact ⟨root, rest, v, rfl, hlookup, hfetch⟩
      | none =>
        -- What is missing is read as null, if at all.
        rw [hfound] at h
        change c.missing (.property root :: rest) = .ok old at h
        rw [Context.missing] at h
        split at h
        · cases h
        · rw [← Except.ok.inj h] at hnumber
          cases hnumber

/-- A step on a path changes the variable that the path begins with, or nothing. -/
theorem stepAt_changes {operation : Operation} (hstep : operation.isStep = true) (fix : Fix)
    (path : Path) (c : Context) (hcore : c.semantics = Semantics.core) :
    c.ChangesWithin path.root?.toList (stepAt operation fix path c).2 := by
  rcases stepAt_apply operation fix path c with hsame | ⟨old, updated, hget, hupdate, hset⟩
  · rw [hsame]
    exact .refl _ c
  · rw [hcore] at hupdate
    obtain ⟨hnumber, htag⟩ := Semantics.step_core hstep hupdate
    obtain ⟨root, rest, v, rfl, hlookup, hfetch⟩ := exists_of_getValue hget hnumber
    exact Context.setValue_changes hlookup hfetch (Value.alike_of_isNumber hnumber htag) hset

end ExprLang
