import ExprLang.Context

/-!
# What the library asks for

A function of the library asks the context for operators and conversions and for nothing else, and
what it cannot use of the answers it passes on (`Library.transparent_all`).  A call by name therefore
has the same outcome whatever the variables are, and whether the context is strict or not
(`Functions.call_core`).
-/

namespace ExprLang

/-- The first result is the second one, or it is an error that is excused. -/
def Matches {α : Type} (Excused : Fault → Prop) (x y : Except Fault α) : Prop :=
  x = y ∨ ∃ fault, x = .error fault ∧ Excused fault

namespace Matches

variable {Excused : Fault → Prop} {α β : Type} {x y : Except Fault α}

theorem refl (Excused : Fault → Prop) (x : Except Fault α) : Matches Excused x x :=
  Or.inl rfl

theorem bind {f g : α → Except Fault β} (h : Matches Excused x y)
    (hfg : ∀ a, Matches Excused (f a) (g a)) : Matches Excused (x >>= f) (y >>= g) := by
  cases h with
  | inl heq =>
    subst heq
    cases x with
    | error fault => exact .refl _ _
    | ok a => exact hfg a
  | inr hexcused =>
    obtain ⟨fault, rfl, hfault⟩ := hexcused
    exact Or.inr ⟨fault, rfl, hfault⟩

/-- If nothing is excused, then the results are the same. -/
theorem eq (h : Matches (fun _ => False) x y) : x = y :=
  h.resolve_right fun ⟨_, _, hfalse⟩ => hfalse

/-- If all errors are excused, then a value of the first is a value of the second. -/
theorem of_ok (h : ∀ a, x = .ok a → y = .ok a) : Matches (fun _ => True) x y := by
  cases x with
  | error fault => exact Or.inr ⟨fault, rfl, trivial⟩
  | ok a => exact Or.inl (h a rfl).symm

end Matches

/-- The body asks for operators and conversions only.  If what it is given matches what it is given
elsewhere, then so does its outcome. -/
def Function.Transparent (f : Function) : Prop :=
  ∀ (Excused : Fault → Prop) (s t : Services),
    (∀ operation l r, Matches Excused (s.operate operation l r) (t.operate operation l r)) →
    (∀ v target, Matches Excused (s.convert v target) (t.convert v target)) →
    ∀ args, Matches Excused (f.body s args) (f.body t args)

/-- Arguments are widened by conversions. -/
theorem Function.widened_matches {Excused : Fault → Prop} {f : Function}
    {convert other : Value → TypeTag → Outcome}
    (h : ∀ v target, Matches Excused (convert v target) (other v target)) (args : List Value) :
    ∀ i, Matches Excused (f.widened convert i args) (f.widened other i args) := by
  induction args with
  | nil => exact fun i => .refl _ _
  | cons arg rest ih =>
    intro i
    have hrest (first : Value) : Matches Excused
        (f.widened convert (i + 1) rest >>= fun others => pure (first :: others))
        (f.widened other (i + 1) rest >>= fun others => pure (first :: others)) :=
      (ih (i + 1)).bind fun others => .refl _ _
    rw [widened, widened]
    cases f.signature.tag? i with
    | none => exact hrest arg
    | some declared =>
      simp only
      split
      · exact (h arg declared).bind hrest
      · exact hrest arg

namespace Functions

section

variable {f g : Function} {fs : Functions} {name : String}

theorem overloadsOf_add_self (fs : Functions) (f : Function) :
    (fs.add f).overloadsOf f.name = Ranked.insert Function.notAfter f (fs.overloadsOf f.name) := by
  rw [overloadsOf, add, Entries.get?_insert_self, Option.getD_some]

theorem overloadsOf_add_of_ne (hne : name ≠ f.name) :
    (fs.add f).overloadsOf name = fs.overloadsOf name := by
  rw [overloadsOf, add, Entries.get?_insert_of_ne hne, overloadsOf]

theorem mem_overloadsOf_add (h : f ∈ (fs.add g).overloadsOf name) :
    f = g ∨ f ∈ fs.overloadsOf name := by
  by_cases hname : name = g.name
  · subst hname
    rw [overloadsOf_add_self] at h
    exact Ranked.mem_insert.1 h
  · rw [overloadsOf_add_of_ne hname] at h
    exact Or.inr h

theorem mem_overloadsOf_addAll {functions : List Function}
    (h : f ∈ (functions.foldl add fs).overloadsOf name) :
    f ∈ functions ∨ f ∈ fs.overloadsOf name := by
  induction functions generalizing fs with
  | nil => exact Or.inr h
  | cons first rest ih =>
    cases ih h with
    | inl hrest => exact Or.inl (List.mem_cons_of_mem first hrest)
    | inr hadd =>
      cases mem_overloadsOf_add hadd with
      | inl hfirst => exact Or.inl (hfirst ▸ List.mem_cons_self)
      | inr hbefore => exact Or.inr hbefore

/-- Every overload of a name is one of the functions that have been added. -/
theorem mem_of_mem_overloadsOf {functions : List Function}
    (h : f ∈ (ofList functions).overloadsOf name) : f ∈ functions := by
  cases mem_overloadsOf_addAll h with
  | inl hmem => exact hmem
  | inr hempty => cases hempty

theorem mem_of_resolve {args : List Value} (h : fs.resolve name args = .ok f) :
    f ∈ fs.overloadsOf name := by
  rw [resolve] at h
  split at h
  · cases h
  · split at h
    · rename_i found hfound
      obtain rfl := Except.ok.inj h
      exact List.mem_of_find?_eq_some hfound
    · cases h

theorem maxDepth_addAll (fs : Functions) (functions : List Function) :
    (functions.foldl add fs).maxDepth = fs.maxDepth := by
  induction functions generalizing fs with
  | nil => rfl
  | cons f rest ih => exact (ih (fs.add f)).trans (fs.maxDepth_add f)

section

variable {gs : Functions} {Excused : Fault → Prop} {s t : Services}
variable (htransparent : ∀ name, ∀ f ∈ fs.overloadsOf name, f.Transparent)
variable (hresolve : ∀ name args, Matches Excused (fs.resolve name args) (gs.resolve name args))
variable (hoperate : ∀ operation l r,
  Matches Excused (s.operate operation l r) (t.operate operation l r))
variable (hconvert : ∀ v target, Matches Excused (s.convert v target) (t.convert v target))
include htransparent hresolve hoperate hconvert

/-- If operators, conversions and overloads are matched by others, then so are the calls of
functions that ask for nothing else. -/
theorem callWithin_matches (depth : Nat) (name : String) (args : List Value) :
    Matches Excused (fs.callWithin s depth name args) (gs.callWithin t depth name args) := by
  cases depth with
  | zero => exact .refl _ _
  | succ depth =>
    rw [callWithin, callWithin]
    cases hresolve name args with
    | inr hexcused =>
      obtain ⟨fault, hfault, hexcused⟩ := hexcused
      rw [hfault]
      exact Or.inr ⟨fault, rfl, hexcused⟩
    | inl hsame =>
      rw [← hsame]
      cases hfound : fs.resolve name args with
      | error fault => exact .refl _ _
      | ok f =>
        apply (f.widened_matches hconvert args 0).bind
        intro given
        apply htransparent name f (mem_of_resolve hfound) Excused
        · exact hoperate
        · exact hconvert

theorem call_matches (hdepth : fs.maxDepth = gs.maxDepth) (name : String) (args : List Value) :
    Matches Excused (fs.call s name args) (gs.call t name args) := by
  rw [call, call, hdepth]
  exact callWithin_matches htransparent hresolve hoperate hconvert gs.maxDepth name args

end

end

namespace Library

theorem transparent_simple (name : String) (params : List TypeTag)
    (body : List Value → Outcome) : (simple name params body).Transparent :=
  fun _ _ _ _ _ _ => .refl _ _

/-- The extremes ask for the less operator. -/
theorem transparent_pick (name : String) (least : Bool) (signature : Signature) :
    Function.Transparent ⟨name, signature, pick name least⟩ := by
  intro Excused s t hoperate _
  have hextreme : ∀ args best,
      Matches Excused (extreme s least best args) (extreme t least best args) := by
    intro args
    induction args with
    | nil => exact fun _ => .refl _ _
    | cons v rest ih =>
      intro best
      rw [extreme, extreme]
      exact (hoperate .less v best).bind fun less => ih _
  intro args
  cases args with
  | nil => exact .refl _ _
  | cons first rest => exact hextreme rest first

theorem transparent_converting (name : String) (target : TypeTag) :
    (converting name target).Transparent := by
  intro Excused s t _ hconvert args
  cases args with
  | nil => exact .refl _ _
  | cons v rest => exact hconvert v target

theorem transparent_written (name : String) (signature : Signature) :
    Function.Transparent
      ⟨name, signature, fun services => onFirst name (written services)⟩ := by
  intro Excused s t _ hconvert args
  cases args with
  | nil => exact .refl _ _
  | cons v rest =>
    cases v with
    | null | list _ | map _ => exact .refl _ _
    | _ => exact hconvert _ _

theorem transparent_picks (name : String) (least : Bool) :
    ∀ f ∈ picks name least, f.Transparent := by
  simp [picks, transparent_pick]

theorem transparent_numbers (fallback : Fallback) : ∀ f ∈ numbers fallback, f.Transparent := by
  simp [numbers, onDouble, transparent_simple]

theorem transparent_texts (fallback : Fallback) : ∀ f ∈ texts fallback, f.Transparent := by
  have hconcat (body : List Value → Outcome) :
      Function.Transparent ⟨"concat", .atLeast [] .any, fun _ args => body args⟩ :=
    fun _ _ _ _ _ _ => .refl _ _
  simp [texts, onText, onTexts, transparent_simple, hconcat]

theorem transparent_general : ∀ f ∈ general, f.Transparent := by
  have hcoalesce (body : List Value → Outcome) :
      Function.Transparent ⟨"coalesce", .atLeast [] .any, fun _ args => body args⟩ :=
    fun _ _ _ _ _ _ => .refl _ _
  simp [general, transparent_simple, transparent_converting, transparent_written, hcoalesce]

theorem transparent_all : ∀ f ∈ all, f.Transparent := by
  simp only [all, withFallback, List.forall_mem_append]
  exact ⟨⟨⟨⟨transparent_picks _ _, transparent_picks _ _⟩, transparent_numbers _⟩,
    transparent_texts _⟩, transparent_general⟩

end Library

theorem core_transparent (name : String) : ∀ f ∈ core.overloadsOf name, f.Transparent :=
  fun f hf => Library.transparent_all f (mem_of_mem_overloadsOf hf)

/-- There is room for the call of a library function: the body of the first overload that accepts
the arguments is run with what they are widened to. -/
theorem call_core_eq (services : Services) (name : String) (args : List Value) :
    ∃ inner : Services, inner.operate = services.operate ∧ inner.convert = services.convert ∧
      core.call services name args = (do
        let f ← core.resolve name args
        f.body inner (← f.widened services.convert 0 args)) := by
  obtain ⟨depth, hdepth⟩ : ∃ depth, core.maxDepth = depth + 1 :=
    ⟨_, empty.maxDepth_addAll Library.all⟩
  refine ⟨{ services with call := fun view => core.callWithin { services with view := view } depth },
    rfl, rfl, ?_⟩
  rw [call, hdepth, callWithin]

theorem call_core_of_resolve {services : Services} {name : String} {args given : List Value}
    {f : Function} (hresolve : core.resolve name args = .ok f)
    (hwidened : f.widened services.convert 0 args = .ok given) :
    ∃ inner : Services, inner.operate = services.operate ∧
      core.call services name args = f.body inner given := by
  obtain ⟨inner, hoperate, -, hcall⟩ := call_core_eq services name args
  refine ⟨inner, hoperate, hcall.trans ?_⟩
  simp only [hresolve, hwidened, Bind.bind, Except.bind]

/-- A call of a library function depends on the operators and the conversions only. -/
theorem call_core {s t : Services} (hoperate : s.operate = t.operate)
    (hconvert : s.convert = t.convert) (name : String) (args : List Value) :
    core.call s name args = core.call t name args := by
  apply Matches.eq
  apply call_matches
  case htransparent => exact core_transparent
  case hresolve => exact fun _ _ => .refl _ _
  case hoperate => exact fun _ _ _ => hoperate ▸ .refl _ _
  case hconvert => exact fun _ _ => hconvert ▸ .refl _ _
  case hdepth => rfl

end Functions

end ExprLang
