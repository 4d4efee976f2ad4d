import ExprLang.Proofs.Dispatch.Arguments
import Mathlib.Data.List.Forall2

/-!
# Bodies of library functions

A library function is called with the values that its parameters are bound to.  Its body has a
counterpart for all of them: it does not find its arguments unsuitable, finds operators for what it
compares, and fails in its arithmetic or in a conversion only (`Library.safe_withFallback`).  Nor
does it use a fallback for an argument, whatever the fallback is (`Library.alike_withFallback`).
-/

namespace ExprLang

namespace Function

/-- For the values that the parameters are bound to, the body fails in arithmetic or in a conversion
only, if it is given the core operators and conversions. -/
def Safe (f : Function) : Prop :=
  ∀ services : Services, services.operate = Operators.core.applyBinary →
    services.convert = Conversion.core.convert →
    ∀ given, f.signature.Receives given →
      FailsAs [.arithmetic, .conversion] (f.body services given)

/-- The functions are called in the same way, and they do the same with the values that their
parameters are bound to. -/
@[mk_iff]
structure Alike (f g : Function) : Prop where
  name : f.name = g.name
  signature : f.signature = g.signature
  body : ∀ services given, f.signature.Receives given → f.body services given = g.body services given

theorem Alike.refl (f : Function) : f.Alike f :=
  ⟨rfl, rfl, fun _ _ _ => rfl⟩

end Function

namespace Functions.Library

/-! ## Extremes -/

/-- All values are numbers, or all are texts. -/
def Comparable (vs : List Value) : Prop :=
  (∀ v ∈ vs, v.isNumber = true) ∨ ∀ v ∈ vs, ∃ s, v = .str s

theorem less_eq_ok {v w : Value} (h : Comparable [v, w]) :
    ∃ holds, Operators.core.applyBinary .less v w = .ok (.bool holds) := by
  cases h with
  | inl hnumbers =>
    have hv : v.isNumber = true := hnumbers v (by simp)
    have hw : w.isNumber = true := hnumbers w (by simp)
    have hless : Operators.core.applyBinary .less v w = Operators.Comparison.less.apply v w := by
      cases v <;> cases hv <;> cases w <;> cases hw <;> rfl
    rw [hless]
    exact Operators.Comparison.less.apply_eq_ok (Value.order_eq_ok hv hw)
  | inr htexts =>
    obtain ⟨s, rfl⟩ := htexts v (by simp)
    obtain ⟨t, rfl⟩ := htexts w (by simp)
    exact ⟨_, rfl⟩

theorem Comparable.subset {vs ws : List Value} (h : Comparable vs) (hws : ws ⊆ vs) :
    Comparable ws :=
  h.imp (fun hnumbers v hv => hnumbers v (hws hv)) fun htexts v hv => htexts v (hws hv)

theorem extreme_eq_ok {services : Services}
    (hoperate : services.operate = Operators.core.applyBinary)
    (least : Bool) (rest : List Value) {best : Value} (h : Comparable (best :: rest)) :
    ∃ v, extreme services least best rest = .ok v := by
  induction rest generalizing best with
  | nil => exact ⟨best, rfl⟩
  | cons v rest ih =>
    obtain ⟨holds, hless⟩ := less_eq_ok (h.subset (by simp) : Comparable [v, best])
    rw [extreme, hoperate, hless]
    apply ih
    apply h.subset
    split <;> simp

theorem safe_pick (name : String) (least : Bool) {signature : Signature}
    (h : ∀ given, signature.Receives given → given ≠ [] ∧ Comparable given) :
    Function.Safe ⟨name, signature, pick name least⟩ := by
  intro services hoperate _ given hgiven
  obtain ⟨hne, hcomparable⟩ := h given hgiven
  cases given with
  | nil => exact absurd rfl hne
  | cons first rest =>
    obtain ⟨v, hv⟩ := extreme_eq_ok hoperate least rest hcomparable
    change FailsAs _ (extreme services least first rest)
    rw [hv]
    exact .ok _ _

theorem safe_picks (name : String) (least : Bool) : ∀ f ∈ picks name least, f.Safe := by
  have htwo (tag : TypeTag) (htag : ∀ v w, tag.Binds v → tag.Binds w → Comparable [v, w]) :
      Function.Safe ⟨name, .fixed [tag, tag], pick name least⟩ := by
    apply safe_pick
    intro given hgiven
    obtain ⟨v, w, rfl, hv, hw⟩ : ∃ v w, given = [v, w] ∧ tag.Binds v ∧ tag.Binds w := by
      simpa [Signature.fixed] using hgiven
    exact ⟨List.cons_ne_nil _ _, htag v w hv hw⟩
  have hmany : Function.Safe ⟨name, .atLeast [.number] .number, pick name least⟩ := by
    apply safe_pick
    intro given hgiven
    obtain ⟨v, vs, rfl, hv, hvs⟩ : ∃ v vs, given = v :: vs ∧ v.isNumber = true ∧
        ∀ w ∈ vs, w.isNumber = true := by
      simpa [Signature.atLeast] using hgiven
    exact ⟨List.cons_ne_nil _ _, .inl (List.forall_mem_cons.2 ⟨hv, hvs⟩)⟩
  simp only [picks, List.forall_mem_append, List.map_cons, List.map_nil, List.forall_mem_cons]
  refine ⟨⟨htwo .int ?_, htwo .long ?_, htwo .double ?_, htwo .string ?_, ?_⟩, hmany, ?_⟩
  case refine_5 | refine_6 => simp
  all_goals
    intro v w hv hw
    simp only [TypeTag.binds_int, TypeTag.binds_long, TypeTag.binds_double,
      TypeTag.binds_string] at hv hw
    obtain ⟨x, rfl⟩ := hv
    obtain ⟨y, rfl⟩ := hw
    simp [Comparable, Value.isNumber]

/-! ## Bodies without services -/

theorem safe_simple {name : String} {params : List TypeTag} {body : List Value → Outcome}
    (h : ∀ given, (Signature.fixed params).Receives given →
      FailsAs [.arithmetic, .conversion] (body given)) : (simple name params body).Safe :=
  fun _ _ _ => h

/-- A body that has a result for all arguments. -/
theorem safe_total (name : String) (signature : Signature) (f : List Value → Value) :
    Function.Safe ⟨name, signature, fun _ args => .ok (f args)⟩ :=
  fun _ _ _ _ _ => .ok _ _

theorem safe_onList (name : String) (params : List TypeTag)
    (body : List Value → List Value → Value) :
    (simple name (.list :: params) (onList name body)).Safe := by
  apply safe_simple
  intro given hgiven
  obtain ⟨v, rest, rfl, hv, -⟩ := Signature.receives_param.1 hgiven
  obtain ⟨items, rfl⟩ := TypeTag.binds_list.1 hv
  exact .ok _ _

theorem safe_onMap (name : String) (params : List TypeTag)
    (body : Entries Value → List Value → Value) :
    (simple name (.map :: params) (onMap name body)).Safe := by
  apply safe_simple
  intro given hgiven
  obtain ⟨v, rest, rfl, hv, -⟩ := Signature.receives_param.1 hgiven
  obtain ⟨entries, rfl⟩ := TypeTag.binds_map.1 hv
  exact .ok _ _

theorem safe_hasMember : (simple "contains" [.list, .any] hasMember).Safe := by
  apply safe_simple
  intro given hgiven
  obtain ⟨items, wanted, rfl⟩ : ∃ items wanted, given = [.list items, wanted] := by
    simpa [Signature.fixed] using hgiven
  exact .ok _ _

theorem magnitude_failsAs (fallback : Fallback) (args : List Value) :
    FailsAs [.arithmetic, .conversion] (magnitude fallback args) := by
  rw [magnitude]
  split
  · exact .ok _ _
  · exact .error List.mem_cons_self

theorem power_failsAs (fallback : Fallback) (args : List Value) :
    FailsAs [.arithmetic, .conversion] (power fallback args) := by
  rw [power]
  split
  · split
    · exact .ok _ _
    · exact .error List.mem_cons_self
  · exact .ok _ _

theorem safe_numbers (fallback : Fallback) : ∀ f ∈ numbers fallback, f.Safe := by
  have hmagnitude : (simple "abs" [.long] (magnitude fallback)).Safe :=
    safe_simple fun given _ => magnitude_failsAs fallback given
  have hpower : (simple "pow" [.long, .long] (power fallback)).Safe :=
    safe_simple fun given _ => power_failsAs fallback given
  simp only [numbers, List.forall_mem_cons, hmagnitude, hpower]
  simp [onDouble, simple, safe_total]

theorem safe_texts (fallback : Fallback) : ∀ f ∈ texts fallback, f.Safe := by
  simp only [texts, List.forall_mem_cons, safe_onList, safe_onMap, safe_hasMember]
  simp [onText, onTexts, simple, safe_total]

/-! ## Bodies that convert -/

theorem safe_converting (name : String) (target : TypeTag) : (converting name target).Safe := by
  intro services _ hconvert given hgiven
  obtain ⟨v, rest, rfl, -, -⟩ := Signature.receives_param.1 hgiven
  change FailsAs _ (services.convert v target)
  rw [hconvert]
  exact (Conversion.convert_core_failsAs v target).mono (by simp)

theorem safe_written : Function.Safe
    ⟨"str", .fixed [.any], fun services => onFirst "str" (written services)⟩ := by
  intro services _ hconvert given hgiven
  obtain ⟨v, rest, rfl, -, -⟩ := Signature.receives_param.1 hgiven
  change FailsAs _ (written services v)
  cases v with
  | null | list _ | map _ => exact .ok _ _
  | _ =>
    rw [written, hconvert]
    · exact (Conversion.convert_core_failsAs _ .string).mono (by simp)
    all_goals simp

theorem safe_onFirst (name : String) (body : Value → Value) :
    (simple name [.any] (onFirst name fun v => .ok (body v))).Safe := by
  apply safe_simple
  intro given hgiven
  obtain ⟨v, rest, rfl, -, -⟩ := Signature.receives_param.1 hgiven
  exact .ok _ _

theorem safe_general : ∀ f ∈ general, f.Safe := by
  simp [general, safe_onMap, safe_converting, safe_written, safe_onFirst, safe_total]

/-- Whatever it is called with, a library function finds its arguments suitable and finds the
operators that it asks for. -/
theorem safe_withFallback (fallback : Fallback) : ∀ f ∈ withFallback fallback, f.Safe := by
  simp only [withFallback, List.forall_mem_append]
  exact ⟨⟨⟨⟨safe_picks _ _, safe_picks _ _⟩, safe_numbers _⟩, safe_texts _⟩, safe_general⟩

/-! ## Fallbacks -/

theorem alike_numbers (fallback other : Fallback) :
    List.Forall₂ Function.Alike (numbers fallback) (numbers other) := by
  simp +contextual [numbers, onDouble, magnitude, power, intArg, doubleArg, Value.long?,
    Value.double?, Function.alike_iff, simple, Signature.fixed]

theorem alike_texts (fallback other : Fallback) :
    List.Forall₂ Function.Alike (texts fallback) (texts other) := by
  simp +contextual [texts, onText, onTexts, onMap, onList, charsArg, textArg, intArg, Value.str?,
    Value.long?, Function.alike_iff, simple, Signature.fixed]

/-- Over another fallback, the library has the same functions. -/
theorem alike_withFallback (fallback other : Fallback) :
    List.Forall₂ Function.Alike (withFallback fallback) (withFallback other) := by
  have hsame (functions : List Function) : List.Forall₂ Function.Alike functions functions :=
    List.forall₂_same.2 fun f _ => .refl f
  exact List.rel_append (List.rel_append (List.rel_append (hsame _) (alike_numbers _ _))
    (alike_texts _ _)) (hsame _)

end Functions.Library

end ExprLang
