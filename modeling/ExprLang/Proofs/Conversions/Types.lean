import ExprLang.Proofs.Conversions.Texts
import ExprLang.Proofs.Dispatch.Operands
import ExprLang.Proofs.Effects.Assignment
import ExprLang.Proofs.Effects.Compositional
import ExprLang.Proofs.Integers.Widths

/-!
# Conversions give what is asked for

A conversion has a value of the requested type or fails with an error of its own kind, and it leaves
alone what is of the type already.  The same holds of a tree that is evaluated as a value of a type,
over any operators and functions (`Conversion.convert_describes`).
-/

namespace ExprLang

/-- The value is of the type.  Two types stand for several ones. -/
def TypeTag.Describes (declared : TypeTag) (v : Value) : Prop :=
  match declared with
  | any => True
  | number => v.tag = .int ∨ v.tag = .long ∨ v.tag = .double
  | _ => v.tag = declared

namespace Conversion

variable {target : TypeTag} {v w : Value}

/-- What needs no conversion is what is of the type already. -/
theorem isSettled_iff : isSettled v.tag target = true ↔ target.Describes v := by
  cases target <;> cases v <;> simp [isSettled, TypeTag.Describes, TypeTag.accepts, Value.tag]

theorem convert_of_describes (c : Conversion) (h : target.Describes v) :
    c.convert v target = .ok v :=
  if_pos (isSettled_iff.2 h)

/-! ## Results of the core converters -/

theorem partially_eq_ok {f : Value → Option Value} :
    partially target f v = .ok w ↔ f v = some w := by
  rw [partially]
  cases f v <;> simp

theorem describes_integer (n : Int64) : TypeTag.number.Describes (.integer n) := by
  obtain ⟨-, htag⟩ := Value.integer_spec n
  rw [TypeTag.Describes, htag]
  split <;> simp

theorem describes_readDouble? {cs : List Char} (h : readDouble? cs = some w) : w.tag = .double := by
  obtain ⟨d, -, rfl⟩ := Option.map_eq_some_iff.1 h
  rfl

/-- What is read is of the type as which it is read. -/
theorem describes_read? {cs : List Char} (h : read? target cs = some w) : target.Describes w := by
  cases target with
  | bool =>
    rw [read?, readBool?] at h
    split at h
    · obtain rfl := Option.some.inj h
      rfl
    · split at h
      · obtain rfl := Option.some.inj h
        rfl
      · cases h
  | char =>
    rw [read?, readChar?.eq_def] at h
    split at h
    · obtain rfl := Option.some.inj h
      rfl
    · cases h
  | int | long =>
    obtain ⟨n, -, rfl⟩ := Option.map_eq_some_iff.1 h
    rfl
  | double => exact describes_readDouble? h
  | number =>
    cases Option.or_eq_some_iff.1 h with
    | inl hinteger =>
      obtain ⟨n, -, rfl⟩ := Option.map_eq_some_iff.1 hinteger
      exact describes_integer n
    | inr hdouble => exact .inr (.inr (describes_readDouble? hdouble.2))
  | _ => cases h

theorem describes_widened? (h : widened? v = some w) : w.tag = .long := by
  cases v with
  | int | char =>
    obtain rfl := Option.some.inj h
    rfl
  | double =>
    obtain ⟨n, -, rfl⟩ := Option.map_eq_some_iff.1 h
    rfl
  | _ => cases h

theorem describes_narrowed? (h : narrowed? v = some w) : w.tag = .int := by
  cases v with
  | long | double =>
    obtain ⟨n, -, rfl⟩ := Option.map_eq_some_iff.1 h
    rfl
  | _ => cases h

theorem describes_codePoint? (h : codePoint? v = some w) : w.tag = .int := by
  cases v with
  | char =>
    obtain ⟨n, -, rfl⟩ := Option.map_eq_some_iff.1 h
    rfl
  | _ => cases h

theorem describes_toDouble? (h : toDouble? v = some w) : w.tag = .double := by
  obtain ⟨d, -, rfl⟩ := Option.map_eq_some_iff.1 h
  rfl

theorem describes_fromText (h : (fromText target (read? target)).apply v = .ok w) :
    target.Describes w := by
  have hpartial : partially target
      (fun value => value.str?.bind fun s => read? target (Text.trim s.toList)) v = .ok w := h
  obtain ⟨s, -, hread⟩ := Option.bind_eq_some_iff.1 (partially_eq_ok.1 hpartial)
  exact describes_read? hread

/-- Every core converter gives values of its target type only, whatever it is applied to. -/
theorem coreConverters_describe {converter : Converter} (hmem : converter ∈ coreConverters)
    (h : converter.apply v = .ok w) : converter.target.Describes w := by
  simp only [coreConverters, List.mem_cons, List.not_mem_nil, or_false] at hmem
  rcases hmem with
    rfl | rfl | rfl | rfl | rfl | rfl | rfl | rfl | rfl | rfl | rfl | rfl | rfl | rfl
  · obtain rfl := Except.ok.inj h
    rfl
  · obtain rfl := Except.ok.inj h
    rfl
  · obtain rfl := Except.ok.inj h
    rfl
  · exact describes_fromText h
  · exact describes_fromText h
  · exact describes_fromText h
  · exact describes_fromText h
  · exact describes_fromText h
  · exact describes_fromText h
  · exact describes_widened? (partially_eq_ok.1 h)
  · exact describes_toDouble? (partially_eq_ok.1 h)
  · exact describes_narrowed? (partially_eq_ok.1 h)
  · exact describes_codePoint? (partially_eq_ok.1 h)
  · exact describes_widened? (partially_eq_ok.1 h)

theorem describes_of_convert (h : core.convert v target = .ok w) : target.Describes w := by
  rw [convert] at h
  split at h
  · rename_i hsettled
    obtain rfl := Except.ok.inj h
    exact isSettled_iff.1 hsettled
  · split at h
    · rename_i converter hfound
      have hserves := List.find?_some hfound
      rw [Converter.serves, Bool.and_eq_true, decide_eq_true_eq] at hserves
      rw [← hserves.1]
      exact coreConverters_describe (List.mem_of_find?_eq_some hfound) h
    · cases h

end Conversion

/-! ## Evaluation as a value of a type -/

namespace Eval

/-- The computation leaves the semantics alone. -/
theorem semantics_compositional :
    Compositional (fun _ => True) (fun _ => True)
      fun _ p => ∀ c, (p c).2.semantics = c.semantics where
  pure _ _ := rfl
  bind := by
    intro α β p f hp hf c
    rw [bind_apply]
    have hfirst := hp c
    rcases hrun : p c with ⟨fault | a, d⟩
    · rw [hrun] at hfirst
      exact hfirst
    · rw [hrun] at hfirst
      exact (hf a c (by rw [hrun]) d).trans hfirst
  key _ _ := rfl
  condition _ _ := rfl
  read _ _ _ := rfl
  write path _ v c := by
    rw [change]
    cases hset : c.setValue path v with
    | error fault => rfl
    | ok d =>
      obtain ⟨root, rest, w, -, -, rfl⟩ := Context.exists_of_setValue hset
      exact c.semantics_assign root w
  step _ _ _ := rfl
  unary _ _ _ := rfl
  binary _ _ _ _ := rfl
  call _ _ _ := rfl

end Eval

theorem Node.semantics_evaluate (n : Node) (c : Context) :
    (n.evaluate c).2.semantics = c.semantics :=
  Eval.semantics_compositional.evaluate n (fun _ _ _ _ => trivial) c

theorem Node.describes_of_evaluateAs {n : Node} {target : TypeTag} {c : Context} {w : Value}
    (hc : c.semantics.conversion = .core) (h : (n.evaluateAs target c).1 = .ok w) :
    target.Describes w := by
  have hkept := n.semantics_evaluate c
  rw [evaluateAs, Eval.bind_apply] at h
  rcases hrun : n.evaluate c with ⟨fault | v, d⟩
  · rw [hrun] at h
    cases h
  · rw [hrun] at h hkept
    have hconvert : d.semantics.conversion.convert v target = .ok w := h
    rw [show d.semantics = c.semantics from hkept, hc] at hconvert
    exact Conversion.describes_of_convert hconvert

namespace Conversion

/-- A conversion gives a value of the requested type, which a second one leaves as it is, or it
fails with an error of its own kind.  A value that is asked for untyped stays the same.  A tree that
is evaluated as a value of a type gives a value of this type or none. -/
theorem convert_describes (target : TypeTag) :
    (∀ v w, core.convert v target = .ok w →
      target.Describes w ∧ (target = .any → w = v) ∧ core.convert w target = .ok w) ∧
    (∀ v fault, core.convert v target = .error fault → fault.kind = .conversion) ∧
    ∀ (n : Node) (c : Context), c.semantics.conversion = core →
      ∀ w, (n.evaluateAs target c).1 = .ok w → target.Describes w := by
  refine ⟨?value, ?fault, fun n c hc w h => n.describes_of_evaluateAs hc h⟩
  case value =>
    intro v w h
    have hw := describes_of_convert h
    refine ⟨hw, ?_, convert_of_describes core hw⟩
    rintro rfl
    rw [convert_of_describes core (show TypeTag.any.Describes v from trivial)] at h
    exact (Except.ok.inj h).symm
  case fault =>
    intro v fault h
    exact List.mem_singleton.1 (convert_core_failsAs v target fault h)

/-- A text is read as a number, which is narrow here.  A boolean is not converted to a number. -/
theorem convert_describes_number :
    core.convert (.str " 7 ") .number = .ok (.int 7) ∧ TypeTag.number.Describes (.int 7) ∧
      core.convert (.int 7) .number = .ok (.int 7) ∧
      core.convert (.bool true) .number = .error (.cannotConvert (.bool true) .number) ∧
      Fault.kind (.cannotConvert (.bool true) .number) = .conversion ∧
      ((Node.literal (.char 'a')).evaluateAs .long (.new .core false)).1 = .ok (.long 97) ∧
      TypeTag.long.Describes (.long 97) := by
  have htrim : Text.trim " 7 ".toList = ['7'] := by decide
  have hread : core.convert (.str " 7 ") .number = .ok (.int 7) :=
    convert_str_of_read? rfl (by rw [htrim]; rfl)
  have hrefused : core.convert (.bool true) .number =
      .error (.cannotConvert (.bool true) .number) := rfl
  have hevaluate : ((Node.literal (.char 'a')).evaluateAs .long (.new .core false)).1 =
      .ok (.long 97) := rfl
  obtain ⟨hnumber, hfault, -⟩ := convert_describes .number
  obtain ⟨-, -, hlong⟩ := convert_describes .long
  obtain ⟨hdescribes, -, hagain⟩ := hnumber _ _ hread
  exact ⟨hread, hdescribes, hagain, hrefused, hfault _ _ hrefused, hevaluate,
    hlong _ (.new .core false) rfl _ hevaluate⟩

end Conversion

end ExprLang
