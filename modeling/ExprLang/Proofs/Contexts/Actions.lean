import ExprLang.Extension
import ExprLang.Proofs.Effects.Assignment
import ExprLang.Proofs.Effects.Compositional

/-!
# Runs of actions

A host declares and sets variables, opens and closes frames, evaluates trees and imports extensions
in any order, and it nests scopes.  Setting and evaluating come down to assignments
(`Node.evaluate_assigns`), so what each single operation keeps is kept by every run
(`Action.runAll_keeps`).
-/

namespace ExprLang

/-- What a host does to a context. -/
inductive Action where
  | declare (name : String) (value : Value)
  | setValue (path : Path) (value : Value)
  | setVariable (name : String) (value : Value)
  | push
  | pop
  | clear
  | setStrict (strict : Bool)
  | evaluate (node : Node)
  | extend (e : Extension)
  | scope (body : List Action)

mutual
/-- The context that an action leaves, also where it fails. -/
def Action.run : Action → Context → Context
  | .declare name value, c => c.declare name value
  | .setValue path value, c => ((Eval.change fun c => c.setValue path value) c).2
  | .setVariable name value, c => ((Eval.change fun c => c.setVariable name value) c).2
  | .push, c => c.push
  | .pop, c => c.pop
  | .clear, c => c.clear
  | .setStrict strict, c => c.setStrict strict
  | .evaluate node, c => (node.evaluate c).2
  | .extend e, c => c.extend e
  | .scope body, c => (c.withScope fun c => ((), Action.runAll body c)).2

def Action.runAll : List Action → Context → Context
  | [], c => c
  | action :: rest, c => Action.runAll rest (action.run c)
end

/-- Whether the tree steps the variable, or a reference whose variable only shows when its index
expressions are evaluated. -/
def Node.Steps (n : Node) (name : String) : Prop :=
  ∃ r ∈ n.stepped, r.root? = none ∨ r.root? = some name

namespace Context

/-- What becomes of a context when variables with the property are assigned, and the strictness and
the semantics replaced. -/
inductive Reassigned (Written : String → Prop) (c : Context) : Context → Prop
  | refl : Reassigned Written c c
  | assign {d : Context} {name : String} (h : Reassigned Written c d) (hname : Written name)
      (w : Value) : Reassigned Written c (d.assign name w)
  | setStrict {d : Context} (h : Reassigned Written c d) (strict : Bool) :
      Reassigned Written c (d.setStrict strict)
  | withSemantics {d : Context} (h : Reassigned Written c d) (s : Semantics) :
      Reassigned Written c (d.withSemantics s)

namespace Reassigned

variable {Written More : String → Prop} {c d e : Context}

theorem trans (hcd : Reassigned Written c d) (hde : Reassigned Written d e) :
    Reassigned Written c e := by
  induction hde with
  | refl => exact hcd
  | assign _ hname w ih => exact .assign ih hname w
  | setStrict _ strict ih => exact .setStrict ih strict
  | withSemantics _ s ih => exact .withSemantics ih s

theorem mono (h : Reassigned Written c d) (himp : ∀ name, Written name → More name) :
    Reassigned More c d := by
  induction h with
  | refl => exact .refl
  | assign _ hname w ih => exact .assign ih (himp _ hname) w
  | setStrict _ strict ih => exact .setStrict ih strict
  | withSemantics _ s ih => exact .withSemantics ih s

theorem depth_eq (h : Reassigned Written c d) : d.depth = c.depth := by
  induction h with
  | refl => rfl
  | assign _ _ w ih => exact (depth_assign _ _ w).trans ih
  | setStrict _ _ ih => exact ih
  | withSemantics _ _ ih => exact ih

end Reassigned

/-- Setting a value assigns the variable that the path begins with, or nothing. -/
theorem setValue_reassigned (c : Context) (path : Path) (value : Value) :
    Reassigned (fun name => path.root? = some name ∧ ∃ d, c.setValue path value = .ok d) c
      ((Eval.change fun c => c.setValue path value) c).2 := by
  rw [Eval.change]
  cases hset : c.setValue path value with
  | error fault => exact .refl
  | ok d =>
    obtain ⟨root, rest, w, rfl, -, rfl⟩ := exists_of_setValue hset
    exact .assign .refl ⟨rfl, _, rfl⟩ w

/-- All computations that do nothing but assign variables with the property. -/
theorem reassigned_compositional (Written : String → Prop) :
    Eval.Compositional (fun _ => True) Written fun _ p => ∀ c, Reassigned Written c (p c).2 where
  pure _ _ := .refl
  bind := by
    intro α β p f hp hf c
    rw [Eval.bind_apply]
    have hfirst := hp c
    rcases hrun : p c with ⟨fault | a, d⟩
    · rw [hrun] at hfirst
      exact hfirst
    · rw [hrun] at hfirst
      exact hfirst.trans (hf a c (by rw [hrun]) d)
  key _ _ := .refl
  condition _ _ := .refl
  read _ _ _ := .refl
  write path hpath value c := (c.setValue_reassigned path value).mono fun name h => hpath name h.1
  step _ _ _ := .refl
  unary _ _ _ := .refl
  binary _ _ _ _ := .refl
  call _ _ _ := .refl

end Context

/-- Over any semantics, an evaluation assigns no variables but those that the tree steps. -/
theorem Node.evaluate_assigns (n : Node) (c : Context) :
    c.Reassigned n.Steps (n.evaluate c).2 :=
  (Context.reassigned_compositional n.Steps).evaluate_apart n (fun _ _ _ _ => trivial)
    (fun r hr _ hname => ⟨r, hr, hname⟩) c

namespace Context

/-- A property of contexts that all single operations keep. -/
structure Kept (P : Context → Prop) : Prop where
  declare : ∀ {c : Context} (name : String) (value : Value), P c → P (c.declare name value)
  assign : ∀ {c : Context} (name : String) (w : Value), P c → P (c.assign name w)
  push : ∀ {c : Context}, P c → P c.push
  pop : ∀ {c : Context}, P c → P c.pop
  clear : ∀ {c : Context}, P c → P c.clear
  setStrict : ∀ {c : Context} (strict : Bool), P c → P (c.setStrict strict)
  withSemantics : ∀ {c : Context} (s : Semantics), P c → P (c.withSemantics s)

theorem Kept.reassigned {P : Context → Prop} (hP : Kept P) {Written : String → Prop}
    {c d : Context} (h : c.Reassigned Written d) (hc : P c) : P d := by
  induction h with
  | refl => exact hc
  | assign _ _ w ih => exact hP.assign _ w ih
  | setStrict _ strict ih => exact hP.setStrict strict ih
  | withSemantics _ s ih => exact hP.withSemantics s ih

end Context

mutual
/-- One action keeps what the operations keep. -/
theorem Action.run_keeps {P : Context → Prop} (hP : Context.Kept P) :
    ∀ (action : Action) (c : Context), P c → P (action.run c)
  | .declare name value, _, h => hP.declare name value h
  | .setValue path value, c, h => hP.reassigned (c.setValue_reassigned path value) h
  | .setVariable name value, c, h => hP.reassigned (c.setValue_reassigned (.ofName name) value) h
  | .push, _, h => hP.push h
  | .pop, _, h => hP.pop h
  | .clear, _, h => hP.clear h
  | .setStrict strict, _, h => hP.setStrict strict h
  | .evaluate node, c, h => hP.reassigned (node.evaluate_assigns c) h
  | .extend e, c, h => hP.withSemantics (c.semantics.extend e) h
  | .scope body, c, h => hP.pop (Action.runAll_keeps hP body c.push (hP.push h))

/-- A run of actions keeps what the operations keep. -/
theorem Action.runAll_keeps {P : Context → Prop} (hP : Context.Kept P) :
    ∀ (actions : List Action) (c : Context), P c → P (runAll actions c)
  | [], _, h => h
  | action :: rest, c, h => Action.runAll_keeps hP rest _ (Action.run_keeps hP action c h)
end

end ExprLang
