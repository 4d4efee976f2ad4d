import ExprLang.Context
import ExprLang.Text.Search
/-!
# Evaluation

A tree is evaluated from left to right. Steps on references write their result back into the
context, which keeps what was written also when a later part fails.
-/

namespace ExprLang

abbrev Eval := ExceptT Fault (StateM Context)

namespace Eval

/-- A result that is known already. -/
def lift {α : Type} (result : Except Fault α) : Eval α :=
  fun context => (result, context)

/-- What the context gives. -/
def ask {α : Type} (f : Context → Except Fault α) : Eval α :=
  fun context => (f context, context)

/-- Replaces the context, if there is another one. -/
def change (f : Context → Except Fault Context) : Eval Unit := fun context =>
  match f context with
  | .ok changed => (.ok (), changed)
  | .error fault => (.error fault, context)

end Eval

def Literal.value : Literal → Value
  | null => .null
  | bool b => .bool b
  | int n => .integer n
  | long n => .long n
  | double d => .double d
  | char c => .char c
  | str s => .str s

/-- The path of a name. Each part of a dotted name is a step of its own. -/
def Path.ofDotted (name : String) : Path :=
  (Text.splitAt ['.'] name.toList).map fun part => .property (String.ofList part)

/-- The step that an index value makes. Characters and texts are property names. -/
def PathKey.ofValue (v : Value) : Except Fault PathKey :=
  match v with
  | .str s => .ok (.property s)
  | .char c => .ok (.property (String.singleton c))
  | _ =>
    match v.long? with
    | some n => .ok (.index n)
    | none => .error (.unsuitableIndex v.tag)

/-- The value that a step operation makes of another, of the same type again. -/
def Semantics.step (s : Semantics) (operation : Operation) (old : Value) : Outcome := do
  let stepped ←
    match s.operators.resolveUnary operation old with
    | .ok handler => handler.apply old
    | .error _ => .error (.cannotApply operation old)
  match s.conversion.convert stepped old.tag with
  | .ok updated => return updated
  | .error _ => .error (.doesNotFit operation stepped old.tag)

/-- Steps the value at a path and gives the new value before and the old one after the operand. -/
def stepAt (operation : Operation) (fix : Fix) (path : Path) : Eval Value := do
  let old ← Eval.ask fun c => c.getValue path
  let updated ← Eval.ask fun c => c.semantics.step operation old
  Eval.change fun c => c.setValue path updated
  return match fix with
    | .before => updated
    | .after => old

mutual
def Node.evaluate : Node → Eval Value
  | .literal value => return value.value
  | .name name _ => Eval.ask fun c => c.getValue (.ofDotted name)
  | .path segments => do
    let path ← Segment.keys segments
    Eval.ask fun c => c.getValue path
  | .unary operation fix operand =>
    if operation.isStep then
      match operand with
      | .name name _ => stepAt operation fix (.ofDotted name)
      | .path segments => do
        let path ← Segment.keys segments
        stepAt operation fix path
      | operand => do
        let old ← operand.evaluate
        match fix with
        | .before => Eval.ask fun c => c.semantics.step operation old
        | .after => return old
    else do
      let value ← operand.evaluate
      Eval.ask fun c => c.semantics.operators.applyUnary operation value
  | .binary operation left right => do
    let l ← left.evaluate
    let r ← right.evaluate
    Eval.ask fun c => c.semantics.operators.applyBinary operation l r
  | .ternary condition positive negative => do
    match ← condition.evaluate with
    | .bool true => positive.evaluate
    | .bool false => negative.evaluate
    | other => throw (.conditionNotBool other)
  | .call name arguments => do
    let args ← Node.evaluateAll arguments
    Eval.ask fun c => c.call name args
  | .arguments items => return .list (← Node.evaluateAll items)
  | .parameters params => return .map (Entries.ofList (← Parameter.entries params))

def Node.evaluateAll : List Node → Eval (List Value)
  | [] => return []
  | node :: rest => do
    let first ← node.evaluate
    return first :: (← Node.evaluateAll rest)

/-- The steps of a path. Every index expression is evaluated once. -/
def Segment.keys : List Segment → Eval Path
  | [] => return []
  | .property name :: rest => return .property name :: (← Segment.keys rest)
  | .index node :: rest => do
    let value ← node.evaluate
    let key ← Eval.lift (PathKey.ofValue value)
    return key :: (← Segment.keys rest)

def Parameter.entries : List Parameter → Eval (List (String × Value))
  | [] => return []
  | .mk name none :: rest => return (name, .null) :: (← Parameter.entries rest)
  | .mk name (some default) :: rest => do
    let value ← default.evaluate
    return (name, value) :: (← Parameter.entries rest)
end

/-- The path that a reference stands for. -/
def Node.keys : Node → Eval Path
  | .name dotted _ => return .ofDotted dotted
  | .path segments => Segment.keys segments
  | node => throw (.notReference node)

/-- The value of the tree, converted to a declared type. -/
def Node.evaluateAs (node : Node) (target : TypeTag) : Eval Value := do
  let value ← node.evaluate
  Eval.ask fun c => c.semantics.conversion.convert value target

end ExprLang
