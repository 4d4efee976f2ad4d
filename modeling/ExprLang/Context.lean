import ExprLang.Semantics
/-!
# Contexts

The variables of one evaluation, in frames inside one another, with the semantics that evaluation
consults. The frame of globals is always there. Reading an absent location gives null, or an error
in strict mode; writing below a name needs the containers on the way.
-/

namespace ExprLang

structure Context where
  globals : Frame
  /-- the frames inside the globals, innermost first -/
  inner : List Frame
  strict : Bool
  semantics : Semantics

/-- The context of a view over a semantics. Bodies read and change a view as the context over the
empty one. -/
def View.over (v : View) (s : Semantics) : Context :=
  ⟨v.globals, v.inner, v.strict, s⟩

namespace Value

/-- The value that `path` leads to inside a value. A map takes an integer for the key that spells
it, and a text gives its characters at the end of a path only. -/
def fetch? : Value → Path → Option Value
  | v, [] => some v
  | .map entries, .property name :: rest => do fetch? (← Entries.get? name entries) rest
  | .map entries, .index n :: rest => do fetch? (← Entries.get? n.toInt.repr entries) rest
  | .list items, .index n :: rest => do
    let i ← position? items.length n
    fetch? (← items[i]?) rest
  | .str s, [.index n] => do
    let i ← position? s.toList.length n
    return .char (← s.toList[i]?)
  | _, _ => none

/-- The value with `new` at the end of `path`. The last step may add a key to a map; all others
have to be there, and integers are positions in lists only. -/
def store? (new : Value) : Value → Path → Option Value
  | _, [] => some new
  | .map entries, [.property name] => some (.map (Entries.insert name new entries))
  | .map entries, .property name :: rest => do
    let changed ← store? new (← Entries.get? name entries) rest
    return .map (Entries.insert name changed entries)
  | .list items, .index n :: rest => do
    let i ← position? items.length n
    let changed ← store? new (← items[i]?) rest
    return .list (items.set i changed)
  | _, _ => none

end Value

namespace Frame

/-- The frame with `value` at a path below the name `root`. A name alone need not be there. -/
def store? (frame : Frame) (root : String) (rest : Path) (value : Value) : Option Frame :=
  match rest with
  | [] => some (Entries.insert root value frame)
  | _ => do
    let changed ← Value.store? value (← Entries.get? root frame) rest
    return Entries.insert root changed frame

end Frame

namespace Context

def new (semantics : Semantics) (strict : Bool) : Context :=
  ⟨[], [], strict, semantics⟩

/-- All frames, innermost first. -/
def frames (c : Context) : List Frame :=
  c.inner ++ [c.globals]

def depth (c : Context) : Nat :=
  c.inner.length + 1

def push (c : Context) : Context :=
  { c with inner := [] :: c.inner }

/-- Drops the innermost frame. The globals stay. -/
def pop (c : Context) : Context :=
  { c with inner := c.inner.tail }

/-- Whether there is a frame to drop. -/
def canPop (c : Context) : Bool :=
  !c.inner.isEmpty

/-- Runs `body` with a new innermost frame and drops the innermost frame afterwards. -/
def withScope {α : Type} (c : Context) (body : Context → α × Context) : α × Context :=
  let (result, c) := body c.push
  (result, c.pop)

/-- Binds a name in the innermost frame. -/
def declare (c : Context) (name : String) (value : Value) : Context :=
  match c.inner with
  | frame :: rest => { c with inner := Entries.insert name value frame :: rest }
  | [] => { c with globals := Entries.insert name value c.globals }

def declareAll (c : Context) (bindings : List (String × Value)) : Context :=
  bindings.foldl (fun c (name, value) => c.declare name value) c

/-- Removes all variables and all frames but the globals. -/
def clear (c : Context) : Context :=
  { c with globals := [], inner := [] }

def setStrict (c : Context) (strict : Bool) : Context :=
  { c with strict := strict }

def withSemantics (c : Context) (semantics : Semantics) : Context :=
  { c with semantics := semantics }

/-- The value of a name in the innermost frame that binds it. -/
def lookup? (c : Context) (name : String) : Option Value :=
  c.frames.findSome? fun frame => frame.get? name

def hasVariable (c : Context) (name : String) : Bool :=
  (c.lookup? name).isSome

/-- What reading an absent location gives. -/
def missing (c : Context) (path : Path) : Outcome :=
  if c.strict then .error (.cannotResolve path) else .ok .null

def getValue (c : Context) (path : Path) : Outcome :=
  match path with
  | [] => .error .emptyPath
  | .index _ :: _ => .error (.rootNotName path)
  | .property root :: rest =>
    match (c.lookup? root).bind fun v => v.fetch? rest with
    | some v => .ok v
    | none => c.missing path

def getVariable (c : Context) (name : String) : Outcome :=
  c.getValue (.ofName name)

/-- Changes the innermost frame that binds `root`, or the globals if none does. -/
def changeFrame? (root : String) (change : Frame → Option Frame) (globals : Frame) :
    List Frame → Option (Frame × List Frame)
  | [] => (change globals).map fun globals => (globals, [])
  | frame :: rest =>
    if Entries.contains root frame then (change frame).map fun frame => (globals, frame :: rest)
    else
      (changeFrame? root change globals rest).map fun (globals, inner) =>
        (globals, frame :: inner)

def setValue (c : Context) (path : Path) (value : Value) : Except Fault Context :=
  match path with
  | .property root :: rest =>
    match changeFrame? root (fun frame => Frame.store? frame root rest value) c.globals c.inner with
    | some (globals, inner) => .ok { c with globals := globals, inner := inner }
    | none => .error (.cannotAssign path)
  | _ => .error (.cannotAssign path)

def setVariable (c : Context) (name : String) (value : Value) : Except Fault Context :=
  c.setValue (.ofName name) value

/-- All visible variables; inner frames hide outer ones. -/
def visible (c : Context) : Entries Value :=
  c.inner.foldr (fun frame outer => Entries.override outer frame) c.globals

/-- What function bodies see of the context. -/
def view (c : Context) : View :=
  ⟨c.globals, c.inner, c.strict⟩

/-- What function bodies can see of the context and ask of it, apart from calls. -/
def services (c : Context) : Services where
  view := c.view
  call _ name _ := .error (.callsTooDeep name)
  operate := c.semantics.operators.applyBinary
  operateUnary operation v :=
    (c.semantics.operators.resolveUnary operation v).map fun handler => handler.apply v
  convert := c.semantics.conversion.convert

/-- Calls a function by its name. -/
def call (c : Context) (name : String) (args : List Value) : Outcome :=
  c.semantics.functions.call c.services name args

/-- Runs one overload with the arguments as they are. -/
def invoke (c : Context) (f : Function) (args : List Value) : Outcome :=
  f.body { c.services with call := fun view => (view.over c.semantics).call } args

/-- The context as listings show it. -/
def inspect (c : Context) : String :=
  let shown := c.visible.map fun (name, value) => Text.quoted name ++ ": " ++ value.inspect
  "Context \x7b frames: " ++ c.depth.repr ++ ", strict: " ++
    (if c.strict then "true" else "false") ++ ", variables: \x7b" ++
    commaSeparated shown ++ "\x7d \x7d"

theorem length_frames (c : Context) : c.frames.length = c.depth := by
  simp [frames, depth]

end Context

end ExprLang
