import ExprLang.Conversion
import ExprLang.Entries
import ExprLang.Ranked
/-!
# Functions

A name may have several overloads. They are kept with the most specific one first, and a call takes
the first that accepts the arguments. Arguments declared as wide integers or doubles are widened
before the call.

The body of a function sees the variables of the context it is called in. It cannot see what is
registered there, but it can have operators, conversions and functions applied, functions also over
variables that it has changed.
-/

namespace ExprLang

abbrev Frame := Entries Value

/-- A context apart from the semantics that evaluation consults. -/
structure View where
  globals : Frame
  /-- the frames inside the globals, innermost first -/
  inner : List Frame
  strict : Bool

/-- What the body of a function can see and ask for while it runs. -/
structure Services where
  /-- the context of the call -/
  view : View
  /-- a call in a context of the body's choice -/
  call : View → String → List Value → Outcome
  operate : Operation → Value → Value → Outcome
  /-- what the handler for the operand makes of it, if there is one; evaluation tells the two
  failures apart -/
  operateUnary : Operation → Value → Except Fault Outcome
  convert : Value → TypeTag → Outcome

/-- One overload of a named function. -/
structure Function where
  name : String
  signature : Signature
  body : Services → List Value → Outcome

namespace Function

/-- Whether `f` is tried before or along with `g`. -/
def notAfter (f g : Function) : Bool :=
  f.signature.notAfter g.signature

/-- The function as listings show it. -/
def inspect (f : Function) : String :=
  f.name ++ f.signature.text

/-- Whether arguments for the declared tag are widened. -/
def isWidening (declared : TypeTag) : Bool :=
  declared == .long || declared == .double

/-- The arguments from position `i` on, each as its parameter declares it. -/
def widened (f : Function) (convert : Value → TypeTag → Outcome) (i : Nat) :
    List Value → Except Fault (List Value)
  | [] => .ok []
  | arg :: rest => do
    let first ←
      match f.signature.tag? i with
      | some declared =>
        if isWidening declared && arg.tag != declared then convert arg declared else .ok arg
      | none => .ok arg
    return first :: (← f.widened convert (i + 1) rest)

end Function

/-- The overloads of every name, the most specific ones first. -/
structure Functions where
  overloads : Entries (List Function)
  /-- how many calls may be inside one another, for which the stack of the host has room -/
  maxDepth : Nat

namespace Functions

def empty : Functions :=
  ⟨[], 2000⟩

def setMaxDepth (fs : Functions) (depth : Nat) : Functions :=
  { fs with maxDepth := depth }

def overloadsOf (fs : Functions) (name : String) : List Function :=
  (fs.overloads.get? name).getD []

/-- Adds an overload behind those that are as specific. -/
def add (fs : Functions) (f : Function) : Functions :=
  { fs with overloads :=
      fs.overloads.insert f.name (Ranked.insert Function.notAfter f (fs.overloadsOf f.name)) }

def ofList (functions : List Function) : Functions :=
  functions.foldl add empty

@[simp] theorem maxDepth_add (fs : Functions) (f : Function) :
    (fs.add f).maxDepth = fs.maxDepth := rfl

def contains (fs : Functions) (name : String) : Bool :=
  fs.overloads.contains name

def names (fs : Functions) : List String :=
  fs.overloads.keys

/-- The first overload that accepts the arguments. -/
def resolve (fs : Functions) (name : String) (args : List Value) : Except Fault Function :=
  match fs.overloadsOf name with
  | [] => .error (.unknownFunction name)
  | overloads =>
    match overloads.find? fun f => f.signature.accepts args with
    | some f => .ok f
    | none =>
      .error (.noOverload name (args.map Value.tag) (overloads.map Function.signature))

/-- A call with at most `depth` calls inside one another. `services` is what bodies can see and ask
for, apart from calls. -/
def callWithin (fs : Functions) (services : Services) :
    Nat → String → List Value → Outcome
  | 0, name, _ => .error (.callsTooDeep name)
  | depth + 1, name, args => do
    let f ← fs.resolve name args
    let args ← f.widened services.convert 0 args
    f.body { services with call := fun view => fs.callWithin { services with view := view } depth }
      args

def call (fs : Functions) (services : Services) (name : String) (args : List Value) : Outcome :=
  fs.callWithin services fs.maxDepth name args

end Functions

end ExprLang
