import ExprLang.Operation
/-!
# Expression trees

The tree of an expression. A reference is a node that denotes a storage location: a name, or a path
of property and index steps behind a name.
-/

namespace ExprLang

/-- Values written directly in a source. An integer without suffix becomes narrow when it is
evaluated and fits; only hosts make character literals. -/
inductive Literal where
  | null
  | bool (b : Bool)
  | int (n : Int64)
  | long (n : Int64)
  | double (d : Float)
  | char (c : Char)
  | str (s : String)
  deriving DecidableEq

/-- On which side of its operand a unary operator stands. -/
inductive Fix where
  | before
  | after
  deriving DecidableEq, Repr

mutual
inductive Node where
  | literal (value : Literal)
  /-- a dotted name and perhaps another one that is given to it -/
  | name (name : String) (given : Option String)
  | path (segments : List Segment)
  | unary (operation : Operation) (fix : Fix) (operand : Node)
  | binary (operation : Operation) (left right : Node)
  | ternary (condition positive negative : Node)
  | call (name : String) (arguments : List Node)
  | arguments (items : List Node)
  | parameters (params : List Parameter)

/-- One step of a path. The root name is a property as well. -/
inductive Segment where
  | property (name : String)
  | index (node : Node)

/-- A declared parameter with an optional default. -/
inductive Parameter where
  | mk (name : String) (default : Option Node)
end

instance : Inhabited Node := ⟨.literal .null⟩

def Segment.name? : Segment → Option String
  | .property name => some name
  | .index _ => none

def Parameter.name : Parameter → String
  | .mk name _ => name

def Parameter.default : Parameter → Option Node
  | .mk _ default => default

namespace Node

def isReference : Node → Bool
  | name _ _ | path _ => true
  | _ => false

/-- Whether the node is a unary operator in front of its operand. -/
def isPrefixed : Node → Bool
  | unary _ .before _ => true
  | _ => false

end Node

end ExprLang
