import ExprLang.Conversion
/-!
# Operators

A handler computes an operation for operands of its declared types. The first handler of an
operation that accepts the operands computes it, in the order in which handlers were added.
-/

namespace ExprLang

structure BinaryHandler where
  operation : Operation
  left : TypeTag
  right : TypeTag
  apply : Value → Value → Outcome

namespace BinaryHandler

def accepts (h : BinaryHandler) (left right : Value) : Bool :=
  h.left.accepts left.tag && h.right.accepts right.tag

/-- The handler as listings show it. -/
def inspect (h : BinaryHandler) : String :=
  Fault.between h.left.name h.operation h.right.name

end BinaryHandler

structure UnaryHandler where
  operation : Operation
  operand : TypeTag
  apply : Value → Outcome

namespace UnaryHandler

def accepts (h : UnaryHandler) (operand : Value) : Bool :=
  h.operand.accepts operand.tag

/-- The handler as listings show it. -/
def inspect (h : UnaryHandler) : String :=
  h.operation.symbol ++ " " ++ h.operand.name

end UnaryHandler

/-- Handlers in the order in which they are tried. -/
structure Operators where
  binary : List BinaryHandler
  unary : List UnaryHandler

namespace Operators

def empty : Operators :=
  ⟨[], []⟩

def addBinary (table : Operators) (handler : BinaryHandler) : Operators :=
  { table with binary := table.binary ++ [handler] }

def addUnary (table : Operators) (handler : UnaryHandler) : Operators :=
  { table with unary := table.unary ++ [handler] }

def binaryHandlers (table : Operators) (operation : Operation) : List BinaryHandler :=
  table.binary.filter fun h => h.operation = operation

def unaryHandlers (table : Operators) (operation : Operation) : List UnaryHandler :=
  table.unary.filter fun h => h.operation = operation

/-- The handler for two operands. Null is no operand of any binary operator. -/
def resolveBinary (table : Operators) (operation : Operation) (left right : Value) :
    Except Fault BinaryHandler :=
  if left.isNull || right.isNull then .error (.nullOperand operation left.tag right.tag)
  else
    match (table.binaryHandlers operation).find? fun h => h.accepts left right with
    | some handler => .ok handler
    | none => .error (.noBinaryHandler operation left.tag right.tag)

def resolveUnary (table : Operators) (operation : Operation) (operand : Value) :
    Except Fault UnaryHandler :=
  match (table.unaryHandlers operation).find? fun h => h.accepts operand with
  | some handler => .ok handler
  | none => .error (.noUnaryHandler operation operand.tag)

def applyBinary (table : Operators) (operation : Operation) (left right : Value) : Outcome := do
  (← table.resolveBinary operation left right).apply left right

def applyUnary (table : Operators) (operation : Operation) (operand : Value) : Outcome := do
  (← table.resolveUnary operation operand).apply operand

end Operators

end ExprLang
