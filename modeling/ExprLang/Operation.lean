/-!
# Operations

What a unary or binary node computes. The core operations are fixed; further ones are named by the
grammar that brings them.
-/

namespace ExprLang

inductive Operation where
  | add | subtract | multiply | divide | modulo
  | equal | notEqual | less | lessEqual | greater | greaterEqual
  | and | or | not | negate | plus | increment | decrement
  | custom (name : String)
  deriving DecidableEq, Repr

namespace Operation

/-- The symbol under which the operation is printed. -/
def symbol : Operation → String
  | add | plus => "+"
  | subtract | negate => "-"
  | multiply => "*"
  | divide => "/"
  | modulo => "%"
  | equal => "=="
  | notEqual => "!="
  | less => "<"
  | lessEqual => "<="
  | greater => ">"
  | greaterEqual => ">="
  | and => "&&"
  | or => "||"
  | not => "!"
  | increment => "++"
  | decrement => "--"
  | custom name => name

/-- The core operations. -/
def core : List Operation := [
  add, subtract, multiply, divide, modulo, equal, notEqual, less, lessEqual, greater, greaterEqual,
  and, or, not, negate, plus, increment, decrement]

/-- The name under which hosts know the operation. -/
def name : Operation → String
  | add => "Add"
  | subtract => "Subtract"
  | multiply => "Multiply"
  | divide => "Divide"
  | modulo => "Modulo"
  | equal => "Equal"
  | notEqual => "NotEqual"
  | less => "Less"
  | lessEqual => "LessEqual"
  | greater => "Greater"
  | greaterEqual => "GreaterEqual"
  | and => "And"
  | or => "Or"
  | not => "Not"
  | negate => "Negate"
  | plus => "Plus"
  | increment => "Increment"
  | decrement => "Decrement"
  | custom name => name

/-- Steps are the only operations that write their result back. -/
def isStep : Operation → Bool
  | increment | decrement => true
  | _ => false

end Operation

end ExprLang
