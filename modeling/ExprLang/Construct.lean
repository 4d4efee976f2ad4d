import ExprLang.Text.Quoted
/-!
# Constructs

The syntactic constructs that a grammar has parsers for. The core grammar defines nine; further
ones are named by the grammar that brings them.
-/

namespace ExprLang

inductive Construct where
  | expression | ternary | binary | unary | primary | path | arguments | parameters | names
  | custom (name : String)
  deriving DecidableEq, Repr

namespace Construct

/-- The name under which listings and messages know the construct. -/
def name : Construct → String
  | expression => "Expression"
  | ternary => "Ternary"
  | binary => "Binary"
  | unary => "Unary"
  | primary => "Primary"
  | path => "Path"
  | arguments => "Arguments"
  | parameters => "Parameters"
  | names => "Names"
  | custom name => "Custom(" ++ Text.quoted name ++ ")"

/-- The constructs of the core grammar. -/
def core : List Construct :=
  [expression, ternary, binary, unary, primary, path, arguments, parameters, names]

end Construct

end ExprLang
