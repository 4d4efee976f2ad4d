/-!
# Kinds of errors

A host reacts to the kind of an error: it may deny on an operator error and print nothing for an
unresolved name.
-/

namespace ExprLang

inductive ErrorKind where
  | lexical
  | grammar
  | operator
  | function
  | conversion
  | unresolved
  | arithmetic
  | evaluation
  deriving DecidableEq, Repr

/-- The heading of a rendered error. -/
def ErrorKind.label : ErrorKind → String
  | lexical => "Lexical error"
  | grammar => "Syntax error"
  | operator => "Operator error"
  | function => "Function not found"
  | conversion => "Conversion error"
  | unresolved => "Unresolved"
  | arithmetic => "Arithmetic error"
  | evaluation => "Evaluation error"

end ExprLang
