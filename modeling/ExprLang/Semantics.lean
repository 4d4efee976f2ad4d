import ExprLang.Conversion.Core
import ExprLang.Functions.Library
import ExprLang.Operators.Core
/-!
# Semantics

What gives meaning to a tree besides the variables: the operators, functions and conversions that
evaluation consults.
-/

namespace ExprLang

structure Semantics where
  operators : Operators
  functions : Functions
  conversion : Conversion

namespace Semantics

def empty : Semantics :=
  ⟨.empty, .empty, .empty⟩

def core : Semantics :=
  ⟨.core, .core, .core⟩

def addBinary (s : Semantics) (handler : BinaryHandler) : Semantics :=
  { s with operators := s.operators.addBinary handler }

def addUnary (s : Semantics) (handler : UnaryHandler) : Semantics :=
  { s with operators := s.operators.addUnary handler }

def addFunction (s : Semantics) (f : Function) : Semantics :=
  { s with functions := s.functions.add f }

def setMaxDepth (s : Semantics) (depth : Nat) : Semantics :=
  { s with functions := s.functions.setMaxDepth depth }

def addConverter (s : Semantics) (converter : Converter) : Semantics :=
  { s with conversion := s.conversion.add converter }

end Semantics

end ExprLang
