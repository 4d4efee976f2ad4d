import ExprLang.Config
import ExprLang.Extension
/-!
# Engines

A lexer, a grammar and a semantics that are extended together. An engine compiles sources to
expressions, and an expression is evaluated in a context of its user's choice.
-/

namespace ExprLang

structure Engine where
  lexer : Lexer
  grammar : Grammar
  semantics : Semantics
  strict : Bool
  /-- the names of the extensions, in the order in which they were added -/
  extensions : List String

/-- A source with its tree. -/
structure Expression where
  source : String
  node : Node

/-- Evaluates what a source has been compiled to. The context is the one that was given when the
source does not compile. -/
def Expression.run (compiled : Except Error Expression) (context : Context) :
    Except Error Value × Context :=
  match compiled with
  | .ok expression =>
    let (result, context) := expression.node.evaluate context
    (result.mapError Error.of, context)
  | .error e => (.error e, context)

namespace Engine

/-- The engine without extensions. It takes every fragment for raw text and has no parser. -/
def bare : Engine :=
  ⟨.bare, .empty, .empty, false, []⟩

def extend (engine : Engine) (e : Extension) : Engine where
  lexer := engine.lexer.extend e
  grammar := engine.grammar.extend e
  semantics := engine.semantics.extend e
  strict := engine.strict
  extensions := engine.extensions ++ [e.name]

def setStrict (engine : Engine) (strict : Bool) : Engine :=
  { engine with strict := strict }

/-- The engine with room for that many calls inside one another. -/
def setMaxDepth (engine : Engine) (depth : Nat) : Engine :=
  { engine with semantics := engine.semantics.setMaxDepth depth }

/-- The engine with the core extension. -/
def core : Engine :=
  bare.extend .core

def ofConfig (config : Config) : Engine :=
  let engine := core.setStrict config.strict
  if config.template then engine.extend .template else engine

/-- The tree of a construct that starts at the cursor and reaches the end of the input. -/
def parseAt (engine : Engine) (construct : Construct) (cursor : Cursor) : Except Error Node :=
  (engine.grammar.parseAll construct cursor).1

/-- The tree of a source for a construct. -/
def parse (engine : Engine) (construct : Construct) (source : String) : Except Error Node := do
  engine.parseAt construct (← engine.lexer.cursor source)

def compile (engine : Engine) (source : String) : Except Error Expression := do
  return ⟨source, ← engine.parse .expression source⟩

/-- A new context over the semantics of the engine. -/
def context (engine : Engine) : Context :=
  .new engine.semantics engine.strict

/-- Compiles and evaluates a source. -/
def eval (engine : Engine) (source : String) (context : Context) : Except Error Value × Context :=
  Expression.run (engine.compile source) context

end Engine

end ExprLang
