import ExprLang.Evaluation
import ExprLang.Grammar.Core
import ExprLang.Lexer
/-!
# Extensions

A named bundle of additions to a lexer, a grammar and a semantics. Each part of an extension goes
behind what is there already, except that a parser replaces an earlier one of its construct.
-/

namespace ExprLang

structure Extension where
  name : String
  recognizers : List Recognizer := []
  binaryOperators : List BinaryOperator := []
  beforeOperators : List UnaryOperator := []
  afterOperators : List UnaryOperator := []
  parsers : List (Construct × ConstructParser) := []
  binaryHandlers : List BinaryHandler := []
  unaryHandlers : List UnaryHandler := []
  functions : List Function := []
  converters : List Converter := []

namespace Extension

/-- The core grammar with its operators, functions and conversions. -/
def core : Extension where
  name := "core"
  recognizers := Recognizer.core
  binaryOperators := Grammar.core.binary
  beforeOperators := Grammar.core.before
  afterOperators := Grammar.core.after
  parsers := Grammar.core.parsers
  binaryHandlers := Operators.coreBinary
  unaryHandlers := Operators.coreUnary
  functions := Functions.Library.all
  converters := Conversion.coreConverters

/-- The keywords of templates, recognized before identifiers. -/
def template : Extension where
  name := "template"
  recognizers := [.template Recognizer.keywordPriority]

/-- The extension as listings show it. -/
def inspect (e : Extension) : String :=
  let fields := [
    "name: " ++ Text.quoted e.name,
    "recognizers: " ++ e.recognizers.length.repr,
    "binary_operators: " ++ e.binaryOperators.length.repr,
    "prefix_operators: " ++ e.beforeOperators.length.repr,
    "postfix_operators: " ++ e.afterOperators.length.repr,
    "parsers: " ++ e.parsers.length.repr,
    "binary_handlers: " ++ e.binaryHandlers.length.repr,
    "unary_handlers: " ++ e.unaryHandlers.length.repr,
    "functions: [" ++ commaSeparated (e.functions.map Function.inspect) ++ "]",
    "converters: [" ++ commaSeparated (e.converters.map Converter.inspect) ++ "]"]
  "Extension \x7b " ++ commaSeparated fields ++ " \x7d"

end Extension

def Lexer.extend (lexer : Lexer) (e : Extension) : Lexer :=
  e.recognizers.foldl Lexer.addRecognizer lexer

def Grammar.extend (g : Grammar) (e : Extension) : Grammar :=
  let g := e.parsers.foldl (fun g entry => g.setParser entry.1 entry.2) g
  let g := e.binaryOperators.foldl Grammar.addBinary g
  let g := e.beforeOperators.foldl Grammar.addBefore g
  e.afterOperators.foldl Grammar.addAfter g

def Semantics.extend (s : Semantics) (e : Extension) : Semantics :=
  let s := e.binaryHandlers.foldl Semantics.addBinary s
  let s := e.unaryHandlers.foldl Semantics.addUnary s
  let s := e.functions.foldl Semantics.addFunction s
  e.converters.foldl Semantics.addConverter s

/-- Extends the semantics of one context and keeps its variables. -/
def Context.extend (c : Context) (e : Extension) : Context :=
  c.withSemantics (c.semantics.extend e)

end ExprLang
