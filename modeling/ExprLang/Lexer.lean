import ExprLang.Cursor
import ExprLang.Fragment
import ExprLang.Recognizer
/-!
# Lexers

A lexer cuts a source into fragments and gives each a kind. Fragments that no recognizer knows get
the default kind, or are an error if there is none.
-/

namespace ExprLang

structure Lexer where
  splitter : Splitter
  chain : Chain
  default : Option TokenKind

namespace Lexer

/-- The lexer that takes every fragment for raw text. -/
def bare : Lexer where
  splitter := Fragment.split
  chain := .empty
  default := some BasicKind.raw

def addRecognizer (lexer : Lexer) (recognizer : Recognizer) : Lexer :=
  { lexer with chain := lexer.chain.insert recognizer }

/-- The lexer of the core grammar. -/
def core : Lexer :=
  { bare with chain := .ofList Recognizer.core }

/-- Whether symbol `a` is cut in preference to `b`: longer ones are. -/
def preferred (a b : String) : Bool :=
  b.length < a.length || (a.length == b.length && a ≤ b)

/-- The symbols of all recognizers in the order of preference. -/
def symbols (lexer : Lexer) : List String :=
  lexer.chain.symbols.mergeSort preferred

def classify (lexer : Lexer) (fragment : Fragment) : Except Error Token :=
  match (lexer.chain.recognize fragment).or lexer.default with
  | some kind => .ok ⟨kind, fragment.text, fragment.span⟩
  | none => .error (.inSpan (.unrecognized fragment.text) fragment.span)

/-- The tokens of a source with the end token behind them. -/
def tokens (lexer : Lexer) (source : String) : Except Error (List Token) := do
  let fragments ← lexer.splitter lexer.symbols source
  let tokens ← fragments.mapM lexer.classify
  return tokens ++ [.eof (Mark.start.advance source.toList)]

/-- The cursor at the first token of a source. -/
def cursor (lexer : Lexer) (source : String) : Except Error Cursor :=
  (lexer.tokens source).map Cursor.ofList

/-- The lexer as listings show it. -/
def inspect (lexer : Lexer) : String :=
  let priorities := ", ".intercalate (lexer.chain.priorities.map Int.repr)
  let default := match lexer.default with
    | some kind => "Some(" ++ kind.inspect ++ ")"
    | none => "None"
  "Lexer \x7b recognizer: CompositeRecognizer \x7b priorities: [" ++ priorities ++
    "] \x7d, symbols: " ++ lexer.symbols.length.repr ++ ", default_kind: " ++ default ++ " \x7d"

end Lexer

end ExprLang
