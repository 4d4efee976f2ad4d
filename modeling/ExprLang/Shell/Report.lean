import ExprLang.Error
import ExprLang.Shell.Style
import ExprLang.Text.Search
/-!
# Reports

What a command prints: lines on the output and lines on the error output. An engine error is shown
with the source line it belongs to, a mark below its column, and advice for its kind.
-/

namespace ExprLang.Shell

/-- One piece of printed text. -/
inductive Write where
  | out (text : String)
  | err (text : String)
  deriving DecidableEq, Repr

namespace Write

def text : Write → String
  | out text => text
  | err text => text

/-- A line on the output. -/
def line (text : String) : Write :=
  out (text ++ "\n")

/-- A line on the error output. -/
def errorLine (text : String) : Write :=
  err (text ++ "\n")

/-- All that goes to the output. -/
def output (writes : List Write) : String :=
  String.join <| writes.map fun w =>
    match w with
    | out text => text
    | err _ => ""

/-- All that goes to the error output. -/
def errorOutput (writes : List Write) : String :=
  String.join <| writes.map fun w =>
    match w with
    | out _ => ""
    | err text => text

end Write

namespace Report

open Style

/-- A heading and a message. -/
def titled (title message : String) : Write :=
  .errorLine (bold (red title) ++ ": " ++ red message)

def hint (text : String) : Write :=
  .errorLine (yellow ("Help: " ++ text))

def sample (text : String) : Write :=
  .errorLine ("    " ++ grey text)

/-- Advice for the cause of an error. Only conditionals expect a colon. -/
def advice (fault : Fault) : List Write :=
  let mentions (part : String) : Bool :=
    Text.occursIn part.toList fault.message.toList
  match fault.kind with
  | .lexical =>
    if mentions "Unterminated string" then
      [hint "String is missing its closing quote.",
        sample "Strings use single or double quotes: 'a' or \"a\""]
    else []
  | .grammar =>
    if mentions "Invalid number" then
      [hint "Number literal is out of range or malformed.",
        sample "Use a suffix for wide values: 5000000000L, 1.5D"]
    else if mentions "':'" then
      [hint "Conditionals need both branches.",
        sample "Example: age >= 18 ? 'adult' : 'minor'"]
    else [hint "Check that parentheses and brackets are balanced."]
  | .operator =>
    [hint "No operator accepts these operand types.",
      sample "Operands must be non-null; use coalesce(x, 0) for optional values"]
  | .function =>
    [hint "Check the function name and argument types.",
      sample ("Built-ins include: min, max, abs, pow, len, upper, lower, substring, join, " ++
        "str, int")]
  | .conversion =>
    [hint "The value cannot be converted to the required type.",
      sample "Conditions must be booleans; convert with bool(x)"]
  | .unresolved =>
    [hint "The name is not defined in this context.",
      sample "Pass it with --var name=value or --vars file.json"]
  | .arithmetic =>
    [hint "Integer division by zero.",
      sample "Use a double operand to get infinity instead: 1.0 / 0"]
  | .evaluation => []

/-- The source line with a mark below the column, or the bare place if there is no such line. -/
def location (source : String) (place : Place) : List Write :=
  match (Text.lines source.toList)[place.line - 1]? with
  | some text =>
    let gutter := padStart 3 place.line.repr ++ " | "
    let margin := String.ofList (List.replicate (gutter.length + (place.col - 1)) ' ')
    [.errorLine (grey gutter ++ String.ofList text), .errorLine (red (margin ++ "^"))]
  | none => [.errorLine ("  at " ++ place.line.repr ++ ":" ++ place.col.repr)]

def error (source : String) (e : Error) : List Write :=
  let places := match e.place with
    | some place => location source place
    | none => []
  titled e.kind.label e.message :: places ++ advice e.fault

end Report

end ExprLang.Shell
