import ExprLang.Shell.Binding
import ExprLang.Shell.Files
import ExprLang.Shell.Options
import ExprLang.Shell.Session
/-!
# The command line

A run of the command line is a function of its arguments, the environment and the files it reads. It
prints and ends with an exit code, or starts an interactive session.
-/

namespace ExprLang.Shell

def version : String := "0.0.1-dev"

/-- Why a run cannot start. -/
inductive Failure where
  | unreadable (path : String) (error : FileError)
  | invalidConfig (error : Json.Error)
  | invalidJson (path : String) (error : Json.Error)
  | notObject (path : String)
  | binding (error : BindingError)

def Failure.message : Failure → String
  | unreadable path error => "Failed to read " ++ path ++ ": " ++ error.message
  | invalidConfig error => "Invalid configuration: " ++ error.text
  | invalidJson path error => "Invalid JSON in " ++ path ++ ": " ++ error.text
  | notObject path => path ++ " must contain a JSON object"
  | binding error => error.message

/-- What a run needs of its surroundings. -/
structure Surroundings where
  environment : String → Option String
  read : String → Except FileError String

/-- What a run comes to. -/
inductive Course where
  | finished (code : Nat) (writes : List Write)
  | interactive (session : Session)

namespace Surroundings

def readText (around : Surroundings) (path : String) : Except Failure String :=
  (around.read path).mapError (Failure.unreadable path)

/-- The configuration: the file, overridden by the environment, then by the options. -/
def config (around : Surroundings) (o : Options) : Except Failure Config := do
  let base ← match o.config with
    | some path => (Config.ofJson (← around.readText path)).mapError Failure.invalidConfig
    | none => pure {}
  let c := base.withOverrides around.environment
  return { strict := c.strict || o.strict, template := c.template || o.template }

/-- The variables of the file of variables. -/
def fileVariables (around : Surroundings) (path : String) :
    Except Failure (List (String × Value)) := do
  let text ← around.readText path
  match ← (Json.read text).mapError (Failure.invalidJson path) with
  | .object members => return Json.toEntries members
  | _ => throw (.notObject path)

/-- The variables that the options declare, those of the file first. -/
def bindings (around : Surroundings) (o : Options) :
    Except Failure (List (String × Value)) := do
  let fromFile ← match o.variableFile with
    | some path => around.fileVariables path
    | none => pure []
  let given ← o.bindings.mapM fun text =>
    match Binding.parse text with
    | .ok b => Except.ok (b.name, b.value)
    | .error e => Except.error (Failure.binding e)
  return fromFile ++ given

/-- The source to evaluate, if there is one. -/
def source (around : Surroundings) (o : Options) : Except Failure (Option String) :=
  match o.expression, o.file with
  | some expression, _ => .ok (some expression)
  | none, some path => (around.readText path).map some
  | none, none => .ok none

end Surroundings

open Style in
/-- A line of the listing of tokens. -/
def tokenLine (t : Token) : Write :=
  .line (padStart 3 t.span.line.repr ++ ":" ++ padEnd 3 t.span.col.repr ++ " " ++
    padEnd 14 t.kind.describe ++ " " ++ t.text)

/-- An error ends the run with its report. -/
def failed (source : String) (e : Error) : Course :=
  .finished 1 (Report.error source e)

/-- Lists the tokens of a source. -/
def runTokens (engine : Engine) (source : String) : Course :=
  match engine.lexer.tokens source with
  | .ok tokens => .finished 0 ((tokens.filter fun t => !t.isEof).map tokenLine)
  | .error e => failed source e

/-- Prints the tree or the value of a source. -/
def runSource (engine : Engine) (context : Context) (o : Options) (source : String) : Course :=
  match engine.compile source with
  | .error e => failed source e
  | .ok expression =>
    if o.tree then .finished 0 [.line expression.node.text]
    else
      match (expression.node.evaluate context).1 with
      | .ok value => .finished 0 [.line (if o.json then value.toJson.text else value.text)]
      | .error fault => failed source (.of fault)

def Options.run (around : Surroundings) (o : Options) : Except Failure Course := do
  let engine := Engine.ofConfig (← around.config o)
  let context := engine.context.declareAll (← around.bindings o)
  match ← around.source o with
  | none => return .interactive (.start engine context)
  | some text =>
    let source := Text.trimmedEnd text
    return if o.tokens then runTokens engine source else runSource engine context o source

/-- The course of a run with the given arguments. -/
def course (around : Surroundings) (args : List String) : Course :=
  match Request.parse args with
  | .error e => .finished 2 [Report.titled "error" e.message]
  | .ok .help => .finished 0 [.out Options.usage]
  | .ok .version => .finished 0 [.line ("spelt " ++ version)]
  | .ok (.run options) =>
    match options.run around with
    | .ok course => course
    | .error failure => .finished 1 [Report.titled "error" failure.message]

/-- The exit code of a run and all that it prints, for an input that is known beforehand. -/
def Course.complete (input : List UInt8) : Course → Nat × List Write
  | finished code writes => (code, writes)
  | interactive session => (0, Session.banner :: session.run (Session.linesOf input))

end ExprLang.Shell
