import ExprLang.Shell.Arguments
/-!
# Options of the command line

What the command line asks for. Options are taken from left to right, and a request for the help or
the version is answered as soon as it is met.
-/

namespace ExprLang.Shell

structure Options where
  expression : Option String := none
  file : Option String := none
  bindings : List String := []
  variableFile : Option String := none
  config : Option String := none
  strict : Bool := false
  template : Bool := false
  tokens : Bool := false
  tree : Bool := false
  json : Bool := false
  deriving DecidableEq, Repr

/-- What to do. -/
inductive Request where
  | run (options : Options)
  | help
  | version
  deriving DecidableEq, Repr

namespace Options

def isPath (text : String) : Bool :=
  !text.isEmpty

def flagSpec (long : String) (short : Option Char) : OptionSpec :=
  ⟨long, short, .flag, fun _ => true⟩

def specs : List OptionSpec := [
  ⟨"file", some 'f', .single, isPath⟩,
  ⟨"var", none, .repeated, fun _ => true⟩,
  ⟨"vars", none, .single, isPath⟩,
  ⟨"config", some 'c', .single, isPath⟩,
  flagSpec "strict" none,
  flagSpec "template" none,
  flagSpec "tokens" none,
  flagSpec "ast" none,
  flagSpec "json" none,
  flagSpec "help" (some 'h'),
  flagSpec "version" (some 'V')]

def usage : String :=
  "Command-line evaluator and REPL for the Spelt expression language\n\n" ++
  "Usage: spelt [OPTIONS] [EXPR]\n\n" ++
  "Arguments:\n" ++
  "  [EXPR]  Expression to evaluate\n\n" ++
  "Options:\n" ++
  "  -f, --file <FILE>       Read the expression from a file\n" ++
  "      --var <NAME=VALUE>  Declare a variable; the value is read as JSON, or as a string if " ++
  "it is not JSON\n" ++
  "      --vars <FILE>       Declare every key of a JSON object file as a variable\n" ++
  "  -c, --config <FILE>     Engine configuration file (JSON)\n" ++
  "      --strict            Treat unresolved names as errors\n" ++
  "      --template          Import the template keywords\n" ++
  "      --tokens            Print the token stream instead of evaluating\n" ++
  "      --ast               Print the parsed tree instead of evaluating\n" ++
  "      --json              Print the result as JSON\n" ++
  "  -h, --help              Print help\n" ++
  "  -V, --version           Print version\n"

/-- A flag that is on from now on. -/
def once (name : String) (isOn : Bool) (on : Options) : Except UsageError Options :=
  if isOn then .error (.repeatedOption name) else .ok on

/-- A value that was not given before. -/
def only (name : String) (earlier : Option String) (set : Options) : Except UsageError Options :=
  if earlier.isSome then .error (.repeatedOption name) else .ok set

/-- The options with a flag. -/
def withFlag (o : Options) (name : String) : Except UsageError Options :=
  match name with
  | "strict" => once name o.strict { o with strict := true }
  | "template" => once name o.template { o with template := true }
  | "tokens" => once name o.tokens { o with tokens := true }
  | "ast" => once name o.tree { o with tree := true }
  | "json" => once name o.json { o with json := true }
  | _ => .error (.unknownOption name)

/-- The options with a value. -/
def withValue (o : Options) (name text : String) : Except UsageError Options :=
  match name with
  | "file" => only name o.file { o with file := some text }
  | "var" => .ok { o with bindings := o.bindings ++ [text] }
  | "vars" => only name o.variableFile { o with variableFile := some text }
  | "config" => only name o.config { o with config := some text }
  | _ => .error (.unknownOption name)

/-- The options without those that exclude each other. -/
def checked (o : Options) : Except UsageError Options :=
  if o.file.isSome && o.expression.isSome then .error (.conflict "--file <FILE>" "[EXPR]")
  else if o.tokens && o.tree then .error (.conflict "--tokens" "--ast")
  else .ok o

/-- The request that further arguments make of options. -/
def take (o : Options) : List Argument → Except UsageError Request
  | [] => o.checked.map .run
  | .flag name :: rest =>
    if name = "help" then .ok .help
    else if name = "version" then .ok .version
    else do take (← o.withFlag name) rest
  | .option name text :: rest => do take (← o.withValue name text) rest
  | .operand text :: rest =>
    if o.expression.isSome then .error (.unexpectedOperand text)
    else take { o with expression := some text } rest
  | .bad error :: _ => .error error

end Options

/-- The request that the arguments make. -/
def Request.parse (args : List String) : Except UsageError Request :=
  Options.take {} (Argument.read Options.specs args)

end ExprLang.Shell
