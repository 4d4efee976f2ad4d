import ExprLang.Decimal.Reader
import ExprLang.Shell.Command
import ExprLang.Workload
/-!
# Running workloads

The command line of workloads: which cases are run and how often, and where the report goes. How
long the runs take is no matter of this module.
-/

namespace ExprLang.Workload

open Shell

structure Options where
  names : List String := []
  iterations : Option Nat := none
  warmup : Option Nat := none
  directory : Option String := none
  output : Option String := none
  list : Bool := false
  deriving DecidableEq, Repr

namespace Options

/-- A number of runs: an integer that fits 32 bits without a sign. -/
def count? (text : String) : Option Nat :=
  match Decimal.readInt? text.toList with
  | some n => if 0 ≤ n ∧ n < UInt32.size then some n.toNat else none
  | none => none

def isCount (text : String) : Bool :=
  (count? text).isSome

def specs : List OptionSpec := [
  ⟨"test", some 't', .repeated, fun _ => true⟩,
  ⟨"iterations", some 'n', .single, isCount⟩,
  ⟨"warmup", some 'w', .single, isCount⟩,
  ⟨"dir", some 'd', .single, Shell.Options.isPath⟩,
  ⟨"output", some 'o', .single, Shell.Options.isPath⟩,
  ⟨"list", none, .flag, fun _ => true⟩,
  ⟨"help", some 'h', .flag, fun _ => true⟩]

def usage : String :=
  "Time the Spelt lexer, parser and evaluator\n\n" ++
  "Usage: spelt-bench [OPTIONS]\n\n" ++
  "Options:\n" ++
  "  -t, --test <TESTS>             Specific case(s) to run by name, e.g. strings. Runs every " ++
  "case if omitted\n" ++
  "  -n, --iterations <ITERATIONS>  Iterations per case (measured) [default: 200]\n" ++
  "  -w, --warmup <WARMUP>          Warmup iterations (not measured) [default: 20]\n" ++
  "  -d, --dir <DIR>                Directory of \x60.el\x60 files, one expression per line\n" ++
  "  -o, --output <OUTPUT>          Output JSON file path; default: " ++
  "benchmark/results/<timestamp>.json\n" ++
  "      --list                     List discovered cases and exit\n" ++
  "  -h, --help                     Print help\n"

/-- An option that was not given before. -/
def only {α : Type} (name : String) (earlier : Option α) (set : Options) :
    Except UsageError Options :=
  if earlier.isSome then .error (.repeatedOption name) else .ok set

def withValue (o : Options) (name text : String) : Except UsageError Options :=
  match name with
  | "test" => .ok { o with names := o.names ++ [text] }
  | "iterations" => only name o.iterations { o with iterations := count? text }
  | "warmup" => only name o.warmup { o with warmup := count? text }
  | "dir" => only name o.directory { o with directory := some text }
  | "output" => only name o.output { o with output := some text }
  | _ => .error (.unknownOption name)

/-- The options that further arguments add, or nothing when they ask for the help. -/
def take (o : Options) : List Argument → Except UsageError (Option Options)
  | [] => .ok (some o)
  | .flag name :: rest =>
    if name = "help" then .ok none
    else if o.list then .error (.repeatedOption name)
    else take { o with list := true } rest
  | .option name text :: rest => do take (← o.withValue name text) rest
  | .operand text :: _ => .error (.unexpectedOperand text)
  | .bad error :: _ => .error error

end Options

/-- What a run comes to: its exit code, what it prints, the results if it got that far, and the
files as it leaves them. -/
structure Course where
  code : Nat
  writes : List Write
  results : List Result
  files : Files.Tree

/-- The directory of a path. A name alone lies in the directory with the empty name. -/
def parent (path : String) : String :=
  let reversed := path.toList.reverse.dropWhile (· == '/')
  String.ofList ((reversed.dropWhile (· != '/')).dropWhile (· == '/')).reverse

/-- The report that is written. -/
def report (results : List Result) : Json :=
  .object [
    ("benchmarks", .array <| results.map fun r => .object [
      ("expressions", .integer r.expressions),
      ("iterations", .integer r.iterations),
      ("name", .str r.name)]),
    ("spelt_version", .str Shell.version)]

/-- Writes the report and the directories on the way to it. -/
def save (files : Files.Tree) (path : String) (results : List Result) :
    Except String Files.Tree := do
  (files.makeDirectories (parent path)).mapError fun error =>
    "Failed to create " ++ parent path ++ ": " ++ error.message
  (files.write path (report results).text).mapError fun error =>
    "Failed to write " ++ path ++ ": " ++ error.message

def listing (cases : List Case) : List Write :=
  .line "Discovered cases:" :: cases.map fun case =>
    .line ("- " ++ case.name ++ " (" ++ case.expressions.length.repr ++ " expressions)")

/-- Runs what the options ask for. -/
def Options.run (files : Files.Tree) (o : Options) : Course :=
  let (cases, notes) := discover files (o.directory.getD "benchmark/expressions")
  let fail (message : String) : Course := ⟨2, notes ++ [.errorLine message], [], files⟩
  let chosen := select o.names cases
  let warmup := o.warmup.getD 20
  let iterations := o.iterations.getD 200
  let output := o.output.getD "benchmark/results/latest.json"
  if o.list then ⟨0, notes ++ listing cases, [], files⟩
  else if chosen.isEmpty then fail "No matching cases. Use --list to see available."
  else
    match chosen.mapM (Case.measure Engine.core warmup iterations) with
    | .error message => fail message
    | .ok results =>
      match save files output results with
      | .error message => fail message
      | .ok files => ⟨0, notes ++ [.line ("\nSaved results to " ++ output)], results, files⟩

/-- The course of a run with the given arguments. -/
def course (files : Files.Tree) (args : List String) : Course :=
  match Options.take {} (Argument.read Options.specs args) with
  | .error e => ⟨2, [Report.titled "error" e.message], [], files⟩
  | .ok none => ⟨0, [.out Options.usage], [], files⟩
  | .ok (some options) => options.run files

end ExprLang.Workload
