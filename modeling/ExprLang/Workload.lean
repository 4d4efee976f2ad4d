import ExprLang.Engine
import ExprLang.Shell.Files
import ExprLang.Shell.Report
import ExprLang.Text.Case
/-!
# Workloads

Named cases of expressions, which are run again and again over the same variables. A directory gives
one case for each of its files with the extension `el`, one expression a line; without any such file
there are three standard cases.
-/

namespace ExprLang.Workload

open Shell

structure Case where
  name : String
  expressions : List String
  deriving DecidableEq, Repr

/-- The expressions of a text: its lines without blank ones and comments. -/
def expressionsOf (text : String) : List String :=
  (((Text.lines text.toList).map Text.trim).filter fun line =>
    !line.isEmpty && line.head? != some '#').map String.ofList

/-- The cases that are run when a directory has none. -/
def standardCases : List Case := [
  ⟨"literals", ["42", "3.5D", "'text'", "true", "null", "[1, 2, 3]"]⟩,
  ⟨"operators", ["1 + 2 * 3", "(price * qty) % 7", "price > qty and not user.banned"]⟩,
  ⟨"calls", ["max(1, 5, 3)", "upper(user.name)", "join(items, ',')"]⟩]

/-- The name of the case in a file, if the file has the extension of cases. -/
def caseName? (file : String) : Option String :=
  let reversed := file.toList.reverse
  match Text.cutAt? ['.'] reversed with
  | some (['l', 'e'], name) => if name.isEmpty then none else some (String.ofList name.reverse)
  | _ => none

/-- The path of a file in a directory. -/
def joined (directory file : String) : String :=
  if Files.namesDirectory directory then directory ++ file else directory ++ "/" ++ file

/-- The case in a file, or a note on why it is skipped. -/
def readCase? (tree : Files.Tree) (directory file : String) : Option (Except Write Case) :=
  (caseName? file).map fun name =>
    let path := joined directory file
    match tree.read path with
    | .ok text => .ok ⟨name, expressionsOf text⟩
    | .error error => .error (.errorLine ("skipping " ++ path ++ ": " ++ error.message))

/-- The cases of a directory in the order of their names, and notes on what was skipped. -/
def discover (tree : Files.Tree) (directory : String) : List Case × List Write :=
  let read := ((tree.list directory).getD []).filterMap (readCase? tree directory)
  let cases := read.filterMap fun r =>
    match r with
    | .ok case => some case
    | .error _ => none
  let notes := read.filterMap fun r =>
    match r with
    | .ok _ => none
    | .error note => some note
  let cases := if cases.isEmpty then standardCases else cases
  (cases.mergeSort fun a b => a.name ≤ b.name, notes)

/-- The cases with one of the names, in letters of any case. Without names all are wanted. -/
def select (names : List String) (cases : List Case) : List Case :=
  if names.isEmpty then cases
  else cases.filter fun case =>
    (names.map Text.lowerCase).contains (Text.lowerCase case.name)

/-- The variables that every run starts with. -/
def bindings : List (String × Value) :=
  let strings (items : List String) : Value := .list (items.map .str)
  [("user", .map (Entries.ofList [
      ("name", .str "Ada"),
      ("email", .str "ada@example.org"),
      ("age", .int 36),
      ("banned", .bool false),
      ("roles", strings ["admin", "dev"])])),
    ("items", strings ["alpha", "beta", "gamma"]),
    ("price", .int 12),
    ("qty", .int 3)]

/-- Evaluates expressions one after the other in one context. -/
def runAll (engine : Engine) (context : Context) : List String → Except Error Unit
  | [] => .ok ()
  | source :: rest =>
    match engine.eval source context with
    | (.ok _, context) => runAll engine context rest
    | (.error e, _) => .error e

/-- One run of a case. All runs are alike, because each starts with the same variables. -/
def Case.run (engine : Engine) (case : Case) : Except Error Unit :=
  runAll engine (engine.context.declareAll bindings) case.expressions

/-- What is reported of a case that has been run. -/
structure Result where
  name : String
  expressions : Nat
  iterations : Nat
  deriving DecidableEq, Repr

/-- The result of running a case `warmup` and `iterations` times, or the message of its first
error. -/
def Case.measure (engine : Engine) (warmup iterations : Nat) (case : Case) :
    Except String Result :=
  let result : Result := ⟨case.name, case.expressions.length, iterations⟩
  if warmup + iterations = 0 then .ok result
  else
    match case.run engine with
    | .ok () => .ok result
    | .error e => .error (case.name ++ ": " ++ e.text ++ " (" ++ e.kind.label ++ ")")

end ExprLang.Workload
