import ExprLang.Engine
import ExprLang.Shell.Report
/-!
# Interactive sessions

A session reads lines. A line with a colon in front is a command; other lines are collected until
their parentheses and brackets balance, and are then evaluated together.
-/

namespace ExprLang.Shell

structure Session where
  engine : Engine
  context : Context
  /-- the lines of an input that is not complete yet -/
  buffer : String

/-- What a line leads to. -/
structure Step where
  session : Session
  writes : List Write
  isOver : Bool

namespace Session

open Style

def start (engine : Engine) (context : Context) : Session :=
  ⟨engine, context, ""⟩

def banner : Write :=
  .line (green (bold "Spelt REPL. Type :help for help, :quit to exit."))

/-- What is printed before a line is read. -/
def prompt (s : Session) : Write :=
  .out (cyan (if s.buffer.isEmpty then "spelt> " else "...  > "))

/-- What is printed when there are no more lines. -/
def farewell : Write :=
  .line "\nGoodbye."

/-- How much deeper or less deep a token makes the nesting. -/
def nesting (t : Token) : Int :=
  if t.kind = BasicKind.lparen || t.kind = BasicKind.lbracket then 1
  else if t.kind = BasicKind.rparen || t.kind = BasicKind.rbracket then -1
  else 0

/-- How much deeper the nesting is behind the tokens than before them. -/
def depth (tokens : List Token) : Int :=
  tokens.foldr (fun t depth => nesting t + depth) 0

/-- Whether an input can be evaluated: it has tokens, and no more opening than closing ones. -/
def isComplete (engine : Engine) (input : String) : Bool :=
  match engine.lexer.tokens input with
  | .ok tokens => depth tokens ≤ 0
  | .error _ => false

def commands : List (String × String) := [
  (":help", "Show this help"),
  (":quit", "Exit the REPL"),
  (":vars", "List variables"),
  (":let name = expr", "Evaluate expr and bind it to name"),
  (":tokens expr", "Show the tokens of expr"),
  (":ast expr", "Show the parsed tree of expr"),
  (":strict", "Toggle strict name resolution"),
  (":reset", "Clear all variables")]

def help : List Write :=
  [.line (bold "Commands:")] ++
  commands.map (fun (command, text) => .line ("  " ++ yellow (padEnd 18 command) ++ " " ++ text)) ++
  [.line "Anything else is evaluated. Unbalanced brackets continue on the next line."]

/-- A variable and its value. -/
def assignment (name : String) (value : Value) : Write :=
  .line (yellow name ++ " = " ++ blue value.text)

def listVariables (context : Context) : List Write :=
  match context.visible with
  | [] => [.line (dimmed "<no vars>")]
  | bindings => bindings.map fun (name, value) => assignment name value

def listTokens (engine : Engine) (source : String) : List Write :=
  match engine.lexer.tokens source with
  | .ok tokens =>
    (tokens.filter fun t => !t.isEof).map fun t =>
      .line ("  " ++ yellow (padEnd 14 t.kind.describe) ++ " " ++ t.text)
  | .error e => Report.error source e

def showTree (engine : Engine) (source : String) : List Write :=
  match engine.compile source with
  | .ok expression => [.line (blue expression.node.text)]
  | .error e => Report.error source e

/-- Evaluates the right side of an assignment and declares the name on its left. -/
def bind (s : Session) (text : String) : Step :=
  match Text.cutAt? ['='] text.toList with
  | none => ⟨s, [.line (red "Usage: :let name = expr")], false⟩
  | some (name, source) =>
    let name := String.ofList (Text.trim name)
    let source := String.ofList (Text.trim source)
    match s.engine.eval source s.context with
    | (.ok value, context) =>
      ⟨{ s with context := context.declare name value }, [assignment name value], false⟩
    | (.error e, context) => ⟨{ s with context := context }, Report.error source e, false⟩

/-- A line that leaves the session as it is. -/
def still (s : Session) (writes : List Write) : Step :=
  ⟨s, writes, false⟩

/-- Carries out a command. -/
def command (s : Session) (name rest : String) : Step :=
  if name = ":quit" || name = ":q" || name = ":exit" then ⟨s, [.line "Goodbye."], true⟩
  else if name = ":help" || name = ":h" then s.still help
  else if name = ":vars" then s.still (listVariables s.context)
  else if name = ":reset" then
    ⟨{ s with context := s.engine.context }, [.line (yellow "Variables cleared.")], false⟩
  else if name = ":strict" then
    let strict := !s.context.strict
    ⟨{ s with context := s.context.setStrict strict },
      [.line ("strict mode " ++ if strict then "on" else "off")], false⟩
  else if name = ":tokens" then s.still (listTokens s.engine rest)
  else if name = ":ast" then s.still (showTree s.engine rest)
  else if name = ":let" then s.bind rest
  else s.still [.line (red "Unknown command. Type :help.")]

/-- Evaluates an input and starts a new one. -/
def evaluate (s : Session) (input : String) : Step :=
  let source := Text.trimmedEnd input
  match s.engine.eval source s.context with
  | (.ok value, context) => ⟨⟨s.engine, context, ""⟩, [.line (blue value.text)], false⟩
  | (.error e, context) => ⟨⟨s.engine, context, ""⟩, Report.error source e, false⟩

/-- Takes a line with its line feed. -/
def step (s : Session) (line : String) : Step :=
  let trimmed := Text.trim line.toList
  if s.buffer.isEmpty && trimmed.head? = some ':' then
    match Text.cutAt? [' '] trimmed with
    | some (name, rest) => s.command (String.ofList name) (String.ofList rest)
    | none => s.command (String.ofList trimmed) ""
  else if s.buffer.isEmpty && trimmed.isEmpty then s.still []
  else
    let input := s.buffer ++ line
    if isComplete s.engine input then s.evaluate input
    else ⟨{ s with buffer := input }, [], false⟩

/-- Everything that a session prints for the given lines. A line that is no text ends it. -/
def run (s : Session) : List (Option String) → List Write
  | [] => [s.prompt, farewell]
  | none :: _ => [s.prompt, .line "<input error>"]
  | some line :: rest =>
    let next := s.step line
    s.prompt :: next.writes ++ if next.isOver then [] else next.session.run rest

/-- The lines of an input, each with its line feed. Bytes that are no text make no line. -/
def linesOf (input : List UInt8) : List (Option String) :=
  (cut input).map fun bytes => String.fromUTF8? ⟨bytes.toArray⟩
where
  /-- Cuts behind every line feed. -/
  cut : List UInt8 → List (List UInt8)
    | [] => []
    | b :: rest =>
      if b = 10 then [b] :: cut rest
      else
        match cut rest with
        | [] => [[b]]
        | first :: others => (b :: first) :: others

end Session

end ExprLang.Shell
