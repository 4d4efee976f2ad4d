import ExprLang.Shell.Command
/-!
# The program

Reads what the command line needs, and prints what it decides.
-/

open ExprLang ExprLang.Shell

namespace ExprLang.Shell

def fileError (e : IO.Error) : FileError :=
  match e with
  | .noFileOrDirectory _ _ _ => .missing
  | .inappropriateType _ 21 _ => .isDirectory
  | .inappropriateType _ 20 _ => .notDirectory
  | e => .other (toString e)

def readText (path : String) : IO (Except FileError String) := do
  match ← (IO.FS.readBinFile path).toBaseIO with
  | .error e => return .error (fileError e)
  | .ok bytes =>
    match String.fromUTF8? bytes with
    | some text => return .ok text
    | none => return .error .notText

/-- Reads the files that the arguments name and the variables that override the configuration. -/
def surroundings (args : List String) : IO Surroundings := do
  let paths := match Request.parse args with
    | .ok (.run o) => [o.config, o.variableFile, o.file].filterMap id
    | _ => []
  let files ← paths.mapM fun path => return (path, ← readText path)
  let names := [Config.Switch.strict, .template].map Config.Switch.environmentName
  let settings ← names.mapM fun name => return (name, ← IO.getEnv name)
  return {
    environment := fun name => (settings.lookup name).join
    read := fun path => (files.lookup path).getD (.error .missing) }

def print (write : Write) : IO Unit := do
  match write with
  | .out text => IO.print text
  | .err text => IO.eprint text
  (← IO.getStdout).flush

/-- Reads bytes up to and with a line feed. -/
partial def readLine (stream : IO.FS.Stream) (line : ByteArray) : IO ByteArray := do
  let byte ← stream.read 1
  if byte.isEmpty then return line
  else if byte[0]? = some 10 then return line ++ byte
  else readLine stream (line ++ byte)

/-- Lets a session read lines until it is over. -/
partial def interact (stream : IO.FS.Stream) (session : Session) : IO Unit := do
  print session.prompt
  let bytes ← readLine stream .empty
  if bytes.isEmpty then print Session.farewell
  else
    match String.fromUTF8? bytes with
    | none => print (.line "<input error>")
    | some line =>
      let next := session.step line
      next.writes.forM print
      unless next.isOver do interact stream next.session

end ExprLang.Shell

def main (args : List String) : IO UInt32 := do
  match course (← surroundings args) args with
  | .finished code writes =>
    writes.forM print
    return code.toUInt32
  | .interactive session =>
    print Session.banner
    interact (← IO.getStdin) session
    return 0
