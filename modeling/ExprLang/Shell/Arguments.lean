import ExprLang.Text.Search
/-!
# Command line arguments

Arguments are flags, options with a value, and operands. A value may be attached to its option with
an equals sign, or directly behind a single letter; otherwise it is the next argument, which must
not look like an option. Behind two dashes everything is an operand.
-/

namespace ExprLang.Shell

/-- How an option is used. -/
inductive Usage where
  /-- without a value -/
  | flag
  /-- with one value, once at most -/
  | single
  /-- with one value, any number of times -/
  | repeated
  deriving DecidableEq, Repr

/-- An option with its long name, its letter if it has one, and the values that it takes. -/
structure OptionSpec where
  long : String
  short : Option Char
  usage : Usage
  admits : String → Bool

def OptionSpec.takesValue (s : OptionSpec) : Bool :=
  s.usage != .flag

inductive UsageError where
  | unknownOption (text : String)
  | missingValue (option : String)
  | unexpectedValue (option value : String)
  | invalidValue (option value : String)
  | repeatedOption (option : String)
  | unexpectedOperand (text : String)
  | conflict (first second : String)
  deriving DecidableEq, Repr

def UsageError.message : UsageError → String
  | unknownOption text => "unexpected argument '" ++ text ++ "'"
  | missingValue option => "a value is required for '--" ++ option ++ "'"
  | unexpectedValue option value =>
    "unexpected value '" ++ value ++ "' for '--" ++ option ++ "'"
  | invalidValue option value => "invalid value '" ++ value ++ "' for '--" ++ option ++ "'"
  | repeatedOption option => "the argument '--" ++ option ++ "' cannot be used multiple times"
  | unexpectedOperand text => "unexpected argument '" ++ text ++ "'"
  | conflict first second =>
    "the argument '" ++ first ++ "' cannot be used with '" ++ second ++ "'"

/-- One argument that has been understood, or what is wrong with the next one. -/
inductive Argument where
  | flag (name : String)
  | option (name text : String)
  | operand (text : String)
  | bad (error : UsageError)
  deriving DecidableEq, Repr

namespace Argument

/-- The value of an option, if it admits the value. -/
def ofValue (s : OptionSpec) (text : String) : Argument :=
  if s.admits text then option s.long text else bad (.invalidValue s.long text)

/-- What the letters behind a single dash mean, and the option that still needs a value. -/
def ofLetters (specs : List OptionSpec) : List Char → List Argument × Option OptionSpec
  | [] => ([], none)
  | c :: rest =>
    match specs.find? fun s => s.short = some c with
    | none => ([bad (.unknownOption (String.ofList ['-', c]))], none)
    | some s =>
      if s.takesValue then
        match rest with
        | [] => ([], some s)
        | '=' :: text => ([ofValue s (String.ofList text)], none)
        | text => ([ofValue s (String.ofList text)], none)
      else
        let (others, pending) := ofLetters specs rest
        (flag s.long :: others, pending)

/-- What the text behind two dashes means, and the option that still needs a value. -/
def ofLong (specs : List OptionSpec) (text : List Char) : List Argument × Option OptionSpec :=
  let (name, attached) := match Text.cutAt? ['='] text with
    | some (name, value) => (String.ofList name, some (String.ofList value))
    | none => (String.ofList text, none)
  match specs.find? fun s => s.long = name, attached with
  | none, _ => ([bad (.unknownOption ("--" ++ name))], none)
  | some s, some value =>
    if s.takesValue then ([ofValue s value], none)
    else ([bad (.unexpectedValue s.long value)], none)
  | some s, none => if s.takesValue then ([], some s) else ([flag s.long], none)

/-- The meaning of the arguments from left to right. `pending` is an option that waits for its
value. -/
def readFrom (specs : List OptionSpec) (pending : Option OptionSpec) :
    List String → List Argument
  | [] => (pending.map fun s => bad (.missingValue s.long)).toList
  | text :: rest =>
    let options (read : List Argument × Option OptionSpec) : List Argument :=
      match pending with
      | some s => [bad (.missingValue s.long)]
      | none => read.1 ++ readFrom specs read.2 rest
    match text.toList with
    | ['-', '-'] =>
      match pending with
      | some s => [bad (.missingValue s.long)]
      | none => rest.map operand
    | '-' :: '-' :: name => options (ofLong specs name)
    | '-' :: c :: letters => options (ofLetters specs (c :: letters))
    | _ =>
      match pending with
      | some s => ofValue s text :: readFrom specs none rest
      | none => operand text :: readFrom specs none rest

def read (specs : List OptionSpec) (args : List String) : List Argument :=
  readFrom specs none args

end Argument

end ExprLang.Shell
