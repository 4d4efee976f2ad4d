import ExprLang.Functions
import ExprLang.Text.Blank
import ExprLang.Text.Case
import ExprLang.Text.Search
import ExprLang.Value.Compare
/-!
# The function library

Numbers, texts, lists, null handling, conversions and maps. Positions in a text count characters.
A body that is given an argument of an unexpected type takes it for a fallback, which is zero or the
empty text, or reports the arguments as unsuitable.
-/

namespace ExprLang.Functions.Library

open Text

/-- A function whose body asks for nothing but its arguments. -/
def simple (name : String) (params : List TypeTag) (body : List Value → Outcome) : Function :=
  ⟨name, .fixed params, fun _ args => body args⟩

/-! ## Arguments -/

/-- What a body takes an argument for that is not there or not of the expected type. -/
structure Fallback where
  text : String
  int : Int
  double : Float

/-- The empty text and zero. -/
def Fallback.blank : Fallback :=
  ⟨"", 0, 0⟩

section

variable (fallback : Fallback) (args : List Value) (i : Nat)

def textArg : String :=
  (args[i]?.bind Value.str?).getD fallback.text

def charsArg : List Char :=
  (textArg fallback args i).toList

def intArg : Int :=
  ((args[i]?.bind Value.long?).map Int64.toInt).getD fallback.int

def doubleArg : Float :=
  (args[i]?.bind Value.double?).getD fallback.double

end

def unsuitable (name : String) (args : List Value) : Outcome :=
  .error (.unsuitableArguments name (args.map Value.tag))

/-- A body that needs a list first. -/
def onList (name : String) (body : List Value → List Value → Value) (args : List Value) :
    Outcome :=
  match args with
  | .list items :: rest => .ok (body items rest)
  | _ => unsuitable name args

/-- A body that needs a map first. -/
def onMap (name : String) (body : Entries Value → List Value → Value) (args : List Value) :
    Outcome :=
  match args with
  | .map entries :: rest => .ok (body entries rest)
  | _ => unsuitable name args

/-- A body that needs any first argument. -/
def onFirst (name : String) (body : Value → Outcome) (args : List Value) : Outcome :=
  match args with
  | first :: _ => body first
  | [] => unsuitable name args

/-! ## Numbers -/

/-- The extreme of `best` and the further values. A later value replaces the best one if the less
operator says so; values without an order count as not less. -/
def extreme (services : Services) (least : Bool) (best : Value) : List Value → Outcome
  | [] => .ok best
  | v :: rest => do
    let less ← services.operate .less v best
    extreme services least (if less.bool? = some least then v else best) rest

/-- The least or the greatest argument. -/
def pick (name : String) (least : Bool) (services : Services) (args : List Value) : Outcome :=
  match args with
  | [] => unsuitable name args
  | first :: rest => extreme services least first rest

/-- All overloads of the least or the greatest argument. -/
def picks (name : String) (least : Bool) : List Function :=
  ([.int, .long, .double, .string].map fun tag =>
    ⟨name, .fixed [tag, tag], pick name least⟩) ++
  [⟨name, .atLeast [.number] .number, pick name least⟩]

/-- The power, if it fits the wide integers. Powers of 0, 1 and -1 depend on the parity of the
exponent only, and no other number has a power beyond the 63rd that fits. -/
def power? (base : Int) (exponent : Nat) : Option Int64 :=
  if base.natAbs ≤ 1 then
    int64? (Int.pow base (if exponent < 2 then exponent else 2 + exponent % 2))
  else if 63 < exponent then none
  else int64? (Int.pow base exponent)

/-- Exact for exponents that are natural numbers of 32 bits, and a double for all others. -/
def power (fallback : Fallback) (args : List Value) : Outcome :=
  let base := intArg fallback args 0
  let exponent := intArg fallback args 1
  if 0 ≤ exponent ∧ exponent < UInt32.size then
    match power? base exponent.toNat with
    | some n => .ok (.integer n)
    | none => .error (.powOverflow (Int64.ofInt base) (Int64.ofInt exponent))
  else .ok (.double (Float.pow (Int64.ofInt base).toFloat (Int64.ofInt exponent).toFloat))

def magnitude (fallback : Fallback) (args : List Value) : Outcome :=
  match int64? (intArg fallback args 0).natAbs with
  | some n => .ok (.long n)
  | none => .error .absOverflow

/-- A function of one double. -/
def onDouble (fallback : Fallback) (name : String) (f : Float → Float) : Function :=
  simple name [.double] fun args => .ok (.double (f (doubleArg fallback args 0)))

def numbers (fallback : Fallback) : List Function := [
  simple "abs" [.int] fun args =>
    .ok (.integer (Int64.ofInt (intArg fallback args 0).natAbs)),
  simple "abs" [.long] (magnitude fallback),
  onDouble fallback "abs" Float.abs,
  simple "pow" [.long, .long] (power fallback),
  simple "pow" [.double, .double] fun args =>
    .ok (.double (Float.pow (doubleArg fallback args 0) (doubleArg fallback args 1))),
  onDouble fallback "sqrt" Float.sqrt,
  onDouble fallback "floor" Float.floor,
  onDouble fallback "ceil" Float.ceil,
  onDouble fallback "round" Float.round]

/-! ## Texts and collections -/

/-- A function of texts with a text as its result. -/
def onText (name : String) (params : List TypeTag) (f : List Value → List Char) : Function :=
  simple name params fun args => .ok (.str (String.ofList (f args)))

/-- A condition on two texts. -/
def onTexts (fallback : Fallback) (name : String) (p : List Char → List Char → Bool) : Function :=
  simple name [.string, .string] fun args =>
    .ok (.bool (p (charsArg fallback args 0) (charsArg fallback args 1)))

/-- A position in the text, negative ones taken for the start and later ones for the end. -/
def clamp (cs : List Char) (n : Int) : Nat :=
  min n.toNat cs.length

def slice (cs : List Char) (start stop : Nat) : List Char :=
  (cs.drop start).take (stop - start)

/-- The pieces of a text between separators. An empty separator gives single characters. -/
def pieces (sep cs : List Char) : List (List Char) :=
  if sep.isEmpty then cs.map fun c => [c] else splitAt sep cs

def ofPieces (parts : List (List Char)) : Value :=
  .list (parts.map fun part => .str (String.ofList part))

def isEmptyValue : Value → Bool
  | .null => true
  | .str s => s.isEmpty
  | .list items => items.isEmpty
  | .map entries => entries.isEmpty
  | _ => false

/-- Whether the first argument, a list, has a member equal to the second one. -/
def hasMember (args : List Value) : Outcome :=
  match args with
  | .list items :: wanted :: _ => .ok (.bool (items.any fun item => item.equals wanted))
  | _ => unsuitable "contains" args

def texts (fallback : Fallback) : List Function := [
  simple "len" [.string] fun args => .ok (.ofLength (charsArg fallback args 0).length),
  simple "len" [.list] (onList "len" fun items _ => .ofLength items.length),
  simple "len" [.map] (onMap "len" fun entries _ => .ofLength entries.length),
  simple "upper" [.string] fun args => .ok (.str (upperCase (textArg fallback args 0))),
  simple "lower" [.string] fun args => .ok (.str (lowerCase (textArg fallback args 0))),
  onText "trim" [.string] fun args => trim (charsArg fallback args 0),
  ⟨"concat", .atLeast [] .any, fun _ args => .ok (.str (String.join (args.map Value.text)))⟩,
  onTexts fallback "contains" fun cs part => occursIn part cs,
  simple "contains" [.list, .any] hasMember,
  simple "contains" [.map, .string]
    (onMap "contains" fun entries rest => .bool (entries.contains (textArg fallback rest 0))),
  onTexts fallback "startsWith" fun cs part => part.isPrefixOf cs,
  onTexts fallback "endsWith" fun cs part => part.isSuffixOf cs,
  onText "substring" [.string, .int] fun args =>
    let cs := charsArg fallback args 0
    cs.drop (clamp cs (intArg fallback args 1)),
  onText "substring" [.string, .int, .int] fun args =>
    let cs := charsArg fallback args 0
    slice cs (clamp cs (intArg fallback args 1)) (clamp cs (intArg fallback args 2)),
  onText "replace" [.string, .string, .string] fun args =>
    replaceAll (charsArg fallback args 1) (charsArg fallback args 2) (charsArg fallback args 0),
  simple "split" [.string, .string] fun args =>
    .ok (ofPieces (pieces (charsArg fallback args 1) (charsArg fallback args 0))),
  simple "join" [.list, .string]
    (onList "join" fun items rest =>
      .str ((textArg fallback rest 0).intercalate (items.map Value.text)))]

/-! ## Null handling and conversions -/

/-- The first argument that is not null, if there is one. -/
def coalesce (args : List Value) : Value :=
  (args.find? fun v => !v.isNull).getD .null

/-- Null, lists and maps have no converter to texts. -/
def written (services : Services) (v : Value) : Outcome :=
  match v with
  | .null | .list _ | .map _ => .ok (.str v.text)
  | _ => services.convert v .string

def converting (name : String) (target : TypeTag) : Function :=
  ⟨name, .fixed [.any], fun services args =>
    match args with
    | v :: _ => services.convert v target
    | [] => .error (.nothingToConvert target)⟩

def general : List Function := [
  simple "isNull" [.any] (onFirst "isNull" fun v => .ok (.bool v.isNull)),
  simple "isEmpty" [.any] (onFirst "isEmpty" fun v => .ok (.bool (isEmptyValue v))),
  ⟨"coalesce", .atLeast [] .any, fun _ args => .ok (coalesce args)⟩,
  ⟨"str", .fixed [.any], fun services => onFirst "str" (written services)⟩,
  converting "int" .int,
  converting "long" .long,
  converting "double" .double,
  converting "bool" .bool,
  converting "char" .char,
  simple "keys" [.map] (onMap "keys" fun entries _ => .list (entries.keys.map .str)),
  simple "values" [.map] (onMap "values" fun entries _ => .list entries.values)]

/-- All functions over a fallback, in the order in which they are added. -/
def withFallback (fallback : Fallback) : List Function :=
  picks "min" true ++ picks "max" false ++ numbers fallback ++ texts fallback ++ general

/-- All functions. -/
def all : List Function :=
  withFallback .blank

end ExprLang.Functions.Library

namespace ExprLang

/-- The functions of the library. -/
def Functions.core : Functions :=
  ofList Functions.Library.all

end ExprLang
