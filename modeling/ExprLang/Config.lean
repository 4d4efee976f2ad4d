import ExprLang.Json.Reader
import ExprLang.Text.Blank
/-!
# Configuration

Two switches, read from JSON and overridden by the environment. The JSON is an object with the
names of the switches, or an array of their values; what is absent is off.
-/

namespace ExprLang

structure Config where
  strict : Bool := false
  template : Bool := false
  deriving DecidableEq, Repr

namespace Config

open Json.Reader

inductive Switch where
  | strict
  | template
  deriving DecidableEq, Repr

namespace Switch

def name : Switch → String
  | strict => "strict"
  | template => "template"

/-- The environment variable that overrides the switch. -/
def environmentName : Switch → String
  | strict => "SPELT_STRICT"
  | template => "SPELT_TEMPLATE"

def ofName? (text : String) : Option Switch :=
  [strict, template].find? fun switch => switch.name == text

end Switch

def set (c : Config) (switch : Switch) (on : Bool) : Config :=
  match switch with
  | .strict => { c with strict := on }
  | .template => { c with template := on }

/-- A value where the description `wanted` was expected. Scalars are read to the end first. -/
def mismatch {α : Type} (wanted : String) : Json.Reader α := do
  let found ← match ← peek? with
    | some '[' => pure "sequence"
    | some '\x7b' => pure "map"
    | _ => describeScalar
  failHere (.unsuitable found wanted)

def readSwitch : Json.Reader Bool := do
  skipBlank
  match ← peek? with
  | none => failNext .endInValue
  | some 't' => word "true" true
  | some 'f' => word "false" false
  | some _ => mismatch "a boolean"

/-- The values of the switches in their order, as far as there are any. -/
def readItems : Json.Reader Config := do
  if !(← anotherItem true) then return {}
  let strict ← readSwitch
  if !(← anotherItem false) then return { strict := strict }
  let template ← readSwitch
  return { strict := strict, template := template }

/-- The members of an object, of which `seen` have been read. Each may come once only. -/
def readMembers : Nat → List Switch → Config → Json.Reader Config
  | 0, _, config => return config
  | rounds + 1, seen, config => do
    if !(← anotherMember seen.isEmpty) then return config
    let key ← text
    match Switch.ofName? key with
    | none => failLater (.unknownField key)
    | some switch =>
      if seen.contains switch then failLater (.duplicateField switch.name)
      else
        colon
        let on ← readSwitch
        readMembers rounds (switch :: seen) (config.set switch on)

def read : Json.Reader Config := do
  skipBlank
  match ← peek? with
  | none => failNext .endInValue
  | some '[' =>
    skip
    finishing endItems readItems
  | some '\x7b' =>
    skip
    finishing endMembers (readMembers 3 [] {})
  | some _ => mismatch "struct EngineConfig"

/-- The configuration that a JSON text describes. -/
def ofJson (text : String) : Except Json.Error Config :=
  Json.Reader.readAll read text

/-- What the text of an environment variable switches, in letters of any case. -/
def flag? (text : String) : Option Bool :=
  let word := String.ofList ((Text.trim text.toList).map Char.toLower)
  if ["1", "true", "yes", "on"].contains word then some true
  else if ["0", "false", "no", "off"].contains word then some false
  else none

def override (lookup : String → Option String) (c : Config) (switch : Switch) : Config :=
  match (lookup switch.environmentName).bind flag? with
  | some on => c.set switch on
  | none => c

/-- The configuration with the overrides that `lookup` finds in the environment. -/
def withOverrides (lookup : String → Option String) (c : Config) : Config :=
  [Switch.strict, .template].foldl (override lookup) c

end Config

end ExprLang
