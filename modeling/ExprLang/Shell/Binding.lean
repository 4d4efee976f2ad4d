import ExprLang.Json.Reader
import ExprLang.Json.Value
import ExprLang.Text.Blank
import ExprLang.Text.Search
/-!
# Bindings

Variables given as texts of the form `name=value`. The value is read as JSON where it is JSON, and
as a string otherwise.
-/

namespace ExprLang.Shell

structure Binding where
  name : String
  value : Value

inductive BindingError where
  | noEquals (text : String)
  | noName (text : String)
  deriving DecidableEq, Repr

def BindingError.message : BindingError → String
  | noEquals text => "Expected name=value, got '" ++ text ++ "'"
  | noName text => "Missing variable name in '" ++ text ++ "'"

/-- The value that the right side of a binding stands for. -/
def Binding.readValue (text : String) : Value :=
  match Json.read text with
  | .ok json => json.toValue
  | .error _ => .str text

def Binding.parse (text : String) : Except BindingError Binding :=
  match Text.cutAt? ['='] text.toList with
  | none => .error (.noEquals text)
  | some (name, value) =>
    let name := Text.trim name
    if name.isEmpty then .error (.noName text)
    else .ok ⟨String.ofList name, readValue (String.ofList value)⟩

end ExprLang.Shell
