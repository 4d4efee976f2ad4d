/-!
# Terminal styles

Colours and weights around a text, in the escape sequences of terminals. Each style ends with the
sequence that undoes it.
-/

namespace ExprLang.Shell.Style

def escape (code text reset : String) : String :=
  "\x1b[" ++ code ++ "m" ++ text ++ "\x1b[" ++ reset ++ "m"

def red (text : String) : String := escape "31" text "39"
def green (text : String) : String := escape "32" text "39"
def yellow (text : String) : String := escape "33" text "39"
def cyan (text : String) : String := escape "36" text "39"
def grey (text : String) : String := escape "90" text "39"
def blue (text : String) : String := escape "94" text "39"
def bold (text : String) : String := escape "1" text "0"
def dimmed (text : String) : String := escape "2" text "0"

/-- The text with blanks behind it up to a width in characters. -/
def padEnd (width : Nat) (text : String) : String :=
  text ++ String.ofList (List.replicate (width - text.length) ' ')

/-- The text with blanks before it up to a width in characters. -/
def padStart (width : Nat) (text : String) : String :=
  String.ofList (List.replicate (width - text.length) ' ') ++ text

end ExprLang.Shell.Style
