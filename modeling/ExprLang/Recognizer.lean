import ExprLang.Entries
import ExprLang.Ranked
import ExprLang.Source
import ExprLang.Text.Word
import ExprLang.Token.Kind
/-!
# Recognizers

A recognizer gives kinds to fragments. A chain of recognizers asks its members in the order of
their priorities, lower numbers first and equal ones in the order of their arrival, and takes the
first answer.
-/

namespace ExprLang

structure Recognizer where
  priority : Int
  recognize : Fragment → Option TokenKind
  /-- the spellings that have to be cut as one fragment -/
  symbols : List String

namespace Recognizer

open Text

def keywordPriority : Int := 50
def literalPriority : Int := 100
def basicPriority : Int := 200
def identifierPriority : Int := 1000

/-- Texts, known by the quote in front. -/
def string : Recognizer where
  priority := literalPriority
  recognize fragment :=
    match fragment.text.toList with
    | c :: _ => if c = '\'' || c = '"' then some BasicKind.string else none
    | [] => none
  symbols := []

/-- Numbers, known by the digit in front. -/
def number : Recognizer where
  priority := literalPriority
  recognize fragment :=
    match fragment.text.toList with
    | c :: _ => if c.isDigit then some BasicKind.number else none
    | [] => none
  symbols := []

/-- All words. -/
def identifier : Recognizer where
  priority := identifierPriority
  recognize fragment := if isWord fragment.text then some BasicKind.identifier else none
  symbols := []

/-- The spellings of a table. Those that are no words are symbols. -/
def ofTable (priority : Int) (table : Entries TokenKind) : Recognizer where
  priority := priority
  recognize fragment := table.get? fragment.text
  symbols := table.keys.filter fun spelling => !isWord spelling

/-- The spellings of the basic kinds. -/
def basic (priority : Int) : Recognizer :=
  ofTable priority <| Entries.ofList <|
    BasicKind.all.flatMap fun kind => kind.spellings.map fun spelling => (spelling, .basic kind)

/-- The keywords of the template grammar. -/
def template (priority : Int) : Recognizer :=
  ofTable priority <| Entries.ofList <|
    TemplateKind.all.flatMap fun kind =>
      kind.spellings.map fun spelling => (spelling, .template kind)

/-- The recognizers of the core grammar. -/
def core : List Recognizer :=
  [string, number, basic basicPriority, identifier]

/-- Whether `a` is asked before or along with `b`. -/
def notAfter (a b : Recognizer) : Bool :=
  a.priority ≤ b.priority

end Recognizer

/-- Recognizers in the order in which they are asked. -/
structure Chain where
  members : List Recognizer

namespace Chain

def empty : Chain :=
  ⟨[]⟩

def insert (recognizer : Recognizer) (chain : Chain) : Chain :=
  ⟨Ranked.insert Recognizer.notAfter recognizer chain.members⟩

def ofList (recognizers : List Recognizer) : Chain :=
  ⟨Ranked.ofList Recognizer.notAfter recognizers⟩

def recognize (chain : Chain) (fragment : Fragment) : Option TokenKind :=
  chain.members.findSome? fun member => member.recognize fragment

def priorities (chain : Chain) : List Int :=
  chain.members.map Recognizer.priority

/-- A chain has the priority of its first member. -/
def priority (chain : Chain) : Int :=
  chain.priorities.headD 0

/-- All symbols of the members in ascending order, each once. -/
def symbols (chain : Chain) : List String :=
  Entries.keys <| Entries.ofList <|
    (chain.members.flatMap Recognizer.symbols).map fun symbol => (symbol, ())

/-- A chain as one member of a further chain. -/
def toRecognizer (chain : Chain) : Recognizer where
  priority := chain.priority
  recognize := chain.recognize
  symbols := chain.symbols

end Chain

end ExprLang
