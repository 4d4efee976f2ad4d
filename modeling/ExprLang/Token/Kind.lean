import ExprLang.Text.Quoted
/-!
# Kinds of tokens

The kinds of the basic grammar, the keywords of the template grammar, and kinds that further
grammars declare by name. Most basic and all template kinds have spellings: the texts that are
always tokens of this kind.
-/

namespace ExprLang

/-- Kinds of the basic grammar. -/
inductive BasicKind where
  | identifier | number | string | raw | eof
  | lparen | rparen | lbracket | rbracket | lbrace | rbrace
  | comma | dot | colon | question | semicolon
  | plus | minus | star | slash | percent | increment | decrement
  | eqEq | notEq | less | lessEq | greater | greaterEq
  | andAnd | orOr | bang | assign
  | trueWord | falseWord | nullWord | asWord
  deriving DecidableEq, Repr

namespace BasicKind

def all : List BasicKind := [
  identifier, number, string, raw, eof, lparen, rparen, lbracket, rbracket, lbrace, rbrace,
  comma, dot, colon, question, semicolon, plus, minus, star, slash, percent, increment,
  decrement, eqEq, notEq, less, lessEq, greater, greaterEq, andAnd, orOr, bang, assign,
  trueWord, falseWord, nullWord, asWord]

theorem mem_all (k : BasicKind) : k ∈ all := by cases k <;> decide

/-- The texts that spell the kind. Identifiers, numbers, strings, raw text and the end of input are
known by their shape and have none. -/
def spellings : BasicKind → List String
  | identifier | number | string | raw | eof => []
  | lparen => ["("]
  | rparen => [")"]
  | lbracket => ["["]
  | rbracket => ["]"]
  | lbrace => ["\x7b"]
  | rbrace => ["\x7d"]
  | comma => [","]
  | dot => ["."]
  | colon => [":"]
  | question => ["?"]
  | semicolon => [";"]
  | plus => ["+"]
  | minus => ["-"]
  | star => ["*"]
  | slash => ["/", "div"]
  | percent => ["%", "mod"]
  | increment => ["++"]
  | decrement => ["--"]
  | eqEq => ["==", "eq"]
  | notEq => ["!=", "ne"]
  | less => ["<", "lt"]
  | lessEq => ["<=", "le"]
  | greater => [">", "gt"]
  | greaterEq => [">=", "ge"]
  | andAnd => ["&&", "and", "AND"]
  | orOr => ["||", "or", "OR"]
  | bang => ["!", "not", "NOT"]
  | assign => ["="]
  | trueWord => ["true"]
  | falseWord => ["false"]
  | nullWord => ["null"]
  | asWord => ["as"]

/-- The name under which listings and hosts know the kind. -/
def name : BasicKind → String
  | identifier => "Identifier"
  | number => "Number"
  | string => "String"
  | raw => "Raw"
  | eof => "Eof"
  | lparen => "LParen"
  | rparen => "RParen"
  | lbracket => "LBracket"
  | rbracket => "RBracket"
  | lbrace => "LBrace"
  | rbrace => "RBrace"
  | comma => "Comma"
  | dot => "Dot"
  | colon => "Colon"
  | question => "Question"
  | semicolon => "Semicolon"
  | plus => "Plus"
  | minus => "Minus"
  | star => "Star"
  | slash => "Slash"
  | percent => "Percent"
  | increment => "Increment"
  | decrement => "Decrement"
  | eqEq => "EqEq"
  | notEq => "NotEq"
  | less => "Less"
  | lessEq => "LessEq"
  | greater => "Greater"
  | greaterEq => "GreaterEq"
  | andAnd => "AndAnd"
  | orOr => "OrOr"
  | bang => "Bang"
  | assign => "Assign"
  | trueWord => "True"
  | falseWord => "False"
  | nullWord => "Null"
  | asWord => "As"

def ofName? (text : String) : Option BasicKind :=
  all.find? fun k => k.name == text

end BasicKind

/-- Keywords of the template grammar. -/
inductive TemplateKind where
  | forWord | inWord | ifWord | elseWord | endWord
  deriving DecidableEq, Repr

namespace TemplateKind

def all : List TemplateKind := [forWord, inWord, ifWord, elseWord, endWord]

theorem mem_all (k : TemplateKind) : k ∈ all := by cases k <;> decide

def spellings : TemplateKind → List String
  | forWord => ["for"]
  | inWord => ["in"]
  | ifWord => ["if"]
  | elseWord => ["else"]
  | endWord => ["end"]

def name : TemplateKind → String
  | forWord => "For"
  | inWord => "In"
  | ifWord => "If"
  | elseWord => "Else"
  | endWord => "End"

def ofName? (text : String) : Option TemplateKind :=
  all.find? fun k => k.name == text

end TemplateKind

/-- The kind of a token. A custom kind carries the grammar that declares it. -/
inductive TokenKind where
  | basic (kind : BasicKind)
  | template (kind : TemplateKind)
  | custom (grammar name : String)
  deriving DecidableEq, Repr

instance : Coe BasicKind TokenKind := ⟨.basic⟩

namespace TokenKind

def spellings : TokenKind → List String
  | basic k => k.spellings
  | template k => k.spellings
  | custom _ _ => []

/-- What a message calls the kind: its first spelling, or a word for kinds without one. -/
def describe : TokenKind → String
  | basic .identifier => "identifier"
  | basic .number => "number"
  | basic .string => "string"
  | basic .raw => "raw text"
  | basic .eof => "end of input"
  | basic k => k.spellings.headD k.name
  | template k => k.spellings.headD k.name
  | custom grammar name => grammar ++ ":" ++ name

/-- The kind as listings show it. -/
def inspect : TokenKind → String
  | basic k => "Basic(" ++ k.name ++ ")"
  | template k => "Template(" ++ k.name ++ ")"
  | custom grammar name =>
    "Custom \x7b grammar: " ++ Text.quoted grammar ++ ", name: " ++ Text.quoted name ++ " \x7d"

end TokenKind

end ExprLang
