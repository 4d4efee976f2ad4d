import ExprLang.Source
import ExprLang.Token.Kind
/-!
# Tokens

A token is a fragment with a kind. String tokens keep their quotes and escapes; the text is decoded
where the token becomes a literal.
-/

namespace ExprLang

structure Token where
  kind : TokenKind
  text : String
  span : Span
  deriving DecidableEq, Repr

namespace Token

/-- The token that closes a sequence, at the given mark. -/
def eof (m : Mark) : Token :=
  ⟨BasicKind.eof, "", Span.between m m⟩

def isEof (t : Token) : Bool :=
  t.kind = BasicKind.eof

/-- What a message calls the token. -/
def describe (t : Token) : String :=
  if t.isEof then "end of input" else "'" ++ t.text ++ "'"

end Token

end ExprLang
