import ExprLang.Node
import ExprLang.Value.Text
/-!
# Written trees

The canonical source form of a tree. Binary and ternary nodes are parenthesised, so that the text
shows the shape of the tree, and an operator before another one in front of its operand is kept
apart from it by parentheses.
-/

namespace ExprLang

/-- One character of a string literal between single quotes. -/
def escapeInString : Char → String
  | '\'' => "\\'"
  | '\\' => "\\\\"
  | '\n' => "\\n"
  | '\t' => "\\t"
  | '\r' => "\\r"
  | c => String.singleton c

def Literal.text : Literal → String
  | null => "null"
  | bool b => if b then "true" else "false"
  | int n => n.toInt.repr
  | long n => n.toInt.repr ++ "L"
  | double d => plainDouble.write d
  | char c => "char('" ++ String.singleton c ++ "')"
  | str s => "'" ++ String.join (s.toList.map escapeInString) ++ "'"

mutual
def Node.text : Node → String
  | .literal value => value.text
  | .name name none => name
  | .name name (some given) => name ++ " as " ++ given
  | .path segments => Segment.rootText segments
  | .unary operation .before operand =>
    if operand.isPrefixed then operation.symbol ++ "(" ++ operand.text ++ ")"
    else operation.symbol ++ operand.text
  | .unary operation .after operand => operand.text ++ operation.symbol
  | .binary operation left right =>
    "(" ++ left.text ++ " " ++ operation.symbol ++ " " ++ right.text ++ ")"
  | .ternary condition positive negative =>
    "(" ++ condition.text ++ " ? " ++ positive.text ++ " : " ++ negative.text ++ ")"
  | .call name arguments => name ++ "(" ++ commaSeparated (Node.texts arguments) ++ ")"
  | .arguments items => "[" ++ commaSeparated (Node.texts items) ++ "]"
  | .parameters params => "(" ++ commaSeparated (Parameter.texts params) ++ ")"

def Node.texts : List Node → List String
  | [] => []
  | n :: rest => n.text :: Node.texts rest

/-- A property at the root stands without its dot. -/
def Segment.rootText : List Segment → String
  | .property name :: rest => name ++ Segment.texts rest
  | .index n :: rest => "[" ++ n.text ++ "]" ++ Segment.texts rest
  | [] => ""

def Segment.texts : List Segment → String
  | [] => ""
  | .property name :: rest => "." ++ name ++ Segment.texts rest
  | .index n :: rest => "[" ++ n.text ++ "]" ++ Segment.texts rest

def Parameter.texts : List Parameter → List String
  | [] => []
  | .mk name none :: rest => name :: Parameter.texts rest
  | .mk name (some d) :: rest => (name ++ ": " ++ d.text) :: Parameter.texts rest
end

end ExprLang
