import AccessPolicy.Expr.Basic

/-!
# Conditions as text

`Expr.conditionText` is fully parenthesised and can be read again as a
condition; `Expr.listing` names the kind of each inner node.
-/

namespace AccessPolicy

def Literal.escapeChar (c : Char) : List Char :=
  if c = '"' then ['\\', '"']
  else if c = '\\' then ['\\', '\\']
  else if c = '\n' then ['\\', 'n']
  else if c = '\t' then ['\\', 't']
  else [c]

def Literal.text : Literal → String
  | .string s => "\"" ++ String.ofList (s.toList.flatMap escapeChar) ++ "\""
  | l => l.plain

namespace Expr

/-- The expression as condition text, with parentheses around every operation. -/
def conditionText : Expr → String
  | .binary op left right _ =>
    "(" ++ conditionText left ++ " " ++ op.text ++ " " ++ conditionText right ++ ")"
  | .not operand _ => "(NOT " ++ conditionText operand ++ ")"
  | .attribute object field _ => object ++ "." ++ field
  | .literal value _ => value.text

/-- The expression as it stands in a program listing. -/
def listing : Expr → String
  | .binary op left right _ =>
    "BinaryOp(" ++ listing left ++ " " ++ op.text ++ " " ++ listing right ++ ")"
  | .not operand _ => "UnaryOp(NOT " ++ listing operand ++ ")"
  | .attribute object field _ => object ++ "." ++ field
  | .literal value _ => value.text

end Expr
end AccessPolicy
