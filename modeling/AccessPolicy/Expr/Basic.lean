import AccessPolicy.Json.Basic
import AccessPolicy.Text.Basic

/-!
# Conditions

Expressions over attributes and literals. Every node keeps the line of its
operator or of its first token.
-/

namespace AccessPolicy

/-- A literal of a condition or a property. Bare names, action words and `*`
are strings. A decimal keeps its spelling. -/
inductive Literal where
  | string (s : String)
  | int (n : Nat)
  | decimal (spelling : String)
  | bool (b : Bool)
deriving DecidableEq

namespace Literal

/-- The value as plain text, without quotes. -/
def plain : Literal → String
  | .string s => s
  | .int n => toString n
  | .decimal spelling => spelling
  | .bool b => if b then "true" else "false"

/-- The exact value of a spelling of decimal digits with at most one point. -/
def decimalValue (spelling : String) : Rat :=
  let digits := spelling.toList.filter Text.isDigit
  let places := (spelling.toList.dropWhile (· != '.')).length - 1
  (Text.digitsValue 0 digits : Rat) / (Nat.pow 10 places : Rat)

/-- The literal as a document. A decimal is rounded to binary64, and stays text
if it is too large for that. -/
def toJson : Literal → Json
  | .string s => .string s
  | .int n => .nat n
  | .decimal spelling =>
    match Binary64.ofRat false (decimalValue spelling) with
    | some x => .number (.float x)
    | none => .string spelling
  | .bool b => .bool b

end Literal

inductive BinaryOp where
  | and
  | or
  | equal
  | notEqual
  | less
  | lessEqual
  | greater
  | greaterEqual
deriving DecidableEq

def BinaryOp.text : BinaryOp → String
  | .and => "AND"
  | .or => "OR"
  | .equal => "=="
  | .notEqual => "!="
  | .less => "<"
  | .lessEqual => "<="
  | .greater => ">"
  | .greaterEqual => ">="

inductive Expr where
  | binary (op : BinaryOp) (left right : Expr) (line : Nat)
  | not (operand : Expr) (line : Nat)
  | attribute (object field : String) (line : Nat)
  | literal (value : Literal) (line : Nat)
deriving DecidableEq

namespace Expr

/-- Every node, parents before children and left before right. -/
def nodes : Expr → List Expr
  | e@(.binary _ left right _) => e :: (nodes left ++ nodes right)
  | e@(.not operand _) => e :: nodes operand
  | e => [e]

/-- The operands of the outermost conjunction. -/
def conjuncts : Expr → List Expr
  | .binary .and left right _ => conjuncts left ++ conjuncts right
  | e => [e]

def isUserRole : Expr → Bool
  | .attribute object field _ => object = "user" && field = "role"
  | _ => false

def readsUserRole (e : Expr) : Bool := e.nodes.any isUserRole

end Expr
end AccessPolicy
