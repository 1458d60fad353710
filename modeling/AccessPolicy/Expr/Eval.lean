import AccessPolicy.Environment
import AccessPolicy.Expr.Basic

/-!
# Evaluation of conditions

Operands are evaluated from left to right, and the right operand of a
conjunction or disjunction only where the left one does not decide it. Nothing
is converted: a comparison of order needs two numbers or two texts, and a
logical operation needs truth values.

A condition that cannot be evaluated does not hold.
-/

namespace AccessPolicy

inductive EvalError where
  | unknownAttribute (object field : String)
  | incomparable (left right : ValueType)
  | notABoolean (found : ValueType)
  | invalidNumber (spelling : String)
deriving DecidableEq

def EvalError.message : EvalError → String
  | .unknownAttribute object field => "unknown attribute '" ++ object ++ "." ++ field ++ "'"
  | .incomparable left right => "cannot order " ++ left.name ++ " against " ++ right.name
  | .notABoolean found => "expected Bool, got " ++ found.name
  | .invalidNumber spelling => "invalid number literal '" ++ spelling ++ "'"

def Literal.eval : Literal → Except EvalError Value
  | .string s => .ok (.text s)
  | .int n => .ok (.ofInt n)
  | .decimal spelling =>
    match Decimal.ofSpelling spelling with
    | some d => .ok (.number d)
    | none => .error (.invalidNumber spelling)
  | .bool b => .ok (.bool b)

namespace Value

def truth : Value → Except EvalError Bool
  | .bool b => .ok b
  | v => .error (.notABoolean v.type)

def order (left right : Value) : Except EvalError Ordering :=
  match left.order? right with
  | some o => .ok o
  | none => .error (.incomparable left.type right.type)

end Value

/-- Do two values meet a comparison? The logical operators compare nothing. -/
def BinaryOp.compare (op : BinaryOp) (left right : Value) : Except EvalError Bool :=
  match op with
  | .equal => .ok (left.equal right)
  | .notEqual => .ok (!left.equal right)
  | .less => (left.order right).map (· == .lt)
  | .lessEqual => (left.order right).map (· != .gt)
  | .greater => (left.order right).map (· == .gt)
  | .greaterEqual => (left.order right).map (· != .lt)
  | .and | .or => .ok false

namespace Expr

def eval (env : Environment) : Expr → Except EvalError Value
  | .literal value _ => value.eval
  | .attribute object field _ =>
    match env.get? object field with
    | some v => .ok v
    | none => .error (.unknownAttribute object field)
  | .not operand _ => do
    let b ← (← eval env operand).truth
    return .bool (!b)
  | .binary .and left right _ => do
    if ← (← eval env left).truth then
      let b ← (← eval env right).truth
      return .bool b
    else return .bool false
  | .binary .or left right _ => do
    if ← (← eval env left).truth then return .bool true
    else
      let b ← (← eval env right).truth
      return .bool b
  | .binary op left right _ => do
    let l ← eval env left
    let r ← eval env right
    let b ← op.compare l r
    return .bool b

/-- The expression as a condition. -/
def test (env : Environment) (e : Expr) : Except EvalError Bool := do (← e.eval env).truth

/-- Does the condition hold? One that cannot be evaluated does not. -/
def holds (env : Environment) (e : Expr) : Bool :=
  match e.test env with
  | .ok b => b
  | .error _ => false

end Expr
end AccessPolicy
