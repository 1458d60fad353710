import AccessPolicy.Expr.Text
import AccessPolicy.Program.Basic

/-!
# Conflicts

Two rules on the same resource conflict if their actions overlap and their
conditions are not provably disjoint. Conditions are disjoint for certain if
both pin one attribute by `==` in their outermost conjunctions, to different
literals of one kind.
-/

namespace AccessPolicy

inductive ConflictKind where
  | allowDeny
  | privilegeEscalation
  | contradiction
  | redundant
deriving DecidableEq

namespace ConflictKind

def label : ConflictKind → String
  | .allowDeny => "ALLOW_DENY_CONFLICT"
  | .privilegeEscalation => "PRIVILEGE_ESCALATION"
  | .contradiction => "LOGICAL_CONTRADICTION"
  | .redundant => "REDUNDANT_POLICY"

def riskScore : ConflictKind → Nat
  | .privilegeEscalation => 95
  | .allowDeny => 85
  | .contradiction => 60
  | .redundant => 20

end ConflictKind

/-- Two rules in conflict over some actions. -/
structure Conflict where
  kind : ConflictKind
  first : Rule
  second : Rule
  actions : List String

def overlappingActions (p q : Rule) : List String :=
  if "*" ∈ p.actions then q.actions
  else if "*" ∈ q.actions then p.actions
  else p.actions.filter fun a => a ∈ q.actions

/-- The attribute and the literal that an expression compares by `==`. -/
def Expr.pin? : Expr → Option ((String × String) × Literal)
  | .binary .equal (.attribute object field _) (.literal value _) _ => some ((object, field), value)
  | .binary .equal (.literal value _) (.attribute object field _) _ => some ((object, field), value)
  | _ => none

/-- The attributes that the outermost conjunction pins. -/
def Expr.pins (e : Expr) : List ((String × String) × Literal) := e.conjuncts.filterMap pin?

/-- Literals that no single value can equal. -/
def Literal.distinct : Literal → Literal → Bool
  | .string a, .string b => a != b
  | .int a, .int b => a != b
  | .bool a, .bool b => a != b
  | _, _ => false

/-- Conditions that cannot both hold, by their pins. -/
def provablyDisjoint : Option Expr → Option Expr → Bool
  | some a, some b => a.pins.any fun x => b.pins.any fun y => x.1 = y.1 && x.2.distinct y.2
  | _, _ => false

/-- The conditions are both absent or have the same text. -/
def sameCondition (a b : Option Expr) : Bool :=
  a.map Expr.conditionText = b.map Expr.conditionText

def conflictKind (p q : Rule) (common : List String) : ConflictKind :=
  if p.effect ≠ q.effect then
    if "delete" ∈ common ∨ "*" ∈ common then .privilegeEscalation else .allowDeny
  else if sameCondition p.condition q.condition then .redundant
  else .contradiction

def conflict? (p q : Rule) : Option Conflict :=
  let common := overlappingActions p q
  if p.resource ≠ q.resource ∨ common = [] ∨ provablyDisjoint p.condition q.condition then none
  else some ⟨conflictKind p q common, p, q, common⟩

def conflicts : List Rule → List Conflict
  | [] => []
  | p :: rest => rest.filterMap (conflict? p) ++ conflicts rest

namespace Conflict

def description (c : Conflict) : String :=
  let actions := String.intercalate ", " c.actions
  let first := c.first.effect.text ++ " (line " ++ toString c.first.line ++ ")"
  let second := c.second.effect.text ++ " (line " ++ toString c.second.line ++ ")"
  let place := " policies on resource '" ++ c.first.resource ++ "' for action(s) " ++ actions
  match c.kind with
  | .allowDeny => "Conflicting" ++ place ++ ": " ++ first ++ " vs " ++ second
  | .privilegeEscalation => "Conflicting" ++ place ++ ": " ++ first ++ " vs " ++ second
  | .redundant => "Redundant" ++ place ++ ": " ++ second ++ " repeats " ++ first
  | .contradiction =>
    "Overlapping " ++ c.first.effect.text ++ place ++ " with different conditions (lines "
      ++ toString c.first.line ++ " and " ++ toString c.second.line ++ ")"

def toJson (c : Conflict) : Json :=
  .object [
    ("description", .string c.description),
    ("policy1_line", .nat c.first.line),
    ("policy2_line", .nat c.second.line),
    ("risk_score", .nat c.kind.riskScore),
    ("type", .string c.kind.label)]

end Conflict
end AccessPolicy
