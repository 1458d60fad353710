import AccessPolicy.Analysis.Declarations
import AccessPolicy.Expr.Text
import AccessPolicy.Text.Lowercase
import AccessPolicy.Text.Basic

/-!
# Security risks

Wildcard roles, sensitive actions without a condition or without an admin in it,
and rules that let a guest delete.
-/

namespace AccessPolicy

def sensitiveActions : List String := ["delete", "execute", "update"]

/-- Does a text contain a word, whatever the case of its letters? The word is in
lower case. -/
def mentionsWord (text word : String) : Bool := Text.mentions (Text.lower text) word

def isGuestName (name : String) : Bool := mentionsWord name "guest"

def Rule.sensitive (r : Rule) : List String := sensitiveActions.filter (coversAction r.actions)

/-- Does a guest's name stand where it lets the condition hold? `NOT` and `!=`
each turn the polarity around. -/
def Expr.admitsGuest (positive : Bool) : Expr → Bool
  | .binary .notEqual left right _ => admitsGuest (!positive) left || admitsGuest (!positive) right
  | .binary _ left right _ => admitsGuest positive left || admitsGuest positive right
  | .not operand _ => admitsGuest (!positive) operand
  | .attribute _ _ _ => false
  | .literal (.string s) _ => positive && isGuestName s
  | .literal _ _ => false

/-- May a guest delete by a rule that allows it? A condition that does not look
at the role lets every role through. -/
def Rule.grantsGuestDelete (guestDefined : Bool) (r : Rule) : Bool :=
  coversAction r.actions "delete" &&
    match r.condition with
    | some e => e.admitsGuest true || (guestDefined && !e.readsUserRole)
    | none => guestDefined

def Rule.hasAdminContext (r : Rule) : Bool :=
  match r.condition with
  | some e => mentionsWord e.conditionText "admin"
  | none => false

def wildcardRoles (ds : Declarations) : List Definition :=
  ds.roles.filter fun d => "*" ∈ d.texts "can"

def checkWildcards (ds : Declarations) : List Remark :=
  (wildcardRoles ds).map fun d => ⟨d.line, .wildcardRole d.name⟩

def ruleRisks (guestDefined : Bool) (r : Rule) : List Remark :=
  let sensitive := r.sensitive
  let unguarded : List Remark :=
    if sensitive ≠ [] ∧ r.condition = none then [⟨r.line, .unguarded sensitive⟩] else []
  let guest : List Remark :=
    if r.effect = .allow ∧ r.grantsGuestDelete guestDefined then [⟨r.line, .guestDelete⟩] else []
  let admin : List Remark :=
    if r.effect = .allow ∧ sensitive ≠ [] ∧ !r.hasAdminContext then [⟨r.line, .noAdminContext⟩]
    else []
  unguarded ++ guest ++ admin

/-- The guest roles that may delete by the policies made from roles. -/
def roleRisks (o : Options) (ds : Declarations) : List Remark :=
  if ds.rules = [] ∧ o.synthesize ∧ ds.resources ≠ [] then
    (ds.roles.filter fun d => isGuestName d.name && coversAction (d.texts "can") "delete").map
      fun d => ⟨d.line, .guestRoleDelete d.name⟩
  else []

/-- All security risks: wildcards, then rules, then roles. -/
def checkRisks (o : Options) (ds : Declarations) : List Remark :=
  let guestDefined := ds.roles.any fun d => isGuestName d.name
  checkWildcards ds ++ ds.rules.flatMap (ruleRisks guestDefined) ++ roleRisks o ds

end AccessPolicy
