import AccessPolicy.Decision.Engine
import AccessPolicy.Text.Basic

/-!
# Permissions of a user

What a user could be granted, without any request: the actions of the role, and
every policy without a condition or with one that reads `user.role`.
-/

namespace AccessPolicy

/-- Could the condition depend on the role of the user? A condition that cannot
be read is searched as text. -/
def Guard.mayReadRole : Guard → Bool
  | .always => true
  | .condition e => e.readsUserRole
  | .unreadable text => Text.mentions text "user.role"

structure Permissions where
  username : String
  role : Option String
  granted : List String
  applicable : List Policy

namespace Permissions

/-- The permissions as a document, in the order of the declaration of their
fields. -/
def toJson (p : Permissions) : Json :=
  .object [
    ("username", .string p.username),
    ("role", .optionalString p.role),
    ("role_permissions", .strings p.granted),
    ("applicable_policies", .array (p.applicable.map policyJson))]
where
  policyJson (p : Policy) : Json :=
    .object [
      ("type", .string p.effect.text),
      ("actions", .strings p.actions),
      ("resource", .string p.resource),
      ("condition", .optionalString p.condition),
      ("line", .optionalNat p.line),
      ("synthesized", .bool p.synthesized)]

end Permissions

/-- The permissions of a user. A role that is not there grants nothing. -/
def Engine.permissions? (e : Engine) (username : String) : Option Permissions :=
  (e.user? username).map fun user => {
    username
    role := user.role
    granted := ((user.role.bind e.role?).map Role.permissions).getD []
    applicable := (e.policies.filter fun p => p.guard.mayReadRole).map LoadedPolicy.policy }

end AccessPolicy
