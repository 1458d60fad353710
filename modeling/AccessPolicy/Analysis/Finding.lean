import AccessPolicy.Diagnostic
import AccessPolicy.Options
import AccessPolicy.Program.Basic

/-!
# Findings

What an analysis can find in a program. A remark is a finding on a line.
-/

namespace AccessPolicy

inductive Finding where
  | duplicate (kind : DefinitionKind) (name : String) (firstLine : Nat)
  | undefinedUserRole (user role : String)
  | undefinedConditionRole (role : String)
  | undefinedResource (name : String)
  | unmatchedPath (path : String)
  | unknownObject (object : String)
  | unknownAttribute (field object : String)
  | wildcardRole (role : String)
  | unguarded (actions : List String)
  | guestDelete
  | guestRoleDelete (role : String)
  | noAdminContext
deriving DecidableEq

structure Remark where
  line : Nat
  finding : Finding
deriving DecidableEq

def Strictness.severity : Strictness → Severity
  | .strict => .error
  | .lenient => .warning

def DefinitionKind.word : DefinitionKind → String
  | .role => "role"
  | .user => "user"
  | .resource => "resource"

namespace Finding

/-- Is the finding a reference that cannot be resolved? -/
def isUndefined : Finding → Bool
  | .undefinedUserRole _ _ => true
  | .undefinedConditionRole _ => true
  | .undefinedResource _ => true
  | _ => false

def isGuestDelete : Finding → Bool
  | .guestDelete => true
  | .guestRoleDelete _ => true
  | _ => false

def isUnguarded : Finding → Bool
  | .unguarded _ => true
  | _ => false

def severity (o : Options) : Finding → Severity
  | .duplicate _ _ _ => .error
  | .undefinedUserRole _ _ => o.undefinedRoles.severity
  | .undefinedConditionRole _ => o.undefinedRoles.severity
  | .undefinedResource _ => o.undefinedResources.severity
  | .unmatchedPath _ => .warning
  | .unknownObject _ => .warning
  | .unknownAttribute _ _ => .warning
  | .wildcardRole _ => .risk
  | .unguarded _ => .risk
  | .guestDelete => .error
  | .guestRoleDelete _ => .error
  | .noAdminContext => .risk

end Finding

namespace Remark

def message (m : Remark) : String :=
  match m.finding with
  | .duplicate kind name firstLine =>
    "Duplicate " ++ kind.word ++ " definition: '" ++ name ++ "' (first declared at line "
      ++ toString firstLine ++ ")"
  | .undefinedUserRole user role =>
    "User '" ++ user ++ "' references undefined role '" ++ role ++ "'"
  | .undefinedConditionRole role =>
    "Condition references undefined role '" ++ role ++ "' in condition at line " ++ toString m.line
  | .undefinedResource name =>
    "Policy references undefined resource '" ++ name ++ "'. Define it with: RESOURCE " ++ name
      ++ " \x7b ... \x7d"
  | .unmatchedPath path =>
    "Policy uses path '" ++ path ++ "' which doesn't match any defined resource path"
  | .unknownObject object => "Unknown object in attribute access: '" ++ object ++ "'"
  | .unknownAttribute field object =>
    "Unknown attribute '" ++ field ++ "' on object '" ++ object ++ "'"
  | .wildcardRole role => "SECURITY: Role '" ++ role ++ "' has wildcard permissions (*)"
  | .unguarded actions =>
    "Policy allows sensitive actions without conditions: " ++ String.intercalate ", " actions
  | .guestDelete => "CRITICAL SECURITY RISK: Policy grants 'delete' to Guest role"
  | .guestRoleDelete role =>
    "CRITICAL SECURITY RISK: Role '" ++ role
      ++ "' would be granted 'delete' on every resource"
  | .noAdminContext => "Policy grants sensitive actions without admin context"

def severity (o : Options) (m : Remark) : Severity := m.finding.severity o

def diagnostic (o : Options) (m : Remark) : Diagnostic :=
  ⟨m.line, m.severity o, m.message, .semantic⟩

end Remark
end AccessPolicy
