import AccessPolicy.Environment
import AccessPolicy.PolicySet.Basic

/-!
# Decisions

A request is decided for a reason, and the reason decides whether access is
allowed.
-/

namespace AccessPolicy

structure Request where
  user : String
  action : String
  resource : String
deriving DecidableEq

inductive Reason where
  | unknownUser (user : String)
  | unknownResource (resource : String)
  | noRole (user : String)
  | unknownRole (role user : String)
  | denyMatched
  | allowMatched
  | nothingMatched
deriving DecidableEq

namespace Reason

/-- Only a policy that allows and none that denies gives access. -/
def effect : Reason → Effect
  | .allowMatched => .allow
  | _ => .deny

def text : Reason → String
  | .unknownUser user => "User '" ++ user ++ "' not found"
  | .unknownResource resource => "Resource '" ++ resource ++ "' not found"
  | .noRole user => "User '" ++ user ++ "' has no role assigned"
  | .unknownRole role user => "Role '" ++ role ++ "' assigned to user '" ++ user ++ "' not found"
  | .denyMatched => "Explicit DENY policy matched"
  | .allowMatched => "ALLOW policy matched"
  | .nothingMatched => "No matching policies (default deny)"

end Reason

/-- The answer to a request. There is no environment where the request was
refused before any policy was looked at. -/
structure Decision where
  request : Request
  reason : Reason
  matched : List Policy
  environment : Option Environment

namespace Decision

def effect (d : Decision) : Effect := d.reason.effect

def allowed (d : Decision) : Bool := d.effect = .allow

end Decision
end AccessPolicy
