import AccessPolicy.Decision.Attributes
import AccessPolicy.Decision.Basic
import AccessPolicy.Expr.Eval
import AccessPolicy.Expr.Reader
import AccessPolicy.NameIndex
import AccessPolicy.ResourcePattern
import AccessPolicy.Text.Lowercase

/-!
# Engines

An engine decides requests by a policy set whose conditions have been read. Of
several entities of one name the first counts. Every policy that matches a
request is listed; one that denies outweighs those that allow, and nothing is
allowed by default.
-/

namespace AccessPolicy

/-- When a policy holds. A condition that cannot be read never does. -/
inductive Guard where
  | always
  | condition (e : Expr)
  | unreadable (text : String)

namespace Guard

def ofCondition : Option String → Guard
  | none => .always
  | some text =>
    match Expr.ofText text with
    | .ok e => .condition e
    | .error _ => .unreadable text

def holds (env : Environment) : Guard → Bool
  | .always => true
  | .condition e => e.holds env
  | .unreadable _ => false

end Guard

structure LoadedPolicy where
  policy : Policy
  guard : Guard

namespace LoadedPolicy

def ofPolicy (p : Policy) : LoadedPolicy := ⟨p, .ofCondition p.condition⟩

def applies (env : Environment) (action : String) (resource : Resource) (p : LoadedPolicy) :
    Bool :=
  ResourcePattern.matchesResource p.policy.resource resource
    && coversAction p.policy.actions action && p.guard.holds env

end LoadedPolicy

/-- The role of a user. An empty role is none. -/
def User.assignedRole? (u : User) : Option String := u.role.filter (· ≠ "")

/-- A policy set with its entities indexed by name and its policies loaded. -/
structure Engine where
  set : PolicySet
  roles : NameIndex Role.name set.roles
  users : NameIndex User.name set.users
  resources : NameIndex Resource.name set.resources
  policies : List LoadedPolicy
  policies_eq : policies = set.policies.map LoadedPolicy.ofPolicy

namespace Engine

def load (set : PolicySet) : Engine where
  set := set
  roles := .ofItems _ _
  users := .ofItems _ _
  resources := .ofItems _ _
  policies := set.policies.map LoadedPolicy.ofPolicy
  policies_eq := rfl

def user? (e : Engine) (name : String) : Option User := e.users.find? name

def role? (e : Engine) (name : String) : Option Role := e.roles.find? name

def resource? (e : Engine) (name : String) : Option Resource := e.resources.find? name

theorem user?_eq (e : Engine) (name : String) :
    e.user? name = e.set.users.find? fun u => u.name = name := e.users.find?_eq name

theorem role?_eq (e : Engine) (name : String) :
    e.role? name = e.set.roles.find? fun r => r.name = name := e.roles.find?_eq name

theorem resource?_eq (e : Engine) (name : String) :
    e.resource? name = e.set.resources.find? fun r => r.name = name := e.resources.find?_eq name

structure Parties where
  user : User
  role : String
  resource : Resource

/-- The entities of a request, or the reason to refuse it. -/
def parties (e : Engine) (r : Request) : Except Reason Parties :=
  match e.user? r.user with
  | none => .error (.unknownUser r.user)
  | some user =>
    match e.resource? r.resource with
    | none => .error (.unknownResource r.resource)
    | some resource =>
      match user.assignedRole? with
      | none => .error (.noRole r.user)
      | some role =>
        match e.role? role with
        | none => .error (.unknownRole role r.user)
        | some _ => .ok ⟨user, role, resource⟩

def matching (e : Engine) (env : Environment) (action : String) (resource : Resource) :
    List Policy :=
  (e.policies.filter (LoadedPolicy.applies env action resource)).map LoadedPolicy.policy

def verdict (matched : List Policy) : Reason :=
  if matched.any fun p => p.effect = .deny then .denyMatched
  else if matched.any fun p => p.effect = .allow then .allowMatched
  else .nothingMatched

/-- Decide a request at a moment. Policies are asked about the action in lower
case. -/
def decide (e : Engine) (r : Request) (context : CallerContext) (now : Moment) : Decision :=
  match e.parties r with
  | .error reason => ⟨r, reason, [], none⟩
  | .ok p =>
    let env := Environment.ofRequest p.user p.role p.resource context now
    let action := Text.lower r.action
    let matched := e.matching env action p.resource
    ⟨{ r with action := action }, verdict matched, matched, some env⟩

end Engine
end AccessPolicy
