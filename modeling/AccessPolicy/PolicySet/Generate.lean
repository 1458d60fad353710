import AccessPolicy.Analysis.Declarations
import AccessPolicy.Expr.Text
import AccessPolicy.PolicySet.Basic

/-!
# Policy sets from programs

Of several definitions of one name the first counts. A program without rules
may get one policy for each role and resource instead.
-/

namespace AccessPolicy

def Definition.toRole (d : Definition) : Role :=
  ⟨d.name, d.texts "can", d.propertyValues, d.line⟩

def Definition.toUser (d : Definition) : User :=
  ⟨d.name, d.firstText "role", d.propertyValues, d.line⟩

def Definition.toResource (d : Definition) : Resource :=
  ⟨d.name, d.firstText "path", d.propertyValues, d.line⟩

def Rule.toPolicy (r : Rule) : Policy :=
  ⟨r.effect, r.actions, r.resource, r.condition.map Expr.conditionText, some r.line, false⟩

/-- The policy that lets users of a role do what the role may, on a resource. -/
def Role.policyOn (role : Role) (resource : Resource) : Policy :=
  ⟨.allow, role.permissions, resource.name,
    some ("(user.role == " ++ (Literal.string role.name).text ++ ")"), none, true⟩

/-- One policy for each role that may do something and each resource. -/
def synthesizedPolicies (roles : List Role) (resources : List Resource) : List Policy :=
  (roles.filter fun r => !r.permissions.isEmpty).flatMap fun role => resources.map role.policyOn

def PolicySet.ofProgram (synthesize : Bool) (p : Program) : PolicySet :=
  let roles := (firstNamed p.roles).map Definition.toRole
  let users := (firstNamed p.users).map Definition.toUser
  let resources := (firstNamed p.resources).map Definition.toResource
  let policies := p.rules.map Rule.toPolicy
  let policies :=
    if policies.isEmpty && synthesize then synthesizedPolicies roles resources else policies
  ⟨roles, users, resources, policies⟩

end AccessPolicy
