import AccessPolicy.Json.Basic

/-!
# Policy sets

What a compiled program is: roles, users, resources and policies, with
conditions as text. Its document form also counts its parts.
-/

namespace AccessPolicy

inductive Effect where
  | allow
  | deny
deriving DecidableEq

def Effect.text : Effect → String
  | .allow => "ALLOW"
  | .deny => "DENY"

/-- Do some granted actions cover an action? `*` covers every action. -/
def coversAction (granted : List String) (action : String) : Bool :=
  granted.any fun a => a = "*" || a = action

theorem coversAction_iff {granted : List String} {action : String} :
    coversAction granted action = true ↔ "*" ∈ granted ∨ action ∈ granted := by
  unfold coversAction
  rw [List.any_eq_true]
  constructor
  · rintro ⟨a, ha, hcovers⟩
    rw [Bool.or_eq_true, decide_eq_true_eq, decide_eq_true_eq] at hcovers
    rcases hcovers with rfl | rfl
    · exact Or.inl ha
    · exact Or.inr ha
  · rintro (h | h)
    · exact ⟨"*", h, by simp⟩
    · exact ⟨action, h, by simp⟩

/-- The properties of an entity. A single value is a list of one. -/
abbrev PropertyValues := NameMap (List Json)

structure Role where
  name : String
  permissions : List String
  properties : PropertyValues
  line : Nat

structure User where
  name : String
  role : Option String
  properties : PropertyValues
  line : Nat

structure Resource where
  name : String
  path : Option String
  properties : PropertyValues
  line : Nat

/-- A policy. One that was synthesized from a role has no line. -/
structure Policy where
  effect : Effect
  actions : List String
  resource : String
  condition : Option String
  line : Option Nat
  synthesized : Bool
deriving DecidableEq

structure PolicySet where
  roles : List Role
  users : List User
  resources : List Resource
  policies : List Policy

def PropertyValues.toJson (properties : PropertyValues) : Json :=
  .object (properties.map fun p => (p.1, .array p.2))

def Role.toJson (r : Role) : Json :=
  .object [
    ("line", .nat r.line),
    ("name", .string r.name),
    ("permissions", .strings r.permissions),
    ("properties", PropertyValues.toJson r.properties)]

def User.toJson (u : User) : Json :=
  .object [
    ("line", .nat u.line),
    ("name", .string u.name),
    ("properties", PropertyValues.toJson u.properties),
    ("role", .optionalString u.role)]

def Resource.toJson (r : Resource) : Json :=
  .object [
    ("line", .nat r.line),
    ("name", .string r.name),
    ("path", .optionalString r.path),
    ("properties", PropertyValues.toJson r.properties)]

def Policy.toJson (p : Policy) : Json :=
  .object [
    ("actions", .strings p.actions),
    ("condition", .optionalString p.condition),
    ("line", .optionalNat p.line),
    ("resource", .string p.resource),
    ("synthesized", .bool p.synthesized),
    ("type", .string p.effect.text)]

namespace PolicySet

/-- The version of the document form. -/
def version : String := "1.0"

def synthesizedCount (s : PolicySet) : Nat := s.policies.countP Policy.synthesized

/-- The version and the counts of the parts. -/
def metadata (s : PolicySet) : Json :=
  .object [
    ("counts", .object [
      ("policies", .nat s.policies.length),
      ("resources", .nat s.resources.length),
      ("roles", .nat s.roles.length),
      ("synthesized_policies", .nat s.synthesizedCount),
      ("users", .nat s.users.length)]),
    ("version", .string version)]

def toJson (s : PolicySet) : Json :=
  .object [
    ("metadata", s.metadata),
    ("policies", .array (s.policies.map Policy.toJson)),
    ("resources", .array (s.resources.map Resource.toJson)),
    ("roles", .array (s.roles.map Role.toJson)),
    ("users", .array (s.users.map User.toJson))]

end PolicySet
end AccessPolicy
