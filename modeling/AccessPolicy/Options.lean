import AccessPolicy.Json.Basic

/-!
# Compile options
-/

namespace AccessPolicy

/-- Whether a reference that cannot be resolved is an error or a warning. -/
inductive Strictness where
  | strict
  | lenient
deriving DecidableEq

def Strictness.label : Strictness → String
  | .strict => "strict"
  | .lenient => "lenient"

def Strictness.all : List Strictness := [.strict, .lenient]

/-- How a program is compiled: how many syntax errors are collected, how strict
references are, and whether a program without rules gets policies from its
roles. -/
structure Options where
  maxErrors : Nat := 10
  undefinedRoles : Strictness := .strict
  undefinedResources : Strictness := .strict
  synthesize : Bool := true
deriving DecidableEq

def Options.toJson (o : Options) : Json :=
  .object [
    ("max_errors", .nat o.maxErrors),
    ("synthesize_role_policies", .bool o.synthesize),
    ("undefined_resources", .string o.undefinedResources.label),
    ("undefined_roles", .string o.undefinedRoles.label)]

end AccessPolicy
