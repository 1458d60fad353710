import AccessPolicy.Options
import AccessPolicy.Toml

/-!
# Options from a settings file

Every option may be left out; no other key is allowed.
-/

namespace AccessPolicy

inductive OptionsError where
  | malformed
  | invalid (reason : String)
deriving DecidableEq

def OptionsError.message : OptionsError → String
  | .malformed => "invalid compile options"
  | .invalid reason => "invalid compile options: " ++ reason

namespace Options

def isEmptyValue : Toml.Value → Bool
  | .emptyArray => true
  | .table _ [] => true
  | _ => false

/-- A strictness by its name, or as the only key of a table, with an empty
value. -/
def strictness? : Toml.Value → Option Strictness
  | .string s => Strictness.all.find? fun x => x.label = s
  | .table _ [(key, value)] =>
    if isEmptyValue value then Strictness.all.find? fun x => x.label = key else none
  | _ => none

def set (o : Options) (entry : String × Toml.Value) : Option Options :=
  match entry with
  | ("max_errors", .int n) => if 0 ≤ n then some { o with maxErrors := n.toNat } else none
  | ("undefined_roles", v) => (strictness? v).map fun s => { o with undefinedRoles := s }
  | ("undefined_resources", v) => (strictness? v).map fun s => { o with undefinedResources := s }
  | ("synthesize_role_policies", .bool b) => some { o with synthesize := b }
  | _ => none

/-- At least one error has to be collected. -/
def validate (o : Options) : Except OptionsError Options :=
  if o.maxErrors = 0 then .error (.invalid "max_errors must be at least 1") else .ok o

def ofToml (text : String) : Except OptionsError Options :=
  match (Toml.parse text).bind fun entries => entries.foldlM set {} with
  | none => .error .malformed
  | some o => o.validate

end Options
end AccessPolicy
