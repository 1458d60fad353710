import AccessPolicy.Json.Decode
import AccessPolicy.PolicySet.Basic

/-!
# Policy sets from documents

The counts of a document are not read: they follow from its parts.
-/

namespace AccessPolicy

inductive DocumentError where
  | missingField (name : String)
  | unsupportedVersion (found : String)
  | malformed (part : String) (index : Nat) (cause : DecodeError)

def DocumentError.message : DocumentError → String
  | .missingField name => "policy set missing required field: '" ++ name ++ "'"
  | .unsupportedVersion found =>
    "unsupported IR version '" ++ found ++ "' (expected '" ++ PolicySet.version ++ "')"
  | .malformed part index cause => part ++ "[" ++ toString index ++ "]: " ++ cause.message

namespace Decoder

def properties : Decoder PropertyValues := map (list any)

/-- A unit variant by its name, or as the only field of an object, with a null. -/
def effect : Decoder Effect
  | .string s => named s
  | .object [(s, value)] => do
    let e ← named s
    match value with
    | .null => return e
    | j => .error (.wrongType j "unit")
  | .object fields => .error (.wrongValue (.object fields) "map with a single key")
  | j => .error (.wrongType j "string or map")
where
  named (s : String) : Except DecodeError Effect :=
    if s = Effect.allow.text then .ok .allow
    else if s = Effect.deny.text then .ok .deny
    else .error (.unknownVariant s [Effect.allow.text, Effect.deny.text])

end Decoder

namespace RecordSource

variable {α : Type}

def required (s : RecordSource) (f : RecordForm) (index : Nat) (name : String) (d : Decoder α) :
    Except DecodeError α :=
  match s.field? index name with
  | some j => d j
  | none => .error (f.missing s index name)

/-- A field that has a value of its own when it is absent. -/
def defaulted (s : RecordSource) (index : Nat) (name : String) (d : Decoder α) (default : α) :
    Except DecodeError α :=
  match s.field? index name with
  | some j => d j
  | none => .ok default

/-- A field that an object may leave out. A list may not. -/
def optional (s : RecordSource) (f : RecordForm) (index : Nat) (name : String) (d : Decoder α) :
    Except DecodeError (Option α) :=
  match s, s.field? index name with
  | _, some j => d.optional j
  | .named _, none => .ok none
  | .listed _, none => .error (f.missing s index name)

end RecordSource

/-- An entity with a text or a list of texts beside its name, properties and
line. -/
def Role.form : RecordForm :=
  ⟨"RoleDecl", [
    ("name", Decoder.string.check),
    ("permissions", Decoder.string.list.check),
    ("properties", Decoder.properties.check),
    ("line", Decoder.line.check)], .ignored⟩

def Role.ofJson : Decoder Role := fun j => do
  let s ← Role.form.source j
  let name ← s.required form 0 "name" .string
  let permissions ← s.defaulted 1 "permissions" Decoder.string.list []
  let properties ← s.defaulted 2 "properties" .properties []
  let line ← s.required form 3 "line" .line
  s.finish form
  return ⟨name, permissions, properties, line⟩

def User.form : RecordForm :=
  ⟨"UserDecl", [
    ("name", Decoder.string.check),
    ("role", Decoder.string.optional.check),
    ("properties", Decoder.properties.check),
    ("line", Decoder.line.check)], .ignored⟩

def User.ofJson : Decoder User := fun j => do
  let s ← User.form.source j
  let name ← s.required form 0 "name" .string
  let role ← s.optional form 1 "role" .string
  let properties ← s.defaulted 2 "properties" .properties []
  let line ← s.required form 3 "line" .line
  s.finish form
  return ⟨name, role, properties, line⟩

def Resource.form : RecordForm :=
  ⟨"ResourceDecl", [
    ("name", Decoder.string.check),
    ("path", Decoder.string.optional.check),
    ("properties", Decoder.properties.check),
    ("line", Decoder.line.check)], .ignored⟩

def Resource.ofJson : Decoder Resource := fun j => do
  let s ← Resource.form.source j
  let name ← s.required form 0 "name" .string
  let path ← s.optional form 1 "path" .string
  let properties ← s.defaulted 2 "properties" .properties []
  let line ← s.required form 3 "line" .line
  s.finish form
  return ⟨name, path, properties, line⟩

def Policy.form : RecordForm :=
  ⟨"PolicyDecl", [
    ("type", Decoder.effect.check),
    ("actions", Decoder.string.list.check),
    ("resource", Decoder.string.check),
    ("condition", Decoder.string.optional.check),
    ("line", Decoder.line.optional.check),
    ("synthesized", Decoder.bool.check)], .ignored⟩

def Policy.ofJson : Decoder Policy := fun j => do
  let s ← Policy.form.source j
  let effect ← s.required form 0 "type" .effect
  let actions ← s.required form 1 "actions" Decoder.string.list
  let resource ← s.required form 2 "resource" .string
  let condition ← s.optional form 3 "condition" .string
  let line ← s.optional form 4 "line" .line
  let synthesized ← s.defaulted 5 "synthesized" .bool false
  s.finish form
  return ⟨effect, actions, resource, condition, line, synthesized⟩

namespace PolicySet

/-- The parts of a document, in the order they are read. -/
def partNames : List String := ["roles", "users", "resources", "policies"]

def entries (doc : Json) (part : String) : Except DocumentError (List Json) :=
  match (doc.field? part).bind Json.asArray? with
  | some items => .ok items
  | none => .error (.missingField part)

/-- A document without a version is read; any version but the supported one is
refused. -/
def checkVersion (doc : Json) : Except DocumentError Unit :=
  match (doc.field? "metadata").bind fun m => m.field? "version" with
  | none => .ok ()
  | some v =>
    let found := v.asString?.getD ""
    if found = version then .ok () else .error (.unsupportedVersion found)

/-- Decode the entries of a part, up to the first that cannot be. -/
def decodeEntries {α : Type} (part : String) (d : Decoder α) :
    Nat → List Json → Except DocumentError (List α)
  | _, [] => .ok []
  | index, j :: rest =>
    match d j with
    | .error e => .error (.malformed part index e)
    | .ok a => do
      let as ← decodeEntries part d (index + 1) rest
      return a :: as

/-- The policy set of a document: every part is there, then the version is
supported, then every entry can be decoded. -/
def ofJson (doc : Json) : Except DocumentError PolicySet := do
  let roles ← entries doc "roles"
  let users ← entries doc "users"
  let resources ← entries doc "resources"
  let policies ← entries doc "policies"
  checkVersion doc
  return ⟨← decodeEntries "roles" Role.ofJson 0 roles, ← decodeEntries "users" User.ofJson 0 users,
    ← decodeEntries "resources" Resource.ofJson 0 resources,
    ← decodeEntries "policies" Policy.ofJson 0 policies⟩

end PolicySet
end AccessPolicy
