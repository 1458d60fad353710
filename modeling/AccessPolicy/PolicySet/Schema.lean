import AccessPolicy.Json.Schema
import AccessPolicy.PolicySet.Basic

/-!
# The schema of policy sets

What a document has to look like to be exchanged as a policy set.
-/

namespace AccessPolicy
namespace PolicySet

namespace Schema

def text : Schema := .value [.kinds [.string]]

def optionalText : Schema := .value [.kinds [.string, .null]]

def name : Schema := .value [.kinds [.string], .identifier]

def line : Schema := .value [.kinds [.integer], .minimum 1]

def count : Schema := .value [.kinds [.integer], .minimum 0]

def action : Schema :=
  .value [.kinds [.string],
    .among ["read", "write", "delete", "execute", "create", "update", "list", "*"]]

def properties : Schema := .map (.array 1 (.value [.kinds [.string, .number, .boolean]]))

def role : Schema :=
  .record ["name", "permissions", "properties", "line"] [
    ("name", name),
    ("permissions", .array 0 action),
    ("properties", properties),
    ("line", line)]

def user : Schema :=
  .record ["name", "role", "properties", "line"] [
    ("name", name),
    ("role", optionalText),
    ("properties", properties),
    ("line", line)]

def resource : Schema :=
  .record ["name", "path", "properties", "line"] [
    ("name", name),
    ("path", optionalText),
    ("properties", properties),
    ("line", line)]

def policy : Schema :=
  .record ["type", "actions", "resource", "condition", "line"] [
    ("type", .value [.among [Effect.allow.text, Effect.deny.text]]),
    ("actions", .array 1 action),
    ("resource", .value [.kinds [.string], .minLength 1]),
    ("condition", optionalText),
    ("line", .either [line, .value [.kinds [.null]]]),
    ("synthesized", .value [.kinds [.boolean]])]

def counts : Schema :=
  .record ["roles", "users", "resources", "policies"] [
    ("roles", count),
    ("users", count),
    ("resources", count),
    ("policies", count),
    ("synthesized_policies", count)]

def metadata : Schema :=
  .record ["version", "counts"] [
    ("version", .value [.exactly version]),
    ("counts", counts)]

end Schema

def schema : Schema :=
  .record ["roles", "users", "resources", "policies", "metadata"] [
    ("roles", .array 0 Schema.role),
    ("users", .array 0 Schema.user),
    ("resources", .array 0 Schema.resource),
    ("policies", .array 0 Schema.policy),
    ("metadata", Schema.metadata)]

end PolicySet
end AccessPolicy
