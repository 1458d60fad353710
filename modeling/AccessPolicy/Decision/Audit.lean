import AccessPolicy.Decision.Basic
import AccessPolicy.Moment

/-!
# Documents of decisions

What is shown of a decision, and the record that is kept of it.
-/

namespace AccessPolicy

/-- A policy without the mark of its synthesis. -/
def Policy.summary (p : Policy) : Json :=
  .object [
    ("actions", .strings p.actions),
    ("condition", .optionalString p.condition),
    ("line", .optionalNat p.line),
    ("resource", .string p.resource),
    ("type", .string p.effect.text)]

def Decision.toJson (d : Decision) : Json :=
  .object [
    ("action", .string d.request.action),
    ("allowed", .bool d.allowed),
    ("decision", .string d.effect.text),
    ("evaluation_context", (d.environment.map Environment.toJson).getD .null),
    ("matched_policies", .array (d.matched.map Policy.summary)),
    ("reason", .string d.reason.text),
    ("resource", .string d.request.resource),
    ("user", .string d.request.user)]

structure AuditRecord where
  timestamp : String
  request : Request
  allowed : Bool
  reason : String

def Decision.audit (d : Decision) (now : Moment) : AuditRecord :=
  ⟨now.stamp, d.request, d.allowed, d.reason.text⟩

def AuditRecord.toJson (r : AuditRecord) : Json :=
  .object [
    ("action", .string r.request.action),
    ("allowed", .bool r.allowed),
    ("reason", .string r.reason),
    ("resource", .string r.request.resource),
    ("timestamp", .string r.timestamp),
    ("user", .string r.request.user)]

end AccessPolicy
