import AccessPolicy.CallerContext
import AccessPolicy.Environment
import AccessPolicy.Moment
import AccessPolicy.PolicySet.Basic

/-!
# Attributes of a request

The environment of a request is put together from the built-in attributes
without values, the properties of the user and of the resource, their names and
paths, and what the caller says. What the caller does not say about the time is
read from the clock.
-/

namespace AccessPolicy

def User.attributes (u : User) (role : String) : List (String × Value) :=
  (u.properties.map fun p => (p.1, Value.ofProperty p.2)) ++
    [("name", .text u.name), ("role", .text role)]

def Resource.attributes (r : Resource) : List (String × Value) :=
  (r.properties.map fun p => (p.1, Value.ofProperty p.2)) ++
    [("name", .text r.name), ("path", .ofOptional r.path)]

def TimeFields.attributes (t : TimeFields) (now : Moment) : List (String × Value) := [
  ("hour", .ofInt (t.hour.getD now.hour)),
  ("minute", .ofInt (t.minute.getD now.minute)),
  ("day", .ofInt (t.day.getD now.day)),
  ("month", .ofInt (t.month.getD now.month)),
  ("year", .ofInt (t.year.getD now.year)),
  ("weekday", .text (t.weekday.getD now.weekday)),
  ("date", .text (t.date.getD now.date))]

/-- The headers are one text. -/
def RequestFields.attributes (r : RequestFields) : List (String × Value) := [
  ("ip", .ofOptional r.ip),
  ("method", .ofOptional r.method),
  ("path", .ofOptional r.path),
  ("user_agent", .ofOptional r.userAgent),
  ("headers", .text (headersJson (r.headers.getD [])).compact)]

/-- A device is not trusted unless the caller says so. -/
def DeviceFields.attributes (d : DeviceFields) : List (String × Value) := [
  ("type", .ofOptional d.kind),
  ("trusted", .bool (d.trusted.getD false)),
  ("os", .ofOptional d.os),
  ("browser", .ofOptional d.browser),
  ("location", .ofOptional d.location),
  ("id", .ofOptional d.id)]

/-- The environment of a request by a user in a role for a resource. -/
def Environment.ofRequest (user : User) (role : String) (resource : Resource)
    (context : CallerContext) (now : Moment) : Environment :=
  ((((builtin.setAll "user" (user.attributes role)).setAll "resource" resource.attributes).setAll
    "time" (context.time.attributes now)).setAll "request" context.request.attributes).setAll
    "device" context.device.attributes

end AccessPolicy
