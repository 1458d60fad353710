import AccessPolicy.PolicySet.Decode

/-!
# Context from a caller

What a caller may say about the time, the request and the device of an access.
Every field may be left out, and no other field is allowed.
-/

namespace AccessPolicy

structure TimeFields where
  hour : Option Nat := none
  minute : Option Nat := none
  day : Option Nat := none
  month : Option Nat := none
  year : Option Int := none
  weekday : Option String := none
  date : Option String := none
deriving DecidableEq

structure RequestFields where
  ip : Option String := none
  method : Option String := none
  path : Option String := none
  headers : Option (NameMap String) := none
  userAgent : Option String := none
deriving DecidableEq

structure DeviceFields where
  kind : Option String := none
  trusted : Option Bool := none
  os : Option String := none
  browser : Option String := none
  location : Option String := none
  id : Option String := none
deriving DecidableEq

structure CallerContext where
  time : TimeFields := {}
  request : RequestFields := {}
  device : DeviceFields := {}
deriving DecidableEq

namespace Decoder

def octet : Decoder Nat := fun j => (bounded 0 255 "u8" j).map Int.toNat

def signed32 : Decoder Int := bounded (-2147483648) 2147483647 "i32"

end Decoder

/-- A field that may be left out, of an object and of a list. -/
def RecordSource.omissible {α : Type} (s : RecordSource) (index : Nat) (name : String)
    (d : Decoder α) : Except DecodeError (Option α) :=
  s.defaulted index name d.optional none

namespace TimeFields

def form : RecordForm :=
  ⟨"TimeContext", [
    ("hour", Decoder.octet.optional.check),
    ("minute", Decoder.octet.optional.check),
    ("day", Decoder.octet.optional.check),
    ("month", Decoder.octet.optional.check),
    ("year", Decoder.signed32.optional.check),
    ("weekday", Decoder.string.optional.check),
    ("date", Decoder.string.optional.check)], .refused⟩

def ofJson : Decoder TimeFields := fun j => do
  let s ← form.source j
  let hour ← s.omissible 0 "hour" .octet
  let minute ← s.omissible 1 "minute" .octet
  let day ← s.omissible 2 "day" .octet
  let month ← s.omissible 3 "month" .octet
  let year ← s.omissible 4 "year" .signed32
  let weekday ← s.omissible 5 "weekday" .string
  let date ← s.omissible 6 "date" .string
  s.finish form
  return ⟨hour, minute, day, month, year, weekday, date⟩

def toJson (t : TimeFields) : Json :=
  .object [
    ("date", .optionalString t.date),
    ("day", .optionalNat t.day),
    ("hour", .optionalNat t.hour),
    ("minute", .optionalNat t.minute),
    ("month", .optionalNat t.month),
    ("weekday", .optionalString t.weekday),
    ("year", (t.year.map Json.whole).getD .null)]

end TimeFields

namespace RequestFields

def form : RecordForm :=
  ⟨"RequestContext", [
    ("ip", Decoder.string.optional.check),
    ("method", Decoder.string.optional.check),
    ("path", Decoder.string.optional.check),
    ("headers", Decoder.string.map.optional.check),
    ("user_agent", Decoder.string.optional.check)], .refused⟩

def ofJson : Decoder RequestFields := fun j => do
  let s ← form.source j
  let ip ← s.omissible 0 "ip" .string
  let method ← s.omissible 1 "method" .string
  let path ← s.omissible 2 "path" .string
  let headers ← s.omissible 3 "headers" Decoder.string.map
  let userAgent ← s.omissible 4 "user_agent" .string
  s.finish form
  return ⟨ip, method, path, headers, userAgent⟩

def headersJson (headers : NameMap String) : Json :=
  .object (headers.map fun h => (h.1, .string h.2))

def toJson (r : RequestFields) : Json :=
  .object [
    ("headers", (r.headers.map headersJson).getD .null),
    ("ip", .optionalString r.ip),
    ("method", .optionalString r.method),
    ("path", .optionalString r.path),
    ("user_agent", .optionalString r.userAgent)]

end RequestFields

namespace DeviceFields

def form : RecordForm :=
  ⟨"DeviceContext", [
    ("type", Decoder.string.optional.check),
    ("trusted", Decoder.bool.optional.check),
    ("os", Decoder.string.optional.check),
    ("browser", Decoder.string.optional.check),
    ("location", Decoder.string.optional.check),
    ("id", Decoder.string.optional.check)], .refused⟩

def ofJson : Decoder DeviceFields := fun j => do
  let s ← form.source j
  let kind ← s.omissible 0 "type" .string
  let trusted ← s.omissible 1 "trusted" .bool
  let os ← s.omissible 2 "os" .string
  let browser ← s.omissible 3 "browser" .string
  let location ← s.omissible 4 "location" .string
  let id ← s.omissible 5 "id" .string
  s.finish form
  return ⟨kind, trusted, os, browser, location, id⟩

def toJson (d : DeviceFields) : Json :=
  .object [
    ("browser", .optionalString d.browser),
    ("id", .optionalString d.id),
    ("location", .optionalString d.location),
    ("os", .optionalString d.os),
    ("trusted", (d.trusted.map Json.bool).getD .null),
    ("type", .optionalString d.kind)]

end DeviceFields

namespace CallerContext

def form : RecordForm :=
  ⟨"AccessContext", [
    ("time", Decoder.check TimeFields.ofJson),
    ("request", Decoder.check RequestFields.ofJson),
    ("device", Decoder.check DeviceFields.ofJson)], .refused⟩

def ofJson : Decoder CallerContext := fun j => do
  let s ← form.source j
  let time ← s.defaulted 0 "time" TimeFields.ofJson {}
  let request ← s.defaulted 1 "request" RequestFields.ofJson {}
  let device ← s.defaulted 2 "device" DeviceFields.ofJson {}
  s.finish form
  return ⟨time, request, device⟩

def toJson (c : CallerContext) : Json :=
  .object [
    ("device", c.device.toJson),
    ("request", c.request.toJson),
    ("time", c.time.toJson)]

end CallerContext
end AccessPolicy
