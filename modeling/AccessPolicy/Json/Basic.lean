import AccessPolicy.Binary64.Basic
import AccessPolicy.NameMap

/-!
# JSON documents

A whole number is kept apart from a binary64 number, as in `1` and `1.0`.
-/

namespace AccessPolicy

inductive Json.Number where
  | whole (n : Int)
  | float (x : Binary64)
deriving DecidableEq, Inhabited

/-- A JSON document. One that is read or exchanged lists the fields of an object
in the order of their names; one that is only shown may list them in an order of
its own. -/
inductive Json where
  | null
  | bool (b : Bool)
  | number (n : Json.Number)
  | string (s : String)
  | array (items : List Json)
  | object (fields : List (String × Json))
deriving Inhabited

namespace Json

def whole (n : Int) : Json := .number (.whole n)

def nat (n : Nat) : Json := whole n

def optionalString : Option String → Json
  | some s => .string s
  | none => .null

def optionalNat : Option Nat → Json
  | some n => nat n
  | none => .null

def strings (texts : List String) : Json := .array (texts.map .string)

/-- The object of some fields, put in order. -/
def ofFields (fields : List (String × Json)) : Json := .object (NameMap.ofList fields)

/-- The value of a field; none for what is no object. -/
def field? : Json → String → Option Json
  | .object fields, name => NameMap.get? fields name
  | _, _ => none

def asString? : Json → Option String
  | .string s => some s
  | _ => none

def asArray? : Json → Option (List Json)
  | .array items => some items
  | _ => none

end Json
end AccessPolicy
