import AccessPolicy.Decimal
import AccessPolicy.Json.Text
import AccessPolicy.Text.Visible

/-!
# Attribute values

What an attribute of a request can be. Lists and objects have no type of their
own: they are their text.
-/

namespace AccessPolicy

/-- A value of an attribute. A known attribute that nobody supplies is null. -/
inductive Value where
  | null
  | bool (b : Bool)
  | number (d : Decimal)
  | text (s : String)
deriving DecidableEq

inductive ValueType where
  | null
  | bool
  | number
  | text
deriving DecidableEq

def ValueType.name : ValueType → String
  | .null => "Null"
  | .bool => "Bool"
  | .number => "Number"
  | .text => "Text"

namespace Value

def type : Value → ValueType
  | .null => .null
  | .bool _ => .bool
  | .number _ => .number
  | .text _ => .text

def ofInt (n : Int) : Value := .number (.ofInt n)

def ofOptional : Option String → Value
  | some s => .text s
  | none => .null

/-- The value of a document. A number too large to be a decimal is null. -/
def ofJson : Json → Value
  | .null => .null
  | .bool b => .bool b
  | .number (.whole n) => ofInt n
  | .number (.float x) =>
    match Decimal.ofBinary64 x with
    | some d => .number d
    | none => .null
  | .string s => .text s
  | .array items => .text (Json.array items).compact
  | .object fields => .text (Json.object fields).compact

/-- The value of a property: a list of one is its item. -/
def ofProperty : List Json → Value
  | [] => .null
  | [item] => ofJson item
  | items => .text (Json.array items).compact

def shown : Value → String
  | .null => "null"
  | .bool b => if b then "true" else "false"
  | .number d => d.text
  | .text s => Text.quoted s

/-- The value as a document. A whole number of 64 bits is an integer. -/
def toJson : Value → Json
  | .null => .null
  | .bool b => .bool b
  | .number d =>
    match d.toInt64?, d.toBinary64 with
    | some n, _ => .whole n
    | none, some x => .number (.float x)
    | none, none => .string d.text
  | .text s => .string s

/-- Equality of values. Numbers are compared by value, and values of two types
are never equal. -/
def equal : Value → Value → Bool
  | .null, .null => true
  | .bool a, .bool b => a = b
  | .number a, .number b => a.sameValue b
  | .text a, .text b => a = b
  | _, _ => false

/-- The order of two numbers or of two texts. -/
def order? : Value → Value → Option Ordering
  | .number a, .number b => some (a.order b)
  | .text a, .text b => some (if a < b then .lt else if b < a then .gt else .eq)
  | _, _ => none

end Value
end AccessPolicy
