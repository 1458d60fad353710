import AccessPolicy.Json.Basic
import AccessPolicy.Binary64.Shortest
import AccessPolicy.Text.Visible

/-!
# Decoding documents

Decoders take a document to a value or to the first problem met. A record is
written as an object, or as an array of its fields in the order of their
declaration. The fields of an object are looked at in the order of their names,
before any is missed.
-/

namespace AccessPolicy

inductive DecodeError where
  | missingField (name : String)
  | unknownField (name : String) (known : List String)
  | wrongType (found : Json) (expected : String)
  | wrongValue (found : Json) (expected : String)
  | wrongLength (length : Nat) (expected : String)
  | unknownVariant (found : String) (known : List String)

namespace DecodeError

/-- A document by its kind, and by its value if that is short. -/
def described : Json → String
  | .null => "null"
  | .bool b => "boolean `" ++ (if b then "true" else "false") ++ "`"
  | .number (.whole n) => "integer `" ++ toString n ++ "`"
  | .number (.float x) => "floating point `" ++ x.text ++ "`"
  | .string s => "string " ++ Text.quoted s
  | .array _ => "sequence"
  | .object _ => "map"

def choice : List String → String
  | [] => "there are no fields"
  | [a] => "expected `" ++ a ++ "`"
  | [a, b] => "expected `" ++ a ++ "` or `" ++ b ++ "`"
  | names => "expected one of " ++ String.intercalate ", " (names.map fun n => "`" ++ n ++ "`")

def message : DecodeError → String
  | .missingField name => "missing field `" ++ name ++ "`"
  | .unknownField name known => "unknown field `" ++ name ++ "`, " ++ choice known
  | .wrongType found expected => "invalid type: " ++ described found ++ ", expected " ++ expected
  | .wrongValue found expected => "invalid value: " ++ described found ++ ", expected " ++ expected
  | .wrongLength length expected =>
    "invalid length " ++ toString length ++ ", expected " ++ expected
  | .unknownVariant found known => "unknown variant `" ++ found ++ "`, " ++ choice known

end DecodeError

abbrev Decoder (α : Type) := Json → Except DecodeError α

namespace Decoder

variable {α : Type}

def string : Decoder String
  | .string s => .ok s
  | j => .error (.wrongType j "a string")

def bool : Decoder Bool
  | .bool b => .ok b
  | j => .error (.wrongType j "a boolean")

/-- A whole number from `low` to `high`, of a type of the given name. -/
def bounded (low high : Int) (expected : String) : Decoder Int
  | .number (.whole n) =>
    if low ≤ n ∧ n ≤ high then .ok n else .error (.wrongValue (.number (.whole n)) expected)
  | j => .error (.wrongType j expected)

def line : Decoder Nat := fun j => (bounded 0 4294967295 "u32" j).map Int.toNat

/-- A value, or nothing for null. -/
def optional (d : Decoder α) : Decoder (Option α)
  | .null => .ok none
  | j => (d j).map some

def list (d : Decoder α) : Decoder (List α)
  | .array items => items.mapM d
  | j => .error (.wrongType j "a sequence")

def map (d : Decoder α) : Decoder (NameMap α)
  | .object fields => fields.mapM fun f => (d f.2).map fun v => (f.1, v)
  | j => .error (.wrongType j "a map")

def any : Decoder Json := .ok

/-- The decoder for its problem only. -/
def check (d : Decoder α) : Decoder Unit := fun j => (d j).map fun _ => ()

end Decoder

/-- What becomes of the fields of an object that a record does not have. -/
inductive UnknownFields where
  | ignored
  | refused

/-- The form of a record: its name, its fields with what checks each, and what
becomes of fields it does not have. -/
structure RecordForm where
  name : String
  fields : List (String × Decoder Unit)
  unknown : UnknownFields

/-- A document that stands for a record: where its fields are found. -/
inductive RecordSource where
  | named (fields : List (String × Json))
  | listed (items : List Json)

namespace RecordForm

def names (f : RecordForm) : List String := f.fields.map Prod.fst

def checkField (f : RecordForm) (field : String × Json) : Except DecodeError Unit :=
  match NameMap.get? f.fields field.1, f.unknown with
  | some check, _ => check field.2
  | none, .ignored => .ok ()
  | none, .refused => .error (.unknownField field.1 f.names)

/-- The record that a document stands for, with its fields checked if they have
names. -/
def source (f : RecordForm) : Decoder RecordSource
  | .object fields => do
    fields.forM f.checkField
    return .named fields
  | .array items => .ok (.listed items)
  | j => .error (.wrongType j ("struct " ++ f.name))

def missing (f : RecordForm) (s : RecordSource) (index : Nat) (name : String) : DecodeError :=
  match s with
  | .named _ => .missingField name
  | .listed _ =>
    .wrongLength index
      ("struct " ++ f.name ++ " with " ++ toString f.fields.length ++ " elements")

end RecordForm

namespace RecordSource

def field? : RecordSource → Nat → String → Option Json
  | .named fields, _, name => NameMap.get? fields name
  | .listed items, index, _ => items[index]?

/-- A list of fields must not be longer than the record. -/
def finish (s : RecordSource) (f : RecordForm) : Except DecodeError Unit :=
  match s with
  | .named _ => .ok ()
  | .listed items =>
    if f.fields.length < items.length then
      .error (.wrongLength items.length "fewer elements in array")
    else .ok ()

end RecordSource
end AccessPolicy
