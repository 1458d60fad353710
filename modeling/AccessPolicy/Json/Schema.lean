import AccessPolicy.Json.Text

/-!
# Schemas of documents

A schema is satisfied by a document in which no fault is found. A rule says
nothing about values of a kind that it is not for, so what has to be of a kind
has a rule for that too. A number with a fraction of zero is an integer.
-/

namespace AccessPolicy

/-- The kinds of values. An integer is a number as well. -/
inductive Json.Kind where
  | null
  | boolean
  | integer
  | number
  | string
  | array
  | object
deriving DecidableEq

namespace Json

def Kind.name : Kind → String
  | .null => "null"
  | .boolean => "boolean"
  | .integer => "integer"
  | .number => "number"
  | .string => "string"
  | .array => "array"
  | .object => "object"

def isOfKind : Json → Kind → Bool
  | .null, .null => true
  | .bool _, .boolean => true
  | .number _, .number => true
  | .number (.whole _), .integer => true
  | .number (.float x), .integer => x.isWhole
  | .string _, .string => true
  | .array _, .array => true
  | .object _, .object => true
  | _, _ => false

def Number.toRat : Number → Rat
  | .whole n => (n : Rat)
  | .float x => x.toRat

end Json

inductive SchemaFault where
  | wrongKind (found : Json) (kinds : List Json.Kind)
  | missingField (name : String)
  | unexpectedFields (names : List String)
  | belowMinimum (found : Json) (minimum : Int)
  | tooFewItems (found : Json) (least : Nat)
  | tooShort (found : Json) (least : Nat)
  | noIdentifier (found : Json)
  | notAmong (found : Json) (options : List String)
  | notExpected (expected : String)
  | noAlternative (found : Json)

namespace SchemaFault

def count (n : Nat) (thing : String) : String :=
  toString n ++ " " ++ thing ++ (if n = 1 then "" else "s")

/-- Up to three options, or the first two and the number of the others. -/
def choice (options : List String) : String :=
  match options.map Json.quote with
  | [a] => a
  | [a, b] => a ++ " or " ++ b
  | [a, b, c] => a ++ ", " ++ b ++ " or " ++ c
  | a :: b :: rest => a ++ ", " ++ b ++ " or " ++ toString rest.length ++ " other candidates"
  | [] => ""

def kindList (kinds : List Json.Kind) : String :=
  let names := NameMap.names (NameMap.ofList (kinds.map fun k => (k.name, ())))
  (if names.length = 1 then "type " else "types ") ++
    String.intercalate ", " (names.map Json.quote)

def identifierPattern : String := "^[A-Za-z_][A-Za-z0-9_]*$"

def message : SchemaFault → String
  | .wrongKind found kinds => found.compact ++ " is not of " ++ kindList kinds
  | .missingField name => Json.quote name ++ " is a required property"
  | .unexpectedFields names =>
    "Additional properties are not allowed (" ++
      String.intercalate ", " (names.map fun n => "'" ++ n ++ "'") ++
      (if names.length = 1 then " was" else " were") ++ " unexpected)"
  | .belowMinimum found minimum =>
    found.compact ++ " is less than the minimum of " ++ toString minimum
  | .tooFewItems found least => found.compact ++ " has less than " ++ count least "item"
  | .tooShort found least => found.compact ++ " is shorter than " ++ count least "character"
  | .noIdentifier found => found.compact ++ " does not match \"" ++ identifierPattern ++ "\""
  | .notAmong found options => found.compact ++ " is not one of " ++ choice options
  | .notExpected expected => Json.quote expected ++ " was expected"
  | .noAlternative found =>
    found.compact ++ " is not valid under any of the schemas listed in the 'oneOf' keyword"

end SchemaFault

/-- A rule about a single value. -/
inductive SchemaRule where
  | kinds (ks : List Json.Kind)
  | minimum (n : Int)
  | minLength (n : Nat)
  | identifier
  | among (options : List String)
  | exactly (text : String)

/-- Does the text begin with a letter or an underscore, and go on with letters,
digits and underscores? -/
def isIdentifierText (s : String) : Bool :=
  match s.toList with
  | c :: rest => (c.isAlpha || c = '_') && rest.all fun d => d.isAlphanum || d = '_'
  | [] => false

def SchemaRule.faults (rule : SchemaRule) (j : Json) : List SchemaFault :=
  match rule, j with
  | .kinds ks, j => if ks.any j.isOfKind then [] else [.wrongKind j ks]
  | .minimum n, .number x => if x.toRat < (n : Rat) then [.belowMinimum j n] else []
  | .minLength n, .string s => if s.length < n then [.tooShort j n] else []
  | .identifier, .string s => if isIdentifierText s then [] else [.noIdentifier j]
  | .among options, .string s => if s ∈ options then [] else [.notAmong j options]
  | .among options, j => [.notAmong j options]
  | .exactly text, .string s => if s = text then [] else [.notExpected text]
  | .exactly text, _ => [.notExpected text]
  | _, _ => []

/-- The schema of a document. A record has no other fields than its own, and an
`either` takes exactly one of its schemas. -/
inductive Schema where
  | value (rules : List SchemaRule)
  | array (least : Nat) (item : Schema)
  | record (required : List String) (fields : List (String × Schema))
  | map (entry : Schema)
  | either (options : List Schema)

namespace Schema

mutual

/-- What a schema finds: the kind of the value, then the fields that are missing,
then each field or item in turn, then the fields that are not expected. -/
def faults : Schema → Json → List SchemaFault
  | .value rules, j => rules.flatMap fun r => r.faults j
  | .array least item, .array items =>
    (if items.length < least then [.tooFewItems (.array items) least] else []) ++
      items.flatMap (faults item)
  | .array _ _, j => [.wrongKind j [.array]]
  | .record required fields, .object entries =>
    let missing := required.filter fun n => !NameMap.contains entries n
    let unexpected := (entries.map Prod.fst).filter fun n => !NameMap.contains fields n
    missing.map .missingField ++ entries.flatMap (fun e => fieldFaults fields e.1 e.2) ++
      (if unexpected.isEmpty then [] else [.unexpectedFields unexpected])
  | .record _ _, j => [.wrongKind j [.object]]
  | .map entry, .object entries => entries.flatMap fun e => faults entry e.2
  | .map _, j => [.wrongKind j [.object]]
  | .either options, j => if satisfiedCount options j = 1 then [] else [.noAlternative j]

def fieldFaults : List (String × Schema) → String → Json → List SchemaFault
  | [], _, _ => []
  | (n, schema) :: rest, name, j =>
    if n = name then faults schema j else fieldFaults rest name j

def satisfiedCount : List Schema → Json → Nat
  | [], _ => 0
  | schema :: rest, j =>
    (if (faults schema j).isEmpty then 1 else 0) + satisfiedCount rest j

end

def accepts (schema : Schema) (j : Json) : Bool := (schema.faults j).isEmpty

end Schema
end AccessPolicy
