import AccessPolicy.Json.Basic
import AccessPolicy.Binary64.Shortest

/-!
# JSON as text

`Json.compact` has no blanks; `Json.pretty` has one field or item a line.
Both write every character above the controls as it is.
-/

namespace AccessPolicy
namespace Json

/-- The lowercase hexadecimal digit of a number below sixteen. -/
def hexDigit (n : Nat) : Char := Nat.digitChar n

def escapeChar (c : Char) : String :=
  match c with
  | '"' => "\\\""
  | '\\' => "\\\\"
  | '\n' => "\\n"
  | '\r' => "\\r"
  | '\t' => "\\t"
  | _ =>
    if c.toNat = 8 then "\\b"
    else if c.toNat = 12 then "\\f"
    else if c.toNat < 32 then
      "\\u00" ++ String.ofList [hexDigit (c.toNat / 16), hexDigit (c.toNat % 16)]
    else String.singleton c

def quote (s : String) : String :=
  s.toList.foldl (fun out c => out ++ escapeChar c) "\"" ++ "\""

def Number.text : Number → String
  | .whole n => toString n
  | .float x => x.text

def opening : String := "\x7b"

def closing : String := "\x7d"

mutual

/-- The document on one line without blanks. -/
def compact : Json → String
  | .null => "null"
  | .bool b => if b then "true" else "false"
  | .number n => n.text
  | .string s => quote s
  | .array items => "[" ++ compactItems items ++ "]"
  | .object fields => opening ++ compactFields fields ++ closing

def compactItems : List Json → String
  | [] => ""
  | [item] => compact item
  | item :: next :: rest => compact item ++ "," ++ compactItems (next :: rest)

def compactFields : List (String × Json) → String
  | [] => ""
  | [(name, value)] => quote name ++ ":" ++ compact value
  | (name, value) :: next :: rest =>
    quote name ++ ":" ++ compact value ++ "," ++ compactFields (next :: rest)

end

/-- A line break and the indentation of a depth, two blanks each. -/
def lineBreak (depth : Nat) : String := "\n" ++ String.ofList (List.replicate (2 * depth) ' ')

mutual

def prettyAt (depth : Nat) : Json → String
  | .array [] => "[]"
  | .array (item :: rest) =>
    "[" ++ lineBreak (depth + 1) ++ prettyItems (depth + 1) (item :: rest) ++ lineBreak depth ++ "]"
  | .object [] => opening ++ closing
  | .object (field :: rest) =>
    opening ++ lineBreak (depth + 1) ++ prettyFields (depth + 1) (field :: rest)
      ++ lineBreak depth ++ closing
  | .null => "null"
  | .bool b => if b then "true" else "false"
  | .number n => n.text
  | .string s => quote s

def prettyItems (depth : Nat) : List Json → String
  | [] => ""
  | [item] => prettyAt depth item
  | item :: next :: rest =>
    prettyAt depth item ++ "," ++ lineBreak depth ++ prettyItems depth (next :: rest)

def prettyFields (depth : Nat) : List (String × Json) → String
  | [] => ""
  | [(name, value)] => quote name ++ ": " ++ prettyAt depth value
  | (name, value) :: next :: rest =>
    quote name ++ ": " ++ prettyAt depth value ++ "," ++ lineBreak depth
      ++ prettyFields depth (next :: rest)

end

def pretty (j : Json) : String := prettyAt 0 j

end Json
end AccessPolicy
