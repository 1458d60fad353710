import AccessPolicy.Expr.Text
import AccessPolicy.Program.Basic

/-!
# Program listings

A program as text, one statement a line.
-/

namespace AccessPolicy

/-- A property; a single value stands without brackets. -/
def propertyListing (key : String) (values : List Literal) : String :=
  match values.map Literal.plain with
  | [text] => key ++ ": " ++ text
  | texts => key ++ ": [" ++ String.intercalate ", " texts ++ "]"

def Properties.listing (properties : Properties) : String :=
  "\x7b" ++ String.intercalate ", " (properties.map fun p => propertyListing p.1 p.2) ++ "\x7d"

def DefinitionKind.label : DefinitionKind → String
  | .role => "Role"
  | .user => "User"
  | .resource => "Resource"

def Rule.listing (r : Rule) : String :=
  let condition := match r.condition with
    | some e => ", condition=" ++ e.listing
    | none => ""
  "Policy(type=" ++ r.effect.text ++ ", actions=[" ++ String.intercalate ", " r.actions
    ++ "], resource=" ++ r.resource ++ condition ++ ", line=" ++ toString r.line ++ ")"

def Statement.listing : Statement → String
  | .definition kind d =>
    kind.label ++ "(name=" ++ d.name ++ ", properties=" ++ Properties.listing d.properties
      ++ ", line=" ++ toString d.line ++ ")"
  | .rule r => r.listing

def Program.listing (p : Program) : String :=
  "Program(\n  " ++ String.intercalate ",\n  " (p.statements.map Statement.listing) ++ "\n)"

end AccessPolicy
