import AccessPolicy.Diagnostic
import AccessPolicy.Shorter
import AccessPolicy.Token.Basic

/-!
# Unexpected tokens

Reading tokens fails in one way only: something was expected and the next token
is not that. `Unexpected` holds what was expected and the tokens from there on.
-/

namespace AccessPolicy

/-- What the grammar asks for at a place. -/
inductive Expectation where
  | statement
  | definitionName
  | leftBrace
  | rightBrace
  | propertyName
  | colon
  | value
  | actionValue
  | separator
  | actionWord
  | onWord
  | resourceWord
  | resource
  | segment
  | conditionStart
  | rightParen
  | attributeName
  | operand
  | conditionEnd
deriving DecidableEq

def Expectation.text : Expectation → String
  | .statement => "ROLE, USER, RESOURCE, ALLOW or DENY"
  | .definitionName => "a definition name"
  | .leftBrace => "'\x7b'"
  | .rightBrace => "'\x7d'"
  | .propertyName => "a property name or '\x7d'"
  | .colon => "':'"
  | .value => "a value"
  | .actionValue => "action (read, write, delete, execute, create, update, list) or '*'"
  | .separator => "',' or '\x7d'"
  | .actionWord => "'action'"
  | .onWord => "ON"
  | .resourceWord => "RESOURCE"
  | .resource => "a resource name, string or dotted path"
  | .segment => "a path segment or '*'"
  | .conditionStart => "'(' after IF"
  | .rightParen => "')'"
  | .attributeName => "an attribute name"
  | .operand => "an attribute, literal or '('"
  | .conditionEnd => "end of condition"

/-- Something was expected where the tokens `found` begin. -/
structure Unexpected where
  expected : Expectation
  found : List Located
deriving DecidableEq

namespace Unexpected

/-- The failure as a diagnostic, in a text that ends on `endLine`. -/
def diagnostic (endLine : Nat) (u : Unexpected) : Diagnostic :=
  match u.found with
  | [] =>
    ⟨endLine, .error, "unexpected end of input, expected " ++ u.expected.text, .grammatical⟩
  | t :: _ =>
    ⟨t.line, .error,
      "unexpected token '" ++ t.token.text ++ "' (type: " ++ t.token.kind ++ "), expected "
        ++ u.expected.text, .grammatical⟩

end Unexpected

/-- What reading some tokens gives: a result and the tokens after it. -/
abbrev Reading (α : Type) (ts : List Located) := Except Unexpected (α × Shorter ts)

namespace Reading

def expect (token : Token) (expected : Expectation) :
    (ts : List Located) → Except Unexpected (Shorter ts)
  | [] => .error ⟨expected, []⟩
  | t :: rest =>
    if t.token = token then .ok Shorter.tail else .error ⟨expected, t :: rest⟩

def identifier (expected : Expectation) : (ts : List Located) → Reading String ts
  | ⟨.ident name, _⟩ :: _ => .ok (name, Shorter.tail)
  | ts => .error ⟨expected, ts⟩

end Reading
end AccessPolicy
