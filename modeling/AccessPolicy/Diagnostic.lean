import AccessPolicy.Json.Basic

/-!
# Diagnostics

Messages about a source text, each tied to a line.
-/

namespace AccessPolicy

/-- How serious a diagnostic is. Only an error keeps a program from being
compiled. -/
inductive Severity where
  | error
  | warning
  | risk
deriving DecidableEq

def Severity.label : Severity → String
  | .error => "ERROR"
  | .warning => "WARNING"
  | .risk => "RISK"

/-- What a diagnostic is about: characters, grammar or meaning. -/
inductive Stage where
  | lexical
  | grammatical
  | semantic
deriving DecidableEq

def Stage.label : Stage → String
  | .lexical => "lexical"
  | .grammatical => "syntax"
  | .semantic => "semantic"

structure Diagnostic where
  line : Nat
  severity : Severity
  message : String
  stage : Stage
deriving DecidableEq

namespace Diagnostic

def isError (d : Diagnostic) : Bool := d.severity = .error

def text (d : Diagnostic) : String :=
  "[" ++ d.severity.label ++ "] line " ++ toString d.line ++ ": " ++ d.message

def toJson (d : Diagnostic) : Json :=
  .object [
    ("line", .nat d.line),
    ("message", .string d.message),
    ("stage", .string d.stage.label),
    ("type", .string d.severity.label)]

end Diagnostic
end AccessPolicy
