import AccessPolicy.CommandLine.Arguments
import AccessPolicy.Diagnostic
import AccessPolicy.Json.Text

/-!
# Outcomes of commands

What a command writes to its two channels, and its exit code.
-/

namespace AccessPolicy

structure Outcome where
  code : Nat := 0
  stdout : String := ""
  stderr : String := ""
deriving DecidableEq

def lines (texts : List String) : String := String.join (texts.map (· ++ "\n"))

namespace Outcome

def printed (texts : List String) : Outcome := { stdout := lines texts }

/-- The outcome as that of a failure, with some more on the error channel. -/
def failing (o : Outcome) (stderr : String) : Outcome :=
  { o with code := 1, stderr := o.stderr ++ stderr }

end Outcome

namespace Style

/-- Is text written that is not essential? -/
def verbose (s : Style) : Bool := s.format = .text && !s.quiet

/-- What is written of a problem: nothing when quiet. -/
def problemText (s : Style) (message : String) : String :=
  if s.quiet then ""
  else
    match s.format with
    | .text => lines [message]
    | .json => lines [(Json.object [("error", .string message)]).compact]

def problem (s : Style) (message : String) : Outcome := Outcome.failing {} (s.problemText message)

/-- What is written of diagnostics that made a command fail. As text they are
left out when quiet. -/
def diagnosticsText (s : Style) (ds : List Diagnostic) : String :=
  match s.format with
  | .text => if s.quiet then "" else lines (ds.map Diagnostic.text)
  | .json =>
    lines [(Json.object [
      ("diagnostics", .array (ds.map Diagnostic.toJson)), ("success", .bool false)]).pretty]

end Style
end AccessPolicy
