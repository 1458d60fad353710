import AccessPolicy.CommandLine.Outcome
import AccessPolicy.Compilation
import AccessPolicy.Decision.Audit
import AccessPolicy.Decision.Permissions
import AccessPolicy.Json.Reader
import AccessPolicy.Manifest
import AccessPolicy.OptionsFile
import AccessPolicy.PolicySet.Decode
import AccessPolicy.PolicySet.Schema

/-!
# Commands

Each command reads its files, and ends in an outcome. What it needs of its
surroundings, the contents of files and the time, is given by a `Surroundings`
of any monad.
-/

namespace AccessPolicy

inductive FileError where
  | missing
  | isDirectory
  | notText
  | other (message : String)
deriving DecidableEq

def FileError.message : FileError → String
  | .missing => "No such file or directory (os error 2)"
  | .isDirectory => "Is a directory (os error 21)"
  | .notText => "stream did not contain valid UTF-8"
  | .other message => message

/-- Access to files and to the clock. -/
structure Surroundings (m : Type → Type) where
  readFile : String → m (Except FileError String)
  now : m Moment

namespace CommandLine

variable {m : Type → Type} [Monad m]

/-- A computation that may end early, in an outcome. -/
abbrev Run (m : Type → Type) := ExceptT Outcome m

def readFile (w : Surroundings m) (s : Style) (path : String) : Run m String := do
  match ← w.readFile path with
  | .ok text => return text
  | .error e => throw (s.problem ("error reading file '" ++ path ++ "': " ++ e.message))

def readDocument (w : Surroundings m) (s : Style) (path : String) : Run m Json := do
  match Json.parse (← readFile w s path) with
  | .ok doc => return doc
  | .error e => throw (s.problem ("error parsing JSON in '" ++ path ++ "': " ++ e))

def readOptions (w : Surroundings m) (s : Style) : Option String → Run m Options
  | none => return {}
  | some path => do
    match Options.ofToml (← readFile w s path) with
    | .ok o => return o
    | .error e => throw (s.problem ("error in config '" ++ path ++ "': " ++ e.message))

/-! ## Sources -/

def padRight (width : Nat) (s : String) : String :=
  s ++ String.ofList (List.replicate (width - s.length) ' ')

def padLeft (width : Nat) (s : String) : String :=
  String.ofList (List.replicate (width - s.length) ' ') ++ s

def tokenLine (t : Located) : String :=
  padLeft 4 (toString t.line) ++ "  " ++ padRight 12 t.token.kind ++ " " ++ t.token.text

/-- A token as a document, in the order of its columns. -/
def tokenJson (t : Located) : Json :=
  .object [
    ("type", .string t.token.kind), ("value", .string t.token.text), ("line", .nat t.line)]

def tokenize (s : Style) (source : String) : Outcome :=
  let (stream, faults) := TokenStream.scan source
  let listing : Outcome :=
    match s.format with
    | .text => .printed (stream.tokens.map tokenLine)
    | .json => .printed [(Json.array (stream.tokens.map tokenJson)).pretty]
  if faults.isEmpty then listing else listing.failing (s.diagnosticsText faults)

def parse (s : Style) (o : Options) (source : String) : Outcome :=
  let (stream, faults) := TokenStream.scan source
  match Program.ofTokens o.maxErrors stream with
  | .error errors => Outcome.failing {} (s.diagnosticsText (faults ++ errors))
  | .ok program =>
    let listing : Outcome :=
      match s.format with
      | .text => .printed [program.listing]
      | .json => .printed [(Json.object [("ast", .string program.listing)]).pretty]
    if faults.isEmpty then listing else listing.failing (s.diagnosticsText faults)

def conflictLine (c : Conflict) : String :=
  "[CONFLICT] " ++ c.kind.label ++ " (risk " ++ toString c.kind.riskScore ++ "): " ++ c.description

def summary (r : Report) : List String :=
  (toString r.declarations.roles.length ++ " roles, "
    ++ toString r.declarations.users.length ++ " users, "
    ++ toString r.declarations.resources.length ++ " resources, "
    ++ toString r.declarations.rules.length ++ " policies; "
    ++ toString r.conflicts.length ++ " conflicts, "
    ++ toString r.securityRisks ++ " security risks")
  :: r.recommendations.map ("  - " ++ ·)

def check (s : Style) (o : Options) (source : String) : Outcome :=
  let c := AccessPolicy.compile o source
  let failed := !c.errors.isEmpty
  let texts :=
    match s.format with
    | .json =>
      [(Json.object [
        ("diagnostics", .array (c.diagnostics.map Diagnostic.toJson)),
        ("report", (c.report.map Report.toJson).getD .null),
        ("success", .bool !failed)]).pretty]
    | .text =>
      let findings :=
        match c.report with
        | none => []
        | some r => r.conflicts.map conflictLine ++ if s.quiet then [] else summary r
      c.diagnostics.map Diagnostic.text ++ findings ++
        if s.quiet then [] else [if failed then "failed" else "ok"]
  let printed := Outcome.printed texts
  if failed then printed.failing "" else printed

/-- The policy set of a program, in a manifest if it is asked for. -/
def compile (s : Style) (o : Options) (manifest : Bool) (source : String) : Outcome :=
  let c := AccessPolicy.compile o source
  match c.policySet with
  | none => Outcome.failing {} (s.diagnosticsText c.diagnostics)
  | some set =>
    let doc := if manifest then Manifest.wrap set.toJson else set.toJson
    { stdout := lines [doc.pretty]
      stderr := if s.verbose then lines (c.diagnostics.map Diagnostic.text) else "" }

/-! ## Documents -/

/-- Check a document, or the content of a manifest, against the schema. -/
def validate (s : Style) (doc : Json) : Outcome :=
  let isManifest := Manifest.isManifest doc
  let type := if isManifest then "manifest" else "ir"
  let errors :=
    (if isManifest then (Manifest.check doc).map Manifest.Fault.message else []) ++
      (PolicySet.schema.faults (Manifest.content doc)).map SchemaFault.message
  if errors.isEmpty then
    if s.quiet then {}
    else
      match s.format with
      | .text => .printed ["valid " ++ type]
      | .json =>
        .printed [(Json.object [("type", .string type), ("valid", .bool true)]).pretty]
  else
    match s.format with
    | .text =>
      Outcome.failing {}
        (if s.quiet then "" else lines (("invalid " ++ type) :: errors.map ("  - " ++ ·)))
    | .json =>
      Outcome.failing {} (lines [(Json.object [
        ("errors", .strings errors), ("type", .string type), ("valid", .bool false)]).pretty])

/-! ## Requests -/

/-- The last component of a path, if it is a name. -/
def fileName? (path : String) : Option String :=
  ((path.splitOn "/").filter fun part => part ≠ "" ∧ part ≠ ".").getLast?.filter (· ≠ "..")

/-- Does a path name a source? Its name ends in `.spl`, and does not begin
there. -/
def isSource (path : String) : Bool :=
  match fileName? path with
  | some name => name.endsWith ".spl" && name ≠ ".spl"
  | none => false

/-- Read a policy set from a source, a document or a manifest. -/
def readPolicySet (w : Surroundings m) (s : Style) (o : Options) (path : String) :
    Run m PolicySet := do
  if isSource path then
    let c := AccessPolicy.compile o (← readFile w s path)
    match c.policySet with
    | some set => return set
    | none => throw (Outcome.failing {} (s.diagnosticsText c.diagnostics))
  else
    match PolicySet.ofJson (Manifest.content (← readDocument w s path)) with
    | .ok set => return set
    | .error e => throw (s.problem ("error loading policy set '" ++ path ++ "': " ++ e.message))

def readContext (w : Surroundings m) (s : Style) : Option String → Run m CallerContext
  | none => return {}
  | some path => do
    match CallerContext.ofJson (← readDocument w s path) with
    | .ok c => return c
    | .error e => throw (s.problem ("error in context '" ++ path ++ "': " ++ e.message))

def policyLine (p : Policy) : String :=
  p.effect.text ++ " [" ++ String.intercalate ", " p.actions ++ "] ON " ++ p.resource ++ " IF "
    ++ p.condition.getD "always"

def matchedLine (p : Policy) : String :=
  let line :=
    match p.line with
    | some n => "line " ++ toString n
    | none => "synthesized"
  "  matched " ++ policyLine p ++ " (" ++ line ++ ")"

def auditLine (r : AuditRecord) : String :=
  "audit: " ++ r.timestamp ++ " " ++ r.request.user ++ " " ++ r.request.action ++ " "
    ++ r.request.resource ++ " -> " ++ (if r.allowed then "allowed" else "denied")

/-- A decision and its audit record. -/
def decision (s : Style) (d : Decision) (audit : Option AuditRecord) : Outcome :=
  match s.format with
  | .json =>
    let record := (audit.map fun r => ("audit", r.toJson)).toList
    .printed [(Json.object (record ++ [("decision", d.toJson)])).pretty]
  | .text =>
    let details :=
      if s.quiet then [] else d.matched.map matchedLine ++ (audit.map auditLine).toList
    .printed ((d.effect.text ++ ": " ++ d.reason.text) :: details)

def permissions (s : Style) (p : Permissions) : Outcome :=
  match s.format with
  | .json => .printed [p.toJson.pretty]
  | .text =>
    .printed ([
      "user: " ++ p.username,
      "role: " ++ p.role.getD "(none)",
      "permissions: " ++ String.intercalate ", " p.granted,
      "applicable policies: " ++ toString p.applicable.length] ++
      if s.quiet then [] else p.applicable.map fun q => "  " ++ policyLine q)

/-! ## Invocations -/

def runCommand (w : Surroundings m) (s : Style) (o : Options) : Command → Run m Outcome
  | .tokenize file => return tokenize s (← readFile w s file)
  | .parse file => return parse s o (← readFile w s file)
  | .check file => return check s o (← readFile w s file)
  | .compile file manifest => return compile s o manifest (← readFile w s file)
  | .validate file => return validate s (← readDocument w s file)
  | .eval query => do
    let engine := Engine.load (← readPolicySet w s o query.policy)
    let context ← readContext w s query.context
    let now ← w.now
    let d := engine.decide query.request context now
    return decision s d (if query.audit then some (d.audit now) else none)
  | .permissions policy user => do
    let engine := Engine.load (← readPolicySet w s o policy)
    match engine.permissions? user with
    | some p => return permissions s p
    | none => throw (s.problem ("User '" ++ user ++ "' not found"))

/-- Run an invocation: its options are read first. -/
def runInvocation (w : Surroundings m) (i : Invocation) : m Outcome := do
  let run : Run m Outcome := do
    let o ← readOptions w i.style i.settings
    runCommand w i.style o i.command
  match ← run.run with
  | .ok outcome => return outcome
  | .error outcome => return outcome

def usage : String :=
  lines [
    "Usage: spl [--output text|json] [--quiet] [--config FILE] COMMAND",
    "",
    "Commands:",
    "  tokenize FILE                 List the tokens of a source",
    "  parse FILE                    Print the listing of a program",
    "  check FILE                    Report what is found in a program",
    "  compile FILE [--manifest]     Compile a program to a policy set",
    "  validate FILE                 Check a policy set or a manifest",
    "  eval FILE --user USER --action ACTION --resource RESOURCE",
    "       [--context FILE] [--audit]",
    "                                Decide a request",
    "  permissions FILE --user USER  Show what a user could be granted"]

def run (w : Surroundings m) (args : List String) : m Outcome :=
  match Arguments.read args with
  | .invoke i => runInvocation w i
  | .help => return { stdout := usage }
  | .version => return .printed ["spl 0.1.0"]
  | .misuse => return { code := 2, stderr := usage }

end CommandLine
end AccessPolicy
