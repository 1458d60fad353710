import AccessPolicy.Analysis.Conflicts
import AccessPolicy.Analysis.References
import AccessPolicy.Analysis.Risks

/-!
# Analysis reports

The findings of all analyses of a program, in the order of the analyses, and
what follows from them.
-/

namespace AccessPolicy

structure Report where
  options : Options
  declarations : Declarations
  symbols : SymbolTable
  conflicts : List Conflict
  remarks : List Remark

def Program.analyze (o : Options) (p : Program) : Report :=
  let ds := Declarations.ofProgram p
  let (symbols, references) := checkReferences ds
  { options := o
    declarations := ds
    symbols := symbols
    conflicts := AccessPolicy.conflicts ds.rules
    remarks := ds.duplicates ++ references ++ checkRisks o ds }

namespace Report

def isError (r : Report) (m : Remark) : Bool := m.severity r.options = .error

/-- The findings that keep the program from being compiled. -/
def errors (r : Report) : List Diagnostic :=
  (r.remarks.filter r.isError).map (Remark.diagnostic r.options)

/-- The warnings and risks. -/
def warnings (r : Report) : List Diagnostic :=
  (r.remarks.filter fun m => !r.isError m).map (Remark.diagnostic r.options)

def diagnostics (r : Report) : List Diagnostic := r.errors ++ r.warnings

def success (r : Report) : Bool := r.errors.isEmpty

/-! ## Figures -/

def undefinedReferences (r : Report) : Nat := r.remarks.countP fun m => m.finding.isUndefined

def guestDeletes (r : Report) : Nat := r.remarks.countP fun m => m.finding.isGuestDelete

def unguardedRules (r : Report) : Nat := r.remarks.countP fun m => m.finding.isUnguarded

def wildcards (r : Report) : List Definition := wildcardRoles r.declarations

def securityRisks (r : Report) : Nat := r.wildcards.length + r.guestDeletes

/-! ## Recommendations -/

def conflictAdvice (c : Conflict) : Option String :=
  let review :=
    "DENY wins at runtime: review the conflicting policies at lines " ++ toString c.first.line
      ++ " and " ++ toString c.second.line
  match c.kind with
  | .allowDeny => some review
  | .privilegeEscalation => some review
  | .redundant => some ("Remove the duplicate policy at line " ++ toString c.second.line)
  | .contradiction => none

def wildcardAdvice (d : Definition) : String :=
  "Replace the wildcard on role '" ++ d.name ++ "' (line " ++ toString d.line
    ++ ") with the actions it needs"

def recommendations (r : Report) : List String :=
  let unguarded := r.unguardedRules
  let ending := if unguarded = 1 then "y" else "ies"
  r.wildcards.map wildcardAdvice ++ r.conflicts.filterMap conflictAdvice ++
    if 0 < unguarded then
      ["Add IF conditions to " ++ toString unguarded ++ " unguarded sensitive ALLOW polic" ++ ending]
    else []

/-! ## Document -/

def statistics (r : Report) : Json :=
  .object [
    ("conflicts_found", .nat r.conflicts.length),
    ("policies_defined", .nat r.declarations.rules.length),
    ("resources_defined", .nat r.declarations.resources.length),
    ("role_references_in_conditions", .nat (roleReferences r.declarations)),
    ("roles_defined", .nat r.declarations.roles.length),
    ("security_risks", .nat r.securityRisks),
    ("undefined_references", .nat r.undefinedReferences),
    ("users_defined", .nat r.declarations.users.length)]

def securityIssues (r : Report) : Json :=
  .object [
    ("guest_delete_permissions", .nat r.guestDeletes),
    ("overly_permissive", .nat r.unguardedRules),
    ("wildcard_permissions", .array (r.wildcards.map fun d =>
      .object [("line", .nat d.line), ("role", .string d.name)]))]

def toJson (r : Report) : Json :=
  .object [
    ("conflicts", .array (r.conflicts.map Conflict.toJson)),
    ("errors", .array (r.errors.map Diagnostic.toJson)),
    ("recommendations", .strings r.recommendations),
    ("security_issues", r.securityIssues),
    ("statistics", r.statistics),
    ("success", .bool r.success),
    ("symbol_table", r.symbols.toJson),
    ("warnings", .array (r.warnings.map Diagnostic.toJson))]

end Report
end AccessPolicy
