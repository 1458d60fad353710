import AccessPolicy.Analysis.Declarations

/-!
# References

The roles of users and of conditions, the resources of rules and the attributes
of conditions are looked up. Every condition has a scope of its own, in which
the namespace `resource` also has the properties of the rule's resource.
-/

namespace AccessPolicy

def checkUsers (ds : Declarations) : List Remark :=
  ds.users.filterMap fun u =>
    match u.firstText "role" with
    | none => none
    | some role =>
      if (ds.symbols.resolve .role role).isSome then none
      else some ⟨u.line, .undefinedUserRole u.name role⟩

def isPath (spec : String) : Bool := spec.toList.head? = some '/'

/-- Is a resource a single name, neither dotted nor a path nor a pattern? -/
def isPlainName (spec : String) : Bool :=
  !(spec.toList.any fun c => c = '*' || c = '.' || c = '/')

/-- A path has to be the path of some resource, and a name the name of one. -/
def checkResource (ds : Declarations) (symbols : SymbolTable) (r : Rule) : List Remark :=
  if isPath r.resource then
    if ds.resources.any fun d => d.firstText "path" = some r.resource then []
    else [⟨r.line, .unmatchedPath r.resource⟩]
  else if isPlainName r.resource && (symbols.resolve .resource r.resource).isNone then
    [⟨r.line, .undefinedResource r.resource⟩]
  else []

def resourceFields (d : Definition) : List String :=
  d.properties.names.foldl (fun fields key => if key ∈ fields then fields else fields ++ [key])
    (builtinFields "resource" ++ ["name"])

def bindResource (ds : Declarations) (symbols : SymbolTable) (r : Rule) : SymbolTable :=
  match ds.resources.find? fun d => d.name = r.resource with
  | none => symbols
  | some d =>
    let symbol : Symbol :=
      { name := "resource"
        kind := .variable
        attributes := [("fields", .strings (resourceFields d)), ("resource", .string d.name)]
        line := r.line }
    match symbols.define symbol with
    | .ok symbols => symbols
    | .error _ => symbols

def checkAttribute (symbols : SymbolTable) : Expr → Option Remark
  | .attribute object field line =>
    match symbols.fields? object with
    | none => some ⟨line, .unknownObject object⟩
    | some fields => if field ∈ fields then none else some ⟨line, .unknownAttribute field object⟩
  | _ => none

/-- The role that an expression compares with `user.role`, and its line. -/
def Expr.comparedRole : Expr → Option (String × Nat)
  | .binary op left right line =>
    if op = .equal ∨ op = .notEqual then
      match (if left.isUserRole then some right else if right.isUserRole then some left else none) with
      | some (.literal (.string role) _) => some (role, line)
      | _ => none
    else none
  | _ => none

def Expr.comparedRoles (e : Expr) : List (String × Nat) := e.nodes.filterMap comparedRole

def checkRole (symbols : SymbolTable) (role : String × Nat) : Option Remark :=
  if (symbols.resolve .role role.1).isSome then none
  else some ⟨role.2, .undefinedConditionRole role.1⟩

/-- The findings in a condition: attributes first, then roles. -/
def checkCondition (symbols : SymbolTable) (e : Expr) : List Remark :=
  e.nodes.filterMap (checkAttribute symbols) ++ e.comparedRoles.filterMap (checkRole symbols)

/-- Check a rule; its condition's scope is opened and left again. -/
def checkRule (ds : Declarations) (symbols : SymbolTable) (r : Rule) : SymbolTable × List Remark :=
  let resource := checkResource ds symbols r
  match r.condition with
  | none => (symbols, resource)
  | some e =>
    let inner := bindResource ds (symbols.enter ("policy@" ++ toString r.line)) r
    (inner.exit, resource ++ checkCondition inner e)

def checkRules (ds : Declarations) : SymbolTable → List Rule → SymbolTable × List Remark
  | symbols, [] => (symbols, [])
  | symbols, r :: rest =>
    let (symbols, remarks) := checkRule ds symbols r
    let (symbols, more) := checkRules ds symbols rest
    (symbols, remarks ++ more)

/-- Check all references, users before rules. -/
def checkReferences (ds : Declarations) : SymbolTable × List Remark :=
  let (symbols, remarks) := checkRules ds ds.symbols ds.rules
  (symbols, checkUsers ds ++ remarks)

def roleReferences (ds : Declarations) : Nat :=
  ((ds.rules.filterMap Rule.condition).flatMap Expr.comparedRoles).length

end AccessPolicy
