import AccessPolicy.Expr.Basic
import AccessPolicy.PolicySet.Basic

/-!
# Programs

A program is a list of statements: definitions of roles, users and resources,
and policy rules.
-/

namespace AccessPolicy

/-- The properties of a definition. A single value is a list of one. -/
abbrev Properties := NameMap (List Literal)

structure Definition where
  name : String
  properties : Properties
  line : Nat
deriving DecidableEq

namespace Definition

/-- The values of a property, none if it is absent. -/
def values (d : Definition) (key : String) : List Literal := (d.properties.get? key).getD []

def texts (d : Definition) (key : String) : List String := (d.values key).map Literal.plain

def firstText (d : Definition) (key : String) : Option String := (d.texts key).head?

end Definition

inductive DefinitionKind where
  | role
  | user
  | resource
deriving DecidableEq

/-- A policy statement. Its actions are small, without repetition. -/
structure Rule where
  effect : Effect
  actions : List String
  resource : String
  condition : Option Expr
  line : Nat
deriving DecidableEq

inductive Statement where
  | definition (kind : DefinitionKind) (d : Definition)
  | rule (r : Rule)
deriving DecidableEq

structure Program where
  statements : List Statement
deriving DecidableEq

namespace Program

def definitions (p : Program) (kind : DefinitionKind) : List Definition :=
  p.statements.filterMap fun s =>
    match s with
    | .definition k d => if k = kind then some d else none
    | .rule _ => none

def roles (p : Program) : List Definition := p.definitions .role

def users (p : Program) : List Definition := p.definitions .user

def resources (p : Program) : List Definition := p.definitions .resource

def rules (p : Program) : List Rule :=
  p.statements.filterMap fun s =>
    match s with
    | .definition _ _ => none
    | .rule r => some r

end Program

/-- The definitions whose name no earlier one has. -/
def firstNamed (ds : List Definition) : List Definition :=
  go [] ds
where
  go (seen : List String) : List Definition → List Definition
    | [] => []
    | d :: rest => if d.name ∈ seen then go seen rest else d :: go (d.name :: seen) rest

end AccessPolicy
