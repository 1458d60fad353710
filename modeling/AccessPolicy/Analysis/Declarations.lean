import AccessPolicy.Analysis.Finding
import AccessPolicy.SymbolTable

/-!
# Declarations

Of several definitions of one kind and name the first counts; each later one is
a finding.
-/

namespace AccessPolicy

def DefinitionKind.symbolKind : DefinitionKind → SymbolKind
  | .role => .role
  | .user => .user
  | .resource => .resource

def Definition.propertyValues (d : Definition) : NameMap (List Json) :=
  d.properties.map fun p => (p.1, p.2.map Literal.toJson)

def Definition.symbol (kind : DefinitionKind) (d : Definition) : Symbol :=
  { name := d.name
    kind := kind.symbolKind
    attributes := d.propertyValues.map fun p => (p.1, .array p.2)
    line := d.line }

/-- What a program declares. -/
structure Declarations where
  symbols : SymbolTable
  roles : List Definition
  users : List Definition
  resources : List Definition
  rules : List Rule
  duplicates : List Remark

namespace Declarations

def empty : Declarations := ⟨.initial, [], [], [], [], []⟩

/-- Add a definition that is the first of its name. -/
def register (ds : Declarations) (kind : DefinitionKind) (d : Definition) : Declarations :=
  match kind with
  | .role => { ds with roles := ds.roles ++ [d] }
  | .user => { ds with users := ds.users ++ [d] }
  | .resource => { ds with resources := ds.resources ++ [d] }

def add (ds : Declarations) : Statement → Declarations
  | .rule r => { ds with rules := ds.rules ++ [r] }
  | .definition kind d =>
    match ds.symbols.define (d.symbol kind) with
    | .ok symbols => { ds.register kind d with symbols := symbols }
    | .error first =>
      { ds with duplicates := ds.duplicates ++ [⟨d.line, .duplicate kind d.name first.line⟩] }

def ofProgram (p : Program) : Declarations := p.statements.foldl add empty

end Declarations
end AccessPolicy
