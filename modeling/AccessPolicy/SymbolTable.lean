import AccessPolicy.Json.Basic

/-!
# Symbol tables

Scopes are kept in the order they were opened, and stay when they are left. One
of them is current; it and its ancestors are the chain in which names are looked
up.
-/

namespace AccessPolicy

/-- The built-in namespaces of attributes, with their fields. -/
def namespaces : List (String × List String) := [
  ("user", ["role", "name", "id", "department", "clearance", "location"]),
  ("time", ["hour", "minute", "day", "month", "year", "weekday", "date"]),
  ("request", ["ip", "method", "path", "headers", "user_agent"]),
  ("resource", ["path", "type", "owner", "sensitivity"]),
  ("device", ["type", "id", "os", "browser", "location", "trusted"])]

/-- The fields of a built-in namespace, none if there is no such namespace. -/
def builtinFields (name : String) : List String :=
  ((namespaces.find? fun n => n.1 = name).map Prod.snd).getD []

inductive SymbolKind where
  | role
  | user
  | resource
  | variable
deriving DecidableEq

def SymbolKind.label : SymbolKind → String
  | .role => "ROLE"
  | .user => "USER"
  | .resource => "RESOURCE"
  | .variable => "VARIABLE"

structure Symbol where
  name : String
  kind : SymbolKind
  attributes : NameMap Json
  line : Nat
  scopeLevel : Nat := 0

/-- Where the symbols of a scope stand in its list, by kind and name. -/
abbrev SymbolIndex := List ((SymbolKind × String) × Nat)

/-- The index leads to the first symbol of every kind and name, if there is one. -/
def SymbolIndex.LeadsTo (index : SymbolIndex) (symbols : List Symbol) : Prop :=
  ∀ kind name, index.lookup (kind, name) =
    symbols.findIdx? fun x => x.kind = kind && x.name = name

/-- Symbols in the order in which they were added, with an index that is not shown. -/
structure Scope where
  name : String
  level : Nat
  parent : Option Nat
  symbols : List Symbol
  index : SymbolIndex
  indexed : index.LeadsTo symbols

namespace Scope

def opened (name : String) (level : Nat) (parent : Option Nat) : Scope :=
  ⟨name, level, parent, [], [], fun _ _ => rfl⟩

def find? (s : Scope) (kind : SymbolKind) (name : String) : Option Symbol :=
  (s.index.lookup (kind, name)).bind fun i => s.symbols[i]?

/-- The scope with one more symbol, at the level of the scope. A place that the index has stays. -/
def extend (s : Scope) (symbol : Symbol) : Scope where
  name := s.name
  level := s.level
  parent := s.parent
  symbols := s.symbols ++ [{ symbol with scopeLevel := s.level }]
  index := s.index ++ [((symbol.kind, symbol.name), s.symbols.length)]
  indexed kind name := by
    rw [List.lookup_append, List.findIdx?_append, s.indexed kind name, List.lookup_cons,
      List.findIdx?_singleton]
    congr 1
    by_cases h : symbol.kind = kind ∧ symbol.name = name
    · obtain ⟨rfl, rfl⟩ := h
      simp
    · have hother : ((kind, name) == (symbol.kind, symbol.name)) = false := by
        rw [beq_eq_false_iff_ne]
        rintro ⟨⟩
        exact h ⟨rfl, rfl⟩
      rw [hother, if_neg (by simpa using h)]
      rfl

/-- The index finds the first symbol of a kind and name in the list. -/
theorem find?_eq (s : Scope) (kind : SymbolKind) (name : String) :
    s.find? kind name = s.symbols.find? fun x => x.kind = kind && x.name = name := by
  rw [find?, s.indexed kind name, List.find?_eq_bind_findIdx?_getElem?]

theorem find?_opened (name : String) (level : Nat) (parent : Option Nat) (kind : SymbolKind)
    (name' : String) : (opened name level parent).find? kind name' = none := rfl

theorem find?_extend (s : Scope) (symbol : Symbol) (kind : SymbolKind) (name : String) :
    (s.extend symbol).find? kind name = (s.find? kind name).or
      (if symbol.kind = kind ∧ symbol.name = name then
        some { symbol with scopeLevel := s.level } else none) := by
  rw [find?_eq, find?_eq, extend, List.find?_append]
  by_cases hkind : symbol.kind = kind
  · by_cases hname : symbol.name = name
    · simp [hkind, hname]
    · simp [hkind, hname]
  · simp [hkind]

end Scope

structure SymbolTable where
  scopes : List Scope
  current : Nat

namespace SymbolTable

/-- A scope and its ancestors, from the inside out. A parent was opened before
its children. -/
def chainFrom (scopes : List Scope) (index : Nat) : List Scope :=
  match scopes[index]? with
  | none => []
  | some s =>
    match s.parent with
    | none => [s]
    | some p => if _ : p < index then s :: chainFrom scopes p else [s]
termination_by index

def chain (t : SymbolTable) : List Scope := chainFrom t.scopes t.current

def level (t : SymbolTable) : Nat := ((t.scopes[t.current]?).map Scope.level).getD 0

def enter (t : SymbolTable) (name : String) : SymbolTable :=
  ⟨t.scopes ++ [Scope.opened name (t.level + 1) (some t.current)], t.scopes.length⟩

/-- Go back to the parent scope; the outermost scope is never left. -/
def exit (t : SymbolTable) : SymbolTable :=
  match (t.scopes[t.current]?).bind Scope.parent with
  | some parent => { t with current := parent }
  | none => t

/-- Look a name up, innermost scope first. -/
def resolve (t : SymbolTable) (kind : SymbolKind) (name : String) : Option Symbol :=
  t.chain.findSome? fun s => s.find? kind name

/-- Add a symbol to the current scope. One that is there already stays, and is
the failure. -/
def define (t : SymbolTable) (symbol : Symbol) : Except Symbol SymbolTable :=
  match (t.scopes[t.current]?).bind fun s => s.find? symbol.kind symbol.name with
  | some existing => .error existing
  | none => .ok { t with scopes := t.scopes.modify t.current fun s => s.extend symbol }

/-- The fields that can be read from a namespace in scope. -/
def fields? (t : SymbolTable) (name : String) : Option (List String) := do
  let symbol ← t.resolve .variable name
  let fields ← (symbol.attributes.get? "fields").bind Json.asArray?
  return fields.filterMap Json.asString?

def builtin (name : String) (fields : List String) : Symbol :=
  { name := name, kind := .variable, attributes := [("fields", .strings fields)], line := 0 }

def global : Scope :=
  namespaces.foldl (fun s n => s.extend (builtin n.1 n.2)) (Scope.opened "global" 0 none)

/-- The table with the global scope and nothing else. -/
def initial : SymbolTable := ⟨[global], 0⟩

theorem symbols_global : global.symbols = namespaces.map fun n => builtin n.1 n.2 := rfl

end SymbolTable

def Symbol.toJson (s : Symbol) : Json :=
  .object [
    ("attributes", .object s.attributes),
    ("kind", .string s.kind.label),
    ("line", .nat s.line),
    ("name", .string s.name),
    ("scope_level", .nat s.scopeLevel)]

def Scope.toJson (s : Scope) : Json :=
  .object [
    ("level", .nat s.level),
    ("name", .string s.name),
    ("parent", .optionalNat s.parent),
    ("symbols", .array (s.symbols.map Symbol.toJson))]

def SymbolTable.toJson (t : SymbolTable) : Json :=
  .object [("scopes", .array (t.scopes.map Scope.toJson))]

end AccessPolicy
