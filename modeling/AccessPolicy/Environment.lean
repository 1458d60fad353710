import AccessPolicy.SymbolTable
import AccessPolicy.Value

/-!
# Environments

The values of the attributes that a condition can read, by object and field.
-/

namespace AccessPolicy

structure Environment where
  groups : NameMap (NameMap Value)

namespace Environment

def empty : Environment := ⟨[]⟩

/-- The fields of an object; an object that is not there has none. -/
def group (env : Environment) (object : String) : NameMap Value :=
  (NameMap.get? env.groups object).getD []

def get? (env : Environment) (object field : String) : Option Value :=
  NameMap.get? (env.group object) field

/-- Give an attribute a value, in place of the one it had. -/
def set (env : Environment) (object field : String) (value : Value) : Environment :=
  ⟨NameMap.insert object (NameMap.insert field value (env.group object)) env.groups⟩

def setAll (env : Environment) (object : String) (fields : List (String × Value)) : Environment :=
  fields.foldl (fun env f => env.set object f.1 f.2) env

/-- Every built-in attribute without a value. -/
def builtin : Environment :=
  namespaces.foldl (fun env n => env.setAll n.1 (n.2.map fun f => (f, Value.null))) empty

theorem get?_set_self (env : Environment) (object field : String) (value : Value) :
    (env.set object field value).get? object field = some value := by
  simp [get?, set, group, NameMap.get?_insert_self]

theorem get?_set_of_ne (env : Environment) {object field object' field' : String} (value : Value)
    (h : ¬(object = object' ∧ field = field')) :
    (env.set object field value).get? object' field' = env.get? object' field' := by
  by_cases ho : object = object'
  · subst ho
    have hf : field ≠ field' := fun hf => h ⟨rfl, hf⟩
    simp [get?, set, group, NameMap.get?_insert_self, NameMap.get?_insert_of_ne _ _ hf]
  · simp [get?, set, group, NameMap.get?_insert_of_ne _ _ ho]

def toJson (env : Environment) : Json :=
  .object (env.groups.map fun g => (g.1, .object (g.2.map fun f => (f.1, f.2.toJson))))

end Environment
end AccessPolicy
