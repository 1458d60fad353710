import AccessPolicy.Json.Schema
import Mathlib.Algebra.Order.Ring.Rat

/-!
# What schemas accept

One equivalence for each way to build a schema: when a document of the right kind is accepted,
in terms of what the parts of the schema accept.
-/

namespace AccessPolicy

namespace SchemaRule

def Allows (rule : SchemaRule) (j : Json) : Prop := rule.faults j = []

attribute [local simp] faults

@[simp]
theorem allows_kinds {ks : List Json.Kind} {j : Json} :
    (kinds ks).Allows j ↔ ∃ k ∈ ks, j.isOfKind k = true := by
  unfold Allows
  rw [faults, ← List.any_eq_true]
  split_ifs with h <;> simp [h]

theorem allows_minimum {n : Int} {x : Json.Number} :
    (minimum n).Allows (.number x) ↔ (n : Rat) ≤ x.toRat := by
  unfold Allows faults
  dsimp only
  split_ifs with h
  · simpa using h
  · simpa using h

@[simp]
theorem allows_minimum_whole {m n : Int} : (minimum m).Allows (.number (.whole n)) ↔ m ≤ n := by
  rw [allows_minimum, Json.Number.toRat, Rat.intCast_le_intCast]

@[simp]
theorem allows_minLength {n : Nat} {s : String} :
    (minLength n).Allows (.string s) ↔ n ≤ s.length := by
  unfold Allows faults
  dsimp only
  split_ifs with h
  · simpa using h
  · simpa using h

@[simp]
theorem allows_identifier {s : String} :
    identifier.Allows (.string s) ↔ isIdentifierText s = true := by
  unfold Allows faults
  dsimp only
  split_ifs with h <;> simp [h]

@[simp]
theorem allows_among {options : List String} {s : String} :
    (among options).Allows (.string s) ↔ s ∈ options := by
  unfold Allows faults
  dsimp only
  split_ifs with h <;> simp [h]

@[simp]
theorem allows_exactly {text s : String} : (exactly text).Allows (.string s) ↔ s = text := by
  unfold Allows faults
  dsimp only
  split_ifs with h <;> simp [h]

end SchemaRule

namespace Schema
variable {rules : List SchemaRule} {item entry : Schema} {least : Nat} {items : List Json}
  {entries : List (String × Json)} {fields : List (String × Schema)} {required : List String}
  {options : List Schema} {j : Json}

attribute [local simp] faults

theorem accepts_iff {schema : Schema} : schema.accepts j = true ↔ schema.faults j = [] :=
  List.isEmpty_iff

@[simp]
theorem accepts_value : (value rules).accepts j = true ↔ ∀ r ∈ rules, r.Allows j := by
  rw [accepts_iff, faults, List.flatMap_eq_nil_iff]
  rfl

theorem accepts_array : (array least item).accepts (.array items) = true ↔
    least ≤ items.length ∧ ∀ i ∈ items, item.accepts i = true := by
  rw [accepts_iff, faults, List.append_eq_nil_iff, List.flatMap_eq_nil_iff]
  simp only [accepts_iff]
  refine and_congr ?_ Iff.rfl
  split_ifs with h
  · simpa using h
  · simpa using h

theorem exists_of_accepts_array (h : (array least item).accepts j = true) :
    ∃ items, j = .array items := by
  rw [accepts_iff] at h
  cases j with
  | array items => exact ⟨items, rfl⟩
  | _ => simp at h

theorem exists_of_accepts_map (h : (map entry).accepts j = true) :
    ∃ entries, j = .object entries := by
  rw [accepts_iff] at h
  cases j with
  | object entries => exact ⟨entries, rfl⟩
  | _ => simp at h

theorem exists_of_accepts_record (h : (record required fields).accepts j = true) :
    ∃ entries, j = .object entries := by
  rw [accepts_iff] at h
  cases j with
  | object entries => exact ⟨entries, rfl⟩
  | _ => simp at h

theorem accepts_map : (map entry).accepts (.object entries) = true ↔
    ∀ e ∈ entries, entry.accepts e.2 = true := by
  rw [accepts_iff, faults, List.flatMap_eq_nil_iff]
  simp only [accepts_iff]

theorem fieldFaults_eq (fields : List (String × Schema)) (name : String) (j : Json) :
    fieldFaults fields name j =
      match NameMap.get? fields name with
      | none => []
      | some schema => schema.faults j := by
  induction fields with
  | nil => rfl
  | cons f fields ih =>
      obtain ⟨n, schema⟩ := f
      rw [fieldFaults, NameMap.get?, ih]
      split_ifs <;> rfl

/-- A record has all its required fields, and no others than its own, each as its schema says. -/
theorem accepts_record : (record required fields).accepts (.object entries) = true ↔
    (∀ n ∈ required, n ∈ NameMap.names entries) ∧
      ∀ e ∈ entries, ∃ schema, NameMap.get? fields e.1 = some schema ∧
        schema.accepts e.2 = true := by
  have hown : ∀ e : String × Json, fieldFaults fields e.1 e.2 = [] ∧
      NameMap.contains fields e.1 = true ↔ ∃ schema, NameMap.get? fields e.1 = some schema ∧
        schema.accepts e.2 = true := by
    intro e
    unfold NameMap.contains
    rw [fieldFaults_eq]
    cases NameMap.get? fields e.1 <;> simp [accepts_iff]
  rw [accepts_iff, faults, List.append_eq_nil_iff, List.append_eq_nil_iff, List.map_eq_nil_iff,
    List.filter_eq_nil_iff, List.flatMap_eq_nil_iff, and_assoc]
  refine and_congr (by simp [NameMap.contains_iff]) ?_
  simp only [← hown, forall_and]
  refine and_congr Iff.rfl ?_
  -- no name of an entry is left over
  rw [ite_eq_left_iff]
  simp only [reduceCtorEq, imp_false, not_not, List.isEmpty_iff, List.filter_eq_nil_iff,
    List.forall_mem_map, Bool.not_eq_true', Bool.not_eq_false]

theorem accepts_either : (either options).accepts j = true ↔
    options.countP (accepts · j) = 1 := by
  have hcount : ∀ options : List Schema,
      satisfiedCount options j = options.countP (accepts · j) := by
    intro options
    induction options with
    | nil => rw [satisfiedCount, List.countP_nil]
    | cons schema options ih =>
        rw [satisfiedCount, ih, List.countP_cons, Nat.add_comm]
        rfl
  rw [accepts_iff, faults, hcount]
  split_ifs with h <;> simp [h]

end Schema
end AccessPolicy
