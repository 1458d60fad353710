import AccessPolicy.NameMap

/-!
# Indices of names

Where the items of a list stand, by name. Of several items of one name the index
leads to the first (`NameIndex.find?_eq`).
-/

namespace AccessPolicy

variable {α : Type} {nameOf : α → String} {items : List α}

/-- The place of each name in a list of items. -/
structure NameIndex (nameOf : α → String) (items : List α) where
  places : NameMap Nat
  leads : ∀ name, places.get? name = items.findIdx? fun x => nameOf x = name

namespace NameIndex

/-- Enter the place of an item, unless an item before it has the name. -/
def enter (nameOf : α → String) (places : NameMap Nat) (x : α × Nat) : NameMap Nat :=
  if places.contains (nameOf x.1) then places else places.insert (nameOf x.1) x.2

theorem get?_enter (places : NameMap Nat) (x : α × Nat) (name : String) :
    (enter nameOf places x).get? name =
      (places.get? name).or (if nameOf x.1 = name then some x.2 else none) := by
  unfold enter NameMap.contains
  split
  · next hthere =>
    split
    · next hname =>
      obtain ⟨place, hplace⟩ := Option.isSome_iff_exists.mp hthere
      rw [← hname, hplace]
      rfl
    · exact Option.or_none.symm
  · next hnew =>
    split
    · next hname =>
      rw [← hname, NameMap.get?_insert_self, Option.not_isSome_iff_eq_none.mp hnew]
      rfl
    · next hname => rw [NameMap.get?_insert_of_ne _ _ hname, Option.or_none]

theorem get?_foldl_enter (start : Nat) (places : NameMap Nat) (name : String) :
    ((items.zipIdx start).foldl (enter nameOf) places).get? name =
      (places.get? name).or
        ((items.findIdx? fun x => nameOf x = name).map (· + start)) := by
  induction items generalizing start places with
  | nil => exact Option.or_none.symm
  | cons x items ih =>
    rw [List.zipIdx_cons, List.foldl_cons, ih, get?_enter, Option.or_assoc, List.findIdx?_cons]
    congr 1
    by_cases hname : nameOf x = name
    · simp [hname]
    · simp [hname, Function.comp_def, Nat.add_assoc, Nat.add_comm 1]

def ofItems (nameOf : α → String) (items : List α) : NameIndex nameOf items where
  places := items.zipIdx.foldl (enter nameOf) []
  leads name := by
    rw [get?_foldl_enter]
    exact Option.map_id'

def find? (index : NameIndex nameOf items) (name : String) : Option α :=
  (index.places.get? name).bind fun i => items[i]?

/-- The index finds the first item of a name. -/
theorem find?_eq (index : NameIndex nameOf items) (name : String) :
    index.find? name = items.find? fun x => nameOf x = name := by
  rw [find?, index.leads name, List.find?_eq_bind_findIdx?_getElem?]

end NameIndex
end AccessPolicy
