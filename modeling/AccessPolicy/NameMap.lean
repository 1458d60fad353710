/-!
# Maps from names

A finite map from names to values, kept as a list in the code point order of
its names. Two maps that agree on every name are the same list.
-/

namespace AccessPolicy

/-- A map from names to `α`. -/
abbrev NameMap (α : Type) := List (String × α)

namespace NameMap

variable {α : Type}

def get? : NameMap α → String → Option α
  | [], _ => none
  | (k, v) :: rest, name => if k = name then some v else get? rest name

def contains (m : NameMap α) (name : String) : Bool := (get? m name).isSome

/-- Give a name a value, in place of the one it had. -/
def insert (name : String) (value : α) : NameMap α → NameMap α
  | [] => [(name, value)]
  | (k, v) :: rest =>
    if name < k then (name, value) :: (k, v) :: rest
    else if name = k then (name, value) :: rest
    else (k, v) :: insert name value rest

/-- The map of a list of entries; of two for one name the later counts. -/
def ofList (entries : List (String × α)) : NameMap α :=
  entries.foldl (fun m e => insert e.1 e.2 m) []

def names (m : NameMap α) : List String := m.map Prod.fst

theorem get?_insert_self (name : String) (value : α) (m : NameMap α) :
    get? (insert name value m) name = some value := by
  induction m with
  | nil => simp [insert, get?]
  | cons e rest ih =>
    obtain ⟨k, v⟩ := e
    unfold insert
    split
    · simp [get?]
    · split
      · simp [get?]
      · next h => simp [get?, Ne.symm h, ih]

theorem get?_insert_of_ne {name other : String} (value : α) (m : NameMap α) (h : name ≠ other) :
    get? (insert name value m) other = get? m other := by
  induction m with
  | nil => simp [insert, get?, h]
  | cons e rest ih =>
    obtain ⟨k, v⟩ := e
    unfold insert
    split
    · simp [get?, h]
    · split
      · next hk => subst hk; simp [get?, h]
      · simp [get?, ih]

theorem get?_map {β : Type} (f : String → α → β) (m : NameMap α) (name : String) :
    get? (m.map fun e => (e.1, f e.1 e.2)) name = (get? m name).map (f name) := by
  induction m with
  | nil => rfl
  | cons e rest ih =>
    obtain ⟨k, v⟩ := e
    rw [List.map_cons, get?, get?]
    split
    · next h => subst h; rfl
    · exact ih

theorem get?_filter (keep : String → Bool) (m : NameMap α) (name : String) :
    get? (m.filter fun e => keep e.1) name = if keep name then get? m name else none := by
  induction m with
  | nil => simp [get?]
  | cons e rest ih =>
    obtain ⟨k, v⟩ := e
    by_cases hname : k = name
    · subst hname
      by_cases hkeep : keep k
      · simp [get?, hkeep]
      · simp [hkeep, ih]
    · by_cases hkeep : keep k
      · simp [get?, hkeep, hname, ih]
      · simp [get?, hkeep, hname, ih]

theorem contains_iff {m : NameMap α} {name : String} :
    m.contains name = true ↔ name ∈ m.names := by
  unfold contains names
  induction m with
  | nil => simp [get?]
  | cons e rest ih =>
    obtain ⟨k, v⟩ := e
    rw [get?, List.map_cons, List.mem_cons, ← ih]
    split
    · next h => simp [h]
    · next h => simp [Ne.symm h]

theorem mem_of_get? {m : NameMap α} {name : String} {value : α}
    (h : get? m name = some value) : (name, value) ∈ m := by
  induction m with
  | nil => cases h
  | cons e rest ih =>
    obtain ⟨k, v⟩ := e
    unfold get? at h
    split at h
    · next hname =>
      cases h
      rw [hname]
      exact List.mem_cons_self
    · exact List.mem_cons_of_mem _ (ih h)

/-- Where every name has one entry, that is the one that is found. -/
theorem get?_of_mem {m : NameMap α} (hnodup : m.names.Nodup) {name : String} {value : α}
    (h : (name, value) ∈ m) : get? m name = some value := by
  induction m with
  | nil => cases h
  | cons e rest ih =>
    obtain ⟨k, v⟩ := e
    obtain ⟨hnew, hrest⟩ := List.nodup_cons.mp hnodup
    unfold get?
    rcases List.mem_cons.mp h with heq | h
    · cases heq
      exact if_pos rfl
    · have hother : k ≠ name := by
        rintro rfl
        exact hnew (List.mem_map.mpr ⟨_, h, rfl⟩)
      rw [if_neg hother]
      exact ih hrest h

theorem mem_insert {name : String} {value : α} {m : NameMap α} {e : String × α}
    (h : e ∈ insert name value m) : e = (name, value) ∨ e ∈ m := by
  induction m with
  | nil => exact Or.inl (List.mem_singleton.mp h)
  | cons first rest ih =>
    obtain ⟨k, v⟩ := first
    unfold insert at h
    split at h
    · exact List.mem_cons.mp h
    · split at h
      · exact (List.mem_cons.mp h).imp_right (List.mem_cons_of_mem _)
      · rcases List.mem_cons.mp h with rfl | h
        · exact Or.inr List.mem_cons_self
        · exact (ih h).imp_right (List.mem_cons_of_mem _)

theorem mem_of_mem_ofList {entries : List (String × α)} {e : String × α}
    (h : e ∈ ofList entries) : e ∈ entries := by
  have hadded : ∀ (entries : List (String × α)) (m : NameMap α),
      e ∈ entries.foldl (fun m e => insert e.1 e.2 m) m → e ∈ entries ∨ e ∈ m := by
    intro entries
    induction entries with
    | nil => exact fun m => Or.inr
    | cons first entries ih =>
      intro m hm
      rcases ih _ hm with hm | hm
      · exact Or.inl (List.mem_cons_of_mem _ hm)
      · rcases mem_insert hm with rfl | hm
        · exact Or.inl List.mem_cons_self
        · exact Or.inr hm
  exact (hadded entries [] h).resolve_right List.not_mem_nil

end NameMap
end AccessPolicy
