import AccessPolicy.Proofs.Entries

/-!
# Policy sets are exchanged without loss

The document of a policy set is decoded to the same policy set, or not at all:
the lines of a document are numbers of 32 bits (`PolicySet.ofJson_toJson_iff`).
-/

namespace AccessPolicy

/-! ## Entries -/

namespace Spelling
variable {α : Type} {S : Spelling α} {fields : List (String × Json)} {name : String} {j : Json}

/-- Where every name has one field, what stands in it is a value if the first is. -/
theorem fits_of_get? (hnames : (NameMap.names fields).Nodup) {a : α}
    (hget : NameMap.get? fields name = some j) (h : S a j) : S.Fits fields name := by
  intro j' hj'
  cases hget.symm.trans (NameMap.get?_of_mem hnames hj')
  exact ⟨a, h⟩

theorem required_of_get? (hnames : (NameMap.names fields).Nodup) {a : α}
    (hget : NameMap.get? fields name = some j) (h : S a j) : S.Required fields name a :=
  ⟨fits_of_get? hnames hget h, j, hget, h⟩

theorem defaulted_of_get? (hnames : (NameMap.names fields).Nodup) {default a : α}
    (hget : NameMap.get? fields name = some j) (h : S a j) :
    S.Defaulted fields name default a :=
  ⟨fits_of_get? hnames hget h, Or.inr ⟨j, hget, h⟩⟩

theorem optional_text (o : Option String) : text.optional o (.optionalString o) := by
  cases o <;> rfl

theorem optional_line {o : Option Nat} (h : ∀ n ∈ o, n ≤ greatestLine) :
    line.optional o (.optionalNat o) := by
  cases o with
  | none => rfl
  | some n => exact ⟨h n rfl, rfl⟩

theorem effect_text (e : Effect) : effect e (.string e.text) := by
  cases e <;> exact Or.inl rfl

theorem le_of_line {n m : Nat} (h : line m (.nat n)) : n ≤ greatestLine := by
  obtain ⟨hle, heq⟩ := h
  cases heq
  exact hle

theorem le_of_optional_line {o k : Option Nat} (h : line.optional k (.optionalNat o)) :
    ∀ n ∈ o, n ≤ greatestLine := by
  rintro n hn
  cases hn
  cases k with
  | none => cases h
  | some m => exact le_of_line h

end Spelling

open Spelling

section
variable {α : Type} {own : String} {S : Spelling α} {default : α} {name : String} {a : α}
  {ps : PropertyValues} {n : Nat} {fields : List (String × Json)}

/-- What an entity is made of can be written as an object in any order. -/
theorem isEntity_of_get? {j : Json} (hnames : (NameMap.names fields).Nodup)
    (hname : NameMap.get? fields "name" = some (.string name))
    (hown : NameMap.get? fields own = some j) (ha : S a j)
    (hproperties : NameMap.get? fields "properties" = some (PropertyValues.toJson ps))
    (hline : NameMap.get? fields "line" = some (.nat n)) (hn : n ≤ greatestLine) :
    IsEntity own S default name a ps n (.object fields) :=
  .named (required_of_get? hnames hname rfl) (defaulted_of_get? hnames hown ha)
    (defaulted_of_get? hnames hproperties rfl) (required_of_get? hnames hline ⟨hn, rfl⟩)

theorem line_le_of_isEntity {m : Nat} (h : IsEntity own S default name a ps n (.object fields))
    (hline : ("line", Json.nat m) ∈ fields) : m ≤ greatestLine := by
  cases h with
  | named _ _ _ hlines =>
    obtain ⟨_, hm⟩ := hlines.1 _ hline
    exact le_of_line hm

end

theorem Role.isEntry_toJson {r : Role} (h : r.line ≤ greatestLine) : r.IsEntry r.toJson :=
  isEntity_of_get? (by simp [NameMap.names]) rfl rfl rfl rfl rfl h

theorem User.isEntry_toJson {u : User} (h : u.line ≤ greatestLine) : u.IsEntry u.toJson :=
  isEntity_of_get? (by simp [NameMap.names]) rfl rfl (optional_text u.role) rfl rfl h

theorem Resource.isEntry_toJson {r : Resource} (h : r.line ≤ greatestLine) :
    r.IsEntry r.toJson :=
  isEntity_of_get? (by simp [NameMap.names]) rfl rfl (optional_text r.path) rfl rfl h

theorem Policy.isEntry_toJson {p : Policy} (h : ∀ n ∈ p.line, n ≤ greatestLine) :
    p.IsEntry p.toJson := by
  have hnames : (NameMap.names [
      ("actions", Json.strings p.actions), ("condition", .optionalString p.condition),
      ("line", .optionalNat p.line), ("resource", .string p.resource),
      ("synthesized", .bool p.synthesized), ("type", .string p.effect.text)]).Nodup := by
    simp [NameMap.names]
  exact .named (required_of_get? hnames rfl (effect_text p.effect))
    (required_of_get? hnames rfl rfl) (required_of_get? hnames rfl rfl)
    (defaulted_of_get? hnames rfl (optional_text p.condition))
    (defaulted_of_get? hnames rfl (optional_line h)) (defaulted_of_get? hnames rfl rfl)

theorem Policy.line_le_of_isEntry {p p' : Policy} (h : p'.IsEntry p.toJson) :
    ∀ n ∈ p.line, n ≤ greatestLine := by
  unfold toJson at h
  cases h with
  | named _ _ _ _ hlines _ =>
    obtain ⟨_, hline⟩ := hlines.1 (.optionalNat p.line) (by simp)
    exact le_of_optional_line hline

/-! ## Whole documents -/

namespace PolicySet

theorem decodeEntries_map {α : Type} (part : String) {d : Decoder α} {toJson : α → Json}
    {xs : List α} (h : ∀ x ∈ xs, d (toJson x) = .ok x) (index : Nat) :
    decodeEntries part d index (xs.map toJson) = .ok xs := by
  induction xs generalizing index with
  | nil => rfl
  | cons x xs ih =>
      -- the index only goes into messages
      have hrest := ih (fun y hy => h y (List.mem_cons_of_mem _ hy)) (index + 1)
      rw [List.map_cons, decodeEntries, h x List.mem_cons_self]
      exact bind_eq_ok.mpr ⟨xs, hrest, rfl⟩

/-- Every line of the policy set is one that a document may have. -/
structure LinesFit (s : PolicySet) : Prop where
  roles : ∀ r ∈ s.roles, r.line ≤ greatestLine
  users : ∀ u ∈ s.users, u.line ≤ greatestLine
  resources : ∀ r ∈ s.resources, r.line ≤ greatestLine
  policies : ∀ p ∈ s.policies, ∀ n ∈ p.line, n ≤ greatestLine

/-- A policy set is decoded just if its parts are there, its version is supported and all entries
are decoded. -/
theorem ofJson_eq_ok {doc : Json} {s : PolicySet} :
    ofJson doc = .ok s ↔ ∃ roles users resources policies,
      entries doc "roles" = .ok roles ∧ entries doc "users" = .ok users ∧
        entries doc "resources" = .ok resources ∧ entries doc "policies" = .ok policies ∧
        checkVersion doc = .ok () ∧
        decodeEntries "roles" Role.ofJson 0 roles = .ok s.roles ∧
        decodeEntries "users" User.ofJson 0 users = .ok s.users ∧
        decodeEntries "resources" Resource.ofJson 0 resources = .ok s.resources ∧
        decodeEntries "policies" Policy.ofJson 0 policies = .ok s.policies := by
  unfold ofJson
  constructor
  · intro h
    obtain ⟨roles, hroles, h⟩ := bind_eq_ok.mp h
    obtain ⟨users, husers, h⟩ := bind_eq_ok.mp h
    obtain ⟨resources, hresources, h⟩ := bind_eq_ok.mp h
    obtain ⟨policies, hpolicies, h⟩ := bind_eq_ok.mp h
    obtain ⟨⟨⟩, hversion, h⟩ := bind_eq_ok.mp h
    obtain ⟨_, hroles', h⟩ := bind_eq_ok.mp h
    obtain ⟨_, husers', h⟩ := bind_eq_ok.mp h
    obtain ⟨_, hresources', h⟩ := bind_eq_ok.mp h
    obtain ⟨_, hpolicies', h⟩ := bind_eq_ok.mp h
    cases h
    exact ⟨roles, users, resources, policies, hroles, husers, hresources, hpolicies, hversion,
      hroles', husers', hresources', hpolicies'⟩
  · rintro ⟨roles, users, resources, policies, hroles, husers, hresources, hpolicies, hversion,
      hroles', husers', hresources', hpolicies'⟩
    refine bind_eq_ok.mpr ⟨roles, hroles, ?_⟩
    refine bind_eq_ok.mpr ⟨users, husers, ?_⟩
    refine bind_eq_ok.mpr ⟨resources, hresources, ?_⟩
    refine bind_eq_ok.mpr ⟨policies, hpolicies, ?_⟩
    refine bind_eq_ok.mpr ⟨(), hversion, ?_⟩
    refine bind_eq_ok.mpr ⟨_, hroles', ?_⟩
    refine bind_eq_ok.mpr ⟨_, husers', ?_⟩
    refine bind_eq_ok.mpr ⟨_, hresources', ?_⟩
    exact bind_eq_ok.mpr ⟨_, hpolicies', rfl⟩

theorem ofJson_toJson {s : PolicySet} (h : s.LinesFit) : ofJson s.toJson = .ok s :=
  ofJson_eq_ok.mpr ⟨_, _, _, _, rfl, rfl, rfl, rfl, rfl,
    decodeEntries_map "roles"
      (fun r hr => Role.ofJson_eq_ok.mpr (Role.isEntry_toJson (h.roles r hr))) 0,
    decodeEntries_map "users"
      (fun u hu => User.ofJson_eq_ok.mpr (User.isEntry_toJson (h.users u hu))) 0,
    decodeEntries_map "resources"
      (fun r hr => Resource.ofJson_eq_ok.mpr (Resource.isEntry_toJson (h.resources r hr))) 0,
    decodeEntries_map "policies"
      (fun p hp => Policy.ofJson_eq_ok.mpr (Policy.isEntry_toJson (h.policies p hp))) 0⟩

theorem exists_decodeEntries {α : Type} {part : String} {d : Decoder α} {index : Nat}
    {js : List Json} :
    (∃ as, decodeEntries part d index js = .ok as) ↔ ∀ j ∈ js, ∃ a, d j = .ok a := by
  induction js generalizing index with
  | nil => exact ⟨fun _ => List.forall_mem_nil _, fun _ => ⟨[], rfl⟩⟩
  | cons j js ih =>
      have hrest : (∃ as, decodeEntries part d (index + 1) js = .ok as) ↔ _ := ih
      rw [List.forall_mem_cons, ← hrest, decodeEntries]
      constructor
      · rintro ⟨_, h⟩
        split at h
        · cases h
        · next a ha =>
          obtain ⟨as, has, _⟩ := bind_eq_ok.mp h
          exact ⟨⟨a, ha⟩, as, has⟩
      · rintro ⟨⟨a, ha⟩, as, has⟩
        rw [ha]
        exact ⟨a :: as, bind_eq_ok.mpr ⟨as, has, rfl⟩⟩

theorem linesFit_of_ofJson {s t : PolicySet} (h : ofJson s.toJson = .ok t) : s.LinesFit := by
  obtain ⟨_, _, _, _, hroles, husers, hresources, hpolicies, _, hroles', husers', hresources',
    hpolicies'⟩ := ofJson_eq_ok.mp h
  -- the lists of the document are those of the set
  cases hroles
  cases husers
  cases hresources
  cases hpolicies
  constructor
  · intro r hr
    obtain ⟨r', hr'⟩ := exists_decodeEntries.mp ⟨_, hroles'⟩ _ (List.mem_map_of_mem hr)
    exact line_le_of_isEntity (Role.ofJson_eq_ok.mp hr') List.mem_cons_self
  · intro u hu
    obtain ⟨u', hu'⟩ := exists_decodeEntries.mp ⟨_, husers'⟩ _ (List.mem_map_of_mem hu)
    exact line_le_of_isEntity (User.ofJson_eq_ok.mp hu') List.mem_cons_self
  · intro r hr
    obtain ⟨r', hr'⟩ := exists_decodeEntries.mp ⟨_, hresources'⟩ _ (List.mem_map_of_mem hr)
    exact line_le_of_isEntity (Resource.ofJson_eq_ok.mp hr') List.mem_cons_self
  · intro p hp
    obtain ⟨p', hp'⟩ := exists_decodeEntries.mp ⟨_, hpolicies'⟩ _ (List.mem_map_of_mem hp)
    exact Policy.line_le_of_isEntry (Policy.ofJson_eq_ok.mp hp')

/-- **Documents are without loss.** The document of a policy set is decoded just if
its lines fit, and then to that policy set. -/
theorem ofJson_toJson_iff {s t : PolicySet} :
    ofJson s.toJson = .ok t ↔ s.LinesFit ∧ t = s := by
  constructor
  · intro h
    have hfit := linesFit_of_ofJson h
    rw [ofJson_toJson hfit] at h
    injection h with h
    exact ⟨hfit, h.symm⟩
  · rintro ⟨hfit, rfl⟩
    exact ofJson_toJson hfit

end PolicySet
end AccessPolicy
