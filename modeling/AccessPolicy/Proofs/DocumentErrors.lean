import AccessPolicy.Proofs.Documents

/-!
# The first problem of a document

A document can be wrong in several parts, in its version and in many entries at once. All its
problems are listed here in one order, and the decoder reports the first of the list and
decodes a document without problems only (`PolicySet.reportsFirst_ofJson`). These are the documents
whose parts are lists of roles, users, resources and policies as they are written
(`PolicySet.problems_eq_nil`).
-/

namespace AccessPolicy

/-! ## The first of some problems -/

/-- The computation fails with the first of the problems, and has a result if there is none. -/
def ReportsFirst {ε α : Type} (x : Except ε α) (problems : List ε) : Prop :=
  match x with
  | .ok _ => problems = []
  | .error u => problems.head? = some u

namespace ReportsFirst
variable {ε α β : Type} {x : Except ε α} {problems : List ε}

theorem exists_ok_iff (h : ReportsFirst x problems) : (∃ a, x = .ok a) ↔ problems = [] := by
  cases x with
  | ok a => exact ⟨fun _ => h, fun _ => ⟨a, rfl⟩⟩
  | error u =>
      constructor
      · rintro ⟨a, ha⟩
        cases ha
      · rintro rfl
        cases h

theorem eq_error_iff (h : ReportsFirst x problems) {u : ε} :
    x = .error u ↔ problems.head? = some u := by
  cases x with
  | ok a =>
      obtain rfl : problems = [] := h
      constructor
      · intro hu
        cases hu
      · intro hu
        cases hu
  | error v =>
      rw [show problems.head? = some v from h, Option.some.injEq, Except.error.injEq]

/-- The problems of what comes later come later. -/
theorem bind (h : ReportsFirst x problems) {f : α → Except ε β} {later : List ε}
    (hf : ∀ a, x = .ok a → ReportsFirst (f a) later) :
    ReportsFirst (x >>= f) (problems ++ later) := by
  cases x with
  | ok a =>
      obtain rfl : problems = [] := h
      exact hf a rfl
  | error u =>
      show (problems ++ later).head? = some u
      rw [List.head?_append, show problems.head? = some u from h]
      rfl

end ReportsFirst

/-! ## The problems of a document -/

namespace Json

/-- The items of a field, none if it is no array. -/
def items (doc : Json) (name : String) : List Json := ((doc.field? name).bind asArray?).getD []

def version? (doc : Json) : Option Json := (doc.field? "metadata").bind fun m => m.field? "version"

theorem asString?_eq_some {j : Json} {s : String} : j.asString? = some s ↔ j = .string s := by
  cases j <;> simp [asString?]

end Json

namespace PolicySet

def missingIn (doc : Json) (part : String) : List DocumentError :=
  if ((doc.field? part).bind Json.asArray?).isSome then [] else [.missingField part]

def unsupported (doc : Json) : List DocumentError :=
  match doc.version? with
  | none => []
  | some v =>
    if v.asString? = some version then [] else [.unsupportedVersion (v.asString?.getD "")]

/-- The items that cannot be decoded, from some index on. -/
def malformedFrom {α : Type} (part : String) (d : Decoder α) (index : Nat) (js : List Json) :
    List DocumentError :=
  (js.zipIdx index).filterMap fun x =>
    match d x.1 with
    | .ok _ => none
    | .error cause => some (.malformed part x.2 cause)

def malformedIn {α : Type} (doc : Json) (part : String) (d : Decoder α) : List DocumentError :=
  malformedFrom part d 0 (doc.items part)

/-- All problems of a document: the parts that are missing, the version, and the entries that
cannot be decoded, by part and index. -/
def problems (doc : Json) : List DocumentError :=
  partNames.flatMap (missingIn doc) ++ unsupported doc ++
    (malformedIn doc "roles" Role.ofJson ++ malformedIn doc "users" User.ofJson ++
      malformedIn doc "resources" Resource.ofJson ++ malformedIn doc "policies" Policy.ofJson)

/-- All that is asked of a document. -/
structure WellFormed (doc : Json) : Prop where
  parts : ∀ part ∈ partNames, ∃ items, doc.field? part = some (.array items)
  version : ∀ v, doc.version? = some v → v = .string "1.0"
  roles : ∀ j ∈ doc.items "roles", ∃ r : Role, r.IsEntry j
  users : ∀ j ∈ doc.items "users", ∃ u : User, u.IsEntry j
  resources : ∀ j ∈ doc.items "resources", ∃ r : Resource, r.IsEntry j
  policies : ∀ j ∈ doc.items "policies", ∃ p : Policy, p.IsEntry j

variable {α : Type} {doc : Json} {part : String} {d : Decoder α}

theorem missingIn_eq_nil :
    missingIn doc part = [] ↔ ∃ items, doc.field? part = some (.array items) := by
  unfold missingIn
  cases hfield : doc.field? part with
  | none => simp
  | some j => cases j <;> simp [Json.asArray?]

theorem unsupported_eq_nil :
    unsupported doc = [] ↔ ∀ v, doc.version? = some v → v = .string "1.0" := by
  unfold unsupported
  cases doc.version? with
  | none => simp
  | some v =>
      dsimp only
      split_ifs with hversion
      · exact ⟨fun _ w hw => Option.some.inj hw ▸ Json.asString?_eq_some.mp hversion, fun _ => rfl⟩
      · constructor
        · intro h
          cases h
        · intro h
          exact absurd (Json.asString?_eq_some.mpr (h v rfl)) hversion

theorem malformedIn_eq_nil :
    malformedIn doc part d = [] ↔ ∀ j ∈ doc.items part, ∃ a, d j = .ok a := by
  have hitem : ∀ (j : Json) (index : Nat),
      (match d j with
        | .ok _ => none
        | .error cause => some (DocumentError.malformed part index cause)) = none ↔
        ∃ a, d j = .ok a := by
    intro j index
    cases d j <;> simp
  unfold malformedIn malformedFrom
  rw [List.filterMap_eq_nil_iff]
  constructor
  · intro h j hj
    obtain ⟨index, hindex⟩ := List.mem_iff_getElem?.mp hj
    exact (hitem j index).mp (h (j, index) (List.mk_mem_zipIdx_iff_getElem?.mpr hindex))
  · intro h x hx
    exact (hitem x.1 x.2).mpr (h x.1 (List.fst_mem_of_mem_zipIdx hx))

theorem problems_eq_nil : problems doc = [] ↔ WellFormed doc := by
  unfold problems
  simp only [List.append_eq_nil_iff, List.flatMap_eq_nil_iff, missingIn_eq_nil,
    unsupported_eq_nil, malformedIn_eq_nil, Role.ofJson_eq_ok, User.ofJson_eq_ok,
    Resource.ofJson_eq_ok, Policy.ofJson_eq_ok]
  constructor
  · rintro ⟨⟨hparts, hversion⟩, ⟨⟨hroles, husers⟩, hresources⟩, hpolicies⟩
    exact ⟨hparts, hversion, hroles, husers, hresources, hpolicies⟩
  · rintro ⟨hparts, hversion, hroles, husers, hresources, hpolicies⟩
    exact ⟨⟨hparts, hversion⟩, ⟨⟨hroles, husers⟩, hresources⟩, hpolicies⟩

/-! ## What the decoder reports -/

theorem reportsFirst_entries (doc : Json) (part : String) :
    ReportsFirst (entries doc part) (missingIn doc part) := by
  unfold entries missingIn
  cases (doc.field? part).bind Json.asArray? <;> rfl

theorem items_of_entries {js : List Json} (h : entries doc part = .ok js) :
    doc.items part = js := by
  unfold entries at h
  unfold Json.items
  split at h
  · next items hitems =>
    cases h
    rw [hitems]
    rfl
  · cases h

theorem reportsFirst_checkVersion (doc : Json) :
    ReportsFirst (checkVersion doc) (unsupported doc) := by
  unfold checkVersion unsupported Json.version?
  cases (doc.field? "metadata").bind fun m => m.field? "version" with
  | none => rfl
  | some v =>
      dsimp only
      -- no text at all is not the supported version either
      have hsame : v.asString?.getD "" = version ↔ v.asString? = some version := by
        cases v.asString? with
        | none => simp [version]
        | some s => simp
      simp only [hsame]
      split_ifs <;> rfl

theorem reportsFirst_decodeEntries (part : String) (d : Decoder α) (index : Nat)
    (js : List Json) :
    ReportsFirst (decodeEntries part d index js) (malformedFrom part d index js) := by
  induction js generalizing index with
  | nil => rfl
  | cons j js ih =>
      unfold decodeEntries malformedFrom
      rw [List.zipIdx_cons, List.filterMap_cons]
      cases d j with
      | error cause => rfl
      | ok a =>
          have hrest : ReportsFirst
              (decodeEntries part d (index + 1) js >>= fun as => Except.ok (a :: as))
              (malformedFrom part d (index + 1) js ++ []) := (ih (index + 1)).bind fun _ _ => rfl
          rwa [List.append_nil] at hrest

theorem reportsFirst_decodeEntries_of_entries {js : List Json} (h : entries doc part = .ok js)
    (d : Decoder α) : ReportsFirst (decodeEntries part d 0 js) (malformedIn doc part d) := by
  unfold malformedIn
  rw [items_of_entries h]
  exact reportsFirst_decodeEntries part d 0 js

/-- **The first problem is reported.** -/
theorem reportsFirst_ofJson (doc : Json) : ReportsFirst (ofJson doc) (problems doc) := by
  have horder : problems doc = missingIn doc "roles" ++ (missingIn doc "users" ++
      (missingIn doc "resources" ++ (missingIn doc "policies" ++ (unsupported doc ++
        (malformedIn doc "roles" Role.ofJson ++ (malformedIn doc "users" User.ofJson ++
          (malformedIn doc "resources" Resource.ofJson ++
            (malformedIn doc "policies" Policy.ofJson ++ [])))))))) := by
    simp [problems, partNames]
  rw [horder]
  unfold ofJson
  refine (reportsFirst_entries doc "roles").bind fun roles hroles => ?_
  refine (reportsFirst_entries doc "users").bind fun users husers => ?_
  refine (reportsFirst_entries doc "resources").bind fun resources hresources => ?_
  refine (reportsFirst_entries doc "policies").bind fun policies hpolicies => ?_
  refine (reportsFirst_checkVersion doc).bind fun _ _ => ?_
  refine (reportsFirst_decodeEntries_of_entries hroles Role.ofJson).bind fun _ _ => ?_
  refine (reportsFirst_decodeEntries_of_entries husers User.ofJson).bind fun _ _ => ?_
  refine (reportsFirst_decodeEntries_of_entries hresources Resource.ofJson).bind fun _ _ => ?_
  exact (reportsFirst_decodeEntries_of_entries hpolicies Policy.ofJson).bind fun _ _ => rfl

/-! ## What the decoder accepts -/

theorem forall₂_of_decodeEntries {index : Nat} {js : List Json} {as : List α}
    (h : decodeEntries part d index js = .ok as) : List.Forall₂ (fun j a => d j = .ok a) js as := by
  induction js generalizing index as with
  | nil =>
      cases h
      exact List.Forall₂.nil
  | cons j js ih =>
      unfold decodeEntries at h
      split at h
      · cases h
      · next a ha =>
        obtain ⟨rest, hrest, h⟩ := bind_eq_ok.mp h
        cases h
        exact List.Forall₂.cons ha (ih hrest)

/-- The entries of the document are the entities of the set, one after the other. -/
structure DecodedFrom (s : PolicySet) (doc : Json) : Prop where
  roles : List.Forall₂ (fun j (r : Role) => r.IsEntry j) (doc.items "roles") s.roles
  users : List.Forall₂ (fun j (u : User) => u.IsEntry j) (doc.items "users") s.users
  resources :
    List.Forall₂ (fun j (r : Resource) => r.IsEntry j) (doc.items "resources") s.resources
  policies : List.Forall₂ (fun j (p : Policy) => p.IsEntry j) (doc.items "policies") s.policies

theorem decodedFrom_of_ofJson {s : PolicySet} (h : ofJson doc = .ok s) : s.DecodedFrom doc := by
  obtain ⟨_, _, _, _, hroles, husers, hresources, hpolicies, _, hroles', husers', hresources',
    hpolicies'⟩ := ofJson_eq_ok.mp h
  constructor
  · rw [items_of_entries hroles]
    simpa only [Role.ofJson_eq_ok] using forall₂_of_decodeEntries hroles'
  · rw [items_of_entries husers]
    simpa only [User.ofJson_eq_ok] using forall₂_of_decodeEntries husers'
  · rw [items_of_entries hresources]
    simpa only [Resource.ofJson_eq_ok] using forall₂_of_decodeEntries hresources'
  · rw [items_of_entries hpolicies]
    simpa only [Policy.ofJson_eq_ok] using forall₂_of_decodeEntries hpolicies'

/-- **The earliest problem of a document is reported and nothing malformed is accepted.** A
document is decoded just if it is well formed, to a set with an entity for each of its entries.
Any other document is refused for the first of its problems. -/
theorem ofJson_earliest (doc : Json) :
    ((∃ s, ofJson doc = .ok s) ↔ WellFormed doc) ∧
    (∀ s, ofJson doc = .ok s → s.DecodedFrom doc) ∧
    ∀ e, ofJson doc = .error e ↔ (problems doc).head? = some e :=
  ⟨(reportsFirst_ofJson doc).exists_ok_iff.trans problems_eq_nil,
    fun _ => decodedFrom_of_ofJson, fun _ => (reportsFirst_ofJson doc).eq_error_iff⟩

/-- A missing part is reported before an entry of an earlier part, and before the version. -/
example : ofJson (.object [
    ("metadata", .object [("version", .string "2.0")]), ("policies", .array []),
    ("resources", .array []), ("roles", .array [.null])]) = .error (.missingField "users") := rfl

end PolicySet
end AccessPolicy
