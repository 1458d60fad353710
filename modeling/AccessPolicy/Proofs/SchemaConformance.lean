import AccessPolicy.Manifest
import AccessPolicy.PolicySet.Schema
import AccessPolicy.Proofs.ReferentialClosure
import AccessPolicy.Proofs.Schemas
import AccessPolicy.Proofs.WellFormedPrograms
import Mathlib.Tactic.MkIffOfInductiveProp
import Mathlib.Tactic.Tauto

/-!
# Compiled policy sets and the schema

The document of a policy set satisfies the schema just if the entities and the policies of the
set conform (`PolicySet.schema_accepts_toJson`). In a compiled set all entities do, and all
policies but those on a resource without a name: this is an error where undefined resources
are, but passes where they are warnings (`not_compilesToSchema_unnamed`).
-/

namespace AccessPolicy

/-! ## What the schema asks -/

/-- Text, a number or a truth value. -/
def Json.IsScalar (j : Json) : Prop :=
  j.isOfKind .string = true ∨ j.isOfKind .number = true ∨ j.isOfKind .boolean = true

/-- No property is without values, and all values are scalar. -/
def PropertyValues.Conform (properties : PropertyValues) : Prop :=
  ∀ p ∈ properties, p.2 ≠ [] ∧ ∀ v ∈ p.2, v.IsScalar

@[mk_iff]
structure EntityConforms (name : String) (properties : PropertyValues) (line : Nat) : Prop where
  name : isIdentifierText name = true
  properties : properties.Conform
  line : 1 ≤ line

@[mk_iff]
structure Policy.Conforms (p : Policy) : Prop where
  actions_ne_nil : p.actions ≠ []
  actions : ∀ a ∈ p.actions, IsAction a
  resource : p.resource ≠ ""
  line : ∀ n, p.line = some n → 1 ≤ n

@[mk_iff]
structure PolicySet.Conforms (s : PolicySet) : Prop where
  roles : ∀ r ∈ s.roles, EntityConforms r.name r.properties r.line ∧ ∀ a ∈ r.permissions, IsAction a
  users : ∀ u ∈ s.users, EntityConforms u.name u.properties u.line
  resources : ∀ r ∈ s.resources, EntityConforms r.name r.properties r.line
  policies : ∀ p ∈ s.policies, p.Conforms

namespace PolicySet
namespace Schema
open AccessPolicy.Schema

theorem accepts_name {s : String} :
    name.accepts (.string s) = true ↔ isIdentifierText s = true := by
  simp [name, Json.isOfKind]

theorem accepts_optionalText (text : Option String) :
    optionalText.accepts (.optionalString text) = true := by
  cases text <;> simp [optionalText, Json.optionalString, Json.isOfKind]

theorem accepts_line {n : Nat} : line.accepts (.nat n) = true ↔ 1 ≤ n := by
  have hminimum : (1 : Int) ≤ n ↔ 1 ≤ n := by omega
  simp [line, Json.nat, Json.whole, Json.isOfKind, hminimum]

theorem accepts_count (n : Nat) : count.accepts (.nat n) = true := by
  simp [count, Json.nat, Json.whole, Json.isOfKind]

theorem accepts_action {a : String} : action.accepts (.string a) = true ↔ IsAction a := by
  simp [action, Json.isOfKind, IsAction, actionWords, or_assoc]

theorem accepts_properties {properties : PropertyValues} :
    Schema.properties.accepts (PropertyValues.toJson properties) = true ↔ properties.Conform := by
  unfold Schema.properties PropertyValues.toJson PropertyValues.Conform
  rw [accepts_map, List.forall_mem_map]
  refine forall₂_congr fun p _ => ?_
  rw [accepts_array]
  refine and_congr ?_ (forall₂_congr fun v _ => ?_)
  · rw [Nat.one_le_iff_ne_zero, Ne, List.length_eq_zero_iff]
  · simp [Json.IsScalar]

theorem accepts_optionalLine {n : Option Nat} :
    (either [line, .value [.kinds [.null]]]).accepts (.optionalNat n) = true ↔
      ∀ m, n = some m → 1 ≤ m := by
  rw [accepts_either]
  cases n with
  | none =>
      have hline : line.accepts .null = false := by decide
      have hnull : (value [.kinds [.null]]).accepts .null = true := by decide
      simp [Json.optionalNat, hline, hnull]
  | some m =>
      have hnull : (value [.kinds [.null]]).accepts (.nat m) = false := by
        rw [← Bool.not_eq_true]
        simp [Json.nat, Json.whole, Json.isOfKind]
      simp [Json.optionalNat, hnull, List.countP_cons, accepts_line]
      omega

theorem accepts_role {r : Role} : role.accepts r.toJson = true ↔
    EntityConforms r.name r.properties r.line ∧ ∀ a ∈ r.permissions, IsAction a := by
  unfold role Role.toJson
  rw [accepts_record, entityConforms_iff]
  simp [NameMap.names, NameMap.get?, accepts_name, accepts_line, accepts_properties,
    accepts_array, accepts_action, Json.strings]
  tauto

theorem accepts_user {u : User} : user.accepts u.toJson = true ↔
    EntityConforms u.name u.properties u.line := by
  unfold user User.toJson
  rw [accepts_record, entityConforms_iff]
  simp [NameMap.names, NameMap.get?, accepts_name, accepts_line, accepts_properties,
    accepts_optionalText]
  tauto

theorem accepts_resource {r : Resource} : resource.accepts r.toJson = true ↔
    EntityConforms r.name r.properties r.line := by
  unfold resource Resource.toJson
  rw [accepts_record, entityConforms_iff]
  simp [NameMap.names, NameMap.get?, accepts_name, accepts_line, accepts_properties,
    accepts_optionalText]
  tauto

theorem accepts_policy {p : Policy} : policy.accepts p.toJson = true ↔ p.Conforms := by
  have heffect : (value [.among [Effect.allow.text, Effect.deny.text]]).accepts
      (.string p.effect.text) = true := by
    cases p.effect <;> decide
  have hresource : (value [.kinds [.string], .minLength 1]).accepts (.string p.resource) = true ↔
      p.resource ≠ "" := by
    have hlength : 1 ≤ p.resource.length ↔ p.resource ≠ "" := by
      rw [Nat.one_le_iff_ne_zero, Ne, String.length_eq_zero_iff]
    simp [Json.isOfKind, hlength]
  have hactions : (array 1 action).accepts (.strings p.actions) = true ↔
      p.actions ≠ [] ∧ ∀ a ∈ p.actions, IsAction a := by
    unfold Json.strings
    rw [accepts_array, List.length_map, Nat.one_le_iff_ne_zero, Ne, List.length_eq_zero_iff,
      List.forall_mem_map]
    simp only [accepts_action]
  have hsynthesized : (value [.kinds [.boolean]]).accepts (.bool p.synthesized) = true := by
    cases p.synthesized <;> decide
  unfold policy Policy.toJson
  rw [accepts_record, Policy.conforms_iff]
  simp [NameMap.names, NameMap.get?, heffect, hresource, hactions, hsynthesized,
    accepts_optionalText, accepts_optionalLine]
  tauto

theorem accepts_counts (policies resources roles synthesized users : Nat) :
    counts.accepts (.object [
      ("policies", .nat policies),
      ("resources", .nat resources),
      ("roles", .nat roles),
      ("synthesized_policies", .nat synthesized),
      ("users", .nat users)]) = true := by
  unfold counts
  rw [accepts_record]
  constructor
  · unfold NameMap.names
    simp only [List.map_cons, List.map_nil]
    decide +kernel
  · iterate 4 refine List.forall_mem_cons.mpr ⟨⟨count, rfl, accepts_count _⟩, ?_⟩
    exact List.forall_mem_singleton.mpr ⟨count, rfl, accepts_count _⟩

theorem accepts_metadata (s : PolicySet) : metadata.accepts s.metadata = true := by
  have hversion : (value [.exactly version]).accepts (.string version) = true := by simp
  unfold metadata PolicySet.metadata
  rw [accepts_record]
  constructor
  · simp [NameMap.names]
  · refine List.forall_mem_cons.mpr ⟨⟨counts, rfl, accepts_counts ..⟩, ?_⟩
    exact List.forall_mem_singleton.mpr ⟨_, rfl, hversion⟩

end Schema

/-- **What the schema asks.** The document of a policy set satisfies the schema just if its
entities and its policies conform. -/
theorem schema_accepts_toJson {s : PolicySet} : schema.accepts s.toJson = true ↔ s.Conforms := by
  unfold schema toJson
  rw [AccessPolicy.Schema.accepts_record, conforms_iff]
  simp [NameMap.names, NameMap.get?, AccessPolicy.Schema.accepts_array, Schema.accepts_metadata,
    Schema.accepts_role, Schema.accepts_user, Schema.accepts_resource, Schema.accepts_policy]
  tauto

end PolicySet

theorem Manifest.check_wrap (document : Json) : check (wrap document) = [] := by
  have hfields : (wrap document).field? "ir" = some document ∧
      (wrap document).field? "spl" = some (.string version) ∧
      (wrap document).field? "etag" = some (.string (tag document)) := by
    refine ⟨?_, ?_, ?_⟩ <;> simp [wrap, Json.field?, NameMap.get?]
  obtain ⟨hdocument, hversion, htag⟩ := hfields
  unfold check versionFaults tagFaults
  rw [hdocument, hversion, htag]
  simp [Json.asString?]

/-! ## What compiled sets have -/

theorem isIdentifierText_of_isWord {name : String} (h : Lexeme.IsWord name.toList) :
    isIdentifierText name = true := by
  have hletter : ∀ c, Lexeme.isLetter c = true → c.isAlpha = true := by
    intro c hc
    show (decide (c.val ≥ 'A'.val ∧ c.val ≤ 'Z'.val) ||
      decide (c.val ≥ 'a'.val) && decide (c.val ≤ 'z'.val)) = true
    simp only [Lexeme.isLetter, Bool.or_eq_true, Bool.and_eq_true, decide_eq_true_eq,
      Char.le_def] at hc ⊢
    exact hc.symm
  have hdigit : ∀ c, Text.isDigit c = true → c.isDigit = true := by
    intro c hc
    simpa [Text.isDigit, Char.isDigit, Char.le_def] using hc
  unfold isIdentifierText
  cases hname : name.toList with
  | nil =>
      rw [hname] at h
      cases h
  | cons c rest =>
      rw [hname] at h
      obtain ⟨hfirst, hrest⟩ := h
      rw [Bool.and_eq_true, Bool.or_eq_true, List.all_eq_true]
      constructor
      · exact (Bool.or_eq_true_iff.mp hfirst).imp_left (hletter c)
      · intro d hd
        have hcontinues := hrest d hd
        unfold Lexeme.continuesWord at hcontinues
        rw [Bool.or_eq_true, Bool.or_eq_true] at hcontinues
        unfold Char.isAlphanum
        rw [Bool.or_eq_true, Bool.or_eq_true]
        exact hcontinues.imp_left (Or.imp (hletter d) (hdigit d))

theorem Literal.isScalar_toJson (v : Literal) : v.toJson.IsScalar := by
  unfold Json.IsScalar
  cases v with
  | decimal spelling =>
      unfold toJson
      dsimp only
      split
      · exact Or.inr (Or.inl rfl)
      · exact Or.inl rfl
  | string s => exact Or.inl rfl
  | int n => exact Or.inr (Or.inl rfl)
  | bool b => exact Or.inr (Or.inr rfl)

namespace Program.Accepted
variable {o : Options} {source : String} {p : Program}

theorem entityConforms (h : p.Accepted o source) {kind : DefinitionKind} {d : Definition}
    (hd : d ∈ p.definitions kind) : EntityConforms d.name d.propertyValues d.line := by
  constructor
  · exact isIdentifierText_of_isWord (h.wellFormed_name hd).1
  · intro e he
    obtain ⟨property, hproperty, rfl⟩ := List.mem_map.mp he
    have hvalues := wellFormed_properties h.read hd property hproperty
    refine ⟨mt List.map_eq_nil_iff.mp hvalues.ne_nil, fun v hv => ?_⟩
    obtain ⟨literal, _, rfl⟩ := List.mem_map.mp hv
    exact literal.isScalar_toJson
  · exact one_le_line_of_mem_definitions h.read hd

theorem policy_conforms_iff (h : p.Accepted o source) {q : Policy}
    (hq : q ∈ (PolicySet.ofProgram o.synthesize p).policies) : q.Conforms ↔ q.resource ≠ "" := by
  refine ⟨Policy.Conforms.resource, fun hname => ?_⟩
  rcases h.mem_policies_cases hq with ⟨r, hr, rfl⟩ | ⟨role, hrole, hcan, resource, _, rfl⟩
  · refine ⟨actions_ne_nil h.read hr, isAction_of_mem_actions h.read hr, hname, ?_⟩
    rintro n ⟨⟩
    exact one_le_line_of_mem_rules h.read hr
  · refine ⟨hcan, isAction_of_mem_can h.read hrole, hname, ?_⟩
    -- a synthesized policy has no line
    rintro n ⟨⟩

/-- The policy set of an accepted program conforms just if all its policies are about
resources with names. -/
theorem conforms_iff (h : p.Accepted o source) :
    (PolicySet.ofProgram o.synthesize p).Conforms ↔
      ∀ q ∈ (PolicySet.ofProgram o.synthesize p).policies, q.resource ≠ "" := by
  constructor
  · exact fun hconforms q hq => (hconforms.policies q hq).resource
  · intro hnames
    constructor
    · rw [h.roles_ofProgram, List.forall_mem_map]
      exact fun d hd => ⟨h.entityConforms hd, isAction_of_mem_can h.read hd⟩
    · rw [h.users_ofProgram, List.forall_mem_map]
      exact fun d hd => h.entityConforms hd
    · rw [h.resources_ofProgram, List.forall_mem_map]
      exact fun d hd => h.entityConforms hd
    · exact fun q hq => (h.policy_conforms_iff hq).mpr (hnames q hq)

theorem resource_ne_empty (h : p.Accepted o source) (hstrict : o.undefinedResources = .strict)
    {q : Policy} (hq : q ∈ (PolicySet.ofProgram o.synthesize p).policies) : q.resource ≠ "" := by
  intro hempty
  obtain ⟨r, hr, hname⟩ := h.exists_target hstrict hq (by rw [hempty]; simp)
  rw [h.resources_ofProgram] at hr
  obtain ⟨d, hd, rfl⟩ := List.mem_map.mp hr
  exact h.name_ne_empty hd (hname.trans hempty)

end Program.Accepted

/-- **Compiled sets and the schema.** The document of a compiled policy set satisfies the
schema just if no policy is about a resource without a name. None is where undefined resources
are errors. The manifest of the document has nothing wrong. -/
theorem PolicySet.schema_accepts_of_compile {o : Options} {source : String} {ir : PolicySet}
    (hcompile : (compile o source).policySet = some ir) :
    (schema.accepts ir.toJson = true ↔ ∀ p ∈ ir.policies, p.resource ≠ "") ∧
      (o.undefinedResources = .strict → ∀ p ∈ ir.policies, p.resource ≠ "") ∧
      Manifest.check (Manifest.wrap ir.toJson) = [] := by
  obtain ⟨p, hp, _, _⟩ := program_of_compile hcompile
  obtain ⟨h, rfl⟩ := accepted_of_compile hcompile hp
  refine ⟨?_, fun hstrict q hq => h.resource_ne_empty hstrict hq, Manifest.check_wrap _⟩
  rw [schema_accepts_toJson, h.conforms_iff]

/-! ## A resource without a name -/

/-- Whatever is compiled satisfies the schema, and its manifest has nothing wrong. -/
def CompilesToSchema (o : Options) (source : String) : Prop :=
  ∀ ir, (compile o source).policySet = some ir →
    PolicySet.schema.accepts ir.toJson = true ∧ Manifest.check (Manifest.wrap ir.toJson) = []

/-- A text with a resource, and a rule on the resource of a name. -/
def documentSource (name : String) : String :=
  "RESOURCE doc \x7bsize: 2.5\x7d ALLOW action: read ON RESOURCE: \"" ++ name ++ "\""

def documentProgram (name : String) : Program := ⟨[
  .definition .resource ⟨"doc", [("size", [.decimal "2.5"])], 1⟩,
  .rule ⟨.allow, ["read"], name, none, 1⟩]⟩

/-- The options with which undefined resources are warnings. -/
def lenientOptions : Options := { undefinedResources := .lenient }

/-- A rule on the empty name passes, and is not in the schema. -/
theorem not_compilesToSchema_unnamed : ¬CompilesToSchema lenientOptions (documentSource "") := by
  obtain ⟨hcompile, _⟩ : (compile lenientOptions (documentSource "")).policySet =
      some (.ofProgram true (documentProgram "")) ∧ _ :=
    compile_of_read (by decide +kernel) (by decide +kernel) (by decide +kernel)
  intro h
  obtain ⟨haccepts, _⟩ := h _ hcompile
  have hconforms := PolicySet.schema_accepts_toJson.mp haccepts
  exact (hconforms.policies ⟨.allow, ["read"], "", none, some 1, false⟩
    (List.mem_singleton_self _)).resource rfl

/-- A rule on the resource satisfies the schema under the same options. -/
theorem PolicySet.schema_accepts_of_compile_doc :
    (compile lenientOptions (documentSource "doc")).policySet =
        some (.ofProgram true (documentProgram "doc")) ∧
      schema.accepts (ofProgram true (documentProgram "doc")).toJson = true := by
  obtain ⟨hcompile, _⟩ : (compile lenientOptions (documentSource "doc")).policySet =
      some (.ofProgram true (documentProgram "doc")) ∧ _ :=
    compile_of_read (by decide +kernel) (by decide +kernel) (by decide +kernel)
  obtain ⟨haccepts, _, _⟩ := schema_accepts_of_compile hcompile
  refine ⟨hcompile, haccepts.mpr fun p hp => ?_⟩
  have hname : ∀ p ∈ (ofProgram true (documentProgram "doc")).policies, p.resource = "doc" := by
    decide +kernel
  rw [hname p hp]
  decide

end AccessPolicy
