import AccessPolicy.Manifest
import AccessPolicy.PolicySet.Schema
import AccessPolicy.Proofs.Documents
import AccessPolicy.Proofs.Schemas

/-!
# Documents that the schema accepts

What the schema of policy sets accepts, the decoder takes, but for the lines: the schema takes
every whole number from 1 on for a line, also one that is written with a fraction of zero, and the
decoder a whole number of 32 bits. So a document that satisfies the schema is decoded just if its
lines are such numbers (`PolicySet.exists_ofJson_of_accepts`), and there are documents that
satisfy it and are refused (`PolicySet.not_decodesAccepted`).
-/

namespace AccessPolicy

/-! ## Lines of a document -/

namespace Json

/-- A line number as the decoder takes it. -/
def IsLine (j : Json) : Prop := ∃ n, n ≤ greatestLine ∧ j = .nat n

def entryLines : Json → List Json
  | .object fields => (fields.filter fun f => f.1 = "line").map Prod.snd
  | _ => []

def documentLines (doc : Json) : List Json :=
  PolicySet.partNames.flatMap fun part =>
    (((doc.field? part).bind asArray?).getD []).flatMap entryLines

theorem mem_entryLines {fields : List (String × Json)} {l : Json} :
    l ∈ (Json.object fields).entryLines ↔ ("line", l) ∈ fields := by
  unfold entryLines
  rw [List.mem_map]
  constructor
  · rintro ⟨⟨name, j⟩, hmem, rfl⟩
    obtain ⟨hfield, hname⟩ := List.mem_filter.mp hmem
    obtain rfl : name = "line" := of_decide_eq_true hname
    exact hfield
  · intro hmem
    exact ⟨("line", l), List.mem_filter.mpr ⟨hmem, rfl⟩, rfl⟩

end Json

/-! ## Schemas within spellings -/

namespace Schema
variable {α : Type} {schema : Schema} {S : Spelling α}

/-- What the schema accepts is a value. -/
def Within (schema : Schema) (S : Spelling α) : Prop :=
  ∀ j, schema.accepts j = true → ∃ a, S a j

theorem within_text {rules : List SchemaRule} :
    (value (.kinds [.string] :: rules)).Within Spelling.text := by
  intro j hj
  have hkind := accepts_value.mp hj _ List.mem_cons_self
  cases j with
  | string s => exact ⟨s, rfl⟩
  | number n => cases n <;> simp [Json.isOfKind] at hkind
  | _ => simp [Json.isOfKind] at hkind

theorem within_optionalText {rules : List SchemaRule} :
    (value (.kinds [.string, .null] :: rules)).Within Spelling.text.optional := by
  intro j hj
  have hkind := accepts_value.mp hj _ List.mem_cons_self
  cases j with
  | string s => exact ⟨some s, rfl⟩
  | null => exact ⟨none, rfl⟩
  | number n => cases n <;> simp [Json.isOfKind] at hkind
  | _ => simp [Json.isOfKind] at hkind

theorem within_flag {rules : List SchemaRule} :
    (value (.kinds [.boolean] :: rules)).Within Spelling.flag := by
  intro j hj
  have hkind := accepts_value.mp hj _ List.mem_cons_self
  cases j with
  | bool b => exact ⟨b, rfl⟩
  | number n => cases n <;> simp [Json.isOfKind] at hkind
  | _ => simp [Json.isOfKind] at hkind

theorem within_effect :
    (value [.among [Effect.allow.text, Effect.deny.text]]).Within Spelling.effect := by
  intro j hj
  have hamong := accepts_value.mp hj _ List.mem_cons_self
  cases j with
  | string s =>
      rw [SchemaRule.allows_among] at hamong
      simp only [List.mem_cons, List.not_mem_nil, or_false] at hamong
      rcases hamong with rfl | rfl
      · exact ⟨.allow, Spelling.effect_text .allow⟩
      · exact ⟨.deny, Spelling.effect_text .deny⟩
  | _ => simp [SchemaRule.Allows, SchemaRule.faults] at hamong

theorem within_texts {least : Nat} (h : schema.Within Spelling.text) :
    (array least schema).Within Spelling.texts := by
  intro j hj
  obtain ⟨items, rfl⟩ := exists_of_accepts_array hj
  obtain ⟨_, hitems⟩ := accepts_array.mp hj
  obtain ⟨ss, hss⟩ := exists_mapM_eq_ok.mpr fun i hi =>
    (h i (hitems i hi)).imp fun s hs => (Decoder.reads_string i s).mpr hs
  exact ⟨ss, (Decoder.reads_strings _ ss).mp hss⟩

theorem within_properties {least : Nat} :
    (map (array least schema)).Within Spelling.properties := by
  intro j hj
  obtain ⟨entries, rfl⟩ := exists_of_accepts_map hj
  have hentries := accepts_map.mp hj
  obtain ⟨ps, hps⟩ : ∃ ps, Decoder.properties (.object entries) = .ok ps := by
    refine exists_mapM_eq_ok.mpr fun e he => ?_
    obtain ⟨items, hitems⟩ := exists_of_accepts_array (hentries e he)
    exact ⟨(e.1, items), map_eq_ok.mpr ⟨items, Decoder.list_any_eq_ok.mpr hitems, rfl⟩⟩
  exact ⟨ps, (Decoder.reads_properties _ ps).mp hps⟩

/-! ## Records -/

section
variable {required : List String} {fields : List (String × Schema)}
  {entries : List (String × Json)} {name : String}

theorem exists_field (h : (record required fields).accepts (.object entries) = true)
    (hname : name ∈ required) : ∃ j, NameMap.get? entries name = some j :=
  Option.isSome_iff_exists.mp (NameMap.contains_iff.mpr ((accepts_record.mp h).1 name hname))

theorem accepts_field (h : (record required fields).accepts (.object entries) = true)
    (hfield : NameMap.get? fields name = some schema) {j : Json} (hj : (name, j) ∈ entries) :
    schema.accepts j = true := by
  obtain ⟨schema', hschema', hj'⟩ := (accepts_record.mp h).2 _ hj
  cases hfield.symm.trans hschema'
  exact hj'

theorem fits_of_accepts (h : (record required fields).accepts (.object entries) = true)
    (hfield : NameMap.get? fields name = some schema) (hwithin : schema.Within S) :
    S.Fits entries name :=
  fun j hj => hwithin j (accepts_field h hfield hj)

theorem exists_required (h : (record required fields).accepts (.object entries) = true)
    (name : String) (hname : name ∈ required) (hfits : S.Fits entries name) :
    ∃ a, S.Required entries name a := by
  obtain ⟨j, hj⟩ := exists_field h hname
  obtain ⟨a, ha⟩ := hfits j (NameMap.mem_of_get? hj)
  exact ⟨a, hfits, j, hj, ha⟩

end
end Schema

theorem Spelling.exists_defaulted {α : Type} {S : Spelling α} {entries : List (String × Json)}
    (name : String) (hfits : S.Fits entries name) (default : α) :
    ∃ a, S.Defaulted entries name default a := by
  cases hfield : NameMap.get? entries name with
  | none => exact ⟨default, hfits, Or.inl ⟨hfield, rfl⟩⟩
  | some j =>
      obtain ⟨a, ha⟩ := hfits j (NameMap.mem_of_get? hfield)
      exact ⟨a, hfits, Or.inr ⟨j, hfield, ha⟩⟩

/-! ## Entities and policies -/

namespace PolicySet
namespace Schema
open AccessPolicy.Schema

def entity (own : String) (ownSchema : Schema) : Schema :=
  .record ["name", own, "properties", "line"] [
    ("name", name),
    (own, ownSchema),
    ("properties", properties),
    ("line", line)]

section
variable {α : Type} {own : String} {ownSchema : Schema} {S : Spelling α}

theorem entryLine_iff {entries : List (String × Json)} {l : Json} (hline : own ≠ "line")
    (h : (entity own ownSchema).accepts (.object entries) = true)
    (hl : l ∈ (Json.object entries).entryLines) : (l = .null ∨ l.IsLine) ↔ l.IsLine := by
  have haccepted : line.accepts l = true :=
    accepts_field h (by simp [NameMap.get?, hline]) (Json.mem_entryLines.mp hl)
  refine or_iff_right ?_
  rintro rfl
  exact absurd haccepted (by decide)

/-- What is accepted as an entity is one just if its line is a line, whatever its own field. -/
theorem exists_isEntity_iff {default : α} {j : Json}
    (hnew : own ∉ ["name", "properties", "line"]) (hwithin : ownSchema.Within S)
    (h : (entity own ownSchema).accepts j = true) :
    (∃ name a ps n, IsEntity own S default name a ps n j) ↔
      ∀ l ∈ j.entryLines, l = .null ∨ l.IsLine := by
  obtain ⟨entries, rfl⟩ := exists_of_accepts_record h
  simp only [List.mem_cons, List.not_mem_nil, or_false, not_or] at hnew
  obtain ⟨hname, hproperties, hline⟩ := hnew
  rw [forall₂_congr fun _ => entryLine_iff hline h]
  constructor
  · rintro ⟨_, _, _, _, h⟩ l hl
    cases h with
    | named _ _ _ hlines => exact hlines.1 l (Json.mem_entryLines.mp hl)
  · intro hlines
    have hfits : Spelling.line.Fits entries "line" :=
      fun j hj => hlines j (Json.mem_entryLines.mpr hj)
    have hownField : NameMap.get? [("name", name), (own, ownSchema), ("properties", properties),
        ("line", line)] own = some ownSchema := by
      simp [NameMap.get?, Ne.symm hname]
    have hpropertiesField : NameMap.get? [("name", name), (own, ownSchema),
        ("properties", properties), ("line", line)] "properties" = some properties := by
      simp [NameMap.get?, hproperties]
    obtain ⟨text, htext⟩ := exists_required h "name" (by simp) (fits_of_accepts h rfl within_text)
    obtain ⟨a, ha⟩ := Spelling.exists_defaulted own (fits_of_accepts h hownField hwithin) default
    obtain ⟨ps, hps⟩ := Spelling.exists_defaulted "properties"
      (fits_of_accepts h hpropertiesField within_properties) []
    obtain ⟨n, hn⟩ := exists_required h "line" (by simp) hfits
    exact ⟨text, a, ps, n, .named htext ha hps hn⟩

theorem exists_role_iff {j : Json} (h : role.accepts j = true) :
    (∃ r, Role.ofJson j = .ok r) ↔ ∀ l ∈ j.entryLines, l = .null ∨ l.IsLine := by
  rw [← exists_isEntity_iff (by decide) (within_texts within_text) h]
  simp only [Role.ofJson_eq_ok]
  exact ⟨fun ⟨r, hr⟩ => ⟨_, _, _, _, hr⟩, fun ⟨_, _, _, _, hr⟩ => ⟨⟨_, _, _, _⟩, hr⟩⟩

theorem exists_user_iff {j : Json} (h : user.accepts j = true) :
    (∃ u, User.ofJson j = .ok u) ↔ ∀ l ∈ j.entryLines, l = .null ∨ l.IsLine := by
  rw [← exists_isEntity_iff (by decide) within_optionalText h]
  simp only [User.ofJson_eq_ok]
  exact ⟨fun ⟨u, hu⟩ => ⟨_, _, _, _, hu⟩, fun ⟨_, _, _, _, hu⟩ => ⟨⟨_, _, _, _⟩, hu⟩⟩

theorem exists_resource_iff {j : Json} (h : resource.accepts j = true) :
    (∃ r, Resource.ofJson j = .ok r) ↔ ∀ l ∈ j.entryLines, l = .null ∨ l.IsLine := by
  rw [← exists_isEntity_iff (by decide) within_optionalText h]
  simp only [Resource.ofJson_eq_ok]
  exact ⟨fun ⟨r, hr⟩ => ⟨_, _, _, _, hr⟩, fun ⟨_, _, _, _, hr⟩ => ⟨⟨_, _, _, _⟩, hr⟩⟩

theorem exists_optionalLine {j : Json} :
    (∃ n, Spelling.line.optional n j) ↔ j = .null ∨ j.IsLine := by
  constructor
  · rintro ⟨n, hn⟩
    cases n with
    | none => exact Or.inl hn
    | some n => exact Or.inr ⟨n, hn⟩
  · rintro (hnull | ⟨n, hn⟩)
    · exact ⟨none, hnull⟩
    · exact ⟨some n, hn⟩

theorem exists_policy_iff {j : Json} (h : policy.accepts j = true) :
    (∃ p, Policy.ofJson j = .ok p) ↔ ∀ l ∈ j.entryLines, l = .null ∨ l.IsLine := by
  unfold policy at h
  obtain ⟨entries, rfl⟩ := exists_of_accepts_record h
  simp only [Policy.ofJson_eq_ok, ← exists_optionalLine]
  constructor
  · rintro ⟨_, hp⟩ l hl
    cases hp with
    | named _ _ _ _ hlines _ => exact hlines.1 l (Json.mem_entryLines.mp hl)
  · intro hlines
    have hfits : Spelling.line.optional.Fits entries "line" :=
      fun j hj => hlines j (Json.mem_entryLines.mpr hj)
    obtain ⟨effect, heffect⟩ :=
      exists_required h "type" (by simp) (fits_of_accepts h rfl within_effect)
    obtain ⟨as, has⟩ :=
      exists_required h "actions" (by simp) (fits_of_accepts h rfl (within_texts within_text))
    obtain ⟨r, hr⟩ := exists_required h "resource" (by simp) (fits_of_accepts h rfl within_text)
    obtain ⟨c, hc⟩ :=
      Spelling.exists_defaulted "condition" (fits_of_accepts h rfl within_optionalText) none
    obtain ⟨n, hn⟩ := Spelling.exists_defaulted "line" hfits none
    obtain ⟨b, hb⟩ :=
      Spelling.exists_defaulted "synthesized" (fits_of_accepts h rfl within_flag) false
    exact ⟨⟨effect, as, r, c, n, b⟩, .named heffect has hr hc hn hb⟩

end
end Schema

/-! ## Whole documents -/

theorem entries_of_accepts {required : List String} {fields : List (String × Schema)}
    {entrySchema : Schema} {least : Nat} {doc : Json}
    (h : (Schema.record required fields).accepts doc = true) (part : String)
    (hpart : part ∈ required)
    (hfield : NameMap.get? fields part = some (.array least entrySchema)) :
    ∃ js, entries doc part = .ok js ∧ ((doc.field? part).bind Json.asArray?).getD [] = js ∧
      ∀ j ∈ js, entrySchema.accepts j = true := by
  obtain ⟨doc, rfl⟩ := Schema.exists_of_accepts_record h
  obtain ⟨j, hj⟩ := Schema.exists_field h hpart
  have haccepted := Schema.accepts_field h hfield (NameMap.mem_of_get? hj)
  obtain ⟨js, rfl⟩ := Schema.exists_of_accepts_array haccepted
  have hpart : (Json.object doc).field? part = some (.array js) := hj
  unfold entries
  rw [hpart]
  exact ⟨js, rfl, rfl, (Schema.accepts_array.mp haccepted).2⟩

theorem checkVersion_of_accepts {doc : Json} (h : schema.accepts doc = true) :
    checkVersion doc = .ok () := by
  unfold schema at h
  obtain ⟨doc, rfl⟩ := Schema.exists_of_accepts_record h
  obtain ⟨m, hm⟩ := Schema.exists_field h (by simp : "metadata" ∈ _)
  have hmetadata : Schema.metadata.accepts m = true :=
    Schema.accepts_field h rfl (NameMap.mem_of_get? hm)
  unfold Schema.metadata at hmetadata
  obtain ⟨m, rfl⟩ := Schema.exists_of_accepts_record hmetadata
  obtain ⟨v, hv⟩ := Schema.exists_field hmetadata (by simp : "version" ∈ _)
  have hexactly : (SchemaRule.exactly version).Allows v :=
    Schema.accepts_value.mp (Schema.accepts_field hmetadata rfl (NameMap.mem_of_get? hv)) _
      List.mem_cons_self
  obtain rfl : v = .string version := by
    cases v with
    | string s => rw [SchemaRule.allows_exactly.mp hexactly]
    | _ => simp [SchemaRule.Allows, SchemaRule.faults] at hexactly
  have hfound : ((Json.object doc).field? "metadata").bind (fun m => m.field? "version") =
      some (.string version) := by
    have hm' : (Json.object doc).field? "metadata" = some (.object m) := hm
    rw [hm']
    exact hv
  unfold checkVersion
  rw [hfound]
  exact if_pos rfl

/-- A document whose parts are there and whose version is supported is decoded just if all its
entries are. -/
theorem exists_ofJson_iff {doc : Json} {roles users resources policies : List Json}
    (hroles : entries doc "roles" = .ok roles) (husers : entries doc "users" = .ok users)
    (hresources : entries doc "resources" = .ok resources)
    (hpolicies : entries doc "policies" = .ok policies) (hversion : checkVersion doc = .ok ()) :
    (∃ s, ofJson doc = .ok s) ↔ (∀ j ∈ roles, ∃ r, Role.ofJson j = .ok r) ∧
      (∀ j ∈ users, ∃ u, User.ofJson j = .ok u) ∧
      (∀ j ∈ resources, ∃ r, Resource.ofJson j = .ok r) ∧
      ∀ j ∈ policies, ∃ p, Policy.ofJson j = .ok p := by
  constructor
  · rintro ⟨s, hs⟩
    obtain ⟨_, _, _, _, hroles', husers', hresources', hpolicies', _, hr, hu, hs, hp⟩ :=
      ofJson_eq_ok.mp hs
    cases hroles.symm.trans hroles'
    cases husers.symm.trans husers'
    cases hresources.symm.trans hresources'
    cases hpolicies.symm.trans hpolicies'
    exact ⟨exists_decodeEntries.mp ⟨_, hr⟩, exists_decodeEntries.mp ⟨_, hu⟩,
      exists_decodeEntries.mp ⟨_, hs⟩, exists_decodeEntries.mp ⟨_, hp⟩⟩
  · rintro ⟨hr, hu, hs, hp⟩
    obtain ⟨rs, hrs⟩ := exists_decodeEntries.mpr hr
    obtain ⟨us, hus⟩ := exists_decodeEntries.mpr hu
    obtain ⟨ss, hss⟩ := exists_decodeEntries.mpr hs
    obtain ⟨ps, hps⟩ := exists_decodeEntries.mpr hp
    exact ⟨⟨rs, us, ss, ps⟩, ofJson_eq_ok.mpr ⟨roles, users, resources, policies, hroles, husers,
      hresources, hpolicies, hversion, hrs, hus, hss, hps⟩⟩

theorem isManifest_of_accepts {doc : Json} (h : schema.accepts doc = true) :
    Manifest.isManifest doc = false := by
  unfold schema at h
  obtain ⟨doc, rfl⟩ := Schema.exists_of_accepts_record h
  refine Option.isSome_eq_false_iff.mpr (Option.isNone_iff_eq_none.mpr ?_)
  refine Option.eq_none_iff_forall_ne_some.mpr fun tag htag => ?_
  obtain ⟨_, hschema, _⟩ := (Schema.accepts_record.mp h).2 _ (NameMap.mem_of_get? htag)
  cases hschema

/-- **Documents that the schema accepts.** Such a document is no manifest, and it is decoded just
if its lines are whole numbers of 32 bits or, of policies, null. -/
theorem exists_ofJson_of_accepts {doc : Json} (h : schema.accepts doc = true) :
    Manifest.isManifest doc = false ∧
      ((∃ s, ofJson doc = .ok s) ↔ ∀ l ∈ doc.documentLines, l = .null ∨ l.IsLine) := by
  refine ⟨isManifest_of_accepts h, ?_⟩
  have hversion := checkVersion_of_accepts h
  obtain ⟨roles, hroles, hroles', hrs⟩ := entries_of_accepts h "roles" (by simp) rfl
  obtain ⟨users, husers, husers', hus⟩ := entries_of_accepts h "users" (by simp) rfl
  obtain ⟨resources, hresources, hresources', hss⟩ :=
    entries_of_accepts h "resources" (by simp) rfl
  obtain ⟨policies, hpolicies, hpolicies', hps⟩ := entries_of_accepts h "policies" (by simp) rfl
  rw [exists_ofJson_iff hroles husers hresources hpolicies hversion]
  unfold Json.documentLines partNames
  simp only [List.forall_mem_flatMap, List.forall_mem_cons, List.not_mem_nil,
    false_implies, implies_true, and_true, hroles', husers', hresources', hpolicies']
  exact and_congr (forall₂_congr fun j hj => Schema.exists_role_iff (hrs j hj))
    (and_congr (forall₂_congr fun j hj => Schema.exists_user_iff (hus j hj))
      (and_congr (forall₂_congr fun j hj => Schema.exists_resource_iff (hss j hj))
        (forall₂_congr fun j hj => Schema.exists_policy_iff (hps j hj))))

/-! ## Documents that are refused -/

/-- A role on the given line, and a policy without one. -/
def lineDocument (line : Json) : Json :=
  .object [
    ("metadata", .object [
      ("counts", .object [("policies", .nat 1), ("resources", .nat 0), ("roles", .nat 1),
        ("users", .nat 0)]),
      ("version", .string "1.0")]),
    ("policies", .array [.object [("actions", .array [.string "read"]), ("condition", .null),
      ("line", .null), ("resource", .string "doc"), ("type", .string "ALLOW")]]),
    ("resources", .array []),
    ("roles", .array [.object [("line", line), ("name", .string "staff"),
      ("permissions", .array []), ("properties", .object [])]]),
    ("users", .array [])]

theorem exists_ofJson_of_accepts_lineDocument :
    schema.accepts (lineDocument (.nat 4294967295)) = true ∧
      ∃ s, ofJson (lineDocument (.nat 4294967295)) = .ok s := by
  have haccepted : schema.accepts (lineDocument (.nat 4294967295)) = true := by decide +kernel
  refine ⟨haccepted, (exists_ofJson_of_accepts haccepted).2.mpr ?_⟩
  have hlines : (lineDocument (.nat 4294967295)).documentLines = [.nat 4294967295, .null] := rfl
  rw [hlines]
  simp only [List.forall_mem_cons]
  exact ⟨Or.inr ⟨_, le_refl _, rfl⟩, Or.inl trivial, List.forall_mem_nil _⟩

/-- The number 1 as it is read when it is written with a fraction. -/
def oneFloat : Json := .number (.float ⟨false, 4503599627370496, -52⟩)

/-- A document without a tag that the schema accepts is decoded. -/
def DecodesAccepted (doc : Json) : Prop :=
  schema.accepts doc = true → Manifest.isManifest doc = false → ∃ s, ofJson doc = .ok s

/-- A line of more than 32 bits is accepted and not decoded, and so is one with a fraction of
zero. -/
theorem not_decodesAccepted : ¬ DecodesAccepted (lineDocument (.nat 4294967296)) ∧
    ¬ DecodesAccepted (lineDocument oneFloat) := by
  constructor
  · intro h
    obtain ⟨s, hs⟩ := h (by decide +kernel) rfl
    have hrefused : ofJson (lineDocument (.nat 4294967296)) =
        .error (.malformed "roles" 0 (.wrongValue (.nat 4294967296) "u32")) := rfl
    cases hrefused.symm.trans hs
  · intro h
    obtain ⟨s, hs⟩ := h (by decide +kernel) rfl
    have hrefused : ofJson (lineDocument oneFloat) =
        .error (.malformed "roles" 0 (.wrongType oneFloat "u32")) := rfl
    cases hrefused.symm.trans hs

end PolicySet
end AccessPolicy
