import AccessPolicy.Manifest
import AccessPolicy.Proofs.Documents

/-!
# The exchange of policy sets

A policy set survives its document, in a manifest or alone; and whatever a document is like, with
fields that are left out or not known, records as lists of their fields or counts that are wrong,
the set that is decoded from it has a document of its own that is decoded to the same set
(`PolicySet.exchange_without_loss`). A decoded line is one that a document may have, so nothing
that was read is refused when it is written and read again.
-/

namespace AccessPolicy

/-! ## What is decoded -/

theorem IsEntity.line_le {α : Type} {own : String} {S : Spelling α} {default : α} {name : String}
    {a : α} {ps : PropertyValues} {n : Nat} {j : Json}
    (h : IsEntity own S default name a ps n j) : n ≤ greatestLine := by
  cases h with
  | named _ _ _ hline =>
      obtain ⟨_, _, _, hle, _⟩ := hline
      exact hle
  | listed _ _ _ hline => exact hline.1

theorem Spelling.line_le {o : Option Nat} {j : Json} (h : line.optional o j) :
    ∀ n ∈ o, n ≤ greatestLine := by
  rintro n hn
  cases hn
  exact h.1

theorem Policy.IsEntry.line_le {p : Policy} {j : Json} (h : p.IsEntry j) :
    ∀ n ∈ p.line, n ≤ greatestLine := by
  cases h with
  | named _ _ _ _ hline _ =>
      obtain ⟨_, ⟨_, habsent⟩ | ⟨_, _, hwritten⟩⟩ := hline
      · rw [habsent]
        nofun
      · exact Spelling.line_le hwritten
  | listed _ _ _ _ hline _ => exact Spelling.line_le hline

namespace PolicySet

theorem exists_of_mem_decodeEntries {α : Type} {part : String} {d : Decoder α} {index : Nat}
    {js : List Json} {as : List α} (h : decodeEntries part d index js = .ok as) :
    ∀ a ∈ as, ∃ j, d j = .ok a := by
  induction js generalizing index as with
  | nil =>
      cases h
      exact List.forall_mem_nil _
  | cons j js ih =>
      unfold decodeEntries at h
      split at h
      · cases h
      · next a ha =>
        obtain ⟨bs, hbs, hcons⟩ := bind_eq_ok.mp h
        cases hcons
        exact List.forall_mem_cons.mpr ⟨⟨j, ha⟩, ih hbs⟩

theorem linesFit_of_decoded {doc : Json} {s : PolicySet} (h : ofJson doc = .ok s) : s.LinesFit := by
  obtain ⟨_, _, _, _, _, _, _, _, _, hroles, husers, hresources, hpolicies⟩ := ofJson_eq_ok.mp h
  constructor
  · intro r hr
    obtain ⟨j, hj⟩ := exists_of_mem_decodeEntries hroles r hr
    exact (Role.ofJson_eq_ok.mp hj).line_le
  · intro u hu
    obtain ⟨j, hj⟩ := exists_of_mem_decodeEntries husers u hu
    exact (User.ofJson_eq_ok.mp hj).line_le
  · intro r hr
    obtain ⟨j, hj⟩ := exists_of_mem_decodeEntries hresources r hr
    exact (Resource.ofJson_eq_ok.mp hj).line_le
  · intro p hp
    obtain ⟨j, hj⟩ := exists_of_mem_decodeEntries hpolicies p hp
    exact (Policy.ofJson_eq_ok.mp hj).line_le

/-! ## Counts -/

/-- The metadata of a document have the supported version and count the parts of a set. -/
structure CountedBy (s : PolicySet) (doc : Json) : Prop where
  version : (doc.field? "metadata").bind (·.field? "version") = some (.string version)
  counts : ∃ counts, (doc.field? "metadata").bind (·.field? "counts") = some counts ∧
    counts.field? "roles" = some (.nat s.roles.length) ∧
    counts.field? "users" = some (.nat s.users.length) ∧
    counts.field? "resources" = some (.nat s.resources.length) ∧
    counts.field? "policies" = some (.nat s.policies.length) ∧
    counts.field? "synthesized_policies" =
      some (.nat (s.policies.filter Policy.synthesized).length)

theorem countedBy_toJson (s : PolicySet) : s.CountedBy s.toJson := by
  have hsynthesized : s.synthesizedCount = (s.policies.filter Policy.synthesized).length :=
    List.countP_eq_length_filter
  refine ⟨rfl, _, rfl, rfl, rfl, rfl, rfl, ?_⟩
  rw [← hsynthesized]
  rfl

/-! ## There and back -/

/-- **Policy sets are exchanged without loss.** A policy set is decoded from its document and from
the document in the manifest of that, and to nothing else, just if its lines fit. The set that is
decoded from any document has a document that is decoded to it, and whose metadata count its
parts. -/
theorem exchange_without_loss :
    (∀ s t : PolicySet, ofJson s.toJson = .ok t ↔ s.LinesFit ∧ t = s) ∧
    (∀ s : PolicySet, (Manifest.wrap s.toJson).field? "ir" = some s.toJson ∧
      Manifest.content (Manifest.wrap s.toJson) = s.toJson) ∧
    ∀ doc s, ofJson doc = .ok s → ofJson s.toJson = .ok s ∧ s.CountedBy s.toJson := by
  refine ⟨fun s t => ofJson_toJson_iff, fun s => ⟨rfl, rfl⟩, fun doc s h => ⟨?_, ?_⟩⟩
  · exact ofJson_toJson (linesFit_of_decoded h)
  · exact countedBy_toJson s

/-- A document with a role that is a list of fields, entries without their optional fields, a field
that no policy has, and counts of something else. -/
def mixedDocument : Json :=
  .object [
    ("metadata", .object [("counts", .object [("roles", .nat 7)]), ("version", .string "1.0")]),
    ("policies", .array [.object [("actions", .strings ["read"]), ("note", .string "old"),
      ("resource", .string "doc"), ("synthesized", .bool true), ("type", .string "DENY")]]),
    ("resources", .array []),
    ("roles", .array [.array [.string "staff", .strings ["read"], .object [], .nat 1]]),
    ("users", .array [.object [("line", .nat 2), ("name", .string "ann")]])]

def mixedSet : PolicySet :=
  ⟨[⟨"staff", ["read"], [], 1⟩], [⟨"ann", none, [], 2⟩], [],
    [⟨.deny, ["read"], "doc", none, none, true⟩]⟩

theorem exchange_without_loss_mixed : ofJson mixedDocument = .ok mixedSet ∧
    ofJson mixedSet.toJson = .ok mixedSet ∧ mixedSet.CountedBy mixedSet.toJson := by
  have hmixed : ofJson mixedDocument = .ok mixedSet := rfl
  exact ⟨hmixed, exchange_without_loss.2.2 _ _ hmixed⟩

end PolicySet
end AccessPolicy
