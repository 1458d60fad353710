import AccessPolicy.PolicySet.Decode
import AccessPolicy.Proofs.Results

/-!
# The entries of a document

How roles, users, resources and policies are written in a document: which fields they have, what
stands in each, what may be left out, and the two forms of an entry, an object or the list of its
fields in order. The decoders take these entries and no others (`Role.ofJson_eq_ok`,
`User.ofJson_eq_ok`, `Resource.ofJson_eq_ok`, `Policy.ofJson_eq_ok`).
-/

namespace AccessPolicy

/-- The largest line number that a document may have. -/
def greatestLine : Nat := 4294967295

/-! ## Values of fields -/

/-- How values are written in a document. -/
abbrev Spelling (α : Type) := α → Json → Prop

namespace Spelling
variable {α : Type}

def text : Spelling String := fun s j => j = .string s

def texts : Spelling (List String) := fun ss j => j = .array (ss.map .string)

def flag : Spelling Bool := fun b j => j = .bool b

def line : Spelling Nat := fun n j => n ≤ greatestLine ∧ j = .number (.whole n)

/-- Lists of anything under names. -/
def properties : Spelling PropertyValues := fun ps j =>
  j = .object (ps.map fun p => (p.1, .array p.2))

/-- An effect is its name, which may also stand over a null. -/
def effect : Spelling Effect
  | .allow, j => j = .string "ALLOW" ∨ j = .object [("ALLOW", .null)]
  | .deny, j => j = .string "DENY" ∨ j = .object [("DENY", .null)]

/-- What is not there is a null. -/
def optional (S : Spelling α) : Spelling (Option α)
  | some a, j => S a j
  | none, j => j = .null

variable (S : Spelling α) (fields : List (String × Json)) (name : String)

/-- Whatever stands under the name is a value. -/
def Fits : Prop := ∀ j, (name, j) ∈ fields → ∃ a, S a j

/-- The field is there. If there are more of its name, the first counts. -/
def Required (a : α) : Prop :=
  S.Fits fields name ∧ ∃ j, NameMap.get? fields name = some j ∧ S a j

/-- The field may be left out, for the default. -/
def Defaulted (default a : α) : Prop :=
  S.Fits fields name ∧ (NameMap.get? fields name = none ∧ a = default ∨
    ∃ j, NameMap.get? fields name = some j ∧ S a j)

end Spelling

/-! ## Entries -/

/-- An entity with a field of its own, which an object may leave out. -/
inductive IsEntity {α : Type} (own : String) (S : Spelling α) (default : α) (name : String) (a : α)
    (properties : PropertyValues) (line : Nat) : Json → Prop
  | named {fields : List (String × Json)} :
      Spelling.text.Required fields "name" name →
      S.Defaulted fields own default a →
      Spelling.properties.Defaulted fields "properties" [] properties →
      Spelling.line.Required fields "line" line →
      IsEntity own S default name a properties line (.object fields)
  | listed {i j k l : Json} :
      Spelling.text name i → S a j → Spelling.properties properties k → Spelling.line line l →
      IsEntity own S default name a properties line (.array [i, j, k, l])

def Role.IsEntry (r : Role) : Json → Prop :=
  IsEntity "permissions" .texts [] r.name r.permissions r.properties r.line

def User.IsEntry (u : User) : Json → Prop :=
  IsEntity "role" Spelling.text.optional none u.name u.role u.properties u.line

def Resource.IsEntry (r : Resource) : Json → Prop :=
  IsEntity "path" Spelling.text.optional none r.name r.path r.properties r.line

/-- The list of a policy may end before the last field. -/
inductive Policy.IsEntry (p : Policy) : Json → Prop
  | named {fields : List (String × Json)} :
      Spelling.effect.Required fields "type" p.effect →
      Spelling.texts.Required fields "actions" p.actions →
      Spelling.text.Required fields "resource" p.resource →
      Spelling.text.optional.Defaulted fields "condition" none p.condition →
      Spelling.line.optional.Defaulted fields "line" none p.line →
      Spelling.flag.Defaulted fields "synthesized" false p.synthesized →
      IsEntry p (.object fields)
  | listed {i j k l m : Json} {rest : List Json} :
      Spelling.effect p.effect i → Spelling.texts p.actions j → Spelling.text p.resource k →
      Spelling.text.optional p.condition l → Spelling.line.optional p.line m →
      (rest = [] ∧ p.synthesized = false ∨ ∃ n, rest = [n] ∧ Spelling.flag p.synthesized n) →
      IsEntry p (.array (i :: j :: k :: l :: m :: rest))

/-! ## What decoders read -/

namespace Decoder
variable {α : Type} {d : Decoder α} {S : Spelling α}

/-- The decoder takes what is written so and nothing else. -/
def Reads (d : Decoder α) (S : Spelling α) : Prop := ∀ j a, d j = .ok a ↔ S a j

theorem check_eq_ok {j : Json} : d.check j = .ok () ↔ ∃ a, d j = .ok a := by
  constructor
  · intro h
    obtain ⟨a, ha, _⟩ := map_eq_ok.mp h
    exact ⟨a, ha⟩
  · rintro ⟨a, ha⟩
    exact map_eq_ok.mpr ⟨a, ha, rfl⟩

theorem Reads.check (h : d.Reads S) {j : Json} : d.check j = .ok () ↔ ∃ a, S a j := by
  rw [check_eq_ok]
  exact exists_congr fun a => h j a

theorem Reads.optional (h : d.Reads S) (hnull : ∀ a, ¬S a .null) :
    d.optional.Reads S.optional := by
  intro j o
  unfold Decoder.optional
  split
  · cases o with
    | none => exact iff_of_true rfl rfl
    | some a =>
        refine iff_of_false ?_ (hnull a)
        intro heq
        cases heq
  · next hj =>
    rw [map_eq_ok]
    cases o with
    | none =>
        refine iff_of_false ?_ hj
        rintro ⟨_, _, heq⟩
        cases heq
    | some a =>
        constructor
        · rintro ⟨_, ha, heq⟩
          cases heq
          exact (h j a).mp ha
        · intro ha
          exact ⟨a, (h j a).mpr ha, rfl⟩

theorem reads_string : string.Reads .text := by
  intro j s
  cases j <;> simp [string, Spelling.text]

theorem reads_bool : bool.Reads .flag := by
  intro j b
  cases j <;> simp [bool, Spelling.flag]

theorem reads_strings : string.list.Reads .texts := by
  intro j ss
  unfold Spelling.texts
  cases j with
  | array items =>
      rw [Json.array.injEq]
      exact mapM_eq_ok_iff_eq_map reads_string
  | _ => simp [list]

theorem list_any_eq_ok {j : Json} {items : List Json} :
    list any j = .ok items ↔ j = .array items := by
  cases j with
  | array items' =>
      have hall : list any (.array items') = .ok items ↔ items' = items.map id :=
        mapM_eq_ok_iff_eq_map fun x y => by simp [any]
      rw [hall, List.map_id, Json.array.injEq]
  | _ => simp [list]

theorem reads_properties : properties.Reads .properties := by
  intro j ps
  unfold Spelling.properties
  cases j with
  | object fields =>
      rw [Json.object.injEq]
      refine mapM_eq_ok_iff_eq_map ?_
      rintro ⟨name, j⟩ ⟨name', items⟩
      rw [map_eq_ok, Prod.mk.injEq]
      constructor
      · rintro ⟨_, hitems, heq⟩
        cases heq
        exact ⟨rfl, list_any_eq_ok.mp hitems⟩
      · rintro ⟨rfl, hitems⟩
        exact ⟨items, list_any_eq_ok.mpr hitems, rfl⟩
  | _ => simp [properties, map]

theorem reads_line : line.Reads .line := by
  intro j n
  unfold Spelling.line greatestLine line bounded
  rw [map_eq_ok]
  split
  · next i =>
    rw [Json.number.injEq, Json.Number.whole.injEq]
    constructor
    · rintro ⟨_, h, rfl⟩
      split_ifs at h with hbounds
      cases h
      omega
    · rintro ⟨hle, rfl⟩
      exact ⟨n, if_pos (by omega), Int.toNat_natCast n⟩
  · next hother =>
    constructor
    · rintro ⟨_, h, _⟩
      cases h
    · rintro ⟨_, rfl⟩
      exact absurd rfl (hother n)

theorem named_eq_ok {s : String} {e : Effect} : effect.named s = .ok e ↔ s = e.text := by
  unfold effect.named
  split_ifs with hallow hdeny
  · subst hallow
    cases e <;> simp [Effect.text]
  · subst hdeny
    cases e <;> simp [Effect.text]
  · cases e <;> simp [hallow, hdeny]

theorem reads_effect : effect.Reads .effect := by
  intro j e
  have hspelling : Spelling.effect e j ↔ j = .string e.text ∨ j = .object [(e.text, .null)] := by
    cases e <;> rfl
  rw [hspelling]
  unfold effect
  split
  · rw [named_eq_ok]
    simp
  · next s value =>
    rw [bind_eq_ok]
    constructor
    · rintro ⟨e', he', h⟩
      split at h
      · cases h
        rw [named_eq_ok.mp he']
        exact Or.inr rfl
      · cases h
    · rintro (h | h)
      · cases h
      · cases h
        exact ⟨e, named_eq_ok.mpr rfl, rfl⟩
  · next fields hsingle =>
    refine iff_of_false nofun ?_
    rintro (h | h)
    · cases h
    · cases h
      exact hsingle _ _ rfl
  · next hstring _ hobject =>
    refine iff_of_false nofun ?_
    rintro (rfl | rfl)
    · exact hstring _ rfl
    · exact hobject _ rfl

theorem reads_optionalString : string.optional.Reads Spelling.text.optional :=
  reads_string.optional fun _ => nofun

theorem reads_optionalLine : line.optional.Reads Spelling.line.optional :=
  reads_line.optional fun _ h => nomatch h.2

end Decoder

/-! ## Records -/

namespace RecordForm
variable {α : Type} {f : RecordForm} {fields : List (String × Json)}

theorem source_object_eq_ok {s : RecordSource} :
    f.source (.object fields) = .ok s ↔
      (∀ field ∈ fields, f.checkField field = .ok ()) ∧ s = .named fields := by
  constructor
  · intro h
    obtain ⟨⟨⟩, hchecks, h⟩ := bind_eq_ok.mp h
    cases h
    exact ⟨forM_eq_ok.mp hchecks, rfl⟩
  · rintro ⟨hchecks, rfl⟩
    exact bind_eq_ok.mpr ⟨(), forM_eq_ok.mpr hchecks, rfl⟩

/-- The fields of an object are checked by their names, those that the form does not have are
not. -/
theorem forall_checkField_iff (hunknown : f.unknown = .ignored) (hnames : f.names.Nodup) :
    (∀ field ∈ fields, f.checkField field = .ok ()) ↔
      ∀ known ∈ f.fields, ∀ j, (known.1, j) ∈ fields → known.2 j = .ok () := by
  unfold checkField
  constructor
  · rintro h ⟨name, check⟩ hknown j hj
    have hchecked := h _ hj
    rwa [NameMap.get?_of_mem hnames hknown] at hchecked
  · rintro h ⟨name, j⟩ hj
    split
    · next check hcheck => exact h _ (NameMap.mem_of_get? hcheck) j hj
    · rfl
    · next hrefused =>
      rw [hunknown] at hrefused
      cases hrefused

end RecordForm

namespace RecordSource
variable {α : Type} {s : RecordSource} {f : RecordForm} {index : Nat} {name : String}
  {d : Decoder α}

theorem required_eq_ok {a : α} :
    s.required f index name d = .ok a ↔ ∃ j, s.field? index name = some j ∧ d j = .ok a := by
  unfold required
  cases s.field? index name <;> simp

theorem defaulted_eq_ok {default a : α} :
    s.defaulted index name d default = .ok a ↔
      s.field? index name = none ∧ a = default ∨
        ∃ j, s.field? index name = some j ∧ d j = .ok a := by
  unfold defaulted
  cases s.field? index name <;> simp [eq_comm]

/-- An object may leave out what is optional. -/
theorem optional_named (fields : List (String × Json)) :
    (named fields).optional f index name d =
      (named fields).defaulted index name d.optional none := by
  unfold optional defaulted
  cases (named fields).field? index name <;> rfl

theorem finish_listed_eq_ok {items : List Json} :
    (listed items).finish f = .ok () ↔ items.length ≤ f.fields.length := by
  show (if f.fields.length < items.length then Except.error _ else Except.ok ()) = Except.ok () ↔ _
  split_ifs with h
  · exact iff_of_false nofun (by omega)
  · exact iff_of_true rfl (by omega)

variable {S : Spelling α} {fields : List (String × Json)}

theorem required_iff (h : d.Reads S) (f : RecordForm) (index : Nat) {a : α} :
    S.Required fields name a ↔
      (∀ j, (name, j) ∈ fields → d.check j = .ok ()) ∧
        (named fields).required f index name d = .ok a := by
  simp only [h.check, required_eq_ok, h _ a]
  rfl

theorem defaulted_iff (h : d.Reads S) (index : Nat) {default a : α} :
    S.Defaulted fields name default a ↔
      (∀ j, (name, j) ∈ fields → d.check j = .ok ()) ∧
        (named fields).defaulted index name d default = .ok a := by
  simp only [h.check, defaulted_eq_ok, h _ a]
  rfl

end RecordSource

/-! ## Decoders of entries -/

namespace Decoder
variable {α β : Type}

/-- A decoder of entities: a name, a field of their own kind, properties and a line. -/
def entity (f : RecordForm) (own : RecordSource → Except DecodeError α)
    (make : String → α → PropertyValues → Nat → β) : Decoder β := fun j => do
  let s ← f.source j
  let name ← s.required f 0 "name" .string
  let a ← own s
  let properties ← s.defaulted 2 "properties" .properties []
  let line ← s.required f 3 "line" .line
  s.finish f
  return make name a properties line

theorem entity_eq_ok {f : RecordForm} {own : RecordSource → Except DecodeError α}
    {make : String → α → PropertyValues → Nat → β} {j : Json} {b : β} :
    entity f own make j = .ok b ↔ ∃ s name a properties line,
      f.source j = .ok s ∧ s.required f 0 "name" .string = .ok name ∧ own s = .ok a ∧
        s.defaulted 2 "properties" .properties [] = .ok properties ∧
        s.required f 3 "line" .line = .ok line ∧ s.finish f = .ok () ∧
        make name a properties line = b := by
  unfold entity
  constructor
  · intro h
    obtain ⟨s, hsource, h⟩ := bind_eq_ok.mp h
    obtain ⟨name, hname, h⟩ := bind_eq_ok.mp h
    obtain ⟨a, hown, h⟩ := bind_eq_ok.mp h
    obtain ⟨properties, hproperties, h⟩ := bind_eq_ok.mp h
    obtain ⟨line, hline, h⟩ := bind_eq_ok.mp h
    obtain ⟨⟨⟩, hfinish, h⟩ := bind_eq_ok.mp h
    cases h
    exact ⟨s, name, a, properties, line, hsource, hname, hown, hproperties, hline, hfinish, rfl⟩
  · rintro ⟨s, name, a, properties, line, hsource, hname, hown, hproperties, hline, hfinish, rfl⟩
    refine bind_eq_ok.mpr ⟨s, hsource, ?_⟩
    refine bind_eq_ok.mpr ⟨name, hname, ?_⟩
    refine bind_eq_ok.mpr ⟨a, hown, ?_⟩
    refine bind_eq_ok.mpr ⟨properties, hproperties, ?_⟩
    refine bind_eq_ok.mpr ⟨line, hline, ?_⟩
    exact bind_eq_ok.mpr ⟨(), hfinish, rfl⟩

section
variable {f : RecordForm} {own : String} {d : Decoder α} {S : Spelling α} {default : α}
  {field : RecordSource → Except DecodeError α} {make : String → α → PropertyValues → Nat → β}
  {b : β}

theorem entity_object_eq_ok (hunknown : f.unknown = .ignored)
    (hform : f.fields = [("name", string.check), (own, d.check),
      ("properties", properties.check), ("line", line.check)])
    (hnew : own ∉ ["name", "properties", "line"]) (hreads : d.Reads S)
    (hfield : ∀ fields, field (.named fields) =
      (RecordSource.named fields).defaulted 1 own d default) {fields : List (String × Json)} :
    entity f field make (.object fields) = .ok b ↔ ∃ name a properties line,
      IsEntity own S default name a properties line (.object fields) ∧
        make name a properties line = b := by
  have hnames : f.names.Nodup := by
    simp only [List.mem_cons, List.not_mem_nil, or_false, not_or] at hnew
    simp [RecordForm.names, hform, hnew, Ne.symm hnew.1]
  have hsource : ∀ s, f.source (.object fields) = .ok s ↔
      ((∀ j, ("name", j) ∈ fields → string.check j = .ok ()) ∧
        (∀ j, (own, j) ∈ fields → d.check j = .ok ()) ∧
        (∀ j, ("properties", j) ∈ fields → properties.check j = .ok ()) ∧
        ∀ j, ("line", j) ∈ fields → line.check j = .ok ()) ∧ s = .named fields := by
    intro s
    rw [RecordForm.source_object_eq_ok, RecordForm.forall_checkField_iff hunknown hnames, hform]
    simp only [List.forall_mem_cons, List.not_mem_nil, false_implies, implies_true, and_true]
  rw [entity_eq_ok]
  constructor
  · rintro ⟨s, name, a, ps, n, hs, hname, hown, hproperties, hline, _, hmake⟩
    obtain ⟨⟨hnames, howns, hpropertiess, hlines⟩, rfl⟩ := (hsource s).mp hs
    rw [hfield] at hown
    exact ⟨name, a, ps, n, .named ((RecordSource.required_iff reads_string f 0).mpr ⟨hnames, hname⟩)
      ((RecordSource.defaulted_iff hreads 1).mpr ⟨howns, hown⟩)
      ((RecordSource.defaulted_iff reads_properties 2).mpr ⟨hpropertiess, hproperties⟩)
      ((RecordSource.required_iff reads_line f 3).mpr ⟨hlines, hline⟩), hmake⟩
  · rintro ⟨name, a, ps, n, h, hmake⟩
    cases h with
    | named hname hown hproperties hline =>
      rw [RecordSource.required_iff reads_string f 0] at hname
      rw [RecordSource.defaulted_iff hreads 1, ← hfield] at hown
      rw [RecordSource.defaulted_iff reads_properties 2] at hproperties
      rw [RecordSource.required_iff reads_line f 3] at hline
      exact ⟨_, name, a, ps, n, (hsource _).mpr ⟨⟨hname.1, hown.1, hproperties.1, hline.1⟩, rfl⟩,
        hname.2, hown.2, hproperties.2, hline.2, rfl, hmake⟩

theorem entity_array_eq_ok (hlength : f.fields.length = 4) (hreads : d.Reads S)
    (hfield : ∀ i j rest, field (.listed (i :: j :: rest)) = d j) {items : List Json} :
    entity f field make (.array items) = .ok b ↔ ∃ name a properties line,
      IsEntity own S default name a properties line (.array items) ∧
        make name a properties line = b := by
  rw [entity_eq_ok]
  constructor
  · rintro ⟨s, name, a, ps, n, hs, hname, hown, hproperties, hline, hfinish, hmake⟩
    cases hs
    -- the line is the fourth item, and there are no more
    rw [RecordSource.finish_listed_eq_ok, hlength] at hfinish
    match items with
    | [] | [_] | [_, _] | [_, _, _] => cases hline
    | [i, j, k, l] =>
      rw [hfield] at hown
      exact ⟨name, a, ps, n, .listed ((reads_string i name).mp hname) ((hreads j a).mp hown)
        ((reads_properties k ps).mp hproperties) ((reads_line l n).mp hline), hmake⟩
    | _ :: _ :: _ :: _ :: _ :: _ =>
      simp only [List.length_cons] at hfinish
      omega
  · rintro ⟨name, a, ps, n, h, hmake⟩
    cases h with
    | @listed i j k l hname hown hproperties hline =>
      rw [← reads_string i name] at hname
      rw [← hreads j a, ← hfield i j [k, l]] at hown
      rw [← reads_properties k ps] at hproperties
      rw [← reads_line l n] at hline
      exact ⟨_, name, a, ps, n, rfl, hname, hown, hproperties, hline,
        RecordSource.finish_listed_eq_ok.mpr (Nat.le_of_eq hlength.symm), hmake⟩

/-- An entity is decoded just from what is written as one. -/
theorem entity_eq_ok_iff_isEntity (hunknown : f.unknown = .ignored)
    (hform : f.fields = [("name", string.check), (own, d.check),
      ("properties", properties.check), ("line", line.check)])
    (hnew : own ∉ ["name", "properties", "line"]) (hreads : d.Reads S)
    (hnamed : ∀ fields, field (.named fields) =
      (RecordSource.named fields).defaulted 1 own d default)
    (hlisted : ∀ i j rest, field (.listed (i :: j :: rest)) = d j)
    (hmake : ∀ {name a ps n name' a' ps' n'}, make name a ps n = make name' a' ps' n' →
      name = name' ∧ a = a' ∧ ps = ps' ∧ n = n')
    {j : Json} {name : String} {a : α} {ps : PropertyValues} {n : Nat} :
    entity f field make j = .ok (make name a ps n) ↔
      IsEntity own S default name a ps n j := by
  have hdecoded : entity f field make j = .ok (make name a ps n) ↔ ∃ name' a' ps' n',
      IsEntity own S default name' a' ps' n' j ∧ make name' a' ps' n' = make name a ps n := by
    cases j with
    | object fields => exact entity_object_eq_ok hunknown hform hnew hreads hnamed
    | array items => exact entity_array_eq_ok (by rw [hform]; rfl) hreads hlisted
    | _ =>
        refine iff_of_false ?_ ?_
        · intro h
          cases h
        · rintro ⟨_, _, _, _, h, _⟩
          cases h
  rw [hdecoded]
  constructor
  · rintro ⟨name', a', ps', n', h, heq⟩
    obtain ⟨rfl, rfl, rfl, rfl⟩ := hmake heq
    exact h
  · intro h
    exact ⟨name, a, ps, n, h, rfl⟩

end
end Decoder

open Decoder

theorem Role.ofJson_eq_ok {j : Json} {r : Role} : Role.ofJson j = .ok r ↔ r.IsEntry j :=
  entity_eq_ok_iff_isEntity rfl rfl (by decide) reads_strings (fun _ => rfl) (fun _ _ _ => rfl)
    Role.mk.inj

theorem User.ofJson_eq_ok {j : Json} {u : User} : User.ofJson j = .ok u ↔ u.IsEntry j :=
  entity_eq_ok_iff_isEntity rfl rfl (by decide) reads_optionalString
    (fun fields => RecordSource.optional_named fields) (fun _ _ _ => rfl) User.mk.inj

theorem Resource.ofJson_eq_ok {j : Json} {r : Resource} :
    Resource.ofJson j = .ok r ↔ r.IsEntry j :=
  entity_eq_ok_iff_isEntity rfl rfl (by decide) reads_optionalString
    (fun fields => RecordSource.optional_named fields) (fun _ _ _ => rfl) Resource.mk.inj

namespace Policy
variable {j : Json} {p : Policy}

theorem ofJson_eq_ok_iff_source :
    Policy.ofJson j = .ok p ↔ ∃ s, form.source j = .ok s ∧
      s.required form 0 "type" .effect = .ok p.effect ∧
      s.required form 1 "actions" Decoder.string.list = .ok p.actions ∧
      s.required form 2 "resource" .string = .ok p.resource ∧
      s.optional form 3 "condition" .string = .ok p.condition ∧
      s.optional form 4 "line" .line = .ok p.line ∧
      s.defaulted 5 "synthesized" .bool false = .ok p.synthesized ∧
      s.finish form = .ok () := by
  unfold Policy.ofJson
  constructor
  · intro h
    obtain ⟨s, hsource, h⟩ := bind_eq_ok.mp h
    obtain ⟨effect, heffect, h⟩ := bind_eq_ok.mp h
    obtain ⟨actions, hactions, h⟩ := bind_eq_ok.mp h
    obtain ⟨resource, hresource, h⟩ := bind_eq_ok.mp h
    obtain ⟨condition, hcondition, h⟩ := bind_eq_ok.mp h
    obtain ⟨line, hline, h⟩ := bind_eq_ok.mp h
    obtain ⟨synthesized, hsynthesized, h⟩ := bind_eq_ok.mp h
    obtain ⟨⟨⟩, hfinish, h⟩ := bind_eq_ok.mp h
    cases h
    exact ⟨s, hsource, heffect, hactions, hresource, hcondition, hline, hsynthesized, hfinish⟩
  · rintro ⟨s, hsource, heffect, hactions, hresource, hcondition, hline, hsynthesized, hfinish⟩
    refine bind_eq_ok.mpr ⟨s, hsource, ?_⟩
    refine bind_eq_ok.mpr ⟨_, heffect, ?_⟩
    refine bind_eq_ok.mpr ⟨_, hactions, ?_⟩
    refine bind_eq_ok.mpr ⟨_, hresource, ?_⟩
    refine bind_eq_ok.mpr ⟨_, hcondition, ?_⟩
    refine bind_eq_ok.mpr ⟨_, hline, ?_⟩
    refine bind_eq_ok.mpr ⟨_, hsynthesized, ?_⟩
    exact bind_eq_ok.mpr ⟨(), hfinish, rfl⟩

theorem ofJson_object_eq_ok {fields : List (String × Json)} :
    Policy.ofJson (.object fields) = .ok p ↔ p.IsEntry (.object fields) := by
  have hsource : ∀ s, form.source (.object fields) = .ok s ↔
      ((∀ j, ("type", j) ∈ fields → Decoder.effect.check j = .ok ()) ∧
        (∀ j, ("actions", j) ∈ fields → string.list.check j = .ok ()) ∧
        (∀ j, ("resource", j) ∈ fields → string.check j = .ok ()) ∧
        (∀ j, ("condition", j) ∈ fields → string.optional.check j = .ok ()) ∧
        (∀ j, ("line", j) ∈ fields → Decoder.line.optional.check j = .ok ()) ∧
        ∀ j, ("synthesized", j) ∈ fields → Decoder.bool.check j = .ok ()) ∧ s = .named fields := by
    intro s
    rw [RecordForm.source_object_eq_ok, RecordForm.forall_checkField_iff rfl (by decide)]
    unfold form
    simp only [List.forall_mem_cons, List.not_mem_nil, false_implies, implies_true, and_true]
  rw [ofJson_eq_ok_iff_source]
  constructor
  · rintro ⟨s, hs, heffect, hactions, hresource, hcondition, hline, hsynthesized, _⟩
    obtain ⟨⟨heffects, hactionss, hresources, hconditions, hlines, hsynthesizeds⟩, rfl⟩ :=
      (hsource s).mp hs
    rw [RecordSource.optional_named] at hcondition hline
    exact .named ((RecordSource.required_iff reads_effect form 0).mpr ⟨heffects, heffect⟩)
      ((RecordSource.required_iff reads_strings form 1).mpr ⟨hactionss, hactions⟩)
      ((RecordSource.required_iff reads_string form 2).mpr ⟨hresources, hresource⟩)
      ((RecordSource.defaulted_iff reads_optionalString 3).mpr ⟨hconditions, hcondition⟩)
      ((RecordSource.defaulted_iff reads_optionalLine 4).mpr ⟨hlines, hline⟩)
      ((RecordSource.defaulted_iff reads_bool 5).mpr ⟨hsynthesizeds, hsynthesized⟩)
  · intro h
    cases h with
    | named heffect hactions hresource hcondition hline hsynthesized =>
      rw [RecordSource.required_iff reads_effect form 0] at heffect
      rw [RecordSource.required_iff reads_strings form 1] at hactions
      rw [RecordSource.required_iff reads_string form 2] at hresource
      rw [RecordSource.defaulted_iff reads_optionalString 3,
        ← RecordSource.optional_named (f := form)] at hcondition
      rw [RecordSource.defaulted_iff reads_optionalLine 4,
        ← RecordSource.optional_named (f := form)] at hline
      rw [RecordSource.defaulted_iff reads_bool 5] at hsynthesized
      exact ⟨_, (hsource _).mpr ⟨⟨heffect.1, hactions.1, hresource.1, hcondition.1, hline.1,
        hsynthesized.1⟩, rfl⟩, heffect.2, hactions.2, hresource.2, hcondition.2, hline.2,
        hsynthesized.2, rfl⟩

theorem ofJson_array_eq_ok {items : List Json} :
    Policy.ofJson (.array items) = .ok p ↔ p.IsEntry (.array items) := by
  rw [ofJson_eq_ok_iff_source]
  constructor
  · rintro ⟨s, hs, heffect, hactions, hresource, hcondition, hline, hsynthesized, hfinish⟩
    cases hs
    -- the line is the fifth item, and there is at most one more
    have hlength : items.length ≤ 6 := RecordSource.finish_listed_eq_ok.mp hfinish
    match items with
    | [] | [_] | [_, _] | [_, _, _] | [_, _, _, _] => cases hline
    | [i, j, k, l, m] =>
      refine .listed ((reads_effect i _).mp heffect) ((reads_strings j _).mp hactions)
        ((reads_string k _).mp hresource) ((reads_optionalString l _).mp hcondition)
        ((reads_optionalLine m _).mp hline) (Or.inl ⟨rfl, ?_⟩)
      exact (Except.ok.inj hsynthesized).symm
    | [i, j, k, l, m, n] =>
      exact .listed ((reads_effect i _).mp heffect) ((reads_strings j _).mp hactions)
        ((reads_string k _).mp hresource) ((reads_optionalString l _).mp hcondition)
        ((reads_optionalLine m _).mp hline)
        (Or.inr ⟨n, rfl, (reads_bool n _).mp hsynthesized⟩)
    | _ :: _ :: _ :: _ :: _ :: _ :: _ :: _ =>
      simp only [List.length_cons] at hlength
      omega
  · intro h
    cases h with
    | @listed i j k l m rest heffect hactions hresource hcondition hline hrest =>
      rw [← reads_effect i] at heffect
      rw [← reads_strings j] at hactions
      rw [← reads_string k] at hresource
      rw [← reads_optionalString l] at hcondition
      rw [← reads_optionalLine m] at hline
      rcases hrest with ⟨rfl, hsynthesized⟩ | ⟨n, rfl, hsynthesized⟩
      · exact ⟨_, rfl, heffect, hactions, hresource, hcondition, hline,
          congrArg Except.ok hsynthesized.symm, rfl⟩
      · exact ⟨_, rfl, heffect, hactions, hresource, hcondition, hline,
          (reads_bool n _).mpr hsynthesized, rfl⟩

theorem ofJson_eq_ok : Policy.ofJson j = .ok p ↔ p.IsEntry j := by
  cases j with
  | object fields => exact ofJson_object_eq_ok
  | array items => exact ofJson_array_eq_ok
  | _ => exact iff_of_false nofun nofun

end Policy
end AccessPolicy
