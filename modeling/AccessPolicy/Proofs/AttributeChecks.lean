import AccessPolicy.Proofs.MergedContexts
import AccessPolicy.Proofs.RoleGrants
import AccessPolicy.Proofs.Scopes

/-!
# Attributes that pass the analysis are there

A condition whose attributes are all known to the analysis never lacks one when it is evaluated
for a request that its policy covers (`Engine.test_ne_unknownAttribute`). The fields that the
analysis knows of `resource` are those of the resource that the rule names, and a name that is
no pattern covers requests for this resource only.
-/

namespace AccessPolicy

/-! ## Fields that the analysis knows -/

theorem mem_resourceFields {d : Definition} {field : String} :
    field ∈ resourceFields d ↔
      field ∈ builtinFields "resource" ∨ field = "name" ∨ field ∈ d.properties.names := by
  have hadded : ∀ keys fields : List String,
      field ∈ keys.foldl (fun fields key => if key ∈ fields then fields else fields ++ [key])
        fields ↔ field ∈ fields ∨ field ∈ keys := by
    intro keys
    induction keys with
    | nil => simp
    | cons key keys ih =>
        intro fields
        rw [List.foldl_cons, ih]
        split_ifs with hkey
        · constructor
          · exact Or.imp_right (List.mem_cons_of_mem key)
          · rintro (h | h)
            · exact Or.inl h
            · rcases List.mem_cons.mp h with rfl | h
              · exact Or.inl hkey
              · exact Or.inr h
        · rw [List.mem_append, List.mem_singleton, List.mem_cons, or_assoc]
  unfold resourceFields
  rw [hadded, List.mem_append, List.mem_singleton, or_assoc]

/-- A field that can be read from a namespace: a built-in one, or the name or a property of the
resource that the rule names. -/
def Knows (target : Option Definition) (object field : String) : Prop :=
  (∃ n ∈ namespaces, n.1 = object ∧ field ∈ n.2) ∨
    object = "resource" ∧ ∃ d, target = some d ∧ (field = "name" ∨ field ∈ d.properties.names)

namespace SymbolTable
variable {t : SymbolTable} {inner outermost : Scope} {p : Program} {target : Option Definition}
  {object field : String}

theorem fields?_of_resolve {symbol : Symbol} {fields : List String}
    (hresolve : t.resolve .variable object = some symbol)
    (hfields : NameMap.get? symbol.attributes "fields" = some (.strings fields)) :
    t.fields? object = some fields := by
  have htexts : (fields.map Json.string).filterMap Json.asString? = fields := by
    rw [List.filterMap_map]
    exact List.filterMap_some
  unfold fields?
  rw [hresolve]
  simp [hfields, Json.strings, Json.asArray?, htexts]

theorem Within.knows (h : t.Within inner outermost) (hbinds : inner.Binds target)
    (hglobal : outermost.Global p) {fields : List String} (hfields : t.fields? object = some fields)
    (hfield : field ∈ fields) : Knows target object field := by
  by_cases hbound : object = "resource" ∧ target ≠ none
  · obtain ⟨rfl, htarget⟩ := hbound
    obtain ⟨d, rfl⟩ := Option.ne_none_iff_exists'.mp htarget
    obtain ⟨symbol, hfind, hattributes⟩ := hbinds.bound d rfl
    have hresolve : t.resolve .variable "resource" = some symbol := by
      rw [h.resolve, hfind]
      rfl
    have hknown : t.fields? "resource" = some (resourceFields d) :=
      fields?_of_resolve hresolve (by rw [hattributes]; rfl)
    cases hfields.symm.trans hknown
    rcases mem_resourceFields.mp hfield with hbuiltin | hfield
    · exact Or.inl ⟨("resource", builtinFields "resource"), by decide +kernel, rfl, hbuiltin⟩
    · exact Or.inr ⟨rfl, d, rfl, hfield⟩
  · have hfree : inner.find? .variable object = none := by
      rcases not_and_or.mp hbound with hobject | htarget
      · exact hbinds.free _ _ (Or.inr (Or.inl hobject))
      · exact hbinds.free _ _ (Or.inr (Or.inr (not_not.mp htarget)))
    have hresolve : t.resolve .variable object =
        (namespaces.find? fun n => n.1 = object).map fun n => builtin n.1 n.2 := by
      rw [h.resolve, hfree, Option.none_or, hglobal.namespaces]
    cases hfind : namespaces.find? fun n => n.1 = object with
    | none =>
        rw [hfind] at hresolve
        unfold fields? at hfields
        rw [hresolve] at hfields
        cases hfields
    | some n =>
        rw [hfind] at hresolve
        cases hfields.symm.trans (fields?_of_resolve hresolve rfl)
        exact Or.inl ⟨n, List.mem_of_find?_eq_some hfind, by simpa using List.find?_some hfind,
          hfield⟩

end SymbolTable

/-! ## Reports without findings about attributes -/

namespace Report

/-- No warning of the report is about an unknown object or attribute. -/
def KnowsAttributes (r : Report) : Prop :=
  ∀ d ∈ r.warnings, ¬"Unknown object".toList <+: d.message.toList ∧
    ¬"Unknown attribute".toList <+: d.message.toList

theorem diagnostic_mem_warnings {r : Report} {m : Remark} (hm : m ∈ r.remarks)
    (hmild : m.severity r.options ≠ .error) : m.diagnostic r.options ∈ r.warnings := by
  refine List.mem_map_of_mem (List.mem_filter.mpr ⟨hm, ?_⟩)
  unfold isError
  simpa using hmild

theorem KnowsAttributes.unknownObject_notMem {r : Report} (h : r.KnowsAttributes) (line : Nat)
    (object : String) : ⟨line, .unknownObject object⟩ ∉ r.remarks := by
  intro hm
  refine (h _ (diagnostic_mem_warnings hm (by simp [Remark.severity, Finding.severity]))).1 ?_
  unfold Remark.diagnostic Remark.message
  simp only [String.toList_append]
  iterate 2 refine List.prefix_append_of_prefix ?_
  decide

theorem KnowsAttributes.unknownAttribute_notMem {r : Report} (h : r.KnowsAttributes) (line : Nat)
    (field object : String) : ⟨line, .unknownAttribute field object⟩ ∉ r.remarks := by
  intro hm
  refine (h _ (diagnostic_mem_warnings hm (by simp [Remark.severity, Finding.severity]))).2 ?_
  unfold Remark.diagnostic Remark.message
  simp only [String.toList_append]
  iterate 4 refine List.prefix_append_of_prefix ?_
  decide

end Report

namespace Program
variable {o : Options} {source : String} {p : Program} {r : Rule} {e : Expr}
  {object field : String} {line : Nat}

theorem knows_of_knowsAttributes (hquiet : (p.analyze o).KnowsAttributes) (hr : r ∈ p.rules)
    (he : r.condition = some e) (hnode : .attribute object field line ∈ e.nodes) :
    Knows ((Declarations.ofProgram p).target? r) object field := by
  obtain ⟨scope, t, hglobal, ht, hfound⟩ := Program.exists_checkRule (o := o) hr
  obtain ⟨inner, hwithin, hbinds⟩ :=
    ht.bindResource (Declarations.ofProgram p) r ("policy@" ++ toString r.line)
  have hchecked : ∀ m, checkAttribute (bindResource (Declarations.ofProgram p)
      (t.enter ("policy@" ++ toString r.line)) r) (.attribute object field line) = some m →
      m ∈ (p.analyze o).remarks := by
    intro m hm
    refine hfound m ?_
    unfold checkRule
    dsimp only
    rw [he]
    exact List.mem_append_right _ (List.mem_append_left _
      (List.mem_filterMap.mpr ⟨_, hnode, hm⟩))
  unfold checkAttribute at hchecked
  dsimp only at hchecked
  split at hchecked
  · exact absurd (hchecked _ rfl) (hquiet.unknownObject_notMem line object)
  · next fields hfields =>
    split_ifs at hchecked with hfield
    · exact hwithin.knows hbinds hglobal hfields hfield
    · exact absurd (hchecked _ rfl) (hquiet.unknownAttribute_notMem line field object)

/-- What is known of a rule is there in every request that the rule covers. -/
theorem Accepted.defines_of_knows (h : p.Accepted o source) {request : Request}
    {parties : Engine.Parties}
    (hparties : (Engine.load (.ofProgram o.synthesize p)).parties request = .ok parties)
    (hcovers : ResourcePattern.matchesResource r.resource parties.resource = true)
    (hknown : Knows ((Declarations.ofProgram p).target? r) object field)
    (context : CallerContext) (now : Moment) :
    (parties.environment context now).Defines object field := by
  refine (Environment.defines_ofRequest_iff _ _ _ _ _).mpr ?_
  rcases hknown with ⟨n, hn, rfl, hfield⟩ | ⟨rfl, d, htarget, hfield⟩
  · exact Or.inl (mem_builtinFields_iff.mpr ⟨n, hn, rfl, hfield⟩)
  · refine Or.inr (Or.inr ⟨rfl, ?_⟩)
    obtain ⟨_, _, resource, hparty, rfl⟩ := h.exists_of_parties_eq_ok hparties
    -- the rule names one resource, and covers no other
    have hd : d ∈ p.resources := by
      rw [← show (Declarations.ofProgram p).resources = p.resources from
        h.declared_ofProgram .resource]
      exact List.mem_of_find?_eq_some htarget
    have hname : d.name = r.resource := by simpa using List.find?_some htarget
    rw [← hname, ResourcePattern.matchesResource_of_wellFormed (h.wellFormed_name hd)] at hcovers
    obtain rfl : resource = d :=
      List.inj_on_of_nodup_map (h.nodup_names .resource) hparty.resource_mem hd hcovers
    refine hfield.imp_right fun hfield => ?_
    unfold Definition.toResource Definition.propertyValues
    rwa [NameMap.names, List.map_map]

end Program

/-- **Known attributes are never missing.** If no warning of a compiled text is about an
unknown object or attribute, the condition of a policy that covers a request is read, and its
test never fails for an attribute that is not there. -/
theorem Engine.test_ne_unknownAttribute {o : Options} {source : String} {ir : PolicySet}
    {report : Report} (hcompile : (compile o source).policySet = some ir)
    (hreport : (compile o source).report = some report) (hquiet : report.KnowsAttributes)
    {request : Request} {parties : Parties} (hparties : (load ir).parties request = .ok parties)
    {q : Policy} (hq : q ∈ ir.policies)
    (hcovers : q.Covers (Text.lower request.action) parties.resource)
    {text : String} (htext : q.condition = some text) (context : CallerContext) (now : Moment) :
    ∃ e, Expr.ofText text = .ok e ∧ ∀ object field,
      e.test (parties.environment context now) ≠ .error (.unknownAttribute object field) := by
  obtain ⟨p, hp, hreport', _⟩ := program_of_compile hcompile
  obtain ⟨h, rfl⟩ := accepted_of_compile hcompile hp
  cases hreport.symm.trans hreport'
  rcases h.mem_policies_cases hq with ⟨r, hr, rfl⟩ | ⟨role, _, _, resource, _, rfl⟩
  · obtain ⟨e, he, rfl⟩ := Option.map_eq_some_iff.mp htext
    refine ⟨_, Expr.ofText_conditionText (writable_rules hp r hr e he), ?_⟩
    intro object field hfails
    rw [Expr.test_eq_unknownAttribute, Expr.eval_onLine] at hfails
    obtain ⟨hnone, line, hnode⟩ := Expr.exists_attribute_of_eval hfails
    have hdefined := h.defines_of_knows hparties hcovers.1
      (Program.knows_of_knowsAttributes hquiet hr he hnode) context now
    unfold Environment.Defines at hdefined
    rw [hnone] at hdefined
    cases hdefined
  · -- the condition of a synthesized policy reads the role only
    obtain ⟨text', htext', hread⟩ :=
      Role.ofText_condition_policyOn role.toRole resource.toResource
    cases htext.symm.trans htext'
    refine ⟨_, hread, fun object field hfails => ?_⟩
    obtain ⟨hnone, line, hnode⟩ :=
      Expr.exists_attribute_of_eval (Expr.test_eq_unknownAttribute.mp hfails)
    have hrole := Environment.get?_role_ofRequest parties.user parties.role parties.resource
      context now
    simp only [Expr.hasRole, Expr.nodes, List.mem_cons, List.mem_append, List.not_mem_nil,
      reduceCtorEq, or_false, false_or, Expr.attribute.injEq] at hnode
    obtain ⟨rfl, rfl, _⟩ := hnode
    cases hrole.symm.trans hnone

/-- A text with a condition on a property of the resource. -/
def levelSource : String :=
  "ROLE staff \x7b\x7d USER ann \x7brole: staff\x7d RESOURCE doc \x7blevel: 3\x7d " ++
    "ALLOW action: read ON RESOURCE: doc IF (resource.level < time.hour)"

def levelProgram : Program := ⟨[
  .definition .role ⟨"staff", [], 1⟩,
  .definition .user ⟨"ann", [("role", [.string "staff"])], 1⟩,
  .definition .resource ⟨"doc", [("level", [.int 3])], 1⟩,
  .rule ⟨.allow, ["read"], "doc", some (.binary .less (.attribute "resource" "level" 1)
    (.attribute "time" "hour" 1) 1), 1⟩]⟩

def levelParties : Engine.Parties :=
  ⟨⟨"ann", some "staff", [("role", [.string "staff"])], 1⟩, "staff",
    ⟨"doc", none, [("level", [.nat 3])], 1⟩⟩

theorem Engine.test_ne_unknownAttribute_level :
    (compile {} levelSource).policySet = some (.ofProgram true levelProgram) ∧
      (load (.ofProgram true levelProgram)).parties ⟨"ann", "READ", "doc"⟩ = .ok levelParties ∧
      ∀ context now, ∃ e, Expr.ofText "(resource.level < time.hour)" = .ok e ∧
        ∀ object field, e.test (levelParties.environment context now) ≠
          .error (.unknownAttribute object field) := by
  obtain ⟨hcompile, hreport⟩ : (compile {} levelSource).policySet =
      some (.ofProgram true levelProgram) ∧
      (compile {} levelSource).report = some (levelProgram.analyze {}) :=
    compile_of_read (by decide +kernel) (by decide +kernel) (by decide +kernel)
  have hquiet : (levelProgram.analyze {}).KnowsAttributes := by
    have hnone : (levelProgram.analyze {}).warnings = [] := by decide +kernel
    intro d hd
    rw [hnone] at hd
    cases hd
  refine ⟨hcompile, rfl, fun context now => ?_⟩
  have hparties : (load (.ofProgram true levelProgram)).parties ⟨"ann", "READ", "doc"⟩ =
      .ok levelParties := rfl
  have hmem : ⟨.allow, ["read"], "doc", some "(resource.level < time.hour)", some 1, false⟩ ∈
      (PolicySet.ofProgram true levelProgram).policies := by
    decide +kernel
  exact test_ne_unknownAttribute hcompile hreport hquiet hparties hmem
    ⟨by decide +kernel, by decide +kernel⟩ rfl context now

end AccessPolicy
