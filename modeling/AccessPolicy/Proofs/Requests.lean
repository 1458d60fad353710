import AccessPolicy.Proofs.CompiledPrograms

/-!
# Requests to a compiled program

Who and what a request to the engine of an accepted program is about, and which rules decide it:
the parties are definitions of the program, and the rules are read off its source.
-/

namespace AccessPolicy

/-! ## Parties -/

namespace Engine
variable {e : Engine} {request : Request} {context : CallerContext} {now : Moment}

theorem exists_parties_of_allow (h : (e.decide request context now).effect = .allow) :
    ∃ parties, e.parties request = .ok parties := by
  cases hparties : e.parties request with
  | ok parties => exact ⟨parties, rfl⟩
  | error reason =>
      unfold decide at h
      rw [hparties] at h
      have hdeny := effect_of_parties_error hparties
      cases hdeny.symm.trans h

end Engine

namespace Program

/-- The definitions that a request is about, in a program. -/
structure PartyTo (p : Program) (request : Request) (user role resource : Definition) :
    Prop where
  user_mem : user ∈ p.users
  user_name : user.name = request.user
  role_mem : role ∈ p.roles
  user_role : user.firstText "role" = some role.name
  resource_mem : resource ∈ p.resources
  resource_name : resource.name = request.resource

namespace Accepted
variable {o : Options} {source : String} {p : Program} {request : Request}
  {user role resource : Definition}

theorem name_ne_empty (h : p.Accepted o source) {kind : DefinitionKind} {d : Definition}
    (hd : d ∈ p.definitions kind) : d.name ≠ "" := by
  intro hempty
  obtain ⟨hword, _⟩ := h.wellFormed_name hd
  rw [hempty] at hword
  exact hword

/-- The engine of an accepted program finds the parties of a request. -/
theorem parties_eq_ok (h : p.Accepted o source) (hp : p.PartyTo request user role resource) :
    (Engine.load (.ofProgram o.synthesize p)).parties request =
      .ok ⟨user.toUser, role.name, resource.toResource⟩ := by
  have huser : p.lookup .user request.user = some user :=
    h.lookup_eq_some_iff.mpr ⟨hp.user_mem, hp.user_name⟩
  have hrole : p.lookup .role role.name = some role :=
    h.lookup_eq_some_iff.mpr ⟨hp.role_mem, rfl⟩
  have hresource : p.lookup .resource request.resource = some resource :=
    h.lookup_eq_some_iff.mpr ⟨hp.resource_mem, hp.resource_name⟩
  have hparties : p.parties? request = some (user, role.name, resource) := by
    unfold parties?
    rw [huser, hresource]
    simp [hp.user_role, hrole, h.name_ne_empty hp.role_mem]
  refine eq_ok_of_toOption ?_
  rw [toOption_parties, hparties]
  rfl

theorem exists_of_parties_eq_ok (h : p.Accepted o source) {parties : Engine.Parties}
    (hparties : (Engine.load (.ofProgram o.synthesize p)).parties request = .ok parties) :
    ∃ user role resource, p.PartyTo request user role resource ∧
      parties = ⟨user.toUser, role.name, resource.toResource⟩ := by
  have hsome := toOption_parties (p := p) o.synthesize request
  rw [hparties] at hsome
  obtain ⟨⟨user, name, resource⟩, hdefined, rfl⟩ := Option.map_eq_some_iff.mp hsome.symm
  unfold parties? at hdefined
  obtain ⟨u, huser, hdefined⟩ := Option.bind_eq_some_iff.mp hdefined
  obtain ⟨r, hresource, hdefined⟩ := Option.bind_eq_some_iff.mp hdefined
  obtain ⟨n, hname, hdefined⟩ := Option.bind_eq_some_iff.mp hdefined
  split_ifs at hdefined
  obtain ⟨role, hrole, hdefined⟩ := Option.bind_eq_some_iff.mp hdefined
  cases hdefined
  obtain ⟨huserMem, huserName⟩ := h.lookup_eq_some_iff.mp huser
  obtain ⟨hresourceMem, hresourceName⟩ := h.lookup_eq_some_iff.mp hresource
  obtain ⟨hroleMem, rfl⟩ := h.lookup_eq_some_iff.mp hrole
  exact ⟨user, role, resource,
    ⟨huserMem, huserName, hroleMem, hname, hresourceMem, hresourceName⟩, rfl⟩

end Accepted
end Program

/-! ## Decisions by rules -/

theorem Rule.listed_iff {r : Rule} (h : r.Writable) {env : Environment} {action : String}
    {resource : Resource} :
    r.toPolicy.Covers action resource ∧ r.toPolicy.Holds env ↔ r.Listed env action resource := by
  rw [← Policy.applies_iff, Rule.applies_toPolicy h, Rule.applies_iff]

/-- With rules, a request is allowed just if a rule that allows is listed for it and none that
denies. -/
theorem Program.Accepted.effect_decide_eq_allow {o : Options} {source : String} {p : Program}
    (h : p.Accepted o source) (hrules : p.rules ≠ []) {request : Request}
    {user role resource : Definition} (hparty : p.PartyTo request user role resource)
    (context : CallerContext) (now : Moment) :
    ((Engine.load (.ofProgram o.synthesize p)).decide request context now).effect = .allow ↔
      (∃ r ∈ p.rules, r.effect = .allow ∧
        r.Listed (.ofRequest user.toUser role.name resource.toResource context now)
          (Text.lower request.action) resource.toResource) ∧
      ¬∃ r ∈ p.rules, r.effect = .deny ∧
        r.Listed (.ofRequest user.toUser role.name resource.toResource context now)
          (Text.lower request.action) resource.toResource := by
  have hlisted : ∀ effect env action resource,
      (∃ q ∈ p.rules.map Rule.toPolicy, q.effect = effect ∧ q.Covers action resource ∧
        q.Holds env) ↔ ∃ r ∈ p.rules, r.effect = effect ∧ r.Listed env action resource := by
    intro effect env action resource
    constructor
    · rintro ⟨q, hq, heffect, hmatches⟩
      obtain ⟨r, hr, rfl⟩ := List.mem_map.mp hq
      exact ⟨r, hr, heffect, (Rule.listed_iff (writable_rules h.read r hr)).mp hmatches⟩
    · rintro ⟨r, hr, heffect, hmatches⟩
      exact ⟨r.toPolicy, List.mem_map_of_mem hr, heffect,
        (Rule.listed_iff (writable_rules h.read r hr)).mpr hmatches⟩
  rw [Engine.effect_decide_eq_allow (h.parties_eq_ok hparty)]
  have hpolicies : (Engine.load (.ofProgram o.synthesize p)).set.policies =
      p.rules.map Rule.toPolicy := PolicySet.policies_ofProgram hrules o.synthesize
  rw [hpolicies, hlisted, hlisted]

end AccessPolicy
