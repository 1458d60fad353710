import AccessPolicy.Proofs.RoleGrants
import AccessPolicy.Proofs.Scopes

/-!
# Compiled policy sets refer to what they contain

If undefined references are errors, a compiled policy set is closed: names are unique, the
role of a user is a role of the set, a plain resource of a policy is a resource of the set, and
every condition is read (`PolicySet.closed_of_compile`). An engine of a closed set refuses a
request unseen only for a user or a resource that it does not have, or a user without a role.
-/

namespace AccessPolicy

/-! ## Closed policy sets -/

/-- The entities of a set have names of their own, and what its users and policies refer to is
there. -/
structure PolicySet.Closed (s : PolicySet) : Prop where
  roles : (s.roles.map Role.name).Nodup
  users : (s.users.map User.name).Nodup
  resources : (s.resources.map Resource.name).Nodup
  assigned : ∀ u ∈ s.users, ∀ role, u.role = some role → ∃ r ∈ s.roles, r.name = role
  target : ∀ p ∈ s.policies, (∀ c ∈ p.resource.toList, c ≠ '*' ∧ c ≠ '.' ∧ c ≠ '/') →
    ∃ r ∈ s.resources, r.name = p.resource
  readable : ∀ p ∈ s.policies, ∀ text, p.condition = some text → ∃ e, Expr.ofText text = .ok e

namespace Engine

theorem environment_decide_eq_none {e : Engine} {request : Request} {context : CallerContext}
    {now : Moment} :
    (e.decide request context now).environment = none ↔
      ∃ reason, e.parties request = .error reason := by
  unfold decide
  cases e.parties request with
  | error reason => simp
  | ok parties => simp

theorem exists_parties_error {e : Engine} {request : Request} :
    (∃ reason, e.parties request = .error reason) ↔
      e.user? request.user = none ∨ e.resource? request.resource = none ∨
        ∃ user, e.user? request.user = some user ∧
          ∀ role, user.assignedRole? = some role → e.role? role = none := by
  unfold parties
  cases e.user? request.user with
  | none => simp
  | some user =>
      cases e.resource? request.resource with
      | none => simp
      | some resource =>
          cases hassigned : user.assignedRole? with
          | none => simp [hassigned]
          | some role => cases hrole : e.role? role <;> simp [hassigned, hrole]

/-- An engine of a closed set, in which no role has an empty name, refuses a request unseen
just if it does not know the user or the resource, or the user has no role. -/
theorem environment_decide_eq_none_of_closed {set : PolicySet} (h : set.Closed)
    (hnames : ∀ r ∈ set.roles, r.name ≠ "") {request : Request} {context : CallerContext}
    {now : Moment} :
    ((load set).decide request context now).environment = none ↔
      (load set).user? request.user = none ∨ (load set).resource? request.resource = none ∨
        ∃ user, (load set).user? request.user = some user ∧ user.role = none := by
  rw [environment_decide_eq_none, exists_parties_error]
  refine or_congr Iff.rfl (or_congr Iff.rfl (exists_congr fun user => ?_))
  refine and_congr_right fun huser => ?_
  rw [user?_eq] at huser
  have hmem : user ∈ set.users := List.mem_of_find?_eq_some huser
  unfold User.assignedRole?
  cases hassigned : user.role with
  | none => simp
  | some role =>
      -- the role is a role of the set, so it has a name and is found
      obtain ⟨r, hr, rfl⟩ := h.assigned user hmem role hassigned
      have hfound : (load set).role? r.name ≠ none := by
        intro hnone
        rw [role?_eq] at hnone
        have hdiffers := List.find?_eq_none.mp hnone r hr
        simp at hdiffers
      simp [hnames r hr, hfound]

theorem guard_ne_unreadable_of_closed {set : PolicySet} (h : set.Closed) {l : LoadedPolicy}
    (hl : l ∈ (load set).policies) (text : String) : l.guard ≠ .unreadable text := by
  obtain ⟨p, hp, rfl⟩ := List.mem_map.mp hl
  unfold LoadedPolicy.ofPolicy Guard.ofCondition
  cases hcondition : p.condition with
  | none => simp
  | some text =>
      obtain ⟨e, hread⟩ := h.readable p hp text hcondition
      simp [hread]

end Engine

/-! ## Accepted programs -/

/-- A name that is no pattern, no dotted name and no path is plain. -/
theorem isPlainName_of_forall {spec : String}
    (h : ∀ c ∈ spec.toList, c ≠ '*' ∧ c ≠ '.' ∧ c ≠ '/') :
    isPath spec = false ∧ isPlainName spec = true := by
  constructor
  · unfold isPath
    cases hspec : spec.toList with
    | nil => rfl
    | cons c cs =>
        rw [hspec] at h
        obtain ⟨_, _, hslash⟩ := h c List.mem_cons_self
        simpa using hslash
  · unfold isPlainName
    rw [Bool.not_eq_true', List.any_eq_false]
    intro c hc
    obtain ⟨hstar, hdot, hslash⟩ := h c hc
    simp [hstar, hdot, hslash]

namespace Program.Accepted
variable {o : Options} {source : String} {p : Program}

theorem exists_role (h : p.Accepted o source) (hstrict : o.undefinedRoles = .strict)
    {user : Definition} (huser : user ∈ p.users) {role : String}
    (hrole : user.firstText "role" = some role) : ∃ d ∈ p.roles, d.name = role := by
  obtain ⟨scope, hglobal, hinitial⟩ := Declarations.exists_global p
  by_contra hnone
  have hresolve : ((Declarations.ofProgram p).symbols.resolve .role role).isSome = false := by
    rw [hinitial.resolve, ← Bool.not_eq_true]
    exact mt (hglobal.definitions .role role).mp hnone
  have hdeclared : user ∈ (Declarations.ofProgram p).users := by
    rwa [show (Declarations.ofProgram p).users = p.users from h.declared_ofProgram .user]
  have hfound : ⟨user.line, .undefinedUserRole user.name role⟩ ∈
      checkUsers (Declarations.ofProgram p) := by
    refine List.mem_filterMap.mpr ⟨user, hdeclared, ?_⟩
    rw [hrole]
    dsimp only
    rw [hresolve]
    rfl
  refine h.harmless _ (Program.mem_remarks_of_checkUsers hfound) ?_
  simp [Remark.severity, Finding.severity, hstrict, Strictness.severity]

theorem exists_resource (h : p.Accepted o source) (hstrict : o.undefinedResources = .strict)
    {r : Rule} (hr : r ∈ p.rules)
    (hplain : ∀ c ∈ r.resource.toList, c ≠ '*' ∧ c ≠ '.' ∧ c ≠ '/') :
    ∃ d ∈ p.resources, d.name = r.resource := by
  obtain ⟨scope, t, hglobal, ht, hfound⟩ := Program.exists_checkRule (o := o) hr
  obtain ⟨hpath, hname⟩ := isPlainName_of_forall hplain
  by_contra hnone
  have hresolve : t.resolve .resource r.resource = none := by
    rw [ht.resolve, ← Option.not_isSome_iff_eq_none]
    exact mt (hglobal.definitions .resource r.resource).mp hnone
  have hchecked : checkResource (Declarations.ofProgram p) t r =
      [⟨r.line, .undefinedResource r.resource⟩] := by
    unfold checkResource
    rw [hpath, hname, hresolve]
    rfl
  have hmem : ⟨r.line, .undefinedResource r.resource⟩ ∈
      (checkRule (Declarations.ofProgram p) t r).2 := by
    unfold checkRule
    dsimp only
    rw [hchecked]
    cases r.condition with
    | none => exact List.mem_singleton_self _
    | some e => exact List.mem_cons_self
  refine h.harmless _ (hfound _ hmem) ?_
  simp [Remark.severity, Finding.severity, hstrict, Strictness.severity]

theorem exists_ofText_condition (h : p.Accepted o source) {q : Policy}
    (hq : q ∈ (PolicySet.ofProgram o.synthesize p).policies) {text : String}
    (htext : q.condition = some text) : ∃ e, Expr.ofText text = .ok e := by
  rcases h.mem_policies_cases hq with ⟨r, hr, rfl⟩ | ⟨role, _, _, resource, _, rfl⟩
  · obtain ⟨e, he, rfl⟩ := Option.map_eq_some_iff.mp htext
    exact ⟨_, Expr.ofText_conditionText (writable_rules h.read r hr e he)⟩
  · obtain ⟨text', htext', hread⟩ :=
      Role.ofText_condition_policyOn role.toRole resource.toResource
    cases htext.symm.trans htext'
    exact ⟨_, hread⟩

theorem roles_ofProgram (h : p.Accepted o source) :
    (PolicySet.ofProgram o.synthesize p).roles = p.roles.map Definition.toRole :=
  congrArg (List.map Definition.toRole) (h.firstNamed_definitions .role)

theorem users_ofProgram (h : p.Accepted o source) :
    (PolicySet.ofProgram o.synthesize p).users = p.users.map Definition.toUser :=
  congrArg (List.map Definition.toUser) (h.firstNamed_definitions .user)

theorem resources_ofProgram (h : p.Accepted o source) :
    (PolicySet.ofProgram o.synthesize p).resources = p.resources.map Definition.toResource :=
  congrArg (List.map Definition.toResource) (h.firstNamed_definitions .resource)

theorem exists_target (h : p.Accepted o source) (hstrict : o.undefinedResources = .strict)
    {q : Policy} (hq : q ∈ (PolicySet.ofProgram o.synthesize p).policies)
    (hplain : ∀ c ∈ q.resource.toList, c ≠ '*' ∧ c ≠ '.' ∧ c ≠ '/') :
    ∃ r ∈ (PolicySet.ofProgram o.synthesize p).resources, r.name = q.resource := by
  rw [h.resources_ofProgram]
  rcases h.mem_policies_cases hq with ⟨r, hr, rfl⟩ | ⟨role, _, _, resource, hresource, rfl⟩
  · obtain ⟨d, hd, hname⟩ := h.exists_resource hstrict hr hplain
    exact ⟨d.toResource, List.mem_map_of_mem hd, hname⟩
  · exact ⟨resource.toResource, List.mem_map_of_mem hresource, rfl⟩

theorem closed_ofProgram (h : p.Accepted o source) (hroles : o.undefinedRoles = .strict)
    (hresources : o.undefinedResources = .strict) :
    (PolicySet.ofProgram o.synthesize p).Closed := by
  constructor
  · rw [h.roles_ofProgram, List.map_map]
    exact h.nodup_names .role
  · rw [h.users_ofProgram, List.map_map]
    exact h.nodup_names .user
  · rw [h.resources_ofProgram, List.map_map]
    exact h.nodup_names .resource
  · intro u hu role hrole
    rw [h.users_ofProgram] at hu
    obtain ⟨user, huser, rfl⟩ := List.mem_map.mp hu
    obtain ⟨d, hd, rfl⟩ := h.exists_role hroles huser hrole
    rw [h.roles_ofProgram]
    exact ⟨d.toRole, List.mem_map_of_mem hd, rfl⟩
  · exact fun q hq hplain => h.exists_target hresources hq hplain
  · exact fun q hq text htext => h.exists_ofText_condition hq htext

end Program.Accepted

/-- **Compiled policy sets are closed.** Where undefined references are errors, a compiled
policy set is closed; an engine of it refuses a request unseen just if it does not know the
user or the resource, or the user has no role, and it has no condition that is not read. -/
theorem PolicySet.closed_of_compile {o : Options} {source : String} {ir : PolicySet}
    (hcompile : (compile o source).policySet = some ir) (hroles : o.undefinedRoles = .strict)
    (hresources : o.undefinedResources = .strict) :
    ir.Closed ∧
      (∀ request context now,
        ((Engine.load ir).decide request context now).environment = none ↔
          (Engine.load ir).user? request.user = none ∨
          (Engine.load ir).resource? request.resource = none ∨
          ∃ user, (Engine.load ir).user? request.user = some user ∧ user.role = none) ∧
      ∀ l ∈ (Engine.load ir).policies, ∀ text, l.guard ≠ .unreadable text := by
  obtain ⟨p, hp, _, _⟩ := program_of_compile hcompile
  obtain ⟨h, rfl⟩ := accepted_of_compile hcompile hp
  have hclosed := h.closed_ofProgram hroles hresources
  refine ⟨hclosed, fun request context now => ?_, fun l hl text => ?_⟩
  · refine Engine.environment_decide_eq_none_of_closed hclosed fun r hr => ?_
    rw [h.roles_ofProgram] at hr
    obtain ⟨d, hd, rfl⟩ := List.mem_map.mp hr
    exact h.name_ne_empty hd
  · exact Engine.guard_ne_unreadable_of_closed hclosed hl text

/-- A text with a user who has a role and one who has none. -/
def rolelessSource : String :=
  "ROLE staff \x7b\x7d USER ann \x7brole: staff\x7d USER bob \x7b\x7d RESOURCE doc \x7b\x7d " ++
    "ALLOW action: read ON RESOURCE: doc IF (user.name == \"ann\")"

theorem PolicySet.closed_of_compile_roleless :
    ∃ ir, (compile {} rolelessSource).policySet = some ir ∧ ir.Closed ∧
      ∀ context now,
        ((Engine.load ir).decide ⟨"ann", "read", "doc"⟩ context now).environment ≠ none ∧
        ((Engine.load ir).decide ⟨"bob", "read", "doc"⟩ context now).environment = none := by
  have hfound : ((compile {} rolelessSource).policySet.map fun ir =>
      (((Engine.load ir).user? "ann").map User.role, ((Engine.load ir).user? "bob").map User.role,
        ((Engine.load ir).resource? "doc").isSome)) =
      some (some (some "staff"), some none, true) := by
    decide +kernel
  obtain ⟨ir, hir, hparties⟩ := Option.map_eq_some_iff.mp hfound
  simp only [Prod.mk.injEq] at hparties
  obtain ⟨hann, hbob, hdoc⟩ := hparties
  obtain ⟨ann, hann, hstaff⟩ := Option.map_eq_some_iff.mp hann
  obtain ⟨bob, hbob, hnone⟩ := Option.map_eq_some_iff.mp hbob
  obtain ⟨hclosed, hrefused, _⟩ := closed_of_compile hir rfl rfl
  refine ⟨ir, hir, hclosed, fun context now => ⟨?_, ?_⟩⟩
  · rw [Ne, hrefused]
    rintro (hunknown | hunknown | ⟨user, huser, hrole⟩)
    · cases hann.symm.trans hunknown
    · rw [hunknown] at hdoc
      cases hdoc
    · cases hann.symm.trans huser
      cases hstaff.symm.trans hrole
  · exact (hrefused _ context now).mpr (Or.inr (Or.inr ⟨bob, hbob, hnone⟩))

end AccessPolicy
