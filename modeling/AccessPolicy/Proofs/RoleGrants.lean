import AccessPolicy.Proofs.MergedContexts
import AccessPolicy.Proofs.Requests
import AccessPolicy.Proofs.ResourcePatterns

/-!
# Programs of roles only

A program without rules gets a policy for every role and every resource. The policy
compares `user.role` with the name of the role, so it holds for the users of that
role only; together the policies let every user do on every resource just what the
role may do (`Engine.effect_decide_eq_allow_of_roles`).
-/

namespace AccessPolicy

/-! ## The condition of a synthesized policy -/

def Expr.hasRole (role : String) : Expr :=
  .binary .equal (.attribute "user" "role" 1) (.literal (.string role) 1) 1

namespace Role
variable {role : Role} {resource : Resource}

theorem ofText_condition_policyOn (role : Role) (resource : Resource) :
    ∃ text, (role.policyOn resource).condition = some text ∧
      Expr.ofText text = .ok (.hasRole role.name) := by
  have hrole : TokenStream.ReadsAs "role" (.ident "role") :=
    TokenStream.readsAs_ident.mpr ⟨by decide +kernel, by decide +kernel⟩
  have hwritable : (Expr.hasRole role.name).Writable := ⟨⟨TokenStream.readsAs_user, hrole⟩, trivial⟩
  refine ⟨(Expr.hasRole role.name).conditionText, ?_, Expr.ofText_conditionText hwritable⟩
  simp [policyOn, Expr.hasRole, Expr.conditionText, BinaryOp.text, String.append_assoc]

theorem holds_policyOn {env : Environment} {name : String}
    (henv : env.get? "user" "role" = some (.text name)) :
    (role.policyOn resource).Holds env ↔ role.name = name := by
  obtain ⟨text, htext, hread⟩ := ofText_condition_policyOn role resource
  have htest : (Expr.hasRole role.name).test env = .ok (decide (name = role.name)) := by
    simp [Expr.test, Expr.hasRole, Expr.eval, henv, Literal.eval, BinaryOp.compare, Value.equal,
      Value.truth, bind, Except.bind, pure, Except.pure]
  constructor
  · rintro (hnone | ⟨text', e, htext', hread', htrue⟩)
    · cases htext.symm.trans hnone
    · cases htext.symm.trans htext'
      cases hread.symm.trans hread'
      rw [htest] at htrue
      injection htrue with htrue
      exact (of_decide_eq_true htrue).symm
  · rintro rfl
    exact Or.inr ⟨text, _, htext, hread, by rw [htest, decide_eq_true rfl]⟩

theorem matchesResource_self {d : Definition} (h : (Token.ident d.name).WellFormed) :
    ResourcePattern.matchesResource d.name d.toResource = true :=
  (ResourcePattern.matchesResource_of_wellFormed h d.toResource).mpr rfl

end Role

/-! ## The policies of a program of roles -/

theorem mem_synthesizedPolicies {roles resources : List Definition} {q : Policy} :
    q ∈ synthesizedPolicies (roles.map Definition.toRole) (resources.map Definition.toResource) ↔
      ∃ role ∈ roles, role.texts "can" ≠ [] ∧
        ∃ resource ∈ resources, role.toRole.policyOn resource.toResource = q := by
  unfold synthesizedPolicies
  rw [List.mem_flatMap]
  constructor
  · rintro ⟨_, hfilter, hq⟩
    obtain ⟨hroles, hcan⟩ := List.mem_filter.mp hfilter
    obtain ⟨role, hrole, rfl⟩ := List.mem_map.mp hroles
    obtain ⟨_, hresources, rfl⟩ := List.mem_map.mp hq
    obtain ⟨resource, hresource, rfl⟩ := List.mem_map.mp hresources
    exact ⟨role, hrole, by simpa [Definition.toRole] using hcan, resource, hresource, rfl⟩
  · rintro ⟨role, hrole, hcan, resource, hresource, rfl⟩
    refine ⟨role.toRole, List.mem_filter.mpr ⟨List.mem_map_of_mem hrole, ?_⟩,
      List.mem_map_of_mem (List.mem_map_of_mem hresource)⟩
    simpa [Definition.toRole] using hcan

section
variable {o : Options} {source : String} {p : Program}

/-- Every policy of a program without rules lets the users of a role act on a resource. -/
theorem Program.Accepted.mem_policies_of_roles (h : p.Accepted o source) (hrules : p.rules = [])
    {q : Policy} : q ∈ (PolicySet.ofProgram o.synthesize p).policies ↔
      o.synthesize = true ∧ ∃ role ∈ p.roles, role.texts "can" ≠ [] ∧
        ∃ resource ∈ p.resources, role.toRole.policyOn resource.toResource = q := by
  have hroles : firstNamed p.roles = p.roles := h.firstNamed_definitions .role
  have hresources : firstNamed p.resources = p.resources := h.firstNamed_definitions .resource
  have hpolicies : (PolicySet.ofProgram o.synthesize p).policies =
      if o.synthesize = true then
        synthesizedPolicies (p.roles.map Definition.toRole)
          (p.resources.map Definition.toResource)
      else [] := by
    unfold PolicySet.ofProgram
    dsimp only
    rw [hrules, hroles, hresources]
    rfl
  rw [hpolicies]
  split_ifs with hsynthesize
  · rw [mem_synthesizedPolicies, and_iff_right hsynthesize]
  · simp [hsynthesize]

theorem Program.Accepted.mem_policies_cases (h : p.Accepted o source) {q : Policy}
    (hq : q ∈ (PolicySet.ofProgram o.synthesize p).policies) :
    (∃ r ∈ p.rules, r.toPolicy = q) ∨
      ∃ role ∈ p.roles, role.texts "can" ≠ [] ∧
        ∃ resource ∈ p.resources, role.toRole.policyOn resource.toResource = q := by
  by_cases hrules : p.rules = []
  · exact Or.inr ((h.mem_policies_of_roles hrules).mp hq).2
  · rw [PolicySet.policies_ofProgram hrules] at hq
    exact Or.inl (List.mem_map.mp hq)

theorem Program.Accepted.exists_party_of_allow (h : p.Accepted o source) (hrules : p.rules = [])
    {request : Request} {context : CallerContext} {now : Moment}
    (hallow : ((Engine.load (.ofProgram o.synthesize p)).decide request context now).effect =
      .allow) :
    o.synthesize = true ∧ ∃ user role resource, p.PartyTo request user role resource ∧
      coversAction (role.texts "can") (Text.lower request.action) = true := by
  obtain ⟨parties, hparties⟩ := Engine.exists_parties_of_allow hallow
  obtain ⟨user, role, resource, hparty, rfl⟩ := h.exists_of_parties_eq_ok hparties
  obtain ⟨⟨q, hq, _, ⟨_, hcovers⟩, hholds⟩, _⟩ :=
    (Engine.effect_decide_eq_allow hparties).mp hallow
  obtain ⟨hsynthesize, other, hother, _, _, _, rfl⟩ := (h.mem_policies_of_roles hrules).mp hq
  -- the policy holds for the users of one role only, which is the role of this user
  have hname : other.name = role.name :=
    (Role.holds_policyOn (Environment.get?_role_ofRequest _ _ _ context now)).mp hholds
  have hsame := List.inj_on_of_nodup_map (h.nodup_names .role) hother hparty.role_mem hname
  subst hsame
  exact ⟨hsynthesize, user, other, resource, hparty, hcovers⟩

theorem Program.Accepted.allow_of_party (h : p.Accepted o source) (hrules : p.rules = [])
    (hsynthesize : o.synthesize = true) {request : Request} {user role resource : Definition}
    (hparty : p.PartyTo request user role resource)
    (hcovers : coversAction (role.texts "can") (Text.lower request.action) = true)
    (context : CallerContext) (now : Moment) :
    ((Engine.load (.ofProgram o.synthesize p)).decide request context now).effect = .allow := by
  have hmem := fun q => h.mem_policies_of_roles hrules (q := q)
  have hcan : role.texts "can" ≠ [] := by
    intro hnil
    rw [hnil] at hcovers
    cases hcovers
  rw [Engine.effect_decide_eq_allow (h.parties_eq_ok hparty)]
  constructor
  · refine ⟨role.toRole.policyOn resource.toResource, ?_, rfl, ⟨?_, hcovers⟩, ?_⟩
    · exact (hmem _).mpr ⟨hsynthesize, role, hparty.role_mem, hcan, resource,
        hparty.resource_mem, rfl⟩
    · exact Role.matchesResource_self (h.wellFormed_name hparty.resource_mem)
    · exact (Role.holds_policyOn (Environment.get?_role_ofRequest _ _ _ context now)).mpr rfl
  · rintro ⟨q, hq, hdeny, _⟩
    obtain ⟨_, _, _, _, _, _, rfl⟩ := (hmem q).mp hq
    cases hdeny

/-- **Roles grant just what they list.** A compiled text without rules, if policies are made
for its roles, allows a request just if the user is defined with a defined role, the resource
is defined, and the role may do everything or the action. Neither the context nor the moment
counts. -/
theorem Engine.effect_decide_eq_allow_of_roles {ir : PolicySet}
    (hcompile : (compile o source).policySet = some ir)
    (hprogram : Program.ofTokens o.maxErrors (TokenStream.scan source).1 = .ok p)
    (hrules : p.rules = []) (hsynthesize : o.synthesize = true)
    (request : Request) (context : CallerContext) (now : Moment) :
    ((Engine.load ir).decide request context now).effect = .allow ↔
      ∃ user ∈ p.users, user.name = request.user ∧
        ∃ role ∈ p.roles, user.firstText "role" = some role.name ∧
          (∃ resource ∈ p.resources, resource.name = request.resource) ∧
          ("*" ∈ role.texts "can" ∨ Text.lower request.action ∈ role.texts "can") := by
  obtain ⟨h, rfl⟩ := accepted_of_compile hcompile hprogram
  constructor
  · intro hallow
    obtain ⟨_, user, role, resource, hparty, hcovers⟩ := h.exists_party_of_allow hrules hallow
    exact ⟨user, hparty.user_mem, hparty.user_name, role, hparty.role_mem, hparty.user_role,
      ⟨resource, hparty.resource_mem, hparty.resource_name⟩, coversAction_iff.mp hcovers⟩
  · rintro ⟨user, huser, huserName, role, hrole, hassigned, ⟨resource, hresource, hresourceName⟩,
      hcan⟩
    exact h.allow_of_party hrules hsynthesize
      ⟨huser, huserName, hrole, hassigned, hresource, hresourceName⟩
      (coversAction_iff.mpr hcan) context now

end

/-- A text of definitions only. -/
def editorSource : String :=
  "ROLE Editor \x7b can: read, Write \x7d USER ann \x7b role: Editor \x7d RESOURCE doc \x7b \x7d"

def editorProgram : Program := ⟨[
  .definition .role ⟨"Editor", [("can", [.string "read", .string "write"])], 1⟩,
  .definition .user ⟨"ann", [("role", [.string "Editor"])], 1⟩,
  .definition .resource ⟨"doc", [], 1⟩]⟩

theorem Engine.effect_decide_eq_allow_of_roles_editor :
    (compile {} editorSource).policySet = some (.ofProgram true editorProgram) ∧
      ∀ context now,
        ((Engine.load (.ofProgram true editorProgram)).decide ⟨"ann", "WRITE", "doc"⟩
          context now).effect = .allow ∧
        ((Engine.load (.ofProgram true editorProgram)).decide ⟨"ann", "delete", "doc"⟩
          context now).effect ≠ .allow := by
  obtain ⟨hread, hscan⟩ : (Program.ofTokens 10 (TokenStream.scan editorSource).1).toOption =
      some editorProgram ∧ (TokenStream.scan editorSource).2 = [] := by
    decide +kernel
  have hprogram := eq_ok_of_toOption hread
  have hcompile := policySet_compile hscan hprogram (o := {}) (by decide +kernel)
  refine ⟨hcompile, fun context now => ⟨?_, ?_⟩⟩
  · rw [effect_decide_eq_allow_of_roles hcompile hprogram rfl rfl]
    decide +kernel
  · rw [Ne, effect_decide_eq_allow_of_roles hcompile hprogram rfl rfl]
    decide +kernel

end AccessPolicy
