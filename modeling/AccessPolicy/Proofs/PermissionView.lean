import AccessPolicy.Decision.Permissions
import AccessPolicy.Proofs.RoleGrants

/-!
# What the permissions of a user show

The permissions of a user show the policies without a condition and those whose
condition reads `user.role`. A policy that matches a request of the user is therefore
shown just if it is one of these (`Engine.mem_applicable_iff_of_mem_matched`). For a
program of roles this is every policy that matches (`Engine.showsMatched_of_roles`), but a
condition on the time of the day alone hides a policy (`Engine.not_showsMatched_hoursSet`).
-/

namespace AccessPolicy

/-! ## Policies that are shown -/

/-- The policy has no condition, or one that reads the role of the user. -/
def Policy.ConcernsRole (p : Policy) : Prop :=
  p.condition = none ∨
    ∃ text e, p.condition = some text ∧ Expr.ofText text = .ok e ∧ e.readsUserRole = true

/-- A policy is shown if it concerns the role, or if its condition cannot be read and mentions
the role in its text. -/
theorem Policy.mayReadRole_iff {p : Policy} :
    (Guard.ofCondition p.condition).mayReadRole = true ↔
      p.ConcernsRole ∨ ∃ text faults, p.condition = some text ∧ Expr.ofText text = .error faults ∧
        Text.mentions text "user.role" = true := by
  unfold ConcernsRole Guard.ofCondition
  cases p.condition with
  | none => simp [Guard.mayReadRole]
  | some text =>
      cases hread : Expr.ofText text with
      | error faults => simp [Guard.mayReadRole, hread]
      | ok e => simp [Guard.mayReadRole, hread]

theorem Policy.mayReadRole_iff_of_holds {env : Environment} {p : Policy} (h : p.Holds env) :
    (Guard.ofCondition p.condition).mayReadRole = true ↔ p.ConcernsRole := by
  rw [mayReadRole_iff, or_iff_left]
  rintro ⟨text, faults, htext, hfaults, _⟩
  rcases h with hnone | ⟨text', e, htext', hread, _⟩
  · cases htext.symm.trans hnone
  · cases htext.symm.trans htext'
    cases hfaults.symm.trans hread

namespace Engine
variable {e : Engine} {request : Request} {context : CallerContext} {now : Moment}
  {p : Policy}

theorem mem_applicable_iff {view : Permissions} {username : String}
    (h : e.permissions? username = some view) :
    p ∈ view.applicable ↔
      p ∈ e.set.policies ∧ (Guard.ofCondition p.condition).mayReadRole = true := by
  obtain ⟨user, _, rfl⟩ := Option.map_eq_some_iff.mp h
  dsimp only
  rw [e.policies_eq, List.mem_map]
  constructor
  · rintro ⟨l, hl, rfl⟩
    obtain ⟨hmem, hshown⟩ := List.mem_filter.mp hl
    obtain ⟨p, hp, rfl⟩ := List.mem_map.mp hmem
    exact ⟨hp, hshown⟩
  · rintro ⟨hp, hshown⟩
    exact ⟨.ofPolicy p, List.mem_filter.mpr ⟨List.mem_map_of_mem hp, hshown⟩, rfl⟩

theorem exists_permissions_of_parties {parties : Parties}
    (h : e.parties request = .ok parties) :
    ∃ view, e.permissions? request.user = some view := by
  unfold Engine.parties at h
  split at h
  · cases h
  · next user huser => exact ⟨_, Option.map_eq_some_iff.mpr ⟨user, huser, rfl⟩⟩

theorem exists_parties_of_mem_matched (h : p ∈ (e.decide request context now).matched) :
    ∃ parties, e.parties request = .ok parties ∧ p ∈ e.set.policies ∧
      p.Holds (parties.environment context now) := by
  unfold decide at h
  cases hparties : e.parties request with
  | error reason =>
      rw [hparties] at h
      exact absurd h List.not_mem_nil
  | ok parties =>
      rw [hparties] at h
      obtain ⟨hp, _, hholds⟩ := mem_matching.mp h
      exact ⟨parties, rfl, hp, hholds⟩

/-- **What is shown of the policies that match.** A policy that matched a request of a user is
among the permissions of the user just if it concerns the role. -/
theorem mem_applicable_iff_of_mem_matched (h : p ∈ (e.decide request context now).matched) :
    ∃ view, e.permissions? request.user = some view ∧ (p ∈ view.applicable ↔ p.ConcernsRole) := by
  obtain ⟨parties, hparties, hp, hholds⟩ := exists_parties_of_mem_matched h
  obtain ⟨view, hview⟩ := exists_permissions_of_parties hparties
  refine ⟨view, hview, ?_⟩
  rw [mem_applicable_iff hview, Policy.mayReadRole_iff_of_holds hholds, and_iff_right hp]

/-- The permissions of a user show every policy that matches some request of the user. -/
def ShowsMatched (e : Engine) : Prop :=
  ∀ request context now view, e.permissions? request.user = some view →
    ∀ p ∈ (e.decide request context now).matched, p ∈ view.applicable

theorem showsMatched_of_concernsRole (h : ∀ p ∈ e.set.policies, p.ConcernsRole) :
    e.ShowsMatched := by
  intro request context now view hview p hp
  obtain ⟨_, _, hmem, _⟩ := exists_parties_of_mem_matched hp
  rw [mem_applicable_iff hview, Policy.mayReadRole_iff]
  exact ⟨hmem, Or.inl (h p hmem)⟩

theorem showsMatched_of_roles {o : Options} {source : String} {program : Program}
    (h : program.Accepted o source) (hrules : program.rules = []) :
    (load (.ofProgram o.synthesize program)).ShowsMatched := by
  refine showsMatched_of_concernsRole fun p hp => ?_
  obtain ⟨_, role, _, _, resource, _, rfl⟩ := (h.mem_policies_of_roles hrules).mp hp
  obtain ⟨text, htext, hread⟩ :=
    Role.ofText_condition_policyOn role.toRole resource.toResource
  exact Or.inr ⟨text, _, htext, hread, rfl⟩

/-- A set with a policy that holds at any hour. -/
def hoursSet : PolicySet where
  roles := [⟨"staff", ["read"], [], 1⟩]
  users := [⟨"ann", some "staff", [], 2⟩]
  resources := [⟨"doc", none, [], 3⟩]
  policies := [⟨.allow, ["read"], "doc", some "(time.hour < 24)", some 4, false⟩]

def hoursPolicy : Policy := ⟨.allow, ["read"], "doc", some "(time.hour < 24)", some 4, false⟩

theorem mem_matched_hoursSet : hoursPolicy ∈
    ((load hoursSet).decide ⟨"ann", "read", "doc"⟩ {} ⟨2024, 1, 1, 0, 0, 0, 0, 0⟩).matched := by
  decide +kernel

/-- The policy lets ann read, and her permissions do not show it. -/
theorem not_showsMatched_hoursSet : ¬(load hoursSet).ShowsMatched := by
  intro h
  have hnone : ((load hoursSet).permissions? "ann").map Permissions.applicable = some [] := by
    decide +kernel
  obtain ⟨view, hview, happlicable⟩ := Option.map_eq_some_iff.mp hnone
  have hshown := h _ _ _ view hview hoursPolicy mem_matched_hoursSet
  rw [happlicable] at hshown
  cases hshown

theorem mem_applicable_iff_of_mem_matched_hours :
    hoursPolicy ∈
        ((load hoursSet).decide ⟨"ann", "read", "doc"⟩ {} ⟨2024, 1, 1, 0, 0, 0, 0, 0⟩).matched ∧
      ∃ view, (load hoursSet).permissions? "ann" = some view ∧
        (hoursPolicy ∈ view.applicable ↔ hoursPolicy.ConcernsRole) :=
  ⟨mem_matched_hoursSet, mem_applicable_iff_of_mem_matched mem_matched_hoursSet⟩

end Engine
end AccessPolicy
