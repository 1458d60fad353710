import AccessPolicy.Decision.Engine
import Mathlib.Tactic.Common

/-!
# How decisions come about

Which policies match a request, and what follows from them: a request is allowed
just if it has all its parties, some matching policy allows it and none denies it
(`Engine.effect_decide_eq_allow`).
-/

namespace AccessPolicy

/-! ## Policies -/

namespace Policy

def Covers (action : String) (resource : Resource) (p : Policy) : Prop :=
  ResourcePattern.matchesResource p.resource resource = true ∧
    coversAction p.actions action = true

/-- The condition of the policy holds: there is none, or it is read and
evaluates to true. -/
def Holds (env : Environment) (p : Policy) : Prop :=
  p.condition = none ∨
    ∃ text e, p.condition = some text ∧ Expr.ofText text = .ok e ∧ e.test env = .ok true

theorem guard_holds_iff {env : Environment} {p : Policy} :
    (Guard.ofCondition p.condition).holds env = true ↔ p.Holds env := by
  unfold Holds Guard.ofCondition
  cases p.condition with
  | none => simp [Guard.holds]
  | some text =>
      cases hread : Expr.ofText text with
      | error faults => simp [Guard.holds, hread]
      | ok e =>
          cases htest : e.test env with
          | error cause => simp [Guard.holds, Expr.holds, hread, htest]
          | ok b => simp [Guard.holds, Expr.holds, hread, htest]

theorem applies_iff {env : Environment} {action : String} {resource : Resource} {p : Policy} :
    (LoadedPolicy.ofPolicy p).applies env action resource = true ↔
      p.Covers action resource ∧ p.Holds env := by
  unfold LoadedPolicy.applies
  rw [Bool.and_eq_true, Bool.and_eq_true]
  exact and_congr Iff.rfl guard_holds_iff

end Policy

/-! ## Requests -/

namespace Engine

theorem effect_of_parties_error {e : Engine} {request : Request} {reason : Reason}
    (h : e.parties request = .error reason) : reason.effect = .deny := by
  unfold Engine.parties at h
  split at h
  · cases h
    rfl
  · split at h
    · cases h
      rfl
    · split at h
      · cases h
        rfl
      · split at h
        · cases h
          rfl
        · cases h

theorem matching_load (set : PolicySet) (env : Environment) (action : String)
    (resource : Resource) :
    (load set).matching env action resource =
      set.policies.filter fun p => (LoadedPolicy.ofPolicy p).applies env action resource := by
  have hread : LoadedPolicy.policy ∘ LoadedPolicy.ofPolicy = id := rfl
  unfold matching
  rw [(load set).policies_eq, List.filter_map, List.map_map, hread, List.map_id]
  rfl

/-- A policy that does not apply is as good as absent. -/
theorem matching_without {set : PolicySet} {before after : List Policy} {q : Policy}
    {env : Environment} {action : String} {resource : Resource}
    (hset : set.policies = before ++ q :: after)
    (hout : ¬(LoadedPolicy.ofPolicy q).applies env action resource = true) :
    (load set).matching env action resource =
      (load { set with policies := before ++ after }).matching env action resource := by
  rw [matching_load, matching_load, hset, List.filter_append, List.filter_append]
  exact congrArg _ (List.filter_cons_of_neg hout)

theorem mem_matching {e : Engine} {env : Environment} {action : String} {resource : Resource}
    {p : Policy} :
    p ∈ e.matching env action resource ↔
      p ∈ e.set.policies ∧ p.Covers action resource ∧ p.Holds env := by
  unfold matching
  rw [e.policies_eq, List.mem_map]
  constructor
  · rintro ⟨l, hl, rfl⟩
    obtain ⟨hmem, happlies⟩ := List.mem_filter.mp hl
    obtain ⟨p, hp, rfl⟩ := List.mem_map.mp hmem
    exact ⟨hp, Policy.applies_iff.mp happlies⟩
  · rintro ⟨hp, happlies⟩
    refine ⟨.ofPolicy p, List.mem_filter.mpr ⟨List.mem_map_of_mem hp, ?_⟩, rfl⟩
    exact Policy.applies_iff.mpr happlies

theorem any_effect {matched : List Policy} {effect : Effect} :
    (matched.any fun p => p.effect = effect) = true ↔ ∃ p ∈ matched, p.effect = effect := by
  simp only [List.any_eq_true, decide_eq_true_eq]

theorem effect_verdict_eq_allow {matched : List Policy} :
    (verdict matched).effect = .allow ↔
      (∃ p ∈ matched, p.effect = .allow) ∧ ¬∃ p ∈ matched, p.effect = .deny := by
  unfold verdict
  simp only [any_effect]
  split_ifs with hdeny hallow
  · simp [Reason.effect, hdeny]
  · simp [Reason.effect, hdeny, hallow]
  · simp [Reason.effect, hallow]

theorem exists_mem_matching {e : Engine} {env : Environment} {action : String}
    {resource : Resource} {effect : Effect} :
    (∃ p ∈ e.matching env action resource, p.effect = effect) ↔
      ∃ p ∈ e.set.policies, p.effect = effect ∧ p.Covers action resource ∧ p.Holds env := by
  constructor
  · rintro ⟨p, hp, heffect⟩
    obtain ⟨hmem, hmatches⟩ := mem_matching.mp hp
    exact ⟨p, hmem, heffect, hmatches⟩
  · rintro ⟨p, hmem, heffect, hmatches⟩
    exact ⟨p, mem_matching.mpr ⟨hmem, hmatches⟩, heffect⟩

abbrev Parties.environment (p : Parties) (context : CallerContext) (now : Moment) : Environment :=
  .ofRequest p.user p.role p.resource context now

section
variable {request : Request} {context : CallerContext} {now : Moment} {parties : Parties}

/-- **Denial overrides.** A request with all its parties is allowed just if a policy
that allows covers it and holds, and none that denies does. -/
theorem effect_decide_eq_allow {e : Engine} (h : e.parties request = .ok parties) :
    (e.decide request context now).effect = .allow ↔
      (∃ p ∈ e.set.policies, p.effect = .allow ∧
        p.Covers (Text.lower request.action) parties.resource ∧
        p.Holds (parties.environment context now)) ∧
      ¬∃ p ∈ e.set.policies, p.effect = .deny ∧
        p.Covers (Text.lower request.action) parties.resource ∧
        p.Holds (parties.environment context now) := by
  rw [← exists_mem_matching, ← exists_mem_matching, ← effect_verdict_eq_allow]
  unfold decide
  rw [h]
  rfl

/-- **A policy that does not match counts for nothing.** The decision is that of the engine
without the policy. -/
theorem decide_without {set : PolicySet} {before after : List Policy} {q : Policy}
    (hset : set.policies = before ++ q :: after)
    (hout : ∀ parties, (load set).parties request = .ok parties →
      ¬(q.Covers (Text.lower request.action) parties.resource ∧
        q.Holds (parties.environment context now))) :
    (load set).decide request context now =
      (load { set with policies := before ++ after }).decide request context now := by
  -- parties are looked up without the policies
  have hsame : (load { set with policies := before ++ after }).parties request =
      (load set).parties request := rfl
  unfold decide
  rw [hsame]
  cases hparties : (load set).parties request with
  | error reason => rfl
  | ok parties =>
      have hmatching := matching_without hset (mt Policy.applies_iff.mp (hout parties hparties))
      dsimp only
      rw [hmatching]

end
end Engine
end AccessPolicy
