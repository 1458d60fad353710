import AccessPolicy.Proofs.FailingConditions
import AccessPolicy.Proofs.RedundantRules

/-!
# Policies in any order

Which policies match a request is asked of each policy alone, and the verdict on those that
match only asks whether there is one of an effect. So the order of the policies shows in nothing
but the order of the list of those that match, and a further policy acts by its effect alone: one
that denies opens nothing, one that allows closes nothing, and one that does not cover the
request or fails is as good as absent (`Engine.decide_reordered_or_extended`).
-/

namespace AccessPolicy
namespace Engine

variable {set : PolicySet} {policies before after : List Policy} {q : Policy}
  {request : Request} {context : CallerContext} {now : Moment} {parties : Parties}

/-! ## What a policy is asked -/

/-- Does a policy match a request to the entities of a set? None matches a request without all
its parties. -/
def admits (set : PolicySet) (request : Request) (context : CallerContext) (now : Moment)
    (p : Policy) : Bool :=
  match (load set).parties request with
  | .error _ => false
  | .ok parties =>
    (LoadedPolicy.ofPolicy p).applies (parties.environment context now) (Text.lower request.action)
      parties.resource

theorem admits_iff (h : (load set).parties request = .ok parties) {p : Policy} :
    admits set request context now p = true ↔
      p.Applies (parties.environment context now) (Text.lower request.action) parties.resource := by
  unfold admits
  rw [h]
  exact Policy.applies_iff

theorem matched_decide :
    ((load set).decide request context now).matched =
      set.policies.filter (admits set request context now) := by
  unfold decide
  cases hparties : (load set).parties request with
  | error reason =>
      have hnone : admits set request context now = fun _ => false := by
        funext p
        unfold admits
        rw [hparties]
      rw [hnone, List.filter_false]
  | ok parties =>
      have hall : admits set request context now = fun p => (LoadedPolicy.ofPolicy p).applies
          (parties.environment context now) (Text.lower request.action) parties.resource := by
        funext p
        unfold admits
        rw [hparties]
      rw [hall]
      exact matching_load ..

/-! ## Reordered policies -/

theorem verdict_perm {matched matched' : List Policy} (h : matched'.Perm matched) :
    verdict matched' = verdict matched := by
  unfold verdict
  rw [h.any_eq, h.any_eq]

theorem decide_reordered (h : policies.Perm set.policies) :
    (load { set with policies := policies }).decide request context now =
      { (load set).decide request context now with
        matched := policies.filter (admits set request context now) } := by
  have hmatched : ((load { set with policies := policies }).decide request context now).matched =
      policies.filter (admits set request context now) := matched_decide
  -- the parties are looked up without the policies
  have hsame : (load { set with policies := policies }).parties request =
      (load set).parties request := rfl
  rw [← hmatched]
  unfold decide
  rw [hsame]
  cases hparties : (load set).parties request with
  | error reason => rfl
  | ok parties =>
      dsimp only
      rw [matching_load, matching_load, verdict_perm (h.filter _)]

/-! ## A further policy -/

/-- A request is allowed with a further policy just if this allows it or another does, and
neither this denies it nor another. -/
theorem allowed_with_iff (hset : set.policies = before ++ after)
    (hparties : (load set).parties request = .ok parties) :
    ((load { set with policies := before ++ q :: after }).decide request context now).allowed =
        true ↔
      (q.effect = .allow ∧ admits set request context now q = true ∨
        Policy.SomeApplies .allow set.policies (parties.environment context now)
          (Text.lower request.action) parties.resource) ∧
      ¬(q.effect = .deny ∧ admits set request context now q = true ∨
        Policy.SomeApplies .deny set.policies (parties.environment context now)
          (Text.lower request.action) parties.resource) := by
  have hparties' : (load { set with policies := before ++ q :: after }).parties request =
      .ok parties := hparties
  have hpolicies : (load { set with policies := before ++ q :: after }).set.policies =
      before ++ q :: after := rfl
  rw [allowed_iff hparties' context now, hpolicies, Policy.someApplies_split,
    Policy.someApplies_split, ← hset, admits_iff hparties]

theorem exists_parties_of_allowed {e : Engine}
    (h : (e.decide request context now).allowed = true) :
    ∃ parties, e.parties request = .ok parties :=
  exists_parties_of_allow (of_decide_eq_true h)

theorem allowed_of_allowed_with_deny (hset : set.policies = before ++ after)
    (heffect : q.effect = .deny)
    (h : ((load { set with policies := before ++ q :: after }).decide request context now).allowed =
      true) : ((load set).decide request context now).allowed = true := by
  obtain ⟨parties, hparties⟩ := exists_parties_of_allowed h
  have hparties' : (load set).parties request = .ok parties := hparties
  obtain ⟨hallow, hdeny⟩ := (allowed_with_iff hset hparties').mp h
  rw [allowed_iff hparties' context now]
  constructor
  · refine hallow.resolve_left ?_
    rintro ⟨hallows, _⟩
    cases heffect.symm.trans hallows
  · exact fun hsome => hdeny (Or.inr hsome)

theorem allowed_with_allow_of_allowed (hset : set.policies = before ++ after)
    (heffect : q.effect = .allow)
    (h : ((load set).decide request context now).allowed = true) :
    ((load { set with policies := before ++ q :: after }).decide request context now).allowed =
      true := by
  obtain ⟨parties, hparties⟩ := exists_parties_of_allowed h
  obtain ⟨hallow, hdeny⟩ := (allowed_iff hparties context now).mp h
  rw [allowed_with_iff hset hparties]
  refine ⟨Or.inr hallow, ?_⟩
  rintro (⟨hdenies, _⟩ | hsome)
  · cases heffect.symm.trans hdenies
  · exact hdeny hsome

theorem decide_with (hset : set.policies = before ++ after)
    (hout : ∀ parties, (load set).parties request = .ok parties →
      ¬q.Applies (parties.environment context now) (Text.lower request.action)
        parties.resource) :
    (load { set with policies := before ++ q :: after }).decide request context now =
      (load set).decide request context now := by
  obtain ⟨roles, users, resources, policies⟩ := set
  obtain rfl : policies = before ++ after := hset
  exact decide_without rfl hout

/-- **What policies have to do with each other.** In another order of the policies a request is
decided alike, and those that match are listed in that order. Wherever a policy is added, one
that denies opens nothing, one that allows closes nothing, and one that does not cover the
request, or whose condition is not read or not evaluated, changes nothing. -/
theorem decide_reordered_or_extended (set : PolicySet) (request : Request)
    (context : CallerContext) (now : Moment) :
    (∀ policies, policies.Perm set.policies →
      let given := (load set).decide request context now
      let reordered := (load { set with policies := policies }).decide request context now
      reordered.allowed = given.allowed ∧ reordered.effect = given.effect ∧
        reordered.reason = given.reason ∧ reordered.matched.Perm given.matched ∧
        ∃ matching : Policy → Bool, given.matched = set.policies.filter matching ∧
          reordered.matched = policies.filter matching) ∧
    ∀ before after q, set.policies = before ++ after →
      let given := (load set).decide request context now
      let extended := (load { set with policies := before ++ q :: after }).decide request context now
      (q.effect = .deny → given.allowed = false → extended.allowed = false) ∧
      (q.effect = .allow → given.allowed = true → extended.allowed = true) ∧
      ((∀ parties, (load set).parties request = .ok parties →
          ¬q.Covers (Text.lower request.action) parties.resource ∨
            q.Fails (parties.environment context now)) →
        extended = given) := by
  constructor
  · intro policies hperm given reordered
    have hreordered : reordered = { given with
      matched := policies.filter (admits set request context now) } := decide_reordered hperm
    have hgiven : given.matched = set.policies.filter (admits set request context now) :=
      matched_decide
    rw [hreordered, hgiven]
    exact ⟨rfl, rfl, rfl, hperm.filter _, _, rfl, rfl⟩
  · intro before after q hset given extended
    refine ⟨fun hdeny hfalse => ?_, fun hallow htrue => ?_, fun hidle => ?_⟩
    · rw [Bool.eq_false_iff] at hfalse ⊢
      exact mt (allowed_of_allowed_with_deny hset hdeny) hfalse
    · exact allowed_with_allow_of_allowed hset hallow htrue
    · refine decide_with hset ?_
      rintro parties hparties ⟨hcovers, hholds⟩
      rcases hidle parties hparties with huncovered | hfails
      · exact huncovered hcovers
      · exact Policy.not_holds_of_fails hfails hholds

/-- Ann, who has no clearance, may read the document whatever the order of the policies, and
also where everyone who is not cleared is denied to write it. -/
theorem decide_reordered_or_extended_clearance :
    clearanceSet.policies.reverse.Perm clearanceSet.policies ∧
      (∀ now, ((load { clearanceSet with policies := clearanceSet.policies.reverse }).decide
          ⟨"ann", "read", "doc"⟩ {} now).reason =
        ((load clearanceSet).decide ⟨"ann", "read", "doc"⟩ {} now).reason) ∧
      ∀ now, (load { clearanceSet with policies :=
          ⟨.deny, ["write"], "doc", none, none, false⟩ :: clearanceSet.policies }).decide
          ⟨"ann", "read", "doc"⟩ {} now =
        (load clearanceSet).decide ⟨"ann", "read", "doc"⟩ {} now := by
  have hperm : clearanceSet.policies.reverse.Perm clearanceSet.policies := List.reverse_perm _
  refine ⟨hperm, fun now => ?_, fun now => ?_⟩
  · obtain ⟨hreordered, _⟩ := decide_reordered_or_extended clearanceSet ⟨"ann", "read", "doc"⟩ {} now
    exact (hreordered _ hperm).2.2.1
  · obtain ⟨_, hextended⟩ := decide_reordered_or_extended clearanceSet ⟨"ann", "read", "doc"⟩ {} now
    refine (hextended [] clearanceSet.policies _ rfl).2.2 fun parties _ => Or.inl ?_
    rintro ⟨_, haction⟩
    have hother : coversAction ["write"] (Text.lower "read") = false := by decide +kernel
    cases hother.symm.trans haction

end Engine
end AccessPolicy
