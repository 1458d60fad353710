import AccessPolicy.Proofs.Decisions
import AccessPolicy.Proofs.Results

/-!
# Conditions that cannot be evaluated

A condition that cannot be read or has no truth value does not hold, whatever the
effect of its policy. For a policy that allows this is on the safe side; a policy
that denies is passed over, and the request is decided as if it were not there
(`decide_of_failing`). Such a request is allowed just if another policy allows it
and no other denies it.
-/

namespace AccessPolicy

namespace Policy

inductive Fails (env : Environment) (p : Policy) : Prop
  | unreadable {text : String} {faults : List Diagnostic} :
      p.condition = some text → Expr.ofText text = .error faults → Fails env p
  | undefined {text : String} {e : Expr} {cause : EvalError} :
      p.condition = some text → Expr.ofText text = .ok e → e.test env = .error cause →
      Fails env p

theorem not_holds_of_fails {env : Environment} {p : Policy} (h : p.Fails env) :
    ¬p.Holds env := by
  rintro (hnone | ⟨text, e, htext, hread, htrue⟩)
  · cases h with
    | unreadable htext _ => cases hnone.symm.trans htext
    | undefined htext _ _ => cases hnone.symm.trans htext
  · cases h with
    | unreadable htext' herror =>
        cases htext.symm.trans htext'
        cases hread.symm.trans herror
    | undefined htext' hread' herror =>
        cases htext.symm.trans htext'
        cases hread.symm.trans hread'
        cases htrue.symm.trans herror

end Policy

namespace Engine

section
variable {request : Request} {context : CallerContext} {now : Moment} {parties : Parties}

/-- **A policy that fails counts for nothing.** Where the condition of a policy
cannot be evaluated, the decision is that of the engine without the policy. -/
theorem decide_of_failing {set : PolicySet} {before after : List Policy} {d : Policy}
    (hset : set.policies = before ++ d :: after)
    (hparties : (load set).parties request = .ok parties)
    (hfails : d.Fails (parties.environment context now)) :
    (load set).decide request context now =
      (load { set with policies := before ++ after }).decide request context now := by
  refine decide_without hset fun parties' hparties' => ?_
  cases hparties.symm.trans hparties'
  exact fun h => Policy.not_holds_of_fails hfails h.2

/-- A policy that denies covers the request, and its condition cannot be evaluated. -/
structure FailingDeny (e : Engine) (request : Request) (parties : Parties) (env : Environment)
    (d : Policy) : Prop where
  mem : d ∈ e.set.policies
  effect : d.effect = .deny
  covers : d.Covers (Text.lower request.action) parties.resource
  fails : d.Fails env

/-- No request is allowed that a policy with a failing condition denies. -/
def FailsClosed (e : Engine) : Prop :=
  ∀ request context now parties d, e.parties request = .ok parties →
    e.FailingDeny request parties (parties.environment context now) d →
    (e.decide request context now).effect ≠ .allow

/-- **When a failing denial is safe.** With a policy that denies but fails, a request
is kept from being allowed just if another policy denies it or none allows it. -/
theorem effect_ne_allow_of_failing_deny {e : Engine} {d : Policy}
    (hparties : e.parties request = .ok parties)
    (hd : e.FailingDeny request parties (parties.environment context now) d) :
    (e.decide request context now).effect ≠ .allow ↔
      (∃ p ∈ e.set.policies, p ≠ d ∧ p.effect = .deny ∧
        p.Covers (Text.lower request.action) parties.resource ∧
        p.Holds (parties.environment context now)) ∨
      ¬∃ p ∈ e.set.policies, p.effect = .allow ∧
        p.Covers (Text.lower request.action) parties.resource ∧
        p.Holds (parties.environment context now) := by
  rw [Ne, effect_decide_eq_allow hparties, not_and_or, not_not, or_comm]
  -- the failing policy is not the one that denies
  refine or_congr ?_ Iff.rfl
  constructor
  · rintro ⟨p, hmem, heffect, hcovers, hholds⟩
    refine ⟨p, hmem, ?_, heffect, hcovers, hholds⟩
    rintro rfl
    exact Policy.not_holds_of_fails hd.fails hholds
  · rintro ⟨p, hmem, _, hrest⟩
    exact ⟨p, hmem, hrest⟩

end

/-! ## A denial that is passed over -/

/-- Everyone may read a document, but not below a clearance of 3; the one user has
no clearance. -/
def clearanceSet : PolicySet where
  roles := [⟨"staff", ["read"], [], 1⟩]
  users := [⟨"ann", some "staff", [], 2⟩]
  resources := [⟨"doc", none, [], 3⟩]
  policies := [
    ⟨.allow, ["read"], "doc", none, some 4, false⟩,
    ⟨.deny, ["read"], "doc", some "(user.clearance < 3)", some 5, false⟩]

def clearanceDenial : Policy := ⟨.deny, ["read"], "doc", some "(user.clearance < 3)", some 5, false⟩

def clearanceParties : Parties :=
  ⟨⟨"ann", some "staff", [], 2⟩, "staff", ⟨"doc", none, [], 3⟩⟩

theorem failingDeny_clearanceDenial :
    (load clearanceSet).FailingDeny ⟨"ann", "read", "doc"⟩ clearanceParties
      (clearanceParties.environment {} ⟨2024, 1, 1, 0, 0, 0, 0, 0⟩) clearanceDenial := by
  have hread : Expr.ofText "(user.clearance < 3)" = .ok (.binary .less
      (.attribute "user" "clearance" 1) (.literal (.int 3) 1) 1) :=
    eq_ok_of_toOption (by decide +kernel)
  have hcause : Expr.test (clearanceParties.environment {} ⟨2024, 1, 1, 0, 0, 0, 0, 0⟩)
      (.binary .less (.attribute "user" "clearance" 1) (.literal (.int 3) 1) 1) =
        .error (.incomparable .null .number) := by rfl
  refine ⟨?_, rfl, ⟨by decide +kernel, by decide +kernel⟩, .undefined rfl hread hcause⟩
  exact List.mem_cons_of_mem _ (List.mem_singleton_self _)

/-- The denial is passed over: ann, who has no clearance, may read the document. -/
theorem not_failsClosed_clearanceSet : ¬(load clearanceSet).FailsClosed := by
  intro h
  refine h ⟨"ann", "read", "doc"⟩ {} ⟨2024, 1, 1, 0, 0, 0, 0, 0⟩ clearanceParties clearanceDenial
    rfl failingDeny_clearanceDenial ?_
  decide +kernel

theorem effect_ne_allow_of_failing_deny_clearance :
    (load clearanceSet).parties ⟨"ann", "read", "doc"⟩ = .ok clearanceParties ∧
      (((load clearanceSet).decide ⟨"ann", "read", "doc"⟩ {} ⟨2024, 1, 1, 0, 0, 0, 0, 0⟩).effect ≠
          .allow ↔
        (∃ p ∈ clearanceSet.policies, p ≠ clearanceDenial ∧ p.effect = .deny ∧
          p.Covers (Text.lower "read") clearanceParties.resource ∧
          p.Holds (clearanceParties.environment {} ⟨2024, 1, 1, 0, 0, 0, 0, 0⟩)) ∨
        ¬∃ p ∈ clearanceSet.policies, p.effect = .allow ∧
          p.Covers (Text.lower "read") clearanceParties.resource ∧
          p.Holds (clearanceParties.environment {} ⟨2024, 1, 1, 0, 0, 0, 0, 0⟩)) :=
  ⟨rfl, effect_ne_allow_of_failing_deny rfl failingDeny_clearanceDenial⟩

end Engine
end AccessPolicy
