import AccessPolicy.Proofs.ConflictCoverage
import AccessPolicy.Proofs.PermissionView

/-!
# Guards on the role

A condition that compares `user.role` with a text in its outermost conjunction lets through the
users with this role only (`Engine.role_eq_of_matched`). Neither the properties of the user nor
the context of the caller can put another role there, and no other operand of the conjunction can
make up for the comparison.
-/

namespace AccessPolicy

/-! ## Comparisons with the role -/

namespace Expr

/-- The expression compares `user.role` with a text by `==`, on either side. -/
inductive ComparesRole (role : String) : Expr → Prop
  | attributeFirst (m n k : Nat) : ComparesRole role
      (.binary .equal (.attribute "user" "role" m) (.literal (.string role) n) k)
  | textFirst (m n k : Nat) : ComparesRole role
      (.binary .equal (.literal (.string role) n) (.attribute "user" "role" m) k)

/-- One operand of the outermost conjunction compares `user.role` with the text. -/
def GuardsRole (role : String) (e : Expr) : Prop := ∃ c : Expr, c.IsConjunct e ∧ c.ComparesRole role

theorem eval_comparesRole {env : Environment} {role assigned : String} {c : Expr}
    (hc : c.ComparesRole role) (henv : env.get? "user" "role" = some (.text assigned)) :
    c.eval env = .ok (.bool (assigned = role)) := by
  cases hc with
  | attributeFirst m n k =>
      rw [eval_equal_eq_bool]
      exact ⟨_, _, eval_attribute_eq_ok.mpr henv, rfl, rfl⟩
  | textFirst m n k =>
      rw [eval_equal_eq_bool]
      refine ⟨_, _, rfl, eval_attribute_eq_ok.mpr henv, ?_⟩
      rw [Value.equal_comm]
      rfl

theorem role_eq_of_guardsRole {env : Environment} {role assigned : String} {e : Expr}
    (hguard : e.GuardsRole role) (henv : env.get? "user" "role" = some (.text assigned))
    (h : e.test env = .ok true) : assigned = role := by
  obtain ⟨c, hc, hcompares⟩ := hguard
  have htrue : c.eval env = .ok (.bool true) := hc.eval (test_eq_ok.mp h)
  have hvalue := eval_comparesRole hcompares henv
  rw [htrue] at hvalue
  injection hvalue with hvalue
  injection hvalue with hvalue
  exact of_decide_eq_true hvalue.symm

end Expr

/-! ## Users in a role -/

namespace Engine
variable {e : Engine} {request : Request} {parties : Parties}

/-- The role of a request is the one that its user declares. -/
theorem role_of_parties (h : e.parties request = .ok parties) :
    e.user? request.user = some parties.user ∧ parties.user.role = some parties.role := by
  unfold Engine.parties at h
  split at h
  · cases h
  · next user huser =>
    split at h
    · cases h
    · split at h
      · cases h
      · next role hassigned =>
        split at h
        · cases h
        · cases h
          -- an empty role is not assigned, any other is as it is declared
          obtain ⟨hdeclared, _⟩ := Option.filter_eq_some_iff.mp hassigned
          exact ⟨huser, hdeclared⟩

/-- **A guard on the role cannot be passed by.** If the condition of a policy that matched a
request compares `user.role` with a text in its outermost conjunction, the user of the request
declares this role, whatever the properties of the user and the context of the caller. -/
theorem role_eq_of_matched {e : Engine} {request : Request} {context : CallerContext}
    {now : Moment} {p : Policy} {text role : String} {condition : Expr}
    (hmatched : p ∈ (e.decide request context now).matched)
    (htext : p.condition = some text) (hread : Expr.ofText text = .ok condition)
    (hguard : condition.GuardsRole role) :
    ∃ user, e.user? request.user = some user ∧ user.role = some role := by
  obtain ⟨parties, hparties, _, hholds⟩ := exists_parties_of_mem_matched hmatched
  obtain ⟨huser, hdeclared⟩ := role_of_parties hparties
  rcases hholds with hnone | ⟨text', condition', htext', hread', htrue⟩
  · cases htext.symm.trans hnone
  · cases htext.symm.trans htext'
    cases hread.symm.trans hread'
    have hrole : parties.role = role :=
      Expr.role_eq_of_guardsRole hguard (Environment.get?_role_ofRequest ..) htrue
    exact ⟨parties.user, huser, hrole ▸ hdeclared⟩

def staffPolicy : Policy :=
  ⟨.allow, ["read"], "doc", some "((time.hour < 24) AND (user.role == \"staff\"))", some 6, false⟩

def staffCondition : Expr :=
  .binary .and (.binary .less (.attribute "time" "hour" 1) (.literal (.int 24) 1) 1)
    (.binary .equal (.attribute "user" "role" 1) (.literal (.string "staff") 1) 1) 1

/-- A user in the role `staff` whose properties name another user and another role, for which
there is a policy as well. -/
def pretenderSet : PolicySet where
  roles := [⟨"admin", [], [], 1⟩, ⟨"staff", [], [], 2⟩]
  users := [⟨"eve", some "staff", [("name", [.string "root"]), ("role", [.string "admin"])], 3⟩]
  resources := [⟨"doc", none, [("role", [.string "admin"])], 4⟩]
  policies := [
    ⟨.allow, ["*"], "doc", some "(\"admin\" == user.role)", some 5, false⟩,
    staffPolicy]

/-- Only the policy for the role that eve declares matches her request. -/
theorem role_eq_of_matched_pretender :
    ((load pretenderSet).decide ⟨"eve", "read", "doc"⟩ {} ⟨2024, 1, 1, 0, 0, 0, 0, 0⟩).matched =
        [staffPolicy] ∧
      ∃ user, (load pretenderSet).user? "eve" = some user ∧ user.role = some "staff" := by
  have hmatched :
      ((load pretenderSet).decide ⟨"eve", "read", "doc"⟩ {} ⟨2024, 1, 1, 0, 0, 0, 0, 0⟩).matched =
        [staffPolicy] := by
    decide +kernel
  have hread : Expr.ofText "((time.hour < 24) AND (user.role == \"staff\"))" =
      .ok staffCondition := eq_ok_of_toOption (by decide +kernel)
  have hguard : staffCondition.GuardsRole "staff" :=
    ⟨_, .right (.whole nofun), .attributeFirst 1 1 1⟩
  have hmem : staffPolicy ∈ [staffPolicy] := List.mem_singleton_self _
  refine ⟨hmatched, ?_⟩
  rw [← hmatched] at hmem
  exact role_eq_of_matched hmem rfl hread hguard

end Engine
end AccessPolicy
