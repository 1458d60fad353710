import AccessPolicy.Proofs.Evaluation
import AccessPolicy.Proofs.RoleGrants

/-!
# What keeps guests from deleting

The analysis looks for a guest's name where it lets a condition hold, and lets a
condition pass that reads `user.role` without one. This finds every rule by which a
guest can delete whose condition pins the role: it holds only where `user.role` was
compared with the name of a role and found equal to it. A condition that reads the
role and does not pin it escapes, such as one that only excludes another role
(`not_guestsNeverDelete_notEqual`). A guest can delete by the rules that escape
and by no others (`Engine.effect_decide_delete_eq_allow_of_guest`).
-/

namespace AccessPolicy

/-! ## Conditions that pin the role -/

namespace Expr

/-- Does the expression have the truth value only where `user.role` was compared with the
name of a role and found equal to it? -/
def pinsRole (positive : Bool) : Expr → Bool
  | .binary .and left right _ =>
    if positive then pinsRole true left || pinsRole true right
    else pinsRole false left && pinsRole false right
  | .binary .or left right _ =>
    if positive then pinsRole true left && pinsRole true right
    else pinsRole false left || pinsRole false right
  | .binary .equal left right line =>
    positive && (binary .equal left right line).comparedRole.isSome
  | .binary .notEqual left right line =>
    !positive && (binary .notEqual left right line).comparedRole.isSome
  | .not operand _ => pinsRole (!positive) operand
  | _ => false

section
variable {env : Environment} {role : String} {positive : Bool}

theorem eval_isUserRole {e : Expr} {v : Value} (h : e.isUserRole = true)
    (hv : e.eval env = .ok v) : env.get? "user" "role" = some v := by
  cases e with
  | «attribute» object field line =>
      have hnames : object = "user" ∧ field = "role" := by simpa [isUserRole] using h
      obtain ⟨rfl, rfl⟩ := hnames
      exact eval_attribute_eq_ok.mp hv
  | _ => cases h

theorem comparedRole_eq_some {op : BinaryOp} {left right : Expr} {line : Nat}
    {x : String × Nat} (h : (binary op left right line).comparedRole = some x) :
    (left.isUserRole = true ∧ ∃ n, right = .literal (.string x.1) n) ∨
      (right.isUserRole = true ∧ ∃ n, left = .literal (.string x.1) n) := by
  unfold comparedRole at h
  dsimp only at h
  split_ifs at h with hop hleft hright
  · split at h
    · next heq =>
      cases h
      exact Or.inl ⟨hleft, _, Option.some.inj heq⟩
    · cases h
  · split at h
    · next heq =>
      cases h
      exact Or.inr ⟨hright, _, Option.some.inj heq⟩
    · cases h

theorem admitsGuest_literal {name : String} {n : Nat} (h : isGuestName name = true) :
    (literal (.string name) n).admitsGuest true = true := by
  rw [admitsGuest, h, Bool.and_self]

theorem admitsGuest_of_comparedRole {op : BinaryOp} {left right : Expr} {line : Nat}
    {v w : Value} (hrole : env.get? "user" "role" = some (.text role))
    (hguest : isGuestName role = true)
    (hcompared : (binary op left right line).comparedRole.isSome = true)
    (hleft : left.eval env = .ok v) (hright : right.eval env = .ok w)
    (hequal : v.equal w = true) :
    (left.admitsGuest true || right.admitsGuest true) = true := by
  obtain ⟨x, hx⟩ := Option.isSome_iff_exists.mp hcompared
  rw [Bool.or_eq_true]
  rcases comparedRole_eq_some hx with ⟨huser, n, rfl⟩ | ⟨huser, n, rfl⟩
  · have hv := eval_isUserRole huser hleft
    rw [hrole] at hv
    cases hv
    cases hright
    have hname : role = x.1 := of_decide_eq_true hequal
    subst hname
    exact Or.inr (admitsGuest_literal hguest)
  · have hw := eval_isUserRole huser hright
    rw [hrole] at hw
    cases hw
    cases hleft
    have hname : x.1 = role := of_decide_eq_true hequal
    subst hname
    exact Or.inl (admitsGuest_literal hguest)

/-- **Pinned roles are found.** Where a condition pins the role and has the truth value for a
guest, a guest's name stands where it lets it have that. -/
theorem admitsGuest_of_pinsRole {e : Expr} (hrole : env.get? "user" "role" = some (.text role))
    (hguest : isGuestName role = true) (hpins : e.pinsRole positive = true)
    (heval : e.eval env = .ok (.bool positive)) : e.admitsGuest positive = true := by
  induction e generalizing positive with
  | binary op left right line ihLeft ihRight =>
      cases op with
      | and =>
          show (left.admitsGuest positive || right.admitsGuest positive) = true
          rw [Bool.or_eq_true]
          rcases eval_and_eq_bool.mp heval with ⟨hleft, rfl⟩ | ⟨hleft, hright⟩
          · exact Or.inl (ihLeft (Bool.and_eq_true_iff.mp hpins).1 hleft)
          · cases positive with
            | true => exact (Bool.or_eq_true_iff.mp hpins).imp (ihLeft · hleft) (ihRight · hright)
            | false => exact Or.inr (ihRight (Bool.and_eq_true_iff.mp hpins).2 hright)
      | or =>
          show (left.admitsGuest positive || right.admitsGuest positive) = true
          rw [Bool.or_eq_true]
          rcases eval_or_eq_bool.mp heval with ⟨hleft, rfl⟩ | ⟨hleft, hright⟩
          · exact Or.inl (ihLeft (Bool.and_eq_true_iff.mp hpins).1 hleft)
          · cases positive with
            | true => exact Or.inr (ihRight (Bool.and_eq_true_iff.mp hpins).2 hright)
            | false => exact (Bool.or_eq_true_iff.mp hpins).imp (ihLeft · hleft) (ihRight · hright)
      | equal =>
          obtain ⟨hpositive, hcompared⟩ := Bool.and_eq_true_iff.mp hpins
          subst hpositive
          obtain ⟨v, w, hleft, hright, hequal⟩ := eval_equal_eq_bool.mp heval
          exact admitsGuest_of_comparedRole hrole hguest hcompared hleft hright hequal
      | notEqual =>
          -- the comparison is false, so its sides are equal
          obtain ⟨hnegative, hcompared⟩ := Bool.and_eq_true_iff.mp hpins
          rw [Bool.not_eq_true'] at hnegative
          subst hnegative
          obtain ⟨v, w, hleft, hright, hequal⟩ := eval_notEqual_eq_bool.mp heval
          exact admitsGuest_of_comparedRole hrole hguest hcompared hleft hright hequal
      | _ => cases hpins
  | not operand line ih => exact ih hpins (eval_not_eq_bool.mp heval)
  | «attribute» object field line => cases hpins
  | literal value line => cases hpins

end
end Expr

/-! ## Rules that escape the analysis -/

/-- A rule that lets requests delete, with a condition that reads the role of the user but
does not pin it. -/
structure Rule.EscapesGate (r : Rule) : Prop where
  effect : r.effect = .allow
  action : coversAction r.actions "delete" = true
  condition : ∃ e, r.condition = some e ∧ e.readsUserRole = true ∧ e.pinsRole true = false

/-- A rule by which a guest can delete is found, or it escapes. -/
theorem Rule.escapesGate_of_listed {r : Rule} {env : Environment} {role : String}
    {resource : Resource} (heffect : r.effect = .allow)
    (hgrants : r.grantsGuestDelete true = false)
    (hrole : env.get? "user" "role" = some (.text role)) (hguest : isGuestName role = true)
    (hlisted : r.Listed env "delete" resource) : r.EscapesGate := by
  have hdelete : coversAction r.actions "delete" = true := coversAction_iff.mpr hlisted.action
  refine ⟨heffect, hdelete, ?_⟩
  unfold grantsGuestDelete at hgrants
  rw [hdelete, Bool.true_and] at hgrants
  cases hcondition : r.condition with
  | none =>
      rw [hcondition] at hgrants
      cases hgrants
  | some e =>
      rw [hcondition] at hgrants
      obtain ⟨hadmits, hreads⟩ := Bool.or_eq_false_iff.mp hgrants
      refine ⟨e, rfl, by simpa using hreads, ?_⟩
      by_contra hpins
      rw [Bool.not_eq_false] at hpins
      have hfound := Expr.admitsGuest_of_pinsRole hrole hguest hpins
        (hlisted.condition e hcondition)
      rw [hadmits] at hfound
      cases hfound

namespace Program.Accepted
variable {o : Options} {source : String} {p : Program} {role : Definition}

theorem eq_of_partyTo (h : p.Accepted o source) {request : Request}
    {user user' resource : Definition} (hparty : p.PartyTo request user' role resource)
    (huser : user ∈ p.users) (hname : user.name = request.user) : user' = user :=
  List.inj_on_of_nodup_map (h.nodup_names .user) hparty.user_mem huser
    (hparty.user_name.trans hname.symm)

theorem harmless_of_mem_checkRisks (h : p.Accepted o source) {m : Remark}
    (hm : m ∈ checkRisks o (.ofProgram p)) : m.severity o ≠ .error :=
  h.harmless m (List.mem_append_right _ hm)

theorem not_grantsGuestDelete (h : p.Accepted o source) (hrole : role ∈ p.roles)
    (hguest : isGuestName role.name = true) {r : Rule} (hr : r ∈ p.rules)
    (heffect : r.effect = .allow) : r.grantsGuestDelete true = false := by
  rw [← Bool.not_eq_true]
  intro hgrants
  have hdefined : ((Declarations.ofProgram p).roles.any fun d => isGuestName d.name) = true := by
    refine List.any_eq_true.mpr ⟨role, ?_, hguest⟩
    rwa [show (Declarations.ofProgram p).roles = p.roles from h.declared_ofProgram .role]
  have hrisk : ⟨r.line, .guestDelete⟩ ∈ ruleRisks true r := by
    refine List.mem_append_left _ (List.mem_append_right _ ?_)
    rw [if_pos ⟨heffect, hgrants⟩]
    exact List.mem_singleton_self _
  refine h.harmless_of_mem_checkRisks (m := ⟨r.line, .guestDelete⟩) ?_ rfl
  unfold checkRisks
  rw [hdefined, (Declarations.records_ofProgram p).rules]
  exact List.mem_append_left _ (List.mem_append_right _ (List.mem_flatMap.mpr ⟨r, hr, hrisk⟩))

theorem not_coversAction_delete (h : p.Accepted o source) (hrules : p.rules = [])
    (hsynthesize : o.synthesize = true) (hresources : p.resources ≠ []) (hrole : role ∈ p.roles)
    (hguest : isGuestName role.name = true) :
    coversAction (role.texts "can") "delete" = false := by
  rw [← Bool.not_eq_true]
  intro hcovers
  refine h.harmless_of_mem_checkRisks (m := ⟨role.line, .guestRoleDelete role.name⟩) ?_ rfl
  refine List.mem_append_right _ ?_
  unfold roleRisks
  rw [(Declarations.records_ofProgram p).rules,
    show (Declarations.ofProgram p).roles = p.roles from h.declared_ofProgram .role,
    show (Declarations.ofProgram p).resources = p.resources from h.declared_ofProgram .resource,
    if_pos ⟨hrules, hsynthesize, hresources⟩]
  have hfound : (isGuestName role.name && coversAction (role.texts "can") "delete") = true := by
    rw [hguest, hcovers, Bool.and_self]
  exact List.mem_map.mpr ⟨role, List.mem_filter.mpr ⟨hrole, hfound⟩, rfl⟩

end Program.Accepted

/-- **Guests delete by the rules that escape.** A compiled text allows a user with the role of
a guest to delete just if a rule that escapes the analysis is listed for the request and none
that denies. -/
theorem Engine.effect_decide_delete_eq_allow_of_guest {o : Options} {source : String}
    {p : Program} {ir : PolicySet} (hcompile : (compile o source).policySet = some ir)
    (hprogram : Program.ofTokens o.maxErrors (TokenStream.scan source).1 = .ok p)
    {request : Request} {user : Definition} {guest : String} (huser : user ∈ p.users)
    (hname : user.name = request.user) (hassigned : user.firstText "role" = some guest)
    (hguest : isGuestName guest = true) (hdelete : Text.lower request.action = "delete")
    (context : CallerContext) (now : Moment) :
    ((Engine.load ir).decide request context now).effect = .allow ↔
      ∃ role resource, p.PartyTo request user role resource ∧
        (∃ r ∈ p.rules, r.EscapesGate ∧
          r.Listed (.ofRequest user.toUser role.name resource.toResource context now) "delete"
            resource.toResource) ∧
        ¬∃ r ∈ p.rules, r.effect = .deny ∧
          r.Listed (.ofRequest user.toUser role.name resource.toResource context now) "delete"
            resource.toResource := by
  obtain ⟨h, rfl⟩ := accepted_of_compile hcompile hprogram
  constructor
  · intro hallow
    by_cases hrules : p.rules = []
    · obtain ⟨hsynthesize, user', role, resource, hparty, hcovers⟩ :=
        h.exists_party_of_allow hrules hallow
      obtain rfl := h.eq_of_partyTo hparty huser hname
      cases hparty.user_role.symm.trans hassigned
      have hnone := h.not_coversAction_delete hrules hsynthesize
        (List.ne_nil_of_mem hparty.resource_mem) hparty.role_mem hguest
      rw [hdelete, hnone] at hcovers
      cases hcovers
    · obtain ⟨parties, hparties⟩ := exists_parties_of_allow hallow
      obtain ⟨user', role, resource, hparty, _⟩ := h.exists_of_parties_eq_ok hparties
      obtain rfl := h.eq_of_partyTo hparty huser hname
      cases hparty.user_role.symm.trans hassigned
      rw [h.effect_decide_eq_allow hrules hparty, hdelete] at hallow
      obtain ⟨⟨r, hr, heffect, hlisted⟩, hdenied⟩ := hallow
      refine ⟨role, resource, hparty, ⟨r, hr, ?_, hlisted⟩, hdenied⟩
      exact Rule.escapesGate_of_listed heffect
        (h.not_grantsGuestDelete hparty.role_mem hguest hr heffect)
        (Environment.get?_role_ofRequest _ _ _ context now) hguest hlisted
  · rintro ⟨role, resource, hparty, ⟨r, hr, hescapes, hlisted⟩, hdenied⟩
    have hrules : p.rules ≠ [] := List.ne_nil_of_mem hr
    rw [h.effect_decide_eq_allow hrules hparty, hdelete]
    exact ⟨⟨r, hr, hescapes.effect, hlisted⟩, hdenied⟩

/-! ## A rule that compares the role with another -/

/-- A text with a guest, and a rule about deletion that compares the role with the admin's. -/
def adminSource (op : BinaryOp) : String :=
  "ROLE Admin \x7b\x7d ROLE Guest \x7b\x7d USER v \x7brole: Guest\x7d RESOURCE d \x7b\x7d " ++
    "ALLOW action: delete ON RESOURCE: d IF (user.role " ++ op.text ++ " \"Admin\")"

def adminRule (op : BinaryOp) : Rule :=
  ⟨.allow, ["delete"], "d",
    some (.binary op (.attribute "user" "role" 1) (.literal (.string "Admin") 1) 1), 1⟩

def adminProgram (op : BinaryOp) : Program := ⟨[
  .definition .role ⟨"Admin", [], 1⟩,
  .definition .role ⟨"Guest", [], 1⟩,
  .definition .user ⟨"v", [("role", [.string "Guest"])], 1⟩,
  .definition .resource ⟨"d", [], 1⟩,
  .rule (adminRule op)]⟩

def GuestsNeverDelete (source : String) : Prop :=
  ∀ ir p, (compile {} source).policySet = some ir →
    Program.ofTokens 10 (TokenStream.scan source).1 = .ok p →
    ∀ user ∈ p.users, ∀ role, user.firstText "role" = some role → isGuestName role = true →
    ∀ action resource context now, Text.lower action = "delete" →
      ((Engine.load ir).decide ⟨user.name, action, resource⟩ context now).effect ≠ .allow

/-- Where the rule only keeps admins out, the guest deletes. -/
theorem not_guestsNeverDelete_notEqual : ¬GuestsNeverDelete (adminSource .notEqual) := by
  obtain ⟨hread, hscan⟩ :
      (Program.ofTokens 10 (TokenStream.scan (adminSource .notEqual)).1).toOption =
        some (adminProgram .notEqual) ∧ (TokenStream.scan (adminSource .notEqual)).2 = [] := by
    decide +kernel
  have hprogram := eq_ok_of_toOption hread
  have hcompile := policySet_compile hscan hprogram (o := {}) (by decide +kernel)
  intro h
  refine h _ _ hcompile hprogram ⟨"v", [("role", [.string "Guest"])], 1⟩ (by decide +kernel) "Guest"
    rfl (by decide +kernel) "delete" "d" {} ⟨2024, 1, 1, 0, 0, 0, 0, 0⟩ (by decide +kernel) ?_
  decide +kernel

/-- Where the rule only lets admins in, the guest never deletes. -/
theorem Engine.effect_decide_delete_ne_allow_equal :
    (compile {} (adminSource .equal)).policySet = some (.ofProgram true (adminProgram .equal)) ∧
      ∀ context now,
        ((Engine.load (.ofProgram true (adminProgram .equal))).decide ⟨"v", "DELETE", "d"⟩
          context now).effect ≠ .allow := by
  obtain ⟨hread, hscan⟩ :
      (Program.ofTokens 10 (TokenStream.scan (adminSource .equal)).1).toOption =
        some (adminProgram .equal) ∧ (TokenStream.scan (adminSource .equal)).2 = [] := by
    decide +kernel
  have hprogram := eq_ok_of_toOption hread
  have hcompile := policySet_compile hscan hprogram (o := {}) (by decide +kernel)
  refine ⟨hcompile, fun context now hallow => ?_⟩
  have huser : ⟨"v", [("role", [.string "Guest"])], 1⟩ ∈ (adminProgram .equal).users := by
    decide +kernel
  have hguest : isGuestName "Guest" = true := by decide +kernel
  have hdelete : Text.lower "DELETE" = "delete" := by decide +kernel
  obtain ⟨_, _, _, ⟨r, hr, hescapes, _⟩, _⟩ := (effect_decide_delete_eq_allow_of_guest hcompile
    hprogram huser rfl rfl hguest hdelete context now).mp hallow
  -- the one rule pins the role
  have hrule : r = adminRule .equal := List.mem_singleton.mp hr
  subst hrule
  obtain ⟨e, he, _, hpins⟩ := hescapes.condition
  cases he
  cases hpins

end AccessPolicy
