import AccessPolicy.Proofs.FailingConditions
import AccessPolicy.Proofs.MergedContexts
import AccessPolicy.Proofs.Requests

/-!
# What a decision depends on

The value of an expression, or the error that it ends in, depends on the attributes that stand in
it and on nothing else of the environment. So two calls of an engine for one request are answered
alike if their environments agree on what the policies about this action and resource read
(`Engine.sameAnswer_of_agreeOn_reads`), and the clock does not matter to policies that do not
read the time.
-/

namespace AccessPolicy

/-! ## Environments that agree -/

namespace Environment

/-- Two environments give the same attributes the same values, or none. -/
def AgreeOn (attributes : String → String → Prop) (env env' : Environment) : Prop :=
  ∀ object field, attributes object field → env.get? object field = env'.get? object field

theorem AgreeOn.mono {attributes fewer : String → String → Prop} {env env' : Environment}
    (h : AgreeOn attributes env env')
    (hfewer : ∀ object field, fewer object field → attributes object field) :
    AgreeOn fewer env env' :=
  fun object field hread => h object field (hfewer object field hread)

theorem get?_setAll_congr {env env' : Environment} {object' field' : String}
    (h : env.get? object' field' = env'.get? object' field') (object : String)
    (fields : List (String × Value)) :
    (env.setAll object fields).get? object' field' =
      (env'.setAll object fields).get? object' field' := by
  rw [get?_setAll, get?_setAll, h]

section
variable (user : User) (role : String) (resource : Resource) {object : String} (field : String)

theorem get?_ofRequest_of_ne_time (h : object ≠ "time") (context : CallerContext)
    (now now' : Moment) :
    (ofRequest user role resource context now).get? object field =
      (ofRequest user role resource context now').get? object field := by
  unfold ofRequest
  apply get?_setAll_congr
  apply get?_setAll_congr
  rw [get?_setAll_of_ne _ _ _ h.symm, get?_setAll_of_ne _ _ _ h.symm]

/-- A caller has no say but in the attributes of `time`, `request` and `device`. -/
theorem get?_ofRequest_of_notMem (h : object ∉ ["time", "request", "device"])
    (context context' : CallerContext) (now now' : Moment) :
    (ofRequest user role resource context now).get? object field =
      (ofRequest user role resource context' now').get? object field :=
  congrArg (NameMap.get? · field)
    (group_ofRequest_eq user role resource context' now' h context now)

end
end Environment

/-! ## What conditions read -/

namespace Expr

/-- The attribute stands in the expression. -/
def Reads (e : Expr) (object field : String) : Prop :=
  ∃ line, .attribute object field line ∈ e.nodes

section
variable {op : BinaryOp} {left right operand : Expr} {line : Nat} {object field : String}

theorem reads_left (h : left.Reads object field) :
    (Expr.binary op left right line).Reads object field := by
  obtain ⟨n, hmem⟩ := h
  exact ⟨n, List.mem_cons_of_mem _ (List.mem_append_left _ hmem)⟩

theorem reads_right (h : right.Reads object field) :
    (Expr.binary op left right line).Reads object field := by
  obtain ⟨n, hmem⟩ := h
  exact ⟨n, List.mem_cons_of_mem _ (List.mem_append_right _ hmem)⟩

theorem reads_operand (h : operand.Reads object field) :
    (Expr.not operand line).Reads object field := by
  obtain ⟨n, hmem⟩ := h
  exact ⟨n, List.mem_cons_of_mem _ hmem⟩

end

/-- **An expression depends on what it reads.** Where environments agree on its attributes, it
has the same value or ends in the same error. -/
theorem eval_congr {env env' : Environment} {e : Expr} (h : env.AgreeOn e.Reads env') :
    e.eval env = e.eval env' := by
  induction e with
  | binary op left right line ihLeft ihRight =>
      have hleft := ihLeft (h.mono fun _ _ => reads_left)
      have hright := ihRight (h.mono fun _ _ => reads_right)
      -- an operand that is skipped is skipped in both
      cases op <;> simp only [eval, hleft, hright]
  | not operand line ih =>
      have hoperand := ih (h.mono fun _ _ => reads_operand)
      simp only [eval, hoperand]
  | «attribute» object field line =>
      have hvalue := h object field ⟨line, List.mem_singleton_self _⟩
      simp only [eval, hvalue]
  | literal value line => rfl

theorem test_congr {env env' : Environment} {e : Expr} (h : env.AgreeOn e.Reads env') :
    e.test env = e.test env' := by
  unfold test
  rw [eval_congr h]

end Expr

namespace Policy

/-- The attribute stands in the condition of the policy, as it is read. -/
def Reads (p : Policy) (object field : String) : Prop :=
  ∃ text condition, p.condition = some text ∧ Expr.ofText text = .ok condition ∧
    condition.Reads object field

theorem holds_of_agreeOn {env env' : Environment} {p : Policy} (h : env.AgreeOn p.Reads env')
    (hholds : p.Holds env) : p.Holds env' := by
  rcases hholds with hnone | ⟨text, condition, htext, hread, htrue⟩
  · exact Or.inl hnone
  · right
    refine ⟨text, condition, htext, hread, ?_⟩
    rw [← htrue]
    symm
    apply Expr.test_congr
    intro object field hreads
    exact h object field ⟨text, condition, htext, hread, hreads⟩

theorem holds_congr {env env' : Environment} {p : Policy} (h : env.AgreeOn p.Reads env') :
    p.Holds env ↔ p.Holds env' := by
  constructor
  · exact holds_of_agreeOn h
  · apply holds_of_agreeOn
    intro object field hreads
    exact (h object field hreads).symm

end Policy

/-! ## What decisions read -/

/-- Two decisions give the same answer for the same reason, and list the same policies. -/
structure Decision.SameAnswer (d d' : Decision) : Prop where
  allowed : d.allowed = d'.allowed
  effect : d.effect = d'.effect
  reason : d.reason = d'.reason
  matched : d.matched = d'.matched

theorem Decision.SameAnswer.of_reason {d d' : Decision} (hreason : d.reason = d'.reason)
    (hmatched : d.matched = d'.matched) : d.SameAnswer d' := by
  have heffect : d.effect = d'.effect := congrArg Reason.effect hreason
  refine ⟨?_, heffect, hreason, hmatched⟩
  unfold Decision.allowed
  rw [heffect]

namespace Engine

/-- The attribute stands in the condition of some policy about the action on the resource. -/
def Reads (e : Engine) (action : String) (resource : Resource) (object field : String) : Prop :=
  ∃ p ∈ e.set.policies, p.Covers action resource ∧ p.Reads object field

/-- Which policies match depends on what those about the action and the resource read. -/
theorem matching_congr {e : Engine} {env env' : Environment} {action : String}
    {resource : Resource} (h : env.AgreeOn (e.Reads action resource) env') :
    e.matching env action resource = e.matching env' action resource := by
  unfold matching
  congr 1
  apply List.filter_congr
  intro l hl
  rw [e.policies_eq] at hl
  obtain ⟨p, hp, rfl⟩ := List.mem_map.mp hl
  rw [Bool.eq_iff_iff, Policy.applies_iff, Policy.applies_iff]
  apply and_congr_right
  intro hcovers
  apply Policy.holds_congr
  exact h.mono fun object field hreads => ⟨p, hp, hcovers, hreads⟩

section
variable {e : Engine} {request : Request} {context context' : CallerContext} {now now' : Moment}

theorem sameAnswer_of_agreeOn
    (h : ∀ parties, e.parties request = .ok parties →
      (parties.environment context now).AgreeOn
        (e.Reads (Text.lower request.action) parties.resource)
        (parties.environment context' now')) :
    (e.decide request context now).SameAnswer (e.decide request context' now') := by
  unfold decide
  cases hparties : e.parties request with
  | error reason => exact .of_reason rfl rfl
  | ok parties =>
      have hmatching := matching_congr (h parties hparties)
      apply Decision.SameAnswer.of_reason
      · dsimp only
        rw [hmatching]
      · exact hmatching

theorem agreeOn_of_timeless {action : String} {parties : Parties}
    (h : ∀ field, ¬e.Reads action parties.resource "time" field) :
    (parties.environment context now).AgreeOn (e.Reads action parties.resource)
      (parties.environment context now') := by
  intro object field hreads
  apply Environment.get?_ofRequest_of_ne_time
  rintro rfl
  exact h field hreads

end

/-- **A decision depends on what the policies in question read.** Whatever a caller says and
whenever, a request is answered alike, for the same reason and by the same policies, if the two
environments agree on every attribute in the condition of a policy about its action and resource.
The moment does not matter if none of these is an attribute of `time`. -/
theorem sameAnswer_of_agreeOn_reads (e : Engine) (request : Request) :
    (∀ context now context' now',
      (∀ parties, e.parties request = .ok parties →
        (parties.environment context now).AgreeOn
          (e.Reads (Text.lower request.action) parties.resource)
          (parties.environment context' now')) →
      (e.decide request context now).SameAnswer (e.decide request context' now')) ∧
    ((∀ parties, e.parties request = .ok parties →
        ∀ field, ¬e.Reads (Text.lower request.action) parties.resource "time" field) →
      ∀ context now now',
        (e.decide request context now).SameAnswer (e.decide request context now')) := by
  constructor
  · intro context now context' now' h
    exact sameAnswer_of_agreeOn h
  · intro h context now now'
    apply sameAnswer_of_agreeOn
    intro parties hparties
    exact agreeOn_of_timeless (h parties hparties)

theorem reads_clearanceSet {action object field : String} {resource : Resource}
    (h : (load clearanceSet).Reads action resource object field) :
    object = "user" ∧ field = "clearance" := by
  obtain ⟨p, hp, _, text, condition, htext, hread, n, hmem⟩ := h
  have hclearance : Expr.ofText "(user.clearance < 3)" = .ok (.binary .less
      (.attribute "user" "clearance" 1) (.literal (.int 3) 1) 1) :=
    eq_ok_of_toOption (by decide +kernel)
  rcases List.mem_cons.mp hp with rfl | hp
  · cases htext
  · cases List.mem_singleton.mp hp
    cases htext
    cases hread.symm.trans hclearance
    simp [Expr.nodes] at hmem
    exact ⟨hmem.1, hmem.2.1⟩

/-- Ann is answered alike at any time and whatever she says, as her clearance is not hers to
say. -/
theorem sameAnswer_of_agreeOn_reads_clearance :
    (∀ context now context' now',
      ((load clearanceSet).decide ⟨"ann", "read", "doc"⟩ context now).SameAnswer
        ((load clearanceSet).decide ⟨"ann", "read", "doc"⟩ context' now')) ∧
    ∀ context now now',
      ((load clearanceSet).decide ⟨"ann", "write", "doc"⟩ context now).SameAnswer
        ((load clearanceSet).decide ⟨"ann", "write", "doc"⟩ context now') := by
  constructor
  · intro context now context' now'
    obtain ⟨hagree, _⟩ := sameAnswer_of_agreeOn_reads (load clearanceSet) ⟨"ann", "read", "doc"⟩
    apply hagree
    intro parties _ object field hreads
    obtain ⟨rfl, rfl⟩ := reads_clearanceSet hreads
    exact Environment.get?_ofRequest_of_notMem _ _ _ _ (by decide) ..
  · obtain ⟨_, htimeless⟩ := sameAnswer_of_agreeOn_reads (load clearanceSet) ⟨"ann", "write", "doc"⟩
    apply htimeless
    intro parties _ field hreads
    obtain ⟨hobject, _⟩ := reads_clearanceSet hreads
    exact absurd hobject (by decide)

end Engine
end AccessPolicy
