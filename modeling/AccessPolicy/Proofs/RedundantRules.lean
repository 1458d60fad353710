import AccessPolicy.Proofs.ConflictCoverage
import AccessPolicy.Proofs.RoleGrants

/-!
# Redundant rules

The report calls a rule redundant if an earlier one on the same resource has its effect and
its condition and shares some of its actions, and advises to remove it. Removing it changes
the answer to a request just if the earlier rule is not about the action and the answer rests
on the removed rule alone (`allowed_ne_allowed_without_redundant_iff`). So a rule can be
removed whose actions the earlier one covers all (`allowed_without_covered`), but one that
is about further actions cannot (`not_safeToRemoveRedundant_widening`).
-/

namespace AccessPolicy

/-! ## Policies that decide -/

namespace Policy

def Applies (env : Environment) (action : String) (resource : Resource) (p : Policy) : Prop :=
  p.Covers action resource ∧ p.Holds env

def SomeApplies (effect : Effect) (policies : List Policy) (env : Environment) (action : String)
    (resource : Resource) : Prop :=
  ∃ p ∈ policies, p.effect = effect ∧ p.Applies env action resource

/-- Beside other policies, the answer to a request rests on this one alone: it is the only one
that applies and allows, or the only one that denies what others allow. -/
inductive Decides (others : List Policy) (env : Environment) (action : String)
    (resource : Resource) (q : Policy) : Prop
  | allows : q.effect = .allow → q.Applies env action resource →
      (∀ p ∈ others, ¬p.Applies env action resource) → Decides others env action resource q
  | denies : q.effect = .deny → q.Applies env action resource →
      SomeApplies .allow others env action resource →
      ¬SomeApplies .deny others env action resource → Decides others env action resource q

variable {others before after : List Policy} {env : Environment} {action : String}
  {resource : Resource} {p q : Policy}

theorem Decides.applies (h : q.Decides others env action resource) :
    q.Applies env action resource := by
  cases h with
  | allows _ happlies _ => exact happlies
  | denies _ happlies _ _ => exact happlies

theorem Decides.not_applies (h : q.Decides others env action resource) (hp : p ∈ others)
    (heffect : p.effect = q.effect) : ¬p.Applies env action resource := by
  cases h with
  | allows _ _ hnone => exact hnone p hp
  | denies hdeny _ _ hnone => exact fun happlies => hnone ⟨p, hp, heffect.trans hdeny, happlies⟩

theorem someApplies_split {effect : Effect} :
    SomeApplies effect (before ++ q :: after) env action resource ↔
      (q.effect = effect ∧ q.Applies env action resource) ∨
        SomeApplies effect (before ++ after) env action resource := by
  unfold SomeApplies
  simp only [List.mem_append, List.mem_cons]
  constructor
  · rintro ⟨p, hp | rfl | hp, happlies⟩
    · exact Or.inr ⟨p, Or.inl hp, happlies⟩
    · exact Or.inl happlies
    · exact Or.inr ⟨p, Or.inr hp, happlies⟩
  · rintro (happlies | ⟨p, hp | hp, happlies⟩)
    · exact ⟨q, Or.inr (Or.inl rfl), happlies⟩
    · exact ⟨p, Or.inl hp, happlies⟩
    · exact ⟨p, Or.inr (Or.inr hp), happlies⟩

theorem decides_iff :
    q.Decides others env action resource ↔
      ¬(((q.effect = .allow ∧ q.Applies env action resource) ∨
            SomeApplies .allow others env action resource) ∧
          ¬((q.effect = .deny ∧ q.Applies env action resource) ∨
            SomeApplies .deny others env action resource) ↔
        SomeApplies .allow others env action resource ∧
          ¬SomeApplies .deny others env action resource) := by
  constructor
  · intro hdecides
    cases hdecides with
    | allows heffect happlies hnone =>
        have hothers : ∀ effect, ¬SomeApplies effect others env action resource :=
          fun effect ⟨p, hp, _, hpApplies⟩ => hnone p hp hpApplies
        simp [heffect, happlies, hothers]
    | denies heffect happlies hallow hdeny => simp [heffect, happlies, hallow, hdeny]
  · intro hne
    by_cases happlies : q.Applies env action resource
    · cases heffect : q.effect with
      | allow =>
          refine .allows heffect happlies fun p hp hpApplies => hne ?_
          -- another policy that applies gives the answer in either case
          have hsome : SomeApplies p.effect others env action resource := ⟨p, hp, rfl, hpApplies⟩
          cases hpEffect : p.effect with
          | allow =>
              rw [hpEffect] at hsome
              simp [heffect, hsome]
          | deny =>
              rw [hpEffect] at hsome
              simp [hsome]
      | deny =>
          refine .denies heffect happlies ?_ fun hdeny => hne ?_
          · by_contra hallow
            exact hne (by simp [heffect, hallow])
          · simp [hdeny]
    · exact absurd (by simp [happlies]) hne

end Policy

namespace Engine

theorem allowed_iff {e : Engine} {request : Request} {parties : Parties}
    (h : e.parties request = .ok parties) (context : CallerContext) (now : Moment) :
    (e.decide request context now).allowed = true ↔
      Policy.SomeApplies .allow e.set.policies (parties.environment context now)
          (Text.lower request.action) parties.resource ∧
        ¬Policy.SomeApplies .deny e.set.policies (parties.environment context now)
          (Text.lower request.action) parties.resource :=
  decide_eq_true_iff.trans (effect_decide_eq_allow h)

/-- **When a policy makes a difference.** Without one of its policies a set answers a request
differently just if the answer rests on this policy alone. -/
theorem allowed_ne_allowed_without_iff {set : PolicySet} {before after : List Policy} {q : Policy}
    (hset : set.policies = before ++ q :: after)
    (request : Request) (context : CallerContext) (now : Moment) :
    ((load set).decide request context now).allowed ≠
        ((load { set with policies := before ++ after }).decide request context now).allowed ↔
      ∃ parties, (load set).parties request = .ok parties ∧
        q.Decides (before ++ after) (parties.environment context now) (Text.lower request.action)
          parties.resource := by
  -- parties are looked up without the policies
  have hsame : (load { set with policies := before ++ after }).parties request =
      (load set).parties request := rfl
  cases hparties : (load set).parties request with
  | error reason =>
      unfold decide
      rw [hsame, hparties]
      simp
  | ok parties =>
      have hwith := allowed_iff hparties context now
      have hwithout := allowed_iff (hsame.trans hparties) context now
      have hpolicies : (load set).set.policies = before ++ q :: after := hset
      rw [hpolicies, Policy.someApplies_split, Policy.someApplies_split] at hwith
      rw [Ne, Bool.eq_iff_iff, hwith, hwithout]
      simp only [Except.ok.injEq, exists_eq_left', Policy.decides_iff]
      rfl

end Engine

/-! ## Rules that are reported -/

theorem conflict?_eq_some {p q : Rule} {c : Conflict} (h : conflict? p q = some c) :
    c.first = p ∧ c.second = q ∧ c.kind = conflictKind p q c.actions ∧
      p.resource = q.resource := by
  unfold conflict? at h
  dsimp only at h
  split_ifs at h with hnone
  cases h
  exact ⟨rfl, rfl, rfl, not_not.mp fun hne => hnone (Or.inl hne)⟩

theorem exists_split_of_mem_conflicts {rules : List Rule} {c : Conflict}
    (h : c ∈ conflicts rules) :
    ∃ before after, rules = before ++ c.second :: after ∧ c.first ∈ before ∧
      conflict? c.first c.second = some c := by
  induction rules with
  | nil => cases h
  | cons p rest ih =>
      rcases List.mem_append.mp h with h | h
      · obtain ⟨q, hq, hconflict⟩ := List.mem_filterMap.mp h
        obtain ⟨before, after, rfl⟩ := List.append_of_mem hq
        obtain ⟨rfl, rfl, _⟩ := conflict?_eq_some hconflict
        exact ⟨c.first :: before, after, rfl, List.mem_cons_self, hconflict⟩
      · obtain ⟨before, after, rfl, hfirst, hconflict⟩ := ih h
        exact ⟨p :: before, after, rfl, List.mem_cons_of_mem p hfirst, hconflict⟩

theorem conflictKind_eq_redundant_iff {p q : Rule} {common : List String} :
    conflictKind p q common = .redundant ↔
      p.effect = q.effect ∧
        p.condition.map Expr.conditionText = q.condition.map Expr.conditionText := by
  unfold conflictKind sameCondition
  split_ifs with heffect hdelete hcondition
  · simp [heffect]
  · simp [heffect]
  · simpa [not_not.mp heffect] using hcondition
  · simpa [not_not.mp heffect] using hcondition

/-- What a redundant rule repeats is all but the actions. -/
theorem Conflict.toPolicy_of_redundant {rules : List Rule} {c : Conflict}
    (h : c ∈ conflicts rules) (hkind : c.kind = .redundant) :
    c.first.toPolicy.effect = c.second.toPolicy.effect ∧
      c.first.toPolicy.resource = c.second.toPolicy.resource ∧
      c.first.toPolicy.condition = c.second.toPolicy.condition := by
  obtain ⟨_, _, _, _, hconflict⟩ := exists_split_of_mem_conflicts h
  obtain ⟨_, _, hkind', hresource⟩ := conflict?_eq_some hconflict
  obtain ⟨heffect, hcondition⟩ := conflictKind_eq_redundant_iff.mp (hkind'.symm.trans hkind)
  exact ⟨heffect, hresource, hcondition⟩

theorem Policy.applies_of_repeated {p q : Policy} {env : Environment} {action : String}
    {resource : Resource} (hresource : p.resource = q.resource)
    (hcondition : p.condition = q.condition) (haction : coversAction p.actions action = true)
    (hq : q.Applies env action resource) : p.Applies env action resource := by
  obtain ⟨⟨hpattern, _⟩, hholds⟩ := hq
  refine ⟨⟨?_, haction⟩, ?_⟩
  · rwa [hresource]
  · unfold Holds at hholds ⊢
    rwa [hcondition]

/-- A redundant rule decides nothing that the earlier rule is about. -/
theorem Conflict.coversAction_of_decides {rules : List Rule} {c : Conflict}
    {others : List Policy} {env : Environment} {action : String} {resource : Resource}
    (h : c ∈ conflicts rules) (hkind : c.kind = .redundant) (hfirst : c.first.toPolicy ∈ others)
    (hdecides : c.second.toPolicy.Decides others env action resource) :
    coversAction c.first.actions action = false := by
  obtain ⟨heffect, hresource, hcondition⟩ := toPolicy_of_redundant h hkind
  rw [← Bool.not_eq_true]
  intro haction
  exact hdecides.not_applies hfirst heffect
    (Policy.applies_of_repeated hresource hcondition haction hdecides.applies)

section
variable {o : Options} {source : String} {ir : PolicySet} {report : Report} {c : Conflict}

theorem exists_rules_of_mem_conflicts (hcompile : (compile o source).policySet = some ir)
    (hreport : (compile o source).report = some report) (hc : c ∈ report.conflicts) :
    ∃ rules, c ∈ conflicts rules ∧ ir.policies = rules.map Rule.toPolicy := by
  obtain ⟨p, _, hreport', rfl⟩ := program_of_compile hcompile
  cases hreport.symm.trans hreport'
  rw [Program.conflicts_analyze] at hc
  obtain ⟨before, after, hrules, _⟩ := exists_split_of_mem_conflicts hc
  have hne : p.rules ≠ [] := by
    rw [hrules]
    exact List.append_ne_nil_of_right_ne_nil _ (List.cons_ne_nil _ _)
  exact ⟨p.rules, hc, PolicySet.policies_ofProgram hne o.synthesize⟩

/-- A redundant rule whose actions the earlier one covers all can be removed. -/
theorem allowed_without_covered (hcompile : (compile o source).policySet = some ir)
    (hreport : (compile o source).report = some report) (hc : c ∈ report.conflicts)
    (hkind : c.kind = .redundant)
    (hcovered : ∀ action, coversAction c.second.actions action = true →
      coversAction c.first.actions action = true)
    {before after : List Policy} (hpolicies : ir.policies = before ++ c.second.toPolicy :: after)
    (hfirst : c.first.toPolicy ∈ before)
    (request : Request) (context : CallerContext) (now : Moment) :
    ((Engine.load ir).decide request context now).allowed =
      ((Engine.load { ir with policies := before ++ after }).decide request context
        now).allowed := by
  by_contra hne
  obtain ⟨rules, hmem, _⟩ := exists_rules_of_mem_conflicts hcompile hreport hc
  obtain ⟨parties, _, hdecides⟩ :=
    (Engine.allowed_ne_allowed_without_iff hpolicies request context now).mp hne
  have hnot := Conflict.coversAction_of_decides hmem hkind (List.mem_append_left _ hfirst) hdecides
  have hboth := hcovered _ hdecides.applies.1.2
  cases hnot.symm.trans hboth

/-- **When a redundant rule can be removed.** The advice for a conflict of redundant rules is
to remove the later one, which has a place after the other among the policies. Without it a
request is answered differently just if the earlier rule is not about the action and the answer
rests on the later one alone. -/
theorem allowed_ne_allowed_without_redundant_iff
    (hcompile : (compile o source).policySet = some ir)
    (hreport : (compile o source).report = some report) (hc : c ∈ report.conflicts)
    (hkind : c.kind = .redundant) :
    "Remove the duplicate policy at line " ++ toString c.second.line ∈ report.recommendations ∧
      (∃ before after, ir.policies = before ++ c.second.toPolicy :: after ∧
        c.first.toPolicy ∈ before) ∧
      ∀ before after, ir.policies = before ++ c.second.toPolicy :: after →
        c.first.toPolicy ∈ before →
        ∀ request context now,
          ((Engine.load ir).decide request context now).allowed ≠
              ((Engine.load { ir with policies := before ++ after }).decide request context
                now).allowed ↔
            ∃ parties, (Engine.load ir).parties request = .ok parties ∧
              coversAction c.first.actions (Text.lower request.action) = false ∧
              c.second.toPolicy.Decides (before ++ after) (parties.environment context now)
                (Text.lower request.action) parties.resource := by
  obtain ⟨rules, hmem, hpolicies⟩ := exists_rules_of_mem_conflicts hcompile hreport hc
  refine ⟨?_, ?_, fun before after hsplit hfirst request context now => ?_⟩
  · have hadvice : Report.conflictAdvice c =
        some ("Remove the duplicate policy at line " ++ toString c.second.line) := by
      unfold Report.conflictAdvice
      rw [hkind]
    unfold Report.recommendations
    refine List.mem_append_left _ (List.mem_append_right _ ?_)
    exact List.mem_filterMap.mpr ⟨c, hc, hadvice⟩
  · obtain ⟨before, after, rfl, hfirst, _⟩ := exists_split_of_mem_conflicts hmem
    refine ⟨before.map Rule.toPolicy, after.map Rule.toPolicy, ?_, List.mem_map_of_mem hfirst⟩
    rw [hpolicies, List.map_append, List.map_cons]
  · rw [Engine.allowed_ne_allowed_without_iff hsplit]
    constructor
    · rintro ⟨parties, hparties, hdecides⟩
      exact ⟨parties, hparties, Conflict.coversAction_of_decides hmem hkind
        (List.mem_append_left _ hfirst) hdecides, hdecides⟩
    · rintro ⟨parties, hparties, _, hdecides⟩
      exact ⟨parties, hparties, hdecides⟩

end

/-! ## A redundant rule about one more action -/

/-- A text with a rule that repeats another for one more action. -/
def wideningSource : String :=
  "ROLE R \x7b \x7d USER u \x7b role: R \x7d RESOURCE d \x7b \x7d\n" ++
    "ALLOW action: read ON RESOURCE: d\nALLOW action: read, write ON RESOURCE: d"

def narrowRule : Rule := ⟨.allow, ["read"], "d", none, 2⟩

def wideRule : Rule := ⟨.allow, ["read", "write"], "d", none, 3⟩

def wideningProgram : Program := ⟨[
  .definition .role ⟨"R", [], 1⟩,
  .definition .user ⟨"u", [("role", [.string "R"])], 1⟩,
  .definition .resource ⟨"d", [], 1⟩,
  .rule narrowRule,
  .rule wideRule]⟩

def wideningConflict : Conflict := ⟨.redundant, narrowRule, wideRule, ["read"]⟩

/-- Whatever the report of a text calls redundant can be removed. -/
def SafeToRemoveRedundant (o : Options) (source : String) : Prop :=
  ∀ ir report c, (compile o source).policySet = some ir →
    (compile o source).report = some report → c ∈ report.conflicts → c.kind = .redundant →
    ∀ before after, ir.policies = before ++ c.second.toPolicy :: after →
      c.first.toPolicy ∈ before →
      ∀ request context now,
        ((Engine.load ir).decide request context now).allowed =
          ((Engine.load { ir with policies := before ++ after }).decide request context now).allowed

theorem compile_wideningSource :
    (compile {} wideningSource).policySet = some (.ofProgram true wideningProgram) ∧
      (compile {} wideningSource).report = some (wideningProgram.analyze {}) := by
  exact compile_of_read (o := {}) (by decide +kernel) (by decide +kernel) (by decide +kernel)

theorem wideningConflict_mem : wideningConflict ∈ (wideningProgram.analyze {}).conflicts := by
  rw [Program.conflicts_analyze]
  exact mem_conflicts Nat.zero_lt_one (i := 0) (j := 1) rfl rfl rfl

/-- Without the redundant rule nobody may write. -/
theorem not_safeToRemoveRedundant_widening : ¬SafeToRemoveRedundant {} wideningSource := by
  intro h
  obtain ⟨hcompile, hreport⟩ := compile_wideningSource
  have hsame := h _ _ _ hcompile hreport wideningConflict_mem rfl [narrowRule.toPolicy] [] rfl
    (List.mem_singleton_self _) ⟨"u", "write", "d"⟩ {} ⟨2024, 1, 1, 0, 0, 0, 0, 0⟩
  revert hsame
  decide +kernel

/-- Without it everybody may read who may read with it. -/
theorem allowed_ne_allowed_without_redundant_iff_widening :
    (compile {} wideningSource).policySet = some (.ofProgram true wideningProgram) ∧
      ∀ user context now,
        ((Engine.load (.ofProgram true wideningProgram)).decide ⟨user, "READ", "d"⟩ context
            now).allowed =
          ((Engine.load { PolicySet.ofProgram true wideningProgram with
            policies := [narrowRule.toPolicy] }).decide ⟨user, "READ", "d"⟩ context
              now).allowed := by
  obtain ⟨hcompile, hreport⟩ := compile_wideningSource
  refine ⟨hcompile, fun user context now => ?_⟩
  obtain ⟨_, _, hiff⟩ :=
    allowed_ne_allowed_without_redundant_iff hcompile hreport wideningConflict_mem rfl
  by_contra hne
  obtain ⟨_, _, haction, _⟩ := (hiff [narrowRule.toPolicy] [] rfl (List.mem_singleton_self _)
    ⟨user, "READ", "d"⟩ context now).mp hne
  have hcovered : coversAction narrowRule.actions (Text.lower "READ") = true := by decide +kernel
  cases hcovered.symm.trans haction

end AccessPolicy
