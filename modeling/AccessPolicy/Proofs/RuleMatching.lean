import AccessPolicy.Compilation
import AccessPolicy.Decision.Engine
import AccessPolicy.Proofs.Evaluation
import AccessPolicy.Proofs.ProgramReading

/-!
# Compiled rules match as they are written

A condition goes into a policy as text and is read again when the policy is
loaded. What comes back differs in its lines at most, and lines do not count in
an evaluation; so a loaded policy matches a request just where its rule does
(`applies_toPolicy`).
-/

namespace AccessPolicy

/-! ## Lines do not count -/

namespace Expr

theorem eval_onLine (env : Environment) (n : Nat) (e : Expr) :
    (e.onLine n).eval env = e.eval env := by
  induction e with
  | binary op left right line ihLeft ihRight =>
      cases op <;> simp only [onLine, eval, ihLeft, ihRight]
  | not operand line ih => simp only [onLine, eval, ih]
  | «attribute» object field line => rfl
  | literal value line => rfl

theorem holds_onLine (env : Environment) (n : Nat) (e : Expr) :
    (e.onLine n).holds env = e.holds env := by
  unfold holds test
  rw [eval_onLine]

end Expr

/-! ## Rules -/

namespace Rule

/-- The rule as it is written matches an action on a resource: its pattern and
its actions do, and its condition, if there is one, evaluates to true. -/
def applies (env : Environment) (action : String) (resource : Resource) (r : Rule) : Bool :=
  ResourcePattern.matchesResource r.resource resource && coversAction r.actions action
    && r.condition.all (Expr.holds env)

/-- The condition of the rule is one that can be read back. -/
def Writable (r : Rule) : Prop := ∀ e, r.condition = some e → e.Writable

theorem guard_toPolicy {r : Rule} (h : r.Writable) (env : Environment) :
    (Guard.ofCondition r.toPolicy.condition).holds env = r.condition.all (Expr.holds env) := by
  unfold toPolicy
  cases hc : r.condition with
  | none => rfl
  | some e =>
      -- the text comes back as the expression on line 1
      have hguard : Guard.ofCondition (some e.conditionText) = .condition (e.onLine 1) := by
        simp only [Guard.ofCondition, Expr.ofText_conditionText (h e hc)]
      show (Guard.ofCondition (some e.conditionText)).holds env = e.holds env
      rw [hguard]
      exact Expr.holds_onLine env 1 e

/-- **A loaded policy matches where its rule does.** -/
theorem applies_toPolicy {r : Rule} (h : r.Writable) (env : Environment) (action : String)
    (resource : Resource) :
    (LoadedPolicy.ofPolicy r.toPolicy).applies env action resource =
      r.applies env action resource := by
  have hguard := guard_toPolicy h env
  unfold LoadedPolicy.applies LoadedPolicy.ofPolicy applies
  dsimp only
  rw [hguard]
  rfl

end Rule

/-! ## Compiled programs -/

section Compiled
variable {o : Options} {source : String} {ir : PolicySet}

theorem program_of_compile (h : (compile o source).policySet = some ir) :
    ∃ p, Program.ofTokens o.maxErrors (TokenStream.scan source).1 = .ok p ∧
      (compile o source).report = some (p.analyze o) ∧
      ir = PolicySet.ofProgram o.synthesize p := by
  unfold compile at h ⊢
  dsimp only at h ⊢
  split at h
  · cases h
  · next p hp =>
    rw [hp]
    dsimp only at h ⊢
    split_ifs at h
    injection h with h
    exact ⟨p, rfl, rfl, h.symm⟩

theorem writable_rules {p : Program} {maxErrors : Nat}
    (h : Program.ofTokens maxErrors (TokenStream.scan source).1 = .ok p) :
    ∀ r ∈ p.rules, r.Writable :=
  fun _ hr _ he => Program.writable_of_mem_rules h hr he

end Compiled

theorem PolicySet.policies_ofProgram {p : Program} (h : p.rules ≠ []) (synthesize : Bool) :
    (ofProgram synthesize p).policies = p.rules.map Rule.toPolicy := by
  have hempty : (p.rules.map Rule.toPolicy).isEmpty = false := by simpa using h
  unfold ofProgram
  simp [hempty]

/-- The policies that match a request are those of the rules that do, in the
order of the program. -/
theorem Engine.matching_ofProgram {p : Program} (hne : p.rules ≠ [])
    (hw : ∀ r ∈ p.rules, r.Writable) (synthesize : Bool) (env : Environment) (action : String)
    (resource : Resource) :
    (load (.ofProgram synthesize p)).matching env action resource =
      (p.rules.filter (Rule.applies env action resource)).map Rule.toPolicy := by
  have happlies : ∀ r ∈ p.rules,
      (LoadedPolicy.ofPolicy r.toPolicy).applies env action resource =
        r.applies env action resource :=
    fun r hr => Rule.applies_toPolicy (hw r hr) env action resource
  have hpolicies : (load (.ofProgram synthesize p)).policies =
      p.rules.map fun r => LoadedPolicy.ofPolicy r.toPolicy :=
    (congrArg _ (PolicySet.policies_ofProgram hne synthesize)).trans (List.map_map ..)
  unfold matching
  rw [hpolicies, List.filter_map, List.map_map]
  exact congrArg (List.map Rule.toPolicy) (List.filter_congr happlies)

end AccessPolicy
