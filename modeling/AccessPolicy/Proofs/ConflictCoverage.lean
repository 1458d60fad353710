import AccessPolicy.Proofs.CompiledPrograms
import Mathlib.Algebra.Order.Ring.Rat

/-!
# Rules that meet are in conflict

Two rules on the same resource that match one request are reported as a
conflict. The report leaves out pairs whose actions do not overlap or whose
conditions are provably disjoint, and neither can be so for rules that match
together: the request's action is covered by both, and a conjunction that holds
gives each attribute it pins the value of the pin.
-/

namespace AccessPolicy

/-! ## Literals that no value equals both -/

namespace Value

theorem equal_comm (v w : Value) : v.equal w = w.equal v := by
  cases v <;> cases w <;> simp [equal, Decimal.sameValue, eq_comm]

theorem equal_text {v : Value} {s : String} (h : v.equal (.text s) = true) : v = .text s := by
  cases v with
  | text t => rw [of_decide_eq_true h]
  | null => cases h
  | bool b => cases h
  | number d => cases h

theorem equal_bool {v : Value} {b : Bool} (h : v.equal (.bool b) = true) : v = .bool b := by
  cases v with
  | bool c => rw [of_decide_eq_true h]
  | null => cases h
  | text t => cases h
  | number d => cases h

theorem toRat_ofInt (n : Int) : (Decimal.ofInt n).toRat = n := by
  have hmantissa : (Decimal.ofInt n).signedMantissa = n := by
    unfold Decimal.ofInt Decimal.signedMantissa
    dsimp only
    by_cases hneg : n < 0
    · rw [if_pos (decide_eq_true hneg)]
      omega
    · rw [if_neg (by simpa using hneg)]
      omega
  unfold Decimal.toRat
  rw [hmantissa]
  simp [Decimal.unit, Decimal.ofInt]

theorem equal_ofInt {v : Value} {n : Int} (h : v.equal (.ofInt n) = true) :
    ∃ d, v = .number d ∧ d.toRat = n := by
  cases v with
  | number d =>
      refine ⟨d, rfl, ?_⟩
      rw [← toRat_ofInt n]
      exact of_decide_eq_true h
  | null => cases h
  | bool b => cases h
  | text t => cases h

end Value

/-- **Distinct literals.** No value equals both of two distinct literals. -/
theorem Literal.not_equal_both {a b : Literal} (hd : a.distinct b = true) {u w : Value}
    (ha : a.eval = .ok u) (hb : b.eval = .ok w) (v : Value) :
    ¬(v.equal u = true ∧ v.equal w = true) := by
  rintro ⟨hu, hw⟩
  -- distinct literals are of one kind, and only texts, integers and truth values are
  cases a with
  | string s =>
      cases b with
      | string t =>
          cases ha
          cases hb
          rw [Value.equal_text hu] at hw
          have hst : s = t := of_decide_eq_true hw
          subst hst
          simp [distinct] at hd
      | _ => cases hd
  | int n =>
      cases b with
      | int m =>
          cases ha
          cases hb
          obtain ⟨d, rfl, hn⟩ := Value.equal_ofInt hu
          obtain ⟨d', hd', hm⟩ := Value.equal_ofInt hw
          cases hd'
          have hnm : n = m := by exact_mod_cast hn.symm.trans hm
          subst hnm
          simp [distinct] at hd
      | _ => cases hd
  | decimal s => cases b <;> cases hd
  | bool c =>
      cases b with
      | bool d =>
          cases ha
          cases hb
          rw [Value.equal_bool hu] at hw
          have hcd : c = d := of_decide_eq_true hw
          subst hcd
          simp [distinct] at hd
      | _ => cases hd

/-! ## Pins -/

namespace Expr
variable {env : Environment}

/-- One operand of the outermost conjunction, which is no conjunction itself. -/
inductive IsConjunct (c : Expr) : Expr → Prop
  | whole : (∀ left right line, c ≠ .binary .and left right line) → IsConjunct c c
  | left {left right : Expr} {line : Nat} :
      IsConjunct c left → IsConjunct c (.binary .and left right line)
  | right {left right : Expr} {line : Nat} :
      IsConjunct c right → IsConjunct c (.binary .and left right line)

theorem isConjunct_iff {c e : Expr} : c.IsConjunct e ↔ c ∈ e.conjuncts := by
  constructor
  · intro h
    induction h with
    | whole hwhole =>
        unfold conjuncts
        split
        · next left right line => exact absurd rfl (hwhole left right line)
        · exact List.mem_singleton_self c
    | left _ ih => exact List.mem_append_left _ ih
    | right _ ih => exact List.mem_append_right _ ih
  · intro h
    fun_induction conjuncts e with
    | case1 left right line ihLeft ihRight =>
        rcases List.mem_append.mp h with h | h
        · exact .left (ihLeft h)
        · exact .right (ihRight h)
    | case2 e hwhole =>
        rw [List.mem_singleton.mp h]
        exact .whole hwhole

theorem IsConjunct.eval {c e : Expr} (hc : c.IsConjunct e) (h : e.eval env = .ok (.bool true)) :
    c.eval env = .ok (.bool true) := by
  induction hc with
  | whole => exact h
  | left _ ih =>
      rcases eval_and_eq_bool.mp h with ⟨_, hfalse⟩ | ⟨hleft, _⟩
      · cases hfalse
      · exact ih hleft
  | right _ ih =>
      rcases eval_and_eq_bool.mp h with ⟨_, hfalse⟩ | ⟨_, hright⟩
      · cases hfalse
      · exact ih hright

theorem eval_pin {e : Expr} {object field : String} {l : Literal}
    (hpin : e.pin? = some ((object, field), l)) (h : e.eval env = .ok (.bool true)) :
    ∃ v w, env.get? object field = some v ∧ l.eval = .ok w ∧ v.equal w = true := by
  unfold pin? at hpin
  split at hpin
  · cases hpin
    obtain ⟨v, w, hv, hw, hequal⟩ := eval_equal_eq_bool.mp h
    exact ⟨v, w, eval_attribute_eq_ok.mp hv, hw, hequal⟩
  · cases hpin
    obtain ⟨v, w, hv, hw, hequal⟩ := eval_equal_eq_bool.mp h
    exact ⟨w, v, eval_attribute_eq_ok.mp hw, hv, by rwa [Value.equal_comm]⟩
  · cases hpin

theorem eval_pins {e : Expr} (h : e.eval env = .ok (.bool true)) {x : (String × String) × Literal}
    (hx : x ∈ e.pins) :
    ∃ v w, env.get? x.1.1 x.1.2 = some v ∧ x.2.eval = .ok w ∧ v.equal w = true := by
  obtain ⟨c, hc, hpin⟩ := List.mem_filterMap.mp hx
  exact eval_pin hpin ((isConjunct_iff.mpr hc).eval h)

end Expr

/-- Conditions that both hold are not taken for disjoint. -/
theorem not_provablyDisjoint {env : Environment} {a b : Option Expr}
    (ha : ∀ e ∈ a, e.eval env = .ok (.bool true)) (hb : ∀ e ∈ b, e.eval env = .ok (.bool true)) :
    provablyDisjoint a b = false := by
  cases a with
  | none => rfl
  | some e =>
      cases b with
      | none => rfl
      | some f =>
          apply eq_false_of_ne_true
          intro h
          obtain ⟨x, hx, h⟩ := List.any_eq_true.mp h
          obtain ⟨y, hy, h⟩ := List.any_eq_true.mp h
          rw [Bool.and_eq_true, decide_eq_true_eq] at h
          obtain ⟨hsame, hdistinct⟩ := h
          obtain ⟨v, u, hv, hu, hvu⟩ := Expr.eval_pins (ha e rfl) hx
          obtain ⟨v', w, hv', hw, hvw⟩ := Expr.eval_pins (hb f rfl) hy
          -- both pin one attribute, which has one value
          rw [← hsame, hv] at hv'
          cases hv'
          exact Literal.not_equal_both hdistinct hu hw v ⟨hvu, hvw⟩

/-! ## Actions -/

theorem overlappingActions_ne_nil {p q : Rule} {action : String}
    (hp : coversAction p.actions action = true) (hq : coversAction q.actions action = true) :
    overlappingActions p q ≠ [] := by
  obtain ⟨a, ha, hcover⟩ := List.any_eq_true.mp hp
  obtain ⟨b, hb, hcover'⟩ := List.any_eq_true.mp hq
  rw [Bool.or_eq_true, decide_eq_true_eq, decide_eq_true_eq] at hcover hcover'
  unfold overlappingActions
  -- a wildcard on one side leaves all actions of the other
  split_ifs with hstar hstar'
  · exact List.ne_nil_of_mem hb
  · exact List.ne_nil_of_mem ha
  · -- without a wildcard on either side it is the action itself
    have haction : a = action := hcover.resolve_left fun h => hstar (h ▸ ha)
    have haction' : b = action := hcover'.resolve_left fun h => hstar' (h ▸ hb)
    subst haction haction'
    exact List.ne_nil_of_mem (List.mem_filter.mpr ⟨ha, decide_eq_true hb⟩)

/-! ## The report -/

theorem mem_conflicts {rules : List Rule} {i j : Nat} {p q : Rule} {c : Conflict} (hij : i < j)
    (hp : rules[i]? = some p) (hq : rules[j]? = some q) (h : conflict? p q = some c) :
    c ∈ conflicts rules := by
  induction rules generalizing i j with
  | nil => cases hp
  | cons r rest ih =>
      obtain ⟨j, rfl⟩ := Nat.exists_eq_add_one_of_ne_zero (Nat.ne_zero_of_lt hij)
      rw [List.getElem?_cons_succ] at hq
      unfold conflicts
      rw [List.mem_append]
      cases i with
      | zero =>
          cases hp
          exact Or.inl (List.mem_filterMap.mpr ⟨q, List.mem_of_getElem? hq, h⟩)
      | succ i => exact Or.inr (ih (Nat.lt_of_succ_lt_succ hij) hp hq)

theorem Program.conflicts_analyze (o : Options) (p : Program) :
    (p.analyze o).conflicts = AccessPolicy.conflicts p.rules :=
  congrArg AccessPolicy.conflicts (Declarations.records_ofProgram p).rules

/-! ## Matching rules -/

/-- A rule whose policy is among those that matched a request did match, in one
environment for all rules. -/
theorem applies_of_matched {p : Program} (hw : ∀ r ∈ p.rules, r.Writable)
    (hne : p.rules ≠ []) (synthesize : Bool) (request : Request) (context : CallerContext)
    (now : Moment) :
    ∃ env action resource, ∀ r ∈ p.rules,
      r.toPolicy ∈ ((Engine.load (.ofProgram synthesize p)).decide request context now).matched →
        r.applies env action resource = true := by
  unfold Engine.decide
  split
  · exact ⟨.empty, "", ⟨"", none, [], 0⟩, fun r _ h => absurd h List.not_mem_nil⟩
  · next parties _ =>
    refine ⟨.ofRequest parties.user parties.role parties.resource context now,
      Text.lower request.action, parties.resource, fun r hr h => ?_⟩
    dsimp only at h
    rw [Engine.matching_ofProgram hne hw] at h
    -- the policy may come from another rule, but equal policies match alike
    obtain ⟨r', hr', hsame⟩ := List.mem_map.mp h
    obtain ⟨hmem, happlies⟩ := List.mem_filter.mp hr'
    rwa [← Rule.applies_toPolicy (hw r hr), ← hsame, Rule.applies_toPolicy (hw r' hmem)]

/-- Two rules on one resource that match in one environment are in conflict. -/
theorem conflict?_of_applies {env : Environment} {action : String} {resource : Resource}
    {p q : Rule} (hresource : p.resource = q.resource)
    (hp : p.applies env action resource = true) (hq : q.applies env action resource = true) :
    ∃ c, conflict? p q = some c ∧ c.first = p ∧ c.second = q ∧
      c.kind = conflictKind p q c.actions := by
  unfold Rule.applies at hp hq
  rw [Bool.and_eq_true, Bool.and_eq_true] at hp hq
  obtain ⟨⟨_, hpAction⟩, hpCondition⟩ := hp
  obtain ⟨⟨_, hqAction⟩, hqCondition⟩ := hq
  have htrue : ∀ {c : Option Expr}, c.all (Expr.holds env) = true →
      ∀ e ∈ c, e.eval env = .ok (.bool true) := by
    rintro c hc e he
    cases he
    exact Expr.holds_iff.mp hc
  have hactions := overlappingActions_ne_nil hpAction hqAction
  have hdisjoint := not_provablyDisjoint (htrue hpCondition) (htrue hqCondition)
  refine ⟨_, if_neg ?_, rfl, rfl, rfl⟩
  rintro (hne | hnil | hdis)
  · exact hne hresource
  · exact hactions hnil
  · rw [hdisjoint] at hdis
    cases hdis

theorem conflictKind_cases (p q : Rule) (common : List String) :
    (p.effect ≠ q.effect → conflictKind p q common = .privilegeEscalation ∨
      conflictKind p q common = .allowDeny) ∧
    (p.effect = q.effect → conflictKind p q common = .redundant ∨
      conflictKind p q common = .contradiction) := by
  unfold conflictKind
  constructor
  · intro hne
    rw [if_pos hne]
    split_ifs
    · exact Or.inl rfl
    · exact Or.inr rfl
  · intro heq
    rw [if_neg (not_not_intro heq)]
    split_ifs
    · exact Or.inl rfl
    · exact Or.inr rfl

/-- **No conflict is missed.** Two rules of a compiled text on the same resource
whose policies match one request are a conflict of the report: of effects if
these differ, and a repetition or an overlap if they agree. -/
theorem conflict_of_matched_together {o : Options} {source : String} {ir : PolicySet}
    {program : Program} {i j : Nat} {p q : Rule}
    (hcompile : (compile o source).policySet = some ir)
    (hprogram : Program.ofTokens o.maxErrors (TokenStream.scan source).1 = .ok program)
    (hij : i < j) (hp : program.rules[i]? = some p) (hq : program.rules[j]? = some q)
    (hresource : p.resource = q.resource)
    (request : Request) (context : CallerContext) (now : Moment)
    (hpMatched : p.toPolicy ∈ ((Engine.load ir).decide request context now).matched)
    (hqMatched : q.toPolicy ∈ ((Engine.load ir).decide request context now).matched) :
    ∃ report c, (compile o source).report = some report ∧ c ∈ report.conflicts ∧
      c.first = p ∧ c.second = q ∧
      (p.effect ≠ q.effect → c.kind = .privilegeEscalation ∨ c.kind = .allowDeny) ∧
      (p.effect = q.effect → c.kind = .redundant ∨ c.kind = .contradiction) := by
  obtain ⟨program', hprogram', hreport, rfl⟩ := program_of_compile hcompile
  rw [hprogram] at hprogram'
  cases hprogram'
  have hpMem : p ∈ program.rules := List.mem_of_getElem? hp
  have hqMem : q ∈ program.rules := List.mem_of_getElem? hq
  obtain ⟨env, action, resource, happlies⟩ := applies_of_matched (writable_rules hprogram)
    (List.ne_nil_of_mem hpMem) o.synthesize request context now
  obtain ⟨c, hc, hfirst, hsecond, hkind⟩ := conflict?_of_applies hresource
    (happlies p hpMem hpMatched) (happlies q hqMem hqMatched)
  have hmem : c ∈ (program.analyze o).conflicts := by
    rw [Program.conflicts_analyze]
    exact mem_conflicts hij hp hq hc
  refine ⟨_, c, hreport, hmem, hfirst, hsecond, ?_⟩
  rw [hkind]
  exact conflictKind_cases p q c.actions

/-- A text in which a rule allows what an earlier one denies. -/
def overlappingSource : String :=
  "ROLE r \x7b \x7d USER u \x7b role: r \x7d RESOURCE d \x7b \x7d " ++
    "DENY action: read ON RESOURCE: d ALLOW action: * ON RESOURCE: d IF (user.name == \"u\")"

def overlappingRules : List Rule := [
  ⟨.deny, ["read"], "d", none, 1⟩,
  ⟨.allow, ["*"], "d", some (.binary .equal (.attribute "user" "name" 1)
    (.literal (.string "u") 1) 1), 1⟩]

theorem conflict_of_matched_together_overlapping :
    ∃ report c, (compile {} overlappingSource).report = some report ∧ c ∈ report.conflicts ∧
      c.first.effect = .deny ∧ c.second.effect = .allow ∧
      (c.kind = .privilegeEscalation ∨ c.kind = .allowDeny) := by
  have hsome : ((compile {} overlappingSource).policySet.map fun ir =>
      ((Engine.load ir).decide ⟨"u", "READ", "d"⟩ {} ⟨2024, 1, 1, 0, 0, 0, 0, 0⟩).matched) =
        some (overlappingRules.map Rule.toPolicy) := by decide +kernel
  obtain ⟨ir, hir, hmatched⟩ := Option.map_eq_some_iff.mp hsome
  obtain ⟨program, hprogram, _⟩ := program_of_compile hir
  have hrules : (Program.ofTokens 10 (TokenStream.scan overlappingSource).1).toOption.map
      Program.rules = some overlappingRules := by decide +kernel
  rw [show Program.ofTokens 10 (TokenStream.scan overlappingSource).1 = .ok program from hprogram]
    at hrules
  have hlisted : program.rules = overlappingRules := Option.some.inj hrules
  obtain ⟨report, c, hreport, hc, hfirst, hsecond, hdiffer, _⟩ :=
    conflict_of_matched_together hir hprogram Nat.zero_lt_one
      (congrArg (fun rules => rules[0]?) hlisted) (congrArg (fun rules => rules[1]?) hlisted) rfl
      ⟨"u", "READ", "d"⟩ {} ⟨2024, 1, 1, 0, 0, 0, 0, 0⟩
      (by rw [hmatched]; decide +kernel) (by rw [hmatched]; decide +kernel)
  exact ⟨report, c, hreport, hc, congrArg Rule.effect hfirst, congrArg Rule.effect hsecond,
    hdiffer (by decide)⟩

end AccessPolicy
