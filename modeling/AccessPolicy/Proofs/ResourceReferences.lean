import AccessPolicy.Proofs.CompilationStages
import AccessPolicy.Proofs.ReferentialClosure
import AccessPolicy.Proofs.ResourcePatterns

/-!
# Resources of rules, checked and matched

The analysis reports the resource of a rule if no resource has it as its path or its name, while
an engine matches it as a pattern. The two agree on whatever has no star: then nothing is matched
but the resource itself. A path with a star is reported though it matches the paths below it
(`not_reportsUnmatched_below`).
-/

namespace AccessPolicy
open ResourcePattern

/-! ## Messages about resources -/

theorem ne_append_of_not_startsWith {s b : String} (h : ¬b.toList <+: s.toList) (y : String) :
    s ≠ b ++ y := by
  rintro rfl
  rw [String.toList_append] at h
  exact h (List.prefix_append _ _)

theorem not_startsWith_append {a b : String} (hab : ¬a.toList <+: b.toList)
    (hba : ¬b.toList <+: a.toList) (x : String) : ¬b.toList <+: (a ++ x).toList := by
  rw [String.toList_append]
  intro h
  rcases List.prefix_or_prefix_of_prefix h (List.prefix_append a.toList x.toList) with h | h
  · exact hba h
  · exact hab h

theorem append_twice_injective {a b : String} (between : String)
    (h : a ++ (between ++ a) = b ++ (between ++ b)) : a = b := by
  have hlists := congrArg String.toList h
  simp only [String.toList_append] at hlists
  have hlengths := congrArg List.length hlists
  simp only [List.length_append] at hlengths
  rw [← String.toList_inj]
  exact (List.append_inj hlists (by omega)).1

namespace Remark
variable {m : Remark} {line : Nat} {spec : String}

theorem finding_of_message_unmatchedPath
    (h : m.message = message ⟨line, .unmatchedPath spec⟩) : m.finding = .unmatchedPath spec := by
  obtain ⟨line', finding⟩ := m
  cases finding with
  | unmatchedPath path =>
      simp only [message, String.append_right_inj, String.append_left_inj] at h
      rw [h]
  | guestDelete | noAdminContext =>
      simp only [message, String.append_assoc] at h
      exact absurd h (ne_append_of_not_startsWith (by decide) _)
  | _ =>
      simp only [message, String.append_assoc] at h
      exact absurd h (ne_append_of_not_startsWith (not_startsWith_append (by decide) (by decide) _) _)

theorem finding_of_message_undefinedResource
    (h : m.message = message ⟨line, .undefinedResource spec⟩) :
    m.finding = .undefinedResource spec := by
  obtain ⟨line', finding⟩ := m
  cases finding with
  | undefinedResource name =>
      simp only [message, String.append_assoc, String.append_right_inj] at h
      simp only [← String.append_assoc, String.append_left_inj] at h
      rw [String.append_assoc, String.append_assoc] at h
      rw [append_twice_injective _ h]
  | guestDelete | noAdminContext =>
      simp only [message, String.append_assoc] at h
      exact absurd h (ne_append_of_not_startsWith (by decide) _)
  | _ =>
      simp only [message, String.append_assoc] at h
      exact absurd h (ne_append_of_not_startsWith (not_startsWith_append (by decide) (by decide) _) _)

end Remark

/-! ## Findings about resources -/

def Finding.isAboutResource : Finding → Bool
  | .undefinedResource _ => true
  | .unmatchedPath _ => true
  | _ => false

def Rule.missing (r : Rule) : Remark :=
  ⟨r.line, if isPath r.resource then .unmatchedPath r.resource else .undefinedResource r.resource⟩

/-- The resource of a rule is looked up: it is a path, or a single name. -/
def Rule.NamesResource (r : Rule) : Prop :=
  isPath r.resource = true ∨ ∀ c ∈ r.resource.toList, c ≠ '*' ∧ c ≠ '.' ∧ c ≠ '/'

theorem Rule.namesResource_iff {r : Rule} :
    r.NamesResource ↔ isPath r.resource = true ∨ isPlainName r.resource = true := by
  unfold NamesResource
  constructor
  · rintro (hpath | hplain)
    · exact Or.inl hpath
    · exact Or.inr (isPlainName_of_forall hplain).2
  · rintro (hpath | hplain)
    · exact Or.inl hpath
    · refine Or.inr fun c hc => ?_
      unfold isPlainName at hplain
      rw [Bool.not_eq_true', List.any_eq_false] at hplain
      have hother := hplain c hc
      simp only [Bool.or_eq_true, decide_eq_true_eq, not_or] at hother
      exact ⟨hother.1.1, hother.1.2, hother.2⟩

section
variable {ds : Declarations} {t : SymbolTable} {r : Rule} {m : Remark}

theorem mem_checkResource_of_mem_checkRule (hm : m ∈ (checkRule ds t r).2)
    (habout : m.finding.isAboutResource = true) : m ∈ checkResource ds t r := by
  rcases mem_checkRule_cases hm with hresource | hcondition
  · exact hresource
  · have hother : m.finding.isAboutResource = false := by
      cases hfinding : m.finding <;> rw [hfinding] at hcondition
      all_goals first | rfl | cases hcondition
    cases habout.symm.trans hother

theorem not_isAboutResource_of_mem_checkUsers (hm : m ∈ checkUsers ds) :
    m.finding.isAboutResource = false := by
  obtain ⟨user, role, hfinding⟩ := finding_of_mem_checkUsers hm
  rw [hfinding]
  rfl

theorem not_isAboutResource_of_mem_checkRisks {o : Options} (hm : m ∈ checkRisks o ds) :
    m.finding.isAboutResource = false := by
  have hrisk := isRisk_of_mem_checkRisks hm
  cases hfinding : m.finding <;> rw [hfinding] at hrisk
  all_goals first | rfl | cases hrisk

end

section
variable {o : Options} {p : Program} {m : Remark}

theorem Program.exists_checkResource_of_mem_remarks (hm : m ∈ (p.analyze o).remarks)
    (habout : m.finding.isAboutResource = true) :
    ∃ r ∈ p.rules, ∃ scope t, Scope.Global scope p ∧ t.AtOutermost scope ∧
      m ∈ checkResource (Declarations.ofProgram p) t r := by
  have hother : m.finding.isAboutResource ≠ false := by
    rw [habout]
    exact Bool.false_ne_true.symm
  rcases List.mem_append.mp hm with hm | hrisks
  · rcases List.mem_append.mp hm with hduplicates | hreferences
    · obtain ⟨kind, name, line, hfinding⟩ :=
        (Declarations.records_ofProgram p).duplicates m hduplicates
      rw [hfinding] at habout
      cases habout
    · rcases List.mem_append.mp hreferences with husers | hrules
      · exact absurd (not_isAboutResource_of_mem_checkUsers husers) hother
      · obtain ⟨scope, hglobal, hinitial⟩ := Declarations.exists_global p
        obtain ⟨r, hr, t, ht, hfound⟩ := hinitial.exists_of_mem_checkRules hrules
        rw [(Declarations.records_ofProgram p).rules] at hr
        exact ⟨r, hr, scope, t, hglobal, ht, mem_checkResource_of_mem_checkRule hfound habout⟩
  · exact absurd (not_isAboutResource_of_mem_checkRisks hrisks) hother

end

/-- No resource of the set has the resource of the rule as its path or its name. -/
def PolicySet.Lacks (s : PolicySet) (r : Rule) : Prop :=
  ∀ res ∈ s.resources, subject? r.resource res ≠ some r.resource

namespace Program.Accepted
variable {o : Options} {source : String} {p : Program} {r : Rule} {m : Remark}
  {scope : Scope} {t : SymbolTable}

theorem lacks_iff (h : p.Accepted o source) :
    (PolicySet.ofProgram o.synthesize p).Lacks r ↔
      ∀ d ∈ p.resources, subject? r.resource d.toResource ≠ some r.resource := by
  unfold PolicySet.Lacks
  rw [h.resources_ofProgram]
  exact List.forall_mem_map

theorem mem_checkResource_path_iff (h : p.Accepted o source) (hpath : isPath r.resource = true) :
    m ∈ checkResource (Declarations.ofProgram p) t r ↔
      (PolicySet.ofProgram o.synthesize p).Lacks r ∧ m = r.missing := by
  have hresources : (Declarations.ofProgram p).resources = p.resources :=
    h.declared_ofProgram .resource
  have hsubject : ∀ d : Definition, subject? r.resource d.toResource = d.firstText "path" :=
    fun _ => if_pos (of_decide_eq_true hpath)
  have hmissing : r.missing = ⟨r.line, .unmatchedPath r.resource⟩ := by
    unfold Rule.missing
    rw [if_pos hpath]
  rw [h.lacks_iff, hmissing]
  unfold checkResource
  rw [if_pos hpath, hresources]
  simp only [hsubject]
  split_ifs with hfound
  · obtain ⟨d, hd, hsame⟩ := List.any_eq_true.mp hfound
    constructor
    · intro hm
      cases hm
    · rintro ⟨hlacks, _⟩
      exact absurd (of_decide_eq_true hsame) (hlacks d hd)
  · rw [List.any_eq_true] at hfound
    rw [List.mem_singleton]
    constructor
    · intro hm
      exact ⟨fun d hd hsame => hfound ⟨d, hd, decide_eq_true hsame⟩, hm⟩
    · exact And.right

theorem mem_checkResource_name_iff (h : p.Accepted o source) (hglobal : scope.Global p)
    (ht : t.AtOutermost scope) (hpath : ¬isPath r.resource = true) :
    m ∈ checkResource (Declarations.ofProgram p) t r ↔ isPlainName r.resource = true ∧
      (PolicySet.ofProgram o.synthesize p).Lacks r ∧ m = r.missing := by
  have hsubject : ∀ d : Definition, subject? r.resource d.toResource = some d.name :=
    fun _ => if_neg (mt decide_eq_true hpath)
  have hmissing : r.missing = ⟨r.line, .undefinedResource r.resource⟩ := by
    unfold Rule.missing
    rw [if_neg hpath]
  have hresolve : (t.resolve .resource r.resource).isNone = true ↔
      ∀ d ∈ p.resources, d.name ≠ r.resource := by
    rw [ht.resolve, Option.isNone_iff_eq_none, ← Option.not_isSome_iff_eq_none]
    refine (not_congr (hglobal.definitions .resource r.resource)).trans ?_
    simp only [not_exists, not_and, ne_eq]
    rfl
  rw [h.lacks_iff, hmissing]
  unfold checkResource
  rw [if_neg hpath]
  simp only [Bool.and_eq_true, hresolve, hsubject, ne_eq, Option.some.injEq]
  split_ifs with hnone
  · rw [List.mem_singleton]
    exact ⟨fun hm => ⟨hnone.1, hnone.2, hm⟩, fun hm => hm.2.2⟩
  · constructor
    · intro hm
      cases hm
    · rintro ⟨hplain, hlacks, _⟩
      exact absurd ⟨hplain, hlacks⟩ hnone

/-- The check of a rule's resource finds just that it is not there. -/
theorem mem_checkResource_iff (h : p.Accepted o source) (hglobal : scope.Global p)
    (ht : t.AtOutermost scope) :
    m ∈ checkResource (Declarations.ofProgram p) t r ↔
      r.NamesResource ∧ (PolicySet.ofProgram o.synthesize p).Lacks r ∧ m = r.missing := by
  rw [Rule.namesResource_iff]
  by_cases hpath : isPath r.resource = true
  · rw [h.mem_checkResource_path_iff hpath]
    exact (and_iff_right (Or.inl hpath)).symm
  · rw [h.mem_checkResource_name_iff hglobal ht hpath, or_iff_right hpath]

theorem lacks_of_mem_remarks (h : p.Accepted o source) (hm : m ∈ (p.analyze o).remarks)
    (hfinding : m.finding = .unmatchedPath r.resource ∨
      m.finding = .undefinedResource r.resource) :
    (PolicySet.ofProgram o.synthesize p).Lacks r := by
  have habout : m.finding.isAboutResource = true := by
    rcases hfinding with hfinding | hfinding <;> rw [hfinding] <;> rfl
  obtain ⟨r', _, scope, t, hglobal, ht, hfound⟩ :=
    Program.exists_checkResource_of_mem_remarks hm habout
  obtain ⟨_, hlacks, rfl⟩ := (h.mem_checkResource_iff hglobal ht).mp hfound
  -- it was found for a rule with the same resource
  have hsame : r'.resource = r.resource := by
    unfold Rule.missing at hfinding
    dsimp only at hfinding
    split_ifs at hfinding
    · rcases hfinding with hfinding | hfinding
      · exact Finding.unmatchedPath.inj hfinding
      · cases hfinding
    · rcases hfinding with hfinding | hfinding
      · cases hfinding
      · exact Finding.undefinedResource.inj hfinding
  unfold PolicySet.Lacks at hlacks ⊢
  rwa [hsame] at hlacks

theorem missing_mem_remarks (h : p.Accepted o source) (hr : r ∈ p.rules)
    (hnames : r.NamesResource) (hlacks : (PolicySet.ofProgram o.synthesize p).Lacks r) :
    r.missing ∈ (p.analyze o).remarks := by
  obtain ⟨scope, t, hglobal, ht, hfound⟩ := Program.exists_checkRule (o := o) hr
  have hchecked := (h.mem_checkResource_iff hglobal ht).mpr ⟨hnames, hlacks, rfl⟩
  refine hfound _ ?_
  unfold checkRule
  dsimp only
  cases r.condition with
  | none => exact hchecked
  | some e => exact List.mem_append_left _ hchecked

end Program.Accepted

/-! ## What a compilation says about resources -/

/-- Some diagnostic on the line of the rule tells that its resource is not there. -/
def Rule.Reported (r : Rule) (ds : List Diagnostic) : Prop :=
  ∃ d ∈ ds, d.line = r.line ∧
    (d.message = Remark.message ⟨r.line, .unmatchedPath r.resource⟩ ∨
      d.message = Remark.message ⟨r.line, .undefinedResource r.resource⟩)

section
variable {o : Options} {source : String} {ir : PolicySet} {p : Program} {r : Rule}

theorem mem_diagnostics_iff_of_compile (hcompile : (compile o source).policySet = some ir)
    (hp : Program.ofTokens o.maxErrors (TokenStream.scan source).1 = .ok p) {d : Diagnostic} :
    d ∈ (compile o source).diagnostics ↔
      ∃ m ∈ (p.analyze o).remarks, m.diagnostic o = d := by
  have hnone : (compile o source).errors = [] :=
    ((Compilation.policySet_eq_some_of_read hp).mp hcompile).1
  rw [Compilation.errors_of_read hp, List.append_eq_nil_iff, List.filter_eq_nil_iff] at hnone
  rw [compile_eq_of_read hp, List.mem_append, (p.analyze o).diagnostics_perm.mem_iff,
    List.mem_map]
  constructor
  · rintro (hscan | hfound)
    · have hsevere := (TokenStream.blocks_of_mem_scan hscan).severity
      exact absurd (decide_eq_true hsevere) (hnone.1 d hscan)
    · exact hfound
  · exact Or.inr

/-- A rule that names a resource is reported just if the set lacks it. -/
theorem reported_iff_lacks (hcompile : (compile o source).policySet = some ir)
    (hp : Program.ofTokens o.maxErrors (TokenStream.scan source).1 = .ok p) (hr : r ∈ p.rules)
    (hnames : r.NamesResource) :
    r.Reported (compile o source).diagnostics ↔ ir.Lacks r := by
  obtain ⟨h, rfl⟩ := accepted_of_compile hcompile hp
  constructor
  · rintro ⟨d, hd, _, hmessage⟩
    obtain ⟨m, hm, rfl⟩ := (mem_diagnostics_iff_of_compile hcompile hp).mp hd
    exact h.lacks_of_mem_remarks hm (hmessage.imp Remark.finding_of_message_unmatchedPath
      Remark.finding_of_message_undefinedResource)
  · intro hlacks
    have hmem := h.missing_mem_remarks hr hnames hlacks
    refine ⟨r.missing.diagnostic o, ?_, rfl, ?_⟩
    · exact (mem_diagnostics_iff_of_compile hcompile hp).mpr ⟨_, hmem, rfl⟩
    · unfold Rule.missing
      split_ifs
      · exact Or.inl rfl
      · exact Or.inr rfl

end

/-! ## Matching -/

namespace PolicySet
variable {s : PolicySet} {r : Rule}

theorem lacks_of_unmatched (h : ∀ res ∈ s.resources, matchesResource r.resource res = false) :
    s.Lacks r := by
  intro res hres hsubject
  have hmatches : matchesResource r.resource res = true :=
    matchesResource_iff.mpr ⟨_, hsubject, matches_self _ _⟩
  rw [h res hres] at hmatches
  cases hmatches

/-- Without a star, a resource that is not there is matched by nothing. -/
theorem lacks_iff_unmatched (hstar : '*' ∉ r.resource.toList) :
    s.Lacks r ↔ ∀ res ∈ s.resources, matchesResource r.resource res = false := by
  refine ⟨fun hlacks res hres => ?_, lacks_of_unmatched⟩
  rw [← Bool.not_eq_true, matchesResource_of_no_star hstar]
  exact hlacks res hres

end PolicySet

/-- **What is reported and what is matched.** In a compiled text, a rule that names a resource is
reported just if no resource has exactly that path or name. Without a star this is the same as
that the rule matches no resource; with one it is just if no path is matched that differs from
the pattern while none is the same. -/
theorem reported_iff_of_compile {o : Options} {source : String} {ir : PolicySet} {p : Program}
    {r : Rule} (hcompile : (compile o source).policySet = some ir)
    (hp : Program.ofTokens o.maxErrors (TokenStream.scan source).1 = .ok p) (hr : r ∈ p.rules)
    (hnames : r.NamesResource) :
    (r.Reported (compile o source).diagnostics ↔ ir.Lacks r) ∧
      ('*' ∉ r.resource.toList → (r.Reported (compile o source).diagnostics ↔
        ∀ res ∈ ir.resources, matchesResource r.resource res = false)) ∧
      ((r.Reported (compile o source).diagnostics ↔
          ∀ res ∈ ir.resources, matchesResource r.resource res = false) ↔
        (ir.Lacks r → ∀ res ∈ ir.resources, matchesResource r.resource res = false)) := by
  have hreported := reported_iff_lacks hcompile hp hr hnames
  refine ⟨hreported, fun hstar => ?_, ?_⟩
  · rw [hreported, PolicySet.lacks_iff_unmatched hstar]
  · rw [hreported]
    exact ⟨Iff.mp, fun hmatched => ⟨hmatched, PolicySet.lacks_of_unmatched⟩⟩

/-! ## A path with a star -/

/-- A rule that names a resource is reported just if it matches none. -/
def ReportsUnmatched (o : Options) (source : String) : Prop :=
  ∀ ir p, (compile o source).policySet = some ir →
    Program.ofTokens o.maxErrors (TokenStream.scan source).1 = .ok p →
    ∀ r ∈ p.rules, r.NamesResource → (r.Reported (compile o source).diagnostics ↔
      ∀ res ∈ ir.resources, matchesResource r.resource res = false)

/-- A text with a resource that has a path, and a rule on a path. -/
def pathSource (path : String) : String :=
  "RESOURCE logs \x7b path: \"/data/a\" \x7d\nALLOW action: read ON RESOURCE: \"" ++ path ++ "\""

def pathProgram (path : String) : Program := ⟨[
  .definition .resource ⟨"logs", [("path", [.string "/data/a"])], 1⟩,
  .rule ⟨.allow, ["read"], path, none, 2⟩]⟩

/-- All paths below another one are reported, and the path there is matches. -/
theorem not_reportsUnmatched_below : ¬ReportsUnmatched {} (pathSource "/data/*") := by
  have hread : (Program.ofTokens 10 (TokenStream.scan (pathSource "/data/*")).1).toOption =
      some (pathProgram "/data/*") := by decide +kernel
  have hp := eq_ok_of_toOption hread
  obtain ⟨hcompile, _⟩ := compile_of_read (o := {}) hread (by decide +kernel) (by decide +kernel)
  have hrule : ⟨.allow, ["read"], "/data/*", none, 2⟩ ∈ (pathProgram "/data/*").rules :=
    List.mem_singleton_self _
  have hnames : Rule.NamesResource ⟨.allow, ["read"], "/data/*", none, 2⟩ :=
    Or.inl (by decide +kernel)
  intro h
  have hunmatched := (h _ _ hcompile hp _ hrule hnames).mp
    ((reported_iff_lacks hcompile hp hrule hnames).mpr (by
      unfold PolicySet.Lacks
      decide +kernel))
  have hmatched := hunmatched _ (List.mem_singleton_self _)
  revert hmatched
  decide +kernel

/-- A path of its own that nothing has is reported, and matches nothing. -/
theorem reported_iff_of_compile_missing :
    ∃ ir p r, (compile {} (pathSource "/data/b")).policySet = some ir ∧
      Program.ofTokens 10 (TokenStream.scan (pathSource "/data/b")).1 = .ok p ∧ r ∈ p.rules ∧
      r.NamesResource ∧ r.resource = "/data/b" ∧
      r.Reported (compile {} (pathSource "/data/b")).diagnostics ∧
      ∀ res ∈ ir.resources, matchesResource r.resource res = false := by
  have hread : (Program.ofTokens 10 (TokenStream.scan (pathSource "/data/b")).1).toOption =
      some (pathProgram "/data/b") := by decide +kernel
  have hp := eq_ok_of_toOption hread
  obtain ⟨hcompile, _⟩ := compile_of_read (o := {}) hread (by decide +kernel) (by decide +kernel)
  have hrule : ⟨.allow, ["read"], "/data/b", none, 2⟩ ∈ (pathProgram "/data/b").rules :=
    List.mem_singleton_self _
  have hnames : Rule.NamesResource ⟨.allow, ["read"], "/data/b", none, 2⟩ :=
    Or.inl (by decide +kernel)
  obtain ⟨hreported, hunmatched, _⟩ := reported_iff_of_compile hcompile hp hrule hnames
  have hlacks := hreported.mpr (by
    unfold PolicySet.Lacks
    decide +kernel)
  exact ⟨_, _, _, hcompile, hp, hrule, hnames, rfl, hlacks,
    (hunmatched (by decide +kernel)).mp hlacks⟩

end AccessPolicy
