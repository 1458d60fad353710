import AccessPolicy.Compilation
import Mathlib.Data.List.Perm.Basic
import Mathlib.Tactic.Common

/-!
# Lenient options

Whether an undefined reference is an error or a warning changes nothing but that. No analysis
looks at the severity of what another one has found, so a report has the same findings, figures
and advice with lenient options, its errors are among those with strict options, and what was
compiled is compiled alike (`compile_of_relaxes`).
-/

namespace AccessPolicy

/-- The first options are the second ones, with undefined roles, undefined resources or both as
warnings if they were errors. -/
structure Options.Relaxes (o' o : Options) : Prop where
  maxErrors : o'.maxErrors = o.maxErrors
  synthesize : o'.synthesize = o.synthesize
  roles : o'.undefinedRoles = o.undefinedRoles ∨ o'.undefinedRoles = .lenient
  resources : o'.undefinedResources = o.undefinedResources ∨ o'.undefinedResources = .lenient

section
variable {o o' : Options} {p : Program}

/-! ## Severities -/

theorem Strictness.severity_of_relaxed {s s' : Strictness} (h : s' = s ∨ s' = .lenient) :
    s'.severity = s.severity ∨ s.severity = .error ∧ s'.severity = .warning := by
  rcases h with rfl | rfl
  · exact Or.inl rfl
  · cases s with
    | strict => exact Or.inr ⟨rfl, rfl⟩
    | lenient => exact Or.inl rfl

/-- A finding is as severe as before, or it was an error and is a warning. -/
theorem Finding.severity_of_relaxes (h : o'.Relaxes o) (f : Finding) :
    f.severity o' = f.severity o ∨ f.severity o = .error ∧ f.severity o' = .warning := by
  cases f with
  | undefinedUserRole user role => exact Strictness.severity_of_relaxed h.roles
  | undefinedConditionRole role => exact Strictness.severity_of_relaxed h.roles
  | undefinedResource name => exact Strictness.severity_of_relaxed h.resources
  | _ => exact Or.inl rfl

theorem Remark.severity_eq_error_of_relaxes (h : o'.Relaxes o) {m : Remark}
    (herror : m.severity o' = .error) : m.severity o = .error := by
  rcases Finding.severity_of_relaxes h m.finding with hsame | ⟨hsevere, _⟩
  · exact hsame.symm.trans herror
  · exact hsevere

theorem Remark.diagnostic_of_relaxes (h : o'.Relaxes o) {m : Remark}
    (herror : m.severity o' = .error) : m.diagnostic o' = m.diagnostic o := by
  unfold diagnostic
  rw [herror, severity_eq_error_of_relaxes h herror]

/-! ## Reports -/

namespace Report

theorem isError_diagnostic (r : Report) (m : Remark) :
    (m.diagnostic r.options).isError = r.isError m := rfl

theorem isError_of_mem_errors {r : Report} {d : Diagnostic} (hd : d ∈ r.errors) :
    d.isError = true := by
  obtain ⟨m, hm, rfl⟩ := List.mem_map.mp hd
  exact (List.mem_filter.mp hm).2

theorem isError_of_mem_warnings {r : Report} {d : Diagnostic} (hd : d ∈ r.warnings) :
    d.isError = false := by
  obtain ⟨m, hm, rfl⟩ := List.mem_map.mp hd
  have hmild := (List.mem_filter.mp hm).2
  rw [isError_diagnostic]
  simpa using hmild

theorem filter_isError_diagnostics (r : Report) :
    r.diagnostics.filter Diagnostic.isError = r.errors := by
  have herrors : r.errors.filter Diagnostic.isError = r.errors := by
    rw [List.filter_eq_self]
    intro d hd
    exact isError_of_mem_errors hd
  have hwarnings : r.warnings.filter Diagnostic.isError = [] := by
    rw [List.filter_eq_nil_iff]
    intro d hd
    rw [isError_of_mem_warnings hd]
    exact Bool.false_ne_true
  unfold diagnostics
  rw [List.filter_append, herrors, hwarnings, List.append_nil]

theorem diagnostics_perm (r : Report) :
    r.diagnostics.Perm (r.remarks.map (Remark.diagnostic r.options)) := by
  unfold diagnostics errors warnings
  rw [← List.map_append]
  exact (List.filter_append_perm _ _).map _

theorem stage_of_mem_diagnostics {r : Report} {d : Diagnostic} (hd : d ∈ r.diagnostics) :
    d.stage = .semantic := by
  obtain ⟨m, _, rfl⟩ := List.mem_map.mp (r.diagnostics_perm.mem_iff.mp hd)
  rfl

end Report

def Diagnostic.content (d : Diagnostic) : Nat × String := (d.line, d.message)

/-- No analysis looks at the strictness. -/
theorem Program.analyze_of_relaxes (h : o'.Relaxes o) :
    p.analyze o' = { p.analyze o with options := o' } := by
  have hrisks : ∀ ds, checkRisks o' ds = checkRisks o ds := by
    intro ds
    unfold checkRisks roleRisks
    rw [h.synthesize]
  unfold analyze
  dsimp only
  rw [hrisks]

theorem Program.remarks_of_relaxes (h : o'.Relaxes o) :
    (p.analyze o').remarks = (p.analyze o).remarks := by
  rw [analyze_of_relaxes h]

/-- The errors of the lenient options are some of those of the strict ones, in order. -/
theorem Program.errors_of_relaxes (h : o'.Relaxes o) :
    (p.analyze o').errors.Sublist (p.analyze o).errors := by
  have hsame : (p.analyze o').errors =
      ((p.analyze o').remarks.filter (p.analyze o').isError).map (Remark.diagnostic o) := by
    apply List.map_congr_left
    intro m hm
    exact Remark.diagnostic_of_relaxes h (of_decide_eq_true (List.mem_filter.mp hm).2)
  rw [hsame, remarks_of_relaxes h]
  apply List.Sublist.map
  apply List.monotone_filter_right
  intro m hm
  exact decide_eq_true (Remark.severity_eq_error_of_relaxes h (of_decide_eq_true hm))

/-- Errors and warnings together say the same. -/
theorem Program.content_of_relaxes (h : o'.Relaxes o) :
    ((p.analyze o').diagnostics.map Diagnostic.content).Perm
      ((p.analyze o).diagnostics.map Diagnostic.content) := by
  have hcontents : ∀ o : Options, ((p.analyze o).diagnostics.map Diagnostic.content).Perm
      ((p.analyze o).remarks.map fun m => (m.line, m.message)) := by
    intro o
    have hperm := (p.analyze o).diagnostics_perm.map Diagnostic.content
    rwa [List.map_map] at hperm
  have hlenient := hcontents o'
  rw [remarks_of_relaxes h] at hlenient
  exact hlenient.trans (hcontents o).symm

/-! ## Compilations -/

namespace Compilation

def semantic (c : Compilation) : List Diagnostic :=
  c.diagnostics.filter fun d => d.stage = .semantic

/-- Two compilations have the same results and find the same, if not with the same severity. -/
structure SameFindings (c' c : Compilation) : Prop where
  tokens : c'.tokens = c.tokens
  listing : c'.listing = c.listing
  conflicts : c'.report.map Report.conflicts = c.report.map Report.conflicts
  statistics : c'.report.map Report.statistics = c.report.map Report.statistics
  securityIssues : c'.report.map Report.securityIssues = c.report.map Report.securityIssues
  recommendations : c'.report.map Report.recommendations = c.report.map Report.recommendations
  symbols : c'.report.map Report.symbols = c.report.map Report.symbols
  contents : (c'.semantic.map Diagnostic.content).Perm (c.semantic.map Diagnostic.content)

theorem SameFindings.refl (c : Compilation) : c.SameFindings c :=
  ⟨rfl, rfl, rfl, rfl, rfl, rfl, rfl, .refl _⟩

end Compilation

theorem compile_eq_of_read {source : String}
    (hread : Program.ofTokens o.maxErrors (TokenStream.scan source).1 = .ok p) :
    compile o source = {
      tokens := (TokenStream.scan source).1.tokens
      listing := some p.listing
      diagnostics := (TokenStream.scan source).2 ++ (p.analyze o).diagnostics
      report := some (p.analyze o)
      policySet :=
        if ((TokenStream.scan source).2 ++ (p.analyze o).diagnostics).any Diagnostic.isError then
          none
        else some (.ofProgram o.synthesize p) } := by
  unfold compile
  dsimp only
  rw [hread]

theorem compile_eq_of_unread (h : o'.Relaxes o) {source : String} {errors : List Diagnostic}
    (hread : Program.ofTokens o.maxErrors (TokenStream.scan source).1 = .error errors) :
    compile o' source = compile o source := by
  have hread' : Program.ofTokens o'.maxErrors (TokenStream.scan source).1 = .error errors := by
    rw [h.maxErrors, hread]
  unfold compile
  dsimp only
  rw [hread, hread']

namespace Compilation
variable {source : String}

theorem errors_of_read
    (hread : Program.ofTokens o.maxErrors (TokenStream.scan source).1 = .ok p) :
    (compile o source).errors =
      (TokenStream.scan source).2.filter Diagnostic.isError ++ (p.analyze o).errors := by
  unfold errors
  rw [compile_eq_of_read hread, List.filter_append, Report.filter_isError_diagnostics]

theorem policySet_eq_some_of_read {ir : PolicySet}
    (hread : Program.ofTokens o.maxErrors (TokenStream.scan source).1 = .ok p) :
    (compile o source).policySet = some ir ↔
      (compile o source).errors = [] ∧ PolicySet.ofProgram o.synthesize p = ir := by
  unfold errors
  rw [compile_eq_of_read hread, List.filter_eq_nil_iff]
  dsimp only
  split_ifs with herror
  · obtain ⟨d, hd, hsevere⟩ := List.any_eq_true.mp herror
    constructor
    · intro hnone
      cases hnone
    · rintro ⟨hharmless, _⟩
      exact absurd hsevere (hharmless d hd)
  · rw [List.any_eq_true] at herror
    constructor
    · intro hsome
      refine ⟨?_, Option.some.inj hsome⟩
      intro d hd hsevere
      exact herror ⟨d, hd, hsevere⟩
    · rintro ⟨_, rfl⟩
      rfl

theorem semantic_of_read
    (hread : Program.ofTokens o.maxErrors (TokenStream.scan source).1 = .ok p) :
    (compile o source).semantic =
      ((TokenStream.scan source).2.filter fun d => d.stage = .semantic) ++
        (p.analyze o).diagnostics := by
  have hall : ((p.analyze o).diagnostics.filter fun d => d.stage = .semantic) =
      (p.analyze o).diagnostics := by
    rw [List.filter_eq_self]
    intro d hd
    exact decide_eq_true (Report.stage_of_mem_diagnostics hd)
  unfold semantic
  rw [compile_eq_of_read hread, List.filter_append, hall]

theorem sameFindings_of_read (h : o'.Relaxes o)
    (hread : Program.ofTokens o.maxErrors (TokenStream.scan source).1 = .ok p) :
    (compile o' source).SameFindings (compile o source) := by
  have hread' : Program.ofTokens o'.maxErrors (TokenStream.scan source).1 = .ok p := by
    rw [h.maxErrors, hread]
  have hcontents : ((compile o' source).semantic.map Diagnostic.content).Perm
      ((compile o source).semantic.map Diagnostic.content) := by
    rw [semantic_of_read hread, semantic_of_read hread', List.map_append, List.map_append]
    apply List.Perm.append_left
    exact Program.content_of_relaxes h
  constructor
  case contents => exact hcontents
  case tokens | listing => rw [compile_eq_of_read hread, compile_eq_of_read hread']
  -- the reports have the same findings, and no figure reads the options
  all_goals
    rw [compile_eq_of_read hread, compile_eq_of_read hread', Program.analyze_of_relaxes h]
    rfl

end Compilation

/-- **Strictness is severity.** With undefined references as warnings, a text has the same
tokens, listing, conflicts, figures, advice and symbols, and the diagnostics about its meaning
say the same on the same lines. The errors are some of those that there were before, and what
was compiled is compiled to the same policy set. -/
theorem compile_of_relaxes (h : o'.Relaxes o) (source : String) :
    (compile o' source).SameFindings (compile o source) ∧
      (compile o' source).errors.Sublist (compile o source).errors ∧
      ∀ ir, (compile o source).policySet = some ir → (compile o' source).policySet = some ir := by
  cases hread : Program.ofTokens o.maxErrors (TokenStream.scan source).1 with
  | error errors =>
      rw [compile_eq_of_unread h hread]
      exact ⟨.refl _, List.Sublist.refl _, fun _ hir => hir⟩
  | ok p =>
      have hread' : Program.ofTokens o'.maxErrors (TokenStream.scan source).1 = .ok p := by
        rw [h.maxErrors, hread]
      have herrors : (compile o' source).errors.Sublist (compile o source).errors := by
        rw [Compilation.errors_of_read hread, Compilation.errors_of_read hread']
        exact (Program.errors_of_relaxes h).append_left _
      refine ⟨Compilation.sameFindings_of_read h hread, herrors, ?_⟩
      intro ir hir
      rw [Compilation.policySet_eq_some_of_read hread] at hir
      rw [Compilation.policySet_eq_some_of_read hread', h.synthesize]
      obtain ⟨hnone, hset⟩ := hir
      rw [hnone] at herrors
      exact ⟨List.sublist_nil.mp herrors, hset⟩

/-- A text with a user whose role is not defined, and a rule about a resource that is not. -/
def danglingSource : String :=
  "USER ann \x7brole: ghost\x7d ALLOW action: read ON RESOURCE: vault"

/-- Of the two errors of that text one is left if undefined roles are warnings. -/
theorem compile_of_relaxes_dangling :
    (⟨10, .lenient, .strict, true⟩ : Options).Relaxes {} ∧
      (compile {} danglingSource).errors.length = 2 ∧
      (compile ⟨10, .lenient, .strict, true⟩ danglingSource).errors.length = 1 ∧
      (compile ⟨10, .lenient, .strict, true⟩ danglingSource).SameFindings
        (compile {} danglingSource) := by
  have hrelaxes : (⟨10, .lenient, .strict, true⟩ : Options).Relaxes {} :=
    ⟨rfl, rfl, Or.inr rfl, Or.inl rfl⟩
  obtain ⟨hsame, _⟩ := compile_of_relaxes hrelaxes danglingSource
  exact ⟨hrelaxes, by decide +kernel, by decide +kernel, hsame⟩

end
end AccessPolicy
