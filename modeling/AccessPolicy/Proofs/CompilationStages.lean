import AccessPolicy.Proofs.Strictness

/-!
# Stages of a compilation

A text is scanned, read and analysed. What the scanner and the reader find is always an error,
a reader that fails has something to say whatever the limit on errors is, and a report keeps its
errors apart from what is milder. So there is a listing and a report just if the text is read,
and a policy set just if no stage has found an error (`staged_compile`).
-/

namespace AccessPolicy

/-! ## What the stages find -/

/-- The diagnostic is an error that the stage has found. -/
structure Diagnostic.Blocks (s : Stage) (d : Diagnostic) : Prop where
  stage : d.stage = s
  severity : d.severity = .error

theorem Lexeme.blocks_of_mem_faults {pieces : List Lexeme} {line : Nat} {d : Diagnostic}
    (hd : d ∈ faults line pieces) : d.Blocks .lexical := by
  induction pieces generalizing line with
  | nil => cases hd
  | cons l rest ih =>
      unfold faults at hd
      split at hd
      · rcases List.mem_cons.mp hd with rfl | hrest
        · exact ⟨rfl, rfl⟩
        · exact ih hrest
      · exact ih hd

theorem TokenStream.blocks_of_mem_scan {source : String} {d : Diagnostic}
    (hd : d ∈ (scan source).2) : d.Blocks .lexical :=
  Lexeme.blocks_of_mem_faults hd

theorem Unexpected.blocks_diagnostic (endLine : Nat) (u : Unexpected) :
    (u.diagnostic endLine).Blocks .grammatical := by
  unfold diagnostic
  split <;> exact ⟨rfl, rfl⟩

/-- A reader that fails says why, also if no error is to be collected. -/
theorem Program.ne_nil_of_ofTokens {maxErrors : Nat} {stream : TokenStream}
    {errors : List Diagnostic} (hread : ofTokens maxErrors stream = .error errors) :
    errors ≠ [] := by
  unfold ofTokens at hread
  split at hread
  · cases hread
  · next _ failures hsome _ =>
    cases hread
    intro hnone
    exact hsome (List.map_eq_nil_iff.mp hnone)

theorem Program.blocks_of_ofTokens {maxErrors : Nat} {stream : TokenStream}
    {errors : List Diagnostic} (hread : ofTokens maxErrors stream = .error errors)
    {d : Diagnostic} (hd : d ∈ errors) : d.Blocks .grammatical := by
  unfold ofTokens at hread
  split at hread
  · cases hread
  · cases hread
    obtain ⟨u, _, rfl⟩ := List.mem_map.mp hd
    exact u.blocks_diagnostic stream.endLine

/-! ## Diagnostics by stage -/

theorem filter_stage_of_forall {ds : List Diagnostic} {s : Stage} (h : ∀ d ∈ ds, d.stage = s)
    (s' : Stage) : (ds.filter fun d => d.stage = s') = if s = s' then ds else [] := by
  split_ifs with hsame
  · rw [List.filter_eq_self]
    intro d hd
    exact decide_eq_true ((h d hd).trans hsame)
  · rw [List.filter_eq_nil_iff]
    intro d hd hstage
    exact hsame ((h d hd).symm.trans (of_decide_eq_true hstage))

namespace Compilation
variable {o : Options} {source : String}

def ofStage (c : Compilation) (s : Stage) : List Diagnostic :=
  c.diagnostics.filter fun d => d.stage = s

/-- The stages find what the scanner, the reader and the analyses find, in that order, and each
leaves its result just if those before it allow it. -/
structure Staged (o : Options) (source : String) (c : Compilation) : Prop where
  lexical : c.ofStage .lexical = (TokenStream.scan source).2
  grammatical : ∀ errors,
    Program.ofTokens o.maxErrors (TokenStream.scan source).1 = .error errors ↔
      errors ≠ [] ∧ c.ofStage .grammatical = errors
  listing : c.listing.isSome ↔ c.ofStage .grammatical = []
  report : c.report.isSome ↔ c.ofStage .grammatical = []
  unread : c.report = none → c.diagnostics = c.ofStage .lexical ++ c.ofStage .grammatical
  analyzed : ∀ r, c.report = some r →
    c.diagnostics = c.ofStage .lexical ++ (r.errors ++ r.warnings)
  success : (∃ r, c.report = some r ∧ r.success = false) ↔
    ∃ d ∈ c.diagnostics, d.Blocks .semantic
  policySet : c.policySet.isSome ↔ ∀ d ∈ c.diagnostics, d.severity ≠ .error

theorem Staged.policySet_of_mild {c : Compilation} (h : c.Staged o source)
    (hmild : ∀ d ∈ c.diagnostics, d.severity = .warning ∨ d.severity = .risk) :
    c.policySet.isSome := by
  rw [h.policySet]
  intro d hd hsevere
  rcases hmild d hd with hwarning | hrisk
  · cases hsevere.symm.trans hwarning
  · cases hsevere.symm.trans hrisk

theorem errors_eq_nil_iff (c : Compilation) :
    c.errors = [] ↔ ∀ d ∈ c.diagnostics, d.severity ≠ .error := by
  unfold errors Diagnostic.isError
  rw [List.filter_eq_nil_iff]
  simp only [decide_eq_true_eq, ne_eq]

/-! ## A text that is not read -/

section
variable {errors : List Diagnostic}

theorem compile_eq_of_error
    (hread : Program.ofTokens o.maxErrors (TokenStream.scan source).1 = .error errors) :
    compile o source = {
      tokens := (TokenStream.scan source).1.tokens
      listing := none
      diagnostics := (TokenStream.scan source).2 ++ errors
      report := none
      policySet := none } := by
  unfold compile
  dsimp only
  rw [hread]

theorem ofStage_of_error
    (hread : Program.ofTokens o.maxErrors (TokenStream.scan source).1 = .error errors) (s : Stage) :
    (compile o source).ofStage s =
      (if .lexical = s then (TokenStream.scan source).2 else []) ++
        (if .grammatical = s then errors else []) := by
  unfold ofStage
  rw [compile_eq_of_error hread, List.filter_append,
    filter_stage_of_forall fun d hd => (TokenStream.blocks_of_mem_scan hd).stage,
    filter_stage_of_forall fun d hd => (Program.blocks_of_ofTokens hread hd).stage]

theorem staged_of_error
    (hread : Program.ofTokens o.maxErrors (TokenStream.scan source).1 = .error errors) :
    (compile o source).Staged o source := by
  have hne : errors ≠ [] := Program.ne_nil_of_ofTokens hread
  have hlexical : (compile o source).ofStage .lexical = (TokenStream.scan source).2 := by
    rw [ofStage_of_error hread, if_pos rfl, if_neg nofun, List.append_nil]
  have hgrammatical : (compile o source).ofStage .grammatical = errors := by
    rw [ofStage_of_error hread, if_neg nofun, if_pos rfl, List.nil_append]
  obtain ⟨d, hd⟩ := List.exists_mem_of_ne_nil errors hne
  have hmem : d ∈ (compile o source).diagnostics := by
    rw [compile_eq_of_error hread]
    exact List.mem_append_right _ hd
  have hstages : ∀ d ∈ (compile o source).diagnostics, d.stage ≠ .semantic := by
    intro d hd
    rw [compile_eq_of_error hread] at hd
    rcases List.mem_append.mp hd with hscan | herror
    · rw [(TokenStream.blocks_of_mem_scan hscan).stage]
      exact nofun
    · rw [(Program.blocks_of_ofTokens hread herror).stage]
      exact nofun
  have hreport : (compile o source).report = none := by rw [compile_eq_of_error hread]
  have hlisting : (compile o source).listing = none := by rw [compile_eq_of_error hread]
  have hset : (compile o source).policySet = none := by rw [compile_eq_of_error hread]
  constructor
  case lexical => exact hlexical
  case grammatical =>
    intro errors'
    rw [hread, hgrammatical]
    constructor
    · intro hsame
      cases hsame
      exact ⟨hne, rfl⟩
    · rintro ⟨_, rfl⟩
      rfl
  case listing =>
    rw [hlisting, hgrammatical]
    exact ⟨nofun, fun hnone => absurd hnone hne⟩
  case report =>
    rw [hreport, hgrammatical]
    exact ⟨nofun, fun hnone => absurd hnone hne⟩
  case unread =>
    intro _
    rw [hlexical, hgrammatical, compile_eq_of_error hread]
  case analyzed =>
    intro r hsome
    cases hreport.symm.trans hsome
  case success =>
    constructor
    · rintro ⟨r, hsome, _⟩
      cases hreport.symm.trans hsome
    · rintro ⟨d, hd, hsemantic⟩
      exact absurd hsemantic.stage (hstages d hd)
  case policySet =>
    rw [hset]
    have hsevere := (Program.blocks_of_ofTokens hread hd).severity
    exact ⟨nofun, fun hmild => absurd hsevere (hmild d hmem)⟩

end

/-! ## A text that is read -/

section
variable {p : Program}

theorem ofStage_of_read
    (hread : Program.ofTokens o.maxErrors (TokenStream.scan source).1 = .ok p) (s : Stage) :
    (compile o source).ofStage s =
      (if .lexical = s then (TokenStream.scan source).2 else []) ++
        (if .semantic = s then (p.analyze o).diagnostics else []) := by
  unfold ofStage
  rw [compile_eq_of_read hread, List.filter_append,
    filter_stage_of_forall fun d hd => (TokenStream.blocks_of_mem_scan hd).stage,
    filter_stage_of_forall fun d hd => Report.stage_of_mem_diagnostics hd]

theorem blocks_semantic_iff_of_read
    (hread : Program.ofTokens o.maxErrors (TokenStream.scan source).1 = .ok p) {d : Diagnostic} :
    d ∈ (compile o source).diagnostics ∧ d.Blocks .semantic ↔ d ∈ (p.analyze o).errors := by
  have hdiagnostics : (compile o source).diagnostics =
      (TokenStream.scan source).2 ++ (p.analyze o).diagnostics := by
    rw [compile_eq_of_read hread]
  rw [hdiagnostics, ← Report.filter_isError_diagnostics, List.mem_filter, List.mem_append]
  constructor
  · rintro ⟨hscan | hreport, hblocks⟩
    · cases (TokenStream.blocks_of_mem_scan hscan).stage.symm.trans hblocks.stage
    · exact ⟨hreport, decide_eq_true hblocks.severity⟩
  · rintro ⟨hreport, hsevere⟩
    exact ⟨Or.inr hreport, Report.stage_of_mem_diagnostics hreport, of_decide_eq_true hsevere⟩

theorem staged_of_read
    (hread : Program.ofTokens o.maxErrors (TokenStream.scan source).1 = .ok p) :
    (compile o source).Staged o source := by
  have hlexical : (compile o source).ofStage .lexical = (TokenStream.scan source).2 := by
    rw [ofStage_of_read hread, if_pos rfl, if_neg nofun, List.append_nil]
  have hgrammatical : (compile o source).ofStage .grammatical = [] := by
    rw [ofStage_of_read hread, if_neg nofun, if_neg nofun, List.append_nil]
  have hreport : (compile o source).report = some (p.analyze o) := by
    rw [compile_eq_of_read hread]
  have hlisting : (compile o source).listing = some p.listing := by rw [compile_eq_of_read hread]
  constructor
  case lexical => exact hlexical
  case grammatical =>
    intro errors
    rw [hread, hgrammatical]
    constructor
    · intro hsame
      cases hsame
    · rintro ⟨hne, rfl⟩
      exact absurd rfl hne
  case listing =>
    rw [hlisting, hgrammatical]
    exact ⟨fun _ => rfl, fun _ => rfl⟩
  case report =>
    rw [hreport, hgrammatical]
    exact ⟨fun _ => rfl, fun _ => rfl⟩
  case unread =>
    intro hnone
    cases hreport.symm.trans hnone
  case analyzed =>
    intro r hsome
    cases hreport.symm.trans hsome
    rw [hlexical, compile_eq_of_read hread]
    rfl
  case success =>
    constructor
    · rintro ⟨r, hsome, hfailure⟩
      cases hreport.symm.trans hsome
      obtain ⟨d, hd⟩ := List.exists_mem_of_ne_nil _ (List.isEmpty_eq_false_iff.mp hfailure)
      exact ⟨d, (blocks_semantic_iff_of_read hread).mpr hd⟩
    · rintro ⟨d, hd, hblocks⟩
      refine ⟨p.analyze o, hreport, List.isEmpty_eq_false_iff.mpr ?_⟩
      exact List.ne_nil_of_mem ((blocks_semantic_iff_of_read hread).mp ⟨hd, hblocks⟩)
  case policySet =>
    rw [← errors_eq_nil_iff, Option.isSome_iff_exists]
    constructor
    · rintro ⟨ir, hir⟩
      exact ((policySet_eq_some_of_read hread).mp hir).1
    · intro hnone
      exact ⟨_, (policySet_eq_some_of_read hread).mpr ⟨hnone, rfl⟩⟩

end

end Compilation

/-- **The stages of a compilation.** Whatever the text and the options: there is a policy set
just if no diagnostic is an error, and a listing and a report just if the text is read; the
diagnostics are those of the scanner, then those of the reader or else the errors and the
warnings of the report, which is a failure just if there is an error about the meaning; and
warnings and risks alone keep no text from being compiled. -/
theorem staged_compile (o : Options) (source : String) :
    (compile o source).Staged o source ∧
      ((∀ d ∈ (compile o source).diagnostics, d.severity = .warning ∨ d.severity = .risk) →
        (compile o source).policySet.isSome) := by
  have hstaged : (compile o source).Staged o source := by
    cases hread : Program.ofTokens o.maxErrors (TokenStream.scan source).1 with
    | error errors => exact Compilation.staged_of_error hread
    | ok p => exact Compilation.staged_of_read hread
  exact ⟨hstaged, hstaged.policySet_of_mild⟩

end AccessPolicy
