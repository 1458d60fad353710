import AccessPolicy.Proofs.Interpreter
import Mathlib.Data.List.Induction
import Mathlib.Data.List.Nodup

/-!
# What a compiled program is

The analysis registers the definitions of a program one after the other. It
declares the first of every name, whatever the kind (`Declarations.records_ofProgram`),
and reports the others as errors. A program that is compiled has no error, so its
definitions of one kind have distinct names (`Program.Accepted.nodup_names`).
-/

namespace AccessPolicy

/-! ## First definitions -/

theorem firstNamed_go_concat (seen : List String) (ds : List Definition) (d : Definition) :
    firstNamed.go seen (ds ++ [d]) = firstNamed.go seen ds ++
      if d.name ∈ seen ∨ ∃ e ∈ ds, e.name = d.name then [] else [d] := by
  induction ds generalizing seen with
  | nil => simp [firstNamed.go]
  | cons e ds ih =>
      rw [List.cons_append, firstNamed.go, firstNamed.go, ih, ih]
      simp only [List.exists_mem_cons_iff]
      by_cases hseen : e.name ∈ seen
      · have hsame : (d.name ∈ seen ∨ e.name = d.name ∨ ∃ x ∈ ds, x.name = d.name) ↔
            d.name ∈ seen ∨ ∃ x ∈ ds, x.name = d.name := by
          constructor
          · rintro (h | h | h)
            · exact Or.inl h
            · exact Or.inl (h ▸ hseen)
            · exact Or.inr h
          · exact Or.imp_right Or.inr
        rw [if_pos hseen, if_pos hseen]
        simp only [hsame]
      · have hsame : (d.name ∈ e.name :: seen ∨ ∃ x ∈ ds, x.name = d.name) ↔
            d.name ∈ seen ∨ e.name = d.name ∨ ∃ x ∈ ds, x.name = d.name := by
          rw [List.mem_cons, or_assoc, or_left_comm, eq_comm]
        rw [if_neg hseen, if_neg hseen, List.cons_append]
        simp only [hsame]

theorem firstNamed_concat (ds : List Definition) (d : Definition) :
    firstNamed (ds ++ [d]) =
      firstNamed ds ++ if ∃ e ∈ ds, e.name = d.name then [] else [d] := by
  have h := firstNamed_go_concat [] ds d
  simpa [firstNamed] using h

theorem firstNamed_of_nodup {ds : List Definition} (h : (ds.map Definition.name).Nodup) :
    firstNamed ds = ds := by
  induction ds using List.reverseRecOn with
  | nil => rfl
  | append_singleton ds d ih =>
      rw [List.map_append, List.map_singleton, List.nodup_append] at h
      obtain ⟨hds, _, hnew⟩ := h
      have hd : ¬∃ e ∈ ds, e.name = d.name := by
        rintro ⟨e, he, hname⟩
        exact hnew _ (List.mem_map_of_mem he) _ (List.mem_singleton_self _) hname
      rw [firstNamed_concat, ih hds, if_neg hd]

/-! ## Declarations -/

namespace Program

theorem definitions_concat (ss : List Statement) (s : Statement) (kind : DefinitionKind) :
    definitions ⟨ss ++ [s]⟩ kind = definitions ⟨ss⟩ kind ++ definitions ⟨[s]⟩ kind :=
  List.filterMap_append

theorem definitions_concat_rule (ss : List Statement) (r : Rule) (kind : DefinitionKind) :
    definitions ⟨ss ++ [.rule r]⟩ kind = definitions ⟨ss⟩ kind := by
  rw [definitions_concat]
  exact List.append_nil _

theorem definitions_concat_definition (ss : List Statement) (kind kind' : DefinitionKind)
    (d : Definition) :
    definitions ⟨ss ++ [.definition kind d]⟩ kind' =
      definitions ⟨ss⟩ kind' ++ if kind = kind' then [d] else [] := by
  rw [definitions_concat]
  congr 1
  unfold definitions
  split_ifs with h
  · simp [h]
  · simp [h]

end Program

namespace Declarations

def declared (ds : Declarations) : DefinitionKind → List Definition
  | .role => ds.roles
  | .user => ds.users
  | .resource => ds.resources

theorem declared_register (ds : Declarations) (kind kind' : DefinitionKind) (d : Definition) :
    (ds.register kind d).declared kind' =
      ds.declared kind' ++ if kind = kind' then [d] else [] := by
  cases kind <;> cases kind' <;> simp [register, declared]

theorem symbolKind_injective : Function.Injective DefinitionKind.symbolKind := by
  intro kind kind' h
  cases kind <;> cases kind' <;> first | rfl | cases h

theorem find?_extend_symbol (scope : Scope) (kind kind' : DefinitionKind) (d : Definition)
    (name : String) :
    (scope.extend (d.symbol kind)).find? kind'.symbolKind name =
      (scope.find? kind'.symbolKind name).or (if kind = kind' ∧ d.name = name then
        some { d.symbol kind with scopeLevel := scope.level } else none) := by
  have hsymbol : (d.symbol kind).kind = kind'.symbolKind ∧ (d.symbol kind).name = name ↔
      kind = kind' ∧ d.name = name := and_congr symbolKind_injective.eq_iff Iff.rfl
  rw [Scope.find?_extend]
  simp only [hsymbol]

theorem define_outermost (scope : Scope) (symbol : Symbol) :
    (⟨[scope], 0⟩ : SymbolTable).define symbol =
      match scope.find? symbol.kind symbol.name with
      | some first => .error first
      | none => .ok ⟨[scope.extend symbol], 0⟩ := by
  unfold SymbolTable.define
  rfl

section
variable {ds : Declarations} {scope : Scope} {kind : DefinitionKind} {d : Definition}

theorem add_definition_known (hscope : ds.symbols = ⟨[scope], 0⟩) {first : Symbol}
    (hfirst : scope.find? kind.symbolKind d.name = some first) :
    ds.add (.definition kind d) = { ds with
      duplicates := ds.duplicates ++ [⟨d.line, .duplicate kind d.name first.line⟩] } := by
  unfold add
  dsimp only
  rw [hscope, define_outermost, show scope.find? (d.symbol kind).kind (d.symbol kind).name =
    some first from hfirst]

theorem add_definition_new (hscope : ds.symbols = ⟨[scope], 0⟩)
    (hnew : scope.find? kind.symbolKind d.name = none) :
    ds.add (.definition kind d) =
      { ds.register kind d with symbols := ⟨[scope.extend (d.symbol kind)], 0⟩ } := by
  unfold add
  dsimp only
  rw [hscope, define_outermost, show scope.find? (d.symbol kind).kind (d.symbol kind).name =
    none from hnew]

end

/-- The symbols of the outermost scope are the definitions of a program, by name. -/
def KnowsNames (symbols : SymbolTable) (p : Program) : Prop :=
  ∃ scope : Scope, symbols = ⟨[scope], 0⟩ ∧ ∀ (kind : DefinitionKind) (name : String),
    (scope.find? kind.symbolKind name).isSome = true ↔ ∃ d ∈ p.definitions kind, d.name = name

/-- What the analysis keeps of the statements that it has seen. -/
structure Records (ds : Declarations) (p : Program) : Prop where
  symbols : KnowsNames ds.symbols p
  declared : ∀ kind, ds.declared kind = firstNamed (p.definitions kind)
  rules : ds.rules = p.rules
  duplicates : ∀ m ∈ ds.duplicates, ∃ kind name line, m.finding = .duplicate kind name line
  nodup : ds.duplicates = [] → ∀ kind, ((p.definitions kind).map Definition.name).Nodup

theorem knowsNames_initial : KnowsNames .initial ⟨[]⟩ := by
  refine ⟨_, rfl, fun kind name => ?_⟩
  have hnone : ∀ x ∈ namespaces.map fun n => SymbolTable.builtin n.1 n.2,
      ¬(x.kind = kind.symbolKind && x.name = name) = true := by
    intro x hx h
    obtain ⟨n, _, rfl⟩ := List.mem_map.mp hx
    rw [Bool.and_eq_true, decide_eq_true_eq] at h
    cases kind <;> cases h.1
  constructor
  · intro h
    rw [Scope.find?_eq, SymbolTable.symbols_global, List.find?_eq_none.mpr hnone] at h
    cases h
  · rintro ⟨d, hd, _⟩
    cases hd

theorem records_empty : empty.Records ⟨[]⟩ where
  symbols := knowsNames_initial
  declared kind := by cases kind <;> rfl
  rules := rfl
  duplicates m hm := by cases hm
  nodup _ kind := List.nodup_nil

section
variable {ds : Declarations} {ss : List Statement}

theorem Records.add_rule (h : ds.Records ⟨ss⟩) (r : Rule) :
    (ds.add (.rule r)).Records ⟨ss ++ [.rule r]⟩ := by
  obtain ⟨⟨scope, hscope, hknown⟩, hdeclared, hrules, hduplicates, hnodup⟩ := h
  constructor
  case symbols =>
    refine ⟨scope, hscope, fun kind name => ?_⟩
    rw [Program.definitions_concat_rule]
    exact hknown kind name
  case declared =>
    intro kind
    rw [Program.definitions_concat_rule, ← hdeclared kind]
    cases kind <;> rfl
  case rules =>
    show ds.rules ++ [r] = _
    rw [hrules]
    simp [Program.rules]
  case duplicates => exact hduplicates
  case nodup =>
    intro hnil kind
    rw [Program.definitions_concat_rule]
    exact hnodup hnil kind

theorem rules_concat_definition (kind : DefinitionKind) (d : Definition) :
    Program.rules ⟨ss ++ [.definition kind d]⟩ = Program.rules ⟨ss⟩ := by
  simp [Program.rules]

theorem exists_definition_concat {kind kind' : DefinitionKind} {d : Definition} {name : String} :
    (∃ e ∈ Program.definitions ⟨ss ++ [.definition kind d]⟩ kind', e.name = name) ↔
      (∃ e ∈ Program.definitions ⟨ss⟩ kind', e.name = name) ∨ kind = kind' ∧ d.name = name := by
  rw [Program.definitions_concat_definition]
  simp only [List.mem_append, or_and_right, exists_or]
  refine or_congr Iff.rfl ?_
  split_ifs with hkind
  · simp [hkind]
  · simp [hkind]

theorem Records.add_known (h : ds.Records ⟨ss⟩) {kind : DefinitionKind} {d : Definition}
    (hd : ∃ e ∈ Program.definitions ⟨ss⟩ kind, e.name = d.name) :
    (ds.add (.definition kind d)).Records ⟨ss ++ [.definition kind d]⟩ := by
  obtain ⟨⟨scope, hscope, hknown⟩, hdeclared, hrules, hduplicates, hnodup⟩ := h
  obtain ⟨first, hfirst⟩ := Option.isSome_iff_exists.mp ((hknown kind d.name).mpr hd)
  rw [add_definition_known hscope hfirst]
  constructor
  case symbols =>
    refine ⟨scope, hscope, fun kind' name => ?_⟩
    rw [exists_definition_concat, hknown kind' name]
    constructor
    · exact Or.inl
    · rintro (hname | ⟨rfl, rfl⟩)
      · exact hname
      · exact hd
  case declared =>
    intro kind'
    rw [Program.definitions_concat_definition]
    split_ifs with hkind
    · subst hkind
      rw [firstNamed_concat, if_pos hd, List.append_nil, ← hdeclared kind]
      cases kind <;> rfl
    · rw [List.append_nil, ← hdeclared kind']
      cases kind' <;> rfl
  case rules =>
    rw [rules_concat_definition]
    exact hrules
  case duplicates =>
    intro m hm
    rcases List.mem_append.mp hm with hm | hm
    · exact hduplicates m hm
    · rw [List.mem_singleton.mp hm]
      exact ⟨_, _, _, rfl⟩
  case nodup =>
    intro hnil
    exact absurd hnil (List.append_ne_nil_of_right_ne_nil _ (List.cons_ne_nil _ _))

theorem Records.add_new (h : ds.Records ⟨ss⟩) {kind : DefinitionKind} {d : Definition}
    (hd : ¬∃ e ∈ Program.definitions ⟨ss⟩ kind, e.name = d.name) :
    (ds.add (.definition kind d)).Records ⟨ss ++ [.definition kind d]⟩ := by
  obtain ⟨⟨scope, hscope, hknown⟩, hdeclared, hrules, hduplicates, hnodup⟩ := h
  have hfind : scope.find? kind.symbolKind d.name = none :=
    Option.not_isSome_iff_eq_none.mp (mt (hknown kind d.name).mp hd)
  rw [add_definition_new hscope hfind]
  constructor
  case symbols =>
    refine ⟨_, rfl, fun kind' name => ?_⟩
    rw [exists_definition_concat, ← hknown kind' name, find?_extend_symbol, Option.isSome_or,
      Bool.or_eq_true]
    refine or_congr Iff.rfl ?_
    split_ifs with hsame
    · simp [hsame]
    · simp [hsame]
  case declared =>
    intro kind'
    have hregister : ∀ symbols, ({ ds.register kind d with symbols := symbols }).declared kind' =
        (ds.register kind d).declared kind' := by
      intro symbols
      cases kind' <;> rfl
    rw [hregister, declared_register, hdeclared, Program.definitions_concat_definition]
    split_ifs with hkind
    · subst hkind
      rw [firstNamed_concat, if_neg hd]
    · rw [List.append_nil, List.append_nil]
  case rules =>
    rw [rules_concat_definition, ← hrules]
    cases kind <;> rfl
  case duplicates =>
    intro m hm
    refine hduplicates m ?_
    cases kind <;> exact hm
  case nodup =>
    intro hnil kind'
    have hnil' : ds.duplicates = [] := by cases kind <;> exact hnil
    rw [Program.definitions_concat_definition, List.map_append]
    split_ifs with hkind
    · subst hkind
      refine (hnodup hnil' kind).append (List.nodup_singleton _) ?_
      intro name hname hsingle
      obtain ⟨e, he, rfl⟩ := List.mem_map.mp hname
      exact hd ⟨e, he, List.mem_singleton.mp hsingle⟩
    · rw [List.map_nil, List.append_nil]
      exact hnodup hnil' kind'

theorem Records.add (h : ds.Records ⟨ss⟩) (s : Statement) : (ds.add s).Records ⟨ss ++ [s]⟩ := by
  cases s with
  | rule r => exact h.add_rule r
  | definition kind d =>
      by_cases hname : ∃ e ∈ Program.definitions ⟨ss⟩ kind, e.name = d.name
      · exact h.add_known hname
      · exact h.add_new hname

end

/-- What holds of no statements, and of one statement more, holds of a program. -/
theorem ofProgram_induction {motive : Declarations → Program → Prop} (empty : motive empty ⟨[]⟩)
    (add : ∀ ds ss s, motive ds ⟨ss⟩ → motive (ds.add s) ⟨ss ++ [s]⟩) (p : Program) :
    motive (ofProgram p) p := by
  obtain ⟨ss⟩ := p
  induction ss using List.reverseRecOn with
  | nil => exact empty
  | append_singleton ss s ih =>
      unfold ofProgram at ih ⊢
      rw [List.foldl_concat]
      exact add _ _ s ih

/-- **The first definition of a name counts.** -/
theorem records_ofProgram (p : Program) : (ofProgram p).Records p :=
  ofProgram_induction records_empty (fun _ _ s h => h.add s) p

theorem severity_of_mem_duplicates {p : Program} {m : Remark}
    (hm : m ∈ (ofProgram p).duplicates) (o : Options) : m.severity o = .error := by
  obtain ⟨kind, name, line, hfinding⟩ := (records_ofProgram p).duplicates m hm
  rw [Remark.severity, hfinding]
  rfl

end Declarations

/-! ## Compiled programs -/

/-- A program that was read from a text and in which no finding is an error. -/
structure Program.Accepted (o : Options) (source : String) (p : Program) : Prop where
  read : Program.ofTokens o.maxErrors (TokenStream.scan source).1 = .ok p
  harmless : ∀ m ∈ (p.analyze o).remarks, m.severity o ≠ .error

section
variable {o : Options} {source : String} {p : Program}

theorem accepted_of_compile {ir : PolicySet} (h : (compile o source).policySet = some ir)
    (hp : Program.ofTokens o.maxErrors (TokenStream.scan source).1 = .ok p) :
    p.Accepted o source ∧ ir = .ofProgram o.synthesize p := by
  unfold compile at h
  dsimp only at h
  rw [hp] at h
  dsimp only at h
  split_ifs at h with herror
  injection h with h
  refine ⟨⟨hp, fun m hm hsevere => herror ?_⟩, h.symm⟩
  -- a finding that is an error is a diagnostic
  have hmem : m.diagnostic o ∈ (p.analyze o).errors :=
    List.mem_map_of_mem (List.mem_filter.mpr ⟨hm, decide_eq_true hsevere⟩)
  refine List.any_eq_true.mpr ⟨m.diagnostic o, ?_, decide_eq_true hsevere⟩
  exact List.mem_append_right _ (List.mem_append_left _ hmem)

theorem policySet_compile (hscan : (TokenStream.scan source).2 = [])
    (hp : Program.ofTokens o.maxErrors (TokenStream.scan source).1 = .ok p)
    (hsuccess : (p.analyze o).success = true) :
    (compile o source).policySet = some (.ofProgram o.synthesize p) := by
  have herrors : (p.analyze o).errors = [] := List.isEmpty_iff.mp hsuccess
  unfold compile
  dsimp only
  rw [hp, hscan]
  dsimp only
  rw [if_neg]
  rw [List.nil_append, Report.diagnostics, herrors, List.nil_append, List.any_eq_true]
  rintro ⟨d, hd, hsevere⟩
  -- a warning is a finding of another severity
  obtain ⟨m, hm, rfl⟩ := List.mem_map.mp hd
  have hmild : (!(p.analyze o).isError m) = true := (List.mem_filter.mp hm).2
  rw [Bool.not_eq_true'] at hmild
  exact Bool.false_ne_true (hmild.symm.trans hsevere)

/-- A text that is scanned and read without faults has the report of its program, and if this
finds no error also the policy set. -/
theorem compile_of_read (hread : (Program.ofTokens o.maxErrors
      (TokenStream.scan source).1).toOption = some p) (hscan : (TokenStream.scan source).2 = [])
    (hsuccess : (p.analyze o).success = true) :
    (compile o source).policySet = some (.ofProgram o.synthesize p) ∧
      (compile o source).report = some (p.analyze o) := by
  have hprogram := eq_ok_of_toOption hread
  have hcompile := policySet_compile hscan hprogram hsuccess
  obtain ⟨p', hp', hreport, _⟩ := program_of_compile hcompile
  cases hprogram.symm.trans hp'
  exact ⟨hcompile, hreport⟩

theorem Program.name_of_lookup {kind : DefinitionKind} {name : String} {d : Definition}
    (h : p.lookup kind name = some d) : d.name = name := by
  unfold lookup at h
  simpa using List.find?_some h

namespace Program.Accepted

/-- An accepted program has no duplicate definitions. -/
theorem nodup_names (h : p.Accepted o source) (kind : DefinitionKind) :
    ((p.definitions kind).map Definition.name).Nodup := by
  have hrecords := Declarations.records_ofProgram p
  refine hrecords.nodup (List.eq_nil_iff_forall_not_mem.mpr fun m hm => ?_) kind
  have hreported : m ∈ (p.analyze o).remarks :=
    List.mem_append_left _ (List.mem_append_left _ hm)
  exact h.harmless m hreported (Declarations.severity_of_mem_duplicates hm o)

theorem firstNamed_definitions (h : p.Accepted o source) (kind : DefinitionKind) :
    firstNamed (p.definitions kind) = p.definitions kind :=
  firstNamed_of_nodup (h.nodup_names kind)

theorem declared_ofProgram (h : p.Accepted o source) (kind : DefinitionKind) :
    (Declarations.ofProgram p).declared kind = p.definitions kind := by
  rw [(Declarations.records_ofProgram p).declared, h.firstNamed_definitions]

theorem lookup_eq_some_iff (h : p.Accepted o source) {kind : DefinitionKind} {name : String}
    {d : Definition} :
    p.lookup kind name = some d ↔ d ∈ p.definitions kind ∧ d.name = name := by
  constructor
  · intro hlookup
    exact ⟨List.mem_of_find?_eq_some hlookup, name_of_lookup hlookup⟩
  · rintro ⟨hd, rfl⟩
    have hsome : (p.lookup kind d.name).isSome = true :=
      List.find?_isSome.mpr ⟨d, hd, decide_eq_true rfl⟩
    obtain ⟨e, he⟩ := Option.isSome_iff_exists.mp hsome
    have hsame := List.inj_on_of_nodup_map (h.nodup_names kind)
      (List.mem_of_find?_eq_some he) hd (name_of_lookup he)
    rw [he, hsame]

theorem wellFormed_name (h : p.Accepted o source) {kind : DefinitionKind} {d : Definition}
    (hd : d ∈ p.definitions kind) : (Token.ident d.name).WellFormed :=
  wellFormed_of_mem_definitions h.read hd

end Program.Accepted
end
end AccessPolicy
