import AccessPolicy.Proofs.CompiledPrograms

/-!
# Scopes

The analysis looks names up in at most two scopes: that of the condition being checked, and
the outermost one, which has the definitions of the program and the built-in namespaces. A
check of a rule leaves what it has opened, so every rule is checked in the same outermost scope
(`Program.exists_checkRule`).
-/

namespace AccessPolicy

/-! ## What the checks of references find -/

def Finding.isAboutCondition : Finding → Bool
  | .undefinedConditionRole _ => true
  | .unknownObject _ => true
  | .unknownAttribute _ _ => true
  | _ => false

section
variable {ds : Declarations} {t : SymbolTable} {r : Rule} {m : Remark}

theorem finding_of_mem_checkUsers (hm : m ∈ checkUsers ds) :
    ∃ user role, m.finding = .undefinedUserRole user role := by
  obtain ⟨u, _, hu⟩ := List.mem_filterMap.mp hm
  split at hu
  · cases hu
  · split_ifs at hu
    cases hu
    exact ⟨_, _, rfl⟩

theorem finding_of_mem_checkResource (hm : m ∈ checkResource ds t r) :
    m.finding = .unmatchedPath r.resource ∨ m.finding = .undefinedResource r.resource := by
  unfold checkResource at hm
  split_ifs at hm
  · cases hm
  · cases List.mem_singleton.mp hm
    exact Or.inl rfl
  · cases List.mem_singleton.mp hm
    exact Or.inr rfl
  · cases hm

theorem mem_checkRule_cases (hm : m ∈ (checkRule ds t r).2) :
    m ∈ checkResource ds t r ∨ m.finding.isAboutCondition = true := by
  unfold checkRule at hm
  dsimp only at hm
  cases hcondition : r.condition with
  | none =>
      rw [hcondition] at hm
      exact Or.inl hm
  | some e =>
      rw [hcondition] at hm
      rcases List.mem_append.mp hm with hresource | hinner
      · exact Or.inl hresource
      · right
        rcases List.mem_append.mp hinner with hattribute | hrole
        · obtain ⟨node, _, hnode⟩ := List.mem_filterMap.mp hattribute
          unfold checkAttribute at hnode
          split at hnode
          · split at hnode
            · cases hnode
              rfl
            · split_ifs at hnode
              cases hnode
              rfl
          · cases hnode
        · obtain ⟨role, _, hnode⟩ := List.mem_filterMap.mp hrole
          unfold checkRole at hnode
          split_ifs at hnode
          cases hnode
          rfl

end

/-! ## Tables of two scopes -/

namespace SymbolTable

/-- The table is in its outermost scope. -/
structure AtOutermost (t : SymbolTable) (outermost : Scope) : Prop where
  current : t.current = 0
  first : t.scopes[0]? = some outermost

/-- The table is in a scope that was opened in the outermost one. -/
structure Within (t : SymbolTable) (inner outermost : Scope) : Prop where
  current : t.scopes[t.current]? = some inner
  first : t.scopes[0]? = some outermost
  parent : inner.parent = some 0
  opened : 0 < t.current

variable {t : SymbolTable} {inner outermost : Scope}

theorem AtOutermost.chain (h : t.AtOutermost outermost) : t.chain = [outermost] := by
  unfold SymbolTable.chain chainFrom
  rw [h.current, h.first]
  dsimp only
  -- a parent would have to be opened before
  cases hparent : outermost.parent with
  | none => rfl
  | some p => exact dif_neg (Nat.not_lt_zero p)

theorem Within.chain (h : t.Within inner outermost) : t.chain = [inner, outermost] := by
  have hlast : chainFrom t.scopes 0 = [outermost] :=
    AtOutermost.chain (t := ⟨t.scopes, 0⟩) ⟨rfl, h.first⟩
  unfold SymbolTable.chain chainFrom
  rw [h.current]
  dsimp only
  rw [h.parent]
  dsimp only
  rw [dif_pos h.opened, hlast]

theorem AtOutermost.resolve (h : t.AtOutermost outermost) (kind : SymbolKind) (name : String) :
    t.resolve kind name = outermost.find? kind name := by
  unfold SymbolTable.resolve
  rw [h.chain]
  cases hfind : outermost.find? kind name <;> simp [hfind]

theorem Within.resolve (h : t.Within inner outermost) (kind : SymbolKind) (name : String) :
    t.resolve kind name = (inner.find? kind name).or (outermost.find? kind name) := by
  unfold SymbolTable.resolve
  rw [h.chain]
  cases hinner : inner.find? kind name <;> cases houter : outermost.find? kind name <;>
    simp [hinner, houter]

theorem AtOutermost.enter (h : t.AtOutermost outermost) (name : String) :
    ∃ inner, (t.enter name).Within inner outermost ∧ inner.symbols = [] := by
  have hlength : 0 < t.scopes.length := by
    obtain ⟨hlt, _⟩ := List.getElem?_eq_some_iff.mp h.first
    exact hlt
  refine ⟨Scope.opened name (t.level + 1) (some t.current), ?_, rfl⟩
  constructor
  · exact List.getElem?_concat_length ..
  · show (t.scopes ++ _)[0]? = _
    rw [List.getElem?_append_left hlength, h.first]
  · exact congrArg some h.current
  · exact hlength

theorem Within.define (h : t.Within inner outermost) {symbol : Symbol}
    (hnew : inner.find? symbol.kind symbol.name = none) :
    ∃ t', t.define symbol = .ok t' ∧ t'.Within (inner.extend symbol) outermost := by
  unfold SymbolTable.define
  rw [h.current]
  dsimp only [Option.bind_some]
  rw [hnew]
  refine ⟨_, rfl, ?_⟩
  constructor
  · show (t.scopes.modify t.current _)[t.current]? = _
    rw [List.getElem?_modify_eq, h.current]
    rfl
  · show (t.scopes.modify t.current _)[0]? = _
    have hother : t.current ≠ 0 := Nat.ne_of_gt h.opened
    simp [hother, h.first]
  · exact h.parent
  · exact h.opened

theorem Within.exit (h : t.Within inner outermost) : t.exit.AtOutermost outermost := by
  unfold SymbolTable.exit
  rw [h.current]
  dsimp only [Option.bind_some]
  rw [h.parent]
  exact ⟨rfl, h.first⟩

end SymbolTable

/-! ## The scope of a condition -/

def Declarations.target? (ds : Declarations) (r : Rule) : Option Definition :=
  ds.resources.find? fun d => d.name = r.resource

/-- In the scope of the condition of a rule only `resource` is bound, and only if the rule names
a defined resource: to the fields of that. -/
structure Scope.Binds (inner : Scope) (target : Option Definition) : Prop where
  free : ∀ kind name, kind ≠ .variable ∨ name ≠ "resource" ∨ target = none →
    inner.find? kind name = none
  bound : ∀ d, target = some d → ∃ symbol, inner.find? .variable "resource" = some symbol ∧
    symbol.attributes = [("fields", .strings (resourceFields d)), ("resource", .string d.name)]

def Rule.resourceSymbol (r : Rule) (d : Definition) : Symbol where
  name := "resource"
  kind := .variable
  attributes := [("fields", .strings (resourceFields d)), ("resource", .string d.name)]
  line := r.line

theorem bindResource_eq (ds : Declarations) (t : SymbolTable) (r : Rule) :
    bindResource ds t r =
      match ds.target? r with
      | none => t
      | some d =>
        match t.define (r.resourceSymbol d) with
        | .ok t' => t'
        | .error _ => t := rfl

namespace SymbolTable
variable {t : SymbolTable} {outermost : Scope}

/-- The scope of a condition is inside the outermost one. -/
theorem AtOutermost.bindResource (h : t.AtOutermost outermost) (ds : Declarations) (r : Rule)
    (name : String) :
    ∃ inner, (bindResource ds (t.enter name) r).Within inner outermost ∧
      inner.Binds (ds.target? r) := by
  obtain ⟨inner, hwithin, hempty⟩ := h.enter name
  have hnone : ∀ kind name, inner.find? kind name = none := by
    intro kind name
    rw [Scope.find?_eq, hempty]
    rfl
  rw [bindResource_eq]
  cases htarget : ds.target? r with
  | none => exact ⟨inner, hwithin, fun kind name _ => hnone kind name, fun d hd => by cases hd⟩
  | some d =>
      dsimp only
      obtain ⟨t', hdefine, hwithin'⟩ := hwithin.define (hnone _ (r.resourceSymbol d).name)
      rw [hdefine]
      refine ⟨_, hwithin', ?_, ?_⟩
      · rintro kind name (hkind | hname | hnone')
        · simp [Scope.find?_extend, hnone, Rule.resourceSymbol, hkind.symm]
        · simp [Scope.find?_extend, hnone, Rule.resourceSymbol, hname.symm]
        · cases hnone'
      · rintro _ ⟨⟩
        refine ⟨{ r.resourceSymbol d with scopeLevel := inner.level }, ?_, rfl⟩
        rw [Scope.find?_extend, hnone, if_pos ⟨rfl, rfl⟩]
        rfl

theorem AtOutermost.checkRule (h : t.AtOutermost outermost) (ds : Declarations) (r : Rule) :
    (checkRule ds t r).1.AtOutermost outermost := by
  unfold AccessPolicy.checkRule
  dsimp only
  cases r.condition with
  | none => exact h
  | some e =>
      obtain ⟨inner, hwithin, _⟩ := h.bindResource ds r ("policy@" ++ toString r.line)
      exact hwithin.exit

theorem AtOutermost.exists_checkRule (h : t.AtOutermost outermost) {ds : Declarations}
    {rules : List Rule} {r : Rule} (hr : r ∈ rules) :
    ∃ t', t'.AtOutermost outermost ∧
      ∀ m ∈ (AccessPolicy.checkRule ds t' r).2, m ∈ (checkRules ds t rules).2 := by
  induction rules generalizing t with
  | nil => cases hr
  | cons first rest ih =>
      unfold checkRules
      rcases List.mem_cons.mp hr with rfl | hr
      · exact ⟨t, h, fun m hm => List.mem_append_left _ hm⟩
      · obtain ⟨t', ht', hfound⟩ := ih (h.checkRule ds first) hr
        exact ⟨t', ht', fun m hm => List.mem_append_right _ (hfound m hm)⟩

/-- What is found in some rules is found in one of them, in the outermost scope. -/
theorem AtOutermost.exists_of_mem_checkRules (h : t.AtOutermost outermost) {ds : Declarations}
    {rules : List Rule} {m : Remark} (hm : m ∈ (checkRules ds t rules).2) :
    ∃ r ∈ rules, ∃ t', t'.AtOutermost outermost ∧ m ∈ (AccessPolicy.checkRule ds t' r).2 := by
  induction rules generalizing t with
  | nil => cases hm
  | cons first rest ih =>
      unfold checkRules at hm
      rcases List.mem_append.mp hm with hm | hm
      · exact ⟨first, List.mem_cons_self, t, h, hm⟩
      · obtain ⟨r, hr, t', ht', hm⟩ := ih (h.checkRule ds first) hm
        exact ⟨r, List.mem_cons_of_mem _ hr, t', ht', hm⟩

end SymbolTable

/-! ## The outermost scope of a program -/

/-- The scope has the definitions of a program by name, and of variables the built-in
namespaces. -/
structure Scope.Global (scope : Scope) (p : Program) : Prop where
  definitions : ∀ (kind : DefinitionKind) name,
    (scope.find? kind.symbolKind name).isSome = true ↔ ∃ d ∈ p.definitions kind, d.name = name
  namespaces : ∀ name, scope.find? .variable name =
    (namespaces.find? fun n => n.1 = name).map fun n => SymbolTable.builtin n.1 n.2

namespace Declarations

/-- The variables of the outermost scope are the built-in namespaces. -/
def KnowsNamespaces (symbols : SymbolTable) : Prop :=
  ∃ scope : Scope, symbols = ⟨[scope], 0⟩ ∧ ∀ name, scope.find? .variable name =
    (namespaces.find? fun n => n.1 = name).map fun n => SymbolTable.builtin n.1 n.2

theorem knowsNamespaces_initial : KnowsNamespaces .initial := by
  refine ⟨_, rfl, fun name => ?_⟩
  rw [Scope.find?_eq, SymbolTable.symbols_global, List.find?_map]
  rfl

theorem knowsNamespaces_add {ds : Declarations} (h : KnowsNamespaces ds.symbols) (s : Statement) :
    KnowsNamespaces (ds.add s).symbols := by
  obtain ⟨scope, hscope, hknown⟩ := h
  cases s with
  | rule r => exact ⟨scope, hscope, hknown⟩
  | definition kind d =>
      cases hfind : scope.find? kind.symbolKind d.name with
      | some first =>
          rw [add_definition_known hscope hfind]
          exact ⟨scope, hscope, hknown⟩
      | none =>
          rw [add_definition_new hscope hfind]
          refine ⟨_, rfl, fun name => ?_⟩
          have hother : ¬((d.symbol kind).kind = .variable ∧ (d.symbol kind).name = name) := by
            rintro ⟨hvariable, _⟩
            cases kind <;> cases hvariable
          rw [Scope.find?_extend, if_neg hother, Option.or_none, hknown]

theorem knowsNamespaces_ofProgram (p : Program) : KnowsNamespaces (ofProgram p).symbols :=
  ofProgram_induction (motive := fun ds _ => KnowsNamespaces ds.symbols) knowsNamespaces_initial
    (fun _ _ s h => knowsNamespaces_add h s) p

theorem exists_global (p : Program) :
    ∃ scope : Scope, scope.Global p ∧ (ofProgram p).symbols.AtOutermost scope := by
  obtain ⟨scope, hscope, hdefinitions⟩ := (records_ofProgram p).symbols
  obtain ⟨scope', hscope', hnamespaces⟩ := knowsNamespaces_ofProgram p
  rw [hscope] at hscope'
  cases hscope'
  exact ⟨scope, ⟨hdefinitions, hnamespaces⟩, by rw [hscope]; exact ⟨rfl, rfl⟩⟩

end Declarations

/-! ## The findings of a report -/

def Finding.isReference : Finding → Bool
  | .undefinedUserRole _ _ => true
  | .undefinedConditionRole _ => true
  | .undefinedResource _ => true
  | .unmatchedPath _ => true
  | .unknownObject _ => true
  | .unknownAttribute _ _ => true
  | _ => false

def Finding.isRisk : Finding → Bool
  | .wildcardRole _ => true
  | .unguarded _ => true
  | .guestDelete => true
  | .guestRoleDelete _ => true
  | .noAdminContext => true
  | _ => false

theorem isReference_of_mem_checkReferences {p : Program} {m : Remark}
    (hm : m ∈ (checkReferences (.ofProgram p)).2) : m.finding.isReference = true := by
  rcases List.mem_append.mp hm with husers | hrules
  · obtain ⟨user, role, hfinding⟩ := finding_of_mem_checkUsers husers
    rw [hfinding]
    rfl
  · obtain ⟨scope, _, hinitial⟩ := Declarations.exists_global p
    obtain ⟨r, _, t, _, hfound⟩ := hinitial.exists_of_mem_checkRules hrules
    rcases mem_checkRule_cases hfound with hresource | hcondition
    · rcases finding_of_mem_checkResource hresource with hfinding | hfinding
      · rw [hfinding]
        rfl
      · rw [hfinding]
        rfl
    · cases hfinding : m.finding <;> rw [hfinding] at hcondition
      all_goals first | rfl | cases hcondition

theorem isRisk_of_mem_ruleRisks {guestDefined : Bool} {r : Rule} {m : Remark}
    (hm : m ∈ ruleRisks guestDefined r) : m.finding.isRisk = true := by
  have hsingle : ∀ {c : Prop} [Decidable c] {finding : Finding},
      finding.isRisk = true → m ∈ (if c then [⟨r.line, finding⟩] else []) →
      m.finding.isRisk = true := by
    intro c _ finding hrisk hm
    split_ifs at hm
    · rwa [List.mem_singleton.mp hm]
    · cases hm
  rcases List.mem_append.mp hm with hm | hm
  · rcases List.mem_append.mp hm with hm | hm
    · exact hsingle rfl hm
    · exact hsingle rfl hm
  · exact hsingle rfl hm

theorem isRisk_of_mem_checkRisks {o : Options} {ds : Declarations} {m : Remark}
    (hm : m ∈ checkRisks o ds) : m.finding.isRisk = true := by
  rcases List.mem_append.mp hm with hm | hroles
  · rcases List.mem_append.mp hm with hwildcards | hrules
    · obtain ⟨d, _, rfl⟩ := List.mem_map.mp hwildcards
      rfl
    · obtain ⟨r, _, hr⟩ := List.mem_flatMap.mp hrules
      exact isRisk_of_mem_ruleRisks hr
  · unfold roleRisks at hroles
    split_ifs at hroles
    · obtain ⟨d, _, rfl⟩ := List.mem_map.mp hroles
      rfl
    · cases hroles

section
variable {o : Options} {p : Program}

theorem Program.mem_remarks_of_checkUsers {m : Remark}
    (h : m ∈ checkUsers (Declarations.ofProgram p)) : m ∈ (p.analyze o).remarks :=
  List.mem_append_left _ (List.mem_append_right _ (List.mem_append_left _ h))

/-- **Every rule is checked in the outermost scope.** What is found there is in the report. -/
theorem Program.exists_checkRule {r : Rule} (hr : r ∈ p.rules) :
    ∃ scope t, scope.Global p ∧ t.AtOutermost scope ∧
      ∀ m ∈ (checkRule (Declarations.ofProgram p) t r).2, m ∈ (p.analyze o).remarks := by
  obtain ⟨scope, hglobal, hinitial⟩ := Declarations.exists_global p
  rw [← (Declarations.records_ofProgram p).rules] at hr
  obtain ⟨t, ht, hfound⟩ := hinitial.exists_checkRule hr
  exact ⟨scope, t, hglobal, ht, fun m hm => List.mem_append_left _
    (List.mem_append_right _ (List.mem_append_right _ (hfound m hm)))⟩

end
end AccessPolicy
