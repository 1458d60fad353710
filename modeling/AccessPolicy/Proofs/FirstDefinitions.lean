import AccessPolicy.Proofs.RepeatedDefinitions
import AccessPolicy.Proofs.ResourceReferences

/-!
# The first definition of a name

The analysis enters definitions in a symbol table, a policy set is made by a scan for the names
seen so far, and an engine has an index of names. Of the definitions of a program they all keep
the same ones, of each kind the first of every name, and the analysis reports every other one
(`Program.keepsFirsts`).
-/

namespace AccessPolicy

/-! ## What comes first -/

/-- What `f` makes of each item and the items before it. -/
def withEarlier {α β : Type} (f : List α → α → Option β) (xs : List α) : List β :=
  xs.zipIdx.filterMap fun x => f (xs.take x.2) x.1

theorem withEarlier_concat {α β : Type} (f : List α → α → Option β) (xs : List α) (a : α) :
    withEarlier f (xs ++ [a]) = withEarlier f xs ++ (f xs a).toList := by
  have hbefore : ∀ x ∈ xs.zipIdx,
      f ((xs ++ [a]).take x.2) x.1 = f (xs.take x.2) x.1 := by
    intro x hx
    have hplace : x.2 < xs.length := List.snd_lt_of_mem_zipIdx hx
    rw [List.take_append_of_le_length (Nat.le_of_lt hplace)]
  unfold withEarlier
  rw [List.zipIdx_append, List.filterMap_append, List.filterMap_congr hbefore]
  simp only [List.zipIdx_cons, List.zipIdx_nil, List.filterMap_cons, List.filterMap_nil,
    Nat.zero_add, List.take_left']
  cases f xs a <;> rfl

namespace Program

/-- The definitions of a kind whose name no earlier one of the kind has. -/
def firsts (p : Program) (kind : DefinitionKind) : List Definition :=
  withEarlier (fun earlier d => if ∃ e ∈ earlier, e.name = d.name then none else some d)
    (p.definitions kind)

theorem firstNamed_definitions (p : Program) (kind : DefinitionKind) :
    firstNamed (p.definitions kind) = p.firsts kind := by
  unfold firsts
  induction p.definitions kind using List.reverseRecOn with
  | nil => rfl
  | append_singleton ds d ih =>
      rw [firstNamed_concat, withEarlier_concat, ih]
      split_ifs <;> rfl

/-- The error for a definition whose kind and name an earlier one has. It is on the line of the
later one and tells the line of the first. -/
def repetition? (earlier : List Statement) : Statement → Option Diagnostic
  | .rule _ => none
  | .definition kind d =>
    (lookup ⟨earlier⟩ kind d.name).map fun first =>
      ⟨d.line, .error, "Duplicate " ++ kind.word ++ " definition: '" ++ d.name
        ++ "' (first declared at line " ++ toString first.line ++ ")", .semantic⟩

def repetitions (p : Program) : List Diagnostic := withEarlier repetition? p.statements

theorem repetitions_concat (ss : List Statement) (s : Statement) :
    repetitions ⟨ss ++ [s]⟩ = repetitions ⟨ss⟩ ++ (repetition? ss s).toList :=
  withEarlier_concat repetition? ss s

end Program

/-! ## Entities of all kinds -/

inductive Entity where
  | role (r : Role)
  | user (u : User)
  | resource (r : Resource)

namespace Entity

def name : Entity → String
  | .role r => r.name
  | .user u => u.name
  | .resource r => r.name

def line : Entity → Nat
  | .role r => r.line
  | .user u => u.line
  | .resource r => r.line

end Entity

def Definition.toEntity (kind : DefinitionKind) (d : Definition) : Entity :=
  match kind with
  | .role => .role d.toRole
  | .user => .user d.toUser
  | .resource => .resource d.toResource

def PolicySet.entities (s : PolicySet) : DefinitionKind → List Entity
  | .role => s.roles.map .role
  | .user => s.users.map .user
  | .resource => s.resources.map .resource

def Engine.entity? (e : Engine) (kind : DefinitionKind) (name : String) : Option Entity :=
  match kind with
  | .role => (e.role? name).map .role
  | .user => (e.user? name).map .user
  | .resource => (e.resource? name).map .resource

theorem Definition.name_toEntity (kind : DefinitionKind) (d : Definition) :
    (d.toEntity kind).name = d.name := by cases kind <;> rfl

theorem Definition.line_toEntity (kind : DefinitionKind) (d : Definition) :
    (d.toEntity kind).line = d.line := by cases kind <;> rfl

theorem PolicySet.entities_ofProgram (synthesize : Bool) (p : Program) (kind : DefinitionKind) :
    (ofProgram synthesize p).entities kind =
      (firstNamed (p.definitions kind)).map (Definition.toEntity kind) := by
  cases kind <;> exact List.map_map

theorem PolicySet.counts_entities (s : PolicySet) (kind : DefinitionKind) :
    (s.metadata.field? "counts").bind (·.field? (kind.word ++ "s")) =
      some (.nat (s.entities kind).length) := by
  cases kind <;> simp only [PolicySet.entities, List.length_map] <;> rfl

theorem Engine.entity?_eq (e : Engine) (kind : DefinitionKind) (name : String) :
    e.entity? kind name = (e.set.entities kind).find? fun x => x.name = name := by
  unfold entity? PolicySet.entities
  cases kind
  · rw [e.role?_eq, List.find?_map]
    rfl
  · rw [e.user?_eq, List.find?_map]
    rfl
  · rw [e.resource?_eq, List.find?_map]
    rfl

/-! ## What the analysis reports -/

def Diagnostic.IsRepetition (d : Diagnostic) : Prop :=
  "Duplicate ".toList <+: d.message.toList

instance (d : Diagnostic) : Decidable d.IsRepetition :=
  inferInstanceAs (Decidable ("Duplicate ".toList <+: d.message.toList))

namespace Remark
variable {m : Remark} (o : Options)

theorem isRepetition_of_duplicate {kind : DefinitionKind} {name : String} {line : Nat}
    (h : m.finding = .duplicate kind name line) : (m.diagnostic o).IsRepetition := by
  show _ <+: (message m).toList
  unfold message
  rw [h]
  simp only [String.append_assoc]
  rw [String.toList_append]
  exact List.prefix_append _ _

/-- No other finding is told like a repeated definition. -/
theorem not_isRepetition_of_further (h : m.finding.isReference = true ∨ m.finding.isRisk = true) :
    ¬(m.diagnostic o).IsRepetition := by
  obtain ⟨line, finding⟩ := m
  show ¬_ <+: (message ⟨line, finding⟩).toList
  cases finding with
  | duplicate => rcases h with h | h <;> cases h
  | guestDelete | noAdminContext =>
      dsimp only [message]
      decide
  | _ =>
      simp only [message, String.append_assoc]
      exact not_startsWith_append (by decide) (by decide) _

end Remark

namespace Declarations

theorem map_duplicates_ofProgram (o : Options) (p : Program) :
    (ofProgram p).duplicates.map (Remark.diagnostic o) = p.repetitions := by
  have hboth : (ofProgram p).Reports p ∧
      (ofProgram p).duplicates.map (Remark.diagnostic o) = p.repetitions := by
    refine ofProgram_induction (motive := fun ds p =>
      ds.Reports p ∧ ds.duplicates.map (Remark.diagnostic o) = p.repetitions)
      ⟨reports_empty, rfl⟩ ?_ p
    rintro ds ss s ⟨hreports, hduplicates⟩
    refine ⟨hreports.add s, ?_⟩
    rw [Program.repetitions_concat, ← hduplicates]
    obtain ⟨scope, hscope, hlines⟩ := hreports.lines
    cases s with
    | rule r => exact (List.append_nil _).symm
    | definition kind d =>
        dsimp only [Program.repetition?]
        cases hfirst : Program.lookup ⟨ss⟩ kind d.name with
        | none =>
            rw [add_definition_new hscope (find?_eq_none_of_lookup hlines hfirst)]
            cases kind <;> exact (List.append_nil _).symm
        | some first =>
            obtain ⟨symbol, hsymbol, hsymbolLine⟩ := exists_symbol_of_lookup hlines hfirst
            rw [add_definition_known hscope hsymbol, hsymbolLine]
            exact List.map_append
  exact hboth.2

end Declarations

namespace Program
variable (o : Options) (p : Program)

theorem filter_isRepetition_remarks :
    ((p.analyze o).remarks.filter fun m => (m.diagnostic o).IsRepetition) =
      (Declarations.ofProgram p).duplicates := by
  have hduplicates : ∀ m ∈ (Declarations.ofProgram p).duplicates,
      decide (m.diagnostic o).IsRepetition = true := by
    intro m hm
    obtain ⟨kind, name, line, hfinding⟩ := (Declarations.records_ofProgram p).duplicates m hm
    exact decide_eq_true (Remark.isRepetition_of_duplicate o hfinding)
  have hreferences : ((checkReferences (.ofProgram p)).2.filter
      fun m => (m.diagnostic o).IsRepetition) = [] := by
    rw [List.filter_eq_nil_iff]
    intro m hm
    simpa using Remark.not_isRepetition_of_further o (Or.inl (isReference_of_mem_checkReferences hm))
  have hrisks : ((checkRisks o (.ofProgram p)).filter
      fun m => (m.diagnostic o).IsRepetition) = [] := by
    rw [List.filter_eq_nil_iff]
    intro m hm
    simpa using Remark.not_isRepetition_of_further o (Or.inr (isRisk_of_mem_checkRisks hm))
  show ((Declarations.ofProgram p).duplicates ++ (checkReferences (.ofProgram p)).2 ++
    checkRisks o (.ofProgram p)).filter _ = _
  rw [List.filter_append, List.filter_append, List.filter_eq_self.mpr hduplicates, hreferences,
    hrisks, List.append_nil, List.append_nil]

/-- **Every later definition is an error once**, on its own line and with the line of the first. -/
theorem filter_isRepetition_diagnostics :
    (p.analyze o).diagnostics.filter (fun d => d.IsRepetition) = p.repetitions := by
  have herror : ∀ m ∈ (Declarations.ofProgram p).duplicates, (p.analyze o).isError m = true :=
    fun m hm => decide_eq_true (Declarations.severity_of_mem_duplicates hm o)
  have hsort : ∀ keep : Remark → Bool,
      (((p.analyze o).remarks.filter keep).map (Remark.diagnostic o)).filter
          (fun d => d.IsRepetition) =
        ((Declarations.ofProgram p).duplicates.filter keep).map (Remark.diagnostic o) := by
    intro keep
    rw [List.filter_map, ← filter_isRepetition_remarks o p, List.filter_filter, List.filter_filter]
    congr 2
    funext m
    exact Bool.and_comm _ _
  have hwarnings : ((Declarations.ofProgram p).duplicates.filter
      fun m => !(p.analyze o).isError m) = [] := by
    rw [List.filter_eq_nil_iff]
    intro m hm
    simp [herror m hm]
  unfold Report.diagnostics Report.errors Report.warnings
  rw [List.filter_append]
  refine (congrArg₂ _ (hsort _) (hsort _)).trans ?_
  rw [List.filter_eq_self.mpr herror, hwarnings, Declarations.map_duplicates_ofProgram]
  exact List.append_nil _

example : repetitions ⟨[
    .definition .role ⟨"clerk", [], 1⟩, .definition .user ⟨"clerk", [], 2⟩,
    .definition .role ⟨"clerk", [], 3⟩, .definition .role ⟨"clerk", [], 4⟩]⟩ = [
    ⟨3, .error, "Duplicate role definition: 'clerk' (first declared at line 1)", .semantic⟩,
    ⟨4, .error, "Duplicate role definition: 'clerk' (first declared at line 1)", .semantic⟩] := by
  decide

/-! ## The same definitions everywhere -/

/-- The analysis, the policy set and its engine have the same definitions of a kind, the first of
every name. -/
structure KeepsFirsts (synthesize : Bool) (kind : DefinitionKind) : Prop where
  declared : (p.analyze o).declarations.declared kind = p.firsts kind
  emitted : (PolicySet.ofProgram synthesize p).entities kind =
    (p.firsts kind).map (Definition.toEntity kind)
  places : ((PolicySet.ofProgram synthesize p).entities kind).map (fun x => (x.name, x.line)) =
    (p.firsts kind).map fun d => (d.name, d.line)
  found : ∀ name, (Engine.load (.ofProgram synthesize p)).entity? kind name =
    ((p.firsts kind).find? fun d => d.name = name).map (Definition.toEntity kind)
  notFound : ∀ name, (Engine.load (.ofProgram synthesize p)).entity? kind name = none ↔
    ∀ d ∈ p.definitions kind, d.name ≠ name
  statistics : (p.analyze o).statistics.field? (kind.word ++ "s_defined") =
    some (.nat (p.firsts kind).length)
  counts : ((PolicySet.ofProgram synthesize p).metadata.field? "counts").bind
    (·.field? (kind.word ++ "s")) = some (.nat (p.firsts kind).length)

theorem statistics_defined (kind : DefinitionKind) :
    (p.analyze o).statistics.field? (kind.word ++ "s_defined") =
      some (.nat ((p.analyze o).declarations.declared kind).length) := by
  cases kind <;> rfl

theorem entity?_ofProgram (synthesize : Bool) (kind : DefinitionKind) (name : String) :
    (Engine.load (.ofProgram synthesize p)).entity? kind name =
      (p.lookup kind name).map (Definition.toEntity kind) := by
  rw [Engine.entity?_eq]
  show ((PolicySet.ofProgram synthesize p).entities kind).find? _ = _
  rw [PolicySet.entities_ofProgram, List.find?_map]
  simp only [Function.comp_def, Definition.name_toEntity]
  rw [find?_firstNamed]
  rfl

theorem keepsFirsts (synthesize : Bool) (kind : DefinitionKind) :
    p.KeepsFirsts o synthesize kind := by
  have hdeclared : (p.analyze o).declarations.declared kind = p.firsts kind :=
    ((Declarations.records_ofProgram p).declared kind).trans (p.firstNamed_definitions kind)
  have hemitted : (PolicySet.ofProgram synthesize p).entities kind =
      (p.firsts kind).map (Definition.toEntity kind) := by
    rw [PolicySet.entities_ofProgram, firstNamed_definitions]
  constructor
  · exact hdeclared
  · exact hemitted
  · rw [hemitted, List.map_map]
    simp only [Function.comp_def, Definition.name_toEntity, Definition.line_toEntity]
  · intro name
    rw [entity?_ofProgram, ← firstNamed_definitions, find?_firstNamed]
    rfl
  · intro name
    rw [entity?_ofProgram, Option.map_eq_none_iff]
    unfold lookup
    simp
  · rw [statistics_defined, hdeclared]
  · rw [PolicySet.counts_entities, hemitted, List.length_map]

/-- **The first definition of a name wins everywhere.** Of each kind the analysis, the policy set
and its engine have the first definitions of a program, and count them alike. An engine finds the
first of a name in any policy set, though more entities have that name. The analysis tells of
the other definitions, of each in one error. -/
theorem first_definition_wins (synthesize : Bool) :
    (∀ kind, p.KeepsFirsts o synthesize kind) ∧
    (∀ (set : PolicySet) kind name, (Engine.load set).entity? kind name =
      (set.entities kind).find? fun x => x.name = name) ∧
    (p.analyze o).diagnostics.filter (fun d => d.IsRepetition) = p.repetitions :=
  ⟨p.keepsFirsts o synthesize, fun set => (Engine.load set).entity?_eq,
    p.filter_isRepetition_diagnostics o⟩

end Program
end AccessPolicy
