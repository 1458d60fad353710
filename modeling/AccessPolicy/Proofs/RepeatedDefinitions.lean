import AccessPolicy.Proofs.CompiledPrograms

/-!
# Repeated definitions

The analysis reports each definition whose name an earlier one of its kind has, on its own line
and with the line of the first. What it reports of one kind depends on the definitions of this
kind alone (`Declarations.filter_duplicates_ofProgram`).
-/

namespace AccessPolicy

/-! ## Definitions of one kind -/

/-- The finding for a definition whose name an earlier one has. -/
def repeat? (kind : DefinitionKind) (earlier : List Definition) (d : Definition) : Option Remark :=
  (earlier.find? fun e => e.name = d.name).map fun first =>
    ⟨d.line, .duplicate kind d.name first.line⟩

/-- The findings for the definitions after some others. -/
def repeatsAfter (kind : DefinitionKind) (earlier : List Definition) :
    List Definition → List Remark
  | [] => []
  | d :: rest => (repeat? kind earlier d).toList ++ repeatsAfter kind (earlier ++ [d]) rest

/-- The findings for the definitions of a kind whose name an earlier one has. -/
def repeats (kind : DefinitionKind) (ds : List Definition) : List Remark := repeatsAfter kind [] ds

theorem repeatsAfter_concat (kind : DefinitionKind) (earlier ds : List Definition)
    (d : Definition) :
    repeatsAfter kind earlier (ds ++ [d]) =
      repeatsAfter kind earlier ds ++ (repeat? kind (earlier ++ ds) d).toList := by
  induction ds generalizing earlier with
  | nil => simp [repeatsAfter]
  | cons e ds ih =>
      rw [List.cons_append, repeatsAfter, repeatsAfter, ih, List.append_assoc, List.append_assoc]
      rfl

theorem repeats_concat (kind : DefinitionKind) (ds : List Definition) (d : Definition) :
    repeats kind (ds ++ [d]) = repeats kind ds ++ (repeat? kind ds d).toList :=
  repeatsAfter_concat kind [] ds d

def Finding.repeatedKind? : Finding → Option DefinitionKind
  | .duplicate kind _ _ => some kind
  | _ => none

/-! ## The analysis of a program -/

theorem Program.lookup_concat_definition {ss : List Statement} {kind kind' : DefinitionKind}
    {d : Definition} {name : String} :
    lookup ⟨ss ++ [.definition kind d]⟩ kind' name =
      (lookup ⟨ss⟩ kind' name).or (if kind = kind' ∧ d.name = name then some d else none) := by
  unfold lookup
  rw [definitions_concat_definition, List.find?_append]
  by_cases hkind : kind = kind'
  · by_cases hname : d.name = name
    · simp [hkind, hname]
    · simp [hkind, hname]
  · simp [hkind]

namespace Declarations

/-- The symbols of the outermost scope are on the lines of the first definitions. -/
def KnowsLines (symbols : SymbolTable) (p : Program) : Prop :=
  ∃ scope : Scope, symbols = ⟨[scope], 0⟩ ∧ ∀ (kind : DefinitionKind) (name : String),
    (scope.find? kind.symbolKind name).map Symbol.line =
      (p.lookup kind name).map Definition.line

section
variable {scope : Scope} {p : Program} {kind : DefinitionKind} {name : String}
  (hlines : ∀ (kind : DefinitionKind) (name : String),
    (scope.find? kind.symbolKind name).map Symbol.line = (p.lookup kind name).map Definition.line)
include hlines

/-- The symbol of a name that was defined is on the line of the first definition. -/
theorem exists_symbol_of_lookup {first : Definition} (h : p.lookup kind name = some first) :
    ∃ symbol, scope.find? kind.symbolKind name = some symbol ∧ symbol.line = first.line := by
  have hline := hlines kind name
  rw [h] at hline
  exact Option.map_eq_some_iff.mp hline

theorem find?_eq_none_of_lookup (h : p.lookup kind name = none) :
    scope.find? kind.symbolKind name = none := by
  have hline := hlines kind name
  rw [h] at hline
  exact Option.map_eq_none_iff.mp hline

end

def duplicatesOf (ds : Declarations) (kind : DefinitionKind) : List Remark :=
  ds.duplicates.filter fun m => m.finding.repeatedKind? = some kind

structure Reports (ds : Declarations) (p : Program) : Prop where
  lines : KnowsLines ds.symbols p
  duplicates : ∀ kind, ds.duplicatesOf kind = repeats kind (p.definitions kind)

theorem reports_empty : empty.Reports ⟨[]⟩ where
  lines := by
    obtain ⟨scope, hscope, hnames⟩ := knowsNames_initial
    refine ⟨scope, hscope, fun kind name => ?_⟩
    have hnone : scope.find? kind.symbolKind name = none := by
      rw [← Option.not_isSome_iff_eq_none, hnames]
      rintro ⟨d, hd, _⟩
      cases hd
    rw [hnone]
    rfl
  duplicates kind := rfl

section
variable {ds : Declarations} {ss : List Statement}

theorem Reports.add_rule (h : ds.Reports ⟨ss⟩) (r : Rule) :
    (ds.add (.rule r)).Reports ⟨ss ++ [.rule r]⟩ := by
  obtain ⟨⟨scope, hscope, hlines⟩, hduplicates⟩ := h
  constructor
  · refine ⟨scope, hscope, fun kind name => ?_⟩
    unfold Program.lookup
    rw [Program.definitions_concat_rule]
    exact hlines kind name
  · intro kind
    rw [Program.definitions_concat_rule]
    exact hduplicates kind

theorem repeats_concat_definition (kind kind' : DefinitionKind) (d : Definition) :
    repeats kind' (Program.definitions ⟨ss ++ [.definition kind d]⟩ kind') =
      repeats kind' (Program.definitions ⟨ss⟩ kind') ++
        if kind = kind' then (repeat? kind (Program.definitions ⟨ss⟩ kind) d).toList else [] := by
  rw [Program.definitions_concat_definition]
  by_cases hkind : kind = kind'
  · subst hkind
    rw [if_pos rfl, if_pos rfl, repeats_concat]
  · rw [if_neg hkind, if_neg hkind, List.append_nil, List.append_nil]

theorem Reports.add_known (h : ds.Reports ⟨ss⟩) {kind : DefinitionKind} {d first : Definition}
    (hfirst : Program.lookup ⟨ss⟩ kind d.name = some first) :
    (ds.add (.definition kind d)).Reports ⟨ss ++ [.definition kind d]⟩ := by
  obtain ⟨⟨scope, hscope, hlines⟩, hduplicates⟩ := h
  obtain ⟨symbol, hsymbol, hsymbolLine⟩ := exists_symbol_of_lookup hlines hfirst
  have hrepeat : repeat? kind (Program.definitions ⟨ss⟩ kind) d =
      some ⟨d.line, .duplicate kind d.name symbol.line⟩ := by
    unfold repeat?
    rw [show (Program.definitions ⟨ss⟩ kind).find? (fun e => e.name = d.name) = some first from
      hfirst, hsymbolLine]
    rfl
  rw [add_definition_known hscope hsymbol]
  constructor
  · refine ⟨scope, hscope, fun kind' name => ?_⟩
    rw [Program.lookup_concat_definition, hlines]
    by_cases hsame : kind = kind' ∧ d.name = name
    · obtain ⟨rfl, rfl⟩ := hsame
      rw [hfirst]
      rfl
    · rw [if_neg hsame, Option.or_none]
  · intro kind'
    rw [repeats_concat_definition, ← hduplicates kind', hrepeat]
    unfold duplicatesOf
    rw [List.filter_append]
    by_cases hkind : kind = kind'
    · simp [hkind, Finding.repeatedKind?]
    · simp [hkind, Finding.repeatedKind?]

theorem Reports.add_new (h : ds.Reports ⟨ss⟩) {kind : DefinitionKind} {d : Definition}
    (hnew : Program.lookup ⟨ss⟩ kind d.name = none) :
    (ds.add (.definition kind d)).Reports ⟨ss ++ [.definition kind d]⟩ := by
  obtain ⟨⟨scope, hscope, hlines⟩, hduplicates⟩ := h
  have hfind : scope.find? kind.symbolKind d.name = none := find?_eq_none_of_lookup hlines hnew
  have hrepeat : repeat? kind (Program.definitions ⟨ss⟩ kind) d = none := by
    unfold repeat?
    rw [show (Program.definitions ⟨ss⟩ kind).find? (fun e => e.name = d.name) = none from hnew]
    rfl
  rw [add_definition_new hscope hfind]
  constructor
  · refine ⟨_, rfl, fun kind' name => ?_⟩
    rw [Program.lookup_concat_definition, Option.map_or, ← hlines, find?_extend_symbol,
      Option.map_or]
    congr 1
    split_ifs
    · rfl
    · rfl
  · intro kind'
    have hsame : (ds.register kind d).duplicates = ds.duplicates := by cases kind <;> rfl
    rw [repeats_concat_definition, ← hduplicates kind', hrepeat, Option.toList_none, ite_self,
      List.append_nil]
    exact congrArg (List.filter _) hsame

theorem Reports.add (h : ds.Reports ⟨ss⟩) (s : Statement) : (ds.add s).Reports ⟨ss ++ [s]⟩ := by
  cases s with
  | rule r => exact h.add_rule r
  | definition kind d =>
      cases hfirst : Program.lookup ⟨ss⟩ kind d.name with
      | some first => exact h.add_known hfirst
      | none => exact h.add_new hfirst

end

theorem reports_ofProgram (p : Program) : (ofProgram p).Reports p :=
  ofProgram_induction reports_empty (fun _ _ s h => h.add s) p

/-- **What is reported as repeated.** Of each kind these are the definitions whose name an earlier
one of the kind has. -/
theorem filter_duplicates_ofProgram (p : Program) (kind : DefinitionKind) :
    ((ofProgram p).duplicates.filter fun m => m.finding.repeatedKind? = some kind) =
      repeats kind (p.definitions kind) :=
  (reports_ofProgram p).duplicates kind

end Declarations
end AccessPolicy
