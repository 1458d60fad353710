import AccessPolicy.Proofs.ScopeStack
import AccessPolicy.Proofs.StatementOrder

/-!
# The scopes of conditions

Every condition is checked in a scope of its own, in which at most `resource` is bound, and that
scope is left before the next rule. So the checks of references find in a rule what they find in it
when it is the only one (`Program.references_by_rule`), and the scopes of conditions are all that
they add to the table.
-/

namespace AccessPolicy

/-! ## Checking one rule -/

def Declarations.conditionScope (ds : Declarations) (r : Rule) : Scope :=
  let opened := Scope.opened ("policy@" ++ toString r.line) 1 (some 0)
  match ds.target? r with
  | none => opened
  | some d => opened.extend (r.resourceSymbol d)

/-- A scope right inside the outermost one, for the condition of a rule: at most `resource` is
bound in it, for the defined resource that the rule names. -/
structure Rule.ConditionScope (r : Rule) (target : Option Definition) (s : Scope) : Prop where
  name : s.name = "policy@" ++ toString r.line
  level : s.level = 1
  parent : s.parent = some 0
  symbols : s.symbols = target.toList.map fun d => { r.resourceSymbol d with scopeLevel := 1 }

theorem Declarations.conditionScope_spec (ds : Declarations) (r : Rule) :
    r.ConditionScope (ds.target? r) (ds.conditionScope r) := by
  unfold conditionScope
  cases ds.target? r with
  | none => exact ⟨rfl, rfl, rfl, rfl⟩
  | some d => exact ⟨rfl, rfl, rfl, rfl⟩

namespace SymbolTable

theorem define_last {scopes : List Scope} {s : Scope} {x : Symbol}
    (hnew : s.find? x.kind x.name = none) :
    define ⟨scopes ++ [s], scopes.length⟩ x = .ok ⟨scopes ++ [s.extend x], scopes.length⟩ := by
  have hlast : (scopes ++ [s])[scopes.length]? = some s := List.getElem?_concat_length
  have hmodify : (scopes ++ [s]).modify scopes.length (fun s => s.extend x) =
      scopes ++ [s.extend x] := by
    rw [List.modify_eq_take_drop, List.take_left, List.drop_left]
    rfl
  unfold define
  dsimp only
  rw [hlast, Option.bind_some, hnew]
  dsimp only
  rw [hmodify]

section
variable {t : SymbolTable} {outermost : Scope} (h : t.AtOutermost outermost)
  (hlevel : outermost.level = 0)
include h hlevel

theorem AtOutermost.enter_eq (name : String) :
    t.enter name = ⟨t.scopes ++ [Scope.opened name 1 (some 0)], t.scopes.length⟩ := by
  have hzero : t.level = 0 := by
    rw [SymbolTable.level, h.current, h.first]
    exact hlevel
  rw [SymbolTable.enter, hzero, h.current]

/-- In the scope that is opened for a condition nothing clashes. -/
theorem AtOutermost.exists_define (name : String) (x : Symbol) :
    ∃ t', (t.enter name).define x = .ok t' := by
  rw [h.enter_eq hlevel name]
  exact ⟨_, define_last (Scope.find?_opened name 1 (some 0) x.kind x.name)⟩

theorem AtOutermost.bindResource_enter (ds : Declarations) (r : Rule) :
    AccessPolicy.bindResource ds (t.enter ("policy@" ++ toString r.line)) r =
      ⟨t.scopes ++ [ds.conditionScope r], t.scopes.length⟩ := by
  rw [bindResource_eq, h.enter_eq hlevel]
  unfold Declarations.conditionScope
  cases ds.target? r with
  | none => rfl
  | some d =>
      dsimp only
      rw [define_last (Scope.find?_opened _ _ _ _ _)]

/-- A rule that is checked leaves the scope of its condition behind, if it has one. -/
theorem AtOutermost.checkRule_symbols (ds : Declarations) (r : Rule) :
    (AccessPolicy.checkRule ds t r).1 =
      ⟨t.scopes ++ (r.condition.map fun _ => ds.conditionScope r).toList, 0⟩ := by
  unfold AccessPolicy.checkRule
  dsimp only
  cases r.condition with
  | none =>
      show t = ⟨t.scopes ++ [], 0⟩
      rw [List.append_nil, ← h.current]
  | some e =>
      have hlast : (t.scopes ++ [ds.conditionScope r])[t.scopes.length]? =
          some (ds.conditionScope r) := List.getElem?_concat_length
      dsimp only
      rw [h.bindResource_enter hlevel, SymbolTable.exit]
      dsimp only
      rw [hlast, Option.bind_some, (ds.conditionScope_spec r).parent]
      rfl

end

theorem AtOutermost.checkRule_remarks {t t' : SymbolTable} {outermost : Scope}
    (h' : t'.AtOutermost outermost) (h : t.AtOutermost outermost) (ds : Declarations) (r : Rule) :
    (AccessPolicy.checkRule ds t' r).2 = (AccessPolicy.checkRule ds t r).2 :=
  Declarations.Alike.checkRule ⟨fun _ => rfl, rfl, .refl _⟩ h' h ⟨fun _ _ => rfl, fun _ => rfl⟩ r

/-! ## Checking all rules -/

theorem AtOutermost.checkRules {t : SymbolTable} {outermost : Scope} (h : t.AtOutermost outermost)
    (ds : Declarations) (rules : List Rule) :
    (AccessPolicy.checkRules ds t rules).1.AtOutermost outermost := by
  induction rules generalizing t with
  | nil => exact h
  | cons r rest ih => exact ih (h.checkRule ds r)

/-- **No rule leaves a trace for the next.** Each is checked as in the outermost scope alone, and
the scopes of the conditions follow one another. -/
theorem AtOutermost.checkRules_eq {t : SymbolTable} {outermost : Scope}
    (h : t.AtOutermost outermost) (hlevel : outermost.level = 0) (ds : Declarations)
    (rules : List Rule) :
    AccessPolicy.checkRules ds t rules =
      (⟨t.scopes ++ (rules.filter fun r => r.condition.isSome).map ds.conditionScope, 0⟩,
        rules.flatMap fun r => (AccessPolicy.checkRule ds t r).2) := by
  induction rules generalizing t with
  | nil =>
      rw [AccessPolicy.checkRules, ← h.current]
      simp
  | cons r rest ih =>
      have hfirst := h.checkRule ds r
      have hrest := ih hfirst
      rw [h.checkRule_symbols hlevel] at hrest hfirst
      have hsame : ∀ r, (AccessPolicy.checkRule ds _ r).2 = (AccessPolicy.checkRule ds t r).2 :=
        fun r => hfirst.checkRule_remarks h ds r
      rw [AccessPolicy.checkRules]
      dsimp only
      rw [h.checkRule_symbols hlevel, hrest, List.flatMap_cons]
      simp only [hsame]
      cases hcondition : r.condition <;> simp [hcondition]

end SymbolTable

/-! ## The declarations of a program with other rules -/

def Statement.isDefinition : Statement → Bool
  | .definition _ _ => true
  | .rule _ => false

/-- The definitions of the program, and these rules after them. -/
def Program.withRules (p : Program) (rules : List Rule) : Program :=
  ⟨p.statements.filter Statement.isDefinition ++ rules.map .rule⟩

namespace Declarations

theorem add_definition_withRules (ds : Declarations) (rules : List Rule) (kind : DefinitionKind)
    (d : Definition) :
    ({ ds with rules := rules }).add (.definition kind d) =
      { ds.add (.definition kind d) with rules := rules } := by
  unfold add
  dsimp only
  cases ds.symbols.define (d.symbol kind) with
  | error first => rfl
  | ok symbols => cases kind <;> rfl

theorem foldl_add_definitions (ds : Declarations) (rules : List Rule) (ss : List Statement) :
    (ss.filter Statement.isDefinition).foldl add { ds with rules := rules } =
      { ss.foldl add ds with rules := rules } := by
  induction ss generalizing ds with
  | nil => rfl
  | cons s ss ih =>
      cases s with
      | definition kind d =>
          rw [List.filter_cons_of_pos rfl, List.foldl_cons, List.foldl_cons,
            add_definition_withRules, ih]
      | rule r =>
          rw [List.filter_cons_of_neg (by simp [Statement.isDefinition]), List.foldl_cons, ← ih]
          rfl

theorem foldl_add_rules (ds : Declarations) (rules : List Rule) :
    (rules.map Statement.rule).foldl add ds = { ds with rules := ds.rules ++ rules } := by
  induction rules generalizing ds with
  | nil => simp
  | cons r rules ih =>
      rw [List.map_cons, List.foldl_cons, ih]
      simp [add]

theorem ofProgram_withRules (p : Program) (rules : List Rule) :
    ofProgram (p.withRules rules) = { ofProgram p with rules := rules } := by
  have hdefinitions := foldl_add_definitions empty [] p.statements
  unfold ofProgram Program.withRules
  rw [List.foldl_append, show (p.statements.filter Statement.isDefinition).foldl add empty = _
    from hdefinitions, foldl_add_rules]
  rfl

theorem wellFormed_ofProgram (p : Program) : (ofProgram p).symbols.WellFormed := by
  refine ofProgram_induction (motive := fun ds _ => ds.symbols.WellFormed)
    SymbolTable.wellFormed_initial (fun ds ss s h => ?_) p
  cases s with
  | rule r => exact h
  | definition kind d =>
      unfold add
      dsimp only
      cases hdefine : ds.symbols.define (d.symbol kind) with
      | error first => exact h
      | ok symbols => exact h.define _ hdefine

theorem exists_symbols_ofProgram (p : Program) : ∃ global : Scope,
    (ofProgram p).symbols = ⟨[global], 0⟩ ∧ (ofProgram p).symbols.AtOutermost global ∧
      global.level = 0 := by
  obtain ⟨global, hglobal, _⟩ := (records_ofProgram p).symbols
  have hlinked := (wellFormed_ofProgram p).linked
  rw [hglobal] at hlinked
  refine ⟨global, hglobal, by rw [hglobal]; exact ⟨rfl, rfl⟩, ?_⟩
  rcases hlinked 0 global rfl with ⟨_, _, hlevel⟩ | ⟨q, _, _, hlt, _⟩
  · exact hlevel
  · exact absurd hlt (Nat.not_lt_zero q)

end Declarations
/-! ## Diagnostics -/

/-- A report lists errors and warnings apart. -/
inductive Report.Part where
  | errors
  | warnings
deriving DecidableEq

def Report.part (r : Report) : Part → List Diagnostic
  | .errors => r.errors
  | .warnings => r.warnings

def Remark.part (o : Options) (m : Remark) : Report.Part :=
  if m.severity o = .error then .errors else .warnings

/-- What some remarks add to a part of a report. -/
def Remark.listed (o : Options) (part : Report.Part) (ms : List Remark) : List Diagnostic :=
  (ms.filter fun m => m.part o = part).map (Remark.diagnostic o)

theorem Remark.listed_append (o : Options) (part : Report.Part) (ms ms' : List Remark) :
    listed o part (ms ++ ms') = listed o part ms ++ listed o part ms' := by
  unfold listed
  rw [List.filter_append, List.map_append]

theorem Remark.listed_flatMap {α : Type} (o : Options) (part : Report.Part) (xs : List α)
    (f : α → List Remark) :
    listed o part (xs.flatMap f) = xs.flatMap fun x => listed o part (f x) := by
  unfold listed
  rw [List.filter_flatMap, List.map_flatMap]

theorem Report.part_eq (r : Report) (part : Part) :
    r.part part = Remark.listed r.options part r.remarks := by
  unfold Remark.listed Remark.part
  cases part with
  | errors =>
      show (r.remarks.filter r.isError).map _ = _
      congr 2
      funext m
      unfold Report.isError
      split_ifs with h <;> simp [h]
  | warnings =>
      show (r.remarks.filter fun m => !r.isError m).map _ = _
      congr 2
      funext m
      unfold Report.isError
      split_ifs with h <;> simp [h]

namespace Program

/-- What the checks of references add to a part of the report. -/
def references (o : Options) (part : Report.Part) (p : Program) : List Diagnostic :=
  Remark.listed o part (checkReferences (.ofProgram p)).2

def userReferences (o : Options) (part : Report.Part) (p : Program) : List Diagnostic :=
  Remark.listed o part (checkUsers (.ofProgram p))

theorem part_analyze (o : Options) (part : Report.Part) (p : Program) :
    (p.analyze o).part part =
      Remark.listed o part (Declarations.ofProgram p).duplicates ++ p.references o part ++
        Remark.listed o part (checkRisks o (.ofProgram p)) := by
  rw [Report.part_eq, references, ← Remark.listed_append, ← Remark.listed_append]
  rfl

theorem references_withRules (o : Options) (part : Report.Part) (p : Program)
    (rules : List Rule) :
    (p.withRules rules).references o part = p.userReferences o part ++ rules.flatMap fun r =>
      Remark.listed o part (checkRule (.ofProgram p) (Declarations.ofProgram p).symbols r).2 := by
  obtain ⟨global, _, houtermost, hlevel⟩ := Declarations.exists_symbols_ofProgram p
  have hrules := houtermost.checkRules_eq hlevel { Declarations.ofProgram p with rules := rules }
    rules
  unfold references userReferences checkReferences
  dsimp only
  rw [Declarations.ofProgram_withRules, hrules, Remark.listed_append, Remark.listed_flatMap]
  rfl

/-- The rules of a program are among its declarations, so with these it is checked as it is. -/
theorem references_withRules_rules (o : Options) (part : Report.Part) (p : Program) :
    (p.withRules p.rules).references o part = p.references o part := by
  unfold references
  rw [Declarations.ofProgram_withRules, ← (Declarations.records_ofProgram p).rules]

theorem exists_symbols_analyze (o : Options) (p : Program) : ∃ global : Scope,
    (Declarations.ofProgram p).symbols = ⟨[global], 0⟩ ∧
      (p.analyze o).symbols = ⟨global :: (p.rules.filter fun r => r.condition.isSome).map
        (Declarations.ofProgram p).conditionScope, 0⟩ := by
  obtain ⟨global, hsymbols, houtermost, hlevel⟩ := Declarations.exists_symbols_ofProgram p
  refine ⟨global, hsymbols, ?_⟩
  show (checkRules _ _ _).1 = _
  rw [houtermost.checkRules_eq hlevel, (Declarations.records_ofProgram p).rules, hsymbols]
  rfl

theorem exists_define_condition (p : Program) (before : List Rule) (r : Rule) (x : Symbol) :
    ∃ t', ((checkRules (.ofProgram p) (Declarations.ofProgram p).symbols before).1.enter
      ("policy@" ++ toString r.line)).define x = .ok t' := by
  obtain ⟨global, _, houtermost, hlevel⟩ := Declarations.exists_symbols_ofProgram p
  exact (houtermost.checkRules (.ofProgram p) before).exists_define hlevel _ x

/-- **The checks of references leave nothing behind but the scopes of conditions.** What they add
to the errors and to the warnings is what they find in the users, and then in each rule what they
find in it when it alone stands after the definitions. The table is in its global scope again,
which is as it was, followed by one scope for each condition; nothing that is bound in such a scope
when it is opened clashes, whatever rules were checked before. -/
theorem references_by_rule (o : Options) (p : Program) :
    (∀ part, ∃ alone : Rule → List Diagnostic,
      (∀ r, (p.withRules [r]).references o part = p.userReferences o part ++ alone r) ∧
        p.references o part = p.userReferences o part ++ p.rules.flatMap alone ∧
        (p.analyze o).part part =
          Remark.listed o part (Declarations.ofProgram p).duplicates ++ p.references o part ++
            Remark.listed o part (checkRisks o (.ofProgram p))) ∧
      (∃ (global : Scope) (opened : List Scope),
        (Declarations.ofProgram p).symbols = ⟨[global], 0⟩ ∧
          (p.analyze o).symbols = ⟨global :: opened, 0⟩ ∧
          List.Forall₂ (fun r s => r.ConditionScope ((Declarations.ofProgram p).target? r) s)
            (p.rules.filter fun r => r.condition.isSome) opened) ∧
      ∀ (before : List Rule) (r : Rule) (x : Symbol), ∃ t',
        ((checkRules (.ofProgram p) (Declarations.ofProgram p).symbols before).1.enter
          ("policy@" ++ toString r.line)).define x = .ok t' := by
  refine ⟨fun part => ?_, ?_, p.exists_define_condition⟩
  · refine ⟨fun r => Remark.listed o part
      (checkRule (.ofProgram p) (Declarations.ofProgram p).symbols r).2, fun r => ?_, ?_,
      part_analyze o part p⟩
    · rw [references_withRules, List.flatMap_singleton]
    · rw [← references_withRules, references_withRules_rules]
  · obtain ⟨global, hglobal, hanalyze⟩ := exists_symbols_analyze o p
    refine ⟨global, _, hglobal, hanalyze, ?_⟩
    rw [List.forall₂_map_right_iff, List.forall₂_same]
    exact fun r _ => (Declarations.ofProgram p).conditionScope_spec r

/-- The first rule may read the colour of the vault, and the second is about something else. -/
example : (references {} .warnings ⟨[
    .definition .resource ⟨"vault", [("colour", [.string "red"])], 1⟩,
    .rule ⟨.allow, ["read"], "vault", some (.attribute "resource" "colour" 2), 2⟩,
    .rule ⟨.allow, ["read"], "vault.door", some (.attribute "resource" "colour" 3), 3⟩]⟩) =
      [⟨3, .warning, "Unknown attribute 'colour' on object 'resource'", .semantic⟩] := by
  decide +kernel

end Program
end AccessPolicy
