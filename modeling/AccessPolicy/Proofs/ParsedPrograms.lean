import AccessPolicy.Proofs.WellFormedPrograms
import Mathlib.Data.List.Induction
import Mathlib.Data.List.Nodup

/-!
# Parsed programs are well formed

The lexer tells words and numbers apart and the reader takes them where a phrase has a place for
them. Both together see to it that the names of a program are no reserved words, that its lists
of actions and values have the form that the rest of the development counts on, and that its
statements stand in the order of their lines (`Program.wellFormed_of_ofTokens`).
-/

namespace AccessPolicy

open Lexeme

/-! ## Names -/

/-- The words that are reserved as they are spelled here. -/
def structuralWords : List String :=
  ["ROLE", "USER", "RESOURCE", "ALLOW", "DENY", "ON", "IF", "AND", "OR", "NOT"]

/-- The words that are reserved whatever the case of their letters. -/
def caselessWords : List String := actionWords ++ ["action", "can", "true", "false"]

/-- A letter or `_`, then letters, digits and `_`, and no reserved word. -/
structure IsName (s : String) : Prop where
  word : IsWord s.toList
  notStructural : s ∉ structuralWords
  notCaseless : asciiLower s ∉ caselessWords

theorem Token.ofWord_eq_ident_iff {s : String} :
    ofWord s = .ident s ↔ s ∉ structuralWords ∧ asciiLower s ∉ caselessWords := by
  constructor
  · intro h
    constructor
    · intro hmem
      have hkeywords : ∀ w ∈ structuralWords, ofWord w ≠ .ident w := by decide +kernel
      exact hkeywords s hmem h
    · intro hmem
      -- only what is not structural is told by its letters alone
      unfold ofWord at h
      split at h
      all_goals try cases h
      split at h
      all_goals try cases h
      next _ haction hcan htrue hfalse =>
      split_ifs at h with hword
      rcases List.mem_append.mp hmem with hmem | hmem
      · exact hword (List.contains_iff_mem.mpr hmem)
      · simp only [List.mem_cons, List.not_mem_nil, or_false] at hmem
        rcases hmem with hmem | hmem | hmem | hmem
        · exact haction hmem
        · exact hcan hmem
        · exact htrue hmem
        · exact hfalse hmem
  · rintro ⟨hstructural, hcaseless⟩
    unfold ofWord
    split
    all_goals try exact absurd (by decide) hstructural
    have hother : ∀ w ∈ caselessWords, asciiLower s ≠ w := fun w hw heq => hcaseless (heq ▸ hw)
    split
    · next h => exact absurd h (hother _ (by decide))
    · next h => exact absurd h (hother _ (by decide))
    · next h => exact absurd h (hother _ (by decide))
    · next h => exact absurd h (hother _ (by decide))
    · have hword : ¬actionWords.contains (asciiLower s) = true := by
        rw [List.contains_iff_mem]
        exact fun hmem => hcaseless (List.mem_append_left _ hmem)
      exact if_neg hword

theorem isName_iff {s : String} : IsName s ↔ (Token.ident s).WellFormed := by
  constructor
  · rintro ⟨hword, hstructural, hcaseless⟩
    exact ⟨hword, Token.ofWord_eq_ident_iff.mpr ⟨hstructural, hcaseless⟩⟩
  · rintro ⟨hword, hident⟩
    obtain ⟨hstructural, hcaseless⟩ := Token.ofWord_eq_ident_iff.mp hident
    exact ⟨hword, hstructural, hcaseless⟩

/-! ## Numbers -/

/-- A whole number is not negative and has 64 bits at most. A decimal is a row of digits with a
fraction, or one whose value has more bits. -/
def Literal.WellFormed : Literal → Prop
  | .int n => 0 ≤ (n : Int) ∧ n ≤ greatestInt
  | .decimal spelling => IsDecimal spelling.toList
  | _ => True

theorem Literal.Writable.wellFormed {v : Literal} (h : v.Writable) : v.WellFormed := by
  cases v with
  | int n => exact ⟨Int.natCast_nonneg n, h⟩
  | decimal spelling => exact TokenStream.readsAs_decimal.mp h
  | _ => trivial

namespace Expr

/-- Every attribute of the expression has names, and every number is well formed. -/
def WellFormed : Expr → Prop
  | .binary _ left right _ => WellFormed left ∧ WellFormed right
  | .not operand _ => WellFormed operand
  | .attribute object field _ => IsName object ∧ IsName field
  | .literal value _ => value.WellFormed

theorem Writable.wellFormed {e : Expr} (h : e.Writable) : e.WellFormed := by
  induction e with
  | binary op left right line ihLeft ihRight => exact ⟨ihLeft h.1, ihRight h.2⟩
  | not operand line ih => exact ih h
  | «attribute» object field line =>
      obtain ⟨hobject, hfield⟩ := h
      exact ⟨isName_iff.mpr (TokenStream.readsAs_ident.mp hobject),
        isName_iff.mpr (TokenStream.readsAs_ident.mp hfield)⟩
  | literal value line => exact Literal.Writable.wellFormed h

end Expr

/-! ## Actions -/

structure ActionsWellFormed (actions : List String) : Prop where
  ne_nil : actions ≠ []
  nodup : actions.Nodup
  isAction : ∀ action ∈ actions, IsAction action

theorem nodup_eraseDups (actions : List String) : actions.eraseDups.Nodup := by
  rw [← foldl_addNew]
  induction actions using List.reverseRecOn with
  | nil => exact List.nodup_nil
  | append_singleton actions action ih =>
      rw [List.foldl_concat]
      unfold addNew
      split_ifs with hseen
      · exact ih
      · refine ih.append (List.nodup_singleton _) ?_
        rwa [List.disjoint_singleton]

theorem Items.actionsWellFormed {actions : Items .action}
    (hw : ∀ t ∈ actions.tokens, t.token.WellFormed) : ActionsWellFormed actions.actions where
  ne_nil := actions.actions_ne_nil
  nodup := nodup_eraseDups actions.meanings
  isAction := fun _ => isAction_of_mem_actions hw

/-! ## Statements -/

structure Definition.WellFormed (d : Definition) : Prop where
  name : IsName d.name
  keys : ∀ e ∈ d.properties, e.1 ≠ "can" → IsName e.1
  values_ne_nil : ∀ e ∈ d.properties, e.2 ≠ []
  values : ∀ e ∈ d.properties, ∀ v ∈ e.2, v.WellFormed
  can : ∀ e ∈ d.properties, e.1 = "can" →
    ∃ actions : List String, e.2 = actions.map .string ∧ ActionsWellFormed actions

structure Rule.WellFormed (r : Rule) : Prop where
  actions : ActionsWellFormed r.actions
  condition : ∀ e, r.condition = some e → e.WellFormed

def Statement.line : Statement → Nat
  | .definition _ d => d.line
  | .rule r => r.line

/-- All statements are well formed, and they stand in the order of their lines. -/
structure Program.WellFormed (p : Program) : Prop where
  definitions : ∀ kind, ∀ d ∈ p.definitions kind, d.WellFormed
  rules : ∀ r ∈ p.rules, r.WellFormed
  one_le_line : ∀ s ∈ p.statements, 1 ≤ s.line
  lines : (p.statements.map Statement.line).Pairwise (· ≤ ·)

theorem Property.Derivation.exists_actions (d : Property.Derivation)
    (hw : ∀ t ∈ d.tokens, t.token.WellFormed) (hcan : d.entry.1 = "can") :
    ∃ actions : List String, d.entry.2 = actions.map .string ∧ ActionsWellFormed actions := by
  cases d with
  | can n colon actions =>
      refine ⟨actions.actions, rfl, Items.actionsWellFormed fun t ht => ?_⟩
      exact hw t (List.mem_cons_of_mem _ (List.mem_cons_of_mem _ ht))
  | named name n colon values =>
      -- `can` is no name
      have hname : IsName name := isName_iff.mpr (hw ⟨.ident name, n⟩ List.mem_cons_self)
      obtain rfl : name = "can" := hcan
      exact absurd (by decide +kernel) hname.notCaseless

theorem Statement.Derivation.exists_line (d : Statement.Derivation) :
    ∃ t ∈ d.tokens, t.line = d.statement.line := by
  cases d with
  | definition d => exact ⟨_, List.mem_cons_self, rfl⟩
  | rule d => exact ⟨_, List.mem_cons_self, rfl⟩

namespace Program
variable {maxErrors : Nat} {source : String} {p : Program}

theorem wellFormed_definition (h : ofTokens maxErrors (TokenStream.scan source).1 = .ok p)
    {kind : DefinitionKind} {d : Definition} (hd : d ∈ p.definitions kind) : d.WellFormed where
  name := isName_iff.mpr (wellFormed_of_mem_definitions h hd)
  keys e he hcan := isName_iff.mpr ((writable_properties h hd e he).1.resolve_left hcan)
  values_ne_nil e he := (wellFormed_properties h hd e he).ne_nil
  values e he v hv := ((writable_properties h hd e he).2 v hv).wellFormed
  can e he hcan := by
    obtain ⟨q, rfl, hq⟩ := exists_property h hd he
    exact q.exists_actions hq hcan

theorem wellFormed_rule (h : ofTokens maxErrors (TokenStream.scan source).1 = .ok p) {r : Rule}
    (hr : r ∈ p.rules) : r.WellFormed where
  actions := by
    obtain ⟨derivation, rfl, htokens⟩ := exists_derivation_of_mem_rules h hr
    refine Items.actionsWellFormed fun t ht => TokenStream.wellFormed_of_mem_scan (htokens t ?_)
    simp [Statement.Derivation.tokens, Rule.Derivation.tail, ht]
  condition e he := (writable_of_mem_rules h hr he).wellFormed

/-- The statements are in the order of the tokens, and these are in the order of their lines. -/
theorem pairwise_line_statements (h : ofTokens maxErrors (TokenStream.scan source).1 = .ok p) :
    (p.statements.map Statement.line).Pairwise (· ≤ ·) := by
  obtain ⟨⟨ds⟩, htokens, rfl⟩ := exists_derivation_of_ofTokens h
  have hlines := TokenStream.pairwise_line source
  rw [← htokens] at hlines
  obtain ⟨_, hlater⟩ := List.pairwise_flatMap.mp hlines
  show ((ds.map Statement.Derivation.statement).map Statement.line).Pairwise (· ≤ ·)
  rw [List.map_map, List.pairwise_map]
  refine hlater.imp fun {d later} hle => ?_
  obtain ⟨t, ht, hline⟩ := d.exists_line
  obtain ⟨u, hu, hlineLater⟩ := later.exists_line
  show d.statement.line ≤ later.statement.line
  rw [← hline, ← hlineLater]
  exact hle t ht u hu

/-- **Parsed programs are well formed.** -/
theorem wellFormed_of_ofTokens (h : ofTokens maxErrors (TokenStream.scan source).1 = .ok p) :
    p.WellFormed where
  definitions _ _ := wellFormed_definition h
  rules _ := wellFormed_rule h
  one_le_line s hs := by
    cases s with
    | definition kind d => exact one_le_line_of_mem_definitions h (mem_definitions.mpr hs)
    | rule r => exact one_le_line_of_mem_rules h (mem_rules.mpr hs)
  lines := pairwise_line_statements h

/-- Actions that are spelled in several ways, and a number with a fraction. -/
def spelledSource : String :=
  "ROLE clerk \x7b CAN: Read, READ, * level: 3, 2.5 \x7d\nDENY action: Delete ON RESOURCE: *"

theorem wellFormed_of_ofTokens_spelled : ∃ p,
    ofTokens 10 (TokenStream.scan spelledSource).1 = .ok p ∧
      p.statements.map Statement.line = [1, 2] ∧ p.WellFormed := by
  have hread : (ofTokens 10 (TokenStream.scan spelledSource).1).toOption.map
      (fun p => p.statements.map Statement.line) = some [1, 2] := by decide +kernel
  obtain ⟨p, hp, hlines⟩ := Option.map_eq_some_iff.mp hread
  have hprogram := eq_ok_of_toOption hp
  exact ⟨p, hprogram, hlines, wellFormed_of_ofTokens hprogram⟩

end Program
end AccessPolicy
