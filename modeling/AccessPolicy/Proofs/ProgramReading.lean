import AccessPolicy.Proofs.ConditionText
import AccessPolicy.Proofs.ProgramGrammar

/-!
# What is read of a program

Every statement of a program is derived by some of the program's tokens
(`Program.exists_derivation_of_mem`). So it is on the line of one of them, its
names are identifiers, and its condition can be written down.
-/

namespace AccessPolicy

theorem Token.IsLiteral.writable {token : Token} {v : Literal} (h : token.IsLiteral v)
    (hw : token.WellFormed) : v.Writable := by
  cases h with
  | int n => exact hw
  | decimal spelling => exact TokenStream.readsAs_decimal.mpr hw
  | _ => trivial

theorem Expr.Spelled.writable {l : Level} {ts : List Located} {e : Expr} (h : Spelled l ts e)
    (hw : ∀ t ∈ ts, t.token.WellFormed) : e.Writable := by
  induction h with
  | parens _ ih => exact ih fun t ht => hw t (by simp [ht])
  | access object field n m k =>
      have hobject : (Token.ident object).WellFormed := hw ⟨.ident object, n⟩ (by simp)
      have hfield : (Token.ident field).WellFormed := hw ⟨.ident field, k⟩ (by simp)
      exact ⟨TokenStream.readsAs_ident.mpr hobject, TokenStream.readsAs_ident.mpr hfield⟩
  | literal hv => exact hv.writable (hw _ (List.mem_singleton_self _))
  | not _ ih => exact ih fun t ht => hw t (List.mem_cons_of_mem _ ht)
  | positive _ ih => exact ih hw
  | single _ ih => exact ih hw
  | binary _ _ _ ihLeft ihRight =>
      exact ⟨ihLeft fun t ht => hw t (by simp [ht]), ihRight fun t ht => hw t (by simp [ht])⟩

namespace Program
variable {maxErrors : Nat} {source : String} {p : Program}

theorem mem_rules {r : Rule} : r ∈ p.rules ↔ .rule r ∈ p.statements := by
  unfold rules
  rw [List.mem_filterMap]
  constructor
  · rintro ⟨s, hs, h⟩
    cases s with
    | definition kind d => cases h
    | rule r' =>
        cases h
        exact hs
  · intro h
    exact ⟨_, h, rfl⟩

theorem mem_definitions {kind : DefinitionKind} {d : Definition} :
    d ∈ p.definitions kind ↔ .definition kind d ∈ p.statements := by
  unfold definitions
  rw [List.mem_filterMap]
  constructor
  · rintro ⟨s, hs, h⟩
    cases s with
    | definition kind' d' =>
        dsimp only at h
        split_ifs at h with hkind
        cases h
        subst hkind
        exact hs
    | rule r => cases h
  · intro h
    exact ⟨_, h, if_pos rfl⟩

theorem exists_derivation_of_mem (h : ofTokens maxErrors (TokenStream.scan source).1 = .ok p)
    {s : Statement} (hs : s ∈ p.statements) : ∃ d : Statement.Derivation,
      d.statement = s ∧ ∀ t ∈ d.tokens, t ∈ (TokenStream.scan source).1.tokens := by
  obtain ⟨⟨ds⟩, htokens, rfl⟩ := exists_derivation_of_ofTokens h
  obtain ⟨d, hd, rfl⟩ := List.mem_map.mp hs
  refine ⟨d, rfl, fun t ht => ?_⟩
  rw [← htokens]
  exact List.mem_flatMap.mpr ⟨d, hd, ht⟩

theorem exists_derivation_of_mem_rules
    (h : ofTokens maxErrors (TokenStream.scan source).1 = .ok p) {r : Rule} (hr : r ∈ p.rules) :
    ∃ d : Rule.Derivation, d.rule = r ∧
      ∀ t ∈ (Statement.Derivation.rule d).tokens, t ∈ (TokenStream.scan source).1.tokens := by
  obtain ⟨d, hd, htokens⟩ := exists_derivation_of_mem h (mem_rules.mp hr)
  cases d with
  | definition d => cases hd
  | rule d =>
      cases hd
      exact ⟨d, rfl, htokens⟩

theorem exists_derivation_of_mem_definitions
    (h : ofTokens maxErrors (TokenStream.scan source).1 = .ok p) {kind : DefinitionKind}
    {definition : Definition} (hd : definition ∈ p.definitions kind) :
    ∃ d : Definition.Derivation, d.definition = definition ∧
      ∀ t ∈ (Statement.Derivation.definition d).tokens,
        t ∈ (TokenStream.scan source).1.tokens := by
  obtain ⟨d, hd, htokens⟩ := exists_derivation_of_mem h (mem_definitions.mp hd)
  cases d with
  | definition d =>
      cases hd
      exact ⟨d, rfl, htokens⟩
  | rule d => cases hd

theorem writable_of_mem_rules (h : ofTokens maxErrors (TokenStream.scan source).1 = .ok p)
    {r : Rule} (hr : r ∈ p.rules) {e : Expr} (he : r.condition = some e) : e.Writable := by
  obtain ⟨d, rfl, htokens⟩ := exists_derivation_of_mem_rules h hr
  obtain ⟨c, hc, rfl⟩ := Option.map_eq_some_iff.mp he
  refine Expr.Spelled.writable c.condition.spells fun t ht => ?_
  refine TokenStream.wellFormed_of_mem_scan (htokens t ?_)
  simp [Statement.Derivation.tokens, Rule.Derivation.tail, hc, clauseTokens, ht]

theorem wellFormed_of_mem_definitions
    (h : ofTokens maxErrors (TokenStream.scan source).1 = .ok p) {kind : DefinitionKind}
    {definition : Definition} (hd : definition ∈ p.definitions kind) :
    (Token.ident definition.name).WellFormed := by
  obtain ⟨d, rfl, htokens⟩ := exists_derivation_of_mem_definitions h hd
  have hname := htokens ⟨.ident d.name, d.nameLine⟩ (List.mem_cons_of_mem _ List.mem_cons_self)
  exact TokenStream.wellFormed_of_mem_scan hname

theorem line_le_of_mem_rules (h : ofTokens maxErrors (TokenStream.scan source).1 = .ok p)
    {r : Rule} (hr : r ∈ p.rules) : r.line ≤ (TokenStream.scan source).1.endLine := by
  obtain ⟨d, rfl, htokens⟩ := exists_derivation_of_mem_rules h hr
  have hline := TokenStream.line_le_endLine (htokens _ List.mem_cons_self)
  exact hline

theorem line_le_of_mem_definitions (h : ofTokens maxErrors (TokenStream.scan source).1 = .ok p)
    {kind : DefinitionKind} {d : Definition} (hd : d ∈ p.definitions kind) :
    d.line ≤ (TokenStream.scan source).1.endLine := by
  obtain ⟨d, rfl, htokens⟩ := exists_derivation_of_mem_definitions h hd
  have hline := TokenStream.line_le_endLine (htokens _ List.mem_cons_self)
  exact hline

end Program
end AccessPolicy
