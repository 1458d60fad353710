import AccessPolicy.Proofs.ProgramReading

/-!
# What is read is well formed

In a program that is read from a text, names are identifiers, lines are counted from 1, and
lists of values or actions are not empty. The actions of a rule, and of what a role can do, are
words for actions or the star.
-/

namespace AccessPolicy

/-- A word for an action, in small letters, or the star. -/
def IsAction (action : String) : Prop := action ∈ actionWords ∨ action = "*"

/-! ## Lists of items -/

namespace Items
variable {β : Type} {C : TokenClass β}

theorem meanings_ne_nil (items : Items C) : items.meanings ≠ [] := by
  cases items <;> exact List.cons_ne_nil _ _

theorem exists_token_of_mem_meanings {items : Items C} {b : β} (h : b ∈ items.meanings) :
    ∃ t ∈ items.tokens, C.Means t.token b := by
  induction items with
  | last item =>
      obtain rfl := List.mem_singleton.mp h
      exact ⟨item.located, List.mem_singleton_self _, item.means⟩
  | cons item comma rest ih =>
      rcases List.mem_cons.mp h with rfl | h
      · exact ⟨item.located, List.mem_cons_self, item.means⟩
      · obtain ⟨t, ht, hmeaning⟩ := ih h
        exact ⟨t, List.mem_cons_of_mem _ (List.mem_cons_of_mem _ ht), hmeaning⟩

end Items

theorem Token.IsAction.isAction {token : Token} {action : String} (h : token.IsAction action)
    (hw : token.WellFormed) : AccessPolicy.IsAction action := by
  cases h with
  | word spelling => exact Or.inl hw
  | star => exact Or.inr rfl

namespace Items
variable {actions : Items .action}

theorem actions_ne_nil (actions : Items .action) : actions.actions ≠ [] := by
  obtain ⟨a, ha⟩ := List.exists_mem_of_ne_nil _ actions.meanings_ne_nil
  exact List.ne_nil_of_mem (List.mem_eraseDups.mpr ha)

theorem isAction_of_mem_actions (hw : ∀ t ∈ actions.tokens, t.token.WellFormed) {action : String}
    (h : action ∈ actions.actions) : IsAction action := by
  obtain ⟨t, ht, hmeaning⟩ := exists_token_of_mem_meanings (List.mem_eraseDups.mp h)
  exact hmeaning.isAction (hw t ht)

end Items

/-! ## Properties -/

/-- The values of a property: there is one, and what one can do are actions. -/
structure ValuesWellFormed (key : String) (values : List Literal) : Prop where
  ne_nil : values ≠ []
  can : key = "can" → ∀ v ∈ values, ∃ action, v = .string action ∧ IsAction action

theorem Property.Derivation.wellFormed (d : Property.Derivation)
    (hw : ∀ t ∈ d.tokens, t.token.WellFormed) : ValuesWellFormed d.entry.1 d.entry.2 := by
  cases d with
  | can n colon actions =>
      have hactions : ∀ t ∈ actions.tokens, t.token.WellFormed := fun t ht =>
        hw t (List.mem_cons_of_mem _ (List.mem_cons_of_mem _ ht))
      constructor
      · exact mt List.map_eq_nil_iff.mp actions.actions_ne_nil
      · intro _ v hv
        obtain ⟨action, haction, rfl⟩ := List.mem_map.mp hv
        exact ⟨action, rfl, Items.isAction_of_mem_actions hactions haction⟩
  | named name n colon values =>
      have hname : (Token.ident name).WellFormed := hw ⟨.ident name, n⟩ List.mem_cons_self
      constructor
      · exact values.meanings_ne_nil
      · -- `can` is a word of its own
        intro hcan
        have hword : Token.ofWord "can" = .keyword .can := by decide +kernel
        obtain ⟨_, hident⟩ := hname
        rw [show name = "can" from hcan, hword] at hident
        cases hident

/-- The name of a property is an identifier, but for `can`, and its values can be written down. -/
theorem Property.Derivation.writable (d : Property.Derivation)
    (hw : ∀ t ∈ d.tokens, t.token.WellFormed) :
    (d.entry.1 = "can" ∨ (Token.ident d.entry.1).WellFormed) ∧ ∀ v ∈ d.entry.2, v.Writable := by
  cases d with
  | can n colon actions =>
      refine ⟨Or.inl rfl, fun v hv => ?_⟩
      obtain ⟨action, _, rfl⟩ := List.mem_map.mp hv
      trivial
  | named name n colon values =>
      refine ⟨Or.inr (hw ⟨.ident name, n⟩ List.mem_cons_self), fun v hv => ?_⟩
      obtain ⟨t, ht, hmeaning⟩ := Items.exists_token_of_mem_meanings hv
      exact hmeaning.writable (hw t (List.mem_cons_of_mem _ (List.mem_cons_of_mem _ ht)))

theorem Properties.Derivation.exists_property (d : Properties.Derivation)
    {e : String × List Literal} (he : e ∈ d.entries) :
    ∃ q : Property.Derivation, q.entry = e ∧ ∀ t ∈ q.tokens, t ∈ d.tokens := by
  induction d with
  | last p =>
      obtain rfl := List.mem_singleton.mp he
      exact ⟨p, rfl, fun _ ht => ht⟩
  | cons p comma rest ih =>
      rcases List.mem_cons.mp he with rfl | he
      · exact ⟨p, rfl, fun t ht => List.mem_append_left _ ht⟩
      · obtain ⟨q, hq, htokens⟩ := ih he
        exact ⟨q, hq, fun t ht => List.mem_append_right _ (List.mem_append_right _ (htokens t ht))⟩

/-! ## Statements -/

namespace Program
variable {maxErrors : Nat} {source : String} {p : Program} {kind : DefinitionKind}
  {d : Definition} {r : Rule}

theorem exists_property (h : ofTokens maxErrors (TokenStream.scan source).1 = .ok p)
    (hd : d ∈ p.definitions kind) {e : String × List Literal} (he : e ∈ d.properties) :
    ∃ q : Property.Derivation, q.entry = e ∧ ∀ t ∈ q.tokens, t.token.WellFormed := by
  obtain ⟨derivation, rfl, htokens⟩ := exists_derivation_of_mem_definitions h hd
  have hentry : e ∈ derivation.entries := NameMap.mem_of_mem_ofList he
  unfold Definition.Derivation.entries at hentry
  cases hproperties : derivation.properties with
  | none =>
      rw [hproperties] at hentry
      cases hentry
  | some properties =>
      rw [hproperties] at hentry
      obtain ⟨q, hq, hmem⟩ := properties.exists_property hentry
      refine ⟨q, hq, fun t ht => TokenStream.wellFormed_of_mem_scan (htokens t ?_)⟩
      simp [Statement.Derivation.tokens, Definition.Derivation.tail, Definition.Derivation.body,
        hproperties, hmem t ht]

theorem wellFormed_properties (h : ofTokens maxErrors (TokenStream.scan source).1 = .ok p)
    (hd : d ∈ p.definitions kind) : ∀ e ∈ d.properties, ValuesWellFormed e.1 e.2 := by
  intro e he
  obtain ⟨q, rfl, hq⟩ := exists_property h hd he
  exact q.wellFormed hq

theorem writable_properties (h : ofTokens maxErrors (TokenStream.scan source).1 = .ok p)
    (hd : d ∈ p.definitions kind) : ∀ e ∈ d.properties,
      (e.1 = "can" ∨ (Token.ident e.1).WellFormed) ∧ ∀ v ∈ e.2, v.Writable := by
  intro e he
  obtain ⟨q, rfl, hq⟩ := exists_property h hd he
  exact q.writable hq

theorem isAction_of_mem_can (h : ofTokens maxErrors (TokenStream.scan source).1 = .ok p)
    (hd : d ∈ p.definitions kind) : ∀ action ∈ d.texts "can", IsAction action := by
  intro action hmem
  obtain ⟨v, hv, rfl⟩ := List.mem_map.mp hmem
  unfold Definition.values at hv
  cases hvalues : NameMap.get? d.properties "can" with
  | none =>
      rw [hvalues] at hv
      cases hv
  | some values =>
      rw [hvalues] at hv
      obtain ⟨_, hcan⟩ := wellFormed_properties h hd _ (NameMap.mem_of_get? hvalues)
      obtain ⟨action, rfl, haction⟩ := hcan rfl v hv
      exact haction

theorem actions_ne_nil (h : ofTokens maxErrors (TokenStream.scan source).1 = .ok p)
    (hr : r ∈ p.rules) : r.actions ≠ [] := by
  obtain ⟨derivation, rfl, _⟩ := exists_derivation_of_mem_rules h hr
  exact derivation.actions.actions_ne_nil

theorem isAction_of_mem_actions (h : ofTokens maxErrors (TokenStream.scan source).1 = .ok p)
    (hr : r ∈ p.rules) : ∀ action ∈ r.actions, IsAction action := by
  obtain ⟨derivation, rfl, htokens⟩ := exists_derivation_of_mem_rules h hr
  intro action haction
  refine Items.isAction_of_mem_actions (fun t ht => ?_) haction
  refine TokenStream.wellFormed_of_mem_scan (htokens t ?_)
  simp [Statement.Derivation.tokens, Rule.Derivation.tail, ht]

theorem one_le_line_of_mem_rules (h : ofTokens maxErrors (TokenStream.scan source).1 = .ok p)
    (hr : r ∈ p.rules) : 1 ≤ r.line := by
  obtain ⟨derivation, rfl, htokens⟩ := exists_derivation_of_mem_rules h hr
  exact TokenStream.one_le_line (htokens _ List.mem_cons_self)

theorem one_le_line_of_mem_definitions
    (h : ofTokens maxErrors (TokenStream.scan source).1 = .ok p) (hd : d ∈ p.definitions kind) :
    1 ≤ d.line := by
  obtain ⟨derivation, rfl, htokens⟩ := exists_derivation_of_mem_definitions h hd
  exact TokenStream.one_le_line (htokens _ List.mem_cons_self)

end Program
end AccessPolicy
