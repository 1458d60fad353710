import AccessPolicy.Proofs.ProgramDerivations
import AccessPolicy.Proofs.Results
import AccessPolicy.Proofs.Tokens

/-!
# Reading programs is deriving them

What a reader takes off the front of the tokens has a derivation, and the tokens
of every derivation are read as what it stands for, if the phrase does not go on
in what follows. Both need that `can` is never a name, and the lexer sees to that
(`reservesCan_scan`). So the tokens of a source text are a program just if they
have a derivation, which is the only one (`Program.ofTokens_iff_derivation`).
-/

namespace AccessPolicy

open Reading

/-! ## Single tokens -/

section
variable {ts rest : List Located}

theorem expect_cons (token : Token) (x : Expectation) (n : Nat) (ts : List Located) :
    expect token x (⟨token, n⟩ :: ts) = .ok Shorter.tail := if_pos rfl

theorem tokens_of_expect {token : Token} {x : Expectation} {h₁ : rest.length < ts.length}
    (h : expect token x ts = .ok ⟨rest, h₁⟩) : ∃ n, ts = ⟨token, n⟩ :: rest :=
  Expr.expect_eq_ok h

theorem tokens_of_identifier {x : Expectation} {name : String} {h₁ : rest.length < ts.length}
    (h : identifier x ts = .ok (name, ⟨rest, h₁⟩)) : ∃ n, ts = ⟨.ident name, n⟩ :: rest :=
  Expr.identifier_eq_ok h

/-- The word `can` begins a property and is no name. -/
def ReservesCan (ts : List Located) : Prop := ∀ t ∈ ts, t.token ≠ .ident "can"

theorem ReservesCan.of_suffix {us : List Located} (h : ReservesCan ts) (hs : us <:+ ts) :
    ReservesCan us :=
  fun t ht => h t (hs.subset ht)

theorem ReservesCan.left {us : List Located} (h : ReservesCan (us ++ ts)) : ReservesCan us :=
  fun t ht => h t (List.mem_append_left _ ht)

theorem ReservesCan.right {us : List Located} (h : ReservesCan (us ++ ts)) : ReservesCan ts :=
  fun t ht => h t (List.mem_append_right _ ht)

theorem reservesCan_scan (source : String) : ReservesCan (TokenStream.scan source).1.tokens := by
  intro t ht hcan
  have hword : Token.ofWord "can" = .ident "can" := by
    have hw := TokenStream.wellFormed_of_mem_scan ht
    rw [hcan] at hw
    exact hw.2
  cases hword

/-! ## Values -/

/-- A comma comes next only before a property. -/
def CommaBeforeProperty (rest : List Located) : Prop :=
  ∀ n us, rest = ⟨.mark .comma, n⟩ :: us → startsProperty us = true

theorem derivation_of_readValues {vs : List Literal} :
    outcome (readValues ts) = .ok (vs, rest) → ∃ d : Items .literal,
      ts = d.tokens ++ rest ∧ d.meanings = vs ∧ CommaBeforeProperty rest := by
  fun_induction readValues ts generalizing vs rest
  case case1 | case2 | case4 =>
    intro h
    cases h
  case case3 t value hv n after hstarts =>
    intro h
    cases h
    refine ⟨.last ⟨t, value, Token.isLiteral_iff.mpr hv⟩, rfl, rfl, ?_⟩
    rintro _ _ ⟨⟩
    exact hstarts
  case case5 t value hv n after hstarts values r hok ih =>
    intro h
    cases h
    obtain ⟨d, hd, hvalues, hcomma⟩ := ih (outcome_eq_ok.mpr ⟨r.2, hok⟩)
    refine ⟨.cons ⟨t, value, Token.isLiteral_iff.mpr hv⟩ n d, ?_, ?_, hcomma⟩
    · exact congrArg (fun ts => t :: ⟨.mark .comma, n⟩ :: ts) hd
    · rw [Items.meanings, hvalues]
  case case6 t value hv rest' hne =>
    intro h
    cases h
    refine ⟨.last ⟨t, value, Token.isLiteral_iff.mpr hv⟩, rfl, rfl, ?_⟩
    intro n us hus
    exact absurd hus (hne n us)

theorem readValues_of_derivation (d : Items .literal) (hrest : Items.Ends rest) :
    outcome (readValues (d.tokens ++ rest)) = .ok (d.meanings, rest) := by
  induction d with
  | last item =>
      rw [Items.tokens, List.singleton_append, readValues, Token.isLiteral_iff.mp item.means]
      dsimp only
      split
      · next n after =>
        rw [if_pos (hrest.comma n after rfl)]
        rfl
      · rfl
  | cons item comma d ih =>
      obtain ⟨hlt, hread⟩ := outcome_eq_ok.mp ih
      rw [Items.tokens, List.cons_append, List.cons_append, readValues,
        Token.isLiteral_iff.mp item.means]
      dsimp only
      rw [if_neg (d.not_startsProperty hrest), hread]
      rfl

/-! ## Actions -/

def addNew (seen : List String) (action : String) : List String :=
  if action ∈ seen then seen else seen ++ [action]

/-- Adding one action after the other keeps each where it stands first. -/
theorem foldl_addNew (actions : List String) :
    actions.foldl addNew [] = actions.eraseDups := by
  have hloop : ∀ actions seen : List String,
      List.eraseDupsBy.loop (· == ·) actions seen = actions.foldl addNew seen.reverse := by
    intro actions
    induction actions with
    | nil => exact fun seen => rfl
    | cons action actions ih =>
        intro seen
        have hany : seen.any (action == ·) = true ↔ action ∈ seen.reverse := by simp
        rw [List.eraseDupsBy.loop, List.foldl_cons, addNew]
        split
        · next htrue => rw [ih, if_pos (hany.mp htrue)]
        · next hfalse =>
          have hmem : action ∉ seen.reverse := mt hany.mpr (Bool.eq_false_iff.mp hfalse)
          rw [ih, if_neg hmem, List.reverse_cons]
  exact (hloop actions []).symm

theorem derivation_of_readActionsAfter {seen as : List String} :
    outcome (readActionsAfter seen ts) = .ok (as, rest) → ∃ d : Items .action,
      ts = d.tokens ++ rest ∧ d.meanings.foldl addNew seen = as ∧ CommaBeforeProperty rest := by
  fun_induction readActionsAfter seen ts generalizing as rest
  case case1 | case2 | case4 =>
    intro h
    cases h
  case case3 seen t action ha seen' n after hstarts =>
    intro h
    cases h
    refine ⟨.last ⟨t, action, Token.isAction_iff.mpr ha⟩, rfl, rfl, ?_⟩
    rintro _ _ ⟨⟩
    exact hstarts
  case case5 seen t action ha seen' n after hstarts actions r hok ih =>
    intro h
    cases h
    obtain ⟨d, hd, hactions, hcomma⟩ := ih (outcome_eq_ok.mpr ⟨r.2, hok⟩)
    refine ⟨.cons ⟨t, action, Token.isAction_iff.mpr ha⟩ n d, ?_, hactions, hcomma⟩
    exact congrArg (fun ts => t :: ⟨.mark .comma, n⟩ :: ts) hd
  case case6 seen t action ha seen' rest' hne =>
    intro h
    cases h
    refine ⟨.last ⟨t, action, Token.isAction_iff.mpr ha⟩, rfl, rfl, ?_⟩
    intro n us hus
    exact absurd hus (hne n us)

theorem readActionsAfter_of_derivation (d : Items .action) (seen : List String)
    (hrest : Items.Ends rest) :
    outcome (readActionsAfter seen (d.tokens ++ rest)) =
      .ok (d.meanings.foldl addNew seen, rest) := by
  induction d generalizing seen with
  | last item =>
      rw [Items.tokens, List.singleton_append, readActionsAfter, Token.isAction_iff.mp item.means]
      dsimp only
      split
      · next n after =>
        rw [if_pos (hrest.comma n after rfl)]
        rfl
      · rfl
  | cons item comma d ih =>
      obtain ⟨hlt, hread⟩ := outcome_eq_ok.mp (ih (addNew seen item.meaning))
      rw [addNew] at hread
      rw [Items.tokens, List.cons_append, List.cons_append, readActionsAfter,
        Token.isAction_iff.mp item.means]
      dsimp only
      rw [if_neg (d.not_startsProperty hrest), hread]
      rfl

theorem derivation_of_readActions {as : List String}
    (h : outcome (readActions ts) = .ok (as, rest)) : ∃ d : Items .action,
      ts = d.tokens ++ rest ∧ d.actions = as ∧ CommaBeforeProperty rest := by
  obtain ⟨d, hd, hactions, hcomma⟩ := derivation_of_readActionsAfter h
  rw [foldl_addNew] at hactions
  exact ⟨d, hd, hactions, hcomma⟩

theorem readActions_of_derivation (d : Items .action) (hrest : Items.Ends rest) :
    outcome (readActions (d.tokens ++ rest)) = .ok (d.actions, rest) := by
  have h := readActionsAfter_of_derivation d [] hrest
  rw [foldl_addNew] at h
  exact h

/-! ## Properties -/

def readProperty (ts : List Located) :
    Except Unexpected ((String × List Literal) × List Located) := do
  let (key, r₁) ← readKey ts
  let r₂ ← expect (.mark .colon) .colon r₁.1
  let (values, rest) ← outcome (readPropertyValues key r₂.1)
  return ((key, values), rest)

theorem key_of_readKey {key : String} {h₁ : rest.length < ts.length}
    (h : readKey ts = .ok (key, ⟨rest, h₁⟩)) :
    ∃ t, ts = t :: rest ∧ (t.token = .ident key ∨ t.token = .keyword .can ∧ key = "can") := by
  unfold readKey at h
  split at h
  · cases h
    exact ⟨_, rfl, Or.inl rfl⟩
  · cases h
    exact ⟨_, rfl, Or.inr ⟨rfl, rfl⟩⟩
  · cases h

theorem derivation_of_readProperty {e : String × List Literal} (hcan : ReservesCan ts)
    (h : readProperty ts = .ok (e, rest)) :
    ∃ p : Property.Derivation, ts = p.tokens ++ rest ∧ p.entry = e ∧
      CommaBeforeProperty rest := by
  obtain ⟨⟨key, ts₁, h₁⟩, hkey, h⟩ := bind_eq_ok.mp h
  obtain ⟨⟨ts₂, h₂⟩, hcolon, h⟩ := bind_eq_ok.mp h
  obtain ⟨⟨values, rest'⟩, hvalues, h⟩ := bind_eq_ok.mp h
  cases h
  obtain ⟨⟨token, line⟩, rfl, htoken⟩ := key_of_readKey hkey
  obtain ⟨n, rfl⟩ := tokens_of_expect hcolon
  dsimp only at hvalues htoken
  rcases htoken with rfl | ⟨rfl, rfl⟩
  · have hne : key ≠ "can" := by
      rintro rfl
      exact hcan _ List.mem_cons_self rfl
    rw [readPropertyValues, if_neg hne] at hvalues
    obtain ⟨d, rfl, rfl, hcomma⟩ := derivation_of_readValues hvalues
    exact ⟨.named key line n d, rfl, rfl, hcomma⟩
  · rw [readPropertyValues, if_pos rfl] at hvalues
    obtain ⟨hlt, hvalues⟩ := outcome_eq_ok.mp hvalues
    obtain ⟨⟨as, r⟩, hread, hvalues⟩ := map_eq_ok.mp hvalues
    cases hvalues
    obtain ⟨d, rfl, rfl, hcomma⟩ := derivation_of_readActions (outcome_eq_ok.mpr ⟨hlt, hread⟩)
    exact ⟨.can line n d, rfl, rfl, hcomma⟩

theorem readProperty_of_derivation {p : Property.Derivation} (hcan : ReservesCan p.tokens)
    (hrest : Items.Ends rest) : readProperty (p.tokens ++ rest) = .ok (p.entry, rest) := by
  cases p with
  | can n colon actions =>
      have hread := readActions_of_derivation actions hrest
      obtain ⟨hlt, hread⟩ := outcome_eq_ok.mp hread
      have hvalues : outcome (readPropertyValues "can" (actions.tokens ++ rest)) =
          .ok (actions.actions.map .string, rest) := by
        rw [readPropertyValues, if_pos rfl, hread]
        rfl
      refine bind_eq_ok.mpr ⟨_, rfl, bind_eq_ok.mpr ⟨_, expect_cons _ _ _ _, ?_⟩⟩
      exact bind_eq_ok.mpr ⟨_, hvalues, rfl⟩
  | named name n colon values =>
      have hne : name ≠ "can" := by
        rintro rfl
        exact hcan _ List.mem_cons_self rfl
      have hvalues : outcome (readPropertyValues name (values.tokens ++ rest)) =
          .ok (values.meanings, rest) := by
        rw [readPropertyValues, if_neg hne]
        exact readValues_of_derivation values hrest
      refine bind_eq_ok.mpr ⟨_, rfl, bind_eq_ok.mpr ⟨_, expect_cons _ _ _ _, ?_⟩⟩
      exact bind_eq_ok.mpr ⟨_, hvalues, rfl⟩

def readFurther (ps : Properties) :
    List Located → Except Unexpected (Properties × List Located)
  | ⟨.mark .comma, _⟩ :: us => outcome (readProperties ps us)
  | ⟨.mark .rightBrace, n⟩ :: us => .ok (ps, ⟨.mark .rightBrace, n⟩ :: us)
  | us =>
    if startsProperty us then outcome (readProperties ps us) else .error ⟨.separator, us⟩

theorem readProperties_rightBrace (ps : Properties) (n : Nat) (us : List Located) :
    outcome (readProperties ps (⟨.mark .rightBrace, n⟩ :: us)) =
      .ok (ps, ⟨.mark .rightBrace, n⟩ :: us) := by
  rw [readProperties.eq_def]
  rfl

theorem readProperties_eq (ps : Properties) (hts : ∀ n us, ts ≠ ⟨.mark .rightBrace, n⟩ :: us) :
    outcome (readProperties ps ts) =
      readProperty ts >>= fun (e, rest) => readFurther (NameMap.insert e.1 e.2 ps) rest := by
  rw [readProperties.eq_def]
  split
  · next n us => exact absurd rfl (hts n us)
  · unfold readProperty
    cases readKey ts with
    | error u => rfl
    | ok x =>
        obtain ⟨key, ts₁, h₁⟩ := x
        dsimp only [bind, Except.bind]
        cases expect (.mark .colon) .colon ts₁ with
        | error u => rfl
        | ok r₂ =>
            obtain ⟨ts₂, h₂⟩ := r₂
            dsimp only
            cases readPropertyValues key ts₂ with
            | error u => rfl
            | ok y =>
                obtain ⟨values, ts₃, h₃⟩ := y
                show _ = readFurther (NameMap.insert key values ps) ts₃
                dsimp only
                split
                · next ts₄ h₃ hlt =>
                  rw [readFurther]
                  cases readProperties (NameMap.insert key values ps) ts₄ <;> rfl
                · rfl
                · next hcomma hbrace =>
                  rw [readFurther]
                  · split_ifs
                    · cases readProperties (NameMap.insert key values ps) ts₃ <;> rfl
                    · rfl
                  · rintro n us rfl
                    exact hcomma n us h₃ _ rfl HEq.rfl HEq.rfl
                  · rintro n us rfl
                    exact hbrace n us h₃ _ rfl HEq.rfl HEq.rfl

def Properties.record (ps : Properties) (entries : List (String × List Literal)) : Properties :=
  entries.foldl (fun ps e => NameMap.insert e.1 e.2 ps) ps

theorem derivation_of_readProperties {ps qs : Properties} (hcan : ReservesCan ts)
    (h : outcome (readProperties ps ts) = .ok (qs, rest)) :
    (∃ n us, rest = ⟨.mark .rightBrace, n⟩ :: us) ∧
      (ts = rest ∧ qs = ps ∨
        ∃ d : Properties.Derivation, ts = d.tokens ++ rest ∧ qs = ps.record d.entries) := by
  -- each round takes a property and perhaps a comma, so fewer tokens are left
  induction hn : ts.length using Nat.strongRecOn generalizing ps ts with
  | _ n ih =>
    subst hn
    by_cases hts : ∃ n us, ts = ⟨.mark .rightBrace, n⟩ :: us
    · obtain ⟨n, us, rfl⟩ := hts
      rw [readProperties_rightBrace] at h
      cases h
      exact ⟨⟨n, us, rfl⟩, Or.inl ⟨rfl, rfl⟩⟩
    · push Not at hts
      rw [readProperties_eq ps hts] at h
      obtain ⟨⟨e, rest'⟩, hproperty, h⟩ := bind_eq_ok.mp h
      obtain ⟨p, rfl, rfl, hcomma⟩ := derivation_of_readProperty hcan hproperty
      have hmore : ∀ us, us <:+ rest' → startsProperty us = true →
          outcome (readProperties (NameMap.insert p.entry.1 p.entry.2 ps) us) = .ok (qs, rest) →
          (∃ n us, rest = ⟨.mark .rightBrace, n⟩ :: us) ∧ ∃ d : Properties.Derivation,
            us = d.tokens ++ rest ∧ qs = ps.record (p.entry :: d.entries) := by
        intro us hus hstarts h
        have hpos : 0 < p.tokens.length := by cases p <;> exact Nat.succ_pos _
        have hlt : us.length < (p.tokens ++ rest').length := by
          have hle := hus.length_le
          rw [List.length_append]
          omega
        obtain ⟨hbrace, ⟨rfl, _⟩ | hd⟩ := ih _ hlt (hcan.right.of_suffix hus) h rfl
        · obtain ⟨n, vs, rfl⟩ := hbrace
          exact absurd hstarts not_startsProperty_mark
        · exact ⟨hbrace, hd⟩
      dsimp only [readFurther] at h
      split at h
      · next n us _ =>
        obtain ⟨hbrace, d, rfl, hqs⟩ := hmore us (List.suffix_cons _ _) (hcomma n us rfl) h
        refine ⟨hbrace, Or.inr ⟨.cons p (some n) d, ?_, hqs⟩⟩
        simp [Properties.Derivation.tokens, commaTokens]
      · cases h
        exact ⟨⟨_, _, rfl⟩, Or.inr ⟨.last p, rfl, rfl⟩⟩
      · split_ifs at h with hstarts
        obtain ⟨hbrace, d, rfl, hqs⟩ := hmore rest' (List.suffix_refl _) hstarts h
        refine ⟨hbrace, Or.inr ⟨.cons p none d, ?_, hqs⟩⟩
        simp [Properties.Derivation.tokens, commaTokens]

theorem readProperties_property {p : Property.Derivation} (ps : Properties)
    (hcan : ReservesCan p.tokens) (hrest : Items.Ends rest) :
    outcome (readProperties ps (p.tokens ++ rest)) =
      readFurther (NameMap.insert p.entry.1 p.entry.2 ps) rest := by
  have hts : ∀ n us, p.tokens ++ rest ≠ ⟨.mark .rightBrace, n⟩ :: us := by
    intro n us h
    have hstarts := p.startsProperty rest
    rw [h] at hstarts
    exact not_startsProperty_mark hstarts
  rw [readProperties_eq ps hts, readProperty_of_derivation hcan hrest]
  rfl

/-- Before a property the comma is optional. -/
theorem readFurther_comma (ps : Properties) (comma : Option Nat) {us : List Located}
    (hus : startsProperty us = true) :
    readFurther ps (commaTokens comma ++ us) = outcome (readProperties ps us) := by
  cases comma with
  | some n => rfl
  | none =>
      rw [show commaTokens none ++ us = us from rfl, readFurther, if_pos hus]
      · rintro n us rfl
        exact not_startsProperty_mark hus
      · rintro n us rfl
        exact not_startsProperty_mark hus

theorem readProperties_of_derivation (d : Properties.Derivation) {ps : Properties}
    (hcan : ReservesCan d.tokens) (n : Nat) (us : List Located) :
    outcome (readProperties ps (d.tokens ++ ⟨.mark .rightBrace, n⟩ :: us)) =
      .ok (ps.record d.entries, ⟨.mark .rightBrace, n⟩ :: us) := by
  induction d generalizing ps with
  | last p => exact readProperties_property ps hcan (Items.ends_rightBrace n us)
  | cons p comma d ih =>
      have hstarts := d.startsProperty (⟨.mark .rightBrace, n⟩ :: us)
      rw [Properties.Derivation.tokens, List.append_assoc, List.append_assoc,
        readProperties_property ps hcan.left (Items.ends_comma comma hstarts),
        readFurther_comma _ comma hstarts]
      exact ih hcan.right.right

/-! ## Definitions -/

theorem derivation_of_readDefinition {line : Nat} {definition : Definition}
    {hlt : rest.length < ts.length} (kind : DefinitionKind) (hcan : ReservesCan ts)
    (h : readDefinition line ts = .ok (definition, ⟨rest, hlt⟩)) : ∃ d : Definition.Derivation,
      ts = d.tail ++ rest ∧ d.kind = kind ∧ d.line = line ∧ d.definition = definition := by
  obtain ⟨⟨name, ts₁, h₁⟩, hname, h⟩ := bind_eq_ok.mp h
  obtain ⟨⟨ts₂, h₂⟩, hopen, h⟩ := bind_eq_ok.mp h
  obtain ⟨⟨ps, ts₃, h₃⟩, hproperties, h⟩ := bind_eq_ok.mp h
  obtain ⟨⟨ts₄, h₄⟩, hclose, h⟩ := bind_eq_ok.mp h
  cases h
  obtain ⟨nameLine, rfl⟩ := tokens_of_identifier hname
  obtain ⟨openLine, rfl⟩ := tokens_of_expect hopen
  obtain ⟨closeLine, rfl⟩ := tokens_of_expect hclose
  have hcan₂ : ReservesCan ts₂ :=
    hcan.of_suffix ((List.suffix_cons _ _).trans (List.suffix_cons _ _))
  obtain ⟨_, ⟨rfl, rfl⟩ | ⟨d, rfl, rfl⟩⟩ :=
    derivation_of_readProperties hcan₂ (outcome_eq_ok.mpr ⟨h₃, hproperties⟩)
  · exact ⟨⟨kind, line, name, nameLine, openLine, none, closeLine⟩, rfl, rfl, rfl, rfl⟩
  · refine ⟨⟨kind, line, name, nameLine, openLine, some d, closeLine⟩, ?_, rfl, rfl, rfl⟩
    simp [Definition.Derivation.tail, Definition.Derivation.body]

theorem readDefinition_of_derivation (d : Definition.Derivation) (hcan : ReservesCan d.tail) :
    outcome (readDefinition d.line (d.tail ++ rest)) = .ok (d.definition, rest) := by
  obtain ⟨kind, line, name, nameLine, openLine, properties, closeLine⟩ := d
  have hread : outcome (readProperties [] ((properties.map Properties.Derivation.tokens).getD [] ++
      ⟨.mark .rightBrace, closeLine⟩ :: rest)) =
      .ok (NameMap.ofList ((properties.map Properties.Derivation.entries).getD []),
        ⟨.mark .rightBrace, closeLine⟩ :: rest) := by
    cases properties with
    | none => exact readProperties_rightBrace [] closeLine rest
    | some ps =>
        have hps : ReservesCan ps.tokens :=
          (hcan.of_suffix ((List.suffix_cons _ _).trans (List.suffix_cons _ _))).left
        exact readProperties_of_derivation ps hps closeLine rest
  obtain ⟨hle, hread⟩ := outcome_eq_ok.mp hread
  rw [Definition.Derivation.tail, List.cons_append, List.cons_append, List.append_assoc,
    List.singleton_append]
  exact outcome_eq_ok.mpr ⟨_, bind_eq_ok.mpr ⟨_, rfl, bind_eq_ok.mpr ⟨_, expect_cons _ _ _ _,
    bind_eq_ok.mpr ⟨_, hread, bind_eq_ok.mpr ⟨_, expect_cons _ _ _ _, rfl⟩⟩⟩⟩⟩

/-! ## Rules -/

theorem derivation_of_readSegments {path whole : String} :
    outcome (readSegments path ts) = .ok (whole, rest) → ∃ s : Segments,
      ts = s.tokens ++ rest ∧ s.extend path = whole := by
  fun_induction readSegments path ts generalizing whole rest
  case case1 | case4 =>
    intro h
    cases h
  case case2 path dot segment n rest' whole' r hok ih =>
    intro h
    cases h
    obtain ⟨s, hs, hwhole⟩ := ih (outcome_eq_ok.mpr ⟨r.2, hok⟩)
    refine ⟨.cons dot segment n s, ?_, hwhole⟩
    exact congrArg (fun ts => ⟨.mark .dot, dot⟩ :: ⟨.ident segment, n⟩ :: ts) hs
  case case3 path dot n rest' =>
    intro h
    cases h
    exact ⟨.star dot n, rfl, rfl⟩
  case case5 =>
    intro h
    cases h
    exact ⟨.done, rfl, rfl⟩

theorem readSegments_of_derivation (s : Segments) (path : String) (hrest : Segments.Ends rest) :
    outcome (readSegments path (s.tokens ++ rest)) = .ok (s.extend path, rest) := by
  induction s generalizing path with
  | done =>
      rw [Segments.tokens, List.nil_append, readSegments.eq_def]
      split
      case h_4 => rfl
      all_goals exact absurd rfl (hrest _ rfl)
  | star dot n => rfl
  | cons dot name n s ih =>
      obtain ⟨hle, hread⟩ := outcome_eq_ok.mp (ih (path ++ "." ++ name))
      rw [Segments.tokens, List.cons_append, List.cons_append, readSegments, hread]
      rfl

theorem derivation_of_readResource {resource : String} {hlt : rest.length < ts.length}
    (h : readResource ts = .ok (resource, ⟨rest, hlt⟩)) : ∃ d : ResourcePattern.Derivation,
      ts = d.tokens ++ rest ∧ d.pattern = resource := by
  unfold readResource at h
  split at h
  · next s n rest =>
    cases h
    exact ⟨.string _ _, rfl, rfl⟩
  · cases h
    exact ⟨.star _, rfl, rfl⟩
  · next name n rest =>
    split at h
    · cases h
    · next path r' hok =>
      cases h
      obtain ⟨s, hs, rfl⟩ := derivation_of_readSegments (outcome_eq_ok.mpr ⟨r'.2, hok⟩)
      exact ⟨.path name n s, congrArg _ hs, rfl⟩
  · cases h

theorem readResource_of_derivation (d : ResourcePattern.Derivation) (hrest : Segments.Ends rest) :
    outcome (readResource (d.tokens ++ rest)) = .ok (d.pattern, rest) := by
  cases d with
  | string s n => rfl
  | star n => rfl
  | path name n segments =>
      obtain ⟨hle, hread⟩ :=
        outcome_eq_ok.mp (readSegments_of_derivation segments name hrest)
      rw [ResourcePattern.Derivation.tokens, List.cons_append, readResource, hread]
      rfl

theorem derivation_of_readCondition {condition : Option Expr} {hle : rest.length ≤ ts.length}
    (h : readCondition ts = .ok (condition, ⟨rest, hle⟩)) : ∃ c : Option Clause,
      ts = clauseTokens c ++ rest ∧ c.map (fun c => c.condition.meaning) = condition := by
  unfold readCondition at h
  split at h
  · next line ts =>
    obtain ⟨⟨ts₁, h₁⟩, hstart, h⟩ := bind_eq_ok.mp h
    obtain ⟨⟨e, ts₂, h₂⟩, hread, h⟩ := bind_eq_ok.mp h
    obtain ⟨⟨ts₃, h₃⟩, hclose, h⟩ := bind_eq_ok.mp h
    cases h
    obtain ⟨openLine, rfl⟩ := tokens_of_expect hstart
    obtain ⟨closeLine, rfl⟩ := tokens_of_expect hclose
    obtain ⟨us, rfl, hspelled⟩ := Expr.spelled_of_read (outcome_eq_ok.mpr ⟨h₂, hread⟩)
    obtain ⟨d, rfl, rfl⟩ := hspelled.exists_derivation
    exact ⟨some ⟨line, openLine, d, closeLine⟩, by simp [clauseTokens], rfl⟩
  · cases h
    exact ⟨none, rfl, rfl⟩

theorem readCondition_of_derivation (c : Option Clause) (hrest : Statement.Ends rest) :
    outcome (readCondition (clauseTokens c ++ rest)) =
      .ok (c.map fun c => c.condition.meaning, rest) := by
  cases c with
  | none =>
      rw [clauseTokens, List.nil_append, readCondition.eq_def]
      split
      · cases hrest _ rfl
      · rfl
  | some c =>
      obtain ⟨line, openLine, condition, closeLine⟩ := c
      have hread := Expr.readLevel_of_spelled condition.spells
        (Expr.Level.ends_rightParen _ closeLine rest)
      rw [Expr.readLevel_layer] at hread
      obtain ⟨hlt, hread⟩ := outcome_eq_ok.mp hread
      rw [clauseTokens, List.cons_append, List.cons_append, List.append_assoc,
        List.singleton_append]
      exact outcome_eq_ok.mpr ⟨_, bind_eq_ok.mpr ⟨_, expect_cons _ _ _ _,
        bind_eq_ok.mpr ⟨_, hread, bind_eq_ok.mpr ⟨_, expect_cons _ _ _ _, rfl⟩⟩⟩⟩

theorem derivation_of_readRule {effect : Effect} {line : Nat} {rule : Rule}
    {hlt : rest.length < ts.length} (h : readRule effect line ts = .ok (rule, ⟨rest, hlt⟩)) :
    ∃ d : Rule.Derivation,
      ts = d.tail ++ rest ∧ d.effect = effect ∧ d.line = line ∧ d.rule = rule := by
  obtain ⟨⟨ts₁, h₁⟩, hword, h⟩ := bind_eq_ok.mp h
  obtain ⟨⟨ts₂, h₂⟩, hcolon, h⟩ := bind_eq_ok.mp h
  obtain ⟨⟨actions, ts₃, h₃⟩, hactions, h⟩ := bind_eq_ok.mp h
  obtain ⟨⟨ts₄, h₄⟩, hon, h⟩ := bind_eq_ok.mp h
  obtain ⟨⟨ts₅, h₅⟩, hresourceWord, h⟩ := bind_eq_ok.mp h
  obtain ⟨⟨ts₆, h₆⟩, hcolon', h⟩ := bind_eq_ok.mp h
  obtain ⟨⟨resource, ts₇, h₇⟩, hresource, h⟩ := bind_eq_ok.mp h
  obtain ⟨⟨condition, ts₈, h₈⟩, hcondition, h⟩ := bind_eq_ok.mp h
  cases h
  obtain ⟨actionLine, rfl⟩ := tokens_of_expect hword
  obtain ⟨actionColon, rfl⟩ := tokens_of_expect hcolon
  obtain ⟨as, rfl, rfl, _⟩ := derivation_of_readActions (outcome_eq_ok.mpr ⟨h₃, hactions⟩)
  obtain ⟨onLine, rfl⟩ := tokens_of_expect hon
  obtain ⟨resourceLine, rfl⟩ := tokens_of_expect hresourceWord
  obtain ⟨resourceColon, rfl⟩ := tokens_of_expect hcolon'
  obtain ⟨pattern, rfl, rfl⟩ := derivation_of_readResource hresource
  obtain ⟨clause, rfl, rfl⟩ := derivation_of_readCondition hcondition
  refine ⟨⟨effect, line, actionLine, actionColon, as, onLine, resourceLine, resourceColon, pattern,
    clause⟩, ?_, rfl, rfl, rfl⟩
  simp [Rule.Derivation.tail]

theorem readRule_of_derivation (d : Rule.Derivation) (hrest : Statement.Ends rest) :
    outcome (readRule d.effect d.line (d.tail ++ rest)) = .ok (d.rule, rest) := by
  obtain ⟨effect, line, n₁, n₂, actions, n₃, n₄, n₅, resource, clause⟩ := d
  have hcondition := readCondition_of_derivation clause hrest
  have hresource := readResource_of_derivation resource (segments_ends_clause clause hrest)
  have hactions := readActions_of_derivation actions (Items.ends_on n₃
    (⟨.keyword .resource, n₄⟩ :: ⟨.mark .colon, n₅⟩ ::
      (resource.tokens ++ (clauseTokens clause ++ rest))))
  obtain ⟨h₁, hcondition⟩ := outcome_eq_ok.mp hcondition
  obtain ⟨h₂, hresource⟩ := outcome_eq_ok.mp hresource
  obtain ⟨h₃, hactions⟩ := outcome_eq_ok.mp hactions
  have htail : Rule.Derivation.tail
      ⟨effect, line, n₁, n₂, actions, n₃, n₄, n₅, resource, clause⟩ ++ rest =
      ⟨.keyword .action, n₁⟩ :: ⟨.mark .colon, n₂⟩ :: (actions.tokens ++
        ⟨.keyword .on, n₃⟩ :: ⟨.keyword .resource, n₄⟩ :: ⟨.mark .colon, n₅⟩ ::
          (resource.tokens ++ (clauseTokens clause ++ rest))) := by
    simp [Rule.Derivation.tail]
  rw [htail]
  exact outcome_eq_ok.mpr ⟨_, bind_eq_ok.mpr ⟨_, expect_cons _ _ _ _,
    bind_eq_ok.mpr ⟨_, expect_cons _ _ _ _, bind_eq_ok.mpr ⟨_, hactions,
    bind_eq_ok.mpr ⟨_, expect_cons _ _ _ _, bind_eq_ok.mpr ⟨_, expect_cons _ _ _ _,
    bind_eq_ok.mpr ⟨_, expect_cons _ _ _ _, bind_eq_ok.mpr ⟨_, hresource,
    bind_eq_ok.mpr ⟨_, hcondition, rfl⟩⟩⟩⟩⟩⟩⟩⟩⟩

/-! ## Statements -/

theorem keyword_of_definitionKind? {k : Keyword} {kind : DefinitionKind}
    (h : k.definitionKind? = some kind) : k = kind.keyword := by
  unfold Keyword.definitionKind? at h
  split at h
  all_goals first | (cases h; rfl) | cases h

theorem keyword_of_effect? {k : Keyword} {effect : Effect} (h : k.effect? = some effect) :
    k = effect.keyword := by
  unfold Keyword.effect? at h
  split at h
  all_goals first | (cases h; rfl) | cases h

theorem derivation_of_readStatement {s : Statement} {hlt : rest.length < ts.length}
    (hcan : ReservesCan ts) (h : readStatement ts = .ok (s, ⟨rest, hlt⟩)) :
    ∃ d : Statement.Derivation, ts = d.tokens ++ rest ∧ d.statement = s := by
  unfold readStatement at h
  split at h
  · next k line ts =>
    split at h
    · next kind hkind =>
      obtain ⟨⟨definition, rest', hlt'⟩, hread, h⟩ := map_eq_ok.mp h
      cases h
      obtain ⟨d, rfl, rfl, rfl, rfl⟩ :=
        derivation_of_readDefinition kind (hcan.of_suffix (List.suffix_cons _ _)) hread
      rw [keyword_of_definitionKind? hkind]
      exact ⟨.definition d, rfl, rfl⟩
    · next effect _ heffect =>
      obtain ⟨⟨rule, rest', hlt'⟩, hread, h⟩ := map_eq_ok.mp h
      cases h
      obtain ⟨d, rfl, rfl, rfl, rfl⟩ := derivation_of_readRule hread
      rw [keyword_of_effect? heffect]
      exact ⟨.rule d, rfl, rfl⟩
    · cases h
  · cases h

theorem readStatement_of_derivation (d : Statement.Derivation) (hcan : ReservesCan d.tokens)
    (hrest : Statement.Ends rest) :
    outcome (readStatement (d.tokens ++ rest)) = .ok (d.statement, rest) := by
  cases d with
  | definition d =>
      have hread : outcome (readDefinition d.line (d.tail ++ rest)) = .ok (d.definition, rest) :=
        readDefinition_of_derivation d (hcan.of_suffix (List.suffix_cons _ _))
      obtain ⟨hlt, hread⟩ := outcome_eq_ok.mp hread
      have hkind : d.kind.keyword.definitionKind? = some d.kind := by cases d.kind <;> rfl
      rw [Statement.Derivation.tokens, List.cons_append, readStatement, hkind]
      dsimp only
      rw [hread]
      rfl
  | rule d =>
      obtain ⟨hlt, hread⟩ := outcome_eq_ok.mp (readRule_of_derivation d hrest)
      have hkind : d.effect.keyword.definitionKind? = none := by cases d.effect <;> rfl
      have heffect : d.effect.keyword.effect? = some d.effect := by cases d.effect <;> rfl
      rw [Statement.Derivation.tokens, List.cons_append, readStatement, hkind, heffect]
      dsimp only
      rw [hread]
      rfl

/-! ## Programs -/

theorem derivation_of_readStatements {budget : Nat} {ss : List Statement} :
    ReservesCan ts → readStatements budget ts = (ss, []) → ∃ d : Program.Derivation,
      d.tokens = ts ∧ d.program = ⟨ss⟩ := by
  fun_induction readStatements budget ts generalizing ss
  case case1 =>
    intro _ h
    cases h
    exact ⟨⟨[]⟩, rfl, rfl⟩
  case case2 rest' hlt hread statements failures hmore ih =>
    intro hcan h
    cases h
    obtain ⟨d, hd, rfl⟩ := derivation_of_readStatement hcan hread
    rw [hd] at hcan ⊢
    obtain ⟨⟨ds⟩, rfl, hds⟩ := ih hcan.right hmore
    cases hds
    exact ⟨⟨d :: ds⟩, rfl, rfl⟩
  case case3 | case4 =>
    intro _ h
    cases h

theorem readStatements_statement {budget : Nat} {s : Statement}
    (h : outcome (readStatement ts) = .ok (s, rest)) :
    readStatements budget ts =
      (s :: (readStatements budget rest).1, (readStatements budget rest).2) := by
  obtain ⟨hlt, h⟩ := outcome_eq_ok.mp h
  cases ts with
  | nil => cases h
  | cons t ts => rw [readStatements, h]

theorem readStatements_of_derivation (d : Program.Derivation) (budget : Nat)
    (hcan : ReservesCan d.tokens) :
    readStatements budget d.tokens = (d.program.statements, []) := by
  obtain ⟨ds⟩ := d
  unfold Program.Derivation.tokens at hcan ⊢
  induction ds with
  | nil =>
      rw [List.flatMap_nil, readStatements]
      rfl
  | cons d ds ih =>
      rw [List.flatMap_cons] at hcan ⊢
      rw [readStatements_statement
        (readStatement_of_derivation d hcan.left (Program.Derivation.ends_flatMap ds)),
        ih hcan.right]
      rfl

namespace Program
variable {maxErrors : Nat} {source : String} {p : Program}

theorem exists_derivation_of_ofTokens
    (h : ofTokens maxErrors (TokenStream.scan source).1 = .ok p) :
    ∃ d : Derivation, d.tokens = (TokenStream.scan source).1.tokens ∧ d.program = p := by
  unfold ofTokens at h
  split at h
  · next statements hread =>
    cases h
    exact derivation_of_readStatements (reservesCan_scan source) hread
  · cases h

theorem ofTokens_of_derivation {d : Derivation}
    (h : d.tokens = (TokenStream.scan source).1.tokens) :
    ofTokens maxErrors (TokenStream.scan source).1 = .ok d.program := by
  have hcan := reservesCan_scan source
  rw [← h] at hcan
  rw [ofTokens, ← h, readStatements_of_derivation d _ hcan]

/-- **The tokens of a source text are a program just if they have a derivation**,
which is then the only one and has the program as its meaning. The limit on
diagnostics does not matter. -/
theorem ofTokens_iff_derivation (maxErrors : Nat) (source : String) :
    (∀ p : Program, ofTokens maxErrors (TokenStream.scan source).1 = .ok p ↔
      ∃ d : Derivation, d.tokens = (TokenStream.scan source).1.tokens ∧ d.program = p) ∧
    Function.Injective Derivation.tokens := by
  refine ⟨fun p => ⟨exists_derivation_of_ofTokens, ?_⟩, Derivation.tokens_injective⟩
  rintro ⟨d, htokens, rfl⟩
  exact ofTokens_of_derivation htokens

end Program
end

end AccessPolicy
