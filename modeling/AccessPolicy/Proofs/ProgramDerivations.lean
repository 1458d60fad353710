import AccessPolicy.Program.Reader
import AccessPolicy.Proofs.ExprDerivations

/-!
# Derivations of programs

The grammar of programs, as trees:

    program    = statement*
    statement  = definition | rule
    definition = (`ROLE` | `USER` | `RESOURCE`) name `{` [property ([`,`] property)*] `}`
    property   = `CAN` `:` actions | name `:` values
    values     = value (`,` value)*
    actions    = action (`,` action)*
    rule       = (`ALLOW` | `DENY`) `ACTION` `:` actions `ON` `RESOURCE` `:` resource [clause]
    resource   = string | `*` | name (`.` name)* [`.` `*`]
    clause     = `IF` `(` disjunction `)`

A tree has tokens and a meaning. A comma stands between values, between actions
and between properties, and between properties it may be left out; still no
tokens have two trees (`Program.Derivation.tokens_injective`).
-/

namespace AccessPolicy

/-! ## Values and actions -/

/-- The actions: a word of the language in small letters, or `*`. -/
inductive Token.IsAction : Token → String → Prop
  | word (spelling : String) : IsAction (.action spelling) (asciiLower spelling)
  | star : IsAction (.mark .star) "*"

theorem Token.isAction_iff {t : Token} {a : String} : t.IsAction a ↔ t.action? = some a := by
  constructor
  · intro h
    cases h <;> rfl
  · intro h
    unfold action? at h
    split at h
    all_goals cases h
    all_goals constructor

def TokenClass.action : TokenClass String where
  Means := Token.IsAction
  unique := by
    intro t a a' h h'
    cases h <;> cases h' <;> rfl

inductive Items {β : Type} (C : TokenClass β) where
  | last (item : Item C)
  | cons (item : Item C) (comma : Nat) (rest : Items C)

namespace Items
variable {β : Type} {C : TokenClass β}

def tokens : Items C → List Located
  | .last item => [item.located]
  | .cons item comma rest => item.located :: ⟨.mark .comma, comma⟩ :: rest.tokens

def meanings : Items C → List β
  | .last item => [item.meaning]
  | .cons item _ rest => item.meaning :: rest.meanings

end Items

/-- The actions of a list, in small letters and each where it stands first. -/
def Items.actions (as : Items .action) : List String := as.meanings.eraseDups

/-! ## Definitions -/

/-- property = `CAN` `:` actions | name `:` values -/
inductive Property.Derivation where
  | can (n colon : Nat) (actions : Items .action)
  | named (name : String) (n colon : Nat) (values : Items .literal)

namespace Property.Derivation

def tokens : Property.Derivation → List Located
  | .can n colon actions => ⟨.keyword .can, n⟩ :: ⟨.mark .colon, colon⟩ :: actions.tokens
  | .named name n colon values => ⟨.ident name, n⟩ :: ⟨.mark .colon, colon⟩ :: values.tokens

def entry : Property.Derivation → String × List Literal
  | .can _ _ actions => ("can", actions.actions.map .string)
  | .named name _ _ values => (name, values.meanings)

end Property.Derivation

/-- properties = property ([`,`] property)* -/
inductive Properties.Derivation where
  | last (p : Property.Derivation)
  | cons (p : Property.Derivation) (comma : Option Nat) (rest : Properties.Derivation)

def commaTokens (comma : Option Nat) : List Located :=
  comma.toList.map fun n => ⟨.mark .comma, n⟩

namespace Properties.Derivation

def tokens : Properties.Derivation → List Located
  | .last p => p.tokens
  | .cons p comma rest => p.tokens ++ (commaTokens comma ++ rest.tokens)

def entries : Properties.Derivation → List (String × List Literal)
  | .last p => [p.entry]
  | .cons p _ rest => p.entry :: rest.entries

end Properties.Derivation

def DefinitionKind.keyword : DefinitionKind → Keyword
  | .role => .role
  | .user => .user
  | .resource => .resource

/-- definition = (`ROLE` | `USER` | `RESOURCE`) name `{` [properties] `}` -/
structure Definition.Derivation where
  kind : DefinitionKind
  line : Nat
  name : String
  nameLine : Nat
  openLine : Nat
  properties : Option Properties.Derivation
  closeLine : Nat

namespace Definition.Derivation

def body (d : Definition.Derivation) : List Located :=
  (d.properties.map Properties.Derivation.tokens).getD []

def tail (d : Definition.Derivation) : List Located :=
  ⟨.ident d.name, d.nameLine⟩ :: ⟨.mark .leftBrace, d.openLine⟩ ::
    (d.body ++ [⟨.mark .rightBrace, d.closeLine⟩])

def entries (d : Definition.Derivation) : List (String × List Literal) :=
  (d.properties.map Properties.Derivation.entries).getD []

/-- Of two properties of one name the later counts. -/
def definition (d : Definition.Derivation) : Definition :=
  ⟨d.name, NameMap.ofList d.entries, d.line⟩

end Definition.Derivation

/-! ## Rules -/

/-- segments = (`.` name)* [`.` `*`] -/
inductive Segments where
  | done
  | star (dot n : Nat)
  | cons (dot : Nat) (name : String) (n : Nat) (rest : Segments)

namespace Segments

def tokens : Segments → List Located
  | .done => []
  | .star dot n => [⟨.mark .dot, dot⟩, ⟨.mark .star, n⟩]
  | .cons dot name n rest => ⟨.mark .dot, dot⟩ :: ⟨.ident name, n⟩ :: rest.tokens

/-- The path that a path becomes with the segments after it. -/
def extend (path : String) : Segments → String
  | .done => path
  | .star _ _ => path ++ ".*"
  | .cons _ name _ rest => rest.extend (path ++ "." ++ name)

end Segments

/-- resource = string | `*` | name segments -/
inductive ResourcePattern.Derivation where
  | string (s : String) (n : Nat)
  | star (n : Nat)
  | path (name : String) (n : Nat) (segments : Segments)

namespace ResourcePattern.Derivation

def tokens : ResourcePattern.Derivation → List Located
  | .string s n => [⟨.string s, n⟩]
  | .star n => [⟨.mark .star, n⟩]
  | .path name n segments => ⟨.ident name, n⟩ :: segments.tokens

def pattern : ResourcePattern.Derivation → String
  | .string s _ => s
  | .star _ => "*"
  | .path name _ segments => segments.extend name

end ResourcePattern.Derivation

/-- clause = `IF` `(` disjunction `)` -/
structure Clause where
  line : Nat
  openLine : Nat
  condition : Expr.Derivation (.level (.layer .disjunction))
  closeLine : Nat

def clauseTokens : Option Clause → List Located
  | none => []
  | some c =>
    ⟨.keyword .ifWord, c.line⟩ :: ⟨.mark .leftParen, c.openLine⟩ ::
      (c.condition.tokens ++ [⟨.mark .rightParen, c.closeLine⟩])

def Effect.keyword : Effect → Keyword
  | .allow => .allow
  | .deny => .deny

/-- rule = (`ALLOW` | `DENY`) `ACTION` `:` actions `ON` `RESOURCE` `:` resource [clause] -/
structure Rule.Derivation where
  effect : Effect
  line : Nat
  actionLine : Nat
  actionColon : Nat
  actions : Items .action
  onLine : Nat
  resourceLine : Nat
  resourceColon : Nat
  resource : ResourcePattern.Derivation
  clause : Option Clause

namespace Rule.Derivation

def tail (d : Rule.Derivation) : List Located :=
  ⟨.keyword .action, d.actionLine⟩ :: ⟨.mark .colon, d.actionColon⟩ ::
    (d.actions.tokens ++
      ⟨.keyword .on, d.onLine⟩ :: ⟨.keyword .resource, d.resourceLine⟩ ::
        ⟨.mark .colon, d.resourceColon⟩ :: (d.resource.tokens ++ clauseTokens d.clause))

def rule (d : Rule.Derivation) : Rule :=
  ⟨d.effect, d.actions.actions, d.resource.pattern, d.clause.map fun c => c.condition.meaning,
    d.line⟩

end Rule.Derivation

/-! ## Programs -/

/-- statement = definition | rule -/
inductive Statement.Derivation where
  | definition (d : Definition.Derivation)
  | rule (d : Rule.Derivation)

namespace Statement.Derivation

def tokens : Statement.Derivation → List Located
  | .definition d => ⟨.keyword d.kind.keyword, d.line⟩ :: d.tail
  | .rule d => ⟨.keyword d.effect.keyword, d.line⟩ :: d.tail

def statement : Statement.Derivation → Statement
  | .definition d => .definition d.kind d.definition
  | .rule d => .rule d.rule

end Statement.Derivation

/-- program = statement* -/
structure Program.Derivation where
  statements : List Statement.Derivation

namespace Program.Derivation

def tokens (d : Program.Derivation) : List Located :=
  d.statements.flatMap Statement.Derivation.tokens

def program (d : Program.Derivation) : Program :=
  ⟨d.statements.map Statement.Derivation.statement⟩

end Program.Derivation

/-! ## Where a phrase ends -/

theorem startsProperty_iff {ts : List Located} :
    startsProperty ts = true ↔ ∃ t n us, ts = t :: ⟨.mark .colon, n⟩ :: us ∧
      ((∃ name, t.token = .ident name) ∨ t.token = .keyword .can) := by
  constructor
  · intro h
    unfold startsProperty at h
    split at h
    · exact ⟨_, _, _, rfl, Or.inl ⟨_, rfl⟩⟩
    · exact ⟨_, _, _, rfl, Or.inr rfl⟩
    · cases h
  · rintro ⟨⟨token, m⟩, n, us, rfl, ⟨name, rfl⟩ | rfl⟩
    · rfl
    · rfl

/-- Values and actions end with the tokens: there is no colon, which would make
a property's name of the last item, and no comma but before a property. -/
structure Items.Ends (rest : List Located) : Prop where
  colon : ∀ n us, rest ≠ ⟨.mark .colon, n⟩ :: us
  comma : ∀ n us, rest = ⟨.mark .comma, n⟩ :: us → startsProperty us = true

theorem Items.ends_of_head {t : Located} {us : List Located} (hcolon : t.token ≠ .mark .colon)
    (hcomma : t.token ≠ .mark .comma) : Items.Ends (t :: us) := by
  constructor
  · intro n vs h
    obtain ⟨rfl, _⟩ := List.cons.inj h
    exact hcolon rfl
  · intro n vs h
    obtain ⟨rfl, _⟩ := List.cons.inj h
    exact absurd rfl hcomma

section
variable {β : Type} {C : TokenClass β}

theorem Items.not_startsProperty (d : Items C) {rest : List Located}
    (h : Items.Ends rest) : startsProperty (d.tokens ++ rest) ≠ true := by
  intro hstarts
  obtain ⟨t, n, us, heq, _⟩ := startsProperty_iff.mp hstarts
  cases d with
  | last item => exact h.colon n us (List.cons.inj heq).2
  | cons item comma d => cases (List.cons.inj heq).2

theorem Items.unique (d d' : Items C) {r r' : List Located} (hr : Items.Ends r)
    (hr' : Items.Ends r') (h : d.tokens ++ r = d'.tokens ++ r') : d = d' ∧ r = r' := by
  induction d generalizing d' with
  | last item =>
      cases d' with
      | last item' =>
          obtain ⟨hitem, rfl⟩ := List.cons.inj h
          exact ⟨congrArg _ (Item.eq_of_located hitem), rfl⟩
      | cons item' comma rest' =>
          -- the list would go on with a comma before something else than a property
          obtain ⟨_, h⟩ := List.cons.inj h
          exact absurd (hr.comma _ _ h) (rest'.not_startsProperty hr')
  | cons item comma rest ih =>
      cases d' with
      | last item' =>
          obtain ⟨_, h⟩ := List.cons.inj h
          exact absurd (hr'.comma _ _ h.symm) (rest.not_startsProperty hr)
      | cons item' comma' rest' =>
          obtain ⟨hitem, h⟩ := List.cons.inj h
          obtain ⟨hcomma, hrest⟩ := List.cons.inj h
          cases hcomma
          obtain ⟨rfl, rfl⟩ := ih rest' hrest
          rw [Item.eq_of_located hitem]
          exact ⟨rfl, rfl⟩

end

/-! ## Properties are unique -/

theorem Property.Derivation.startsProperty (p : Property.Derivation) (us : List Located) :
    AccessPolicy.startsProperty (p.tokens ++ us) = true := by
  cases p <;> rfl

theorem Properties.Derivation.startsProperty (d : Properties.Derivation) (us : List Located) :
    AccessPolicy.startsProperty (d.tokens ++ us) = true := by
  cases d with
  | last p => exact p.startsProperty us
  | cons p comma rest =>
      rw [tokens, List.append_assoc]
      exact p.startsProperty _

theorem Property.Derivation.unique (p p' : Property.Derivation) {r r' : List Located}
    (hr : Items.Ends r) (hr' : Items.Ends r') (h : p.tokens ++ r = p'.tokens ++ r') :
    p = p' ∧ r = r' := by
  cases p with
  | can n colon actions =>
      cases p' with
      | can n' colon' actions' =>
          simp only [tokens, List.cons_append, List.cons.injEq, Located.mk.injEq, true_and] at h
          obtain ⟨rfl, rfl, hactions⟩ := h
          obtain ⟨rfl, rfl⟩ := actions.unique actions' hr hr' hactions
          exact ⟨rfl, rfl⟩
      | named name n' colon' values => cases (List.cons.inj h).1
  | named name n colon values =>
      cases p' with
      | can n' colon' actions => cases (List.cons.inj h).1
      | named name' n' colon' values' =>
          simp only [tokens, List.cons_append, List.cons.injEq, Located.mk.injEq,
            Token.ident.injEq, true_and] at h
          obtain ⟨⟨rfl, rfl⟩, rfl, hvalues⟩ := h
          obtain ⟨rfl, rfl⟩ := values.unique values' hr hr' hvalues
          exact ⟨rfl, rfl⟩

theorem Items.ends_of_startsProperty {us : List Located} (h : startsProperty us = true) :
    Items.Ends us := by
  obtain ⟨t, n, vs, rfl, ⟨name, ht⟩ | ht⟩ := startsProperty_iff.mp h
  · exact Items.ends_of_head (by simp [ht]) (by simp [ht])
  · exact Items.ends_of_head (by simp [ht]) (by simp [ht])

theorem Items.ends_comma (comma : Option Nat) {us : List Located}
    (h : startsProperty us = true) : Items.Ends (commaTokens comma ++ us) := by
  cases comma with
  | none => exact Items.ends_of_startsProperty h
  | some n =>
      constructor
      · intro m vs heq
        cases (List.cons.inj heq).1
      · intro m vs heq
        obtain ⟨_, rfl⟩ := List.cons.inj heq
        exact h

theorem Items.ends_rightBrace (n : Nat) (us : List Located) :
    Items.Ends (⟨.mark .rightBrace, n⟩ :: us) :=
  Items.ends_of_head (by simp) (by simp)

theorem not_startsProperty_mark {m : Mark} {n : Nat} {us : List Located} :
    startsProperty (⟨.mark m, n⟩ :: us) ≠ true := by
  intro h
  obtain ⟨t, _, _, heq, ⟨name, ht⟩ | ht⟩ := startsProperty_iff.mp h
  all_goals
    rw [← (List.cons.inj heq).1] at ht
    cases ht

section
variable {us us' : List Located}

/-- Where a property comes next, it shows whether a comma stands before it. -/
theorem comma_unique {comma comma' : Option Nat} (hus : startsProperty us = true)
    (hus' : startsProperty us' = true) (h : commaTokens comma ++ us = commaTokens comma' ++ us') :
    comma = comma' ∧ us = us' := by
  cases comma with
  | none =>
      cases comma' with
      | none => exact ⟨rfl, h⟩
      | some n =>
          rw [show us = ⟨.mark .comma, n⟩ :: us' from h] at hus
          exact absurd hus not_startsProperty_mark
  | some n =>
      cases comma' with
      | none =>
          rw [show us' = ⟨.mark .comma, n⟩ :: us from h.symm] at hus'
          exact absurd hus' not_startsProperty_mark
      | some n' =>
          cases h
          exact ⟨rfl, rfl⟩

theorem rightBrace_ne_comma {n : Nat} (comma : Option Nat) (hus' : startsProperty us' = true) :
    ⟨.mark .rightBrace, n⟩ :: us ≠ commaTokens comma ++ us' := by
  intro h
  cases comma with
  | none =>
      rw [show us' = ⟨.mark .rightBrace, n⟩ :: us from h.symm] at hus'
      exact not_startsProperty_mark hus'
  | some m => cases h

theorem Properties.Derivation.unique (d d' : Properties.Derivation) {n n' : Nat}
    (h : d.tokens ++ ⟨.mark .rightBrace, n⟩ :: us = d'.tokens ++ ⟨.mark .rightBrace, n'⟩ :: us') :
    d = d' ∧ n = n' ∧ us = us' := by
  induction d generalizing d' with
  | last p =>
      cases d' with
      | last p' =>
          obtain ⟨rfl, hclose⟩ :=
            p.unique p' (Items.ends_rightBrace n us) (Items.ends_rightBrace n' us') h
          cases hclose
          exact ⟨rfl, rfl, rfl⟩
      | cons p' comma rest' =>
          have hstarts := rest'.startsProperty (⟨.mark .rightBrace, n'⟩ :: us')
          simp only [tokens, List.append_assoc] at h
          obtain ⟨rfl, hclose⟩ :=
            p.unique p' (Items.ends_rightBrace n us) (Items.ends_comma comma hstarts) h
          exact absurd hclose (rightBrace_ne_comma comma hstarts)
  | cons p comma rest ih =>
      have hstarts := rest.startsProperty (⟨.mark .rightBrace, n⟩ :: us)
      cases d' with
      | last p' =>
          simp only [tokens, List.append_assoc] at h
          obtain ⟨rfl, hclose⟩ :=
            p.unique p' (Items.ends_comma comma hstarts) (Items.ends_rightBrace n' us') h
          exact absurd hclose.symm (rightBrace_ne_comma comma hstarts)
      | cons p' comma' rest' =>
          have hstarts' := rest'.startsProperty (⟨.mark .rightBrace, n'⟩ :: us')
          simp only [tokens, List.append_assoc] at h
          obtain ⟨rfl, hmore⟩ :=
            p.unique p' (Items.ends_comma comma hstarts) (Items.ends_comma comma' hstarts') h
          obtain ⟨rfl, hrest⟩ := comma_unique hstarts hstarts' hmore
          obtain ⟨rfl, rfl, rfl⟩ := ih rest' hrest
          exact ⟨rfl, rfl, rfl⟩

end

/-! ## Statements are unique -/

theorem Definition.Derivation.unique (d d' : Definition.Derivation) {r r' : List Located}
    (hkind : d.kind = d'.kind) (hline : d.line = d'.line) (h : d.tail ++ r = d'.tail ++ r') :
    d = d' ∧ r = r' := by
  obtain ⟨kind, line, name, nameLine, openLine, properties, closeLine⟩ := d
  obtain ⟨kind', line', name', nameLine', openLine', properties', closeLine'⟩ := d'
  obtain rfl : kind = kind' := hkind
  obtain rfl : line = line' := hline
  simp only [tail, List.cons_append, List.append_assoc, List.nil_append, List.cons.injEq,
    Located.mk.injEq, Token.ident.injEq, true_and] at h
  obtain ⟨⟨rfl, rfl⟩, rfl, hbody⟩ := h
  cases properties with
  | none =>
      cases properties' with
      | none =>
          cases hbody
          exact ⟨rfl, rfl⟩
      | some ps' =>
          have hstarts := ps'.startsProperty (⟨.mark .rightBrace, closeLine'⟩ :: r')
          exact absurd hbody (rightBrace_ne_comma none hstarts)
  | some ps =>
      cases properties' with
      | none =>
          have hstarts := ps.startsProperty (⟨.mark .rightBrace, closeLine⟩ :: r)
          exact absurd hbody.symm (rightBrace_ne_comma none hstarts)
      | some ps' =>
          obtain ⟨rfl, rfl, rfl⟩ := ps.unique ps' hbody
          exact ⟨rfl, rfl⟩

/-- A statement ends with the tokens or where the next statement begins. -/
def Statement.Ends (rest : List Located) : Prop :=
  ∀ t ∈ rest.head?, t.token.startsStatement = true

/-- A dotted path does not go on with the tokens. -/
def Segments.Ends (rest : List Located) : Prop := ∀ t ∈ rest.head?, t.token ≠ .mark .dot

theorem Segments.unique (s s' : Segments) {r r' : List Located} (hr : Segments.Ends r)
    (hr' : Segments.Ends r') (h : s.tokens ++ r = s'.tokens ++ r') : s = s' ∧ r = r' := by
  -- the point of a further segment is not what the shorter path ends before
  have hpoint : ∀ {r us : List Located} {n : Nat}, Segments.Ends r → r ≠ ⟨.mark .dot, n⟩ :: us := by
    rintro r us n hr rfl
    exact hr _ rfl rfl
  induction s generalizing s' with
  | done =>
      cases s' with
      | done => exact ⟨rfl, h⟩
      | star dot n => exact absurd h (hpoint hr)
      | cons dot name n rest => exact absurd h (hpoint hr)
  | star dot n =>
      cases s' with
      | done => exact absurd h.symm (hpoint hr')
      | star dot' n' =>
          cases h
          exact ⟨rfl, rfl⟩
      | cons dot' name n' rest => cases h
  | cons dot name n rest ih =>
      cases s' with
      | done => exact absurd h.symm (hpoint hr')
      | star dot' n' => cases h
      | cons dot' name' n' rest' =>
          simp only [tokens, List.cons_append, List.cons.injEq, Located.mk.injEq,
            Token.ident.injEq, true_and] at h
          obtain ⟨rfl, ⟨rfl, rfl⟩, hrest⟩ := h
          obtain ⟨rfl, rfl⟩ := ih rest' hrest
          exact ⟨rfl, rfl⟩

theorem ResourcePattern.Derivation.unique (d d' : ResourcePattern.Derivation)
    {r r' : List Located} (hr : Segments.Ends r) (hr' : Segments.Ends r')
    (h : d.tokens ++ r = d'.tokens ++ r') : d = d' ∧ r = r' := by
  cases d with
  | string s n =>
      cases d' with
      | string s' n' =>
          cases h
          exact ⟨rfl, rfl⟩
      | star n' => cases h
      | path name n' segments => cases h
  | star n =>
      cases d' with
      | string s n' => cases h
      | star n' =>
          cases h
          exact ⟨rfl, rfl⟩
      | path name n' segments => cases h
  | path name n segments =>
      cases d' with
      | string s n' => cases h
      | star n' => cases h
      | path name' n' segments' =>
          simp only [tokens, List.cons_append, List.cons.injEq, Located.mk.injEq,
            Token.ident.injEq] at h
          obtain ⟨⟨rfl, rfl⟩, hsegments⟩ := h
          obtain ⟨rfl, rfl⟩ := segments.unique segments' hr hr' hsegments
          exact ⟨rfl, rfl⟩

theorem clause_unique (c c' : Option Clause) {r r' : List Located} (hr : Statement.Ends r)
    (hr' : Statement.Ends r') (h : clauseTokens c ++ r = clauseTokens c' ++ r') :
    c = c' ∧ r = r' := by
  have hif : ∀ {r us : List Located} {n : Nat},
      Statement.Ends r → r ≠ ⟨.keyword .ifWord, n⟩ :: us := by
    rintro r us n hr rfl
    cases hr _ rfl
  cases c with
  | none =>
      cases c' with
      | none => exact ⟨rfl, h⟩
      | some c' => exact absurd h (hif hr)
  | some c =>
      cases c' with
      | none => exact absurd h.symm (hif hr')
      | some c' =>
          obtain ⟨line, openLine, condition, closeLine⟩ := c
          obtain ⟨line', openLine', condition', closeLine'⟩ := c'
          simp only [clauseTokens, List.cons_append, List.append_assoc, List.nil_append,
            List.cons.injEq, Located.mk.injEq, true_and] at h
          obtain ⟨rfl, rfl, hcondition⟩ := h
          obtain ⟨rfl, hclose⟩ := condition.unique condition'
            (Expr.Level.ends_rightParen _ _ _) (Expr.Level.ends_rightParen _ _ _) hcondition
          cases hclose
          exact ⟨rfl, rfl⟩

/-- The resource of a rule ends where its clause begins, or the rule ends. -/
theorem segments_ends_clause (c : Option Clause) {r : List Located} (hr : Statement.Ends r) :
    Segments.Ends (clauseTokens c ++ r) := by
  intro t ht hdot
  cases c with
  | none =>
      have hstarts := hr t ht
      rw [hdot] at hstarts
      cases hstarts
  | some c =>
      cases ht
      cases hdot

theorem Items.ends_on (n : Nat) (us : List Located) : Items.Ends (⟨.keyword .on, n⟩ :: us) :=
  Items.ends_of_head (by simp) (by simp)

theorem Rule.Derivation.unique (d d' : Rule.Derivation) {r r' : List Located}
    (heffect : d.effect = d'.effect) (hline : d.line = d'.line) (hr : Statement.Ends r)
    (hr' : Statement.Ends r') (h : d.tail ++ r = d'.tail ++ r') : d = d' ∧ r = r' := by
  obtain ⟨effect, line, n₁, n₂, actions, n₃, n₄, n₅, resource, clause⟩ := d
  obtain ⟨effect', line', m₁, m₂, actions', m₃, m₄, m₅, resource', clause'⟩ := d'
  obtain rfl : effect = effect' := heffect
  obtain rfl : line = line' := hline
  simp only [tail, List.cons_append, List.append_assoc, List.cons.injEq, Located.mk.injEq,
    true_and] at h
  obtain ⟨rfl, rfl, hactions⟩ := h
  obtain ⟨rfl, hon⟩ := actions.unique actions' (Items.ends_on _ _) (Items.ends_on _ _) hactions
  simp only [List.cons.injEq, Located.mk.injEq, true_and] at hon
  obtain ⟨rfl, rfl, rfl, hresource⟩ := hon
  obtain ⟨rfl, hclause⟩ := resource.unique resource' (segments_ends_clause clause hr)
    (segments_ends_clause clause' hr') hresource
  obtain ⟨rfl, rfl⟩ := clause_unique clause clause' hr hr' hclause
  exact ⟨rfl, rfl⟩

/-! ## Programs are unique -/

theorem DefinitionKind.startsStatement (kind : DefinitionKind) :
    (Token.keyword kind.keyword).startsStatement = true := by
  cases kind <;> rfl

theorem Effect.startsStatement (effect : Effect) :
    (Token.keyword effect.keyword).startsStatement = true := by
  cases effect <;> rfl

theorem DefinitionKind.keyword_injective : Function.Injective DefinitionKind.keyword := by
  intro kind kind' h
  cases kind <;> cases kind' <;> first | rfl | cases h

theorem Effect.keyword_injective : Function.Injective Effect.keyword := by
  intro effect effect' h
  cases effect <;> cases effect' <;> first | rfl | cases h

theorem DefinitionKind.keyword_ne (kind : DefinitionKind) (effect : Effect) :
    kind.keyword ≠ effect.keyword := by
  cases kind <;> cases effect <;> decide

theorem Statement.Derivation.ends_tokens (d : Statement.Derivation) (us : List Located) :
    Statement.Ends (d.tokens ++ us) := by
  intro t ht
  cases d with
  | definition d =>
      cases ht
      exact d.kind.startsStatement
  | rule d =>
      cases ht
      exact d.effect.startsStatement

theorem Statement.Derivation.unique (d d' : Statement.Derivation) {r r' : List Located}
    (hr : Statement.Ends r) (hr' : Statement.Ends r') (h : d.tokens ++ r = d'.tokens ++ r') :
    d = d' ∧ r = r' := by
  cases d with
  | definition d =>
      cases d' with
      | definition d' =>
          simp only [tokens, List.cons_append, List.cons.injEq, Located.mk.injEq,
            Token.keyword.injEq] at h
          obtain ⟨⟨hkind, hline⟩, htail⟩ := h
          obtain ⟨rfl, rfl⟩ := d.unique d' (DefinitionKind.keyword_injective hkind) hline htail
          exact ⟨rfl, rfl⟩
      | rule d' =>
          simp only [tokens, List.cons_append, List.cons.injEq, Located.mk.injEq,
            Token.keyword.injEq] at h
          exact absurd h.1.1 (DefinitionKind.keyword_ne _ _)
  | rule d =>
      cases d' with
      | definition d' =>
          simp only [tokens, List.cons_append, List.cons.injEq, Located.mk.injEq,
            Token.keyword.injEq] at h
          exact absurd h.1.1.symm (DefinitionKind.keyword_ne _ _)
      | rule d' =>
          simp only [tokens, List.cons_append, List.cons.injEq, Located.mk.injEq,
            Token.keyword.injEq] at h
          obtain ⟨⟨heffect, hline⟩, htail⟩ := h
          obtain ⟨rfl, rfl⟩ :=
            d.unique d' (Effect.keyword_injective heffect) hline hr hr' htail
          exact ⟨rfl, rfl⟩

namespace Program.Derivation

theorem ends_flatMap (ds : List Statement.Derivation) :
    Statement.Ends (ds.flatMap Statement.Derivation.tokens) := by
  cases ds with
  | nil =>
      intro t ht
      cases ht
  | cons d ds => exact d.ends_tokens _

/-- **No tokens have two derivations.** -/
theorem tokens_injective : Function.Injective tokens := by
  rintro ⟨ds⟩ ⟨ds'⟩ h
  unfold tokens at h
  induction ds generalizing ds' with
  | nil =>
      cases ds' with
      | nil => rfl
      | cons d' ds' => cases d' <;> cases h
  | cons d ds ih =>
      cases ds' with
      | nil => cases d <;> cases h
      | cons d' ds' =>
          obtain ⟨rfl, hrest⟩ := d.unique d' (ends_flatMap ds) (ends_flatMap ds') h
          cases ih ds' hrest
          rfl

end Program.Derivation
end AccessPolicy
