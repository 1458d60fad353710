import AccessPolicy.Proofs.ExprGrammar

/-!
# Derivations of conditions

A derivation is a tree of the grammar of conditions: it fixes how its tokens are
put together, parentheses and all, and so which expression they are. Tokens are
an expression just if they have a derivation (`spelled_iff_derivation`), and they
never have two (`Derivation.unique`): wherever two derivations begin at one place
and neither goes on, they are the same tree and end at one place.
-/

namespace AccessPolicy

/-! ## Classes of tokens -/

/-- A class of tokens, each of which means one thing. -/
structure TokenClass (β : Type) where
  Means : Token → β → Prop
  unique : ∀ {t : Token} {b b' : β}, Means t b → Means t b' → b = b'

namespace TokenClass

def literal : TokenClass Literal where
  Means := Token.IsLiteral
  unique := by
    intro t v v' h h'
    cases h <;> cases h' <;> rfl

def operator (l : Expr.Layer) : TokenClass BinaryOp where
  Means := l.IsOperator
  unique := by
    rintro t op op' ⟨_, htoken⟩ ⟨_, htoken'⟩
    exact BinaryOp.token_injective (htoken.trans htoken'.symm)

end TokenClass

/-- A token of a class where it stands, with what it means. -/
structure Item {β : Type} (C : TokenClass β) where
  located : Located
  meaning : β
  means : C.Means located.token meaning

namespace Item
variable {β : Type} {C : TokenClass β}

theorem eq_of_located {i i' : Item C} (h : i.located = i'.located) : i = i' := by
  obtain ⟨t, b, hb⟩ := i
  obtain ⟨t', b', hb'⟩ := i'
  obtain rfl : t = t' := h
  obtain rfl : b = b' := C.unique hb hb'
  rfl

theorem operator?_eq {l : Expr.Layer} (i : Item (.operator l)) :
    l.operator? i.located.token = some i.meaning :=
  Expr.Layer.isOperator_iff.mp i.means

end Item

namespace Expr

/-! ## Trees -/

/-- What is derived: an expression of a level, or all that follows the first
operand of a layer. -/
inductive Phrase where
  | level (l : Level)
  | further (l : Layer)

/-- An expression, or what becomes of the operand before. -/
abbrev Phrase.Meaning : Phrase → Type
  | .level _ => Expr
  | .further _ => Expr → Expr

/-- The derivations of a phrase, production by production. Every token of the
tree stands on a line. -/
inductive Derivation : Phrase → Type
  /-- operand = `(` disjunction `)` -/
  | parens (n : Nat) (inner : Derivation (.level (.layer .disjunction))) (m : Nat) :
      Derivation (.level .operand)
  /-- operand = name `.` name -/
  | access (object : String) (n m : Nat) (field : String) (k : Nat) :
      Derivation (.level .operand)
  /-- operand = literal -/
  | literal (item : Item .literal) : Derivation (.level .operand)
  /-- negation = `NOT` negation -/
  | not (n : Nat) (operand : Derivation (.level .negation)) : Derivation (.level .negation)
  /-- negation = equality -/
  | positive (d : Derivation (.level (.layer .equality))) : Derivation (.level .negation)
  /-- layer = operand (operator operand)*, with operands of the next tighter level -/
  | layer {l : Layer} (first : Derivation (.level l.operands)) (more : Derivation (.further l)) :
      Derivation (.level (.layer l))
  /-- further = (operator operand)* -/
  | stop {l : Layer} : Derivation (.further l)
  | step {l : Layer} (operator : Item (.operator l)) (right : Derivation (.level l.operands))
      (more : Derivation (.further l)) : Derivation (.further l)

namespace Derivation

def tokens : {s : Phrase} → Derivation s → List Located
  | _, .parens n inner m => ⟨.mark .leftParen, n⟩ :: (inner.tokens ++ [⟨.mark .rightParen, m⟩])
  | _, .access object n m field k =>
    [⟨.ident object, n⟩, ⟨.mark .dot, m⟩, ⟨.ident field, k⟩]
  | _, .literal item => [item.located]
  | _, .not n operand => ⟨.keyword .not, n⟩ :: operand.tokens
  | _, .positive d => d.tokens
  | _, .layer first more => first.tokens ++ more.tokens
  | _, .stop => []
  | _, .step operator right more => operator.located :: (right.tokens ++ more.tokens)

/-- What the tree stands for. The operations of a layer group to the left. -/
def meaning : {s : Phrase} → Derivation s → s.Meaning
  | _, .parens _ inner _ => inner.meaning
  | _, .access object n _ field _ => Expr.attribute object field n
  | _, .literal item => Expr.literal item.meaning item.located.line
  | _, .not n operand => Expr.not operand.meaning n
  | _, .positive d => d.meaning
  | _, .layer first more => more.meaning first.meaning
  | _, .stop => id
  | _, .step operator right more => fun left =>
    more.meaning (Expr.binary operator.meaning left right.meaning operator.located.line)

def snoc {l : Layer} (operator : Item (.operator l)) (right : Derivation (.level l.operands)) :
    Derivation (.further l) → Derivation (.further l)
  | .stop => .step operator right .stop
  | .step operator' right' more => .step operator' right' (snoc operator right more)

theorem tokens_snoc {l : Layer} (operator : Item (.operator l))
    (right : Derivation (.level l.operands)) (more : Derivation (.further l)) :
    (snoc operator right more).tokens = more.tokens ++ operator.located :: right.tokens := by
  fun_induction snoc operator right more with
  | case1 => simp [tokens]
  | case2 operator' right' more ih => simp [tokens, ih]

theorem meaning_snoc {l : Layer} (operator : Item (.operator l))
    (right : Derivation (.level l.operands)) (more : Derivation (.further l)) (left : Expr) :
    (snoc operator right more).meaning left =
      Expr.binary operator.meaning (more.meaning left) right.meaning operator.located.line := by
  fun_induction snoc operator right more generalizing left with
  | case1 => rfl
  | case2 operator' right' more ih => exact ih _

end Derivation

/-! ## What is derived is what is spelled -/

/-- The tokens spell an expression of the level, or do so after any operand of
the layer. -/
def Phrase.Spells : (s : Phrase) → List Located → s.Meaning → Prop
  | .level l, ts, e => Spelled l ts e
  | .further l, ts, f => ∀ us e, Spelled (.layer l) us e → Spelled (.layer l) (us ++ ts) (f e)

theorem Derivation.spells {s : Phrase} (d : Derivation s) : s.Spells d.tokens d.meaning := by
  induction d with
  | parens n inner m ih => exact .parens ih
  | access object n m field k => exact .access object field n m k
  | literal item => exact .literal item.means
  | not n operand ih => exact .not ih
  | positive d ih => exact .positive ih
  | layer first more ihFirst ihMore => exact ihMore _ _ (.single ihFirst)
  | stop =>
      intro us e he
      rwa [tokens, List.append_nil]
  | step operator right more ihRight ihMore =>
      intro us e he
      have hbinary := Spelled.binary (n := operator.located.line) he operator.means ihRight
      have hmore := ihMore _ _ hbinary
      rwa [List.append_assoc, List.cons_append] at hmore

theorem Spelled.exists_derivation {l : Level} {ts : List Located} {e : Expr}
    (h : Spelled l ts e) : ∃ d : Derivation (.level l), d.tokens = ts ∧ d.meaning = e := by
  induction h with
  | @parens ts e n m _ ih =>
      obtain ⟨d, rfl, rfl⟩ := ih
      exact ⟨.parens n d m, rfl, rfl⟩
  | access object field n m k => exact ⟨.access object n m field k, rfl, rfl⟩
  | @literal token v n hv => exact ⟨.literal ⟨⟨token, n⟩, v, hv⟩, rfl, rfl⟩
  | @not ts e n _ ih =>
      obtain ⟨d, rfl, rfl⟩ := ih
      exact ⟨.not n d, rfl, rfl⟩
  | positive _ ih =>
      obtain ⟨d, rfl, rfl⟩ := ih
      exact ⟨.positive d, rfl, rfl⟩
  | single _ ih =>
      obtain ⟨d, rfl, rfl⟩ := ih
      exact ⟨.layer d .stop, List.append_nil _, rfl⟩
  | @binary l ts us e f op token n _ hop _ ihLeft ihRight =>
      -- the operation is one more after those of the left operand
      obtain ⟨left, rfl, rfl⟩ := ihLeft
      obtain ⟨right, rfl, rfl⟩ := ihRight
      cases left with
      | layer first more =>
          refine ⟨.layer first (.snoc ⟨⟨token, n⟩, op, hop⟩ right more), ?_, ?_⟩
          · simp [Derivation.tokens, Derivation.tokens_snoc]
          · exact Derivation.meaning_snoc ..

/-- Tokens are an expression just if they derive it. -/
theorem spelled_iff_derivation {l : Level} {ts : List Located} {e : Expr} :
    Spelled l ts e ↔ ∃ d : Derivation (.level l), d.tokens = ts ∧ d.meaning = e := by
  constructor
  · exact Spelled.exists_derivation
  · rintro ⟨d, rfl, rfl⟩
    exact d.spells

/-! ## Derivations are unique -/

/-- The phrase does not go on with the tokens. -/
def Phrase.Ends : Phrase → List Located → Prop
  | .level l => l.Ends
  | .further l => (Level.layer l).Ends

namespace Derivation

/-- What follows an operand of a layer, up to where the layer ends, does not
belong to the operand. -/
theorem ends_further {l : Layer} (more : Derivation (.further l)) {rest : List Located}
    (h : (Level.layer l).Ends rest) : l.operands.Ends (more.tokens ++ rest) := by
  rw [Layer.operands_eq]
  cases more with
  | stop => exact h.mono (Nat.le_of_lt (Level.height_tighter l))
  | step operator right more => exact Level.ends_operator operator.operator?_eq _ _

theorem head_ne_not (d : Derivation (.level (.layer .equality))) :
    ∃ t us, d.tokens = t :: us ∧ t.token ≠ .keyword .not :=
  Spelled.head_ne_not d.spells (by decide)

/-- No other derivation of the phrase begins where this one does, if neither
goes on behind its end. -/
def Unique {s : Phrase} (d : Derivation s) : Prop :=
  ∀ (d' : Derivation s) {r r' : List Located}, s.Ends r → s.Ends r' →
    d.tokens ++ r = d'.tokens ++ r' → d = d' ∧ r = r'

section Productions
variable {r us : List Located} {n m : Nat}

/-- A literal is not followed by the point that makes an access of it. -/
theorem literal_ne_access {item : Item .literal} {object : String} (hr : Level.operand.Ends r) :
    item.located :: r ≠ ⟨.ident object, n⟩ :: ⟨.mark .dot, m⟩ :: us := by
  intro h
  obtain ⟨_, rfl⟩ := List.cons.inj h
  exact (hr _ rfl).1 rfl

theorem literal_ne_parens {item : Item .literal} :
    item.located :: r ≠ ⟨.mark .leftParen, n⟩ :: us := by
  intro h
  have hmeans := item.means
  rw [(List.cons.inj h).1] at hmeans
  cases hmeans

theorem unique_parens {inner : Derivation (.level (.layer .disjunction))} (h : inner.Unique) :
    (parens n inner m).Unique := by
  intro d' r r' hr hr' heq
  cases d' with
  | parens n' inner' m' =>
      simp only [tokens, List.cons_append, List.append_assoc, List.cons.injEq,
        Located.mk.injEq, true_and] at heq
      obtain ⟨rfl, hinner⟩ := heq
      obtain ⟨rfl, hclose⟩ :=
        h inner' (Level.ends_rightParen _ m r) (Level.ends_rightParen _ m' r') hinner
      cases hclose
      exact ⟨rfl, rfl⟩
  | access object n m field k => cases heq
  | literal item => exact absurd heq.symm literal_ne_parens

theorem unique_access (object : String) (n m : Nat) (field : String) (k : Nat) :
    (access object n m field k).Unique := by
  intro d' r r' hr hr' heq
  cases d' with
  | parens n inner m => cases heq
  | access object' n' m' field' k' =>
      cases heq
      exact ⟨rfl, rfl⟩
  | literal item => exact absurd heq.symm (literal_ne_access hr')

theorem unique_literal (item : Item .literal) : (literal item).Unique := by
  intro d' r r' hr hr' heq
  cases d' with
  | parens n inner m => exact absurd heq literal_ne_parens
  | access object n m field k => exact absurd heq (literal_ne_access hr)
  | literal item' =>
      obtain ⟨hitem, rfl⟩ := List.cons.inj heq
      exact ⟨congrArg _ (Item.eq_of_located hitem), rfl⟩

theorem not_ne_positive {operand : Derivation (.level .negation)}
    {d : Derivation (.level (.layer .equality))} {r r' : List Located} :
    (not n operand).tokens ++ r ≠ (positive d).tokens ++ r' := by
  intro h
  obtain ⟨t, us, hus, hne⟩ := d.head_ne_not
  rw [tokens.eq_5, hus] at h
  obtain ⟨rfl, _⟩ := List.cons.inj h
  exact absurd rfl hne

theorem unique_not {operand : Derivation (.level .negation)} (h : operand.Unique) :
    (not n operand).Unique := by
  intro d' r r' hr hr' heq
  cases d' with
  | not n' operand' =>
      obtain ⟨hnot, hoperand⟩ := List.cons.inj heq
      cases hnot
      obtain ⟨rfl, rfl⟩ := h operand' hr hr' hoperand
      exact ⟨rfl, rfl⟩
  | positive d' => exact absurd heq not_ne_positive

theorem unique_positive {d : Derivation (.level (.layer .equality))} (h : d.Unique) :
    (positive d).Unique := by
  intro d' r r' hr hr' heq
  cases d' with
  | not n operand => exact absurd heq.symm not_ne_positive
  | positive d' =>
      obtain ⟨rfl, rfl⟩ := h d' (hr.mono (by decide)) (hr'.mono (by decide)) heq
      exact ⟨rfl, rfl⟩

variable {l : Layer} {more : Derivation (.further l)}

theorem unique_layer {first : Derivation (.level l.operands)} (hfirst : first.Unique)
    (hmore : more.Unique) : (layer first more).Unique := by
  intro d' r r' hr hr' heq
  cases d' with
  | layer first' more' =>
      rw [tokens, tokens, List.append_assoc, List.append_assoc] at heq
      obtain ⟨rfl, hrest⟩ := hfirst first' (more.ends_further hr) (more'.ends_further hr') heq
      obtain ⟨rfl, rfl⟩ := hmore more' hr hr' hrest
      exact ⟨rfl, rfl⟩

theorem operator_ne_of_ends {operator : Item (.operator l)} (hr : (Level.layer l).Ends r) :
    r ≠ operator.located :: us := by
  rintro rfl
  have hnone := (hr _ rfl).2 l (Nat.le_refl _)
  cases operator.operator?_eq.symm.trans hnone

theorem unique_stop : (stop (l := l)).Unique := by
  intro d' r r' hr hr' heq
  cases d' with
  | stop => exact ⟨rfl, heq⟩
  | step operator right more => exact absurd heq (operator_ne_of_ends hr)

theorem unique_step {operator : Item (.operator l)} {right : Derivation (.level l.operands)}
    (hright : right.Unique) (hmore : more.Unique) : (step operator right more).Unique := by
  intro d' r r' hr hr' heq
  cases d' with
  | stop => exact absurd heq.symm (operator_ne_of_ends hr')
  | step operator' right' more' =>
      simp only [tokens, List.cons_append, List.append_assoc] at heq
      obtain ⟨hoperator, heq⟩ := List.cons.inj heq
      obtain ⟨rfl, hrest⟩ := hright right' (more.ends_further hr) (more'.ends_further hr') heq
      obtain ⟨rfl, rfl⟩ := hmore more' hr hr' hrest
      rw [Item.eq_of_located hoperator]
      exact ⟨rfl, rfl⟩

end Productions

/-- **Derivations are unique.** Two derivations of a phrase that begin at one place
and end where the phrase does not go on are the same. -/
theorem unique {s : Phrase} (d : Derivation s) : d.Unique := by
  induction d with
  | parens n inner m ih => exact unique_parens ih
  | access object n m field k => exact unique_access object n m field k
  | literal item => exact unique_literal item
  | not n operand ih => exact unique_not ih
  | positive d ih => exact unique_positive ih
  | layer first more ihFirst ihMore => exact unique_layer ihFirst ihMore
  | stop => exact unique_stop
  | step operator right more ihRight ihMore => exact unique_step ihRight ihMore

end Derivation
end Expr
end AccessPolicy
