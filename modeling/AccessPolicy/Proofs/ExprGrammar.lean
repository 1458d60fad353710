import AccessPolicy.Expr.Reader
import Mathlib.Tactic.Common

/-!
# The grammar of conditions

`Expr.Spelled` says which tokens are an expression of which level, without an
order of reading. Its tables of literals, operators and levels are its own, and
those of the reader agree with them. What the reader takes is such an expression
(`takesExpr`), and it finds every one that does not go on in what follows
(`readLevel_of_spelled`). Hence some tokens are at most one expression.
-/

namespace AccessPolicy

/-- What reading gave and the tokens after it, without the proof that these have
become fewer. -/
def Reading.outcome {α : Type} {p : List Located → Prop}
    (r : Except Unexpected (α × { rest // p rest })) : Except Unexpected (α × List Located) :=
  r.map fun x => (x.1, x.2.1)

theorem Reading.outcome_eq_ok {α : Type} {p : List Located → Prop}
    {r : Except Unexpected (α × { rest // p rest })} {a : α} {rest : List Located} :
    outcome r = .ok (a, rest) ↔ ∃ h, r = .ok (a, ⟨rest, h⟩) := by
  cases r with
  | error u => simp [outcome, Except.map]
  | ok x =>
      obtain ⟨b, rest', h⟩ := x
      constructor
      · intro he
        cases he
        exact ⟨h, rfl⟩
      · rintro ⟨_, he⟩
        cases he
        rfl

open Reading

/-! ## Literals, operators and levels -/

/-- The literals, and what they are as values: words are strings as well. -/
inductive Token.IsLiteral : Token → Literal → Prop
  | string (s : String) : IsLiteral (.string s) (.string s)
  | name (name : String) : IsLiteral (.ident name) (.string name)
  | action (spelling : String) : IsLiteral (.action spelling) (.string spelling)
  | int (n : Nat) : IsLiteral (.int n) (.int n)
  | decimal (spelling : String) : IsLiteral (.decimal spelling) (.decimal spelling)
  | boolean (b : Bool) : IsLiteral (.boolean b) (.bool b)
  | star : IsLiteral (.mark .star) (.string "*")

theorem Token.isLiteral_iff {t : Token} {v : Literal} : t.IsLiteral v ↔ t.literal? = some v := by
  constructor
  · intro h
    cases h <;> rfl
  · intro h
    unfold literal? at h
    split at h
    all_goals cases h
    all_goals constructor

def BinaryOp.layer : BinaryOp → Expr.Layer
  | .or => .disjunction
  | .and => .conjunction
  | .equal => .equality
  | .notEqual => .equality
  | .less => .comparison
  | .lessEqual => .comparison
  | .greater => .comparison
  | .greaterEqual => .comparison

def BinaryOp.token : BinaryOp → Token
  | .or => .keyword .or
  | .and => .keyword .and
  | .equal => .mark .equal
  | .notEqual => .mark .notEqual
  | .less => .mark .less
  | .lessEqual => .mark .lessEqual
  | .greater => .mark .greater
  | .greaterEqual => .mark .greaterEqual

theorem BinaryOp.token_injective {op op' : BinaryOp} (h : op.token = op'.token) : op = op' := by
  cases op <;> cases op' <;> first | rfl | cases h

namespace Expr
namespace Layer

structure IsOperator (l : Layer) (token : Token) (op : BinaryOp) : Prop where
  layer : op.layer = l
  token : op.token = token

theorem isOperator_iff {l : Layer} {token : Token} {op : BinaryOp} :
    l.IsOperator token op ↔ l.operator? token = some op := by
  constructor
  · rintro ⟨rfl, rfl⟩
    cases op <;> rfl
  · intro h
    unfold operator? at h
    split at h
    all_goals first | (cases h; exact ⟨rfl, rfl⟩) | cases h

theorem eq_of_operator? {l k : Layer} {token : Token} {op op' : BinaryOp}
    (hl : l.operator? token = some op) (hk : k.operator? token = some op') : l = k := by
  obtain ⟨rfl, htoken⟩ := isOperator_iff.mpr hl
  obtain ⟨rfl, htoken'⟩ := isOperator_iff.mpr hk
  rw [BinaryOp.token_injective (htoken.trans htoken'.symm)]

/-- What the operators of a layer stand between. -/
def operands : Layer → Level
  | .disjunction => .layer .conjunction
  | .conjunction => .negation
  | .equality => .layer .comparison
  | .comparison => .operand

theorem operands_eq (l : Layer) : l.operands = l.tighter := by
  cases l <;> rfl

end Layer

/-! ## Expressions -/

/-- The tokens are an expression of a level. Binary operations group to the
left, and an operation is on the line of its operator. -/
inductive Spelled : Level → List Located → Expr → Prop
  | parens {ts : List Located} {e : Expr} {n m : Nat} :
      Spelled (.layer .disjunction) ts e →
      Spelled .operand (⟨.mark .leftParen, n⟩ :: (ts ++ [⟨.mark .rightParen, m⟩])) e
  | access (object field : String) (n m k : Nat) :
      Spelled .operand [⟨.ident object, n⟩, ⟨.mark .dot, m⟩, ⟨.ident field, k⟩]
        (.attribute object field n)
  | literal {token : Token} {v : Literal} {n : Nat} :
      token.IsLiteral v → Spelled .operand [⟨token, n⟩] (.literal v n)
  | not {ts : List Located} {e : Expr} {n : Nat} :
      Spelled .negation ts e → Spelled .negation (⟨.keyword .not, n⟩ :: ts) (.not e n)
  | positive {ts : List Located} {e : Expr} :
      Spelled (.layer .equality) ts e → Spelled .negation ts e
  | single {l : Layer} {ts : List Located} {e : Expr} :
      Spelled l.operands ts e → Spelled (.layer l) ts e
  | binary {l : Layer} {ts us : List Located} {e f : Expr} {op : BinaryOp} {token : Token}
      {n : Nat} :
      Spelled (.layer l) ts e → l.IsOperator token op → Spelled l.operands us f →
      Spelled (.layer l) (ts ++ ⟨token, n⟩ :: us) (.binary op e f n)

/-! ## The reader step by step -/

section Steps
variable {ts rest : List Located} {e f : Expr} {n m : Nat}

theorem readLevel_layer (l : Layer) (ts : List Located) :
    readLevel (.layer l) ts = readLayer l ts := by
  rw [readLevel]

theorem readLevel_parens
    (h : outcome (readLayer .disjunction ts) = .ok (e, ⟨.mark .rightParen, m⟩ :: rest)) :
    outcome (readLevel .operand (⟨.mark .leftParen, n⟩ :: ts)) = .ok (e, rest) := by
  obtain ⟨hlt, h⟩ := outcome_eq_ok.mp h
  rw [readLevel, h]
  rfl

theorem readLevel_attribute (object field : String) (n m k : Nat) (rest : List Located) :
    outcome (readLevel .operand
      (⟨.ident object, n⟩ :: ⟨.mark .dot, m⟩ :: ⟨.ident field, k⟩ :: rest)) =
      .ok (.attribute object field n, rest) := by
  rw [readLevel]
  rfl

theorem readLevel_literal {token : Token} {v : Literal} (hv : token.literal? = some v)
    (hdot : ∀ t ∈ rest.head?, t.token ≠ .mark .dot) :
    outcome (readLevel .operand (⟨token, n⟩ :: rest)) = .ok (.literal v n, rest) := by
  rw [readLevel.eq_6, hv]
  · rfl
  · rintro rfl
    cases hv
  · rintro object line rest' rfl rfl
    exact absurd rfl (hdot _ rfl)

theorem readLevel_not (h : outcome (readLevel .negation ts) = .ok (e, rest)) :
    outcome (readLevel .negation (⟨.keyword .not, n⟩ :: ts)) = .ok (.not e n, rest) := by
  obtain ⟨hlt, h⟩ := outcome_eq_ok.mp h
  rw [readLevel, h]
  rfl

theorem readLevel_positive (hnot : ∀ t ∈ ts.head?, t.token ≠ .keyword .not) :
    readLevel .negation ts = readLayer .equality ts := by
  rw [readLevel]
  rintro line inner rfl
  exact absurd rfl (hnot _ rfl)

theorem readLayer_of_readLevel {l : Layer} (h : outcome (readLevel l.tighter ts) = .ok (e, rest)) :
    outcome (readLayer l ts) = outcome (readMore l e rest) := by
  obtain ⟨hlt, h⟩ := outcome_eq_ok.mp h
  rw [readLayer, h]
  dsimp only
  cases readMore l e rest with
  | error u => rfl
  | ok x => rfl

theorem readMore_stop {l : Layer} (h : ∀ t ∈ ts.head?, l.operator? t.token = none) :
    outcome (readMore l e ts) = .ok (e, ts) := by
  cases ts with
  | nil =>
      rw [readMore]
      rfl
  | cons t ts =>
      rw [readMore, h t rfl]
      rfl

theorem readMore_step {l : Layer} {token : Token} {op : BinaryOp}
    (hop : l.operator? token = some op) (h : outcome (readLevel l.tighter ts) = .ok (f, rest)) :
    outcome (readMore l e (⟨token, n⟩ :: ts)) = outcome (readMore l (.binary op e f n) rest) := by
  obtain ⟨hlt, h⟩ := outcome_eq_ok.mp h
  rw [readMore.eq_def]
  dsimp only
  rw [hop]
  dsimp only
  rw [h]
  dsimp only
  cases readMore l (.binary op e f n) rest with
  | error u => rfl
  | ok x => rfl

end Steps

/-! ## What is read is spelled -/

theorem expect_eq_ok {token : Token} {x : Expectation} {ts : List Located} {rest : Shorter ts}
    (h : expect token x ts = .ok rest) : ∃ n, ts = ⟨token, n⟩ :: rest.1 := by
  unfold expect at h
  split at h
  · cases h
  · next t rest' =>
      split_ifs at h with ht
      cases h
      subst ht
      exact ⟨t.line, rfl⟩

theorem identifier_eq_ok {x : Expectation} {ts : List Located} {name : String} {rest : Shorter ts}
    (h : identifier x ts = .ok (name, rest)) : ∃ n, ts = ⟨.ident name, n⟩ :: rest.1 := by
  unfold identifier at h
  split at h
  · cases h
    exact ⟨_, rfl⟩
  · cases h

/-- What the reader takes off the front of the tokens is an expression of its
level. -/
def TakesExpr (l : Level) (ts : List Located) : Prop :=
  ∀ e rest, outcome (readLevel l ts) = .ok (e, rest) → ∃ us, ts = us ++ rest ∧ Spelled l us e

/-- The same after a left operand, which the tokens `ws` before spell. -/
def TakesMore (l : Layer) (left : Expr) (ts : List Located) : Prop :=
  ∀ ws, Spelled (.layer l) ws left → ∀ e rest, outcome (readMore l left ts) = .ok (e, rest) →
    ∃ us, ts = us ++ rest ∧ Spelled (.layer l) (ws ++ us) e

section Productions
variable {l : Layer} {ts : List Located} {left : Expr} {n : Nat}

theorem takesExpr_not (h : TakesExpr .negation ts) :
    TakesExpr .negation (⟨.keyword .not, n⟩ :: ts) := by
  intro e rest hread
  rw [readLevel] at hread
  cases hinner : readLevel .negation ts with
  | error u =>
      rw [hinner] at hread
      cases hread
  | ok x =>
      rw [hinner] at hread
      cases hread
      obtain ⟨us, hus, hsp⟩ := h x.1 x.2.1 (outcome_eq_ok.mpr ⟨x.2.2, hinner⟩)
      exact ⟨⟨.keyword .not, n⟩ :: us, congrArg _ hus, .not hsp⟩

theorem takesExpr_positive (hnot : ∀ n us, ts = ⟨.keyword .not, n⟩ :: us → False)
    (h : TakesExpr (.layer .equality) ts) : TakesExpr .negation ts := by
  intro e rest hread
  rw [readLevel.eq_3 ts hnot, ← readLevel_layer] at hread
  obtain ⟨us, hus, hsp⟩ := h e rest hread
  exact ⟨us, hus, .positive hsp⟩

theorem takesExpr_parens (h : TakesExpr (.layer .disjunction) ts) :
    TakesExpr .operand (⟨.mark .leftParen, n⟩ :: ts) := by
  intro e rest hread
  rw [readLevel] at hread
  cases hinner : readLayer .disjunction ts with
  | error u =>
      rw [hinner] at hread
      cases hread
  | ok x =>
      obtain ⟨f, behind, hlt⟩ := x
      rw [hinner] at hread
      dsimp only at hread
      split at hread
      · cases hread
      · next rest' hclose =>
          cases hread
          rw [← readLevel_layer] at hinner
          obtain ⟨us, hus, hsp⟩ := h _ _ (outcome_eq_ok.mpr ⟨hlt, hinner⟩)
          obtain ⟨m, hm⟩ := expect_eq_ok hclose
          have hts : ts = us ++ ⟨.mark .rightParen, m⟩ :: rest'.1 := hus.trans (congrArg _ hm)
          refine ⟨⟨.mark .leftParen, n⟩ :: (us ++ [⟨.mark .rightParen, m⟩]), ?_, .parens hsp⟩
          refine (congrArg _ hts).trans ?_
          simp [Shorter.within]

theorem takesExpr_attribute (object : String) (m : Nat) :
    TakesExpr .operand (⟨.ident object, n⟩ :: ⟨.mark .dot, m⟩ :: ts) := by
  intro e rest hread
  rw [readLevel] at hread
  cases hfield : identifier .attributeName ts with
  | error u =>
      rw [hfield] at hread
      cases hread
  | ok x =>
      obtain ⟨field, behind⟩ := x
      rw [hfield] at hread
      cases hread
      obtain ⟨k, hk⟩ := identifier_eq_ok hfield
      exact ⟨[⟨.ident object, n⟩, ⟨.mark .dot, m⟩, ⟨.ident field, k⟩],
        congrArg (fun tail => ⟨.ident object, n⟩ :: ⟨.mark .dot, m⟩ :: tail) hk,
        .access object field n m k⟩

theorem takesExpr_literal {token : Token} (hparen : token = .mark .leftParen → False)
    (hdot : ∀ object m us, ts = ⟨.mark .dot, m⟩ :: us → token = .ident object → False) :
    TakesExpr .operand (⟨token, n⟩ :: ts) := by
  intro e rest hread
  rw [readLevel.eq_6 token n ts hparen hdot] at hread
  cases hv : token.literal? with
  | none =>
      rw [hv] at hread
      cases hread
  | some v =>
      rw [hv] at hread
      cases hread
      exact ⟨[⟨token, n⟩], rfl, .literal (Token.isLiteral_iff.mpr hv)⟩

theorem takesExpr_layer (h : TakesExpr l.tighter ts)
    (hmore : ∀ e rest, outcome (readLevel l.tighter ts) = .ok (e, rest) → TakesMore l e rest) :
    TakesExpr (.layer l) ts := by
  intro e rest hread
  rw [readLevel_layer] at hread
  cases hfirst : readLevel l.tighter ts with
  | error u =>
      rw [readLayer, hfirst] at hread
      cases hread
  | ok x =>
      have hok := outcome_eq_ok.mpr ⟨x.2.2, hfirst⟩
      rw [readLayer_of_readLevel hok] at hread
      obtain ⟨us, hus, hsp⟩ := h _ _ hok
      rw [← l.operands_eq] at hsp
      obtain ⟨vs, hvs, hmoreSp⟩ := hmore _ _ hok us (.single hsp) e rest hread
      exact ⟨us ++ vs, by rw [hus, hvs, List.append_assoc], hmoreSp⟩

theorem takesMore_stop (h : ∀ t ∈ ts.head?, l.operator? t.token = none) :
    TakesMore l left ts := by
  intro ws hws e rest hread
  rw [readMore_stop h] at hread
  cases hread
  exact ⟨[], rfl, by rwa [List.append_nil]⟩

theorem takesMore_step {token : Token} {op : BinaryOp} (hop : l.operator? token = some op)
    (h : TakesExpr l.tighter ts)
    (hmore : ∀ f rest, outcome (readLevel l.tighter ts) = .ok (f, rest) →
      TakesMore l (.binary op left f n) rest) :
    TakesMore l left (⟨token, n⟩ :: ts) := by
  intro ws hws e rest hread
  cases hright : readLevel l.tighter ts with
  | error u =>
      rw [readMore, hop] at hread
      dsimp only at hread
      rw [hright] at hread
      cases hread
  | ok x =>
      have hok := outcome_eq_ok.mpr ⟨x.2.2, hright⟩
      rw [readMore_step hop hok] at hread
      obtain ⟨us, hus, hsp⟩ := h _ _ hok
      rw [← l.operands_eq] at hsp
      have hbinary := Spelled.binary (n := n) hws (Layer.isOperator_iff.mpr hop) hsp
      obtain ⟨vs, hvs, hmoreSp⟩ := hmore _ _ hok _ hbinary e rest hread
      refine ⟨⟨token, n⟩ :: (us ++ vs), by rw [hus, hvs, List.cons_append, List.append_assoc], ?_⟩
      rwa [List.append_assoc, List.cons_append] at hmoreSp

end Productions

theorem forall_outcome_of_error {l : Level} {ts : List Located} {u : Unexpected}
    (h : readLevel l ts = .error u) (P : Expr → List Located → Prop) :
    ∀ e rest, outcome (readLevel l ts) = .ok (e, rest) → P e rest := by
  intro e rest hread
  rw [h] at hread
  cases hread

theorem forall_outcome_of_ok {l : Level} {ts : List Located} {e : Expr} {rest : Shorter ts}
    (h : readLevel l ts = .ok (e, rest)) {P : Expr → List Located → Prop} (hP : P e rest.1) :
    ∀ e rest, outcome (readLevel l ts) = .ok (e, rest) → P e rest := by
  intro e rest hread
  rw [h] at hread
  cases hread
  exact hP

/-- **Soundness of reading.** -/
theorem takesExpr (l : Level) (ts : List Located) : TakesExpr l ts := by
  refine readLevel.induct TakesExpr (fun l ts => TakesExpr (.layer l) ts) TakesMore
    ?layer ?notError ?notOk ?positive ?parenError ?parenOpen ?paren ?fieldError ?attr
    ?literal ?noLiteral ?nothing ?firstError ?moreError ?layerOk ?moreNil ?moreStop ?rightError
    ?furtherError ?furtherOk l ts
  -- the cases are the ways of the reader, and one production has several
  case layer => exact fun _ _ ih => ih
  case notError => exact fun _ _ _ _ ih => takesExpr_not ih
  case notOk => exact fun _ _ _ _ _ ih => takesExpr_not ih
  case positive => exact fun _ hnot ih => takesExpr_positive hnot ih
  case parenError => exact fun _ _ _ _ ih => takesExpr_parens ih
  case parenOpen => exact fun _ _ _ _ _ _ _ _ ih => takesExpr_parens ih
  case paren => exact fun _ _ _ _ _ _ _ _ ih => takesExpr_parens ih
  case fieldError => exact fun object _ m _ _ _ => takesExpr_attribute object m
  case attr => exact fun object _ m _ _ _ _ => takesExpr_attribute object m
  case literal => exact fun _ _ _ hparen hdot _ _ => takesExpr_literal hparen hdot
  case noLiteral => exact fun _ _ _ hparen hdot _ => takesExpr_literal hparen hdot
  case nothing =>
    intro e rest h
    rw [readLevel] at h
    cases h
  case firstError => exact fun _ _ _ hu ih => takesExpr_layer ih (forall_outcome_of_error hu _)
  case moreError =>
    exact fun _ _ _ _ _ hok _ _ ih ihMore => takesExpr_layer ih (forall_outcome_of_ok hok ihMore)
  case layerOk =>
    exact fun _ _ _ _ _ hok _ _ _ ih ihMore => takesExpr_layer ih (forall_outcome_of_ok hok ihMore)
  case moreNil =>
    exact fun _ _ => takesMore_stop fun t ht => by cases ht
  case moreStop =>
    intro l left token line after hop
    refine takesMore_stop fun t ht => ?_
    cases ht
    exact hop
  case rightError =>
    exact fun _ _ _ _ _ _ hop _ hu ih => takesMore_step hop ih (forall_outcome_of_error hu _)
  case furtherError =>
    exact fun _ _ _ _ _ _ hop _ _ _ hok _ _ ih ihMore =>
      takesMore_step hop ih (forall_outcome_of_ok hok ihMore)
  case furtherOk =>
    exact fun _ _ _ _ _ _ hop _ _ _ hok _ _ _ ih ihMore =>
      takesMore_step hop ih (forall_outcome_of_ok hok ihMore)

/-! ## What is spelled is read -/

/-- No expression of the level goes on with the tokens: the first of them is
neither the point of an attribute nor an operator of this level or a tighter one. -/
def Level.Ends (l : Level) (rest : List Located) : Prop :=
  ∀ t ∈ rest.head?, t.token ≠ .mark .dot ∧
    ∀ k : Layer, k.height ≤ l.height → k.operator? t.token = none

theorem Level.Ends.mono {l k : Level} {rest : List Located} (h : l.Ends rest)
    (hle : k.height ≤ l.height) : k.Ends rest := by
  intro t ht
  exact ⟨(h t ht).1, fun j hj => (h t ht).2 j (Nat.le_trans hj hle)⟩

theorem Level.ends_nil (l : Level) : l.Ends [] := by
  intro t ht
  cases ht

theorem Level.ends_rightParen (l : Level) (n : Nat) (rest : List Located) :
    l.Ends (⟨.mark .rightParen, n⟩ :: rest) := by
  intro t ht
  cases ht
  refine ⟨by simp, fun k _ => ?_⟩
  cases k <;> rfl

theorem Level.ends_operator {l : Layer} {token : Token} {op : BinaryOp}
    (h : l.operator? token = some op) (n : Nat) (rest : List Located) :
    l.tighter.Ends (⟨token, n⟩ :: rest) := by
  intro t ht
  cases ht
  constructor
  · rintro rfl
    cases l <;> cases h
  · intro k hk
    -- an operator of layer `l` is none of a tighter layer
    cases hop : k.operator? token with
    | none => rfl
    | some op' =>
        have hlk := Layer.eq_of_operator? h hop
        subst hlk
        exact absurd hk (Nat.not_le_of_lt (Level.height_tighter l))

theorem Spelled.head_ne_not {l : Level} {ts : List Located} {e : Expr} (h : Spelled l ts e)
    (hl : l.height < Level.negation.height) :
    ∃ t us, ts = t :: us ∧ t.token ≠ .keyword .not := by
  induction h with
  | parens _ _ => exact ⟨_, _, rfl, by simp⟩
  | access object field n m k => exact ⟨_, _, rfl, by simp⟩
  | literal hv =>
      refine ⟨_, _, rfl, ?_⟩
      rintro rfl
      cases hv
  | not _ _ => exact absurd hl (Nat.lt_irrefl _)
  | positive _ _ => exact absurd hl (Nat.lt_irrefl _)
  | @single l ts e _ ih =>
      rw [Layer.operands_eq] at ih
      exact ih (Nat.lt_trans (Level.height_tighter l) hl)
  | binary _ _ _ ih _ =>
      obtain ⟨t, us, hts, hne⟩ := ih hl
      subst hts
      exact ⟨t, _, rfl, hne⟩

/-- The reader takes just the tokens `pre` and makes `e` of them, wherever they
end. As a left operand they are read with what follows them in the layer. -/
structure ReadsBack (l : Level) (pre : List Located) (e : Expr) : Prop where
  whole : ∀ rest, l.Ends rest → outcome (readLevel l (pre ++ rest)) = .ok (e, rest)
  left : ∀ k, l = .layer k → ∀ rest, k.tighter.Ends rest →
    outcome (readLayer k (pre ++ rest)) = outcome (readMore k e rest)

/-- In a layer it is enough to know what is read as a left operand. -/
theorem ReadsBack.of_left {l : Layer} {pre : List Located} {e : Expr}
    (h : ∀ rest, l.tighter.Ends rest →
      outcome (readLayer l (pre ++ rest)) = outcome (readMore l e rest)) :
    ReadsBack (.layer l) pre e := by
  constructor
  · intro rest hrest
    rw [readLevel_layer, h rest (hrest.mono (Nat.le_of_lt (Level.height_tighter l)))]
    exact readMore_stop fun t ht => (hrest t ht).2 l (Nat.le_refl _)
  · rintro k hk rest hrest
    cases hk
    exact h rest hrest

/-- Outside the layers there are no left operands. -/
theorem ReadsBack.of_whole {l : Level} {pre : List Located} {e : Expr}
    (hl : ∀ k, l ≠ .layer k)
    (h : ∀ rest, l.Ends rest → outcome (readLevel l (pre ++ rest)) = .ok (e, rest)) :
    ReadsBack l pre e :=
  ⟨h, fun k hk => absurd hk (hl k)⟩

theorem Spelled.readsBack {l : Level} {ts : List Located} {e : Expr} (h : Spelled l ts e) :
    ReadsBack l ts e := by
  induction h with
  | @parens ts e n m _ ih =>
      refine .of_whole (by simp) fun rest _ => ?_
      have hinner := ih.whole _ (Level.ends_rightParen _ m rest)
      rw [readLevel_layer] at hinner
      rw [List.cons_append, List.append_assoc]
      exact readLevel_parens hinner
  | access object field n m k =>
      refine .of_whole (by simp) fun rest _ => ?_
      exact readLevel_attribute object field n m k rest
  | literal hv =>
      refine .of_whole (by simp) fun rest hrest => ?_
      exact readLevel_literal (Token.isLiteral_iff.mp hv) fun t ht => (hrest t ht).1
  | not _ ih =>
      refine .of_whole (by simp) fun rest hrest => ?_
      exact readLevel_not (ih.whole rest hrest)
  | @positive ts e hsp ih =>
      refine .of_whole (by simp) fun rest hrest => ?_
      -- the reader looks for a `NOT` first, and there is none
      obtain ⟨t, us, hts, hne⟩ := hsp.head_ne_not (by decide)
      subst hts
      have hnot : ∀ t' ∈ (t :: us ++ rest).head?, t'.token ≠ .keyword .not := by
        intro t' ht'
        cases ht'
        exact hne
      rw [readLevel_positive hnot, ← readLevel_layer]
      exact ih.whole rest (hrest.mono (by decide))
  | @single l ts e _ ih =>
      rw [Layer.operands_eq] at ih
      refine .of_left fun rest hrest => ?_
      exact readLayer_of_readLevel (ih.whole rest hrest)
  | @binary l ts us e f op token n _ hop _ ihLeft ihRight =>
      rw [Layer.operands_eq] at ihRight
      rw [Layer.isOperator_iff] at hop
      -- the left operand leaves off at the operator, and reading goes on from there
      refine .of_left fun rest hrest => ?_
      rw [List.append_assoc, List.cons_append, ihLeft.left l rfl _ (Level.ends_operator hop n _)]
      exact readMore_step hop (ihRight.whole rest hrest)

/-- **Completeness of reading.** An expression is found whatever follows, as long
as it does not go on there. -/
theorem readLevel_of_spelled {l : Level} {ts rest : List Located} {e : Expr}
    (h : Spelled l ts e) (hrest : l.Ends rest) :
    outcome (readLevel l (ts ++ rest)) = .ok (e, rest) :=
  h.readsBack.whole rest hrest

theorem Spelled.unique {l : Level} {ts : List Located} {e f : Expr} (he : Spelled l ts e)
    (hf : Spelled l ts f) : e = f := by
  have h₁ := readLevel_of_spelled he l.ends_nil
  have h₂ := readLevel_of_spelled hf l.ends_nil
  rw [h₁] at h₂
  injection h₂ with h₂
  exact congrArg Prod.fst h₂

/-! ## Whole conditions -/

theorem Spelled.of_operand {ts : List Located} {e : Expr} (h : Spelled .operand ts e)
    (l : Level) : Spelled l ts e := by
  have hcomparison : Spelled (.layer .comparison) ts e := .single h
  have hequality : Spelled (.layer .equality) ts e := .single hcomparison
  have hnegation : Spelled .negation ts e := .positive hequality
  have hconjunction : Spelled (.layer .conjunction) ts e := .single hnegation
  have hdisjunction : Spelled (.layer .disjunction) ts e := .single hconjunction
  rcases l with (_ | _ | _ | _) | _ | _ <;> assumption

theorem Spelled.disjunction {l : Level} {ts : List Located} {e : Expr} (h : Spelled l ts e) :
    Spelled (.layer .disjunction) ts e := by
  have hequality : Spelled (.layer .equality) ts e → Spelled (.layer .disjunction) ts e :=
    fun h => .single (.single (.positive h))
  rcases l with (_ | _ | _ | _) | _ | _
  · exact h
  · exact .single h
  · exact hequality h
  · exact hequality (.single h)
  · exact .single (.single h)
  · exact h.of_operand _

theorem ofText_of_spelled {text : String} {ts : List Located} {line : Nat} {e : Expr}
    (hscan : TokenStream.scan text = (⟨ts, line⟩, []))
    (h : Spelled (.layer .disjunction) ts e) : ofText text = .ok e := by
  have hread := readLevel_of_spelled h (Level.ends_nil _)
  rw [List.append_nil, readLevel_layer] at hread
  obtain ⟨hlt, hread⟩ := outcome_eq_ok.mp hread
  unfold ofText
  rw [hscan]
  dsimp only
  rw [show read ts = _ from hread]

theorem spelled_of_read {ts rest : List Located} {e : Expr}
    (h : outcome (read ts) = .ok (e, rest)) :
    ∃ us, ts = us ++ rest ∧ Spelled (.layer .disjunction) us e := by
  refine takesExpr (.layer .disjunction) ts e rest ?_
  rw [readLevel_layer]
  exact h

end Expr
end AccessPolicy
