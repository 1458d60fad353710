import AccessPolicy.Proofs.ProgramGrammar

/-!
# Reading is local

What some tokens are read as does not depend on what follows, if that is the beginning of a
statement or nothing: reading stops where it would stop without it, for the same reason
(`Reading.LocalAt`). Readers are put together of smaller ones (`andThen`), and so is locality;
here it is shown of conditions (`Expr.localAt_expr`).
-/

namespace AccessPolicy

open Reading

theorem Statement.Ends.eq_nil_or_cons {rest : List Located} (h : Statement.Ends rest) :
    rest = [] ∨ ∃ k n us, rest = ⟨.keyword k, n⟩ :: us ∧
      (Token.keyword k).startsStatement = true := by
  rcases rest with _ | ⟨⟨token, n⟩, us⟩
  · exact Or.inl rfl
  · have hstarts := h _ rfl
    cases token with
    | keyword k => exact Or.inr ⟨k, n, us, rfl, hstarts⟩
    | _ => cases hstarts

theorem Statement.ends_nil : Statement.Ends [] := by
  intro t ht
  cases ht

theorem Statement.Ends.head_append_ne {rest ts : List Located} {token : Token}
    (h : Statement.Ends rest) (htoken : token.startsStatement = false)
    (hts : ¬∃ n us, ts = ⟨token, n⟩ :: us) : ∀ t ∈ (ts ++ rest).head?, t.token ≠ token := by
  rintro ⟨_, n⟩ ht rfl
  rcases ts with _ | ⟨t', us⟩
  · exact Bool.false_ne_true (htoken.symm.trans (h _ ht))
  · cases ht
    exact hts ⟨n, us, rfl⟩

namespace Reading

/-- A way to read some tokens: a result and the tokens after it, or a failure. -/
abbrev Reader (α : Type) := List Located → Except Unexpected (α × List Located)

variable {α β : Type} {ts : List Located}

/-- The tokens from where reading stopped. -/
def leftover : Except Unexpected (α × List Located) → List Located
  | .ok (_, left) => left
  | .error u => u.found

/-- What was read, with more tokens after those where reading stopped. -/
def extend (rest : List Located) :
    Except Unexpected (α × List Located) → Except Unexpected (α × List Located)
  | .ok (a, left) => .ok (a, left ++ rest)
  | .error u => .error ⟨u.expected, u.found ++ rest⟩

/-- Reading stops within the tokens or at their end, also if a statement begins there. -/
structure LocalAt (read : Reader α) (ts : List Located) : Prop where
  suffix : leftover (read ts) <:+ ts
  append : ∀ rest, Statement.Ends rest → read (ts ++ rest) = extend rest (read ts)

/-! ## How readers are put together -/

def done (a : α) : Reader α := fun ts => .ok (a, ts)

def fail (x : Expectation) : Reader α := fun ts => .error ⟨x, ts⟩

def andThen (read : Reader α) (next : α → Reader β) : Reader β :=
  fun ts => read ts >>= fun x => next x.1 x.2

section
variable {read : Reader α} {next : α → Reader β}

theorem andThen_error {u : Unexpected} (h : read ts = .error u) :
    andThen read next ts = .error u := by
  unfold andThen
  rw [h]
  rfl

theorem andThen_ok {a : α} {left : List Located} (h : read ts = .ok (a, left)) :
    andThen read next ts = next a left := by
  unfold andThen
  rw [h]
  rfl

theorem eq_andThen {r : Except Unexpected (β × List Located)}
    (herror : ∀ u, read ts = .error u → r = .error u)
    (hok : ∀ a left, read ts = .ok (a, left) → r = next a left) : r = andThen read next ts := by
  cases hread : read ts with
  | error u => rw [andThen_error hread, herror u hread]
  | ok x =>
      obtain ⟨a, left⟩ := x
      rw [andThen_ok hread, hok a left hread]

theorem outcome_eq_error {p : List Located → Prop}
    {r : Except Unexpected (α × { rest // p rest })} {u : Unexpected} :
    outcome r = .error u ↔ r = .error u := by
  cases r with
  | error v => exact ⟨fun h => by cases h; rfl, fun h => by cases h; rfl⟩
  | ok x => exact ⟨nofun, nofun⟩

end

theorem localAt_done (a : α) (ts : List Located) : LocalAt (done a) ts where
  suffix := List.suffix_refl ts
  append _ _ := rfl

theorem localAt_fail (x : Expectation) (ts : List Located) :
    LocalAt (fail x : Reader α) ts where
  suffix := List.suffix_refl ts
  append _ _ := rfl

theorem LocalAt.andThen {read : Reader α} {next : α → Reader β} (h : LocalAt read ts)
    (hnext : ∀ a left, read ts = .ok (a, left) → LocalAt (next a) left) :
    LocalAt (andThen read next) ts := by
  have hsuffix := h.suffix
  have happend := h.append
  cases hread : read ts with
  | error u =>
      rw [hread] at hsuffix happend
      refine ⟨?_, fun rest hrest => ?_⟩
      · rw [andThen_error hread]
        exact hsuffix
      · rw [andThen_error (happend rest hrest), andThen_error hread]
        rfl
  | ok x =>
      obtain ⟨a, left⟩ := x
      rw [hread] at hsuffix happend
      have hleft := hnext a left hread
      refine ⟨?_, fun rest hrest => ?_⟩
      · rw [andThen_ok hread]
        exact hleft.suffix.trans hsuffix
      · rw [andThen_ok (happend rest hrest), andThen_ok hread]
        exact hleft.append rest hrest

/-- A reader that passes over the first tokens and goes on as a local one is local. -/
theorem LocalAt.prepend {read read' : Reader α} (h : LocalAt read ts) (us : List Located)
    (heq : ∀ rest, Statement.Ends rest → read' (us ++ (ts ++ rest)) = read (ts ++ rest)) :
    LocalAt read' (us ++ ts) := by
  have hself : read' (us ++ ts) = read ts := by
    have h := heq [] Statement.ends_nil
    rwa [List.append_nil] at h
  refine ⟨?_, fun rest hrest => ?_⟩
  · rw [hself]
    exact h.suffix.trans (List.suffix_append us ts)
  · rw [List.append_assoc, heq rest hrest, hself]
    exact h.append rest hrest

theorem LocalAt.congr {read read' : Reader α} (h : LocalAt read ts)
    (heq : ∀ rest, Statement.Ends rest → read' (ts ++ rest) = read (ts ++ rest)) :
    LocalAt read' ts :=
  h.prepend [] heq

/-! ## Single tokens -/

def word (token : Token) (x : Expectation) : Reader Unit :=
  fun ts => (expect token x ts).map fun r => ((), r.1)

theorem word_self (token : Token) (x : Expectation) (n : Nat) (ts : List Located) :
    word token x (⟨token, n⟩ :: ts) = done () ts := by
  unfold word
  rw [expect_cons]
  rfl

theorem word_other {token : Token} {t : Located} (h : t.token ≠ token) (x : Expectation)
    (ts : List Located) : word token x (t :: ts) = fail x (t :: ts) := by
  have hexpect : expect token x (t :: ts) = .error ⟨x, t :: ts⟩ := if_neg h
  unfold word
  rw [hexpect]
  rfl

theorem word_eq_error {token : Token} {x : Expectation} {u : Unexpected} :
    word token x ts = .error u ↔ expect token x ts = .error u := by
  unfold word
  cases expect token x ts with
  | error v => exact ⟨fun h => by cases h; rfl, fun h => by cases h; rfl⟩
  | ok r => exact ⟨nofun, nofun⟩

theorem word_eq_ok {token : Token} {x : Expectation} {left : List Located} :
    word token x ts = .ok ((), left) ↔ ∃ r, expect token x ts = .ok r ∧ r.1 = left := by
  unfold word
  rw [map_eq_ok]
  simp only [Prod.mk.injEq, true_and]

theorem eq_cons_of_word {token : Token} {x : Expectation} {left : List Located}
    (h : word token x ts = .ok ((), left)) : ∃ n, ts = ⟨token, n⟩ :: left := by
  obtain ⟨r, hr, rfl⟩ := word_eq_ok.mp h
  exact Expr.expect_eq_ok hr

/-- A token is taken locally, unless it begins a statement and there is no token left. -/
theorem localAt_word {token : Token} (x : Expectation)
    (h : token.startsStatement = false ∨ ts ≠ []) : LocalAt (word token x) ts := by
  rcases ts with _ | ⟨t, ts⟩
  · have hother : token.startsStatement = false := h.resolve_right fun hne => hne rfl
    refine (localAt_fail x []).congr fun rest hrest => ?_
    rcases hrest.eq_nil_or_cons with rfl | ⟨k, n, us, rfl, hk⟩
    · rfl
    · refine word_other ?_ x us
      rintro rfl
      exact Bool.false_ne_true (hother.symm.trans hk)
  · by_cases ht : t.token = token
    · subst ht
      exact (localAt_done () ts).prepend [t] fun rest _ =>
        word_self t.token x t.line (ts ++ rest)
    · exact (localAt_fail x (t :: ts)).congr fun rest _ => word_other ht x (ts ++ rest)

def name (x : Expectation) : Reader String := fun ts => outcome (identifier x ts)

theorem localAt_name (x : Expectation) (ts : List Located) : LocalAt (name x) ts := by
  rcases ts with _ | ⟨⟨token, n⟩, ts⟩
  · refine (localAt_fail x []).congr fun rest hrest => ?_
    rcases hrest.eq_nil_or_cons with rfl | ⟨k, n, us, rfl, hk⟩
    · rfl
    · rfl
  · cases token with
    | ident name => exact (localAt_done name ts).prepend [_] fun _ _ => rfl
    | _ => exact (localAt_fail x _).congr fun _ _ => rfl

end Reading

/-! ## Conditions -/

namespace Expr

def level (l : Level) : Reader Expr := fun ts => outcome (readLevel l ts)

def more (l : Layer) (left : Expr) : Reader Expr := fun ts => outcome (readMore l left ts)

section
variable {ts : List Located} {n : Nat}

theorem level_not (n : Nat) (ts : List Located) :
    level .negation (⟨.keyword .not, n⟩ :: ts) =
      andThen (level .negation) (fun e => done (.not e n)) ts := by
  refine eq_andThen (fun u hread => ?_) (fun e left hread => ?_)
  · rw [level, readLevel, outcome_eq_error.mp hread]
    rfl
  · obtain ⟨hlt, hread⟩ := outcome_eq_ok.mp hread
    rw [level, readLevel, hread]
    rfl

theorem level_positive (hnot : ∀ t ∈ ts.head?, t.token ≠ .keyword .not) :
    level .negation ts = level (.layer .equality) ts := by
  unfold level
  rw [readLevel_positive hnot, readLevel_layer]

theorem level_parens (n : Nat) (ts : List Located) :
    level .operand (⟨.mark .leftParen, n⟩ :: ts) =
      andThen (level (.layer .disjunction))
        (fun e => andThen (word (.mark .rightParen) .rightParen) fun _ => done e) ts := by
  refine eq_andThen (fun u hread => ?_) (fun e left hread => ?_)
  · rw [level, readLevel_layer] at hread
    rw [level, readLevel, outcome_eq_error.mp hread]
    rfl
  · rw [level, readLevel_layer] at hread
    obtain ⟨hlt, hread⟩ := outcome_eq_ok.mp hread
    rw [level, readLevel, hread]
    refine eq_andThen (fun u hclose => ?_) (fun _ left' hclose => ?_)
    · dsimp only
      rw [word_eq_error.mp hclose]
      rfl
    · obtain ⟨r, hparen, rfl⟩ := word_eq_ok.mp hclose
      dsimp only
      rw [hparen]
      rfl

theorem level_access (object : String) (n m : Nat) (ts : List Located) :
    level .operand (⟨.ident object, n⟩ :: ⟨.mark .dot, m⟩ :: ts) =
      andThen (name .attributeName) (fun field => done (.attribute object field n)) ts := by
  refine eq_andThen (fun u hread => ?_) (fun field left hread => ?_)
  · rw [level, readLevel, outcome_eq_error.mp hread]
    rfl
  · obtain ⟨hlt, hread⟩ := outcome_eq_ok.mp hread
    rw [level, readLevel, hread]
    rfl

theorem level_operand {token : Token} (hparen : token ≠ .mark .leftParen)
    (hdot : (∃ object, token = .ident object) → ∀ t ∈ ts.head?, t.token ≠ .mark .dot) :
    level .operand (⟨token, n⟩ :: ts) =
      match token.literal? with
      | some value => done (.literal value n) ts
      | none => fail .operand (⟨token, n⟩ :: ts) := by
  unfold level
  rw [readLevel.eq_6]
  · cases token.literal? with
    | some value => rfl
    | none => rfl
  · rintro rfl
    exact hparen rfl
  · rintro object line rest rfl rfl
    exact hdot ⟨object, rfl⟩ _ rfl rfl

theorem level_nil : level .operand [] = fail .operand [] := by
  unfold level
  rw [readLevel]
  rfl

theorem level_layer (l : Layer) (ts : List Located) :
    level (.layer l) ts = andThen (level l.tighter) (more l) ts := by
  refine eq_andThen (fun u hfirst => ?_) (fun e left hfirst => ?_)
  · rw [level, readLevel_layer, readLayer, outcome_eq_error.mp hfirst]
    rfl
  · rw [level, readLevel_layer]
    exact readLayer_of_readLevel hfirst

theorem more_stop {l : Layer} (e : Expr) (h : ∀ t ∈ ts.head?, l.operator? t.token = none) :
    more l e ts = done e ts := readMore_stop h

theorem more_step {l : Layer} {token : Token} {op : BinaryOp} (e : Expr)
    (hop : l.operator? token = some op) :
    more l e (⟨token, n⟩ :: ts) =
      andThen (level l.tighter) (fun f => more l (.binary op e f n)) ts := by
  refine eq_andThen (fun u hright => ?_) (fun f left hright => readMore_step hop hright)
  rw [more, readMore, hop]
  dsimp only
  rw [outcome_eq_error.mp hright]
  rfl

end

/-! ### Locality -/

section
variable {ts : List Located}

theorem localAt_operand (ih : ∀ us : List Located, us.length < ts.length →
    LocalAt (level (.layer .disjunction)) us) : LocalAt (level .operand) ts := by
  rcases ts with _ | ⟨⟨token, n⟩, ts⟩
  · refine (localAt_fail .operand []).congr fun rest hrest => ?_
    rcases hrest.eq_nil_or_cons with rfl | ⟨k, n, us, rfl, _⟩
    · exact level_nil
    · exact level_operand nofun nofun
  · by_cases hparen : token = .mark .leftParen
    · subst hparen
      have hinner := ih ts (Nat.lt_succ_self _)
      refine LocalAt.prepend (?_ : LocalAt _ ts) [⟨.mark .leftParen, n⟩]
        fun rest _ => level_parens n (ts ++ rest)
      exact hinner.andThen fun e left _ =>
        (localAt_word .rightParen (Or.inl rfl)).andThen fun _ left' _ => localAt_done e left'
    · by_cases hdot : ∃ object m us, token = .ident object ∧ ts = ⟨.mark .dot, m⟩ :: us
      · obtain ⟨object, m, us, rfl, rfl⟩ := hdot
        refine LocalAt.prepend (?_ : LocalAt _ us) [⟨.ident object, n⟩, ⟨.mark .dot, m⟩]
          fun rest _ => level_access object n m (us ++ rest)
        exact (localAt_name .attributeName us).andThen fun field left _ => localAt_done _ left
      · have hhead : ∀ rest, Statement.Ends rest → (∃ object, token = .ident object) →
            ∀ t ∈ (ts ++ rest).head?, t.token ≠ .mark .dot := by
          rintro rest hrest ⟨object, rfl⟩
          refine hrest.head_append_ne rfl ?_
          rintro ⟨m, us, rfl⟩
          exact hdot ⟨object, m, us, rfl, rfl⟩
        cases hliteral : token.literal? with
        | some value =>
            refine (localAt_done (.literal value n) ts).prepend [⟨token, n⟩] fun rest hrest => ?_
            rw [List.singleton_append, level_operand hparen (hhead rest hrest), hliteral]
        | none =>
            refine (localAt_fail .operand (⟨token, n⟩ :: ts)).congr fun rest hrest => ?_
            rw [List.cons_append, level_operand hparen (hhead rest hrest), hliteral]

theorem localAt_negation (ih : ∀ us : List Located, us.length < ts.length →
    LocalAt (level .negation) us) (hequality : LocalAt (level (.layer .equality)) ts) :
    LocalAt (level .negation) ts := by
  by_cases hnot : ∃ n us, ts = ⟨.keyword .not, n⟩ :: us
  · obtain ⟨n, us, rfl⟩ := hnot
    refine LocalAt.prepend (?_ : LocalAt _ us) [⟨.keyword .not, n⟩]
      fun rest _ => level_not n (us ++ rest)
    exact (ih us (Nat.lt_succ_self _)).andThen fun e left _ => localAt_done _ left
  · refine hequality.congr fun rest hrest => level_positive ?_
    exact hrest.head_append_ne rfl hnot

theorem localAt_layer {l : Layer} (hfirst : LocalAt (level l.tighter) ts)
    (ih : ∀ us : List Located, us.length < ts.length → ∀ e, LocalAt (more l e) us) :
    LocalAt (level (.layer l)) ts := by
  refine LocalAt.congr ?_ fun rest _ => level_layer l (ts ++ rest)
  refine hfirst.andThen fun e left hread => ?_
  obtain ⟨hlt, _⟩ := outcome_eq_ok.mp hread
  exact ih left hlt e

theorem localAt_more {l : Layer} (e : Expr) (ih : ∀ us : List Located, us.length < ts.length →
    LocalAt (level l.tighter) us ∧ ∀ e, LocalAt (more l e) us) : LocalAt (more l e) ts := by
  by_cases hop : ∃ token op n us, ts = ⟨token, n⟩ :: us ∧ l.operator? token = some op
  · obtain ⟨token, op, n, us, rfl, hop⟩ := hop
    refine LocalAt.prepend (?_ : LocalAt _ us) [⟨token, n⟩] fun rest _ => more_step e hop
    refine (ih us (Nat.lt_succ_self _)).1.andThen fun f left hread => ?_
    obtain ⟨hlt, _⟩ := outcome_eq_ok.mp hread
    exact (ih left (Nat.lt_succ_of_lt hlt)).2 _
  · refine (localAt_done e ts).congr fun rest hrest => more_stop e ?_
    rintro ⟨token, n⟩ ht
    rcases ts with _ | ⟨t', us⟩
    · -- no operator begins a statement
      have hstarts := hrest _ ht
      rw [← Option.not_isSome_iff_eq_none, Option.isSome_iff_exists]
      rintro ⟨op, hop⟩
      obtain ⟨_, rfl⟩ := Layer.isOperator_iff.mpr hop
      cases op <;> cases hstarts
    · cases ht
      rw [← Option.not_isSome_iff_eq_none, Option.isSome_iff_exists]
      rintro ⟨op, hop'⟩
      exact hop ⟨token, op, n, us, rfl, hop'⟩

/-- Expressions are read locally: from the tightest level to the loosest, and of each level on
ever fewer tokens. -/
theorem localAt_expr (ts : List Located) :
    (∀ l, LocalAt (level l) ts) ∧ ∀ l e, LocalAt (more l e) ts := by
  induction hn : ts.length using Nat.strongRecOn generalizing ts with
  | _ n ih =>
    subst hn
    have hlevel : ∀ l (us : List Located), us.length < ts.length → LocalAt (level l) us :=
      fun l us hlt => (ih _ hlt us rfl).1 l
    have hmore : ∀ l e (us : List Located), us.length < ts.length → LocalAt (more l e) us :=
      fun l e us hlt => (ih _ hlt us rfl).2 l e
    have hlayer : ∀ l, LocalAt (level l.tighter) ts → LocalAt (level (.layer l)) ts :=
      fun l hfirst => localAt_layer hfirst fun us hlt e => hmore l e us hlt
    have hoperand : LocalAt (level .operand) ts := localAt_operand (hlevel _)
    have hequality := hlayer .equality (hlayer .comparison hoperand)
    have hnegation : LocalAt (level .negation) ts := localAt_negation (hlevel _) hequality
    have hconjunction := hlayer .conjunction hnegation
    refine ⟨fun l => ?_, fun l e => ?_⟩
    · rcases l with (_ | _ | _ | _) | _ | _
      · exact hlayer .disjunction hconjunction
      · exact hconjunction
      · exact hequality
      · exact hlayer .comparison hoperand
      · exact hnegation
      · exact hoperand
    · exact localAt_more e fun us hlt => ⟨hlevel _ us hlt, fun e => hmore l e us hlt⟩

end
end Expr

end AccessPolicy
