import AccessPolicy.Proofs.LocalReading

/-!
# Statements are read locally

A definition is read alike whatever statement follows it (`localAt_definition`), and so is a rule
that does not end with `ON` (`localAt_rule`): after that, the word `RESOURCE` of a following
definition would be taken for that of the rule.
-/

namespace AccessPolicy

namespace Reading

variable {α β : Type} {ts : List Located}

/-! ## Values and actions -/

theorem startsProperty_append {rest : List Located} (hrest : Statement.Ends rest)
    (ts : List Located) : startsProperty (ts ++ rest) = startsProperty ts := by
  rw [Bool.eq_iff_iff, startsProperty_iff, startsProperty_iff]
  rcases ts with _ | ⟨t, _ | ⟨t', ts⟩⟩
  · constructor
    · rintro ⟨t, n, us, rfl, hname⟩
      have hstarts := hrest t rfl
      rcases hname with ⟨name, hname⟩ | hname
      · rw [hname] at hstarts
        cases hstarts
      · rw [hname] at hstarts
        cases hstarts
    · rintro ⟨t, n, us, hnil, _⟩
      cases hnil
  · constructor
    · rintro ⟨t, n, us, hcons, _⟩
      obtain ⟨_, rfl⟩ := List.cons.inj hcons
      cases hrest _ rfl
    · rintro ⟨t, n, us, hcons, _⟩
      cases hcons
  · simp only [List.cons_append, List.cons.injEq]
    constructor
    · rintro ⟨_, n, _, ⟨rfl, rfl, rfl⟩, hname⟩
      exact ⟨t, n, ts, ⟨rfl, rfl, rfl⟩, hname⟩
    · rintro ⟨_, n, _, ⟨rfl, rfl, rfl⟩, hname⟩
      exact ⟨t, n, ts ++ rest, ⟨rfl, rfl, rfl⟩, hname⟩

/-- A family of readers takes items with commas between them. `last` is what an item alone makes
of a state, `next` the state after an item, and `wrap` adds the item to what follows. -/
structure TakesItems {σ β γ : Type} (meaning? : Token → Option β) (x : Expectation)
    (read : σ → Reader γ) (last : σ → β → γ) (next : σ → β → σ) (wrap : β → γ → γ) : Prop where
  nil : ∀ s, read s [] = fail x []
  other : ∀ s t ts, meaning? t.token = none → read s (t :: ts) = fail x (t :: ts)
  last : ∀ s t ts b, meaning? t.token = some b → CommaBeforeProperty ts →
    read s (t :: ts) = done (last s b) ts
  more : ∀ s t n ts b, meaning? t.token = some b → startsProperty ts = false →
    read s (t :: ⟨.mark .comma, n⟩ :: ts) =
      andThen (read (next s b)) (fun c => done (wrap b c)) ts

theorem TakesItems.localAt {σ β γ : Type} {meaning? : Token → Option β} {x : Expectation}
    {read : σ → Reader γ} {last : σ → β → γ} {next : σ → β → σ} {wrap : β → γ → γ}
    (h : TakesItems meaning? x read last next wrap)
    (hkeyword : ∀ k, meaning? (.keyword k) = none) (s : σ) (ts : List Located) :
    LocalAt (read s) ts := by
  induction hn : ts.length using Nat.strongRecOn generalizing s ts with
  | _ n ih =>
    subst hn
    rcases ts with _ | ⟨t, ts⟩
    · refine (localAt_fail x []).congr fun rest hrest => ?_
      rcases hrest.eq_nil_or_cons with rfl | ⟨k, n, us, rfl, _⟩
      · exact h.nil s
      · exact h.other s _ us (hkeyword k)
    · cases hmeaning : meaning? t.token with
      | none =>
          exact (localAt_fail x (t :: ts)).congr fun rest _ => h.other s t (ts ++ rest) hmeaning
      | some b =>
          by_cases hcomma : ∃ n us, ts = ⟨.mark .comma, n⟩ :: us ∧ startsProperty us = false
          · obtain ⟨n, us, rfl, hstarts⟩ := hcomma
            have hlt : us.length < (t :: ⟨.mark .comma, n⟩ :: us).length :=
              Nat.lt_succ_of_lt (Nat.lt_succ_self _)
            refine LocalAt.prepend (?_ : LocalAt _ us) [t, ⟨.mark .comma, n⟩] fun rest hrest =>
              h.more s t n (us ++ rest) b hmeaning ((startsProperty_append hrest us).trans hstarts)
            exact (ih _ hlt (next s b) us rfl).andThen fun c left _ => localAt_done _ left
          · refine (localAt_done (last s b) ts).prepend [t] fun rest hrest =>
              h.last s t (ts ++ rest) b hmeaning ?_
            intro n us hus
            rcases ts with _ | ⟨t', ts⟩
            · subst hus
              cases hrest _ rfl
            · obtain ⟨rfl, rfl⟩ := List.cons.inj hus
              show startsProperty (ts ++ rest) = true
              rw [startsProperty_append hrest, ← Bool.not_eq_false]
              exact fun hstarts => hcomma ⟨n, ts, rfl, hstarts⟩

def values : Reader (List Literal) := fun ts => outcome (readValues ts)

def actionsAfter (seen : List String) : Reader (List String) :=
  fun ts => outcome (readActionsAfter seen ts)

theorem takesItems_values : TakesItems Token.literal? .value (fun _ : Unit => values)
    (fun _ v => [v]) (fun s _ => s) (fun v vs => v :: vs) where
  nil _ := by
    unfold values
    rw [readValues]
    rfl
  other _ t ts hmeaning := by
    unfold values
    rw [readValues, hmeaning]
    rfl
  last _ t ts v hmeaning hcomma := by
    unfold values
    rw [readValues, hmeaning]
    dsimp only
    split
    · rw [if_pos (hcomma _ _ rfl)]
      rfl
    · rfl
  more _ t n ts v hmeaning hstarts := by
    have hcomma : ¬startsProperty ts = true := by simp [hstarts]
    refine eq_andThen (fun u hread => ?_) (fun vs left hread => ?_)
    · rw [values, readValues, hmeaning]
      dsimp only
      rw [if_neg hcomma, outcome_eq_error.mp hread]
      rfl
    · obtain ⟨hlt, hread⟩ := outcome_eq_ok.mp hread
      rw [values, readValues, hmeaning]
      dsimp only
      rw [if_neg hcomma, hread]
      rfl

theorem takesItems_actions : TakesItems Token.action? .actionValue actionsAfter
    addNew addNew (fun _ actions => actions) where
  nil _ := by
    unfold actionsAfter
    rw [readActionsAfter]
    rfl
  other _ t ts hmeaning := by
    unfold actionsAfter
    rw [readActionsAfter, hmeaning]
    rfl
  last _ t ts v hmeaning hcomma := by
    unfold actionsAfter
    rw [readActionsAfter, hmeaning]
    dsimp only
    split
    · rw [if_pos (hcomma _ _ rfl)]
      rfl
    · rfl
  more seen t n ts v hmeaning hstarts := by
    have hcomma : ¬startsProperty ts = true := by simp [hstarts]
    refine eq_andThen (fun u hread => ?_) (fun actions left hread => ?_)
    · unfold actionsAfter addNew at hread
      rw [actionsAfter, readActionsAfter, hmeaning]
      dsimp only
      rw [if_neg hcomma, outcome_eq_error.mp hread]
      rfl
    · unfold actionsAfter addNew at hread
      obtain ⟨hlt, hread⟩ := outcome_eq_ok.mp hread
      rw [actionsAfter, readActionsAfter, hmeaning]
      dsimp only
      rw [if_neg hcomma, hread]
      rfl

theorem localAt_values (ts : List Located) : LocalAt values ts :=
  takesItems_values.localAt (fun _ => rfl) () ts

theorem localAt_actions (seen : List String) (ts : List Located) :
    LocalAt (actionsAfter seen) ts :=
  takesItems_actions.localAt (fun _ => rfl) seen ts

/-! ## Properties -/

def key : Reader String := fun ts => outcome (readKey ts)

theorem localAt_key (ts : List Located) : LocalAt key ts := by
  rcases ts with _ | ⟨⟨token, n⟩, ts⟩
  · refine (localAt_fail .propertyName []).congr fun rest hrest => ?_
    rcases hrest.eq_nil_or_cons with rfl | ⟨k, n, us, rfl, hk⟩
    · rfl
    · cases k <;> first | rfl | cases hk
  · cases token with
    | ident name => exact (localAt_done name ts).prepend [_] fun _ _ => rfl
    | keyword k =>
        cases k with
        | can => exact (localAt_done "can" ts).prepend [_] fun _ _ => rfl
        | _ => exact (localAt_fail .propertyName _).congr fun _ _ => rfl
    | _ => exact (localAt_fail .propertyName _).congr fun _ _ => rfl

def propertyValues (key : String) : Reader (List Literal) :=
  fun ts => outcome (readPropertyValues key ts)

theorem propertyValues_can (ts : List Located) :
    propertyValues "can" ts = andThen (actionsAfter []) (fun as => done (as.map .string)) ts := by
  refine eq_andThen (fun u hread => ?_) (fun as left hread => ?_)
  · rw [propertyValues, readPropertyValues, if_pos rfl, readActions, outcome_eq_error.mp hread]
    rfl
  · obtain ⟨hlt, hread⟩ := outcome_eq_ok.mp hread
    rw [propertyValues, readPropertyValues, if_pos rfl, readActions, hread]
    rfl

theorem localAt_propertyValues (key : String) (ts : List Located) :
    LocalAt (propertyValues key) ts := by
  by_cases hcan : key = "can"
  · subst hcan
    refine LocalAt.congr ?_ fun rest _ => propertyValues_can (ts ++ rest)
    exact (localAt_actions [] ts).andThen fun as left _ => localAt_done _ left
  · refine (localAt_values ts).congr fun rest _ => ?_
    rw [propertyValues, readPropertyValues, if_neg hcan]
    rfl

theorem readProperty_eq (ts : List Located) :
    readProperty ts = andThen key (fun k => andThen (word (.mark .colon) .colon) fun _ =>
      andThen (propertyValues k) fun vs => done (k, vs)) ts := by
  unfold readProperty
  refine eq_andThen (fun u hkey => ?_) (fun k left hkey => ?_)
  · rw [outcome_eq_error.mp hkey]
    rfl
  · obtain ⟨hlt, hkey⟩ := outcome_eq_ok.mp hkey
    rw [hkey]
    refine eq_andThen (fun u hcolon => ?_) (fun _ left' hcolon => ?_)
    · dsimp only [bind, Except.bind]
      rw [word_eq_error.mp hcolon]
    · obtain ⟨r, hmark, rfl⟩ := word_eq_ok.mp hcolon
      dsimp only [bind, Except.bind]
      rw [hmark]
      rfl

theorem localAt_readProperty (ts : List Located) : LocalAt readProperty ts := by
  refine LocalAt.congr ?_ fun rest _ => readProperty_eq (ts ++ rest)
  refine (localAt_key ts).andThen fun k left _ => ?_
  refine (localAt_word .colon (Or.inl rfl)).andThen fun _ left' _ => ?_
  exact (localAt_propertyValues k left').andThen fun vs left'' _ => localAt_done _ left''

theorem length_lt_of_readProperty {e : String × List Literal} {ts left : List Located}
    (h : readProperty ts = .ok (e, left)) : left.length < ts.length := by
  obtain ⟨⟨k, ts₁, h₁⟩, _, h⟩ := bind_eq_ok.mp h
  obtain ⟨⟨ts₂, h₂⟩, _, h⟩ := bind_eq_ok.mp h
  obtain ⟨⟨vs, ts₃⟩, hvalues, h⟩ := bind_eq_ok.mp h
  cases h
  obtain ⟨h₃, _⟩ := outcome_eq_ok.mp hvalues
  exact Nat.lt_trans h₃ (Nat.lt_trans h₂ h₁)

def properties (ps : Properties) : Reader Properties := fun ts => outcome (readProperties ps ts)

theorem properties_step (ps : Properties) {ts : List Located}
    (hts : ∀ n us, ts ≠ ⟨.mark .rightBrace, n⟩ :: us) :
    properties ps ts =
      andThen readProperty (fun e => readFurther (NameMap.insert e.1 e.2 ps)) ts :=
  readProperties_eq ps hts

theorem localAt_readFurther {ts : List Located} (ps : Properties)
    (ih : ∀ us : List Located, us.length ≤ ts.length → LocalAt (properties ps) us) :
    LocalAt (readFurther ps) ts := by
  rcases ts with _ | ⟨t, ts⟩
  · refine (localAt_fail .separator []).congr fun rest hrest => ?_
    have hnone : ¬startsProperty rest = true := by
      rw [← List.nil_append rest, startsProperty_append hrest]
      exact Bool.false_ne_true
    rcases hrest.eq_nil_or_cons with rfl | ⟨k, n, us, rfl, hk⟩
    · rfl
    · exact if_neg hnone
  · by_cases hcomma : ∃ n, t = ⟨.mark .comma, n⟩
    · obtain ⟨n, rfl⟩ := hcomma
      exact (ih ts (Nat.le_succ _)).prepend [⟨.mark .comma, n⟩] fun _ _ => rfl
    · by_cases hbrace : ∃ n, t = ⟨.mark .rightBrace, n⟩
      · obtain ⟨n, rfl⟩ := hbrace
        exact (localAt_done ps _).congr fun _ _ => rfl
      · have hother : ∀ us, readFurther ps (t :: us) =
            if startsProperty (t :: us) then properties ps (t :: us)
            else fail .separator (t :: us) := by
          intro us
          rw [readFurther.eq_3]
          · rfl
          · rintro n us' hcons
            obtain ⟨rfl, _⟩ := List.cons.inj hcons
            exact hcomma ⟨n, rfl⟩
          · rintro n us' hcons
            obtain ⟨rfl, _⟩ := List.cons.inj hcons
            exact hbrace ⟨n, rfl⟩
        by_cases hstarts : startsProperty (t :: ts) = true
        · refine (ih (t :: ts) (Nat.le_refl _)).congr fun rest hrest => ?_
          rw [List.cons_append, hother, ← List.cons_append, startsProperty_append hrest,
            if_pos hstarts]
        · refine (localAt_fail .separator (t :: ts)).congr fun rest hrest => ?_
          rw [List.cons_append, hother, ← List.cons_append, startsProperty_append hrest,
            if_neg hstarts]

theorem localAt_properties (ps : Properties) (ts : List Located) :
    LocalAt (properties ps) ts := by
  induction hn : ts.length using Nat.strongRecOn generalizing ps ts with
  | _ n ih =>
    subst hn
    by_cases hbrace : ∃ n us, ts = ⟨.mark .rightBrace, n⟩ :: us
    · obtain ⟨n, us, rfl⟩ := hbrace
      exact (localAt_done ps _).congr fun rest _ => readProperties_rightBrace ps n (us ++ rest)
    · refine LocalAt.congr ?_ fun rest hrest => properties_step ps ?_
      · refine (localAt_readProperty ts).andThen fun e left hread => ?_
        have hlt := length_lt_of_readProperty hread
        exact localAt_readFurther _ fun us hle => ih _ (Nat.lt_of_le_of_lt hle hlt) _ us rfl
      · intro n us hus
        have hhead := hrest.head_append_ne rfl hbrace
        rw [hus] at hhead
        exact hhead _ rfl rfl

/-! ## Definitions -/

section
variable {p q : List Located → Prop}

/-- Reading one thing and then another, apart from the proofs that the tokens become fewer. -/
theorem outcome_bind {x : Except Unexpected (α × { r // p r })}
    {f : α × { r // p r } → Except Unexpected (β × { r // q r })} {read : Reader α}
    {next : α → Reader β} (hread : outcome x = read ts)
    (hnext : ∀ a left h, outcome (f (a, ⟨left, h⟩)) = next a left) :
    outcome (x >>= f) = andThen read next ts := by
  cases x with
  | error u =>
      rw [andThen_error hread.symm]
      rfl
  | ok y =>
      obtain ⟨a, left, h⟩ := y
      rw [andThen_ok hread.symm]
      exact hnext a left h

theorem outcome_bind_word {x : Except Unexpected { r // p r }}
    {f : { r // p r } → Except Unexpected (β × { r // q r })} {read : Reader Unit}
    {next : Reader β} (hread : x.map (fun r => ((), r.1)) = read ts)
    (hnext : ∀ left h, outcome (f ⟨left, h⟩) = next left) :
    outcome (x >>= f) = andThen read (fun _ => next) ts := by
  cases x with
  | error u =>
      rw [andThen_error hread.symm]
      rfl
  | ok y =>
      obtain ⟨left, h⟩ := y
      rw [andThen_ok hread.symm]
      exact hnext left h

end

def definition (line : Nat) : Reader Definition := fun ts => outcome (readDefinition line ts)

theorem definition_eq (line : Nat) (ts : List Located) :
    definition line ts =
      andThen (name .definitionName) (fun n => andThen (word (.mark .leftBrace) .leftBrace)
        fun _ => andThen (properties []) fun ps =>
          andThen (word (.mark .rightBrace) .rightBrace) fun _ => done ⟨n, ps, line⟩) ts :=
  outcome_bind rfl fun _ _ _ => outcome_bind_word rfl fun _ _ => outcome_bind rfl fun _ _ _ =>
    outcome_bind_word rfl fun _ _ => rfl

theorem localAt_definition (line : Nat) (ts : List Located) : LocalAt (definition line) ts := by
  refine LocalAt.congr ?_ fun rest _ => definition_eq line (ts ++ rest)
  refine (localAt_name .definitionName ts).andThen fun n ts₁ _ => ?_
  refine (localAt_word .leftBrace (Or.inl rfl)).andThen fun _ ts₂ _ => ?_
  refine (localAt_properties [] ts₂).andThen fun ps ts₃ _ => ?_
  exact (localAt_word .rightBrace (Or.inl rfl)).andThen fun _ ts₄ _ => localAt_done _ ts₄

/-! ## Resources and conditions of rules -/

def segments (path : String) : Reader String := fun ts => outcome (readSegments path ts)

theorem segments_ident (path name : String) (n m : Nat) (ts : List Located) :
    segments path (⟨.mark .dot, n⟩ :: ⟨.ident name, m⟩ :: ts) =
      segments (path ++ "." ++ name) ts := by
  unfold segments
  rw [readSegments]
  cases readSegments (path ++ "." ++ name) ts <;> rfl

theorem segments_stop (path : String) (hts : Segments.Ends ts) :
    segments path ts = done path ts :=
  readSegments_of_derivation .done path hts

theorem localAt_segments (path : String) (ts : List Located) : LocalAt (segments path) ts := by
  induction hn : ts.length using Nat.strongRecOn generalizing path ts with
  | _ n ih =>
    subst hn
    by_cases hdot : ∃ n us, ts = ⟨.mark .dot, n⟩ :: us
    · obtain ⟨n, us, rfl⟩ := hdot
      rcases us with _ | ⟨⟨token, m⟩, us⟩
      · refine (localAt_fail .segment []).prepend [⟨.mark .dot, n⟩] fun rest hrest => ?_
        rcases hrest.eq_nil_or_cons with rfl | ⟨k, m, us, rfl, _⟩
        · rfl
        · rfl
      · cases token with
        | ident name =>
            have hlt : us.length < (⟨.mark .dot, n⟩ :: ⟨.ident name, m⟩ :: us : List _).length :=
              Nat.lt_succ_of_lt (Nat.lt_succ_self _)
            exact (ih _ hlt _ us rfl).prepend [⟨.mark .dot, n⟩, ⟨.ident name, m⟩]
              fun rest _ => segments_ident path name n m (us ++ rest)
        | mark mark =>
            cases mark with
            | star =>
                exact (localAt_done _ us).prepend [⟨.mark .dot, n⟩, ⟨.mark .star, m⟩]
                  fun _ _ => rfl
            | _ => exact (localAt_fail .segment (_ :: us)).prepend [⟨.mark .dot, n⟩] fun _ _ => rfl
        | _ => exact (localAt_fail .segment (_ :: us)).prepend [⟨.mark .dot, n⟩] fun _ _ => rfl
    · refine (localAt_done path ts).congr fun rest hrest => segments_stop path ?_
      exact hrest.head_append_ne rfl hdot

def resource : Reader String := fun ts => outcome (readResource ts)

theorem resource_ident (name : String) (n : Nat) (ts : List Located) :
    resource (⟨.ident name, n⟩ :: ts) = segments name ts := by
  unfold resource segments
  rw [readResource]
  cases readSegments name ts <;> rfl

theorem localAt_resource (ts : List Located) : LocalAt resource ts := by
  rcases ts with _ | ⟨⟨token, n⟩, ts⟩
  · refine (localAt_fail .resource []).congr fun rest hrest => ?_
    rcases hrest.eq_nil_or_cons with rfl | ⟨k, n, us, rfl, _⟩
    · rfl
    · rfl
  · cases token with
    | string s => exact (localAt_done s ts).prepend [⟨.string s, n⟩] fun _ _ => rfl
    | ident name =>
        exact (localAt_segments name ts).prepend [⟨.ident name, n⟩]
          fun rest _ => resource_ident name n (ts ++ rest)
    | mark mark =>
        cases mark with
        | star => exact (localAt_done "*" ts).prepend [⟨.mark .star, n⟩] fun _ _ => rfl
        | _ => exact (localAt_fail .resource (_ :: ts)).congr fun _ _ => rfl
    | _ => exact (localAt_fail .resource (_ :: ts)).congr fun _ _ => rfl

def condition : Reader (Option Expr) := fun ts => outcome (readCondition ts)

theorem condition_if (n : Nat) (ts : List Located) :
    condition (⟨.keyword .ifWord, n⟩ :: ts) =
      andThen (word (.mark .leftParen) .conditionStart) (fun _ =>
        andThen (Expr.level (.layer .disjunction)) fun e =>
          andThen (word (.mark .rightParen) .rightParen) fun _ => done (some e)) ts := by
  have hread : ∀ ts, outcome (Expr.read ts) = Expr.level (.layer .disjunction) ts := by
    intro ts
    rw [Expr.level, Expr.readLevel_layer]
    rfl
  exact outcome_bind_word rfl fun ts₁ _ => outcome_bind (hread ts₁) fun _ _ _ =>
    outcome_bind_word rfl fun _ _ => rfl

theorem condition_none (hts : ∀ t ∈ ts.head?, t.token ≠ .keyword .ifWord) :
    condition ts = done none ts := by
  unfold condition
  rw [readCondition.eq_2]
  · rfl
  · rintro n us rfl
    exact hts _ rfl rfl

theorem localAt_condition (ts : List Located) : LocalAt condition ts := by
  by_cases hif : ∃ n us, ts = ⟨.keyword .ifWord, n⟩ :: us
  · obtain ⟨n, us, rfl⟩ := hif
    refine LocalAt.prepend (?_ : LocalAt _ us) [⟨.keyword .ifWord, n⟩]
      fun rest _ => condition_if n (us ++ rest)
    refine (localAt_word .conditionStart (Or.inl rfl)).andThen fun _ ts₁ _ => ?_
    refine ((Expr.localAt_expr ts₁).1 _).andThen fun e ts₂ _ => ?_
    exact (localAt_word .rightParen (Or.inl rfl)).andThen fun _ ts₃ _ => localAt_done _ ts₃
  · refine (localAt_done none ts).congr fun rest hrest => condition_none ?_
    exact hrest.head_append_ne rfl hif

/-! ## Rules -/

/-- Read a rule after its first word up to the word `ON`: its actions. -/
def opening : Reader (List String) :=
  andThen (word (.keyword .action) .actionWord) fun _ => andThen (word (.mark .colon) .colon)
    fun _ => andThen (actionsAfter []) fun as => andThen (word (.keyword .on) .onWord)
      fun _ => done as

/-- Read a rule after its word `RESOURCE`. -/
def closing (effect : Effect) (line : Nat) (actions : List String) : Reader Rule :=
  andThen (word (.mark .colon) .colon) fun _ => andThen resource fun spec =>
    andThen condition fun c => done ⟨effect, actions, spec, c, line⟩

def rule (effect : Effect) (line : Nat) : Reader Rule := fun ts => outcome (readRule effect line ts)

theorem done_andThen (a : α) (next : α → Reader β) : andThen (done a) next = next a := rfl

theorem andThen_assoc {γ : Type} (read : Reader α) (next : α → Reader β) (last : β → Reader γ) :
    andThen (andThen read next) last = andThen read (fun a => andThen (next a) last) := by
  funext ts
  cases hread : read ts with
  | error u => rw [andThen_error hread, andThen_error (andThen_error hread)]
  | ok x =>
      obtain ⟨a, left⟩ := x
      have hfirst : andThen read next ts = next a left := andThen_ok hread
      rw [andThen_ok hread]
      unfold andThen at hfirst ⊢
      rw [hfirst]

theorem rule_eq (effect : Effect) (line : Nat) (ts : List Located) :
    rule effect line ts =
      andThen opening (fun actions => andThen (word (.keyword .resource) .resourceWord)
        fun _ => closing effect line actions) ts := by
  have hrule : rule effect line ts =
      andThen (word (.keyword .action) .actionWord) (fun _ => andThen (word (.mark .colon) .colon)
        fun _ => andThen (actionsAfter []) fun as => andThen (word (.keyword .on) .onWord)
          fun _ => andThen (word (.keyword .resource) .resourceWord)
            fun _ => closing effect line as) ts :=
    outcome_bind_word rfl fun _ _ => outcome_bind_word rfl fun _ _ => outcome_bind rfl fun _ _ _ =>
      outcome_bind_word rfl fun _ _ => outcome_bind_word rfl fun _ _ =>
        outcome_bind_word rfl fun _ _ => outcome_bind rfl fun _ _ _ => outcome_bind rfl
          fun _ _ _ => rfl
  rw [hrule]
  unfold opening
  simp only [andThen_assoc, done_andThen]

theorem LocalAt.suffix_of_ok {read : Reader α} (h : LocalAt read ts) {a : α}
    {left : List Located} (hread : read ts = .ok (a, left)) : left <:+ ts := by
  have hsuffix := h.suffix
  rwa [hread] at hsuffix

theorem localAt_opening (ts : List Located) : LocalAt opening ts := by
  refine (localAt_word .actionWord (Or.inl rfl)).andThen fun _ ts₁ _ => ?_
  refine (localAt_word .colon (Or.inl rfl)).andThen fun _ ts₂ _ => ?_
  refine (localAt_actions [] ts₂).andThen fun as ts₃ _ => ?_
  exact (localAt_word .onWord (Or.inl rfl)).andThen fun _ ts₄ _ => localAt_done as ts₄

theorem localAt_closing (effect : Effect) (line : Nat) (actions : List String)
    (ts : List Located) : LocalAt (closing effect line actions) ts := by
  refine (localAt_word .colon (Or.inl rfl)).andThen fun _ ts₁ _ => ?_
  refine (localAt_resource ts₁).andThen fun spec ts₂ _ => ?_
  exact (localAt_condition ts₂).andThen fun c ts₃ _ => localAt_done _ ts₃

theorem opening_eq_ok {actions : List String} {left : List Located} :
    opening ts = .ok (actions, left) ↔ ∃ n₁ n₂ n₃, ∃ d : Items .action,
      ts = ⟨.keyword .action, n₁⟩ :: ⟨.mark .colon, n₂⟩ ::
        (d.tokens ++ ⟨.keyword .on, n₃⟩ :: left) ∧ d.actions = actions := by
  constructor
  · intro h
    obtain ⟨⟨⟨⟩, ts₁⟩, haction, h⟩ := bind_eq_ok.mp h
    obtain ⟨⟨⟨⟩, ts₂⟩, hcolon, h⟩ := bind_eq_ok.mp h
    obtain ⟨⟨as, ts₃⟩, hactions, h⟩ := bind_eq_ok.mp h
    obtain ⟨⟨⟨⟩, ts₄⟩, hon, h⟩ := bind_eq_ok.mp h
    cases h
    obtain ⟨n₁, rfl⟩ := eq_cons_of_word haction
    obtain ⟨n₂, rfl⟩ := eq_cons_of_word hcolon
    obtain ⟨d, rfl, rfl, _⟩ := derivation_of_readActions hactions
    obtain ⟨n₃, rfl⟩ := eq_cons_of_word hon
    exact ⟨n₁, n₂, n₃, d, rfl, rfl⟩
  · rintro ⟨n₁, n₂, n₃, d, rfl, rfl⟩
    have hactions := readActions_of_derivation d (Items.ends_on n₃ left)
    refine bind_eq_ok.mpr ⟨_, word_self _ _ n₁ _, bind_eq_ok.mpr ⟨_, word_self _ _ n₂ _, ?_⟩⟩
    exact bind_eq_ok.mpr ⟨_, hactions, bind_eq_ok.mpr ⟨_, word_self _ _ n₃ _, rfl⟩⟩

/-- A rule is read locally, unless its tokens end with `ON`: the word `RESOURCE` would be that of
the rule. -/
theorem localAt_rule (effect : Effect) (line : Nat)
    (hon : ∀ t ∈ ts.getLast?, t.token ≠ .keyword .on) : LocalAt (rule effect line) ts := by
  refine LocalAt.congr ?_ fun rest _ => rule_eq effect line (ts ++ rest)
  refine (localAt_opening ts).andThen fun actions ts₁ hopening => ?_
  have hne : ts₁ ≠ [] := by
    rintro rfl
    obtain ⟨n₁, n₂, n₃, d, rfl, _⟩ := opening_eq_ok.mp hopening
    refine hon ⟨.keyword .on, n₃⟩ ?_ rfl
    rw [← List.cons_append, ← List.cons_append]
    exact List.getLast?_concat
  refine (localAt_word .resourceWord (Or.inr hne)).andThen fun _ ts₂ _ => ?_
  exact localAt_closing effect line actions ts₂

end Reading
end AccessPolicy
