import AccessPolicy.Proofs.LocalStatements

/-!
# Recovery after a failure

A statement that is not read is a failure, and reading goes on where recovery stops: past the
brace that closes the statement, or at the next word that begins one. Something is taken then in
any case (`length_recover_lt`). What is collected up to the end of the tokens is `Failures`, and
each budget allows the first of them.
-/

namespace AccessPolicy

open Reading

/-! ## Recovery -/

/-- No brace, and no word that begins a statement. -/
def Token.IsPlain (t : Token) : Prop :=
  t ≠ .mark .leftBrace ∧ t ≠ .mark .rightBrace ∧ t.startsStatement = false

instance (t : Token) : Decidable t.IsPlain := by
  unfold Token.IsPlain
  infer_instance

def Plain (ts : List Located) : Prop := ∀ t ∈ ts, t.token.IsPlain

instance (ts : List Located) : Decidable (Plain ts) := by
  unfold Plain
  infer_instance

section
variable {rest ts us left : List Located}

theorem Plain.of_suffix (h : Plain ts) (hus : us <:+ ts) : Plain us :=
  fun t ht => h t (hus.subset ht)

theorem recover_plain (h : Plain us) (depth : Nat) (ts : List Located) :
    recover depth (us ++ ts) = recover depth ts := by
  induction us with
  | nil => rfl
  | cons t us ih =>
      obtain ⟨hopen, hclose, hword⟩ := h t List.mem_cons_self
      have hmore := ih fun t ht => h t (List.mem_cons_of_mem _ ht)
      rw [List.cons_append, recover.eq_def]
      dsimp only
      split
      · next heq => exact absurd heq hopen
      · next heq => exact absurd heq hclose
      · rw [if_neg, hmore]
        rintro ⟨_, hstarts⟩
        exact Bool.false_ne_true (hword.symm.trans hstarts)

theorem recover_ends (h : Statement.Ends rest) : recover 0 rest = rest := by
  rcases h.eq_nil_or_cons with rfl | ⟨k, n, us, rfl, hk⟩
  · rfl
  · rw [recover]
    exact if_pos ⟨rfl, hk⟩

theorem recover_plain_ends (h : Plain us) (hrest : Statement.Ends rest) :
    recover 0 (us ++ rest) = rest := by
  rw [recover_plain h, recover_ends hrest]

theorem recover_body {body : List Located} {n : Nat} (hbody : Plain body)
    (hrest : Statement.Ends rest) (h : left <:+ body ++ [⟨.mark .rightBrace, n⟩]) :
    recover 0 (left ++ rest) = rest := by
  induction body with
  | nil =>
      rcases List.suffix_cons_iff.mp h with hwhole | hnil
      · rw [hwhole]
        rfl
      · rw [List.suffix_nil.mp hnil]
        exact recover_ends hrest
  | cons t body ih =>
      rcases List.suffix_cons_iff.mp h with hwhole | hsuffix
      · rw [hwhole]
        show recover 0 (t :: body ++ [_] ++ rest) = rest
        rw [List.append_assoc, recover_plain hbody]
        rfl
      · exact ih (hbody.of_suffix (List.suffix_cons t body)) hsuffix

theorem recover_definition {heading body : List Located} {n m : Nat} (hheading : Plain heading)
    (hbody : Plain body) (hrest : Statement.Ends rest)
    (h : left <:+ heading ++ ⟨.mark .leftBrace, n⟩ :: (body ++ [⟨.mark .rightBrace, m⟩])) :
    recover 0 (left ++ rest) = rest := by
  have hwhole : ∀ us : List Located, Plain us → recover 0
      (us ++ ⟨.mark .leftBrace, n⟩ :: (body ++ [⟨.mark .rightBrace, m⟩]) ++ rest) = rest := by
    intro us hus
    rw [List.append_assoc, recover_plain hus, List.cons_append, List.append_assoc]
    show recover 1 (body ++ ⟨.mark .rightBrace, m⟩ :: rest) = rest
    rw [recover_plain hbody]
    exact recover_ends hrest
  induction heading with
  | nil =>
      rcases List.suffix_cons_iff.mp h with heq | hsuffix
      · rw [heq]
        exact hwhole [] hheading
      · exact recover_body hbody hrest hsuffix
  | cons t heading ih =>
      rcases List.suffix_cons_iff.mp h with heq | hsuffix
      · rw [heq]
        exact hwhole (t :: heading) hheading
      · exact ih (hheading.of_suffix (List.suffix_cons t heading)) hsuffix

theorem recover_suffix (depth : Nat) (ts : List Located) : recover depth ts <:+ ts := by
  induction ts generalizing depth with
  | nil => exact List.suffix_refl []
  | cons t ts ih =>
      have hskip : ∀ depth, recover depth ts <:+ t :: ts :=
        fun depth => (ih depth).trans (List.suffix_cons t ts)
      rw [recover.eq_def]
      dsimp only
      split
      · exact hskip _
      · split
        · exact List.suffix_cons t ts
        · exact hskip _
      · split_ifs
        · exact List.suffix_refl _
        · exact hskip _

/-- Recovery takes a token, unless a statement begins or the tokens end. -/
theorem recover_lt_or_ends (ts : List Located) :
    (recover 0 ts).length < ts.length ∨ Statement.Ends ts := by
  rcases ts with _ | ⟨t, ts⟩
  · right
    exact Statement.ends_nil
  · by_cases hstarts : t.token.startsStatement = true
    · right
      intro t' ht'
      cases ht'
      exact hstarts
    · left
      have hskip : ∀ depth, (recover depth ts).length < (t :: ts).length :=
        fun depth => Nat.lt_succ_of_le (recover_suffix depth ts).length_le
      rw [recover.eq_def]
      dsimp only
      split
      · exact hskip _
      · exact Nat.lt_succ_self _
      · rw [if_neg fun h => hstarts h.2]
        exact hskip _

end

/-! ## Where reading a statement stops -/

namespace Reading
variable {α β : Type} {ts : List Located}

theorem suffix_andThen {read : Reader α} {next : α → Reader β} (h : leftover (read ts) <:+ ts)
    (hnext : ∀ a left, leftover (next a left) <:+ left) :
    leftover (andThen read next ts) <:+ ts := by
  cases hread : read ts with
  | error u =>
      rw [hread] at h
      rw [andThen_error hread]
      exact h
  | ok x =>
      obtain ⟨a, left⟩ := x
      rw [hread] at h
      rw [andThen_ok hread]
      exact (hnext a left).trans h

theorem suffix_word (token : Token) (x : Expectation) (ts : List Located) :
    leftover (word token x ts) <:+ ts := by
  rcases ts with _ | ⟨t, ts⟩
  · exact List.suffix_refl []
  · exact (localAt_word x (Or.inr (List.cons_ne_nil t ts))).suffix

theorem suffix_rule (effect : Effect) (line : Nat) (ts : List Located) :
    leftover (rule effect line ts) <:+ ts := by
  rw [rule_eq]
  apply suffix_andThen (localAt_opening ts).suffix
  intro actions left
  apply suffix_andThen (suffix_word _ _ left)
  intro _ after
  exact (localAt_closing effect line actions after).suffix

end Reading

section
variable {rest ts us left : List Located} {u : Unexpected}

theorem readStatement_definition (kind : DefinitionKind) (n : Nat) (ts : List Located) :
    outcome (readStatement (⟨.keyword kind.keyword, n⟩ :: ts)) =
      andThen (definition n) (fun d => done (.definition kind d)) ts := by
  have hkind : kind.keyword.definitionKind? = some kind := by cases kind <;> rfl
  rw [readStatement, hkind]
  refine eq_andThen (fun u hread => ?_) (fun d left hread => ?_)
  · dsimp only
    rw [outcome_eq_error.mp hread]
    rfl
  · obtain ⟨hlt, hread⟩ := outcome_eq_ok.mp hread
    dsimp only
    rw [hread]
    rfl

theorem readStatement_rule (effect : Effect) (n : Nat) (ts : List Located) :
    outcome (readStatement (⟨.keyword effect.keyword, n⟩ :: ts)) =
      andThen (rule effect n) (fun r => done (.rule r)) ts := by
  have hkind : effect.keyword.definitionKind? = none := by cases effect <;> rfl
  have heffect : effect.keyword.effect? = some effect := by cases effect <;> rfl
  rw [readStatement, hkind, heffect]
  refine eq_andThen (fun u hread => ?_) (fun r left hread => ?_)
  · dsimp only
    rw [outcome_eq_error.mp hread]
    rfl
  · obtain ⟨hlt, hread⟩ := outcome_eq_ok.mp hread
    dsimp only
    rw [hread]
    rfl

theorem readStatement_other {t : Located} (h : t.token.startsStatement = false)
    (ts : List Located) : outcome (readStatement (t :: ts)) = fail .statement (t :: ts) := by
  obtain ⟨token, n⟩ := t
  cases token with
  | keyword k => cases k <;> first | rfl | cases h
  | _ => rfl

theorem suffix_readStatement {t : Located} (h : t.token.startsStatement = true)
    (ts : List Located) : leftover (outcome (readStatement (t :: ts))) <:+ ts := by
  have hdefinition : ∀ kind : DefinitionKind, ∀ n,
      leftover (outcome (readStatement (⟨.keyword kind.keyword, n⟩ :: ts))) <:+ ts := by
    intro kind n
    rw [readStatement_definition]
    exact suffix_andThen (localAt_definition n ts).suffix fun _ left => List.suffix_refl left
  have hrule : ∀ effect : Effect, ∀ n,
      leftover (outcome (readStatement (⟨.keyword effect.keyword, n⟩ :: ts))) <:+ ts := by
    intro effect n
    rw [readStatement_rule]
    exact suffix_andThen (suffix_rule effect n ts) fun _ left => List.suffix_refl left
  obtain ⟨token, n⟩ := t
  cases token with
  | keyword k =>
      cases k with
      | role => exact hdefinition .role n
      | user => exact hdefinition .user n
      | resource => exact hdefinition .resource n
      | allow => exact hrule .allow n
      | deny => exact hrule .deny n
      | _ => cases h
  | _ => cases h

theorem suffix_statement (ts : List Located) :
    leftover (outcome (readStatement ts)) <:+ ts := by
  rcases ts with _ | ⟨t, ts⟩
  · exact List.suffix_refl []
  · by_cases h : t.token.startsStatement = true
    · exact (suffix_readStatement h ts).trans (List.suffix_cons t ts)
    · rw [Bool.not_eq_true] at h
      rw [readStatement_other h ts]
      exact List.suffix_refl _

theorem suffix_of_statement {s : Statement} {rest : List Located}
    (hread : outcome (readStatement ts) = .ok (s, rest)) : rest <:+ ts := by
  have h := suffix_statement ts
  rwa [hread] at h

theorem suffix_of_failure {u : Unexpected} (hread : outcome (readStatement ts) = .error u) :
    u.found <:+ ts := by
  have h := suffix_statement ts
  rwa [hread] at h

/-- After a failure something is taken: either the statement has begun, or recovery does not stop
at once. -/
theorem length_recover_lt (hne : ts ≠ []) (hread : outcome (readStatement ts) = .error u) :
    (recover 0 u.found).length < ts.length := by
  rcases ts with _ | ⟨t, ts⟩
  · exact absurd rfl hne
  · by_cases hstarts : t.token.startsStatement = true
    · have hfound := suffix_readStatement hstarts ts
      rw [hread] at hfound
      have htaken := ((recover_suffix 0 u.found).trans hfound).length_le
      exact Nat.lt_succ_of_le htaken
    · rcases recover_lt_or_ends (t :: ts) with hlt | hends
      · rw [Bool.not_eq_true] at hstarts
        rw [readStatement_other hstarts] at hread
        cases hread
        exact hlt
      · exact absurd (hends t rfl) hstarts

theorem resume_eq_recover (hne : ts ≠ []) (hread : outcome (readStatement ts) = .error u) :
    resume ts u.found = recover 0 u.found := by
  unfold resume
  dsimp only
  rw [if_pos (length_recover_lt hne hread)]

/-! ## Failures -/

/-- The failures in some tokens up to their end, of which every budget allows the first ones. -/
def Failures (ts : List Located) (failures : List Unexpected) : Prop :=
  ∀ budget, (readStatements budget ts).2 = failures.take (budget + 1)

variable {failures : List Unexpected}

theorem failures_nil : Failures [] [] := by
  intro budget
  rw [readStatements]
  rfl

theorem Failures.of_ok {s : Statement} (hread : outcome (readStatement ts) = .ok (s, rest))
    (h : Failures rest failures) : Failures ts failures := by
  intro budget
  rw [readStatements_statement hread]
  exact h budget

theorem Failures.of_error (hts : ts ≠ []) (hread : outcome (readStatement ts) = .error u)
    (hrecover : recover 0 u.found = rest) (h : Failures rest failures) :
    Failures ts (u :: failures) := by
  have hread' := outcome_eq_error.mp hread
  have hresume : resume ts u.found = rest := (resume_eq_recover hts hread).trans hrecover
  rcases ts with _ | ⟨t, ts⟩
  · exact absurd rfl hts
  · intro budget
    rw [readStatements, hread']
    cases budget with
    | zero => rfl
    | succ budget =>
        dsimp only
        rw [hresume, h budget]
        rfl

end

/-! ## Where a statement breaks -/

namespace Reading
variable {α β : Type} {ts : List Located}

/-- Reading passes over no word that begins a statement. -/
def PassesNone (read : Reader α) (ts : List Located) : Prop :=
  ∃ us, ts = us ++ leftover (read ts) ∧ ∀ t ∈ us, t.token.startsStatement = false

theorem passesNone_done (a : α) (ts : List Located) : PassesNone (done a) ts :=
  ⟨[], rfl, List.forall_mem_nil _⟩

theorem passesNone_of_fail {read : Reader α} {x : Expectation} (h : read ts = fail x ts) :
    PassesNone read ts :=
  ⟨[], by rw [h]; rfl, List.forall_mem_nil _⟩

theorem PassesNone.cons {read read' : Reader α} {t : Located} (h : PassesNone read ts)
    (ht : t.token.startsStatement = false) (heq : read' (t :: ts) = read ts) :
    PassesNone read' (t :: ts) := by
  obtain ⟨us, hus, hnone⟩ := h
  refine ⟨t :: us, ?_, List.forall_mem_cons.mpr ⟨ht, hnone⟩⟩
  rw [heq, List.cons_append, ← hus]

theorem PassesNone.andThen {read : Reader α} {next : α → Reader β} (h : PassesNone read ts)
    (hnext : ∀ a left, read ts = .ok (a, left) → PassesNone (next a) left) :
    PassesNone (andThen read next) ts := by
  obtain ⟨us, hus, hnone⟩ := h
  cases hread : read ts with
  | error u =>
      rw [hread] at hus
      exact ⟨us, by rwa [andThen_error hread], hnone⟩
  | ok x =>
      obtain ⟨a, left⟩ := x
      rw [hread] at hus
      obtain ⟨vs, hvs, hnone'⟩ := hnext a left hread
      refine ⟨us ++ vs, ?_, ?_⟩
      · rw [andThen_ok hread, List.append_assoc, ← hvs]
        exact hus
      · intro t ht
        rcases List.mem_append.mp ht with ht | ht
        · exact hnone t ht
        · exact hnone' t ht

theorem passesNone_word {token : Token} (x : Expectation) (htoken : token.startsStatement = false)
    (ts : List Located) : PassesNone (word token x) ts := by
  rcases ts with _ | ⟨t, ts⟩
  · exact passesNone_of_fail (x := x) rfl
  · by_cases ht : t.token = token
    · subst ht
      exact (passesNone_done () ts).cons htoken (word_self t.token x t.line ts)
    · exact passesNone_of_fail (word_other ht x ts)

theorem TakesItems.passesNone {σ β γ : Type} {meaning? : Token → Option β} {x : Expectation}
    {read : σ → Reader γ} {last : σ → β → γ} {next : σ → β → σ} {wrap : β → γ → γ}
    (h : TakesItems meaning? x read last next wrap)
    (hkeyword : ∀ k, meaning? (.keyword k) = none) (s : σ) (ts : List Located) :
    PassesNone (read s) ts := by
  induction hn : ts.length using Nat.strongRecOn generalizing s ts with
  | _ n ih =>
    subst hn
    rcases ts with _ | ⟨t, ts⟩
    · exact passesNone_of_fail (h.nil s)
    · cases hmeaning : meaning? t.token with
      | none => exact passesNone_of_fail (h.other s t ts hmeaning)
      | some b =>
          have hword : t.token.startsStatement = false := by
            cases htoken : t.token with
            | keyword k =>
                rw [htoken, hkeyword] at hmeaning
                cases hmeaning
            | _ => rfl
          by_cases hcomma : ∃ n us, ts = ⟨.mark .comma, n⟩ :: us ∧ startsProperty us = false
          · obtain ⟨n, us, rfl, hstarts⟩ := hcomma
            have hlt : us.length < (t :: ⟨.mark .comma, n⟩ :: us).length :=
              Nat.lt_succ_of_lt (Nat.lt_succ_self _)
            have hmore : PassesNone (Reading.andThen (read (next s b))
                fun c => done (wrap b c)) us :=
              (ih _ hlt (next s b) us rfl).andThen fun c left _ => passesNone_done _ left
            obtain ⟨vs, hvs, hnone⟩ := hmore
            refine ⟨t :: ⟨.mark .comma, n⟩ :: vs, ?_, ?_⟩
            · rw [h.more s t n us b hmeaning hstarts, List.cons_append, List.cons_append, ← hvs]
            · exact List.forall_mem_cons.mpr ⟨hword, List.forall_mem_cons.mpr ⟨rfl, hnone⟩⟩
          · refine (passesNone_done (last s b) ts).cons hword (h.last s t ts b hmeaning ?_)
            rintro n us rfl
            rw [← Bool.not_eq_false]
            exact fun hstarts => hcomma ⟨n, us, rfl, hstarts⟩

theorem passesNone_opening (ts : List Located) : PassesNone opening ts := by
  refine (passesNone_word .actionWord rfl ts).andThen fun _ ts₁ _ => ?_
  refine (passesNone_word .colon rfl ts₁).andThen fun _ ts₂ _ => ?_
  refine (takesItems_actions.passesNone (fun _ => rfl) [] ts₂).andThen fun as ts₃ _ => ?_
  exact (passesNone_word .onWord rfl ts₃).andThen fun _ ts₄ _ => passesNone_done as ts₄

/-- The tokens begin like a rule, from its word `ACTION` to its word `RESOURCE`. -/
def OpensRule (ts : List Located) : Prop :=
  ∃ n₁ n₂ n₃ n₄ after, ∃ d : Items .action, ts = ⟨.keyword .action, n₁⟩ ::
    ⟨.mark .colon, n₂⟩ :: (d.tokens ++ ⟨.keyword .on, n₃⟩ :: ⟨.keyword .resource, n₄⟩ :: after)

/-- A rule that is not opened breaks with no word passed over that begins a statement. -/
theorem exists_error_of_not_opensRule (effect : Effect) (line : Nat) (h : ¬OpensRule ts) :
    ∃ u us, rule effect line ts = .error u ∧ ts = us ++ u.found ∧
      ∀ t ∈ us, t.token.startsStatement = false := by
  obtain ⟨us, hus, hnone⟩ := passesNone_opening ts
  rw [rule_eq]
  cases hopening : opening ts with
  | error u =>
      rw [hopening] at hus
      exact ⟨u, us, andThen_error hopening, hus, hnone⟩
  | ok x =>
      obtain ⟨actions, left⟩ := x
      rw [hopening] at hus
      rw [andThen_ok hopening]
      have hfail : word (.keyword .resource) .resourceWord left = fail .resourceWord left := by
        rcases left with _ | ⟨⟨token, n₄⟩, after⟩
        · rfl
        · refine word_other ?_ _ after
          rintro rfl
          obtain ⟨n₁, n₂, n₃, d, hts, _⟩ := opening_eq_ok.mp hopening
          exact h ⟨n₁, n₂, n₃, n₄, after, d, hts⟩
      exact ⟨⟨.resourceWord, left⟩, us, andThen_error hfail, hus, hnone⟩

/-- A rule that is opened is read on after its word `RESOURCE`. -/
theorem OpensRule.exists_closing (effect : Effect) (line : Nat) (h : OpensRule ts) :
    ∃ us n after actions, ts = us ++ ⟨.keyword .resource, n⟩ :: after ∧
      rule effect line ts = closing effect line actions after := by
  obtain ⟨n₁, n₂, n₃, n₄, after, d, hts⟩ := h
  refine ⟨⟨.keyword .action, n₁⟩ :: ⟨.mark .colon, n₂⟩ :: (d.tokens ++ [⟨.keyword .on, n₃⟩]),
    n₄, after, d.actions, ?_, ?_⟩
  · rw [hts]
    simp
  · have hopening : opening ts = .ok (d.actions, ⟨.keyword .resource, n₄⟩ :: after) :=
      opening_eq_ok.mpr ⟨n₁, n₂, n₃, d, hts, rfl⟩
    rw [rule_eq, andThen_ok hopening, andThen_ok (word_self _ _ n₄ after)]

theorem exists_brace_of_definition {line : Nat} {d : Definition} {left : List Located}
    (h : definition line ts = .ok (d, left)) : ∃ us n, ts = us ++ ⟨.mark .rightBrace, n⟩ :: left := by
  rw [definition_eq] at h
  obtain ⟨⟨name, ts₁⟩, hname, h⟩ := bind_eq_ok.mp h
  obtain ⟨⟨⟨⟩, ts₂⟩, hopen, h⟩ := bind_eq_ok.mp h
  obtain ⟨⟨ps, ts₃⟩, hproperties, h⟩ := bind_eq_ok.mp h
  obtain ⟨⟨⟨⟩, ts₄⟩, hclose, h⟩ := bind_eq_ok.mp h
  cases h
  obtain ⟨n, rfl⟩ := eq_cons_of_word hclose
  have hsuffix := (localAt_properties [] ts₂).suffix_of_ok hproperties
  have hsuffix := hsuffix.trans ((localAt_word _ (Or.inl rfl)).suffix_of_ok hopen)
  obtain ⟨us, hus⟩ := hsuffix.trans ((localAt_name _ ts).suffix_of_ok hname)
  exact ⟨us, n, hus.symm⟩

end Reading

/-! ## Failures of plain tokens -/

section
variable {rest : List Located} {failures : List Unexpected}

/-- Plain tokens that no statement begins with are one failure. -/
theorem Failures.of_plain {left : List Located} (hleft : Plain left) (hne : left ≠ [])
    (hrest : Statement.Ends rest) (h : Failures rest failures) :
    Failures (left ++ rest) (⟨.statement, left ++ rest⟩ :: failures) := by
  rcases left with _ | ⟨t, left⟩
  · exact absurd rfl hne
  · have hword := (hleft t List.mem_cons_self).2.2
    have hrecover : recover 0 (t :: left ++ rest) = rest := recover_plain_ends hleft hrest
    exact h.of_error (List.cons_ne_nil _ _) (readStatement_other hword (left ++ rest)) hrecover

/-- What follows the word `RESOURCE` is no definition, and is one failure. -/
theorem Failures.of_resource {after : List Located} (hafter : Plain after) (n : Nat)
    (hrest : Statement.Ends rest) :
    ∃ v left, left <:+ after ∧ v.found = left ++ rest ∧ (Failures rest failures →
      Failures (⟨.keyword .resource, n⟩ :: after ++ rest) (v :: failures)) := by
  have hlocal := localAt_definition n after
  have hsuffix := hlocal.suffix
  have happend := hlocal.append rest hrest
  cases hread : definition n after with
  | ok x =>
      obtain ⟨d, left⟩ := x
      obtain ⟨us, m, hbrace⟩ := exists_brace_of_definition hread
      refine absurd rfl (hafter ⟨.mark .rightBrace, m⟩ ?_).2.1
      rw [hbrace]
      exact List.mem_append_right _ List.mem_cons_self
  | error u =>
      rw [hread] at hsuffix happend
      refine ⟨⟨u.expected, u.found ++ rest⟩, u.found, hsuffix, rfl, fun h => ?_⟩
      refine h.of_error (List.cons_ne_nil _ _) ?_ ?_
      · rw [List.cons_append]
        exact (readStatement_definition .resource n _).trans (andThen_error happend)
      · exact recover_plain_ends (hafter.of_suffix hsuffix) hrest

end
end AccessPolicy
