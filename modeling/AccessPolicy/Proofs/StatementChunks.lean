import AccessPolicy.Proofs.ErrorRecovery

/-!
# Broken statements and their diagnostics

Tokens are cut into chunks, each from the first word of a statement up to the next. A chunk that
is no statement is reported, and reading goes on with the next chunk. One report it is, but for a
rule that is broken before its word `RESOURCE`: there recovery stops as if a definition began,
and what follows is reported too (`syntaxErrors_chunks`).
-/

namespace AccessPolicy

open Reading

/-! ## Chunks -/

/-- The first word of a definition, and braces around its body. -/
structure DefinitionChunk where
  kind : DefinitionKind
  line : Nat
  heading : List Located
  openLine : Nat
  body : List Located
  closeLine : Nat
  heading_plain : Plain heading
  body_plain : Plain body

/-- The first word of a rule and tokens without braces. Of the words that begin a statement only
`RESOURCE` may be among them, once and after `ON`; and they end with neither of the two. -/
structure RuleChunk where
  effect : Effect
  line : Nat
  tail : List Located
  braceless : ∀ t ∈ tail, t.token ≠ .mark .leftBrace ∧ t.token ≠ .mark .rightBrace
  words : ∀ t ∈ tail, t.token.startsStatement = true → t.token = .keyword .resource
  once : tail.countP (fun t => t.token = .keyword .resource) ≤ 1
  follows : ∀ p ∈ (⟨.keyword effect.keyword, line⟩ :: tail).zip tail,
    p.2.token = .keyword .resource → p.1.token = .keyword .on
  ends : ∀ t ∈ tail.getLast?, t.token ≠ .keyword .on ∧ t.token ≠ .keyword .resource

/-- The tokens from the first word of a statement up to the next. -/
inductive Chunk where
  | definition (c : DefinitionChunk)
  | rule (c : RuleChunk)

namespace Chunk

def tail : Chunk → List Located
  | .definition c => c.heading ++ ⟨.mark .leftBrace, c.openLine⟩ ::
      (c.body ++ [⟨.mark .rightBrace, c.closeLine⟩])
  | .rule c => c.tail

def tokens : Chunk → List Located
  | .definition c => ⟨.keyword c.kind.keyword, c.line⟩ :: tail (.definition c)
  | .rule c => ⟨.keyword c.effect.keyword, c.line⟩ :: tail (.rule c)

/-- The chunk by itself is read as a statement. -/
def WellFormed (c : Chunk) : Prop := ∃ s, outcome (readStatement c.tokens) = .ok (s, [])

/-- The chunk is that of a rule which is broken before its word `RESOURCE`. -/
def Torn : Chunk → Prop
  | .definition _ => False
  | .rule c => (∃ t ∈ c.tail, t.token = .keyword .resource) ∧ ¬OpensRule c.tail

/-- The failure is found in the chunk after its first word, or where the rest begins. -/
def Marks (c : Chunk) (rest : List Located) (u : Unexpected) : Prop :=
  ∃ left, left <:+ c.tail ∧ u.found = left ++ rest

/-- What is reported of a chunk before the rest. -/
inductive Reports (c : Chunk) (rest : List Located) : List Unexpected → Prop
  | none : c.WellFormed → Reports c rest []
  | once {u : Unexpected} :
      ¬c.WellFormed → ¬c.Torn → c.Marks rest u → Reports c rest [u]
  | twice {u v : Unexpected} :
      ¬c.WellFormed → c.Torn → c.Marks rest u → c.Marks rest v → Reports c rest [u, v]

theorem ends_tokens (c : Chunk) (rest : List Located) : Statement.Ends (c.tokens ++ rest) := by
  intro t ht
  cases c with
  | definition c =>
      cases ht
      exact c.kind.startsStatement
  | rule c =>
      cases ht
      exact c.effect.startsStatement

/-- For tokens of a text, a chunk is well-formed just if it has a derivation. -/
theorem wellFormed_iff_derivation {c : Chunk} (hcan : ReservesCan c.tokens) :
    c.WellFormed ↔ ∃ d : Statement.Derivation, d.tokens = c.tokens := by
  constructor
  · rintro ⟨s, hread⟩
    obtain ⟨hlt, hread⟩ := outcome_eq_ok.mp hread
    obtain ⟨d, hd, _⟩ := derivation_of_readStatement hcan hread
    exact ⟨d, by rw [hd, List.append_nil]⟩
  · rintro ⟨d, hd⟩
    rw [← hd] at hcan
    have hread := readStatement_of_derivation d hcan Statement.ends_nil
    rw [List.append_nil, hd] at hread
    exact ⟨d.statement, hread⟩

end Chunk

/-! ## The reports of a chunk -/

section
variable {rest : List Located} {failures : List Unexpected}

/-- The only closing brace of a definition is its last token. -/
theorem DefinitionChunk.eq_nil_of_brace (c : DefinitionChunk) {us left : List Located} {n : Nat}
    (h : (Chunk.definition c).tail = us ++ ⟨.mark .rightBrace, n⟩ :: left) : left = [] := by
  rcases List.eq_nil_or_concat left with hnil | ⟨left, t, rfl⟩
  · exact hnil
  · have hsplit : c.heading ++ ⟨.mark .leftBrace, c.openLine⟩ :: c.body ++
          [⟨.mark .rightBrace, c.closeLine⟩] =
        us ++ ⟨.mark .rightBrace, n⟩ :: left ++ [t] := by
      simpa [Chunk.tail] using h
    obtain ⟨hinit, _⟩ := List.append_inj' hsplit rfl
    have hmem : (⟨.mark .rightBrace, n⟩ : Located) ∈
        c.heading ++ ⟨.mark .leftBrace, c.openLine⟩ :: c.body := by
      rw [hinit]
      exact List.mem_append_right _ List.mem_cons_self
    rcases List.mem_append.mp hmem with hheading | hrest
    · exact absurd rfl (c.heading_plain _ hheading).2.1
    · rcases List.mem_cons.mp hrest with hopen | hbody
      · cases hopen
      · exact absurd rfl (c.body_plain _ hbody).2.1

theorem DefinitionChunk.exists_reports (c : DefinitionChunk) (hrest : Statement.Ends rest) :
    ∃ us, (Chunk.definition c).Reports rest us ∧
      (Failures rest failures → Failures ((Chunk.definition c).tokens ++ rest) (us ++ failures)) := by
  have hlocal := localAt_definition c.line (Chunk.definition c).tail
  have hread := fun ts => readStatement_definition c.kind c.line ts
  cases hdefinition : definition c.line (Chunk.definition c).tail with
  | ok x =>
      obtain ⟨d, left⟩ := x
      obtain ⟨us, n, hbrace⟩ := exists_brace_of_definition hdefinition
      obtain rfl := c.eq_nil_of_brace hbrace
      refine ⟨[], .none ⟨.definition c.kind d, ?_⟩, fun h => ?_⟩
      · rw [Chunk.tokens, hread, andThen_ok hdefinition]
        rfl
      · refine h.of_ok (s := .definition c.kind d) ?_
        have happend := hlocal.append rest hrest
        rw [hdefinition] at happend
        rw [Chunk.tokens, List.cons_append, hread, andThen_ok happend]
        rfl
  | error u =>
      have hsuffix := hlocal.suffix
      rw [hdefinition] at hsuffix
      refine ⟨[⟨u.expected, u.found ++ rest⟩], .once ?_ id ⟨u.found, hsuffix, rfl⟩, fun h => ?_⟩
      · rintro ⟨s, hs⟩
        rw [Chunk.tokens, hread, andThen_error hdefinition] at hs
        cases hs
      · have happend := hlocal.append rest hrest
        rw [hdefinition] at happend
        refine h.of_error (List.cons_ne_nil _ _) (u := ⟨u.expected, u.found ++ rest⟩) ?_ ?_
        · rw [Chunk.tokens, List.cons_append, hread, andThen_error happend]
        · exact recover_definition c.heading_plain c.body_plain hrest hsuffix

theorem RuleChunk.plain (c : RuleChunk) {us : List Located} (hus : ∀ t ∈ us, t ∈ c.tail)
    (hnone : ∀ t ∈ us, t.token ≠ .keyword .resource) : Plain us := by
  intro t ht
  obtain ⟨hopen, hclose⟩ := c.braceless t (hus t ht)
  refine ⟨hopen, hclose, ?_⟩
  rw [← Bool.not_eq_true]
  exact fun hstarts => hnone t ht (c.words t (hus t ht) hstarts)

theorem RuleChunk.plain_around (c : RuleChunk) {us after : List Located} {n : Nat}
    (h : c.tail = us ++ ⟨.keyword .resource, n⟩ :: after) : Plain us ∧ Plain after := by
  have honce := c.once
  have hword : (⟨.keyword .resource, n⟩ :: after).countP (fun t => t.token = .keyword .resource) =
      after.countP (fun t => t.token = .keyword .resource) + 1 :=
    List.countP_cons_of_pos (decide_eq_true rfl)
  rw [h, List.countP_append, hword] at honce
  have hnone : ∀ {vs : List Located}, vs.countP (fun t => t.token = .keyword .resource) = 0 →
      ∀ t ∈ vs, t.token ≠ .keyword .resource := by
    intro vs hzero t ht hresource
    exact List.countP_eq_zero.mp hzero t ht (decide_eq_true hresource)
  constructor
  · refine c.plain (fun t ht => ?_) (hnone (by omega))
    rw [h]
    exact List.mem_append_left _ ht
  · refine c.plain (fun t ht => ?_) (hnone (by omega))
    rw [h]
    exact List.mem_append_right _ (List.mem_cons_of_mem _ ht)

theorem RuleChunk.localAt (c : RuleChunk) : LocalAt (rule c.effect c.line) c.tail :=
  localAt_rule c.effect c.line fun t ht => (c.ends t ht).1

theorem RuleChunk.of_ok (c : RuleChunk) {r : Rule} {left : List Located}
    (h : rule c.effect c.line c.tail = .ok (r, left)) (hrest : Statement.Ends rest) :
    outcome (readStatement (Chunk.rule c).tokens) = .ok (.rule r, left) ∧
      outcome (readStatement ((Chunk.rule c).tokens ++ rest)) = .ok (.rule r, left ++ rest) := by
  have happend := c.localAt.append rest hrest
  rw [h] at happend
  constructor
  · exact (readStatement_rule c.effect c.line c.tail).trans (andThen_ok h)
  · exact (readStatement_rule c.effect c.line (c.tail ++ rest)).trans (andThen_ok happend)

theorem RuleChunk.of_error (c : RuleChunk) {u : Unexpected}
    (h : rule c.effect c.line c.tail = .error u) (hrest : Statement.Ends rest) :
    ¬(Chunk.rule c).WellFormed ∧ (Chunk.rule c).Marks rest ⟨u.expected, u.found ++ rest⟩ ∧
      outcome (readStatement ((Chunk.rule c).tokens ++ rest)) =
        .error ⟨u.expected, u.found ++ rest⟩ := by
  have hsuffix := c.localAt.suffix
  have happend := c.localAt.append rest hrest
  rw [h] at hsuffix happend
  refine ⟨?_, ⟨u.found, hsuffix, rfl⟩, ?_⟩
  · rintro ⟨s, hs⟩
    cases hs.symm.trans ((readStatement_rule c.effect c.line c.tail).trans (andThen_error h))
  · exact (readStatement_rule c.effect c.line (c.tail ++ rest)).trans (andThen_error happend)

theorem RuleChunk.exists_reports_of_opensRule (c : RuleChunk) (hrest : Statement.Ends rest)
    (hopens : OpensRule c.tail) :
    ∃ us, (Chunk.rule c).Reports rest us ∧
      (Failures rest failures → Failures ((Chunk.rule c).tokens ++ rest) (us ++ failures)) := by
  have htorn : ¬(Chunk.rule c).Torn := fun h => h.2 hopens
  obtain ⟨us, n, after, actions, htail, hclosing⟩ := hopens.exists_closing c.effect c.line
  obtain ⟨_, hafter⟩ := c.plain_around htail
  have hafterTail : after <:+ c.tail :=
    ⟨us ++ [⟨.keyword .resource, n⟩], by rw [htail, List.append_assoc]; rfl⟩
  have hsuffix := (localAt_closing c.effect c.line actions after).suffix
  rw [← hclosing] at hsuffix
  cases hrule : rule c.effect c.line c.tail with
  | ok x =>
      obtain ⟨r, left⟩ := x
      rw [hrule] at hsuffix
      obtain ⟨halone, hread⟩ := c.of_ok hrule hrest
      by_cases hleft : left = []
      · subst hleft
        exact ⟨[], .none ⟨_, halone⟩, fun h => h.of_ok hread⟩
      · -- the rule is read, and what is left of the chunk is no statement
        refine ⟨[⟨.statement, left ++ rest⟩], .once ?_ htorn ⟨left, ?_, rfl⟩, fun h => ?_⟩
        · rintro ⟨s, hs⟩
          cases halone.symm.trans hs
          exact hleft rfl
        · exact hsuffix.trans hafterTail
        · exact (h.of_plain (hafter.of_suffix hsuffix) hleft hrest).of_ok hread
  | error u =>
      rw [hrule] at hsuffix
      obtain ⟨hbroken, hmarks, hread⟩ := c.of_error hrule hrest
      refine ⟨[_], .once hbroken htorn hmarks, fun h => ?_⟩
      have hrecover := recover_plain_ends (hafter.of_suffix hsuffix) hrest
      exact h.of_error (List.cons_ne_nil _ _) hread hrecover

/-- A rule that is not opened is reported once, or twice if recovery comes to its word
`RESOURCE`. -/
theorem RuleChunk.exists_reports_of_not_opensRule (c : RuleChunk) (hrest : Statement.Ends rest)
    (hopens : ¬OpensRule c.tail) :
    ∃ us, (Chunk.rule c).Reports rest us ∧
      (Failures rest failures → Failures ((Chunk.rule c).tokens ++ rest) (us ++ failures)) := by
  obtain ⟨u, us, hrule, htail, hnone⟩ := exists_error_of_not_opensRule c.effect c.line hopens
  obtain ⟨hbroken, hmarks, hread⟩ := c.of_error hrule hrest
  have hne : (Chunk.rule c).tokens ++ rest ≠ [] := List.cons_ne_nil _ _
  by_cases hresource : ∃ t ∈ c.tail, t.token = .keyword .resource
  · obtain ⟨⟨token, n⟩, ht, rfl⟩ := hresource
    have hfound : (⟨.keyword .resource, n⟩ : Located) ∈ u.found := by
      rw [htail] at ht
      refine (List.mem_append.mp ht).resolve_left fun hus => ?_
      cases hnone _ hus
    obtain ⟨before, after, hsplit⟩ := List.append_of_mem hfound
    have hwhole : c.tail = us ++ before ++ ⟨.keyword .resource, n⟩ :: after := by
      rw [htail, hsplit, List.append_assoc]
    obtain ⟨hbefore, hafter⟩ := c.plain_around hwhole
    have hrecover : recover 0 (u.found ++ rest) = ⟨.keyword .resource, n⟩ :: after ++ rest := by
      rw [hsplit, List.append_assoc]
      refine recover_plain_ends (hbefore.of_suffix (List.suffix_append _ _)) ?_
      intro t ht
      cases ht
      rfl
    obtain ⟨v, left, hleft, hv, hmore⟩ := Failures.of_resource hafter n hrest
    have hafterTail : after <:+ c.tail :=
      ⟨us ++ before ++ [⟨.keyword .resource, n⟩], by rw [hwhole, List.append_assoc]; rfl⟩
    refine ⟨[⟨u.expected, u.found ++ rest⟩, v], ?_, fun h => ?_⟩
    · exact .twice hbroken ⟨⟨_, ht, rfl⟩, hopens⟩ hmarks ⟨left, hleft.trans hafterTail, hv⟩
    · exact (hmore h).of_error hne hread hrecover
  · -- recovery comes to the end of the chunk
    have hplain : Plain u.found := by
      refine c.plain (fun t ht => ?_) (fun t ht heq => hresource ⟨t, ?_, heq⟩) <;>
      · rw [htail]
        exact List.mem_append_right _ ht
    refine ⟨[_], .once hbroken (fun htorn => hresource htorn.1) hmarks, fun h => ?_⟩
    exact h.of_error hne hread (recover_plain_ends hplain hrest)

theorem RuleChunk.exists_reports (c : RuleChunk) (hrest : Statement.Ends rest) :
    ∃ us, (Chunk.rule c).Reports rest us ∧
      (Failures rest failures → Failures ((Chunk.rule c).tokens ++ rest) (us ++ failures)) := by
  by_cases hopens : OpensRule c.tail
  · exact c.exists_reports_of_opensRule hrest hopens
  · exact c.exists_reports_of_not_opensRule hrest hopens

theorem Chunk.exists_reports (c : Chunk) (hrest : Statement.Ends rest) :
    ∃ us, c.Reports rest us ∧
      (Failures rest failures → Failures (c.tokens ++ rest) (us ++ failures)) := by
  cases c with
  | definition c => exact c.exists_reports hrest
  | rule c => exact c.exists_reports hrest

theorem Chunk.Torn.not_wellFormed {c : Chunk} (h : c.Torn) : ¬c.WellFormed := by
  cases c with
  | definition c => exact absurd h id
  | rule c =>
      obtain ⟨u, _, hrule, _⟩ := exists_error_of_not_opensRule c.effect c.line h.2
      exact (c.of_error hrule Statement.ends_nil).1

end

/-! ## The reports of all chunks -/

/-- The failures of chunks, in their order. -/
inductive Reported : List Chunk → List Unexpected → Prop
  | nil : Reported [] []
  | cons {c : Chunk} {cs : List Chunk} {us vs : List Unexpected} :
      c.Reports (cs.flatMap Chunk.tokens) us → Reported cs vs → Reported (c :: cs) (us ++ vs)

/-- One failure in each chunk that is broken, and none in the others. -/
inductive ReportedOnce : List Chunk → List Unexpected → Prop
  | nil : ReportedOnce [] []
  | fine {c : Chunk} {cs : List Chunk} {us : List Unexpected} :
      c.WellFormed → ReportedOnce cs us → ReportedOnce (c :: cs) us
  | broken {c : Chunk} {cs : List Chunk} {u : Unexpected} {us : List Unexpected} :
      ¬c.WellFormed → c.Marks (cs.flatMap Chunk.tokens) u → ReportedOnce cs us →
      ReportedOnce (c :: cs) (u :: us)

section
variable {chunks : List Chunk} {us vs : List Unexpected}

theorem Chunk.ends_flatMap (chunks : List Chunk) :
    Statement.Ends (chunks.flatMap Chunk.tokens) := by
  cases chunks with
  | nil => exact Statement.ends_nil
  | cons c cs => exact c.ends_tokens _

theorem exists_reported (chunks : List Chunk) :
    ∃ us, Reported chunks us ∧ Failures (chunks.flatMap Chunk.tokens) us := by
  induction chunks with
  | nil => exact ⟨[], .nil, failures_nil⟩
  | cons c cs ih =>
      obtain ⟨vs, hvs, hfailures⟩ := ih
      obtain ⟨us, hus, hmore⟩ := c.exists_reports (Chunk.ends_flatMap cs)
      exact ⟨us ++ vs, .cons hus hvs, hmore hfailures⟩

theorem Reported.once (h : Reported chunks us) (htorn : ∀ c ∈ chunks, ¬c.Torn) :
    ReportedOnce chunks us := by
  induction h with
  | nil => exact .nil
  | cons hus _ ih =>
      have hmore := ih fun c hc => htorn c (List.mem_cons_of_mem _ hc)
      cases hus with
      | none hfine => exact .fine hfine hmore
      | once hbroken _ hmarks => exact .broken hbroken hmarks hmore
      | twice _ hwhole => exact absurd hwhole (htorn _ List.mem_cons_self)

theorem ReportedOnce.length_le (h : ReportedOnce chunks us) : us.length ≤ chunks.length := by
  induction h with
  | nil => exact Nat.le_refl _
  | fine _ _ ih => exact Nat.le_succ_of_le ih
  | broken _ _ _ ih => exact Nat.succ_le_succ ih

/-- There are no fewer failures than broken chunks, and as many only if no rule is torn. -/
theorem Reported.length_le (h : Reported chunks us) (hvs : ReportedOnce chunks vs) :
    vs.length ≤ us.length ∧ (us.length = vs.length → ∀ c ∈ chunks, ¬c.Torn) := by
  induction h generalizing vs with
  | nil =>
      cases hvs
      exact ⟨Nat.le_refl _, fun _ => List.forall_mem_nil _⟩
  | cons hus _ ih =>
      cases hvs with
      | fine hfine hvs =>
          obtain ⟨hle, hmore⟩ := ih hvs
          cases hus with
          | none _ =>
              refine ⟨hle, fun heq => List.forall_mem_cons.mpr ⟨?_, hmore heq⟩⟩
              exact fun htorn => htorn.not_wellFormed hfine
          | once hbroken => exact absurd hfine hbroken
          | twice hbroken => exact absurd hfine hbroken
      | broken hbroken _ hvs =>
          obtain ⟨hle, hmore⟩ := ih hvs
          cases hus with
          | none hfine => exact absurd hfine hbroken
          | once _ hwhole =>
              refine ⟨Nat.succ_le_succ hle, fun heq => List.forall_mem_cons.mpr ⟨hwhole, ?_⟩⟩
              exact hmore (Nat.succ.inj heq)
          | twice =>
              simp only [List.length_append, List.length_cons, List.length_nil]
              exact ⟨by omega, fun heq => by omega⟩

end

/-! ## The diagnostics -/

/-- The diagnostics of tokens that are no program. -/
def syntaxErrors (maxErrors : Nat) (stream : TokenStream) : List Diagnostic :=
  match Program.ofTokens maxErrors stream with
  | .ok _ => []
  | .error ds => ds

theorem Failures.syntaxErrors {ts : List Located} {us : List Unexpected} (h : Failures ts us)
    (maxErrors endLine : Nat) : syntaxErrors maxErrors ⟨ts, endLine⟩ =
      (us.take (max maxErrors 1)).map (Unexpected.diagnostic endLine) := by
  have hcap : max maxErrors 1 = maxErrors - 1 + 1 := by omega
  rw [hcap, ← h (maxErrors - 1)]
  unfold AccessPolicy.syntaxErrors Program.ofTokens
  rcases readStatements (maxErrors - 1) ts with ⟨statements, _ | ⟨u, failures⟩⟩ <;> rfl

/-- With a cap of the number of chunks or above, each broken one is reported once. -/
def ReportsBrokenOnce (chunks : List Chunk) : Prop :=
  ∀ maxErrors endLine, chunks.length ≤ maxErrors → ∃ us, ReportedOnce chunks us ∧
    syntaxErrors maxErrors ⟨chunks.flatMap Chunk.tokens, endLine⟩ =
      us.map (Unexpected.diagnostic endLine)

theorem reportsBrokenOnce_iff {chunks : List Chunk} :
    ReportsBrokenOnce chunks ↔ ∀ c ∈ chunks, ¬c.Torn := by
  obtain ⟨us, hus, hfailures⟩ := exists_reported chunks
  constructor
  · intro h
    obtain ⟨vs, hvs, hdiagnostics⟩ := h (max chunks.length us.length) 0 (Nat.le_max_left _ _)
    refine (hus.length_le hvs).2 ?_
    have hlength := congrArg List.length hdiagnostics
    rw [hfailures.syntaxErrors, List.length_map, List.length_map, List.length_take] at hlength
    omega
  · intro htorn maxErrors endLine hcap
    have honce := hus.once htorn
    have hle := honce.length_le
    refine ⟨us, honce, ?_⟩
    rw [hfailures.syntaxErrors, List.take_of_length_le (by omega)]

/-- **What is reported of chunks.** Up to the cap, the diagnostics are those of the chunks in
their order: none of a statement, one of a broken chunk, two of a torn rule. So each broken chunk
is reported once just if no rule is torn. A chunk is a statement just if the grammar derives its
tokens, of which none is an identifier `can`. -/
theorem syntaxErrors_chunks (chunks : List Chunk) :
    (∃ us, Reported chunks us ∧ ∀ maxErrors endLine,
      syntaxErrors maxErrors ⟨chunks.flatMap Chunk.tokens, endLine⟩ =
        (us.take (max maxErrors 1)).map (Unexpected.diagnostic endLine)) ∧
    (ReportsBrokenOnce chunks ↔ ∀ c ∈ chunks, ¬c.Torn) ∧
    ∀ c ∈ chunks, ReservesCan c.tokens →
      (c.WellFormed ↔ ∃ d : Statement.Derivation, d.tokens = c.tokens) := by
  obtain ⟨us, hus, hfailures⟩ := exists_reported chunks
  refine ⟨⟨us, hus, hfailures.syntaxErrors⟩, reportsBrokenOnce_iff, fun c _ hcan => ?_⟩
  exact Chunk.wellFormed_iff_derivation hcan

/-- The rule `DENY action: read ON RESOURCE DB`, which lacks its second colon. -/
def unplacedRule : RuleChunk where
  effect := .deny
  line := 1
  tail := [⟨.keyword .action, 1⟩, ⟨.mark .colon, 1⟩, ⟨.action "read", 1⟩, ⟨.keyword .on, 1⟩,
    ⟨.keyword .resource, 1⟩, ⟨.ident "DB", 1⟩]
  braceless := by decide
  words := by decide
  once := by decide
  follows := by decide
  ends := by decide

/-- A rule without its second colon is broken and reported once. -/
theorem syntaxErrors_chunks_unplaced :
    (TokenStream.scan "DENY action: read ON RESOURCE DB").1 =
      ⟨(Chunk.rule unplacedRule).tokens, 1⟩ ∧
    ¬(Chunk.rule unplacedRule).WellFormed ∧ ReportsBrokenOnce [.rule unplacedRule] ∧
      (syntaxErrors 10 ⟨(Chunk.rule unplacedRule).tokens, 1⟩).length = 1 := by
  have hopens : OpensRule unplacedRule.tail :=
    ⟨1, 1, 1, 1, [⟨.ident "DB", 1⟩], .last ⟨⟨.action "read", 1⟩, "read", .word "read"⟩, rfl⟩
  refine ⟨by decide +kernel, ?_, (syntaxErrors_chunks _).2.1.mpr ?_, by decide +kernel⟩
  · rintro ⟨s, hs⟩
    have hfails : (outcome (readStatement (Chunk.rule unplacedRule).tokens)).toBool = false := by
      decide +kernel
    rw [hs] at hfails
    cases hfails
  · intro c hc htorn
    rw [List.mem_singleton] at hc
    subst hc
    exact htorn.2 hopens

/-- The rule `ALLOW action read ON RESOURCE: DB`, which lacks a colon. -/
def unopenedRule : RuleChunk where
  effect := .allow
  line := 1
  tail := [⟨.keyword .action, 1⟩, ⟨.action "read", 1⟩, ⟨.keyword .on, 1⟩,
    ⟨.keyword .resource, 1⟩, ⟨.mark .colon, 1⟩, ⟨.ident "DB", 1⟩]
  braceless := by decide
  words := by decide
  once := by decide
  follows := by decide
  ends := by decide

/-- A rule without its first colon is reported twice. -/
theorem not_reportsBrokenOnce_unopened :
    (TokenStream.scan "ALLOW action read ON RESOURCE: DB").1 =
      ⟨(Chunk.rule unopenedRule).tokens, 1⟩ ∧ ¬ReportsBrokenOnce [.rule unopenedRule] := by
  refine ⟨by decide +kernel, fun h => ?_⟩
  obtain ⟨us, hus, hdiagnostics⟩ := h 10 1 (by decide)
  have htwo : (syntaxErrors 10 ⟨(Chunk.rule unopenedRule).tokens, 1⟩).length = 2 := by
    decide +kernel
  have hone : us.length ≤ 1 := hus.length_le
  rw [List.flatMap_singleton] at hdiagnostics
  rw [hdiagnostics, List.length_map] at htwo
  omega

end AccessPolicy
