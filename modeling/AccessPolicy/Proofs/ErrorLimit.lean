import AccessPolicy.Proofs.StatementChunks

/-!
# The limit on errors

Reading a program goes in rounds: each reads a statement, or fails and goes on where recovery
stops, and each takes tokens away for good. Recovery may stop at once, but only at a word that
begins a statement, and this the next round takes. So the failures stand at growing positions and
there are no more rounds than tokens, and a limit on errors does no more than cut the list of
failures short (`Program.ofTokens_limit`).
-/

namespace AccessPolicy

open Reading

/-! ## Rounds -/

/-- The rounds of reading some tokens to their end, without a limit: the statements that are read
and the failures. After a failure reading goes on where recovery stops. -/
inductive Rounds : List Located → List Statement → List Unexpected → Prop
  | done : Rounds [] [] []
  | statement {ts rest : List Located} {s : Statement} {ss : List Statement}
      {us : List Unexpected} :
      outcome (readStatement ts) = .ok (s, rest) → rest.length < ts.length → Rounds rest ss us →
      Rounds ts (s :: ss) us
  | failure {ts : List Located} {u : Unexpected} {ss : List Statement} {us : List Unexpected} :
      outcome (readStatement ts) = .error u → (recover 0 u.found).length < ts.length →
      Rounds (recover 0 u.found) ss us → Rounds ts ss (u :: us)

section
variable {ts : List Located} {ss : List Statement} {us : List Unexpected} {u : Unexpected}

theorem length_found_lt (hstarts : Statement.Ends ts) (hne : ts ≠ [])
    (hread : outcome (readStatement ts) = .error u) : u.found.length < ts.length := by
  rcases ts with _ | ⟨t, ts⟩
  · exact absurd rfl hne
  · have hsuffix := suffix_readStatement (hstarts t rfl) ts
    rw [hread] at hsuffix
    exact Nat.lt_succ_of_le hsuffix.length_le

theorem exists_rounds (ts : List Located) : ∃ ss us, Rounds ts ss us := by
  induction hn : ts.length using Nat.strongRecOn generalizing ts with
  | _ n ih =>
    subst hn
    by_cases hne : ts = []
    · subst hne
      exact ⟨[], [], .done⟩
    · cases hread : outcome (readStatement ts) with
      | ok x =>
          obtain ⟨s, rest⟩ := x
          obtain ⟨hlt, _⟩ := outcome_eq_ok.mp hread
          obtain ⟨ss, us, hrest⟩ := ih rest.length hlt rest rfl
          exact ⟨s :: ss, us, .statement hread hlt hrest⟩
      | error u =>
          have hlt := length_recover_lt hne hread
          obtain ⟨ss, us, hrest⟩ := ih _ hlt (recover 0 u.found) rfl
          exact ⟨ss, u :: us, .failure hread hlt hrest⟩

namespace Rounds

theorem ne_nil_of_lt {n : Nat} (h : n < ts.length) : ts ≠ [] := by
  rintro rfl
  exact Nat.not_lt_zero _ h

theorem length_le (h : Rounds ts ss us) : ss.length + us.length ≤ ts.length := by
  induction h with
  | done => exact Nat.le_refl 0
  | statement _ hlt _ ih =>
      rw [List.length_cons]
      omega
  | failure _ hlt _ ih =>
      rw [List.length_cons]
      omega

theorem found (h : Rounds ts ss us) :
    ∀ u ∈ us, u.found <:+ ts ∧ (Statement.Ends ts → u.found.length < ts.length) := by
  induction h with
  | done => exact List.forall_mem_nil _
  | statement hread hlt _ ih =>
      intro u hu
      obtain ⟨hsuffix, _⟩ := ih u hu
      refine ⟨hsuffix.trans (suffix_of_statement hread), ?_⟩
      intro _
      exact Nat.lt_of_le_of_lt hsuffix.length_le hlt
  | failure hread hlt _ ih =>
      have hfound := suffix_of_failure hread
      intro u hu
      rcases List.mem_cons.mp hu with rfl | hu
      · refine ⟨hfound, ?_⟩
        intro hstarts
        exact length_found_lt hstarts (ne_nil_of_lt hlt) hread
      · obtain ⟨hsuffix, _⟩ := ih u hu
        refine ⟨(hsuffix.trans (recover_suffix 0 _)).trans hfound, ?_⟩
        intro _
        exact Nat.lt_of_le_of_lt hsuffix.length_le hlt

/-- Each failure stands after those before it: recovery has taken a token from where the last one
stood, or the next statement takes it. -/
theorem pairwise_found (h : Rounds ts ss us) :
    us.Pairwise fun u v => v.found.length < u.found.length := by
  induction h with
  | done => exact .nil
  | statement _ _ _ ih => exact ih
  | @failure _ u _ _ _ _ hrest ih =>
      refine List.pairwise_cons.mpr ⟨?_, ih⟩
      intro v hv
      obtain ⟨hsuffix, hbegun⟩ := hrest.found v hv
      rcases recover_lt_or_ends u.found with hlt | hends
      · exact Nat.lt_of_le_of_lt hsuffix.length_le hlt
      · rw [recover_ends hends] at hbegun
        exact hbegun hends

/-- With a budget the first failures are collected. -/
theorem failures (h : Rounds ts ss us) : Failures ts us := by
  induction h with
  | done => exact failures_nil
  | statement hread _ _ ih => exact ih.of_ok hread
  | failure hread hlt _ ih => exact ih.of_error (ne_nil_of_lt hlt) hread rfl

theorem readStatements_eq (h : Rounds ts ss []) (budget : Nat) :
    readStatements budget ts = (ss, []) := by
  generalize hus : ([] : List Unexpected) = us at h
  induction h with
  | done =>
      rw [readStatements]
  | statement hread _ _ ih => rw [readStatements_statement hread, ih hus]
  | failure => cases hus

end Rounds
end

/-! ## The limit -/

/-- How many of the tokens come before the one where the failure stands. -/
def Unexpected.position (ts : List Located) (u : Unexpected) : Nat := ts.length - u.found.length

namespace Rounds
variable {ts : List Located} {ss : List Statement} {us : List Unexpected}

theorem drop_position (h : Rounds ts ss us) : ∀ u ∈ us, ts.drop (u.position ts) = u.found := by
  intro u hu
  obtain ⟨before, rfl⟩ := (h.found u hu).1
  unfold Unexpected.position
  rw [List.length_append, Nat.add_sub_cancel, List.drop_left]

theorem pairwise_position (h : Rounds ts ss us) :
    (us.map (Unexpected.position ts)).Pairwise (· < ·) := by
  rw [List.pairwise_map]
  have hfound := fun u hu => (h.found u hu).1.length_le
  refine h.pairwise_found.imp_of_mem ?_
  intro u v hu hv hlt
  have hu := hfound u hu
  have hv := hfound v hv
  unfold Unexpected.position
  omega

theorem ofTokens_eq {stream : TokenStream} (h : Rounds stream.tokens ss us) (maxErrors : Nat) :
    Program.ofTokens maxErrors stream =
      if us = [] then .ok ⟨ss⟩
      else .error ((us.take (max maxErrors 1)).map (Unexpected.diagnostic stream.endLine)) := by
  unfold Program.ofTokens
  by_cases hus : us = []
  · subst hus
    rw [h.readStatements_eq]
    rfl
  · have hcap : max maxErrors 1 = maxErrors - 1 + 1 := by omega
    have hfailures := h.failures (maxErrors - 1)
    rw [← hcap] at hfailures
    have hne : us.take (max maxErrors 1) ≠ [] := by
      rw [Ne, List.take_eq_nil_iff]
      rintro (hzero | hnil)
      · omega
      · exact hus hnil
    have hread : readStatements (maxErrors - 1) stream.tokens =
        ((readStatements (maxErrors - 1) stream.tokens).1, us.take (max maxErrors 1)) :=
      Prod.ext rfl hfailures
    obtain ⟨u, more, hcons⟩ := List.exists_cons_of_ne_nil hne
    rw [if_neg hus, hread, hcons]

end Rounds

/-- **A limit on errors cuts their list short.** Any tokens are read in rounds, no more than there
are tokens, with failures at growing positions; and whatever the limit, the program is what all
rounds read if none fails, and else the first failures are reported. So there is one error at
least and no more than the limit allows, and a higher limit leaves a program as it is and adds
errors only behind those that a lower one lets through. -/
theorem Program.ofTokens_limit (stream : TokenStream) :
    (∃ ss us, Rounds stream.tokens ss us ∧ ss.length + us.length ≤ stream.tokens.length ∧
      (us.map (Unexpected.position stream.tokens)).Pairwise (· < ·) ∧
      (∀ u ∈ us, stream.tokens.drop (u.position stream.tokens) = u.found) ∧
      ∀ limit, ofTokens limit stream = if us = [] then .ok ⟨ss⟩
        else .error ((us.take (max limit 1)).map (Unexpected.diagnostic stream.endLine))) ∧
    (∀ limit errors, ofTokens limit stream = .error errors →
      1 ≤ errors.length ∧ errors.length ≤ max limit 1) ∧
    ∀ low high, low ≤ high →
      (∀ p, ofTokens low stream = .ok p ↔ ofTokens high stream = .ok p) ∧
      ∀ errors more, ofTokens low stream = .error errors → ofTokens high stream = .error more →
        errors = more.take (max low 1) := by
  obtain ⟨ss, us, h⟩ := exists_rounds stream.tokens
  have hlimit := h.ofTokens_eq
  refine ⟨⟨ss, us, h, h.length_le, h.pairwise_position, h.drop_position, hlimit⟩, ?_, ?_⟩
  · intro limit errors herrors
    rw [hlimit] at herrors
    by_cases hus : us = []
    · rw [if_pos hus] at herrors
      cases herrors
    · rw [if_neg hus] at herrors
      cases herrors
      have hpos := List.length_pos_iff.mpr hus
      rw [List.length_map, List.length_take]
      omega
  · intro low high hle
    by_cases hus : us = []
    · refine ⟨?_, ?_⟩
      · intro p
        rw [hlimit, hlimit, if_pos hus, if_pos hus]
      · intro errors more herrors
        rw [hlimit, if_pos hus] at herrors
        cases herrors
    · refine ⟨?_, ?_⟩
      · intro p
        rw [hlimit, hlimit, if_neg hus, if_neg hus]
        constructor <;> nofun
      · intro errors more herrors hmore
        rw [hlimit, if_neg hus] at herrors hmore
        cases herrors
        cases hmore
        rw [← List.map_take, List.take_take, Nat.min_eq_left (by omega)]

/-- A text with three roles that lack a colon. -/
def colonlessSource : String :=
  "ROLE A \x7bcan read\x7d ROLE B \x7bcan read\x7d ROLE C \x7bcan read\x7d"

/-- With a limit of two, the first two of its three errors are reported. -/
theorem Program.ofTokens_limit_colonless :
    ∃ errors more, ofTokens 2 (TokenStream.scan colonlessSource).1 = .error errors ∧
      ofTokens 10 (TokenStream.scan colonlessSource).1 = .error more ∧
      (1 ≤ errors.length ∧ errors.length ≤ 2) ∧ more.length = 3 ∧ errors = more.take 2 := by
  obtain ⟨_, hlength, hlimits⟩ := ofTokens_limit (TokenStream.scan colonlessSource).1
  have hlow : (ofTokens 2 (TokenStream.scan colonlessSource).1).toOption = none := by
    decide +kernel
  have hhigh : (syntaxErrors 10 (TokenStream.scan colonlessSource).1).length = 3 := by
    decide +kernel
  cases herrors : ofTokens 2 (TokenStream.scan colonlessSource).1 with
  | ok p =>
      rw [herrors] at hlow
      cases hlow
  | error errors =>
      unfold syntaxErrors at hhigh
      cases hmore : ofTokens 10 (TokenStream.scan colonlessSource).1 with
      | ok p =>
          rw [hmore] at hhigh
          cases hhigh
      | error more =>
          rw [hmore] at hhigh
          exact ⟨errors, more, rfl, rfl, hlength 2 errors herrors, hhigh,
            (hlimits 2 10 (by decide)).2 errors more herrors hmore⟩

end AccessPolicy
