import AccessPolicy.Proofs.Pieces

/-!
# The tokens of a text

What the lexer promises of every token, and what it makes of a text without a
line break: the tokens are those of the pieces, all on one line.
-/

namespace AccessPolicy

open Lexeme

/-! ## What every token satisfies -/

/-- The shape of a token's class. -/
def Token.WellFormed : Token → Prop
  | .ident name => IsWord name.toList ∧ Token.ofWord name = .ident name
  | .action spelling => asciiLower spelling ∈ actionWords
  | .int n => n ≤ greatestInt
  | .decimal spelling => IsDecimal spelling.toList
  | _ => True

theorem Token.wellFormed_ofWord {word : String} (h : IsWord word.toList) :
    (ofWord word).WellFormed := by
  rcases ofWord_cases word with ⟨k, hk⟩ | ⟨b, hb⟩ | ⟨ha, hmem⟩ | hi
  · rw [hk]; trivial
  · rw [hb]; trivial
  · rw [ha]; exact hmem
  · rw [hi]; exact ⟨h, hi⟩

namespace Lexeme

theorem wellFormed_wholeNumber {w : List Char} (h : IsWhole w) : (wholeNumber w).WellFormed := by
  unfold wholeNumber
  dsimp only
  split
  · next hle => exact hle
  · next hlt =>
      refine Or.inr ?_
      rw [String.toList_ofList]
      exact ⟨h, Nat.lt_of_not_le hlt⟩

theorem wellFormed_number {c : Char} (hc : Text.isDigit c = true) (cs : List Char) :
    (number c cs).1.WellFormed := by
  have hmore : ∀ {xs : List Char}, ∀ d ∈ xs.takeWhile Text.isDigit, Text.isDigit d = true := by
    intro xs d hd
    exact List.mem_takeWhile_imp hd
  have hrow : IsWhole (c :: cs.takeWhile Text.isDigit) :=
    ⟨List.cons_ne_nil _ _, List.forall_mem_cons.mpr ⟨hc, hmore⟩⟩
  unfold number
  dsimp only
  split
  · next d rest _ =>
      split
      · next hd =>
          refine Or.inl ?_
          rw [String.toList_ofList]
          exact ⟨_, d :: rest.takeWhile Text.isDigit, rfl, hrow, List.cons_ne_nil _ _,
            List.forall_mem_cons.mpr ⟨hd, hmore⟩⟩
      · exact wellFormed_wholeNumber hrow
  · exact wellFormed_wholeNumber hrow

theorem comment?_ne_token {c : Char} {cs : List Char} {front : Front}
    (h : comment? c cs = some front) (t : Token) : front.meaning ≠ .token t := by
  unfold comment? at h
  split at h
  · cases h
    simp
  · split at h
    all_goals cases h
    all_goals simp
  · cases h

theorem wellFormed_of_first {c : Char} {cs : List Char} {t : Token}
    (h : (first c cs).meaning = .token t) : t.WellFormed := by
  unfold first at h
  split at h
  · next front hfront => exact absurd h (comment?_ne_token hfront t)
  · split_ifs at h with hblank hquote hdigit hword
    · split at h
      · cases h
        trivial
      · cases h
    · cases h
      exact wellFormed_number hdigit cs
    · split at h
      · cases h
        trivial
      · cases h
        apply Token.wellFormed_ofWord
        rw [String.toList_ofList]
        exact ⟨hword, fun d hd => List.mem_takeWhile_imp hd⟩
    · split at h
      · cases h
        trivial
      · cases h

theorem wellFormed_of_mem_lexemes {cs : List Char} {l : Lexeme} {t : Token}
    (hl : l ∈ lexemes cs) (ht : l.meaning = .token t) : t.WellFormed := by
  obtain ⟨c, rest, rfl⟩ := exists_first_of_mem_lexemes hl
  exact wellFormed_of_first ht

theorem mem_tokens {t : Located} {line : Nat} {ls : List Lexeme} (h : t ∈ tokens line ls) :
    ∃ l ∈ ls, l.meaning = .token t.token := by
  induction ls generalizing line with
  | nil => simp [tokens] at h
  | cons l ls ih =>
      unfold tokens at h
      split at h
      · next u hu =>
          rcases List.mem_cons.mp h with rfl | h
          · exact ⟨l, List.mem_cons_self, hu⟩
          · obtain ⟨l', hl', ht⟩ := ih h
            exact ⟨l', List.mem_cons_of_mem _ hl', ht⟩
      · obtain ⟨l', hl', ht⟩ := ih h
        exact ⟨l', List.mem_cons_of_mem _ hl', ht⟩

theorem le_lineBehind (line : Nat) (ls : List Lexeme) : line ≤ lineBehind line ls := by
  induction ls generalizing line with
  | nil => exact Nat.le_refl _
  | cons l ls ih => exact Nat.le_of_add_right_le (ih _)

theorem line_le_of_mem_tokens {t : Located} {line : Nat} {ls : List Lexeme}
    (h : t ∈ tokens line ls) : t.line ≤ lineBehind line ls := by
  induction ls generalizing line with
  | nil => simp [tokens] at h
  | cons l ls ih =>
      unfold tokens at h
      split at h
      · rcases List.mem_cons.mp h with rfl | h
        · exact le_lineBehind line (l :: ls)
        · exact ih h
      · exact ih h

theorem le_line_of_mem_tokens {t : Located} {line : Nat} {ls : List Lexeme}
    (h : t ∈ tokens line ls) : line ≤ t.line := by
  induction ls generalizing line with
  | nil => simp [tokens] at h
  | cons l ls ih =>
      unfold tokens at h
      split at h
      · rcases List.mem_cons.mp h with rfl | h
        · exact Nat.le_refl _
        · exact Nat.le_of_add_right_le (ih h)
      · exact Nat.le_of_add_right_le (ih h)

theorem pairwise_line_tokens (line : Nat) (ls : List Lexeme) :
    (tokens line ls).Pairwise fun t u => t.line ≤ u.line := by
  induction ls generalizing line with
  | nil => exact List.Pairwise.nil
  | cons l ls ih =>
      unfold tokens
      split
      · refine List.pairwise_cons.mpr ⟨fun u hu => ?_, ih _⟩
        exact Nat.le_of_add_right_le (le_line_of_mem_tokens hu)
      · exact ih _

end Lexeme

/-! ## Texts on one line -/

namespace Lexeme

/-- What some pieces stand for, gaps left out. -/
def senses (ls : List Lexeme) : List Meaning := (ls.map meaning).filter (· ≠ .gap)

theorem senses_gap (w : List Char) (breaks : Nat) (ls : List Lexeme) :
    senses (⟨.gap, w, breaks⟩ :: ls) = senses ls := by
  simp [senses]

theorem senses_token (t : Token) (w : List Char) (breaks : Nat) (ls : List Lexeme) :
    senses (⟨.token t, w, breaks⟩ :: ls) = .token t :: senses ls := by
  simp [senses]

/-- Pieces without line breaks that stand for tokens only give these tokens, on
the line that they start on, and no fault. -/
theorem tokens_of_senses {ls : List Lexeme} (hb : ∀ l ∈ ls, l.breaks = 0) {ts : List Token}
    (h : senses ls = ts.map .token) (line : Nat) :
    tokens line ls = ts.map (⟨·, line⟩) ∧ faults line ls = [] := by
  induction ls generalizing ts with
  | nil =>
      have hts : ts = [] := List.map_eq_nil_iff.mp h.symm
      subst hts
      exact ⟨rfl, rfl⟩
  | cons l ls ih =>
      obtain ⟨m, w, breaks⟩ := l
      have hrest : ∀ l ∈ ls, l.breaks = 0 := fun l hl => hb l (List.mem_cons_of_mem _ hl)
      have hw : breaks = 0 := hb _ List.mem_cons_self
      cases m with
      | gap =>
          rw [senses_gap] at h
          simpa [tokens, faults, hw] using ih hrest h
      | token t =>
          rw [senses_token] at h
          cases ts with
          | nil => simp at h
          | cons u ts =>
              rw [List.map_cons, List.cons.injEq] at h
              obtain ⟨hu, h⟩ := h
              cases hu
              simpa [tokens, faults, hw] using ih hrest h
      | fault f =>
          -- a fault is kept, and is not among the tokens
          have hmem : Meaning.fault f ∈ ts.map Meaning.token := by
            rw [← h]
            simp [senses]
          simp at hmem

theorem breaks_eq_zero {cs : List Char} (h : '\n' ∉ cs) : ∀ l ∈ lexemes cs, l.breaks = 0 := by
  intro l hl
  rw [breaks_eq_count hl]
  refine List.count_eq_zero.mpr fun hmem => h ?_
  rw [← flatMap_text_lexemes cs]
  exact List.mem_flatMap.mpr ⟨l, hl, hmem⟩

end Lexeme

theorem TokenStream.scan_of_senses {source : String} (hbreak : '\n' ∉ source.toList)
    {ts : List Token} (h : senses (lexemes source.toList) = ts.map .token) :
    scan source = (⟨ts.map (⟨·, 1⟩), 1⟩, []) := by
  obtain ⟨htokens, hfaults⟩ := tokens_of_senses (breaks_eq_zero hbreak) h 1
  unfold scan
  dsimp only
  rw [htokens, hfaults, lineBehind_lexemes, List.count_eq_zero.mpr hbreak]

/-! ## The lexer's promise -/

namespace TokenStream

/-- **The lexer's promise.** Every token of every text is well formed. -/
theorem wellFormed_of_mem_scan {source : String} {t : Located}
    (h : t ∈ (scan source).1.tokens) : t.token.WellFormed := by
  obtain ⟨l, hl, ht⟩ := mem_tokens h
  exact wellFormed_of_mem_lexemes hl ht

theorem line_le_endLine {source : String} {t : Located} (h : t ∈ (scan source).1.tokens) :
    t.line ≤ (scan source).1.endLine :=
  line_le_of_mem_tokens h

theorem one_le_line {source : String} {t : Located} (h : t ∈ (scan source).1.tokens) :
    1 ≤ t.line :=
  le_line_of_mem_tokens h

theorem pairwise_line (source : String) :
    (scan source).1.tokens.Pairwise fun t u => t.line ≤ u.line :=
  pairwise_line_tokens 1 _

/-- The lexer returns the text as one token. -/
def ReadsAs (text : String) (t : Token) : Prop := scan text = (⟨[⟨t, 1⟩], 1⟩, [])

theorem ReadsAs.wellFormed {text : String} {t : Token} (h : ReadsAs text t) : t.WellFormed := by
  have hmem : ⟨t, 1⟩ ∈ (scan text).1.tokens := by
    rw [show scan text = _ from h]
    exact List.mem_singleton_self _
  exact wellFormed_of_mem_scan hmem

theorem readsAs_of_lexemes {text : String} {t : Token} {w : List Char}
    (hbreak : '\n' ∉ text.toList) (h : lexemes text.toList = [⟨.token t, w, 0⟩]) :
    ReadsAs text t := by
  have hsenses : senses (lexemes text.toList) = [t].map .token := by
    rw [h]
    rfl
  exact scan_of_senses hbreak hsenses

/-- The plain identifiers are the words that are not reserved. -/
theorem readsAs_ident {name : String} :
    ReadsAs name (.ident name) ↔ (Token.ident name).WellFormed := by
  refine ⟨ReadsAs.wellFormed, fun ⟨hword, hof⟩ => ?_⟩
  apply readsAs_of_lexemes (newline_notMem_word hword) (w := name.toList)
  have := lexemes_word hword (closes_nil.stops (by decide))
  rwa [List.append_nil, String.ofList_toList, hof, lexemes_nil] at this

theorem readsAs_user : ReadsAs "user" (.ident "user") :=
  readsAs_ident.mpr ⟨by decide +kernel, by decide +kernel⟩

theorem readsAs_resource : ReadsAs "resource" (.ident "resource") :=
  readsAs_ident.mpr ⟨by decide +kernel, by decide +kernel⟩

theorem readsAs_decimal {spelling : String} :
    ReadsAs spelling (.decimal spelling) ↔ (Token.decimal spelling).WellFormed := by
  refine ⟨ReadsAs.wellFormed, fun hdecimal => ?_⟩
  apply readsAs_of_lexemes (newline_notMem_decimal hdecimal) (w := spelling.toList)
  have := lexemes_decimal hdecimal closes_nil
  rwa [List.append_nil, String.ofList_toList, lexemes_nil] at this

end TokenStream
end AccessPolicy
