import AccessPolicy.Expr.Text
import AccessPolicy.Token.Lexeme
import Mathlib.Tactic.Common

/-!
# Words, numbers and strings as lexemes

Which token stands at the front of a text, by the first character: a word runs
as far as it can, a number may take a fraction, a string ends at its quote.
Both directions are here. A word, a row of digits or an escaped string that is
*closed* (nothing, a blank or a `)` follows it) is read as one token, and every
token that is ever read has the shape of its class (`Token.WellFormed`).
-/

namespace AccessPolicy
namespace Lexeme

/-! ## Classes of characters -/

theorem toNat_of_isDigit {c : Char} (h : Text.isDigit c = true) :
    48 ≤ c.toNat ∧ c.toNat ≤ 57 := by
  simpa [Text.isDigit, Char.le_def, UInt32.le_iff_toNat_le] using h

theorem toNat_of_startsWord {c : Char} (h : startsWord c = true) :
    65 ≤ c.toNat ∧ c.toNat ≤ 122 := by
  simp only [startsWord, isLetter, Char.le_def, UInt32.le_iff_toNat_le, Bool.or_eq_true,
    decide_eq_true_eq] at h
  rcases h with (⟨h₁, h₂⟩ | ⟨h₁, h₂⟩) | rfl
  · exact ⟨Nat.le_trans (by decide) h₁, h₂⟩
  · exact ⟨h₁, Nat.le_trans h₂ (by decide)⟩
  · decide

theorem isBlank_eq_false {c : Char} (h₁ : 33 ≤ c.toNat) (h₂ : c.toNat ≤ 126) :
    Text.isBlank c = false := by
  simp only [Text.isBlank, Bool.or_eq_false_iff, decide_eq_false_iff_not]
  omega

theorem comment?_of_ne {c : Char} (h : c ≠ '/') (cs : List Char) : comment? c cs = none := by
  unfold comment?
  split
  · exact absurd rfl h
  · exact absurd rfl h
  · rfl

theorem mark?_of_startsWord {c : Char} (h : startsWord c = true) (cs : List Char) :
    mark? c cs = none := by
  unfold mark?
  split
  all_goals first | rfl | exact absurd h (by decide)

/-! ## The first lexeme by its first character -/

theorem first_of_startsWord {c : Char} (h : startsWord c = true) (cs : List Char) :
    first c cs =
      ⟨.token (Token.ofWord (String.ofList (c :: cs.takeWhile continuesWord))),
        (cs.takeWhile continuesWord).length, 0⟩ := by
  have hn := toNat_of_startsWord h
  have hslash : c ≠ '/' := by rintro rfl; exact absurd h (by decide)
  have hquote : ¬(c = '"' ∨ c = '\'') := by rintro (rfl | rfl) <;> exact absurd h (by decide)
  have hdigit : Text.isDigit c = false := by
    by_contra hd
    have := toNat_of_isDigit (Bool.not_eq_false _ ▸ hd)
    omega
  unfold first
  rw [comment?_of_ne hslash]
  simp only [isBlank_eq_false (by omega : 33 ≤ c.toNat) (by omega), hquote, hdigit,
    mark?_of_startsWord h, h, Bool.false_eq_true, if_false, if_true]

theorem first_of_isDigit {c : Char} (h : Text.isDigit c = true) (cs : List Char) :
    first c cs = ⟨.token (number c cs).1, (number c cs).2, 0⟩ := by
  have hn := toNat_of_isDigit h
  have hslash : c ≠ '/' := by rintro rfl; exact absurd h (by decide)
  have hquote : ¬(c = '"' ∨ c = '\'') := by rintro (rfl | rfl) <;> exact absurd h (by decide)
  unfold first
  rw [comment?_of_ne hslash]
  simp only [isBlank_eq_false (by omega : 33 ≤ c.toNat) (by omega), hquote, h,
    Bool.false_eq_true, if_false, if_true]

theorem first_of_quote {cs content : List Char} {n breaks : Nat}
    (h : quotedContent '"' cs = some (content, n, breaks)) :
    first '"' cs = ⟨.token (.string (String.ofList content)), n, breaks⟩ := by
  unfold first
  rw [comment?_of_ne (by decide)]
  simp [h, show Text.isBlank '"' = false by decide]

theorem first_of_mark {c : Char} {cs : List Char} {m : Mark} {n : Nat}
    (hblank : Text.isBlank c = false) (hquote : ¬(c = '"' ∨ c = '\''))
    (hdigit : Text.isDigit c = false) (h : mark? c cs = some (m, n)) :
    first c cs = ⟨.token (.mark m), n, 0⟩ := by
  have hslash : c ≠ '/' := by
    rintro rfl
    simp [mark?] at h
  unfold first
  rw [comment?_of_ne hslash]
  simp [hblank, hquote, hdigit, h]

/-- A piece that is known to the last character is cut off as a whole. -/
theorem lexemes_append {c : Char} {cs rest : List Char} {m : Meaning} {breaks : Nat}
    (h : first c (cs ++ rest) = ⟨m, cs.length, breaks⟩) :
    lexemes (c :: cs ++ rest) = ⟨m, c :: cs, breaks⟩ :: lexemes rest := by
  rw [List.cons_append, lexemes_cons, h]
  simp

/-! ## Closed texts -/

/-- After such a text a word or a number has ended: nothing follows, or a blank
or a closing parenthesis. -/
def Closes (rest : List Char) : Prop := ∀ d ∈ rest.head?, d = ' ' ∨ d = ')'

theorem closes_nil : Closes [] := by
  intro d h
  simp at h

theorem closes_blank (rest : List Char) : Closes (' ' :: rest) := by
  intro d h
  exact Or.inl (by simpa using h.symm)

theorem closes_paren (rest : List Char) : Closes (')' :: rest) := by
  intro d h
  exact Or.inr (by simpa using h.symm)

/-- No row of characters of the class `p` goes on with the text. -/
def Stops (p : Char → Bool) (rest : List Char) : Prop := ∀ d ∈ rest.head?, p d = false

theorem Closes.stops {p : Char → Bool} {rest : List Char} (h : Closes rest)
    (hp : p ' ' = false ∧ p ')' = false) : Stops p rest := by
  intro d hd
  rcases h d hd with rfl | rfl
  · exact hp.1
  · exact hp.2

section
variable {p : Char → Bool} {cs rest : List Char}

theorem takeWhile_of_stops (h : Stops p rest) : rest.takeWhile p = [] := by
  cases rest with
  | nil => rfl
  | cons d _ => exact List.takeWhile_cons_of_neg (by simp [h d rfl])

theorem dropWhile_of_stops (h : Stops p rest) : rest.dropWhile p = rest := by
  have := List.takeWhile_append_dropWhile (p := p) (l := rest)
  rwa [takeWhile_of_stops h, List.nil_append] at this

theorem takeWhile_append_of_stops (hcs : ∀ d ∈ cs, p d = true) (h : Stops p rest) :
    (cs ++ rest).takeWhile p = cs := by
  rw [List.takeWhile_append_of_pos hcs, takeWhile_of_stops h, List.append_nil]

theorem dropWhile_append_of_stops (hcs : ∀ d ∈ cs, p d = true) (h : Stops p rest) :
    (cs ++ rest).dropWhile p = rest := by
  rw [List.dropWhile_append_of_pos hcs, dropWhile_of_stops h]

end

/-! ## Words -/

/-- A letter or `_`, then letters, digits and `_`. -/
def IsWord : List Char → Prop
  | [] => False
  | c :: cs => startsWord c = true ∧ ∀ d ∈ cs, continuesWord d = true

instance : DecidablePred IsWord
  | [] => .isFalse id
  | c :: cs =>
    decidable_of_iff (startsWord c = true ∧ cs.all continuesWord = true)
      (and_congr Iff.rfl List.all_eq_true)

theorem continuesWord_of_startsWord {c : Char} (h : startsWord c = true) :
    continuesWord c = true := by
  simp only [startsWord, continuesWord, Bool.or_eq_true, decide_eq_true_eq] at h ⊢
  rcases h with h | h
  · exact Or.inl (Or.inl h)
  · exact Or.inr h

theorem newline_notMem {p : Char → Bool} (hp : p '\n' = false) {cs : List Char}
    (h : ∀ d ∈ cs, p d = true) : '\n' ∉ cs := by
  intro hmem
  have := h _ hmem
  rw [hp] at this
  cases this

theorem continuesWord_of_isWord {w : List Char} (hw : IsWord w) :
    ∀ d ∈ w, continuesWord d = true := by
  cases w with
  | nil => exact absurd hw id
  | cons c cs => exact List.forall_mem_cons.mpr ⟨continuesWord_of_startsWord hw.1, hw.2⟩

theorem newline_notMem_word {w : List Char} (hw : IsWord w) : '\n' ∉ w :=
  newline_notMem (by decide) (continuesWord_of_isWord hw)

theorem lexemes_word {w : List Char} (hw : IsWord w) {rest : List Char}
    (h : Stops continuesWord rest) :
    lexemes (w ++ rest) = ⟨.token (Token.ofWord (String.ofList w)), w, 0⟩ :: lexemes rest := by
  cases w with
  | nil => exact absurd hw id
  | cons c cs =>
      apply lexemes_append
      rw [first_of_startsWord hw.1, takeWhile_append_of_stops hw.2 h]

/-! ## Numbers -/

def IsWhole (w : List Char) : Prop := w ≠ [] ∧ ∀ d ∈ w, Text.isDigit d = true

instance : DecidablePred IsWhole := fun w =>
  decidable_of_iff (w ≠ [] ∧ w.all Text.isDigit = true) (and_congr Iff.rfl List.all_eq_true)

/-- Two rows of digits with a point between them. -/
def IsFraction (w : List Char) : Prop :=
  ∃ ds es, w = ds ++ '.' :: es ∧ IsWhole ds ∧ IsWhole es

theorem number_whole {c : Char} {ds rest : List Char} (hds : ∀ d ∈ ds, Text.isDigit d = true)
    (h : Closes rest) : number c (ds ++ rest) = (wholeNumber (c :: ds), ds.length) := by
  unfold number
  have hstops : Stops Text.isDigit rest := h.stops (by decide)
  rw [takeWhile_append_of_stops hds hstops, dropWhile_append_of_stops hds hstops]
  dsimp only
  split
  · -- a fraction needs a point, and a closed text does not go on with one
    rcases h '.' rfl with h | h <;> exact absurd h (by decide)
  · rfl

theorem number_fraction {c : Char} {ds es rest : List Char}
    (hds : ∀ d ∈ ds, Text.isDigit d = true) (hes : IsWhole es) (h : Closes rest) :
    number c (ds ++ '.' :: es ++ rest) =
      (.decimal (String.ofList (c :: ds ++ '.' :: es)), (ds ++ '.' :: es).length) := by
  obtain ⟨hne, hes⟩ := hes
  obtain ⟨e, es, rfl⟩ := List.exists_cons_of_ne_nil hne
  have hdot : Text.isDigit '.' = false := by decide
  have htake : (ds ++ '.' :: (e :: es) ++ rest).takeWhile Text.isDigit = ds := by
    rw [List.append_assoc, List.takeWhile_append_of_pos hds]
    simp [hdot]
  have hdrop : (ds ++ '.' :: (e :: es) ++ rest).dropWhile Text.isDigit =
      '.' :: e :: (es ++ rest) := by
    rw [List.append_assoc, List.dropWhile_append_of_pos hds]
    simp [hdot]
  have hmore : (es ++ rest).takeWhile Text.isDigit = es :=
    takeWhile_append_of_stops (fun d hd => hes d (List.mem_cons_of_mem _ hd)) (h.stops (by decide))
  unfold number
  rw [htake, hdrop]
  simp only [hes e List.mem_cons_self, if_true, hmore]
  simp [Nat.add_assoc, Nat.add_comm]

theorem lexemes_whole {w : List Char} (hw : IsWhole w) {rest : List Char} (h : Closes rest) :
    lexemes (w ++ rest) = ⟨.token (wholeNumber w), w, 0⟩ :: lexemes rest := by
  obtain ⟨hne, hw⟩ := hw
  obtain ⟨c, ds, rfl⟩ := List.exists_cons_of_ne_nil hne
  apply lexemes_append
  rw [first_of_isDigit (hw c List.mem_cons_self),
    number_whole (fun d hd => hw d (List.mem_cons_of_mem _ hd)) h]

theorem lexemes_fraction {w : List Char} (hw : IsFraction w) {rest : List Char} (h : Closes rest) :
    lexemes (w ++ rest) = ⟨.token (.decimal (String.ofList w)), w, 0⟩ :: lexemes rest := by
  obtain ⟨ds, es, rfl, ⟨hne, hds⟩, hes⟩ := hw
  obtain ⟨c, ds, rfl⟩ := List.exists_cons_of_ne_nil hne
  have hfirst : first c (ds ++ '.' :: es ++ rest) =
      ⟨.token (.decimal (String.ofList (c :: ds ++ '.' :: es))), (ds ++ '.' :: es).length, 0⟩ := by
    rw [first_of_isDigit (hds c List.mem_cons_self),
      number_fraction (fun d hd => hds d (List.mem_cons_of_mem _ hd)) hes h]
  exact lexemes_append hfirst

/-- What is written as a decimal: a fraction, or a row of digits that is too
large for a whole number. -/
def IsDecimal (w : List Char) : Prop :=
  IsFraction w ∨ IsWhole w ∧ greatestInt < Text.digitsValue 0 w

theorem lexemes_decimal {w : List Char} (hw : IsDecimal w) {rest : List Char} (h : Closes rest) :
    lexemes (w ++ rest) = ⟨.token (.decimal (String.ofList w)), w, 0⟩ :: lexemes rest := by
  rcases hw with hw | ⟨hw, hlarge⟩
  · exact lexemes_fraction hw h
  · have hnumber : wholeNumber w = .decimal (String.ofList w) := if_neg (Nat.not_le_of_lt hlarge)
    rw [lexemes_whole hw h, hnumber]

theorem newline_notMem_whole {w : List Char} (hw : IsWhole w) : '\n' ∉ w :=
  newline_notMem (by decide) hw.2

theorem newline_notMem_decimal {w : List Char} (hw : IsDecimal w) : '\n' ∉ w := by
  rcases hw with ⟨ds, es, rfl, hds, hes⟩ | ⟨hw, _⟩
  · simp [newline_notMem_whole hds, newline_notMem_whole hes]
  · exact newline_notMem_whole hw

theorem isWhole_toString (n : Nat) : IsWhole (toString n).toList := by
  rw [Nat.toString_eq_ofList_toDigits, String.toList_ofList]
  refine ⟨Nat.toDigits_ne_nil, fun d hd => ?_⟩
  have := Char.isDigit_iff_toNat.mp (Nat.isDigit_of_mem_toDigits (by decide) (by decide) hd)
  simpa [Text.isDigit, Char.le_def, UInt32.le_iff_toNat_le] using this

theorem digitsValue_toString (n : Nat) : Text.digitsValue 0 (toString n).toList = n := by
  rw [Nat.toString_eq_ofList_toDigits, String.toList_ofList]
  exact Nat.ofDigitChars_ten_toDigits

theorem wholeNumber_toString {n : Nat} (h : n ≤ greatestInt) :
    wholeNumber (toString n).toList = .int n := by
  unfold wholeNumber
  rw [digitsValue_toString]
  exact if_pos h

/-! ## Strings -/

theorem quotedContent_escapeChar (c : Char) (cs : List Char) :
    quotedContent '"' (Literal.escapeChar c ++ cs) =
      (quotedContent '"' cs).map fun x =>
        (c :: x.1, x.2.1 + (Literal.escapeChar c).length, x.2.2) := by
  by_cases hquote : c = '"'
  · subst hquote; rfl
  by_cases hback : c = '\\'
  · subst hback; rfl
  by_cases hline : c = '\n'
  · subst hline; rfl
  by_cases htab : c = '\t'
  · subst htab; rfl
  -- every other character stands for itself, and neither ends the string nor escapes
  rw [Literal.escapeChar, if_neg hquote, if_neg hback, if_neg hline, if_neg htab,
    List.singleton_append, quotedContent.eq_3 _ _ _ (by simp_all), if_neg hquote, lineBreak,
    if_neg hline]
  rfl

/-- An escaped text is read back up to the quote that ends it. -/
theorem quotedContent_escaped (cs rest : List Char) :
    quotedContent '"' (cs.flatMap Literal.escapeChar ++ '"' :: rest) =
      some (cs, (cs.flatMap Literal.escapeChar).length + 1, 0) := by
  induction cs with
  | nil => simp [quotedContent]
  | cons c cs ih =>
      have hlength : (cs.flatMap Literal.escapeChar).length + 1 + (Literal.escapeChar c).length =
          (Literal.escapeChar c).length + (cs.flatMap Literal.escapeChar).length + 1 := by
        omega
      rw [List.flatMap_cons, List.append_assoc, quotedContent_escapeChar, ih, Option.map_some,
        List.length_append, ← hlength]

theorem newline_notMem_escaped (cs : List Char) : '\n' ∉ cs.flatMap Literal.escapeChar := by
  intro hmem
  obtain ⟨c, _, hc⟩ := List.mem_flatMap.mp hmem
  unfold Literal.escapeChar at hc
  split_ifs at hc with h₁ h₂ h₃ h₄
  all_goals simp at hc
  -- what is left is a character that stands for itself
  exact h₃ hc.symm

theorem lexemes_string (s : String) (rest : List Char) :
    lexemes ((Literal.string s).text.toList ++ rest) =
      ⟨.token (.string s), (Literal.string s).text.toList, 0⟩ :: lexemes rest := by
  have htext : (Literal.string s).text.toList =
      '"' :: (s.toList.flatMap Literal.escapeChar ++ ['"']) := by
    simp [Literal.text]
  rw [htext]
  apply lexemes_append
  rw [List.append_assoc, List.singleton_append, first_of_quote (quotedContent_escaped _ _),
    String.ofList_toList, List.length_append]
  rfl

end Lexeme
end AccessPolicy
