import AccessPolicy.Proofs.Tokens
import AccessPolicy.ResourcePattern
import Mathlib.Data.List.Infix

/-!
# What patterns match

A pattern matches the texts that it becomes when its stars are replaced by some
characters each (`matchesText_iff`). The matcher never goes back to an earlier
star than the latest, and loses nothing by that: what an earlier star could still
take, the latest can take as well (`Cursor.open_star`). It compares bytes, and
still no star takes a part of a character (`matches_utf8`).
-/

namespace AccessPolicy
namespace ResourcePattern

/-! ## Filling in the stars -/

section
variable {α : Type} [DecidableEq α] {star c : α} {pattern text : List α}

/-- The pattern with its stars replaced one after the other by some lists; where
there are no more of them, by nothing. -/
def fill (star : α) : List α → List (List α) → List α
  | [], _ => []
  | c :: pattern, fillings =>
    if c = star then fillings.headD [] ++ fill star pattern fillings.tail
    else c :: fill star pattern fillings

/-- The text is the pattern with something in the place of every star. -/
def Matches (star : α) (pattern text : List α) : Prop :=
  ∃ fillings, fill star pattern fillings = text

theorem matches_nil : Matches star [] text ↔ text = [] := by
  constructor
  · rintro ⟨_, rfl⟩
    rfl
  · rintro rfl
    exact ⟨[], rfl⟩

theorem matches_star :
    Matches star (star :: pattern) text ↔ ∃ rest, rest <:+ text ∧ Matches star pattern rest := by
  constructor
  · rintro ⟨fillings, rfl⟩
    rw [fill, if_pos rfl]
    exact ⟨_, List.suffix_append _ _, _, rfl⟩
  · rintro ⟨_, ⟨filling, rfl⟩, fillings, rfl⟩
    refine ⟨filling :: fillings, ?_⟩
    rw [fill, if_pos rfl]
    rfl

theorem matches_cons (h : c ≠ star) :
    Matches star (c :: pattern) text ↔ ∃ rest, text = c :: rest ∧ Matches star pattern rest := by
  constructor
  · rintro ⟨fillings, rfl⟩
    rw [fill, if_neg h]
    exact ⟨_, rfl, _, rfl⟩
  · rintro ⟨_, rfl, fillings, rfl⟩
    refine ⟨fillings, ?_⟩
    rw [fill, if_neg h]

theorem matches_cons_cons (h : c ≠ star) {x : α} :
    Matches star (c :: pattern) (x :: text) ↔ c = x ∧ Matches star pattern text := by
  rw [matches_cons h]
  constructor
  · rintro ⟨rest, heq, hrest⟩
    cases heq
    exact ⟨rfl, hrest⟩
  · rintro ⟨rfl, hrest⟩
    exact ⟨text, rfl, hrest⟩

theorem matches_append {same : List α} (h : star ∉ same) :
    Matches star (same ++ pattern) text ↔
      ∃ rest, text = same ++ rest ∧ Matches star pattern rest := by
  induction same generalizing text with
  | nil => simp
  | cons c same ih =>
      obtain ⟨hc, hsame⟩ := not_or.mp (mt List.mem_cons.mpr h)
      rw [List.cons_append, matches_cons (Ne.symm hc)]
      simp only [ih hsame]
      constructor
      · rintro ⟨_, rfl, rest, rfl, hrest⟩
        exact ⟨rest, rfl, hrest⟩
      · rintro ⟨rest, rfl, hrest⟩
        exact ⟨_, rfl, rest, rfl, hrest⟩

theorem matches_nil_iff_all : Matches star pattern [] ↔ pattern.all (· = star) = true := by
  induction pattern with
  | nil => simp [matches_nil]
  | cons c pattern ih =>
      by_cases hc : c = star
      · subst hc
        simp [matches_star, ih]
      · simp [matches_cons hc, hc]

theorem matches_self (star : α) (pattern : List α) : Matches star pattern pattern := by
  induction pattern with
  | nil => exact matches_nil.mpr rfl
  | cons c pattern ih =>
      by_cases hc : c = star
      · subst hc
        exact matches_star.mpr ⟨pattern, List.suffix_cons _ _, ih⟩
      · exact (matches_cons_cons hc).mpr ⟨rfl, ih⟩

/-- Without a star a pattern matches itself only, and with one also itself without the stars. -/
theorem matches_only_self_iff :
    star ∉ pattern ↔ ∀ text, Matches star pattern text ↔ text = pattern := by
  constructor
  · intro h text
    have happend : Matches star (pattern ++ []) text ↔
        ∃ rest, text = pattern ++ rest ∧ Matches star [] rest := matches_append h
    simpa [matches_nil] using happend
  · intro h hstar
    have hwithout : ∀ pattern : List α, fill star pattern [] = pattern.filter (· ≠ star) := by
      intro pattern
      induction pattern with
      | nil => rfl
      | cons c pattern ih => by_cases hc : c = star <;> simp [fill, hc, ih]
    have hself := (h _).mp ⟨[], hwithout pattern⟩
    rw [← hself] at hstar
    simp at hstar

end

/-! ## One step of the matcher -/

/-- It holds of the longest end or of a shorter one. -/
theorem exists_suffix_iff {α : Type} {p : List α → Prop} {text : List α} :
    (p text ∨ ∃ rest, rest <:+ text.tail ∧ p rest) ↔ ∃ rest, rest <:+ text ∧ p rest := by
  constructor
  · rintro (h | ⟨rest, hrest, h⟩)
    · exact ⟨text, List.suffix_refl _, h⟩
    · exact ⟨rest, hrest.trans (List.tail_suffix _), h⟩
  · rintro ⟨rest, hrest, h⟩
    cases text with
    | nil =>
        obtain rfl := List.suffix_nil.mp hrest
        exact Or.inl h
    | cons x text =>
        rcases List.suffix_cons_iff.mp hrest with rfl | hrest
        · exact Or.inl h
        · exact Or.inr ⟨rest, hrest, h⟩

namespace Cursor

section
variable {α : Type} [DecidableEq α] {star : α}

/-- A match can still be found: with what is left, or if the latest star takes more. -/
def Open (c : Cursor star) : Prop :=
  Matches star c.pattern c.text ∨
    ∃ l ∈ c.latest, ∃ rest, rest <:+ l.untaken.tail ∧ Matches star l.after rest

variable {c : α} {pattern text : List α}

/-- A star that has just been passed can be anywhere. -/
theorem open_here :
    (⟨pattern, text, some (.here pattern text)⟩ : Cursor star).Open ↔
      ∃ rest, rest <:+ text ∧ Matches star pattern rest := by
  rw [← exists_suffix_iff]
  simp [Open, Latest.here]

/-- **A star takes the place of the one before.** Whatever match the earlier star can still give,
the new one gives: what is matched between them has no star and so stays as it is. -/
theorem open_star {x : α} (latest : Option (Latest star (star :: pattern) (x :: text))) :
    Open ⟨star :: pattern, x :: text, latest⟩ ↔
      (⟨pattern, x :: text, some (.here pattern (x :: text))⟩ : Cursor star).Open := by
  rw [open_here, ← matches_star]
  constructor
  · rintro (h | ⟨l, _, rest, hrest, h⟩)
    · exact h
    · obtain ⟨same, hafter, huntaken, hsame⟩ := l.matched
      rw [hafter, matches_append hsame] at h
      obtain ⟨taken, rfl, h⟩ := h
      obtain ⟨later, hlater, h⟩ := matches_star.mp h
      -- both are ends of what the earlier star has not taken, and this is the shorter one
      have hend : taken <:+ x :: text := by
        have huntaken' : same ++ taken <:+ same ++ x :: text :=
          huntaken ▸ hrest.trans (List.tail_suffix _)
        have hlength := huntaken'.length_le
        rw [List.length_append, List.length_append] at hlength
        exact List.suffix_of_suffix_length_le ((List.suffix_append _ _).trans huntaken')
          (List.suffix_append _ _) (by omega)
      exact matches_star.mpr ⟨later, hlater.trans hend, h⟩
  · exact Or.inl

theorem open_same (hc : c ≠ star) (latest : Option (Latest star (c :: pattern) (c :: text))) :
    Open ⟨c :: pattern, c :: text, latest⟩ ↔
      Open ⟨pattern, text, latest.map fun l => l.advance hc⟩ := by
  refine or_congr ?_ ?_
  · rw [matches_cons_cons hc]
    exact and_iff_right rfl
  · simp [Latest.advance]

/-- Where what is left does not match, the latest star has to take more. -/
theorem open_retry (latest : Option (Latest star pattern text))
    (h : ¬Matches star pattern text) :
    Open ⟨pattern, text, latest⟩ ↔ ∃ c, retry latest = some c ∧ c.Open := by
  constructor
  · rintro (hleft | ⟨l, hl, hlater⟩)
    · exact absurd hleft h
    · cases latest with
      | none => cases hl
      | some l' =>
          cases hl
          exact ⟨_, rfl, open_here.mpr hlater⟩
  · rintro ⟨c, hretry, hopen⟩
    obtain ⟨l, rfl, rfl⟩ := Option.map_eq_some_iff.mp hretry
    exact Or.inr ⟨l, rfl, open_here.mp hopen⟩

/-- **A step keeps the answer.** While there is text left, a match can be found just if it can be
found after the next step. -/
theorem open_next? {c : Cursor star} (htext : c.text ≠ []) :
    c.Open ↔ ∃ c', c.next? = some c' ∧ c'.Open := by
  obtain ⟨pattern, text, latest⟩ := c
  cases text with
  | nil => exact absurd rfl htext
  | cons x text =>
      cases pattern with
      | nil =>
          rw [next?_nil]
          exact open_retry latest (by simp [matches_nil])
      | cons p pattern =>
          by_cases hstar : p = star
          · subst hstar
            rw [next?_star, open_star]
            simp
          · by_cases hsame : p = x
            · subst hsame
              rw [next?_same hstar, open_same hstar]
              simp
            · rw [next?_other hstar hsame]
              exact open_retry latest fun h => hsame ((matches_cons_cons hstar).mp h).1

theorem open_end {latest : Option (Latest star pattern [])} :
    Open ⟨pattern, [], latest⟩ ↔ pattern.all (· = star) = true := by
  rw [← matches_nil_iff_all]
  constructor
  · rintro (h | ⟨l, _, rest, hrest, h⟩)
    · exact h
    · obtain ⟨same, hafter, huntaken, hsame⟩ := l.matched
      rw [hafter, matches_append hsame] at h
      obtain ⟨taken, rfl, h⟩ := h
      -- what was matched last does not fit into less text
      have hlength := hrest.length_le
      simp only [huntaken, List.append_nil, List.length_append, List.length_tail] at hlength
      obtain rfl : taken = [] := List.length_eq_zero_iff.mp (by omega)
      exact h
  · exact Or.inl

/-- **The matcher answers right.** It finds a match just if there is one. -/
theorem accepts_iff (c : Cursor star) : c.accepts = true ↔ c.Open := by
  fun_induction accepts c with
  | case1 c htext =>
      obtain ⟨pattern, text, latest⟩ := c
      obtain rfl : text = [] := htext
      exact open_end.symm
  | case2 c htext hnone =>
      rw [open_next? htext, hnone]
      simp
  | case3 c htext c' hsome ih =>
      rw [ih, open_next? htext, hsome]
      simp

end

theorem accepts_start_iff {α : Type} [DecidableEq α] {star : α} {pattern text : List α} :
    (⟨pattern, text, none⟩ : Cursor star).accepts = true ↔ Matches star pattern text := by
  rw [accepts_iff]
  simp [Open]

end Cursor

/-! ## Characters and bytes -/

/-- The encodings of two characters are told apart by what follows them, or they are the same. -/
theorem utf8EncodeChar_append {c d : Char} {xs ys : List UInt8}
    (h : String.utf8EncodeChar c ++ xs = String.utf8EncodeChar d ++ ys) : c = d ∧ xs = ys := by
  have hdecode : ∀ (c : Char) (xs : List UInt8),
      ByteArray.utf8DecodeChar? (String.utf8EncodeChar c ++ xs).toByteArray 0 = some c := by
    intro c xs
    rw [List.toByteArray_append]
    exact ByteArray.utf8DecodeChar?_utf8EncodeChar_append
  have hc := hdecode c xs
  rw [h, hdecode d ys] at hc
  cases hc
  exact ⟨rfl, List.append_cancel_left h⟩

/-- A character begins with a byte that can be first, and goes on with bytes that cannot. -/
theorem utf8EncodeChar_eq_cons (c : Char) : ∃ b bs, String.utf8EncodeChar c = b :: bs ∧
    b.IsUTF8FirstByte ∧ ∀ x ∈ bs, ¬x.IsUTF8FirstByte := by
  have hfirst : ∀ i (hi : i < (String.utf8EncodeChar c).length),
      ((String.utf8EncodeChar c)[i]).IsUTF8FirstByte ↔ i = 0 :=
    fun i hi => UInt8.isUTF8FirstByte_getElem_utf8EncodeChar
  cases hbytes : String.utf8EncodeChar c with
  | nil => exact absurd hbytes String.utf8EncodeChar_ne_nil
  | cons b bs =>
      simp only [hbytes] at hfirst
      refine ⟨b, bs, rfl, (hfirst 0 (Nat.succ_pos _)).mpr rfl, fun x hx => ?_⟩
      obtain ⟨i, hi, rfl⟩ := List.getElem_of_mem hx
      exact mt (hfirst (i + 1) (Nat.succ_lt_succ hi)).mp (Nat.succ_ne_zero i)

theorem starByte_notMem {c : Char} (h : c ≠ '*') : starByte ∉ String.utf8EncodeChar c := by
  intro hmem
  obtain ⟨b, bs, hbytes, _, hlater⟩ := utf8EncodeChar_eq_cons c
  rw [hbytes] at hmem
  rcases List.mem_cons.mp hmem with rfl | hmem
  · have hsame : String.utf8EncodeChar '*' ++ bs = String.utf8EncodeChar c ++ [] := by
      rw [hbytes, List.append_nil]
      rfl
    exact h (utf8EncodeChar_append hsame).1.symm
  · exact hlater _ hmem (by decide)

def utf8 (cs : List Char) : List UInt8 := cs.flatMap String.utf8EncodeChar

theorem bytes_eq (text : String) : bytes text = utf8 text.toList := by
  have hbytes : text.toUTF8 = text.toList.utf8Encode := by
    rw [String.toUTF8_eq_toByteArray, ← String.toByteArray_ofList, String.ofList_toList]
  rw [bytes, hbytes, List.utf8Encode, List.toList_data_toByteArray]
  rfl

theorem exists_utf8_of_first {cs : List Char} {before after : List UInt8} {b : UInt8}
    (hb : b.IsUTF8FirstByte) (h : utf8 cs = before ++ b :: after) :
    ∃ ds es, cs = ds ++ es ∧ utf8 es = b :: after := by
  induction cs generalizing before with
  | nil => simp [utf8] at h
  | cons c cs ih =>
      cases before with
      | nil => exact ⟨[], c :: cs, rfl, h⟩
      | cons x before =>
          obtain ⟨d, ds, hbytes, _, hlater⟩ := utf8EncodeChar_eq_cons c
          have hsplit : ds ++ utf8 cs = before ++ b :: after := by
            have hcons : utf8 (c :: cs) = d :: (ds ++ utf8 cs) := by
              rw [utf8, List.flatMap_cons, hbytes]
              rfl
            rw [hcons] at h
            exact (List.cons.inj h).2
          rcases List.append_eq_append_iff.mp hsplit with ⟨more, rfl, hrest⟩ | ⟨more, rfl, hrest⟩
          · obtain ⟨ds', es, rfl, hes⟩ := ih hrest
            exact ⟨c :: ds', es, rfl, hes⟩
          · cases more with
            | nil =>
                have hcs : utf8 cs = [] ++ b :: after := hrest.symm
                obtain ⟨ds', es, rfl, hes⟩ := ih hcs
                exact ⟨c :: ds', es, rfl, hes⟩
            | cons y more =>
                obtain ⟨rfl, _⟩ := List.cons.inj hrest
                exact absurd hb (hlater _ (by simp))

theorem utf8_cons (c : Char) (cs : List Char) :
    utf8 (c :: cs) = String.utf8EncodeChar c ++ utf8 cs := List.flatMap_cons

theorem utf8_star (cs : List Char) : utf8 ('*' :: cs) = starByte :: utf8 cs := utf8_cons '*' cs

theorem utf8_suffix {cs es : List Char} (h : es <:+ cs) : utf8 es <:+ utf8 cs := by
  obtain ⟨ds, rfl⟩ := h
  exact ⟨utf8 ds, List.flatMap_append.symm⟩

section
variable {c : Char} {pattern cs : List Char}

theorem matches_utf8_cons (hc : c ≠ '*') :
    Matches starByte (utf8 (c :: pattern)) (utf8 cs) ↔
      ∃ es, cs = c :: es ∧ Matches starByte (utf8 pattern) (utf8 es) := by
  rw [utf8_cons, matches_append (starByte_notMem hc)]
  constructor
  · rintro ⟨rest, hcs, h⟩
    cases cs with
    | nil =>
        have hempty := (List.append_eq_nil_iff.mp hcs.symm).1
        exact absurd hempty String.utf8EncodeChar_ne_nil
    | cons d es =>
        rw [utf8_cons] at hcs
        obtain ⟨rfl, rfl⟩ := utf8EncodeChar_append hcs
        exact ⟨es, rfl, h⟩
  · rintro ⟨es, rfl, h⟩
    exact ⟨utf8 es, utf8_cons c es, h⟩

/-- An end of the bytes that begins like a character is an end of the characters. -/
theorem exists_utf8_of_matches (hc : c ≠ '*') {rest : List UInt8} (hrest : rest <:+ utf8 cs)
    (h : Matches starByte (utf8 (c :: pattern)) rest) : ∃ es, es <:+ cs ∧ utf8 es = rest := by
  rw [utf8_cons, matches_append (starByte_notMem hc)] at h
  obtain ⟨later, rfl, _⟩ := h
  obtain ⟨before, hbefore⟩ := hrest
  obtain ⟨b, bs, hbytes, hfirst, _⟩ := utf8EncodeChar_eq_cons c
  rw [hbytes] at hbefore ⊢
  obtain ⟨ds, es, rfl, hes⟩ := exists_utf8_of_first hfirst hbefore.symm
  exact ⟨es, List.suffix_append ds es, hes⟩

end

/-- **Bytes match as characters do.** A star never ends within a character: what follows it in
the pattern begins with a character, a further star, which can take the rest of it, or not at
all. -/
theorem matches_utf8 (pattern : List Char) :
    (∀ cs, Matches starByte (utf8 pattern) (utf8 cs) ↔ Matches '*' pattern cs) ∧
    ∀ cs rest, rest <:+ utf8 cs → Matches starByte (utf8 pattern) rest →
      ∃ es, es <:+ cs ∧ Matches '*' pattern es := by
  induction pattern with
  | nil =>
      constructor
      · intro cs
        rw [show utf8 [] = [] from rfl, matches_nil, matches_nil]
        constructor
        · intro h
          cases cs with
          | nil => rfl
          | cons c cs =>
              rw [utf8_cons] at h
              exact absurd (List.append_eq_nil_iff.mp h).1 String.utf8EncodeChar_ne_nil
        · rintro rfl
          rfl
      · intro cs rest _ _
        exact ⟨[], List.nil_suffix, matches_nil.mpr rfl⟩
  | cons c pattern ih =>
      obtain ⟨ih, ihEnds⟩ := ih
      by_cases hc : c = '*'
      · subst hc
        rw [utf8_star]
        constructor
        · intro cs
          rw [matches_star, matches_star]
          constructor
          · rintro ⟨rest, hrest, h⟩
            exact ihEnds cs rest hrest h
          · rintro ⟨es, hes, h⟩
            exact ⟨utf8 es, utf8_suffix hes, (ih es).mpr h⟩
        · intro cs rest hrest h
          obtain ⟨later, hlater, h⟩ := matches_star.mp h
          obtain ⟨es, hes, h⟩ := ihEnds cs later (hlater.trans hrest) h
          exact ⟨es, hes, matches_star.mpr ⟨es, List.suffix_refl es, h⟩⟩
      · have hwhole : ∀ cs,
            Matches starByte (utf8 (c :: pattern)) (utf8 cs) ↔ Matches '*' (c :: pattern) cs := by
          intro cs
          rw [matches_utf8_cons hc, matches_cons hc]
          simp only [ih]
        refine ⟨hwhole, fun cs rest hrest h => ?_⟩
        obtain ⟨es, hes, rfl⟩ := exists_utf8_of_matches hc hrest h
        exact ⟨es, hes, (hwhole es).mp h⟩

/-! ## Texts and resources -/

theorem matchesText_iff {pattern text : String} :
    matchesText pattern text = true ↔ Matches '*' pattern.toList text.toList := by
  rw [matchesText, Cursor.accepts_start_iff, bytes_eq, bytes_eq]
  exact (matches_utf8 pattern.toList).1 text.toList

/-- What of a resource a pattern is about. -/
def subject? (pattern : String) (r : Resource) : Option String :=
  if pattern.toList.head? = some '/' then r.path else some r.name

theorem matchesResource_iff {pattern : String} {r : Resource} :
    matchesResource pattern r = true ↔
      ∃ text ∈ subject? pattern r, Matches '*' pattern.toList text.toList := by
  unfold matchesResource subject?
  split_ifs with hpath
  · cases r.path with
    | none => simp
    | some path => simp [matchesText_iff]
  · rw [Bool.or_eq_true, decide_eq_true_eq, matchesText_iff]
    constructor
    · rintro (rfl | h)
      · exact ⟨_, rfl, matches_self _ _⟩
      · exact ⟨_, rfl, h⟩
    · rintro ⟨_, ⟨⟩, h⟩
      exact Or.inr h

theorem matchesResource_of_no_star {pattern : String} (h : '*' ∉ pattern.toList) (r : Resource) :
    matchesResource pattern r = true ↔ subject? pattern r = some pattern := by
  rw [matchesResource_iff]
  constructor
  · rintro ⟨text, htext, hmatches⟩
    rw [matches_only_self_iff.mp h, String.toList_inj] at hmatches
    subst hmatches
    exact htext
  · intro hsubject
    exact ⟨pattern, hsubject, matches_self _ _⟩

theorem matchesResource_of_wellFormed {name : String} (h : (Token.ident name).WellFormed)
    (r : Resource) : matchesResource name r = true ↔ r.name = name := by
  have hword := Lexeme.continuesWord_of_isWord h.1
  have hstar : '*' ∉ name.toList := by
    intro hmem
    have hfalse := hword _ hmem
    revert hfalse
    decide
  have hpath : name.toList.head? ≠ some '/' := by
    intro hhead
    have hfalse := hword _ (List.mem_of_mem_head? hhead)
    revert hfalse
    decide
  rw [matchesResource_of_no_star hstar, subject?, if_neg hpath, Option.some_inj]

/-- **A pattern matches what it becomes when its stars are filled in**, be it read byte by byte or
character by character. So it matches itself, and nothing else just if it has no star; and a
resource matches by its path or its name. -/
theorem matchesText_iff_exists_fill :
    (∀ pattern text : String, matchesText pattern text = true ↔
      ∃ fillings, fill '*' pattern.toList fillings = text.toList) ∧
    (∀ pattern text : String, matchesText pattern text =
      (⟨pattern.toList, text.toList, none⟩ : Cursor '*').accepts) ∧
    (∀ pattern : String, matchesText pattern pattern = true) ∧
    (∀ pattern : String, '*' ∉ pattern.toList ↔
      ∀ text, matchesText pattern text = true ↔ text = pattern) ∧
    ∀ (pattern : String) (r : Resource), matchesResource pattern r = true ↔
      ∃ text ∈ subject? pattern r, matchesText pattern text = true := by
  refine ⟨fun pattern text => matchesText_iff, fun pattern text => ?_, fun pattern => ?_,
    fun pattern => ?_, fun pattern r => ?_⟩
  · rw [Bool.eq_iff_iff, matchesText_iff, Cursor.accepts_start_iff]
  · exact matchesText_iff.mpr (matches_self _ _)
  · rw [matches_only_self_iff]
    constructor
    · intro h text
      rw [matchesText_iff, h, String.toList_inj]
    · intro h text
      have htext := h (String.ofList text)
      rwa [matchesText_iff, ← String.toList_inj, String.toList_ofList] at htext
  · rw [matchesResource_iff]
    simp only [matchesText_iff]

end ResourcePattern
end AccessPolicy
