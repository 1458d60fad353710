import Mathlib.Data.List.TakeWhile
import AccessPolicy.Proofs.Lexing

/-!
# The pieces of a text

How each piece is written, by what it stands for (`Lexeme.first_writtenAs`); and the line counter,
which moves over a piece by the line breaks in it, whichever branch cuts it off
(`Lexeme.breaks_first`).
-/

namespace AccessPolicy

open Lexeme

/-! ## How pieces are written -/

/-- The part of a string between its quotes, and the content that it writes. -/
inductive QuotedBody (quote : Char) : List Char → List Char → Prop
  | nil : QuotedBody quote [] []
  | escape {c : Char} {body content : List Char} : QuotedBody quote body content →
      QuotedBody quote ('\\' :: c :: body) (Lexeme.escaped c ++ content)
  | plain {c : Char} {body content : List Char} : c ≠ quote → c ≠ '\\' →
      QuotedBody quote body content → QuotedBody quote (c :: body) (c :: content)

def Token.WrittenAs (w : List Char) : Token → Prop
  | .int n => Lexeme.IsWhole w ∧ Text.digitsValue 0 w = n
  | .decimal spelling => Lexeme.IsDecimal w ∧ String.ofList w = spelling
  | .string content => ∃ quote body, (quote = '"' ∨ quote = '\'') ∧
      w = quote :: (body ++ [quote]) ∧ QuotedBody quote body content.toList
  | .mark m => w = m.text.toList
  | t => Lexeme.IsWord w ∧ Token.ofWord (String.ofList w) = t

theorem Token.ofWord_cases (word : String) :
    (∃ k, ofWord word = .keyword k) ∨ (∃ b, ofWord word = .boolean b) ∨
      (ofWord word = .action word ∧ asciiLower word ∈ actionWords) ∨
      ofWord word = .ident word := by
  unfold ofWord
  split
  -- the keywords that are in capitals
  all_goals try exact Or.inl ⟨_, rfl⟩
  split
  · exact Or.inl ⟨_, rfl⟩
  · exact Or.inl ⟨_, rfl⟩
  · exact Or.inr (Or.inl ⟨_, rfl⟩)
  · exact Or.inr (Or.inl ⟨_, rfl⟩)
  · split
    · next h => exact Or.inr (Or.inr (Or.inl ⟨rfl, List.contains_iff_mem.mp h⟩))
    · exact Or.inr (Or.inr (Or.inr rfl))

namespace Lexeme

/-- A text that stands for nothing: a blank or a comment. -/
inductive IsGap : List Char → Prop
  | blank {c : Char} : Text.isBlank c = true → IsGap [c]
  | lineComment {body : List Char} : '\n' ∉ body → IsGap ('/' :: '/' :: body)
  | blockComment {body : List Char} : ¬['*', '/'] <:+: body →
      IsGap ('/' :: '*' :: (body ++ ['*', '/']))

def Fault.WrittenAs (w : List Char) : Fault → Prop
  | .illegalCharacter c => w = [c]
  | .unterminatedComment => ['/', '*'] <+: w
  | .unterminatedString => w = ['"'] ∨ w = ['\'']

def Meaning.WrittenAs (w : List Char) : Meaning → Prop
  | .gap => IsGap w
  | .token t => t.WrittenAs w
  | .fault f => f.WrittenAs w

theorem exists_body_of_commentBody {cs : List Char} {n : Nat} (h : (commentBody cs).1 = some n) :
    ∃ body, cs.take n = body ++ ['*', '/'] ∧ ¬['*', '/'] <:+: body := by
  fun_induction commentBody cs generalizing n with
  | case1 => cases h
  | case2 rest =>
      cases h
      exact ⟨[], rfl, by simp⟩
  | case3 c rest hopen length breaks hrest ih =>
      obtain ⟨n, hn, rfl⟩ := Option.map_eq_some_iff.mp h
      obtain ⟨body, htake, hbody⟩ := ih (by rw [hrest]; exact hn)
      refine ⟨c :: body, by rw [List.take_succ_cons, htake]; rfl, fun hinfix => ?_⟩
      rcases List.infix_cons_iff.mp hinfix with hprefix | hinfix
      · -- the mark would stand here already
        obtain ⟨tail, htail⟩ := hprefix
        obtain ⟨rfl, hcons⟩ := List.cons.inj htail
        have hrest : '/' :: (tail ++ ['*', '/']) <+: rest := by
          rw [show '/' :: (tail ++ ['*', '/']) = body ++ ['*', '/'] by rw [← hcons]; rfl, ← htake]
          exact List.take_prefix _ _
        obtain ⟨after, hafter⟩ := hrest
        exact hopen _ rfl hafter.symm
      · exact hbody hinfix

theorem exists_body_of_quotedContent {quote : Char} {cs content : List Char} {n breaks : Nat}
    (h : quotedContent quote cs = some (content, n, breaks)) :
    ∃ body, cs.take n = body ++ [quote] ∧ QuotedBody quote body content := by
  fun_induction quotedContent quote cs generalizing content n breaks with
  | case1 => cases h
  | case2 c rest ih =>
      obtain ⟨⟨content, n, breaks⟩, hn, hsome⟩ := Option.map_eq_some_iff.mp h
      cases hsome
      obtain ⟨body, htake, hbody⟩ := ih hn
      exact ⟨'\\' :: c :: body, by rw [List.take_succ_cons, List.take_succ_cons, htake]; rfl,
        hbody.escape⟩
  | case3 rest hplain =>
      cases h
      exact ⟨[], rfl, .nil⟩
  | case4 c rest hplain hquote ih =>
      obtain ⟨⟨content, n, breaks⟩, hn, hsome⟩ := Option.map_eq_some_iff.mp h
      cases hsome
      obtain ⟨body, htake, hbody⟩ := ih hn
      refine ⟨c :: body, by rw [List.take_succ_cons, htake]; rfl, hbody.plain hquote ?_⟩
      rintro rfl
      -- a backslash that escapes nothing is the last character, and no quote follows it
      cases rest with
      | nil => cases hn
      | cons d rest => exact hplain d rest rfl rfl

theorem take_length_of_begins {w cs : List Char} (h : w <+: cs) : cs.take w.length = w :=
  (List.prefix_iff_eq_take.mp h).symm

theorem comment?_writtenAs {c : Char} {cs : List Char} {front : Front}
    (h : comment? c cs = some front) : front.meaning.WrittenAs (c :: cs.take front.length) := by
  unfold comment? at h
  split at h
  · next rest =>
      cases h
      rw [Nat.add_comm, List.take_succ_cons, take_length_of_begins (List.takeWhile_prefix _)]
      refine IsGap.lineComment fun hmem => ?_
      simpa using List.mem_takeWhile_imp hmem
  · next rest =>
      split at h
      · next n breaks hbody =>
          cases h
          obtain ⟨body, htake, hmark⟩ := exists_body_of_commentBody (by rw [hbody])
          rw [Nat.add_comm, List.take_succ_cons, htake]
          exact IsGap.blockComment hmark
      · cases h
        exact ⟨rest, by rw [List.take_length]; rfl⟩
  · cases h

theorem wholeNumber_writtenAs {w : List Char} (h : IsWhole w) : (wholeNumber w).WrittenAs w := by
  unfold wholeNumber
  dsimp only
  split
  · exact ⟨h, rfl⟩
  · next hlarge => exact ⟨Or.inr ⟨h, Nat.lt_of_not_le hlarge⟩, rfl⟩

theorem number_writtenAs {c : Char} (hc : Text.isDigit c = true) (cs : List Char) :
    (number c cs).1.WrittenAs (c :: cs.take (number c cs).2) := by
  have hdigits : ∀ {xs : List Char}, ∀ d ∈ xs.takeWhile Text.isDigit, Text.isDigit d = true := by
    intro xs d hd
    exact List.mem_takeWhile_imp hd
  have hwhole : IsWhole (c :: cs.takeWhile Text.isDigit) :=
    ⟨List.cons_ne_nil _ _, List.forall_mem_cons.mpr ⟨hc, hdigits⟩⟩
  have htake := take_length_of_begins (List.takeWhile_prefix (l := cs) Text.isDigit)
  unfold number
  dsimp only
  split
  · next d rest hdrop =>
      split
      · next hd =>
          have hfraction : IsWhole (d :: rest.takeWhile Text.isDigit) :=
            ⟨List.cons_ne_nil _ _, List.forall_mem_cons.mpr ⟨hd, hdigits⟩⟩
          have hwritten : cs.takeWhile Text.isDigit ++ '.' :: d :: rest.takeWhile Text.isDigit <+:
              cs := by
            obtain ⟨after, hafter⟩ := List.takeWhile_prefix (l := rest) Text.isDigit
            refine ⟨after, ?_⟩
            rw [List.append_assoc, List.cons_append, List.cons_append, hafter, ← hdrop,
              List.takeWhile_append_dropWhile]
          have hlength : (cs.takeWhile Text.isDigit).length + 1 +
                (d :: rest.takeWhile Text.isDigit).length =
              (cs.takeWhile Text.isDigit ++ '.' :: d :: rest.takeWhile Text.isDigit).length := by
            simp only [List.length_append, List.length_cons]
            omega
          rw [hlength, take_length_of_begins hwritten]
          refine ⟨Or.inl ?_, rfl⟩
          exact ⟨_, _, rfl, hwhole, hfraction⟩
      · dsimp only
        rw [htake]
        exact wholeNumber_writtenAs hwhole
  · dsimp only
    rw [htake]
    exact wholeNumber_writtenAs hwhole

theorem mark?_writtenAs {c : Char} {cs : List Char} {m : Mark} {n : Nat}
    (h : mark? c cs = some (m, n)) : c :: cs.take n = m.text.toList := by
  unfold mark? at h
  split at h
  all_goals cases h
  all_goals rfl

theorem word_writtenAs {w : List Char} (h : IsWord w) :
    (Token.ofWord (String.ofList w)).WrittenAs w := by
  rcases Token.ofWord_cases (String.ofList w) with ⟨k, hk⟩ | ⟨b, hb⟩ | ⟨ha, _⟩ | hi
  · rw [hk]; exact ⟨h, hk⟩
  · rw [hb]; exact ⟨h, hb⟩
  · rw [ha]; exact ⟨h, ha⟩
  · rw [hi]; exact ⟨h, hi⟩

/-- **The first piece.** Whatever it stands for is written there. -/
theorem first_writtenAs (c : Char) (cs : List Char) :
    (first c cs).meaning.WrittenAs (c :: cs.take (first c cs).length) := by
  unfold first
  split
  · next front hfront => exact comment?_writtenAs hfront
  · split_ifs with hblank hquote hdigit hword
    · exact IsGap.blank hblank
    · split
      · next content n breaks hcontent =>
          obtain ⟨body, htake, hbody⟩ := exists_body_of_quotedContent hcontent
          refine ⟨c, body, hquote, by rw [htake], ?_⟩
          rwa [String.toList_ofList]
      · rcases hquote with rfl | rfl
        · exact Or.inl rfl
        · exact Or.inr rfl
    · exact number_writtenAs hdigit cs
    · split
      · next m n hmark => exact mark?_writtenAs hmark
      · dsimp only
        rw [take_length_of_begins (List.takeWhile_prefix _)]
        exact word_writtenAs ⟨hword, fun d hd => List.mem_takeWhile_imp hd⟩
    · split
      · next m n hmark => exact mark?_writtenAs hmark
      · exact rfl

theorem exists_first_of_mem_lexemes {cs : List Char} {l : Lexeme} (hl : l ∈ lexemes cs) :
    ∃ c rest, l = ⟨(first c rest).meaning, c :: rest.take (first c rest).length,
      (first c rest).breaks⟩ := by
  induction cs using lexemes_induction with
  | nil => simp [lexemes_nil] at hl
  | cons c cs ih =>
      rw [lexemes_cons, List.mem_cons] at hl
      rcases hl with hfirst | hl
      · exact ⟨c, cs, hfirst⟩
      · exact ih hl

theorem writtenAs_of_mem_lexemes {cs : List Char} {l : Lexeme} (hl : l ∈ lexemes cs) :
    l.text ≠ [] ∧ l.meaning.WrittenAs l.text := by
  obtain ⟨c, rest, rfl⟩ := exists_first_of_mem_lexemes hl
  exact ⟨List.cons_ne_nil _ _, first_writtenAs c rest⟩

/-! ## The line counter -/

theorem count_newline_cons (c : Char) (cs : List Char) :
    (c :: cs).count '\n' = cs.count '\n' + lineBreak c := by
  rw [List.count_cons, lineBreak]
  simp only [beq_iff_eq]

theorem lineBreak_of_ne {c : Char} (h : c ≠ '\n') : lineBreak c = 0 := if_neg h

/-- What is counted in a comment: the line breaks up to the closing mark, or to the end. -/
theorem breaks_commentBody (cs : List Char) :
    (commentBody cs).2 = (cs.take ((commentBody cs).1.getD cs.length)).count '\n' := by
  fun_induction commentBody cs with
  | case1 => rfl
  | case2 rest => rfl
  | case3 c rest hopen length breaks hrest ih =>
      rw [hrest] at ih
      have htake : (c :: rest).take ((length.map (· + 1)).getD (c :: rest).length) =
          c :: rest.take (length.getD rest.length) := by
        cases length <;> rfl
      rw [htake, count_newline_cons, ← ih]

/-- What is counted in a string: the line breaks up to its closing quote. -/
theorem breaks_quotedContent {quote : Char} (hquote : quote ≠ '\n') {cs content : List Char}
    {n breaks : Nat} (h : quotedContent quote cs = some (content, n, breaks)) :
    breaks = (cs.take n).count '\n' := by
  fun_induction quotedContent quote cs generalizing content n breaks with
  | case1 => cases h
  | case2 c rest ih =>
      obtain ⟨⟨content, n, breaks⟩, hn, hsome⟩ := Option.map_eq_some_iff.mp h
      cases hsome
      have hback : lineBreak '\\' = 0 := rfl
      rw [List.take_succ_cons, List.take_succ_cons, count_newline_cons, count_newline_cons, ← ih hn,
        hback, Nat.add_zero]
  | case3 rest hplain =>
      cases h
      rw [List.take_succ_cons, count_newline_cons, lineBreak_of_ne hquote]
      rfl
  | case4 c rest hplain hother ih =>
      obtain ⟨⟨content, n, breaks⟩, hn, hsome⟩ := Option.map_eq_some_iff.mp h
      cases hsome
      rw [List.take_succ_cons, count_newline_cons, ← ih hn]

theorem breaks_comment? {c : Char} {cs : List Char} {front : Front}
    (h : comment? c cs = some front) :
    front.breaks = (c :: cs.take front.length).count '\n' := by
  unfold comment? at h
  split at h
  · next rest =>
      cases h
      -- a line comment stops before the line break
      have hnone : '\n' ∉ rest.takeWhile (· != '\n') := fun hmem => by
        simpa using List.mem_takeWhile_imp hmem
      rw [Nat.add_comm, List.take_succ_cons, take_length_of_begins (List.takeWhile_prefix _)]
      exact (List.count_eq_zero.mpr (by simpa using hnone)).symm
  · next rest =>
      have hcounted := breaks_commentBody rest
      split at h
      · next n breaks hbody =>
          cases h
          rw [hbody] at hcounted
          rw [Nat.add_comm, List.take_succ_cons, count_newline_cons, count_newline_cons]
          exact hcounted
      · next breaks hbody =>
          cases h
          rw [hbody, Option.getD_none, List.take_length] at hcounted
          rw [List.take_length, count_newline_cons, count_newline_cons]
          exact hcounted
  · cases h

theorem number_kind (c : Char) (cs : List Char) :
    (∃ n, (number c cs).1 = .int n) ∨ ∃ spelling, (number c cs).1 = .decimal spelling := by
  have hwhole (w : List Char) :
      (∃ n, wholeNumber w = .int n) ∨ ∃ spelling, wholeNumber w = .decimal spelling := by
    unfold wholeNumber
    dsimp only
    split
    · exact Or.inl ⟨_, rfl⟩
    · exact Or.inr ⟨_, rfl⟩
  unfold number
  dsimp only
  split
  · split
    · exact Or.inr ⟨_, rfl⟩
    · exact hwhole _
  · exact hwhole _

theorem newline_notMem_number {c : Char} (hc : Text.isDigit c = true) (cs : List Char) :
    '\n' ∉ c :: cs.take (number c cs).2 := by
  have hwritten := number_writtenAs hc cs
  rcases number_kind c cs with ⟨n, hn⟩ | ⟨spelling, hs⟩
  · rw [hn] at hwritten
    exact newline_notMem_whole hwritten.1
  · rw [hs] at hwritten
    exact newline_notMem_decimal hwritten.1

theorem newline_notMem_mark {c : Char} {cs : List Char} {m : Mark} {n : Nat}
    (h : mark? c cs = some (m, n)) : '\n' ∉ c :: cs.take n := by
  rw [mark?_writtenAs h]
  cases m <;> decide

/-- **The line counter.** Over the first piece it moves by the line breaks in it. -/
theorem breaks_first (c : Char) (cs : List Char) :
    (first c cs).breaks = (c :: cs.take (first c cs).length).count '\n' := by
  unfold first
  split
  · next front hfront => exact breaks_comment? hfront
  · split_ifs with hblank hquote hdigit hword
    · rw [List.take_zero, count_newline_cons]
      exact (Nat.zero_add _).symm
    · have hne : c ≠ '\n' := by rcases hquote with rfl | rfl <;> decide
      split
      · next content n breaks hcontent =>
          rw [count_newline_cons, ← breaks_quotedContent hne hcontent, lineBreak_of_ne hne]
          rfl
      · rw [List.take_zero, count_newline_cons, lineBreak_of_ne hne]
        rfl
    · exact (List.count_eq_zero.mpr (newline_notMem_number hdigit cs)).symm
    · split
      · next m n hmark => exact (List.count_eq_zero.mpr (newline_notMem_mark hmark)).symm
      · dsimp only
        rw [take_length_of_begins (List.takeWhile_prefix _)]
        have hrow : IsWord (c :: cs.takeWhile continuesWord) :=
          ⟨hword, fun d hd => List.mem_takeWhile_imp hd⟩
        exact (List.count_eq_zero.mpr (newline_notMem_word hrow)).symm
    · have hne : c ≠ '\n' := by rintro rfl; exact hblank rfl
      split
      · next m n hmark => exact (List.count_eq_zero.mpr (newline_notMem_mark hmark)).symm
      · rw [List.take_zero, count_newline_cons, lineBreak_of_ne hne]
        rfl

theorem breaks_eq_count {cs : List Char} {l : Lexeme} (hl : l ∈ lexemes cs) :
    l.breaks = l.text.count '\n' := by
  obtain ⟨c, rest, rfl⟩ := exists_first_of_mem_lexemes hl
  exact breaks_first c rest

/-- Behind pieces that are counted right, the counter has moved by all their line breaks. -/
theorem lineBehind_eq {ls : List Lexeme} (h : ∀ l ∈ ls, l.breaks = l.text.count '\n')
    (line : Nat) : lineBehind line ls = line + (ls.flatMap text).count '\n' := by
  induction ls generalizing line with
  | nil => rfl
  | cons l ls ih =>
      rw [lineBehind, ih fun l hl => h l (List.mem_cons_of_mem _ hl), List.flatMap_cons,
        List.count_append, h l List.mem_cons_self, Nat.add_assoc]

theorem lineBehind_lexemes (line : Nat) (cs : List Char) :
    lineBehind line (lexemes cs) = line + cs.count '\n' := by
  rw [lineBehind_eq (fun _ => breaks_eq_count), flatMap_text_lexemes]

end Lexeme
end AccessPolicy
