import AccessPolicy.Proofs.LineNumbers

/-!
# Lexing line by line

No piece but an open string or comment looks past a line break: what a text gives is not changed
by what stands on the lines after it, and those give what they give by themselves, further down
(`TokenStream.scan_append_line`).
-/

namespace AccessPolicy

open Lexeme

namespace Lexeme

/-! ## Pieces before a line break -/

section
variable {p : Char → Bool} (cs rest : List Char)

theorem takeWhile_append_newline (hp : p '\n' = false) :
    (cs ++ '\n' :: rest).takeWhile p = cs.takeWhile p := by
  induction cs with
  | nil => exact List.takeWhile_cons_of_neg (by simp [hp])
  | cons c cs ih =>
      rw [List.cons_append, List.takeWhile_cons, List.takeWhile_cons, ih]

theorem dropWhile_append_newline (hp : p '\n' = false) :
    (cs ++ '\n' :: rest).dropWhile p = cs.dropWhile p ++ '\n' :: rest := by
  induction cs with
  | nil => exact List.dropWhile_cons_of_neg (by simp [hp])
  | cons c cs ih =>
      rw [List.cons_append, List.dropWhile_cons, List.dropWhile_cons, ih]
      split <;> rfl

end

theorem commentBody_append {cs : List Char} {n breaks : Nat}
    (h : commentBody cs = (some n, breaks)) (rest : List Char) :
    commentBody (cs ++ rest) = (some n, breaks) := by
  fun_induction commentBody cs generalizing n breaks with
  | case1 => cases h
  | case2 => exact h
  | case3 c cs hopen length counted hcs ih =>
      cases length with
      | none => cases h
      | some m =>
          -- something follows `c`, so what closes the comment is not cut in two
          cases cs with
          | nil => cases hcs
          | cons d cs =>
              rw [List.cons_append, commentBody.eq_3 _ _ fun tail hc htail => hopen cs hc
                (by rw [(List.cons.inj htail).1]), ih hcs]
              exact h

theorem commentBody_le {cs : List Char} {n : Nat} (h : (commentBody cs).1 = some n) :
    n ≤ cs.length := by
  fun_induction commentBody cs generalizing n with
  | case1 => cases h
  | case2 =>
      cases h
      simp
  | case3 c cs hopen length counted hcs ih =>
      obtain ⟨n, hn, rfl⟩ := Option.map_eq_some_iff.mp h
      exact Nat.succ_le_succ (ih (by rw [hcs]; exact hn))

theorem quotedContent_append {quote : Char} (hquote : quote ≠ '\\') {cs : List Char}
    {found : List Char × Nat × Nat} (h : quotedContent quote cs = some found) (rest : List Char) :
    quotedContent quote (cs ++ rest) = some found := by
  fun_induction quotedContent quote cs generalizing found with
  | case1 => cases h
  | case2 c cs ih =>
      obtain ⟨_, hn, rfl⟩ := Option.map_eq_some_iff.mp h
      rw [List.cons_append, List.cons_append, quotedContent, ih hn]
      rfl
  | case3 cs hplain =>
      rw [List.cons_append, quotedContent.eq_3 _ _ _ fun _ _ hc _ => hquote hc, if_pos rfl, h]
  | case4 c cs hplain hother ih =>
      obtain ⟨_, hn, rfl⟩ := Option.map_eq_some_iff.mp h
      -- something follows `c`, so `c` is no backslash that begins an escape
      cases cs with
      | nil => cases hn
      | cons d cs =>
          rw [List.cons_append, quotedContent.eq_3 _ _ _ fun _ _ hc _ => hplain d cs hc rfl,
            if_neg hother, ih hn]
          rfl

theorem quotedContent_le {quote : Char} {cs : List Char} {found : List Char × Nat × Nat}
    (h : quotedContent quote cs = some found) : found.2.1 ≤ cs.length := by
  fun_induction quotedContent quote cs generalizing found with
  | case1 => cases h
  | case2 c cs ih =>
      obtain ⟨_, hn, rfl⟩ := Option.map_eq_some_iff.mp h
      exact Nat.succ_le_succ (Nat.succ_le_succ (ih hn))
  | case3 cs hplain =>
      cases h
      simp
  | case4 c cs hplain hquote ih =>
      obtain ⟨_, hn, rfl⟩ := Option.map_eq_some_iff.mp h
      exact Nat.succ_le_succ (ih hn)

theorem number_append_newline (c : Char) (cs rest : List Char) :
    number c (cs ++ '\n' :: rest) = number c cs := by
  unfold number
  rw [takeWhile_append_newline cs rest (by decide), dropWhile_append_newline cs rest (by decide)]
  dsimp only
  rcases cs.dropWhile Text.isDigit with _ | ⟨d, _ | ⟨e, es⟩⟩
  · rfl
  · -- a point would be the last character, and a line break is no digit
    by_cases hd : d = '.'
    · subst hd
      rfl
    · simp [hd]
  · by_cases hd : d = '.'
    · subst hd
      have hmore := takeWhile_append_newline (p := Text.isDigit) es rest (by decide)
      simp only [List.cons_append, hmore]
    · simp [hd]

theorem number_le (c : Char) (cs : List Char) : (number c cs).2 ≤ cs.length := by
  have hlength : (cs.takeWhile Text.isDigit).length + (cs.dropWhile Text.isDigit).length =
      cs.length := by
    rw [← List.length_append, List.takeWhile_append_dropWhile]
  unfold number
  dsimp only
  split
  · next d rest hdrop =>
      have := List.IsPrefix.length_le (List.takeWhile_prefix (l := rest) Text.isDigit)
      rw [hdrop] at hlength
      simp only [List.length_cons] at hlength
      split
      · simp only [List.length_cons]
        omega
      · dsimp only
        omega
  · dsimp only
    omega

/-- Whether a mark has two characters is told by the second of them. -/
theorem mark?_congr {c : Char} {cs cs' : List Char}
    (h : (∃ tail, cs = '=' :: tail) ↔ ∃ tail, cs' = '=' :: tail) : mark? c cs = mark? c cs' := by
  unfold mark?
  split
  all_goals try rfl
  all_goals split
  all_goals simp_all

theorem mark?_append_newline (c : Char) (cs rest : List Char) :
    mark? c (cs ++ '\n' :: rest) = mark? c cs := by
  apply mark?_congr
  cases cs <;> simp

theorem mark?_le {c : Char} {cs : List Char} {m : Mark} {n : Nat}
    (h : mark? c cs = some (m, n)) : n ≤ cs.length := by
  unfold mark? at h
  split at h
  all_goals cases h
  all_goals simp

theorem comment?_append_newline (c : Char) (cs rest : List Char)
    (h : ∀ front, comment? c cs = some front → front.meaning ≠ .fault .unterminatedComment) :
    comment? c (cs ++ '\n' :: rest) = comment? c cs := by
  rcases cs with _ | ⟨d, ds⟩
  · simp [comment?]
  by_cases hline : c = '/' ∧ d = '/'
  · obtain ⟨rfl, rfl⟩ := hline
    rw [List.cons_append, comment?, comment?, takeWhile_append_newline ds rest (by decide)]
  by_cases hblock : c = '/' ∧ d = '*'
  · obtain ⟨rfl, rfl⟩ := hblock
    rw [List.cons_append, comment?, comment?]
    rcases hbody : commentBody ds with ⟨_ | n, breaks⟩
    · exact absurd rfl (h _ (by rw [comment?, hbody]))
    · rw [commentBody_append hbody]
  · rw [List.cons_append, comment?, comment?]
    all_goals rintro tail rfl hd
    all_goals simp_all

theorem comment?_le {c : Char} {cs : List Char} {front : Front} (h : comment? c cs = some front) :
    front.length ≤ cs.length := by
  unfold comment? at h
  split at h
  · next rest =>
      cases h
      have := List.IsPrefix.length_le (List.takeWhile_prefix (l := rest) (· != '\n'))
      rw [List.length_cons]
      dsimp only
      omega
  · split at h
    · next hbody =>
        cases h
        have := commentBody_le (congrArg Prod.fst hbody)
        rw [List.length_cons]
        dsimp only
        omega
    · cases h
      exact Nat.le_refl _
  · cases h

/-- The piece is not a string or a comment that is left open. -/
def Meaning.Closed (m : Meaning) : Prop :=
  m ≠ .fault .unterminatedString ∧ m ≠ .fault .unterminatedComment

/-- **No closed piece looks past a line break.** -/
theorem first_append_newline {c : Char} {cs : List Char} (h : (first c cs).meaning.Closed)
    (rest : List Char) : first c (cs ++ '\n' :: rest) = first c cs := by
  have hcomment := comment?_append_newline c cs rest fun front hfront => by
    unfold first at h
    rw [hfront] at h
    exact h.2
  unfold first at h ⊢
  rw [hcomment]
  split
  · rfl
  · next hnone =>
    rw [hnone] at h
    dsimp only at h
    rw [mark?_append_newline, number_append_newline, takeWhile_append_newline _ _ (by decide)]
    split_ifs with hblank hquote
    · rfl
    · rw [if_neg hblank, if_pos hquote] at h
      have hescape : c ≠ '\\' := by
        rcases hquote with rfl | rfl <;> decide
      split at h
      · next hcontent => rw [quotedContent_append hescape hcontent]
      · exact absurd rfl h.1
    all_goals rfl

theorem first_le (c : Char) (cs : List Char) : (first c cs).length ≤ cs.length := by
  unfold first
  split
  · next front hfront => exact comment?_le hfront
  · split_ifs with hblank hquote hdigit hword
    · exact Nat.zero_le _
    · split
      · next hcontent => exact quotedContent_le hcontent
      · exact Nat.zero_le _
    · exact number_le c cs
    · split
      · next m n hmark => exact mark?_le hmark
      · exact List.IsPrefix.length_le (List.takeWhile_prefix _)
    · split
      · next m n hmark => exact mark?_le hmark
      · exact Nat.zero_le _

/-! ## The pieces of two texts -/

theorem first_newline (cs : List Char) : first '\n' cs = ⟨.gap, 0, 1⟩ := by
  unfold first
  rw [comment?_of_ne (by decide)]
  rfl

/-- The pieces before a line break, the line break, and the pieces after it. -/
theorem lexemes_append_newline {cs : List Char} (h : ∀ l ∈ lexemes cs, l.meaning.Closed)
    (rest : List Char) :
    lexemes (cs ++ '\n' :: rest) = lexemes cs ++ ⟨.gap, ['\n'], 1⟩ :: lexemes rest := by
  induction cs using lexemes_induction with
  | nil =>
      rw [List.nil_append, lexemes_cons, first_newline, lexemes_nil]
      rfl
  | cons c cs ih =>
      rw [lexemes_cons] at h
      have hfirst := first_append_newline (h _ List.mem_cons_self) rest
      have hrest := ih fun l hl => h l (List.mem_cons_of_mem _ hl)
      have hle := first_le c cs
      rw [List.cons_append, lexemes_cons, lexemes_cons, hfirst, List.take_append_of_le_length hle,
        List.drop_append_of_le_length hle, hrest, List.cons_append]

theorem exists_mem_faults {ls : List Lexeme} {l : Lexeme} {f : Fault} (hl : l ∈ ls)
    (hf : l.meaning = .fault f) (start : Nat) : ∃ d ∈ faults start ls, d.message = f.message := by
  induction ls generalizing start with
  | nil => cases hl
  | cons first ls ih =>
      rw [faults_eq_onLines, onLines, ← faults_eq_onLines]
      rcases List.mem_cons.mp hl with rfl | hl
      · rw [hf]
        exact ⟨_, List.mem_cons_self, rfl⟩
      · obtain ⟨d, hd, hmessage⟩ := ih hl (start + first.breaks)
        exact ⟨d, List.mem_append_right _ hd, hmessage⟩

section
variable {β : Type} (f : Nat → Meaning → Option β)

theorem onLines_add {k : Nat} {down : β → β}
    (hdown : ∀ line m, f (line + k) m = (f line m).map down) (line : Nat) (ls : List Lexeme) :
    onLines f (line + k) ls = (onLines f line ls).map down := by
  induction ls generalizing line with
  | nil => rfl
  | cons l ls ih =>
      rw [onLines, onLines, hdown, Nat.add_right_comm, ih, List.map_append]
      cases f line l.meaning <;> rfl

theorem onLines_append_newline (down : Nat → β → β) (hgap : ∀ line, f line .gap = none)
    (hdown : ∀ k line m, f (line + k) m = (f line m).map (down k)) (cs : List Char)
    (ls : List Lexeme) :
    onLines f 1 (lexemes cs ++ ⟨.gap, ['\n'], 1⟩ :: ls) =
      onLines f 1 (lexemes cs) ++ (onLines f 1 ls).map (down (1 + cs.count '\n')) := by
  rw [onLines_append, lineBehind_lexemes, onLines, hgap, Option.toList_none, List.nil_append,
    Nat.add_assoc, Nat.add_comm (cs.count '\n'), onLines_add f (hdown _)]

end
end Lexeme

/-! ## Texts further down -/

/-- The same token `k` lines further down. -/
def Located.down (k : Nat) (t : Located) : Located := { t with line := t.line + k }

def Diagnostic.down (k : Nat) (d : Diagnostic) : Diagnostic := { d with line := d.line + k }

namespace TokenStream

/-- No string and no block comment of the text is reported as unterminated. -/
def LeavesNoneOpen (source : String) : Prop :=
  ∀ d ∈ (scan source).2,
    d.message ≠ Fault.unterminatedString.message ∧ d.message ≠ Fault.unterminatedComment.message

instance (source : String) : Decidable (LeavesNoneOpen source) :=
  inferInstanceAs (Decidable (∀ d ∈ (scan source).2, _))

theorem LeavesNoneOpen.closed {source : String} (h : LeavesNoneOpen source) :
    ∀ l ∈ lexemes source.toList, l.meaning.Closed := by
  intro l hl
  constructor
  · intro hf
    obtain ⟨d, hd, hmessage⟩ := exists_mem_faults hl hf 1
    exact (h d hd).1 hmessage
  · intro hf
    obtain ⟨d, hd, hmessage⟩ := exists_mem_faults hl hf 1
    exact (h d hd).2 hmessage

/-- **Lexing is local.** After a text that leaves no string and no block comment open, and a line
break, another text gives the tokens and the faults that it gives by itself, on lines further down
by the line breaks before it; and the first text gives what it gives by itself. -/
theorem scan_append_line (s t : String) (h : LeavesNoneOpen s) :
    scan (s ++ "\n" ++ t) =
      (⟨(scan s).1.tokens ++ (scan t).1.tokens.map (Located.down (1 + s.toList.count '\n')),
          (scan t).1.endLine + (1 + s.toList.count '\n')⟩,
        (scan s).2 ++ (scan t).2.map (Diagnostic.down (1 + s.toList.count '\n'))) := by
  have hchars : (s ++ "\n" ++ t).toList = s.toList ++ '\n' :: t.toList := by simp
  have hpieces := lexemes_append_newline h.closed t.toList
  have htokens := onLines_append_newline Meaning.token? Located.down
    (fun line => rfl) (fun k line m => by cases m <;> rfl) s.toList (lexemes t.toList)
  have hfaults := onLines_append_newline Meaning.fault? Diagnostic.down
    (fun line => rfl) (fun k line m => by cases m <;> rfl) s.toList (lexemes t.toList)
  have hend : lineBehind 1 (lexemes (s.toList ++ '\n' :: t.toList)) =
      lineBehind 1 (lexemes t.toList) + (1 + s.toList.count '\n') := by
    rw [lineBehind_lexemes, lineBehind_lexemes, List.count_append, List.count_cons_self]
    omega
  unfold scan
  dsimp only
  rw [hchars, hend, hpieces]
  simp only [tokens_eq_onLines, faults_eq_onLines, htokens, hfaults]

/-- An illegal character, a closed string over two lines and a comment at the end, before a line
that ends in an open string. -/
theorem scan_append_line_illegal :
    LeavesNoneOpen "ROLE @ 'a\nb' 1. //" ∧
      scan ("ROLE @ 'a\nb' 1. //" ++ "\n" ++ "5 \"x") =
        (⟨[⟨.keyword .role, 1⟩, ⟨.string "a\nb", 1⟩, ⟨.int 1, 2⟩, ⟨.mark .dot, 2⟩, ⟨.int 5, 3⟩,
            ⟨.ident "x", 3⟩], 3⟩,
          [⟨1, .error, "illegal character '@'", .lexical⟩,
            ⟨3, .error, "unterminated string literal", .lexical⟩]) := by
  have hopen : LeavesNoneOpen "ROLE @ 'a\nb' 1. //" := by decide +kernel
  refine ⟨hopen, (scan_append_line _ _ hopen).trans ?_⟩
  decide +kernel

end TokenStream
end AccessPolicy
