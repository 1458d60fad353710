import AccessPolicy.Proofs.Tokens

/-!
# Line numbers

Every piece of a text has a start: the number of characters before it. The piece is written
there, and a token or a fault is on the line of its start, one more than the number of line breaks
before it (`TokenStream.scan_at_starts`).
-/

namespace AccessPolicy

open Lexeme

namespace Lexeme

/-! ## What pieces stand for, by line -/

def Meaning.token? (line : Nat) : Meaning → Option Located
  | .token t => some ⟨t, line⟩
  | _ => none

def Meaning.fault? (line : Nat) : Meaning → Option Diagnostic
  | .fault f => some ⟨line, .error, f.message, .lexical⟩
  | _ => none

section
variable {β : Type} (f : Nat → Meaning → Option β)

/-- What `f` makes of some pieces, the first of which starts on `line`. -/
def onLines (line : Nat) : List Lexeme → List β
  | [] => []
  | l :: rest => (f line l.meaning).toList ++ onLines (line + l.breaks) rest

theorem onLines_append (line : Nat) (ls ls' : List Lexeme) :
    onLines f line (ls ++ ls') = onLines f line ls ++ onLines f (lineBehind line ls) ls' := by
  induction ls generalizing line with
  | nil => rfl
  | cons l ls ih => rw [List.cons_append, onLines, onLines, ih, List.append_assoc, lineBehind]

end

theorem tokens_eq_onLines (line : Nat) (ls : List Lexeme) :
    tokens line ls = onLines Meaning.token? line ls := by
  induction ls generalizing line with
  | nil => rfl
  | cons l ls ih =>
      unfold tokens onLines
      cases l.meaning <;> simp [ih, Meaning.token?]

theorem faults_eq_onLines (line : Nat) (ls : List Lexeme) :
    faults line ls = onLines Meaning.fault? line ls := by
  induction ls generalizing line with
  | nil => rfl
  | cons l ls ih =>
      unfold faults onLines
      cases l.meaning <;> simp [ih, Meaning.fault?]

end Lexeme

/-! ## Where pieces start -/

/-- A piece of a text, and the number of characters before it. -/
structure Placed where
  start : Nat
  piece : Lexeme

namespace Placed

/-- One more than the number of line breaks before the piece. -/
def line (cs : List Char) (x : Placed) : Nat := 1 + (cs.take x.start).count '\n'

def token? (cs : List Char) (x : Placed) : Option Located := x.piece.meaning.token? (x.line cs)

def fault? (cs : List Char) (x : Placed) : Option Diagnostic := x.piece.meaning.fault? (x.line cs)

/-- The piece stands in the text where it starts, and is written as what it stands for. -/
structure StandsIn (cs : List Char) (x : Placed) : Prop where
  text : x.piece.text <+: cs.drop x.start
  written : x.piece.meaning.WrittenAs x.piece.text

theorem line_le_line (cs : List Char) {x y : Placed} (h : x.start ≤ y.start) :
    x.line cs ≤ y.line cs :=
  Nat.add_le_add_left ((List.take_prefix_take_left h).sublist.count_le _) 1

end Placed

namespace Lexeme

/-- Some pieces, the first of which has `start` characters before it. -/
def placed (start : Nat) : List Lexeme → List Placed
  | [] => []
  | l :: rest => ⟨start, l⟩ :: placed (start + l.text.length) rest

theorem map_piece_placed (start : Nat) (ls : List Lexeme) :
    (placed start ls).map Placed.piece = ls := by
  induction ls generalizing start with
  | nil => rfl
  | cons l ls ih => rw [placed, List.map_cons, ih]

theorem le_start_of_mem_placed {start : Nat} {ls : List Lexeme} {x : Placed}
    (h : x ∈ placed start ls) : start ≤ x.start := by
  induction ls generalizing start with
  | nil => cases h
  | cons l ls ih =>
      rcases List.mem_cons.mp h with rfl | h
      · exact Nat.le_refl _
      · exact Nat.le_of_add_right_le (ih h)

theorem pairwise_placed {ls : List Lexeme} (h : ∀ l ∈ ls, l.text ≠ []) (start : Nat) :
    (placed start ls).Pairwise fun x y => x.start < y.start := by
  induction ls generalizing start with
  | nil => exact List.Pairwise.nil
  | cons l ls ih =>
      refine List.pairwise_cons.mpr
        ⟨fun x hx => ?_, ih (fun l hl => h l (List.mem_cons_of_mem _ hl)) _⟩
      have hlength : 0 < l.text.length := List.length_pos_iff.mpr (h l List.mem_cons_self)
      have := le_start_of_mem_placed hx
      dsimp only
      omega

section
variable {cs : List Char} (before : List Char) {ls : List Lexeme}

theorem text_prefix_of_mem_placed (hcs : cs = before ++ ls.flatMap text) {x : Placed}
    (hx : x ∈ placed before.length ls) : x.piece.text <+: cs.drop x.start := by
  induction ls generalizing before with
  | nil => cases hx
  | cons l ls ih =>
      rcases List.mem_cons.mp hx with rfl | hx
      · rw [hcs, List.drop_left, List.flatMap_cons]
        exact List.prefix_append _ _
      · refine ih (before ++ l.text) ?_ ?_
        · rw [hcs, List.flatMap_cons, List.append_assoc]
        · rwa [List.length_append]

/-- The line that is counted on from piece to piece is the line of each piece's start. -/
theorem onLines_eq_filterMap_placed {β : Type} (f : Nat → Meaning → Option β)
    (hcs : cs = before ++ ls.flatMap text) (hls : ∀ l ∈ ls, l.breaks = l.text.count '\n') :
    onLines f (1 + before.count '\n') ls =
      (placed before.length ls).filterMap fun x => f (x.line cs) x.piece.meaning := by
  induction ls generalizing before with
  | nil => rfl
  | cons l ls ih =>
      have hrest := ih (before ++ l.text) (by rw [hcs, List.flatMap_cons, List.append_assoc])
        fun l hl => hls l (List.mem_cons_of_mem _ hl)
      rw [List.count_append, List.length_append, ← Nat.add_assoc] at hrest
      have hline : (⟨before.length, l⟩ : Placed).line cs = 1 + before.count '\n' := by
        unfold Placed.line
        rw [hcs, List.take_left]
      rw [onLines, placed, List.filterMap_cons, hline, hls l List.mem_cons_self, hrest]
      cases f (1 + before.count '\n') l.meaning <;> rfl

end
end Lexeme

/-! ## The lines of a text -/

namespace TokenStream

def places (source : String) : List Placed := Lexeme.placed 0 (Lexeme.lexemes source.toList)

theorem standsIn_of_mem_places {source : String} {x : Placed} (hx : x ∈ places source) :
    x.StandsIn source.toList where
  text := text_prefix_of_mem_placed [] (flatMap_text_lexemes _).symm hx
  written := by
    have hpiece : x.piece ∈ lexemes source.toList := by
      rw [← map_piece_placed 0 (lexemes source.toList)]
      exact List.mem_map_of_mem hx
    exact (writtenAs_of_mem_lexemes hpiece).2

theorem pairwise_places (source : String) :
    (places source).Pairwise fun x y => x.start < y.start :=
  pairwise_placed (fun _ hl => (writtenAs_of_mem_lexemes hl).1) 0

theorem tokens_scan (source : String) :
    (scan source).1.tokens = (places source).filterMap (Placed.token? source.toList) := by
  show Lexeme.tokens 1 (lexemes source.toList) = _
  rw [tokens_eq_onLines]
  exact onLines_eq_filterMap_placed [] _ (flatMap_text_lexemes _).symm fun _ => breaks_eq_count

theorem faults_scan (source : String) :
    (scan source).2 = (places source).filterMap (Placed.fault? source.toList) := by
  show Lexeme.faults 1 (lexemes source.toList) = _
  rw [faults_eq_onLines]
  exact onLines_eq_filterMap_placed [] _ (flatMap_text_lexemes _).symm fun _ => breaks_eq_count

theorem pairwise_line_of_filterMap {β : Type} (source : String)
    {f : Nat → Lexeme.Meaning → Option β} {lineOf : β → Nat}
    (hf : ∀ line m b, f line m = some b → lineOf b = line) :
    ((places source).filterMap fun x => f (x.line source.toList) x.piece.meaning).Pairwise
      fun a b => lineOf a ≤ lineOf b := by
  refine List.pairwise_filterMap.mpr ((pairwise_places source).imp fun {x y} hlt a ha b hb => ?_)
  rw [hf _ _ _ ha, hf _ _ _ hb]
  exact Placed.line_le_line _ (Nat.le_of_lt hlt)

/-- **Line numbers are exact.** A text is cut into pieces, each written where it starts, and their
starts go up strictly. The tokens and the faults are what these pieces stand for, each on one more
than the number of line breaks before its start, so that lines never go down; and the text ends on
one more than the number of all its line breaks. -/
theorem scan_at_starts (source : String) :
    (places source).flatMap (fun x => x.piece.text) = source.toList ∧
      (∀ x ∈ places source, x.StandsIn source.toList) ∧
      ((places source).Pairwise fun x y => x.start < y.start) ∧
      (scan source).1.tokens = (places source).filterMap (Placed.token? source.toList) ∧
      (scan source).2 = (places source).filterMap (Placed.fault? source.toList) ∧
      (scan source).1.endLine = 1 + source.toList.count '\n' ∧
      ((scan source).1.tokens.Pairwise fun t u => t.line ≤ u.line) ∧
      ((scan source).2.Pairwise fun d e => d.line ≤ e.line) := by
  refine ⟨?_, fun _ => standsIn_of_mem_places, pairwise_places source, tokens_scan source,
    faults_scan source, lineBehind_lexemes 1 _, ?_, ?_⟩
  · have hpieces := map_piece_placed 0 (lexemes source.toList)
    rw [← List.flatMap_map (f := Placed.piece)]
    unfold places
    rw [hpieces, flatMap_text_lexemes]
  · rw [tokens_scan]
    refine pairwise_line_of_filterMap source fun line m t ht => ?_
    cases m <;> cases ht
    rfl
  · rw [faults_scan]
    refine pairwise_line_of_filterMap source fun line m d hd => ?_
    cases m <;> cases hd
    rfl

/-- A string with an escaped line break, a comment over two lines, and a quote that is not closed:
the line break behind that is counted once. -/
example :
    scan "'a\\\nb' 1 /*\n*/ 2 \"x\n3" =
      (⟨[⟨.string "a\\\nb", 1⟩, ⟨.int 1, 2⟩, ⟨.int 2, 3⟩, ⟨.ident "x", 3⟩, ⟨.int 3, 4⟩], 4⟩,
        [⟨3, .error, "unterminated string literal", .lexical⟩]) := by
  decide +kernel

end TokenStream
end AccessPolicy
