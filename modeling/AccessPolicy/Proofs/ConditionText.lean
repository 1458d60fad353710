import AccessPolicy.Expr.Text
import AccessPolicy.Proofs.ExprGrammar
import AccessPolicy.Proofs.Tokens

/-!
# Condition text is read back

The text of an expression is read again as that expression, on the one line that
the text has. The words and numbers of the expression have to be ones that the
lexer returns as one token; its strings may be any.
-/

namespace AccessPolicy

open Lexeme

/-! ## Writable expressions -/

/-- The literal is one that the lexer makes a token of. -/
def Literal.Writable : Literal → Prop
  | .int n => n ≤ greatestInt
  | .decimal spelling => TokenStream.ReadsAs spelling (.decimal spelling)
  | _ => True

namespace Expr

/-- Every name of the expression is a plain identifier and every number of it one
number token. -/
def Writable : Expr → Prop
  | .binary _ left right _ => Writable left ∧ Writable right
  | .not operand _ => Writable operand
  | .attribute object field _ =>
    TokenStream.ReadsAs object (.ident object) ∧ TokenStream.ReadsAs field (.ident field)
  | .literal value _ => value.Writable

def onLine (n : Nat) : Expr → Expr
  | .binary op left right _ => .binary op (onLine n left) (onLine n right) n
  | .not operand _ => .not (onLine n operand) n
  | .attribute object field _ => .attribute object field n
  | .literal value _ => .literal value n

/-- The expressions differ in their lines at most. -/
def SameButLines (e f : Expr) : Prop := e.onLine 1 = f.onLine 1

attribute [local simp] onLine conditionText

theorem onLine_onLine (e : Expr) (n m : Nat) : (e.onLine m).onLine n = e.onLine n := by
  induction e with
  | binary op left right line ihLeft ihRight => simp [ihLeft, ihRight]
  | not operand line ih => simp [ih]
  | «attribute» object field line => rfl
  | literal value line => rfl

theorem conditionText_onLine (e : Expr) (n : Nat) :
    (e.onLine n).conditionText = e.conditionText := by
  induction e with
  | binary op left right line ihLeft ihRight => simp [ihLeft, ihRight]
  | not operand line ih => simp [ih]
  | «attribute» object field line => rfl
  | literal value line => rfl

theorem onLine_sameButLines (e : Expr) (n : Nat) : SameButLines (e.onLine n) e :=
  onLine_onLine e 1 n

end Expr

/-! ## The tokens of an expression -/

def Literal.token : Literal → Token
  | .string s => .string s
  | .int n => .int n
  | .decimal spelling => .decimal spelling
  | .bool b => .boolean b

theorem Literal.isLiteral_token (v : Literal) : v.token.IsLiteral v := by
  cases v <;> constructor

namespace Expr

def tokens : Expr → List Token
  | .binary op left right _ =>
    .mark .leftParen :: (tokens left ++ op.token :: tokens right ++ [.mark .rightParen])
  | .not operand _ => .mark .leftParen :: .keyword .not :: (tokens operand ++ [.mark .rightParen])
  | .attribute object field _ => [.ident object, .mark .dot, .ident field]
  | .literal value _ => [value.token]

theorem spelled_tokens (e : Expr) (n : Nat) :
    Spelled .operand (e.tokens.map (⟨·, n⟩)) (e.onLine n) := by
  induction e with
  | binary op left right line ihLeft ihRight =>
      have hop : op.layer.IsOperator op.token op := ⟨rfl, rfl⟩
      have hbinary := Spelled.binary (n := n) (ihLeft.of_operand _) hop (ihRight.of_operand _)
      have hparens := Spelled.parens (n := n) (m := n) hbinary.disjunction
      simpa [tokens, onLine] using hparens
  | not operand line ih =>
      have hnot := Spelled.not (n := n) (ih.of_operand .negation)
      have hparens := Spelled.parens (n := n) (m := n) hnot.disjunction
      simpa [tokens, onLine] using hparens
  | «attribute» object field line => exact .access object field n n n
  | literal value line => exact .literal value.isLiteral_token

end Expr

/-! ## The pieces of the text -/

namespace Lexeme

theorem senses_blank (rest : List Char) :
    senses (lexemes (' ' :: rest)) = senses (lexemes rest) := by
  have hfirst : first ' ' rest = ⟨.gap, 0, 0⟩ := by
    unfold first
    rw [comment?_of_ne (by decide)]
    rfl
  rw [lexemes_cons, hfirst, senses_gap, List.drop_zero]

theorem senses_mark {c : Char} {m : Mark} {rest : List Char} (hblank : Text.isBlank c = false)
    (hquote : ¬(c = '"' ∨ c = '\'')) (hdigit : Text.isDigit c = false)
    (h : mark? c rest = some (m, 0)) :
    senses (lexemes (c :: rest)) = .token (.mark m) :: senses (lexemes rest) := by
  rw [lexemes_cons, first_of_mark hblank hquote hdigit h, senses_token, List.drop_zero]

theorem senses_mark_pair {c d : Char} {m : Mark} {rest : List Char}
    (hblank : Text.isBlank c = false) (hquote : ¬(c = '"' ∨ c = '\''))
    (hdigit : Text.isDigit c = false) (h : mark? c (d :: rest) = some (m, 1)) :
    senses (lexemes (c :: d :: rest)) = .token (.mark m) :: senses (lexemes rest) := by
  rw [lexemes_cons, first_of_mark hblank hquote hdigit h, senses_token]
  rfl

theorem senses_word {word : String} {t : Token} {rest : List Char} (hw : IsWord word.toList)
    (hword : Token.ofWord word = t) (h : Stops continuesWord rest) :
    senses (lexemes (word.toList ++ rest)) = .token t :: senses (lexemes rest) := by
  rw [lexemes_word hw h, senses_token, String.ofList_toList, hword]

theorem senses_leftParen (rest : List Char) :
    senses (lexemes ('(' :: rest)) = .token (.mark .leftParen) :: senses (lexemes rest) :=
  senses_mark (by decide) (by decide) (by decide) rfl

theorem senses_rightParen (rest : List Char) :
    senses (lexemes (')' :: rest)) = .token (.mark .rightParen) :: senses (lexemes rest) :=
  senses_mark (by decide) (by decide) (by decide) rfl

theorem senses_dot (rest : List Char) :
    senses (lexemes ('.' :: rest)) = .token (.mark .dot) :: senses (lexemes rest) :=
  senses_mark (by decide) (by decide) (by decide) rfl

theorem senses_operator (op : BinaryOp) (rest : List Char) :
    senses (lexemes (' ' :: (op.text.toList ++ ' ' :: rest))) =
      .token op.token :: senses (lexemes rest) := by
  rw [senses_blank]
  have hblank : Stops continuesWord (' ' :: rest) := (closes_blank rest).stops (by decide)
  suffices h : senses (lexemes (op.text.toList ++ ' ' :: rest)) =
      .token op.token :: senses (lexemes (' ' :: rest)) by rw [h, senses_blank]
  cases op with
  | and => exact senses_word (by decide +kernel) rfl hblank
  | or => exact senses_word (by decide +kernel) rfl hblank
  | equal => exact senses_mark_pair (by decide) (by decide) (by decide) rfl
  | notEqual => exact senses_mark_pair (by decide) (by decide) (by decide) rfl
  | less => exact senses_mark (by decide) (by decide) (by decide) rfl
  | lessEqual => exact senses_mark_pair (by decide) (by decide) (by decide) rfl
  | greater => exact senses_mark (by decide) (by decide) (by decide) rfl
  | greaterEqual => exact senses_mark_pair (by decide) (by decide) (by decide) rfl

theorem senses_not (rest : List Char) :
    senses (lexemes ("NOT".toList ++ ' ' :: rest)) =
      .token (.keyword .not) :: senses (lexemes rest) := by
  have hblank : Stops continuesWord (' ' :: rest) := (closes_blank rest).stops (by decide)
  rw [senses_word (by decide +kernel) (t := .keyword .not) rfl hblank, senses_blank]

theorem senses_ident {name : String} (h : TokenStream.ReadsAs name (.ident name))
    {rest : List Char} (hrest : Stops continuesWord rest) :
    senses (lexemes (name.toList ++ rest)) = .token (.ident name) :: senses (lexemes rest) := by
  obtain ⟨hword, hof⟩ := TokenStream.readsAs_ident.mp h
  exact senses_word hword hof hrest

theorem senses_literal {v : Literal} (h : v.Writable) {rest : List Char} (hrest : Closes rest) :
    senses (lexemes (v.text.toList ++ rest)) = .token v.token :: senses (lexemes rest) := by
  cases v with
  | string s => rw [lexemes_string, senses_token]; rfl
  | int n =>
      -- an integer beyond the greatest would be read as a decimal
      have hn : lexemes ((toString n).toList ++ rest) = _ :=
        lexemes_whole (isWhole_toString n) hrest
      rw [wholeNumber_toString h] at hn
      have htext : (Literal.int n).text = toString n := rfl
      rw [htext, hn, senses_token]
      rfl
  | decimal spelling =>
      have htext : (Literal.decimal spelling).text = spelling := rfl
      rw [htext, lexemes_decimal (TokenStream.readsAs_decimal.mp h) hrest, senses_token,
        String.ofList_toList]
      rfl
  | bool b =>
      have hstops : Stops continuesWord rest := hrest.stops (by decide)
      have htrue : IsWord "true".toList := by decide +kernel
      have hfalse : IsWord "false".toList := by decide +kernel
      cases b with
      | true => exact senses_word htrue rfl hstops
      | false => exact senses_word hfalse rfl hstops

end Lexeme

namespace Expr

/-- The text of an expression, wherever it is closed, stands for its tokens. -/
theorem senses_conditionText {e : Expr} (h : e.Writable) {rest : List Char}
    (hrest : Closes rest) :
    senses (lexemes (e.conditionText.toList ++ rest)) =
      e.tokens.map .token ++ senses (lexemes rest) := by
  -- a part is followed by a blank, a parenthesis or the rest, so it is closed as well
  induction e generalizing rest with
  | binary op left right line ihLeft ihRight =>
      obtain ⟨hleft, hright⟩ := h
      have htext : (Expr.binary op left right line).conditionText.toList ++ rest =
          '(' :: (left.conditionText.toList ++
            ' ' :: (op.text.toList ++ ' ' :: (right.conditionText.toList ++ ')' :: rest))) := by
        simp [conditionText]
      rw [htext, senses_leftParen, ihLeft hleft (closes_blank _), senses_operator,
        ihRight hright (closes_paren _), senses_rightParen]
      simp [tokens]
  | not operand line ih =>
      have htext : (Expr.not operand line).conditionText.toList ++ rest =
          '(' :: ("NOT".toList ++ ' ' :: (operand.conditionText.toList ++ ')' :: rest)) := by
        simp [conditionText]
      rw [htext, senses_leftParen, senses_not, ih h (closes_paren _), senses_rightParen]
      simp [tokens]
  | «attribute» object field line =>
      obtain ⟨hobject, hfield⟩ := h
      have htext : (Expr.attribute object field line).conditionText.toList ++ rest =
          object.toList ++ '.' :: (field.toList ++ rest) := by
        simp [conditionText]
      have hdot : Stops continuesWord ('.' :: (field.toList ++ rest)) := by
        intro d hd
        cases hd
        decide
      have hstops : Stops continuesWord rest := hrest.stops (by decide)
      rw [htext, senses_ident hobject hdot, senses_dot, senses_ident hfield hstops]
      rfl
  | literal value line => exact senses_literal h hrest

end Expr

/-! ## The text has one line -/

theorem newline_notMem_name {name : String} (h : TokenStream.ReadsAs name (.ident name)) :
    '\n' ∉ name.toList :=
  newline_notMem_word (TokenStream.readsAs_ident.mp h).1

theorem Literal.newline_notMem_text {v : Literal} (h : v.Writable) : '\n' ∉ v.text.toList := by
  cases v with
  | string s => simpa [Literal.text] using newline_notMem_escaped s.toList
  | int n => exact newline_notMem_whole (isWhole_toString n)
  | decimal spelling => exact newline_notMem_decimal (TokenStream.readsAs_decimal.mp h)
  | bool b => cases b <;> decide

theorem BinaryOp.newline_notMem_text (op : BinaryOp) : '\n' ∉ op.text.toList := by
  cases op <;> decide

namespace Expr

theorem newline_notMem_conditionText {e : Expr} (h : e.Writable) :
    '\n' ∉ e.conditionText.toList := by
  induction e with
  | binary op left right line ihLeft ihRight =>
      simp [conditionText, ihLeft h.1, ihRight h.2, op.newline_notMem_text]
  | not operand line ih => simp [conditionText, ih h]
  | «attribute» object field line =>
      simp [conditionText, newline_notMem_name h.1, newline_notMem_name h.2]
  | literal value line => exact value.newline_notMem_text h

/-! ## The round trip -/

theorem ofText_conditionText {e : Expr} (h : e.Writable) :
    ofText e.conditionText = .ok (e.onLine 1) := by
  have hsenses : senses (lexemes e.conditionText.toList) = e.tokens.map .token := by
    have hsenses := senses_conditionText h closes_nil
    rwa [List.append_nil, lexemes_nil, show senses [] = [] from rfl, List.append_nil] at hsenses
  have hscan := TokenStream.scan_of_senses (newline_notMem_conditionText h) hsenses
  exact ofText_of_spelled hscan (spelled_tokens e 1).disjunction

/-- Of two expressions one text means that they are the same but for lines. -/
theorem sameButLines_of_conditionText {e f : Expr} (he : e.Writable) (hf : f.Writable)
    (h : e.conditionText = f.conditionText) : SameButLines e f := by
  have he' := ofText_conditionText he
  rw [h, ofText_conditionText hf] at he'
  injection he' with he'
  exact he'.symm

/-- **Condition text round trip.** The text of a writable expression is read as the
expression itself but for lines, which has the same text again; and another
expression has that text just if it is the same but for lines. -/
theorem conditionText_roundTrip {e : Expr} (he : e.Writable) :
    ∃ f, ofText e.conditionText = .ok f ∧ SameButLines f e ∧
      f.conditionText = e.conditionText ∧
      ∀ g : Expr, g.Writable → (g.conditionText = e.conditionText ↔ SameButLines g e) := by
  refine ⟨e.onLine 1, ofText_conditionText he, onLine_sameButLines e 1,
    conditionText_onLine e 1, fun g hg => ⟨sameButLines_of_conditionText hg he, fun h => ?_⟩⟩
  rw [← conditionText_onLine g 1, show g.onLine 1 = e.onLine 1 from h, conditionText_onLine]

/-- A negation of a disjunction, with an escaped string and a fraction. -/
theorem conditionText_roundTrip_negation :
    ∃ f, ofText "(NOT ((user.role == \"a\\\"b\") OR (user.level < 12.5)))" = .ok f ∧
      SameButLines f (.not (.binary .or
        (.binary .equal (.attribute "user" "role" 3) (.literal (.string "a\"b") 3) 3)
        (.binary .less (.attribute "user" "level" 4) (.literal (.decimal "12.5") 4) 4) 4) 3) := by
  have huser : TokenStream.ReadsAs "user" (.ident "user") :=
    TokenStream.readsAs_ident.mpr ⟨by decide +kernel, by decide +kernel⟩
  have hrole : TokenStream.ReadsAs "role" (.ident "role") :=
    TokenStream.readsAs_ident.mpr ⟨by decide +kernel, by decide +kernel⟩
  have hlevel : TokenStream.ReadsAs "level" (.ident "level") :=
    TokenStream.readsAs_ident.mpr ⟨by decide +kernel, by decide +kernel⟩
  have hdecimal : TokenStream.ReadsAs "12.5" (.decimal "12.5") :=
    TokenStream.readsAs_decimal.mpr (Or.inl
      ⟨['1', '2'], ['5'], by decide +kernel, by decide +kernel, by decide +kernel⟩)
  obtain ⟨f, hf, hsame, _⟩ := conditionText_roundTrip (e := .not (.binary .or
    (.binary .equal (.attribute "user" "role" 3) (.literal (.string "a\"b") 3) 3)
    (.binary .less (.attribute "user" "level" 4) (.literal (.decimal "12.5") 4) 4) 4) 3)
    ⟨⟨⟨huser, hrole⟩, trivial⟩, ⟨huser, hlevel⟩, hdecimal⟩
  exact ⟨f, hf, hsame⟩

end Expr
end AccessPolicy
