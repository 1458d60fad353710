import AccessPolicy.Diagnostic
import AccessPolicy.Text.Basic
import AccessPolicy.Token.Basic

/-!
# Lexemes

A source text is cut into lexemes: pieces that stand for a token, for nothing
(blanks and comments), or for a fault. The pieces, put together again, are the
text (`flatMap_text_lexemes`). A line counter goes along with them: each piece
says how far it moves, as the branch that cuts the piece off counts the line
breaks that it passes.
-/

namespace AccessPolicy
namespace Lexeme

inductive Fault where
  | illegalCharacter (c : Char)
  | unterminatedComment
  | unterminatedString
deriving DecidableEq

def Fault.message : Fault → String
  | .illegalCharacter c => "illegal character '" ++ String.singleton c ++ "'"
  | .unterminatedComment => "unterminated block comment"
  | .unterminatedString => "unterminated string literal"

inductive Meaning where
  | gap
  | token (t : Token)
  | fault (f : Fault)
deriving DecidableEq

end Lexeme

/-- A piece of a source text, what it stands for, and the line breaks that the
line counter takes for it. -/
structure Lexeme where
  meaning : Lexeme.Meaning
  text : List Char
  breaks : Nat
deriving DecidableEq

namespace Lexeme

/-! ## The pieces by their first character -/

def isLetter (c : Char) : Bool := ('a' ≤ c ∧ c ≤ 'z') || ('A' ≤ c ∧ c ≤ 'Z')

def startsWord (c : Char) : Bool := isLetter c || c = '_'

def continuesWord (c : Char) : Bool := isLetter c || Text.isDigit c || c = '_'

/-- The move of the line counter at a character that it is shown. -/
def lineBreak (c : Char) : Nat := if c = '\n' then 1 else 0

/-- The length of a block comment's body with its closing mark, if there is one,
and the line breaks on the way to that or to the end of the text. -/
def commentBody : List Char → Option Nat × Nat
  | [] => (none, 0)
  | '*' :: '/' :: _ => (some 2, 0)
  | c :: rest =>
    let (length, breaks) := commentBody rest
    (length.map (· + 1), breaks + lineBreak c)

/-- The character that an escape stands for; an escape of any other character
stands for itself, backslash and all. -/
def escaped (c : Char) : List Char :=
  if c = 'n' then ['\n']
  else if c = 't' then ['\t']
  else if c = '\\' ∨ c = '"' ∨ c = '\'' then [c]
  else ['\\', c]

/-- The content of a string up to its closing quote, the number of characters up
to and with that quote, and the line breaks among them, escaped ones too. -/
def quotedContent (quote : Char) : List Char → Option (List Char × Nat × Nat)
  | [] => none
  | '\\' :: c :: rest =>
    (quotedContent quote rest).map fun (content, n, breaks) =>
      (escaped c ++ content, n + 2, breaks + lineBreak c)
  | c :: rest =>
    if c = quote then some ([], 1, 0)
    else (quotedContent quote rest).map fun (content, n, breaks) =>
      (c :: content, n + 1, breaks + lineBreak c)

/-- The largest number that is a whole number token. -/
def greatestInt : Nat := 9223372036854775807

def wholeNumber (digits : List Char) : Token :=
  let value := Text.digitsValue 0 digits
  if value ≤ greatestInt then .int value else .decimal (String.ofList digits)

/-- A number from its first digit on: digits, and a fraction if a digit follows
the point. Also how many characters follow the first. -/
def number (c : Char) (cs : List Char) : Token × Nat :=
  let more := cs.takeWhile Text.isDigit
  match cs.dropWhile Text.isDigit with
  | '.' :: d :: rest =>
    if Text.isDigit d then
      let fraction := d :: rest.takeWhile Text.isDigit
      (.decimal (String.ofList (c :: more ++ '.' :: fraction)), more.length + 1 + fraction.length)
    else (wholeNumber (c :: more), more.length)
  | _ => (wholeNumber (c :: more), more.length)

/-- An operator or delimiter, and how many characters follow its first. -/
def mark? (c : Char) (cs : List Char) : Option (Mark × Nat) :=
  match c, cs with
  | '=', '=' :: _ => some (.equal, 1)
  | '!', '=' :: _ => some (.notEqual, 1)
  | '<', '=' :: _ => some (.lessEqual, 1)
  | '>', '=' :: _ => some (.greaterEqual, 1)
  | '<', _ => some (.less, 0)
  | '>', _ => some (.greater, 0)
  | '\x7b', _ => some (.leftBrace, 0)
  | '\x7d', _ => some (.rightBrace, 0)
  | '(', _ => some (.leftParen, 0)
  | ')', _ => some (.rightParen, 0)
  | ',', _ => some (.comma, 0)
  | ':', _ => some (.colon, 0)
  | '.', _ => some (.dot, 0)
  | '*', _ => some (.star, 0)
  | _, _ => none

/-- The front of a text behind its first character: what the piece stands for,
how many of the characters belong to it, and how far the line counter moves. -/
structure Front where
  meaning : Meaning
  length : Nat
  breaks : Nat

/-- A comment, if one starts here. An unterminated block comment takes the rest
of the text, and its line breaks are counted. -/
def comment? (c : Char) (cs : List Char) : Option Front :=
  match c, cs with
  | '/', '/' :: rest => some ⟨.gap, 1 + (rest.takeWhile (· != '\n')).length, 0⟩
  | '/', '*' :: rest =>
    match commentBody rest with
    | (some n, breaks) => some ⟨.gap, 1 + n, breaks⟩
    | (none, breaks) => some ⟨.fault .unterminatedComment, cs.length, breaks⟩
  | _, _ => none

/-- The piece that starts with `c` before the characters `cs`. Of an unterminated
string only the quote is taken, and what was counted behind it is dropped. -/
def first (c : Char) (cs : List Char) : Front :=
  match comment? c cs with
  | some front => front
  | none =>
    if Text.isBlank c then ⟨.gap, 0, lineBreak c⟩
    else if c = '"' ∨ c = '\'' then
      match quotedContent c cs with
      | some (content, n, breaks) => ⟨.token (.string (String.ofList content)), n, breaks⟩
      | none => ⟨.fault .unterminatedString, 0, 0⟩
    else if Text.isDigit c then
      let (token, n) := number c cs
      ⟨.token token, n, 0⟩
    else
      match mark? c cs with
      | some (m, n) => ⟨.token (.mark m), n, 0⟩
      | none =>
        if startsWord c then
          let more := cs.takeWhile continuesWord
          ⟨.token (Token.ofWord (String.ofList (c :: more))), more.length, 0⟩
        else ⟨.fault (.illegalCharacter c), 0, 0⟩

/-! ## The whole text -/

def lexemes : List Char → List Lexeme
  | [] => []
  | c :: cs =>
    let front := first c cs
    ⟨front.meaning, c :: cs.take front.length, front.breaks⟩ :: lexemes (cs.drop front.length)
termination_by cs => cs.length
decreasing_by
  simp only [List.length_drop, List.length_cons]
  omega

theorem lexemes_nil : lexemes [] = [] := by rw [lexemes]

theorem lexemes_cons (c : Char) (cs : List Char) :
    lexemes (c :: cs) =
      ⟨(first c cs).meaning, c :: cs.take (first c cs).length, (first c cs).breaks⟩ ::
        lexemes (cs.drop (first c cs).length) := by
  rw [lexemes]

/-- A text is empty, or its first piece stands before a shorter text. -/
theorem lexemes_induction {motive : List Char → Prop} (nil : motive [])
    (cons : ∀ c cs, motive (cs.drop (first c cs).length) → motive (c :: cs)) (cs : List Char) :
    motive cs := by
  -- the next piece starts behind the first one, so the length goes down and not the list
  induction h : cs.length using Nat.strongRecOn generalizing cs with
  | _ n ih =>
    cases cs with
    | nil => exact nil
    | cons c cs =>
      refine cons c cs (ih _ ?_ _ rfl)
      rw [← h, List.length_drop, List.length_cons]
      omega

theorem flatMap_text_lexemes (cs : List Char) : (lexemes cs).flatMap Lexeme.text = cs := by
  induction cs using lexemes_induction with
  | nil => simp [lexemes_nil]
  | cons c cs ih =>
      rw [lexemes_cons, List.flatMap_cons, ih]
      simp

def tokens (line : Nat) : List Lexeme → List Located
  | [] => []
  | l :: rest =>
    match l.meaning with
    | .token t => ⟨t, line⟩ :: tokens (line + l.breaks) rest
    | _ => tokens (line + l.breaks) rest

def faults (line : Nat) : List Lexeme → List Diagnostic
  | [] => []
  | l :: rest =>
    match l.meaning with
    | .fault f => ⟨line, .error, f.message, .lexical⟩ :: faults (line + l.breaks) rest
    | _ => faults (line + l.breaks) rest

/-- The line behind some pieces, the first of which starts on `line`. -/
def lineBehind (line : Nat) : List Lexeme → Nat
  | [] => line
  | l :: rest => lineBehind (line + l.breaks) rest

end Lexeme

def TokenStream.scan (source : String) : TokenStream × List Diagnostic :=
  let pieces := Lexeme.lexemes source.toList
  (⟨Lexeme.tokens 1 pieces, Lexeme.lineBehind 1 pieces⟩, Lexeme.faults 1 pieces)

end AccessPolicy
