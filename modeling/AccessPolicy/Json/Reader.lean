import AccessPolicy.Json.Basic
import AccessPolicy.Shorter
import AccessPolicy.Text.Basic

/-!
# Reading JSON

`Json.parse` reads a document. A `Fault` is a problem and the place where it
was noticed, kept as the number of bytes that were still to be read.
-/

namespace AccessPolicy
namespace Json

inductive Problem where
  | endInValue
  | endInArray
  | endInObject
  | endInString
  | expectedColon
  | expectedCommaOrBracket
  | expectedCommaOrBrace
  | expectedWord
  | expectedValue
  | invalidEscape
  | invalidNumber
  | numberOutOfRange
  | controlCharacter
  | keyNotString
  | loneSurrogate
  | trailingComma
  | trailingCharacters
  | unfinishedSurrogate
  | tooDeep
deriving DecidableEq

def Problem.message : Problem → String
  | .endInValue => "EOF while parsing a value"
  | .endInArray => "EOF while parsing a list"
  | .endInObject => "EOF while parsing an object"
  | .endInString => "EOF while parsing a string"
  | .expectedColon => "expected `:`"
  | .expectedCommaOrBracket => "expected `,` or `]`"
  | .expectedCommaOrBrace => "expected `,` or `" ++ "\x7d" ++ "`"
  | .expectedWord => "expected ident"
  | .expectedValue => "expected value"
  | .invalidEscape => "invalid escape"
  | .invalidNumber => "invalid number"
  | .numberOutOfRange => "number out of range"
  | .controlCharacter => "control character (\\u0000-\\u001F) found while parsing a string"
  | .keyNotString => "key must be a string"
  | .loneSurrogate => "lone leading surrogate in hex escape"
  | .trailingComma => "trailing comma"
  | .trailingCharacters => "trailing characters"
  | .unfinishedSurrogate => "unexpected end of hex escape"
  | .tooDeep => "recursion limit exceeded"

/-- A problem, and how many bytes of the text lay after it. -/
structure Fault where
  problem : Problem
  remaining : Nat
deriving DecidableEq

def byteCount (cs : List Char) : Nat := cs.foldl (fun n c => n + c.utf8Size) 0

/-- A problem noticed with `cs` still unread. -/
def Fault.before (problem : Problem) (cs : List Char) : Fault := ⟨problem, byteCount cs⟩

def Fault.at (problem : Problem) (cs : List Char) : Fault := ⟨problem, byteCount cs - 1⟩

/-- Line and column of the place after `count` bytes of text. -/
def position (text : List Char) (count : Nat) : Nat × Nat :=
  go text count 1 0
where
  go : List Char → Nat → Nat → Nat → Nat × Nat
    | [], _, line, column => (line, column)
    | c :: rest, count, line, column =>
      if count = 0 then (line, column)
      else if c = '\n' then go rest (count - 1) (line + 1) 0
      else go rest (count - c.utf8Size) line (column + min count c.utf8Size)

def Fault.describe (text : List Char) (f : Fault) : String :=
  let (line, column) := position text (byteCount text - f.remaining)
  f.problem.message ++ " at line " ++ toString line ++ " column " ++ toString column

/-! ## Blanks and words -/

def isBlank (c : Char) : Bool := c = ' ' || c = '\n' || c = '\t' || c = '\r'

def skipBlanks (cs : List Char) : List Char := cs.dropWhile isBlank

theorem length_skipBlanks_le (cs : List Char) : (skipBlanks cs).length ≤ cs.length :=
  (List.dropWhile_suffix isBlank).sublist.length_le

def readWord : (word cs : List Char) → Except Fault (NoLonger cs)
  | [], _ => .ok NoLonger.all
  | _ :: _, [] => .error (.before .endInValue [])
  | w :: word, c :: cs =>
    if c = w then
      match readWord word cs with
      | .ok ⟨rest, h⟩ => .ok ⟨rest, Nat.le_succ_of_le h⟩
      | .error e => .error e
    else .error (.at .expectedWord (c :: cs))

/-! ## Strings -/

/-- Four hexadecimal digits. Four bytes are taken before they are looked at. -/
def hexFour (cs : List Char) : Except Fault (Nat × NoLonger cs) :=
  if byteCount cs < 4 then .error ⟨.endInString, 0⟩
  else match cs with
    | a :: b :: c :: d :: rest =>
      match Text.hexValue? a, Text.hexValue? b, Text.hexValue? c, Text.hexValue? d with
      | some a, some b, some c, some d =>
        .ok (((a * 16 + b) * 16 + c) * 16 + d, ⟨rest, by simp only [List.length_cons]; omega⟩)
      | _, _, _, _ => .error ⟨.invalidEscape, byteCount cs - 4⟩
    | _ => .error ⟨.invalidEscape, byteCount cs - 4⟩

/-- What follows `\u`: a character, or the two halves of one. -/
def unicodeEscape (cs : List Char) :
    Except Fault (Char × NoLonger cs) :=
  match hexFour cs with
  | .error e => .error e
  | .ok (high, ⟨rest, h⟩) =>
    if 0xDC00 ≤ high ∧ high ≤ 0xDFFF then .error (.before .loneSurrogate rest)
    else if high < 0xD800 ∨ 0xDBFF < high then .ok (Char.ofNat high, ⟨rest, h⟩)
    else match rest with
      | [] => .error (.before .endInString [])
      | '\\' :: [] => .error (.before .endInString [])
      | '\\' :: 'u' :: rest' =>
        match hexFour rest' with
        | .error e => .error e
        | .ok (low, ⟨rest'', h'⟩) =>
          if low < 0xDC00 ∨ 0xDFFF < low then .error (.before .loneSurrogate rest'')
          else .ok (Char.ofNat ((high - 0xD800) * 0x400 + (low - 0xDC00) + 0x10000),
            ⟨rest'', by simp only [List.length_cons] at h; omega⟩)
      | '\\' :: c :: rest' => .error (.at .unfinishedSurrogate (c :: rest'))
      | c :: rest' => .error (.at .unfinishedSurrogate (c :: rest'))

def simpleEscape (c : Char) : Option Char :=
  match c with
  | '"' => some '"'
  | '\\' => some '\\'
  | '/' => some '/'
  | 'b' => some (Char.ofNat 8)
  | 'f' => some (Char.ofNat 12)
  | 'n' => some '\n'
  | 'r' => some '\r'
  | 't' => some '\t'
  | _ => none

/-- The characters of a string up to its closing quote, last first. -/
def readString (acc : List Char) (cs : List Char) :
    Except Fault (List Char × Shorter cs) :=
  match cs with
  | [] => .error (.before .endInString [])
  | '"' :: rest => .ok (acc, ⟨rest, by simp⟩)
  | '\\' :: 'u' :: rest =>
    match unicodeEscape rest with
    | .error e => .error e
    | .ok (c, ⟨rest', h⟩) =>
      match readString (c :: acc) rest' with
      | .error e => .error e
      | .ok (s, r) => .ok (s, r.within (by simp only [List.length_cons]; omega))
  | '\\' :: c :: rest =>
    match simpleEscape c with
    | none => .error (.at .invalidEscape (c :: rest))
    | some e =>
      match readString (e :: acc) rest with
      | .error e => .error e
      | .ok (s, r) => .ok (s, r.within (by simp only [List.length_cons]; omega))
  | ['\\'] => .error (.before .endInString [])
  | c :: rest =>
    if c.toNat < 32 then .error (.before .controlCharacter rest)
    else
      match readString (c :: acc) rest with
      | .error e => .error e
      | .ok (s, r) => .ok (s, r.within (by simp only [List.length_cons]; omega))
termination_by cs.length

/-! ## Numbers -/

/-- The largest significand that is kept. -/
def significandLimit : Nat := 18446744073709551615

/-- Append digits to a significand while they fit; also how many did not. -/
def absorb : Nat → List Char → Nat × Nat
  | n, [] => (n, 0)
  | n, d :: rest =>
    if 10 * n + Text.digitValue d ≤ significandLimit then absorb (10 * n + Text.digitValue d) rest
    else (n, rest.length + 1)

def powerOfTen (n : Nat) : Option Binary64 := Binary64.ofNat (Nat.pow 10 n)

/-- `significand * 10 ^ exponent` by one multiplication or by division in steps
of at most `10 ^ 308`; none if it is too large. -/
def scaled (negative : Bool) (significand : Nat) (exponent : Int) : Option Binary64 := do
  let x ← Binary64.ofNat significand
  let x ← if 0 ≤ exponent then
      if exponent ≤ 308 then Binary64.mul x (← powerOfTen exponent.toNat)
      else if significand = 0 then some x
      else none
    else shrink 2 x exponent
  some { x with negative := negative }
where
  shrink : Nat → Binary64 → Int → Option Binary64
    | 0, _, _ => some (Binary64.zero false)
    | steps + 1, x, exponent =>
      if -308 ≤ exponent then do Binary64.div x (← powerOfTen (-exponent).toNat)
      else do shrink steps (← Binary64.div x (← powerOfTen 308)) (exponent + 308)

/-- A number in pieces: whether it is a float at all, its significand and its
decimal exponent. -/
structure Pieces where
  significand : Nat
  exponent : Int
  isFloat : Bool

/-- The number of its pieces. A negative zero is a float. -/
def ofPieces (negative : Bool) (p : Pieces) : Option Number :=
  if p.isFloat then (scaled negative p.significand p.exponent).map .float
  else if negative then
    if p.significand = 0 ∨ 9223372036854775808 < p.significand then (scaled true p.significand 0).map .float
    else some (.whole (-(p.significand : Int)))
  else some (.whole p.significand)

/-- The largest exponent that is looked at. -/
def exponentLimit : Nat := 2147483647

/-- The digits of an exponent, and the text left where they pass the limit. -/
def absorbExponent : Nat → List Char → Nat × Option (List Char)
  | n, [] => (n, none)
  | n, d :: rest =>
    if Text.isDigit d then
      if 10 * n + Text.digitValue d ≤ exponentLimit then absorbExponent (10 * n + Text.digitValue d) rest
      else (n, some rest)
    else (n, none)

/-- Read the exponent part, if there is one, and finish the number. -/
def readExponent (negative : Bool) (p : Pieces) (cs : List Char) : Except Fault (Number × List Char) :=
  let finish (p : Pieces) (rest : List Char) : Except Fault (Number × List Char) :=
    match ofPieces negative p with
    | some n => .ok (n, rest)
    | none => .error (.before .numberOutOfRange rest)
  match cs with
  | c :: rest =>
    if c = 'e' ∨ c = 'E' then
      let (down, rest) := match rest with
        | '+' :: rest => (false, rest)
        | '-' :: rest => (true, rest)
        | rest => (false, rest)
      match rest with
      | [] => .error (.before .endInValue [])
      | d :: after =>
        if Text.isDigit d then
          let tail := rest.dropWhile Text.isDigit
          match absorbExponent 0 rest with
          | (_, some left) =>
            if p.significand ≠ 0 ∧ !down then .error (.before .numberOutOfRange left)
            else .ok (.float (Binary64.zero negative), tail)
          | (n, none) =>
            let exponent := if down then p.exponent - (n : Int) else p.exponent + (n : Int)
            finish ⟨p.significand, exponent, true⟩ tail
        else .error (.at .invalidNumber (d :: after))
    else finish p cs
  | [] => finish p []

def readFraction (negative : Bool) (p : Pieces) (cs : List Char) : Except Fault (Number × List Char) :=
  match cs with
  | '.' :: rest =>
    let digits := rest.takeWhile Text.isDigit
    let tail := rest.dropWhile Text.isDigit
    if digits.isEmpty then
      match tail with
      | [] => .error (.before .endInValue [])
      | _ => .error (.at .invalidNumber tail)
    else
      let (significand, dropped) := absorb p.significand digits
      let exponent := p.exponent - ((digits.length : Int) - (dropped : Int))
      readExponent negative ⟨significand, exponent, true⟩ tail
  | _ => readExponent negative p cs

def readNumber (negative : Bool) (cs : List Char) : Except Fault (Number × List Char) :=
  match cs with
  | [] => .error (.before .endInValue [])
  | '0' :: rest =>
    match rest with
    | c :: _ =>
      if Text.isDigit c then .error (.at .invalidNumber rest)
      else readFraction negative ⟨0, 0, false⟩ rest
    | [] => readFraction negative ⟨0, 0, false⟩ rest
  | c :: rest =>
    if Text.isDigit c then
      let (significand, dropped) := absorb 0 (cs.takeWhile Text.isDigit)
      readFraction negative ⟨significand, dropped, 0 < dropped⟩ (cs.dropWhile Text.isDigit)
    else .error (.at .invalidNumber (c :: rest))

/-! ## Documents -/

/-- How many arrays and objects may stand inside each other. -/
def depthLimit : Nat := 127

def shorter? (cs rest : List Char) : Except Fault (Shorter cs) :=
  if h : rest.length < cs.length then .ok ⟨rest, h⟩ else .error (.before .expectedValue rest)

mutual

/-- Read a value, with `depth` levels of nesting left. -/
def readValue (depth : Nat) (cs : List Char) : Except Fault (Json × Shorter cs) :=
  match h : skipBlanks cs with
  | [] => .error (.before .endInValue [])
  | c :: rest =>
    have hle : rest.length < cs.length := by
      have := length_skipBlanks_le cs
      rw [h] at this
      exact this
    if c = 'n' then
      match readWord ['u', 'l', 'l'] rest with
      | .ok ⟨r, hr⟩ => .ok (.null, ⟨r, Nat.lt_of_le_of_lt hr hle⟩)
      | .error e => .error e
    else if c = 't' then
      match readWord ['r', 'u', 'e'] rest with
      | .ok ⟨r, hr⟩ => .ok (.bool true, ⟨r, Nat.lt_of_le_of_lt hr hle⟩)
      | .error e => .error e
    else if c = 'f' then
      match readWord ['a', 'l', 's', 'e'] rest with
      | .ok ⟨r, hr⟩ => .ok (.bool false, ⟨r, Nat.lt_of_le_of_lt hr hle⟩)
      | .error e => .error e
    else if c = '"' then
      match readString [] rest with
      | .ok (s, r) => .ok (.string (String.ofList s.reverse), r.within (Nat.le_of_lt hle))
      | .error e => .error e
    else if c = '-' then
      match readNumber true rest with
      | .ok (n, r) => (shorter? cs r).map fun r => (.number n, r)
      | .error e => .error e
    else if Text.isDigit c then
      match readNumber false (c :: rest) with
      | .ok (n, r) => (shorter? cs r).map fun r => (.number n, r)
      | .error e => .error e
    else if c = '[' then
      match depth with
      | 0 => .error (.at .tooDeep (c :: rest))
      | depth + 1 =>
        match h' : skipBlanks rest with
        | [] => .error (.before .endInArray [])
        | ']' :: r => .ok (.array [], ⟨r, by
            have := length_skipBlanks_le rest
            rw [h'] at this
            exact Nat.lt_of_le_of_lt (Nat.le_of_lt this) hle⟩)
        | _ =>
          match readItems depth rest with
          | .ok (items, r) => .ok (.array items, r.within (Nat.le_of_lt hle))
          | .error e => .error e
    else if c = '\x7b' then
      match depth with
      | 0 => .error (.at .tooDeep (c :: rest))
      | depth + 1 =>
        match h' : skipBlanks rest with
        | [] => .error (.before .endInObject [])
        | '\x7d' :: r => .ok (.object [], ⟨r, by
            have := length_skipBlanks_le rest
            rw [h'] at this
            exact Nat.lt_of_le_of_lt (Nat.le_of_lt this) hle⟩)
        | '"' :: r =>
          have hr : r.length < rest.length := by
            have := length_skipBlanks_le rest
            rw [h'] at this
            exact this
          match readFields depth [] r with
          | .ok (fields, r') => .ok (.object fields, r'.within (by omega))
          | .error e => .error e
        | cs' => .error (.at .keyNotString cs')
    else .error (.at .expectedValue (c :: rest))
termination_by 2 * cs.length

def readItems (depth : Nat) (cs : List Char) : Except Fault (List Json × Shorter cs) :=
  match readValue depth cs with
  | .error e => .error e
  | .ok (item, ⟨rest, hrest⟩) =>
    match h : skipBlanks rest with
    | [] => .error (.before .endInArray [])
    | c :: r =>
      have hr : r.length < rest.length := by
        have := length_skipBlanks_le rest
        rw [h] at this
        exact this
      if c = ']' then .ok ([item], ⟨r, Nat.lt_trans hr hrest⟩)
      else if c = ',' then
        match skipBlanks r with
        | [] => .error (.before .endInValue [])
        | ']' :: r' => .error (.at .trailingComma (']' :: r'))
        | _ =>
          match readItems depth r with
          | .ok (items, r') => .ok (item :: items, r'.within (by omega))
          | .error e => .error e
      else .error (.at .expectedCommaOrBracket (c :: r))
termination_by 2 * cs.length + 1

def readFields (depth : Nat) (fields : List (String × Json)) (cs : List Char) :
    Except Fault (List (String × Json) × Shorter cs) :=
  match readString [] cs with
  | .error e => .error e
  | .ok (name, ⟨rest, hrest⟩) =>
    match h : skipBlanks rest with
    | [] => .error (.before .endInObject [])
    | c :: r =>
      have hr : r.length < rest.length := by
        have := length_skipBlanks_le rest
        rw [h] at this
        exact this
      if c = ':' then
        match readValue depth r with
        | .error e => .error e
        | .ok (value, ⟨s, hs⟩) =>
          let fields := NameMap.insert (String.ofList name.reverse) value fields
          match h' : skipBlanks s with
          | [] => .error (.before .endInObject [])
          | d :: t =>
            have ht : t.length < s.length := by
              have := length_skipBlanks_le s
              rw [h'] at this
              exact this
            if d = '\x7d' then .ok (fields, ⟨t, by omega⟩)
            else if d = ',' then
              match h'' : skipBlanks t with
              | [] => .error (.before .endInValue [])
              | '"' :: u =>
                have hu : u.length < t.length := by
                  have := length_skipBlanks_le t
                  rw [h''] at this
                  exact this
                match readFields depth fields u with
                | .ok (fields, r') => .ok (fields, r'.within (by omega))
                | .error e => .error e
              | '\x7d' :: u => .error (.at .trailingComma ('\x7d' :: u))
              | u => .error (.at .keyNotString u)
            else .error (.at .expectedCommaOrBrace (d :: t))
      else .error (.at .expectedColon (c :: r))
termination_by 2 * cs.length + 1

end

def parseChars (cs : List Char) : Except Fault Json :=
  match readValue depthLimit cs with
  | .error e => .error e
  | .ok (j, ⟨rest, _⟩) =>
    match skipBlanks rest with
    | [] => .ok j
    | cs' => .error (.at .trailingCharacters cs')

def parse (text : String) : Except String Json :=
  match parseChars text.toList with
  | .ok j => .ok j
  | .error f => .error (f.describe text.toList)

end Json
end AccessPolicy
