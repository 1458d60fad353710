import AccessPolicy.Shorter
import AccessPolicy.Text.Basic

/-!
# Settings in TOML

A reader of the documents that settings are written in: strings, whole numbers,
truth values, tables and empty arrays, in the notation of TOML. Documents with
values of other kinds are refused, as are all that are no TOML. There is one way
to fail, so a refusal has no cause.
-/

namespace AccessPolicy
namespace Toml

/-- How a table came to be. It is open to further keys from elsewhere only if it
was implied by a longer name. -/
inductive Origin where
  | implied
  | dotted
  | header
  | inline
deriving DecidableEq

inductive Value where
  | string (s : String)
  | int (n : Int)
  | bool (b : Bool)
  | emptyArray
  | table (origin : Origin) (entries : List (String × Value))

/-! ## Characters -/

def isSpace (c : Char) : Bool := c = ' ' || c = '\t'

def isBareKey (c : Char) : Bool :=
  Text.isDigit c || ('a' ≤ c && c ≤ 'z') || ('A' ≤ c && c ≤ 'Z') || c = '_' || c = '-'

/-- Controls other than the tab, which may stand nowhere. -/
def isControl (c : Char) : Bool := (c.toNat < 32 && c != '\t') || c.toNat = 127

def skip (p : Char → Bool) (cs : List Char) : NoLonger cs :=
  ⟨cs.dropWhile p, (List.dropWhile_suffix p).sublist.length_le⟩

def skipSpaces (cs : List Char) : NoLonger cs := skip isSpace cs

/-- Pass over a line break, or the end of the text. -/
def skipBreak : (cs : List Char) → Option (NoLonger cs)
  | [] => some NoLonger.all
  | '\n' :: _ => some NoLonger.tail
  | '\r' :: '\n' :: rest => some ⟨rest, by simp only [List.length_cons]; omega⟩
  | _ => none

/-- Pass over a line's end: spaces, a comment, and a line break or the end of
the text. -/
def skipLineEnd (cs : List Char) : Option (NoLonger cs) :=
  let ⟨found, h⟩ := skipSpaces cs
  match found with
  | '#' :: comment =>
    let ⟨rest, h'⟩ := skip (fun c => !isControl c) comment
    (skipBreak rest).map fun r => ⟨r.1, by
      have := r.2
      simp only [List.length_cons] at h
      omega⟩
  | found => (skipBreak found).map fun r => ⟨r.1, Nat.le_trans r.2 h⟩

/-! ## Strings -/

def valueIn (base : Nat) (digits : List Char) : Option Nat :=
  digits.foldlM (fun n c => (Text.hexValue? c).map fun d => base * n + d) 0

def charOf (n : Nat) : Option Char :=
  if n.isValidChar then some (Char.ofNat n) else none

def escape (cs : List Char) : Option (Char × Nat) :=
  match cs with
  | 'b' :: _ => some (Char.ofNat 8, 1)
  | 't' :: _ => some ('\t', 1)
  | 'n' :: _ => some ('\n', 1)
  | 'f' :: _ => some (Char.ofNat 12, 1)
  | 'r' :: _ => some ('\r', 1)
  | '"' :: _ => some ('"', 1)
  | '\\' :: _ => some ('\\', 1)
  | 'u' :: rest => coded 4 rest
  | 'U' :: rest => coded 8 rest
  | _ => none
where
  coded (n : Nat) (rest : List Char) : Option (Char × Nat) := do
    let digits := rest.take n
    if digits.length = n then
      let c ← charOf (← valueIn 16 digits)
      some (c, n + 1)
    else none

def basicString (cs : List Char) : Option (List Char × Shorter cs) :=
  match cs with
  | [] => none
  | '"' :: rest => some ([], Shorter.tail)
  | '\\' :: rest => do
    let (c, n) ← escape rest
    let (s, r) ← basicString (rest.drop n)
    some (c :: s, r.within (by simp only [List.length_drop, List.length_cons]; omega))
  | c :: rest =>
    if isControl c then none
    else do
      let (s, r) ← basicString rest
      some (c :: s, r.later)
termination_by cs.length
decreasing_by
  · simp only [List.length_drop, List.length_cons]
    omega
  · exact Nat.lt_succ_self _

def literalString : (cs : List Char) → Option (List Char × Shorter cs)
  | [] => none
  | c :: rest =>
    if c = Char.ofNat 39 then some ([], Shorter.tail)
    else if isControl c then none
    else do
      let (s, r) ← literalString rest
      some (c :: s, r.later)

/-- Does a backslash here end its line, so that all blanks after it are left
out? -/
def endsLine (cs : List Char) : Bool :=
  match (skipSpaces cs).1 with
  | '\n' :: _ => true
  | '\r' :: '\n' :: _ => true
  | _ => false

/-- Pass over spaces and line breaks. A carriage return counts only before a
line feed. -/
def skipBlanks : (cs : List Char) → NoLonger cs
  | [] => NoLonger.all
  | '\r' :: '\n' :: rest =>
    let ⟨after, h⟩ := skipBlanks rest
    ⟨after, by simp only [List.length_cons]; omega⟩
  | c :: rest =>
    if isSpace c || c = '\n' then
      let ⟨after, h⟩ := skipBlanks rest
      ⟨after, Nat.le_succ_of_le h⟩
    else NoLonger.all

/-- A string over several lines, up to three of its quotes. -/
def longString (quote : Char) (cs : List Char) : Option (List Char × Shorter cs) :=
  match cs with
  | [] => none
  | c :: rest =>
    if c = quote ∧ rest.take 2 = [quote, quote] then
      some ([], ⟨rest.drop 2, by simp only [List.length_drop, List.length_cons]; omega⟩)
    else if c = '\\' ∧ quote = '"' then
      if endsLine rest then do
        let ⟨after, h⟩ := skipBlanks rest
        let (s, r) ← longString quote after
        some (s, r.within (by simp only [List.length_cons]; omega))
      else do
        let (e, n) ← escape rest
        let (s, r) ← longString quote (rest.drop n)
        some (e :: s, r.within (by simp only [List.length_drop, List.length_cons]; omega))
    else if c = '\r' ∧ rest.head? ≠ some '\n' then none
    else if isControl c ∧ c ≠ '\n' ∧ c ≠ '\r' then none
    else do
      let (s, r) ← longString quote rest
      some (c :: s, r.later)
termination_by cs.length
decreasing_by
  · simp only [List.length_cons]
    omega
  · simp only [List.length_drop, List.length_cons]
    omega
  · exact Nat.lt_succ_self _

/-- The text after the line break that may follow an opening of three quotes. -/
def afterOpening : (cs : List Char) → NoLonger cs
  | '\n' :: _ => NoLonger.tail
  | '\r' :: '\n' :: rest => ⟨rest, by simp only [List.length_cons]; omega⟩
  | _ => NoLonger.all

def readString (cs : List Char) : Option (String × Shorter cs) :=
  match cs with
  | [] => none
  | c :: rest =>
    if c = '"' ∨ c = Char.ofNat 39 then
      if rest.take 2 = [c, c] then do
        let after := afterOpening (rest.drop 2)
        let (s, r) ← longString c after.1
        some (String.ofList s, r.within (by
          have := after.2
          simp only [List.length_drop] at this
          simp only [List.length_cons]
          omega))
      else if c = '"' then do
        let (s, r) ← basicString rest
        some (String.ofList s, r.later)
      else do
        let (s, r) ← literalString rest
        some (String.ofList s, r.later)
    else none

/-! ## Keys -/

def readKey (cs : List Char) : Option (String × Shorter cs) :=
  match cs with
  | [] => none
  | c :: rest =>
    if c = '"' then do
      let (s, r) ← basicString rest
      some (String.ofList s, r.later)
    else if c = Char.ofNat 39 then do
      let (s, r) ← literalString rest
      some (String.ofList s, r.later)
    else if isBareKey c then
      some (String.ofList (c :: rest.takeWhile isBareKey),
        ⟨rest.dropWhile isBareKey,
          Nat.lt_succ_of_le (List.dropWhile_suffix _).sublist.length_le⟩)
    else none

/-- A key with dots between its parts, and the spaces after it. -/
def readPath (cs : List Char) : Option (List String × Shorter cs) := do
  let (key, ⟨rest, h⟩) ← readKey cs
  let ⟨found, h₁⟩ := skipSpaces rest
  match hf : found with
  | '.' :: after =>
    let ⟨spaced, h₂⟩ := skipSpaces after
    have h₃ : spaced.length < cs.length := by
      rw [hf] at h₁
      simp only [List.length_cons] at h₁
      omega
    let (keys, r) ← readPath spaced
    some (key :: keys, r.within (Nat.le_of_lt h₃))
  | _ => some ([key], ⟨found, Nat.lt_of_le_of_lt h₁ h⟩)
termination_by cs.length

/-! ## Numbers -/

/-- Digits with single underscores between them. -/
def digitRun (isDigit : Char → Bool) : List Char → List Char × List Char
  | [] => ([], [])
  | [c] => if isDigit c then ([c], []) else ([], [c])
  | c :: '_' :: d :: rest =>
    if isDigit c then
      if isDigit d then
        let (ds, r) := digitRun isDigit (d :: rest)
        (c :: ds, r)
      else ([c], '_' :: d :: rest)
    else ([], c :: '_' :: d :: rest)
  | c :: rest =>
    if isDigit c then
      let (ds, r) := digitRun isDigit rest
      (c :: ds, r)
    else ([], c :: rest)

def inRange (n : Int) : Option Int :=
  if -9223372036854775808 ≤ n ∧ n ≤ 9223372036854775807 then some n else none

def readInt (cs : List Char) : Option (Int × List Char) :=
  match cs with
  | '0' :: 'x' :: rest => prefixed 16 (fun c => (Text.hexValue? c).isSome) rest
  | '0' :: 'o' :: rest => prefixed 8 (fun c => '0' ≤ c && c ≤ '7') rest
  | '0' :: 'b' :: rest => prefixed 2 (fun c => c = '0' || c = '1') rest
  | '+' :: rest => decimal 1 rest
  | '-' :: rest => decimal (-1) rest
  | rest => decimal 1 rest
where
  prefixed (base : Nat) (isDigit : Char → Bool) (cs : List Char) : Option (Int × List Char) :=
    match digitRun isDigit cs with
    | ([], _) => none
    | (ds, rest) => do
      let n ← inRange (← valueIn base ds)
      some (n, rest)
  decimal (sign : Int) (cs : List Char) : Option (Int × List Char) :=
    match digitRun Text.isDigit cs with
    | ([], _) => none
    | ('0' :: _ :: _, _) => none
    | (ds, rest) => do
      let n ← inRange (sign * (Text.digitsValue 0 ds : Int))
      some (n, rest)

/-! ## Tables -/

def find? : List (String × Value) → String → Option Value
  | [], _ => none
  | (k, v) :: rest, key => if k = key then some v else find? rest key

def put (entries : List (String × Value)) (key : String) (value : Value) : List (String × Value) :=
  if (find? entries key).isSome then
    entries.map fun e => if e.1 = key then (key, value) else e
  else entries ++ [(key, value)]

/-- Add a value at a dotted key. A table on the way has to be implied or dotted,
and the last part must be new. -/
def addDotted (entries : List (String × Value)) (value : Value) :
    List String → Option (List (String × Value))
  | [] => none
  | [key] => if (find? entries key).isSome then none else some (entries ++ [(key, value)])
  | key :: rest =>
    match find? entries key with
    | none => do
      let inner ← addDotted [] value rest
      some (entries ++ [(key, .table .dotted inner)])
    | some (.table origin inner) =>
      if origin = .implied ∨ origin = .dotted then do
        let inner ← addDotted inner value rest
        some (put entries key (.table origin inner))
      else none
    | some _ => none

/-- Open the table of a header. It must be new, or implied by another header. -/
def openTable (entries : List (String × Value)) : List String → Option (List (String × Value))
  | [] => none
  | [key] =>
    match find? entries key with
    | none => some (entries ++ [(key, .table .header [])])
    | some (.table .implied inner) => some (put entries key (.table .header inner))
    | some _ => none
  | key :: rest =>
    match find? entries key with
    | none => do
      let inner ← openTable [] rest
      some (entries ++ [(key, .table .implied inner)])
    | some (.table origin inner) =>
      if origin = .inline then none
      else do
        let inner ← openTable inner rest
        some (put entries key (.table origin inner))
    | some _ => none

/-- Change the entries of the table at a path of keys. -/
def atTable (change : List (String × Value) → Option (List (String × Value)))
    (entries : List (String × Value)) : List String → Option (List (String × Value))
  | [] => change entries
  | key :: rest =>
    match find? entries key with
    | some (.table origin inner) => do
      let inner ← atTable change inner rest
      some (put entries key (.table origin inner))
    | _ => none

/-! ## Values -/

/-- Blanks, comments and line breaks inside an array. -/
def skipArrayBlanks (cs : List Char) : Option (NoLonger cs) := do
  let ⟨found, h⟩ := skipSpaces cs
  match hf : found with
  | '#' :: comment =>
    let ⟨rest, h'⟩ := skip (fun c => !isControl c) comment
    have h₁ : rest.length < cs.length := by
      rw [hf] at h
      simp only [List.length_cons] at h
      omega
    let ⟨after, h₂⟩ ← skipArrayBlanks rest
    some ⟨after, by omega⟩
  | '\n' :: rest =>
    have h₁ : rest.length < cs.length := by
      rw [hf] at h
      simp only [List.length_cons] at h
      omega
    let ⟨after, h₂⟩ ← skipArrayBlanks rest
    some ⟨after, by omega⟩
  | '\r' :: '\n' :: rest =>
    have h₁ : rest.length < cs.length := by
      rw [hf] at h
      simp only [List.length_cons] at h
      omega
    let ⟨after, h₂⟩ ← skipArrayBlanks rest
    some ⟨after, by omega⟩
  | _ => some ⟨found, h⟩
termination_by cs.length

def shorter? (cs rest : List Char) : Option (Shorter cs) :=
  if h : rest.length < cs.length then some ⟨rest, h⟩ else none

def readMark (mark : Char) : (cs : List Char) → Option (Shorter cs)
  | [] => none
  | c :: _ => if c = mark then some Shorter.tail else none

def readBool (cs : List Char) : Option (Bool × Shorter cs) :=
  if cs.take 4 = "true".toList then (shorter? cs (cs.drop 4)).map fun r => (true, r)
  else if cs.take 5 = "false".toList then (shorter? cs (cs.drop 5)).map fun r => (false, r)
  else none

def readScalar (cs : List Char) : Option (Value × Shorter cs) :=
  match readString cs, readBool cs with
  | some (s, r), _ => some (.string s, r)
  | none, some (b, r) => some (.bool b, r)
  | none, none => do
    let (n, after) ← readInt cs
    (shorter? cs after).map fun r => (.int n, r)

mutual

def readValue (cs : List Char) : Option (Value × Shorter cs) :=
  match readMark '[' cs, readMark '\x7b' cs with
  | some ⟨rest, h₁⟩, _ => do
    let ⟨after, h₂⟩ ← skipArrayBlanks rest
    let ⟨after, h₃⟩ ← readMark ']' after
    some (.emptyArray, ⟨after, by omega⟩)
  | none, some ⟨rest, h₁⟩ =>
    let ⟨spaced, h₂⟩ := skipSpaces rest
    match readMark '\x7d' spaced with
    | some ⟨after, h₃⟩ => some (.table .inline [], ⟨after, by omega⟩)
    | none => do
      have h : spaced.length < cs.length := by omega
      let (entries, r) ← readPairs [] spaced
      some (.table .inline entries, r.within (Nat.le_of_lt h))
  | none, none => readScalar cs
termination_by 2 * cs.length
decreasing_by omega

/-- The pairs of an inline table, up to and with its closing brace. -/
def readPairs (entries : List (String × Value)) (cs : List Char) :
    Option (List (String × Value) × Shorter cs) := do
  let (path, ⟨rest, h₁⟩) ← readPath cs
  let ⟨after, h₂⟩ ← readMark '=' rest
  let ⟨spaced, h₃⟩ := skipSpaces after
  let (value, ⟨rest, h₄⟩) ← readValue spaced
  let entries ← addDotted entries value path
  let ⟨found, h₅⟩ := skipSpaces rest
  match readMark '\x7d' found with
  | some ⟨after, h₆⟩ => some (entries, ⟨after, by omega⟩)
  | none =>
    let ⟨after, h₆⟩ ← readMark ',' found
    let ⟨spaced, h₇⟩ := skipSpaces after
    have h : spaced.length < cs.length := by omega
    let (entries, r) ← readPairs entries spaced
    some (entries, r.within (Nat.le_of_lt h))
termination_by 2 * cs.length + 1
decreasing_by
  · omega
  · omega

end

/-! ## Documents -/

/-- Read the lines of a document into its entries; keys are added to the table
at the path `current`. -/
def readLines (entries : List (String × Value)) (current : List String) (cs : List Char) :
    Option (List (String × Value)) :=
  match cs with
  | [] => some entries
  | c :: rest =>
    match skipLineEnd (c :: rest) with
    | some ⟨after, _⟩ =>
      if _ : after.length < (c :: rest).length then readLines entries current after else none
    | none =>
      match (skipSpaces (c :: rest)).1 with
      | '[' :: header => do
        let (path, ⟨after, _⟩) ← readPath (skipSpaces header).1
        match after with
        | ']' :: after =>
          let ⟨after, _⟩ ← skipLineEnd after
          let entries ← openTable entries path
          if _ : after.length < (c :: rest).length then readLines entries path after else none
        | _ => none
      | line => do
        let (path, ⟨after, _⟩) ← readPath line
        match after with
        | '=' :: after =>
          let (value, ⟨after, _⟩) ← readValue (skipSpaces after).1
          let ⟨after, _⟩ ← skipLineEnd after
          let entries ← atTable (fun es => addDotted es value path) entries current
          if _ : after.length < (c :: rest).length then readLines entries current after else none
        | _ => none
termination_by cs.length
decreasing_by all_goals assumption

/-- The entries of a document. A byte order mark may come first. -/
def parse (text : String) : Option (List (String × Value)) :=
  match text.toList with
  | [] => some []
  | c :: rest => readLines [] [] (if c.toNat = 0xFEFF then rest else c :: rest)

end Toml
end AccessPolicy
