import AccessPolicy.Expr.Basic
import AccessPolicy.Token.Lexeme
import AccessPolicy.Token.Unexpected

/-!
# Reading conditions

Operators bind in five levels, loosest first: `OR`, `AND`, `NOT`, equality,
comparison. Those of one level group to the left. The node of an operation is
on the line of its operator.
-/

namespace AccessPolicy

def Token.literal? : Token → Option Literal
  | .string s => some (.string s)
  | .ident name => some (.string name)
  | .action spelling => some (.string spelling)
  | .int n => some (.int n)
  | .decimal spelling => some (.decimal spelling)
  | .boolean b => some (.bool b)
  | .mark .star => some (.string "*")
  | _ => none

namespace Expr

/-- The levels with binary operators, loosest first. -/
inductive Layer where
  | disjunction
  | conjunction
  | equality
  | comparison
deriving DecidableEq

/-- All levels: negation stands between conjunction and equality, and operands
are below comparison. -/
inductive Level where
  | layer (l : Layer)
  | negation
  | operand
deriving DecidableEq

namespace Layer

def tighter : Layer → Level
  | .disjunction => .layer .conjunction
  | .conjunction => .negation
  | .equality => .layer .comparison
  | .comparison => .operand

def operator? : Layer → Token → Option BinaryOp
  | .disjunction, .keyword .or => some .or
  | .conjunction, .keyword .and => some .and
  | .equality, .mark .equal => some .equal
  | .equality, .mark .notEqual => some .notEqual
  | .comparison, .mark .less => some .less
  | .comparison, .mark .lessEqual => some .lessEqual
  | .comparison, .mark .greater => some .greater
  | .comparison, .mark .greaterEqual => some .greaterEqual
  | _, _ => none

def height : Layer → Nat
  | .disjunction => 5
  | .conjunction => 4
  | .equality => 2
  | .comparison => 1

end Layer

def Level.height : Level → Nat
  | .layer l => l.height
  | .negation => 3
  | .operand => 0

theorem Level.height_tighter (l : Layer) : l.tighter.height < l.height := by
  cases l <;> decide

theorem Level.height_le (l : Level) : l.height ≤ 5 := by
  rcases l with (_ | _ | _ | _) | _ | _ <;> decide

mutual

def readLevel (l : Level) (ts : List Located) : Reading Expr ts :=
  match l with
  | .layer l => readLayer l ts
  | .negation =>
    match ts with
    | ⟨.keyword .not, line⟩ :: inner =>
      match readLevel .negation inner with
      | .error u => .error u
      | .ok (e, rest) => .ok (.not e line, rest.later)
    | ts => readLayer .equality ts
  | .operand =>
    match ts with
    | ⟨.mark .leftParen, _⟩ :: inner =>
      match readLayer .disjunction inner with
      | .error u => .error u
      | .ok (e, ⟨rest, h⟩) =>
        match Reading.expect (.mark .rightParen) .rightParen rest with
        | .error u => .error u
        | .ok rest' => .ok (e, rest'.within (by simp only [List.length_cons]; omega))
    | ⟨.ident object, line⟩ :: ⟨.mark .dot, _⟩ :: rest =>
      match Reading.identifier .attributeName rest with
      | .error u => .error u
      | .ok (field, rest') =>
        .ok (.attribute object field line, rest'.within (by simp only [List.length_cons]; omega))
    | ⟨token, line⟩ :: rest =>
      match token.literal? with
      | some value => .ok (.literal value line, Shorter.tail)
      | none => .error ⟨.operand, ⟨token, line⟩ :: rest⟩
    | [] => .error ⟨.operand, []⟩
termination_by 16 * ts.length + 2 * l.height + 1
decreasing_by all_goals simp only [List.length_cons, Level.height, Layer.height]; omega

/-- Read operands of the next tighter level with operators of this one between
them. -/
def readLayer (l : Layer) (ts : List Located) : Reading Expr ts :=
  match readLevel l.tighter ts with
  | .error u => .error u
  | .ok (first, ⟨rest, h⟩) =>
    match readMore l first rest with
    | .error u => .error u
    | .ok (e, rest') => .ok (e, rest'.inside h)
termination_by 16 * ts.length + 2 * l.height
decreasing_by
  · have := Level.height_tighter l
    omega
  · omega

/-- Read operators of a level and their right operands, as long as there are
some. -/
def readMore (l : Layer) (left : Expr) (ts : List Located) :
    Except Unexpected (Expr × NoLonger ts) :=
  match ts with
  | [] => .ok (left, NoLonger.all)
  | ⟨token, line⟩ :: after =>
    match l.operator? token with
    | none => .ok (left, NoLonger.all)
    | some op =>
      match readLevel l.tighter after with
      | .error u => .error u
      | .ok (right, ⟨rest, h⟩) =>
        match readMore l (.binary op left right line) rest with
        | .error u => .error u
        | .ok (e, rest') =>
          .ok (e, ⟨rest'.1, Nat.le_of_lt (Nat.lt_of_le_of_lt rest'.2 (Nat.lt_succ_of_lt h))⟩)
termination_by 16 * ts.length
decreasing_by
  · have := Level.height_le l.tighter
    simp only [List.length_cons]
    omega
  · simp only [List.length_cons]
    omega

end

/-- Read an expression from the front of some tokens. -/
def read (ts : List Located) : Reading Expr ts := readLayer .disjunction ts

/-- The expression that a text is as a whole. Lexical faults come before all
others. -/
def ofText (text : String) : Except (List Diagnostic) Expr :=
  match TokenStream.scan text with
  | (⟨ts, endLine⟩, []) =>
    match read ts with
    | .error u => .error [u.diagnostic endLine]
    | .ok (e, ⟨[], _⟩) => .ok e
    | .ok (_, ⟨rest, _⟩) => .error [Unexpected.diagnostic endLine ⟨.conditionEnd, rest⟩]
  | (_, faults) => .error faults

end Expr
end AccessPolicy
