import AccessPolicy.Expr.Reader
import AccessPolicy.Program.Basic

/-!
# Reading programs

Statements are read one at a time. After a statement that cannot be read the
tokens are skipped up to the next place where one may begin, so that one run
reports every broken statement up to a limit.
-/

namespace AccessPolicy

/-! ## Properties -/

/-- Do the tokens begin with a property's name and colon? -/
def startsProperty : List Located → Bool
  | ⟨.ident _, _⟩ :: ⟨.mark .colon, _⟩ :: _ => true
  | ⟨.keyword .can, _⟩ :: ⟨.mark .colon, _⟩ :: _ => true
  | _ => false

/-- Read values with commas between them. A comma before a property ends the
values. -/
def readValues : (ts : List Located) → Reading (List Literal) ts
  | [] => .error ⟨.value, []⟩
  | t :: rest =>
    match t.token.literal? with
    | none => .error ⟨.value, t :: rest⟩
    | some value =>
      match rest with
      | ⟨.mark .comma, line⟩ :: after =>
        if startsProperty after then
          .ok ([value], Shorter.tail)
        else
          match readValues after with
          | .error u => .error u
          | .ok (values, r) =>
            .ok (value :: values, r.within (by simp only [List.length_cons]; omega))
      | rest => .ok ([value], Shorter.tail)

/-- The action that a token names, in small letters. -/
def Token.action? : Token → Option String
  | .action spelling => some (asciiLower spelling)
  | .mark .star => some "*"
  | _ => none

def readActionsAfter (seen : List String) : (ts : List Located) → Reading (List String) ts
  | [] => .error ⟨.actionValue, []⟩
  | t :: rest =>
    match t.token.action? with
    | none => .error ⟨.actionValue, t :: rest⟩
    | some action =>
      let seen := if action ∈ seen then seen else seen ++ [action]
      match rest with
      | ⟨.mark .comma, line⟩ :: after =>
        if startsProperty after then
          .ok (seen, Shorter.tail)
        else
          match readActionsAfter seen after with
          | .error u => .error u
          | .ok (actions, r) => .ok (actions, r.within (by simp only [List.length_cons]; omega))
      | rest => .ok (seen, Shorter.tail)

/-- Read actions, each kept where it stands first. -/
def readActions (ts : List Located) : Reading (List String) ts := readActionsAfter [] ts

def readKey : (ts : List Located) → Reading String ts
  | ⟨.ident name, _⟩ :: _ => .ok (name, Shorter.tail)
  | ⟨.keyword .can, _⟩ :: _ => .ok ("can", Shorter.tail)
  | ts => .error ⟨.propertyName, ts⟩

/-- Read the values of a property: actions for `can`, any values for others. -/
def readPropertyValues (key : String) (ts : List Located) : Reading (List Literal) ts :=
  if key = "can" then (readActions ts).map fun (actions, r) => (actions.map .string, r)
  else readValues ts

/-- Read properties up to the closing brace. Commas between them may be left
out, and a later value of a name takes the place of an earlier one. -/
def readProperties (properties : Properties) (ts : List Located) :
    Except Unexpected (Properties × NoLonger ts) :=
  match ts with
  | ⟨.mark .rightBrace, line⟩ :: rest =>
    .ok (properties, NoLonger.all)
  | ts =>
    match readKey ts with
    | .error u => .error u
    | .ok (key, ⟨ts₁, h₁⟩) =>
      match Reading.expect (.mark .colon) .colon ts₁ with
      | .error u => .error u
      | .ok ⟨ts₂, h₂⟩ =>
        match readPropertyValues key ts₂ with
        | .error u => .error u
        | .ok (values, ⟨ts₃, h₃⟩) =>
          let properties := NameMap.insert key values properties
          have h : ts₃.length < ts.length := by omega
          match ts₃ with
          | ⟨.mark .comma, _⟩ :: ts₄ =>
            match readProperties properties ts₄ with
            | .error u => .error u
            | .ok (ps, r) => .ok (ps, ⟨r.1, by
                have := r.2
                simp only [List.length_cons] at h
                omega⟩)
          | ⟨.mark .rightBrace, line⟩ :: rest =>
            .ok (properties, ⟨⟨.mark .rightBrace, line⟩ :: rest, Nat.le_of_lt h⟩)
          | ts₃ =>
            if startsProperty ts₃ then
              match readProperties properties ts₃ with
              | .error u => .error u
              | .ok (ps, r) => .ok (ps, ⟨r.1, by
                  have := r.2
                  omega⟩)
            else .error ⟨.separator, ts₃⟩
termination_by ts.length
decreasing_by
  · simp only [List.length_cons] at h
    omega
  · omega

/-! ## Statements -/

def readDefinition (line : Nat) (ts : List Located) : Reading Definition ts := do
  let (name, ⟨ts₁, h₁⟩) ← Reading.identifier .definitionName ts
  let ⟨ts₂, h₂⟩ ← Reading.expect (.mark .leftBrace) .leftBrace ts₁
  let (properties, ⟨ts₃, h₃⟩) ← readProperties [] ts₂
  let ⟨ts₄, h₄⟩ ← Reading.expect (.mark .rightBrace) .rightBrace ts₃
  return (⟨name, properties, line⟩, ⟨ts₄, by omega⟩)

/-- Read the segments of a dotted path after its first; `.*` ends it. -/
def readSegments (path : String) : (ts : List Located) → Except Unexpected (String × NoLonger ts)
  | ⟨.mark .dot, _⟩ :: ⟨.ident segment, _⟩ :: rest =>
    match readSegments (path ++ "." ++ segment) rest with
    | .error u => .error u
    | .ok (path, r) => .ok (path, ⟨r.1, by
        have := r.2
        simp only [List.length_cons]
        omega⟩)
  | ⟨.mark .dot, _⟩ :: ⟨.mark .star, _⟩ :: rest =>
    .ok (path ++ ".*", ⟨rest, by simp only [List.length_cons]; omega⟩)
  | ⟨.mark .dot, _⟩ :: rest => .error ⟨.segment, rest⟩
  | ts => .ok (path, NoLonger.all)

/-- Read a resource: a string, a name, a dotted path, or `*`. -/
def readResource : (ts : List Located) → Reading String ts
  | ⟨.string s, _⟩ :: _ => .ok (s, Shorter.tail)
  | ⟨.mark .star, _⟩ :: _ => .ok ("*", Shorter.tail)
  | ⟨.ident name, _⟩ :: rest =>
    match readSegments name rest with
    | .error u => .error u
    | .ok (path, r) => .ok (path, r.inside (Nat.lt_succ_self _))
  | ts => .error ⟨.resource, ts⟩

def readCondition : (ts : List Located) → Except Unexpected (Option Expr × NoLonger ts)
  | ⟨.keyword .ifWord, _⟩ :: ts => do
    let ⟨ts₁, h₁⟩ ← Reading.expect (.mark .leftParen) .conditionStart ts
    let (e, ⟨ts₂, h₂⟩) ← Expr.read ts₁
    let ⟨ts₃, h₃⟩ ← Reading.expect (.mark .rightParen) .rightParen ts₂
    return (some e, ⟨ts₃, by simp only [List.length_cons]; omega⟩)
  | ts => .ok (none, NoLonger.all)

def readRule (effect : Effect) (line : Nat) (ts : List Located) : Reading Rule ts := do
  let ⟨ts₁, h₁⟩ ← Reading.expect (.keyword .action) .actionWord ts
  let ⟨ts₂, h₂⟩ ← Reading.expect (.mark .colon) .colon ts₁
  let (actions, ⟨ts₃, h₃⟩) ← readActions ts₂
  let ⟨ts₄, h₄⟩ ← Reading.expect (.keyword .on) .onWord ts₃
  let ⟨ts₅, h₅⟩ ← Reading.expect (.keyword .resource) .resourceWord ts₄
  let ⟨ts₆, h₆⟩ ← Reading.expect (.mark .colon) .colon ts₅
  let (resource, ⟨ts₇, h₇⟩) ← readResource ts₆
  let (condition, ⟨ts₈, h₈⟩) ← readCondition ts₇
  return (⟨effect, actions, resource, condition, line⟩, ⟨ts₈, by omega⟩)

def Keyword.definitionKind? : Keyword → Option DefinitionKind
  | .role => some .role
  | .user => some .user
  | .resource => some .resource
  | _ => none

def Keyword.effect? : Keyword → Option Effect
  | .allow => some .allow
  | .deny => some .deny
  | _ => none

def Token.startsStatement : Token → Bool
  | .keyword k => k.definitionKind?.isSome || k.effect?.isSome
  | _ => false

def readStatement : (ts : List Located) → Reading Statement ts
  | ⟨.keyword k, line⟩ :: rest =>
    match k.definitionKind?, k.effect? with
    | some kind, _ =>
      (readDefinition line rest).map fun (d, r) => (.definition kind d, r.later)
    | none, some effect =>
      (readRule effect line rest).map fun (rule, r) => (.rule rule, r.later)
    | none, none => .error ⟨.statement, ⟨.keyword k, line⟩ :: rest⟩
  | ts => .error ⟨.statement, ts⟩

/-! ## Programs -/

/-- Skip to a statement's first word outside of braces, or past the brace that
closes the broken definition; `depth` braces opened meanwhile are still open. -/
def recover (depth : Nat) : List Located → List Located
  | [] => []
  | t :: rest =>
    match t.token with
    | .mark .leftBrace => recover (depth + 1) rest
    | .mark .rightBrace =>
      match depth with
      | 0 => rest
      | depth + 1 => recover depth rest
    | token => if depth = 0 ∧ token.startsStatement then t :: rest else recover depth rest

/-- Where reading goes on after a failure at `found` in a statement that began
at `start`: at least one token is passed over. -/
def resume (start found : List Located) : List Located :=
  let rest := recover 0 found
  if rest.length < start.length then rest else start.tail

theorem length_resume_lt {start : List Located} (found : List Located) (h : start ≠ []) :
    (resume start found).length < start.length := by
  unfold resume
  dsimp only
  split
  · assumption
  · cases start with
    | nil => exact absurd rfl h
    | cons t rest => exact Nat.lt_succ_self _

/-- Read statements to the end, or up to the failure that leaves no `budget` for
another one. -/
def readStatements (budget : Nat) : List Located → List Statement × List Unexpected
  | [] => ([], [])
  | t :: ts =>
    match readStatement (t :: ts) with
    | .ok (s, ⟨rest, _⟩) =>
      let (statements, failures) := readStatements budget rest
      (s :: statements, failures)
    | .error u =>
      match budget with
      | 0 => ([], [u])
      | budget + 1 =>
        let (statements, failures) := readStatements budget (resume (t :: ts) u.found)
        (statements, u :: failures)
termination_by ts => ts.length
decreasing_by
  · assumption
  · exact length_resume_lt u.found (List.cons_ne_nil _ _)

/-- The program that some tokens are, or at most `maxErrors` diagnostics, and at
least one. -/
def Program.ofTokens (maxErrors : Nat) (stream : TokenStream) : Except (List Diagnostic) Program :=
  match readStatements (maxErrors - 1) stream.tokens with
  | (statements, []) => .ok ⟨statements⟩
  | (_, failures) => .error (failures.map (Unexpected.diagnostic stream.endLine))

end AccessPolicy
