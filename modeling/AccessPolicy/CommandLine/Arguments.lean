import AccessPolicy.Decision.Basic

/-!
# Command line arguments

The arguments name a command, its operands and its options. The general options
may stand before the command or after it; where one is given in both places, the
later counts. An option with a value has it after an equals sign or as the next
argument, and may not be given twice.
-/

namespace AccessPolicy

inductive OutputFormat where
  | text
  | json
deriving DecidableEq

def OutputFormat.names : List (String × OutputFormat) := [("text", .text), ("json", .json)]

/-- How results are written, and whether as little as possible is. -/
structure Style where
  format : OutputFormat
  quiet : Bool

structure Query where
  policy : String
  request : Request
  context : Option String
  audit : Bool

inductive Command where
  | tokenize (file : String)
  | parse (file : String)
  | check (file : String)
  | compile (file : String) (manifest : Bool)
  | validate (file : String)
  | eval (query : Query)
  | permissions (policy user : String)

structure Invocation where
  style : Style
  settings : Option String
  command : Command

inductive Arguments where
  | invoke (i : Invocation)
  | help
  | version
  | misuse

namespace Arguments

/-- The options that may be given at some place: those with a value, and the
values they take, and those without. -/
structure Grammar where
  valued : List (String × (String → Bool))
  flags : List String
  operands : Nat

structure Given where
  values : List (String × String) := []
  flags : List String := []
  operands : List String := []

/-- Why reading stops before the end. -/
inductive Stop where
  | help
  | version
  | misuse

namespace Given

def value? (g : Given) (name : String) : Option String := NameMap.get? g.values name

def hasFlag (g : Given) (name : String) : Bool := name ∈ g.flags

end Given

def anyText : String → Bool := fun _ => true

def nonempty (s : String) : Bool := s ≠ ""

def formatName (s : String) : Bool := NameMap.contains OutputFormat.names s

/-- The general options, which may stand at every place. -/
def general : Grammar :=
  ⟨[("output", formatName), ("config", nonempty)], ["quiet"], 0⟩

def Grammar.extended (valued : List (String × (String → Bool))) (flags : List String) : Grammar :=
  ⟨general.valued ++ valued, general.flags ++ flags, 1⟩

/-- The commands, with what may follow each. -/
def grammars : List (String × Grammar) := [
  ("tokenize", .extended [] []),
  ("parse", .extended [] []),
  ("check", .extended [] []),
  ("compile", .extended [] ["manifest"]),
  ("validate", .extended [] []),
  ("eval", .extended
    [("user", anyText), ("action", anyText), ("resource", anyText), ("context", nonempty)]
    ["audit"]),
  ("permissions", .extended [("user", anyText)] [])]

def isOption (arg : String) : Bool :=
  match arg.toList with
  | '-' :: _ :: _ => true
  | _ => false

/-- The name of a long option and the value attached to it. -/
def longOption? (arg : String) : Option (String × Option String) :=
  match arg.toList with
  | '-' :: '-' :: rest =>
    let name := String.ofList (rest.takeWhile (· != '='))
    match rest.dropWhile (· != '=') with
    | [] => some (name, none)
    | _ :: value => some (name, some (String.ofList value))
  | _ => none

namespace Given

def addValue (grammar : Grammar) (g : Given) (name value : String) : Except Stop Given :=
  match NameMap.get? grammar.valued name with
  | some accepts =>
    if accepts value && (g.value? name).isNone then
      .ok { g with values := (name, value) :: g.values }
    else .error .misuse
  | none => .error .misuse

def addFlag (grammar : Grammar) (g : Given) (name : String) : Except Stop Given :=
  if name = "help" then .error .help
  else if name ∈ grammar.flags && !g.hasFlag name then .ok { g with flags := name :: g.flags }
  else .error .misuse

def addOperand (grammar : Grammar) (g : Given) (operand : String) : Except Stop Given :=
  if g.operands.length < grammar.operands ∧ operand ≠ "" then
    .ok { g with operands := g.operands ++ [operand] }
  else .error .misuse

end Given

/-- What short options after a command ask for. Only that for help is known, and
none is read after it. -/
def shortOption (arg : String) : Stop :=
  match arg.toList with
  | '-' :: 'h' :: _ => .help
  | _ => .misuse

/-- What short options before a command ask for: the version, or what they ask
for after a command. -/
def leadingShortOption (arg : String) : Stop :=
  match arg.toList with
  | '-' :: 'V' :: _ => .version
  | _ => shortOption arg

def readAll (grammar : Grammar) (g : Given) : List String → Except Stop Given
  | [] => .ok g
  | arg :: rest =>
    if arg = "--" then rest.foldlM (Given.addOperand grammar) g
    else
      match longOption? arg with
      | some (name, some value) => do readAll grammar (← g.addValue grammar name value) rest
      | some (name, none) =>
        if NameMap.contains grammar.valued name then
          match rest with
          | value :: rest =>
            if isOption value then .error .misuse
            else do readAll grammar (← g.addValue grammar name value) rest
          | [] => .error .misuse
        else do readAll grammar (← g.addFlag grammar name) rest
      | none =>
        if isOption arg then .error (shortOption arg)
        else do readAll grammar (← g.addOperand grammar arg) rest

/-- Read the arguments before a command, to the command and what follows it. A
value that is an argument of its own is judged at the next option, so one that
stands right before the command may be refused in what is returned. -/
def readLeading (given : Except Stop Given) :
    List String → Except Stop (Except Stop Given × String × List String)
  | [] => .error .misuse
  | arg :: rest =>
    match longOption? arg with
    | some (name, some value) => do
      readLeading (.ok (← (← given).addValue general name value)) rest
    | some (name, none) =>
      if NameMap.contains general.valued name then
        match rest with
        | value :: rest => do
          let g ← given
          if isOption value then .error .misuse
          else readLeading (g.addValue general name value) rest
        | [] => .error .misuse
      else do
        let g ← given
        if name = "version" then .error .version
        else readLeading (.ok (← g.addFlag general name)) rest
    | none => do
      if isOption arg then
        let _ ← given
        .error (leadingShortOption arg)
      else .ok (given, arg, rest)

def command? (name : String) (g : Given) : Option Command := do
  let file ← g.operands.head?
  match name with
  | "tokenize" => some (.tokenize file)
  | "parse" => some (.parse file)
  | "check" => some (.check file)
  | "compile" => some (.compile file (g.hasFlag "manifest"))
  | "validate" => some (.validate file)
  | "eval" =>
    let request : Request := ⟨← g.value? "user", ← g.value? "action", ← g.value? "resource"⟩
    some (.eval ⟨file, request, g.value? "context", g.hasFlag "audit"⟩)
  | "permissions" => some (.permissions file (← g.value? "user"))
  | _ => none

def invocation? (leading : Given) (name : String) (following : Given) : Option Invocation := do
  let value (option : String) := (following.value? option).or (leading.value? option)
  let format := ((value "output").bind (NameMap.get? OutputFormat.names)).getD .text
  let quiet := leading.hasFlag "quiet" || following.hasFlag "quiet"
  return ⟨⟨format, quiet⟩, value "config", ← command? name following⟩

/-- Is help asked for by commands in place of a file? -/
def helpTopic (topics : List String) : Bool :=
  match topics with
  | [] => true
  | [topic] => topic = "help" || NameMap.contains grammars topic
  | _ => false

/-- Read the arguments. What a command's own arguments ask for is heard before a
refused value in front of the command is. -/
def read (args : List String) : Arguments :=
  match go with
  | .ok i => .invoke i
  | .error .help => .help
  | .error .version => .version
  | .error .misuse => .misuse
where
  go : Except Stop Invocation := do
    let (leading, name, rest) ← readLeading (.ok {}) args
    match NameMap.get? grammars name with
    | some grammar =>
      let following ← readAll grammar {} rest
      match invocation? (← leading) name following with
      | some i => .ok i
      | none => .error .misuse
    | none => if name = "help" && helpTopic rest then .error .help else .error .misuse

end Arguments
end AccessPolicy
