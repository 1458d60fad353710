/-!
# Tokens
-/

namespace AccessPolicy

inductive Keyword where
  | role
  | user
  | resource
  | allow
  | deny
  | on
  | ifWord
  | and
  | or
  | not
  | action
  | can
deriving DecidableEq

inductive Mark where
  | equal
  | notEqual
  | less
  | lessEqual
  | greater
  | greaterEqual
  | leftBrace
  | rightBrace
  | leftParen
  | rightParen
  | comma
  | colon
  | dot
  | star
deriving DecidableEq

/-- A token. An action word and a decimal number keep their spelling; a string
has its escapes resolved. -/
inductive Token where
  | keyword (k : Keyword)
  | boolean (b : Bool)
  | action (spelling : String)
  | ident (name : String)
  | string (content : String)
  | int (n : Nat)
  | decimal (spelling : String)
  | mark (m : Mark)
deriving DecidableEq

def actionWords : List String :=
  ["read", "write", "delete", "execute", "create", "update", "list"]

/-- The text with ASCII capitals made small. -/
def asciiLower (s : String) : String := String.ofList (s.toList.map Char.toLower)

def Keyword.kind : Keyword → String
  | .role => "ROLE"
  | .user => "USER"
  | .resource => "RESOURCE"
  | .allow => "ALLOW"
  | .deny => "DENY"
  | .on => "ON"
  | .ifWord => "IF"
  | .and => "AND"
  | .or => "OR"
  | .not => "NOT"
  | .action => "ACTION"
  | .can => "CAN"

def Keyword.text : Keyword → String
  | .action => "action"
  | .can => "can"
  | k => k.kind

def Mark.kind : Mark → String
  | .equal => "EQUALS"
  | .notEqual => "NOT_EQUALS"
  | .less => "LESS_THAN"
  | .lessEqual => "LESS_EQUAL"
  | .greater => "GREATER_THAN"
  | .greaterEqual => "GREATER_EQUAL"
  | .leftBrace => "LBRACE"
  | .rightBrace => "RBRACE"
  | .leftParen => "LPAREN"
  | .rightParen => "RPAREN"
  | .comma => "COMMA"
  | .colon => "COLON"
  | .dot => "DOT"
  | .star => "ASTERISK"

def Mark.text : Mark → String
  | .equal => "=="
  | .notEqual => "!="
  | .less => "<"
  | .lessEqual => "<="
  | .greater => ">"
  | .greaterEqual => ">="
  | .leftBrace => "\x7b"
  | .rightBrace => "\x7d"
  | .leftParen => "("
  | .rightParen => ")"
  | .comma => ","
  | .colon => ":"
  | .dot => "."
  | .star => "*"

namespace Token

def kind : Token → String
  | .keyword k => k.kind
  | .boolean b => if b then "TRUE" else "FALSE"
  | .action spelling =>
    match asciiLower spelling with
    | "read" => "READ"
    | "write" => "WRITE"
    | "delete" => "DELETE"
    | "execute" => "EXECUTE"
    | "create" => "CREATE"
    | "update" => "UPDATE"
    | _ => "LIST"
  | .ident _ => "IDENTIFIER"
  | .string _ => "STRING"
  | .int _ => "NUMBER"
  | .decimal _ => "NUMBER"
  | .mark m => m.kind

def text : Token → String
  | .keyword k => k.text
  | .boolean b => if b then "true" else "false"
  | .action spelling => spelling
  | .ident name => name
  | .string content => content
  | .int n => toString n
  | .decimal spelling => spelling
  | .mark m => m.text

/-- The token of a word: a reserved word, an action word or an identifier.
Structural words are told by their exact spelling, the others by their letters
whatever the case. -/
def ofWord (word : String) : Token :=
  match word with
  | "ROLE" => .keyword .role
  | "USER" => .keyword .user
  | "RESOURCE" => .keyword .resource
  | "ALLOW" => .keyword .allow
  | "DENY" => .keyword .deny
  | "ON" => .keyword .on
  | "IF" => .keyword .ifWord
  | "AND" => .keyword .and
  | "OR" => .keyword .or
  | "NOT" => .keyword .not
  | _ =>
    match asciiLower word with
    | "action" => .keyword .action
    | "can" => .keyword .can
    | "true" => .boolean true
    | "false" => .boolean false
    | lower => if actionWords.contains lower then .action word else .ident word

end Token

structure Located where
  token : Token
  line : Nat
deriving DecidableEq

/-- The tokens of a source text, and the line on which the text ends. -/
structure TokenStream where
  tokens : List Located
  endLine : Nat
deriving DecidableEq

end AccessPolicy
