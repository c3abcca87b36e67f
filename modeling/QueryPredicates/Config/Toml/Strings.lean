import QueryPredicates.Config.Toml.Reader

/-! The four kinds of strings, and keys. Basic strings know escapes and literal ones do
not; the multi-line forms drop a line end right after their opening quotes and may
hold up to two quotes right before the closing ones. In a multi-line basic string a
backslash at the end of a line takes all spaces and line ends up to the next character
away. -/

namespace QueryPredicates.Toml
open Reader

def hexDigit? (c : Char) : Option Nat :=
  if '0' ≤ c && c ≤ '9' then some (c.toNat - '0'.toNat)
  else if 'a' ≤ c && c ≤ 'f' then some (c.toNat - 'a'.toNat + 10)
  else if 'A' ≤ c && c ≤ 'F' then some (c.toNat - 'A'.toNat + 10)
  else none

/-- The character with the code point that hexadecimal digits denote, if there is one. -/
def scalar? (digits : List Char) : Option Char := do
  let values ← digits.mapM hexDigit?
  let n := values.foldl (fun n d => 16 * n + d) 0
  if n.isValidChar then some (Char.ofNat n) else none

/-- Reads what follows the backslash of an escape. -/
def escaped : Reader Char := do
  match ← next with
  | 'b' => return '\x08'
  | 't' => return '\t'
  | 'n' => return '\n'
  | 'f' => return '\x0c'
  | 'r' => return '\r'
  | 'e' => return '\x1b'
  | '"' => return '"'
  | '\\' => return '\\'
  | 'x' => StateT.lift (scalar? (← count 2))
  | 'u' => StateT.lift (scalar? (← count 4))
  | 'U' => StateT.lift (scalar? (← count 8))
  | _ => failure

def basicBody : Nat → Reader (List Char)
  | 0 => failure
  | fuel + 1 => do
    match ← next with
    | '"' => return []
    | '\\' =>
      let c ← escaped
      return c :: (← basicBody fuel)
    | c => if isPlain c then return c :: (← basicBody fuel) else failure

def literalBody : Reader (List Char) := do
  let text ← takeRun fun c => isPlain c && c != '\''
  expect "'"
  return text

/-- The quotes before the closing ones of a multi-line string, the latter taken away. -/
def closingQuotes (quote : Char) : Reader (List Char) := do
  if ← takes (String.ofList [quote]) then
    if ← takes (String.ofList [quote]) then return [quote, quote] else return [quote]
  else return []

/-- What follows spaces and line ends. -/
def afterMargin : List Char → List Char
  | [] => []
  | '\r' :: '\n' :: cs => afterMargin cs
  | c :: cs => if isSpace c || c == '\n' then afterMargin cs else c :: cs

/-- Takes the spaces and line ends after a backslash at the end of a line. -/
def joinLines : Reader Unit := do
  spaces
  if ← takesNewline then fun cs => some ((), afterMargin cs) else failure

def multiLineBasicBody : Nat → Reader (List Char)
  | 0 => failure
  | fuel + 1 => do
    if ← takes "\"\"\"" then closingQuotes '"'
    else if ← takes "\r\n" then return '\r' :: '\n' :: (← multiLineBasicBody fuel)
    else match ← next with
      | '\\' =>
        if (← peek).any fun c => isSpace c || c == '\r' || c == '\n' then
          joinLines
          multiLineBasicBody fuel
        else
          let c ← escaped
          return c :: (← multiLineBasicBody fuel)
      | c => if isPlain c || c == '\n' then return c :: (← multiLineBasicBody fuel) else failure

def multiLineLiteralBody : Nat → Reader (List Char)
  | 0 => failure
  | fuel + 1 => do
    if ← takes "'''" then closingQuotes '\''
    else if ← takes "\r\n" then return '\r' :: '\n' :: (← multiLineLiteralBody fuel)
    else
      let c ← next
      if isPlain c || c == '\n' then return c :: (← multiLineLiteralBody fuel) else failure

/-- Reads a string of any kind, if one comes next. -/
def string? : Reader (Option String) := do
  if ← takes "\"\"\"" then
    let _ ← takesNewline
    return some (String.ofList (← fueled multiLineBasicBody))
  else if ← takes "'''" then
    let _ ← takesNewline
    return some (String.ofList (← fueled multiLineLiteralBody))
  else if ← takes "\"" then return some (String.ofList (← fueled basicBody))
  else if ← takes "'" then return some (String.ofList (← literalBody))
  else return none

def isBareKeyChar (c : Char) : Bool := c.isAlphanum || c == '_' || c == '-'

def simpleKey : Reader String := do
  if ← takes "\"" then return String.ofList (← fueled basicBody)
  else if ← takes "'" then return String.ofList (← literalBody)
  else
    let name ← takeRun isBareKeyChar
    if name.isEmpty then failure else return String.ofList name

/-- At most so many further parts of a dotted key. -/
def keyTail : Nat → Reader (List String)
  | 0 => pure []
  | n + 1 => do
    spaces
    if ← takes "." then
      spaces
      let part ← simpleKey
      return part :: (← keyTail n)
    else return []

/-- A key: its parts but the last, and the last. -/
structure Key where
  path : List String
  last : String
  deriving DecidableEq, Repr, Inhabited

/-- A key has at most this many parts. -/
def keyLimit : Nat := 80

def key : Reader Key := do
  let first ← simpleKey
  let parts := first :: (← keyTail (keyLimit - 1))
  return ⟨parts.dropLast, parts.getLastD first⟩

end QueryPredicates.Toml
