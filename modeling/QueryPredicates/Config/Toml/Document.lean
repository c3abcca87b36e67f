import QueryPredicates.Config.Toml.Item
import QueryPredicates.Config.Toml.Number

/-! Documents: one statement a line, each a key with its value, a table header or an
array header. Values are strings, booleans, numbers, arrays and inline tables; line ends and
comments may stand wherever spaces may inside both kinds of brackets, except within a key,
and so may a comma after the last entry. -/

namespace QueryPredicates.Toml
open Reader

/-- Arrays and inline tables may lie at most this deep inside one another. -/
def nestingLimit : Nat := 80

/-- Whether a character belongs to a word: it is no blank, line end or punctuation mark, but
may be a point. -/
def isWordChar (c : Char) : Bool := !("=,[]\x7b\x7d \t#\r\n".toList.contains c)

mutual
/-- Reads a value in which brackets may open at most `room` deep. -/
def value : Nat → Nat → Reader Item
  | 0, _ => failure
  | fuel + 1, room => do
    if let some s ← string? then return .string s
    else if ← takes "[" then
      if room == 0 then failure else return .array (← elements fuel (room - 1))
    else if ← takes "\x7b" then
      if room == 0 then failure else return .table .inline (← pairs fuel (room - 1) [])
    else
      let word ← takeRun isWordChar
      if word == "true".toList then return .boolean true
      else if word == "false".toList then return .boolean false
      else if isNumber word then return .number
      else failure

/-- The rest of an array, up to its bracket. -/
def elements : Nat → Nat → Reader (List Item)
  | 0, _ => failure
  | fuel + 1, room => do
    gap
    if ← takes "]" then return []
    let first ← value fuel room
    gap
    if ← takes "," then return first :: (← elements fuel room)
    expect "]"
    return [first]

/-- The rest of an inline table, up to its brace, added to the entries before. -/
def pairs : Nat → Nat → Entries → Reader Entries
  | 0, _, _ => failure
  | fuel + 1, room, entries => do
    gap
    if ← takes "\x7d" then return entries
    let k ← key
    gap
    expect "="
    gap
    let item ← value fuel room
    let (_, entries) ← StateT.lift (assign k item .inline entries)
    gap
    if ← takes "," then pairs fuel room entries
    else
      expect "\x7d"
      return entries
end

inductive Statement where
  | pair (k : Key) (item : Item)
  | header (k : Key)
  | arrayHeader (k : Key)
  deriving Repr, Inhabited

def statement : Reader Statement := do
  if ← takes "[[" then
    spaces
    let k ← key
    spaces
    expect "]]"
    return .arrayHeader k
  else if ← takes "[" then
    spaces
    let k ← key
    spaces
    expect "]"
    return .header k
  else
    let k ← key
    spaces
    expect "="
    spaces
    return .pair k (← fueled (value · nestingLimit))

def statements : Nat → Reader (List Statement)
  | 0 => failure
  | fuel + 1 => do
    gap
    if (← peek).isNone then return []
    let first ← statement
    lineEnd
    return first :: (← statements fuel)

/-- A document while it is read: the table that the last header opened, as a path from
the root, and the entries of the root. -/
structure Draft where
  current : List String := []
  entries : Entries := []

def Draft.apply (draft : Draft) : Statement → Option Draft
  | .pair k item => do
    let (_, entries) ← changeAt false (assign k item) draft.current .header draft.entries
    some { draft with entries }
  | .header k => do
    let (_, entries) ← openTable k .header draft.entries
    some ⟨k.path ++ [k.last], entries⟩
  | .arrayHeader k => do
    let (_, entries) ← openElement k .header draft.entries
    some ⟨k.path ++ [k.last], entries⟩

/-- Without the byte order mark that a text may begin with. -/
def withoutMark : List Char → List Char
  | '\uFEFF' :: cs => cs
  | cs => cs

/-- Reads a whole document. -/
def document? (source : String) : Option Entries := do
  let (read, rest) ← (fueled statements).run (withoutMark source.toList)
  if rest.isEmpty then
    let draft ← read.foldlM Draft.apply {}
    some draft.entries
  else none

end QueryPredicates.Toml
