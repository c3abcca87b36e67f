/-! Reading characters one after another. A reader takes what it needs from the front of
a character list or fails. Readers that repeat themselves carry fuel, which `fueled` takes
from the number of characters left; every round takes at least one of them. -/

namespace QueryPredicates.Toml

abbrev Reader := StateT (List Char) Option

namespace Reader

def next : Reader Char := fun cs =>
  match cs with
  | c :: rest => some (c, rest)
  | [] => none

def peek : Reader (Option Char) := fun cs => some (cs.head?, cs)

/-- Takes `word` if it comes next, and tells whether it did. -/
def takes (word : String) : Reader Bool := fun cs =>
  if word.toList.isPrefixOf cs then some (true, cs.drop word.length) else some (false, cs)

def expect (word : String) : Reader Unit := do
  if ← takes word then pure () else failure

def takeRun (p : Char → Bool) : Reader (List Char) := fun cs =>
  some (cs.takeWhile p, cs.dropWhile p)

def fueled {α : Type} (f : Nat → Reader α) : Reader α := fun cs => f (cs.length + 1) cs

/-- Takes exactly `n` characters. -/
def count : Nat → Reader (List Char)
  | 0 => pure []
  | n + 1 => do
    let c ← next
    return c :: (← count n)

end Reader

open Reader

def isSpace (c : Char) : Bool := c == ' ' || c == '\t'

/-- Control characters, which nothing but a tab may show in text or comments. -/
def isControl (c : Char) : Bool := c.toNat < 0x20 || c.toNat == 0x7f

def isPlain (c : Char) : Bool := !isControl c || c == '\t'

def spaces : Reader Unit := do
  let _ ← takeRun isSpace

/-- Takes a line end, if one comes next. -/
def takesNewline : Reader Bool := do
  if ← takes "\n" then return true else takes "\r\n"

def comment : Reader Unit := do
  if ← takes "#" then
    let _ ← takeRun isPlain

/-- What follows spaces, comments and line ends; the flag tells whether a comment is open. -/
def afterGap (inComment : Bool) : List Char → List Char
  | [] => []
  | '\r' :: '\n' :: cs => afterGap false cs
  | c :: cs =>
    if c == '\n' then afterGap false cs
    else if inComment && isPlain c then afterGap true cs
    else if !inComment && isSpace c then afterGap false cs
    else if !inComment && c == '#' then afterGap true cs
    else c :: cs

/-- Takes spaces, comments and line ends. -/
def gap : Reader Unit := fun cs => some ((), afterGap false cs)

/-- Takes the rest of a line on which nothing more may stand. -/
def lineEnd : Reader Unit := do
  spaces
  comment
  if ← takesNewline then return
  if (← peek).isSome then failure

end QueryPredicates.Toml
