import QueryPredicates.Config.Toml.Strings

/-! Items of a document and how statements build them. A table remembers what brought it
about, which decides who may add to it: a header may complete a table that a longer
header implied, dotted keys may extend tables that dotted keys made, and an inline table
is closed. Nothing is ever defined twice. -/

namespace QueryPredicates.Toml

inductive Origin where
  | header
  | implied
  | dotted
  | inline
  deriving DecidableEq, Repr, Inhabited

inductive Item where
  | string (s : String)
  | boolean (b : Bool)
  /-- Any number, as none is ever looked at. -/
  | number
  | array (items : List Item)
  | table (origin : Origin) (entries : List (String × Item))
  /-- The tables that array headers of one name have made so far. -/
  | tables (elements : List Item)
  deriving Repr, Inhabited

abbrev Entries := List (String × Item)

/-- Puts an item in the place of the one that a key has. -/
def replace (name : String) (item : Item) : Entries → Entries
  | [] => []
  | (other, old) :: rest =>
    if other = name then (other, item) :: rest else (other, old) :: replace name item rest

/-- A change of a table, which may be refused. -/
abbrev Change := Origin → Entries → Option (Origin × Entries)

/-- Makes a change to the last of some tables. -/
def changeLast (change : Change) : List Item → Option (List Item)
  | [] => none
  | [.table origin entries] => do
    let (origin, entries) ← change origin entries
    some [.table origin entries]
  | [_] => none
  | element :: elements => (changeLast change elements).map (element :: ·)

/-- Makes a change to the table at the end of a path, where tables that are missing on
the way are made. -/
def changeAt (byDottedKey : Bool) (change : Change) : List String → Change
  | [], origin, entries => change origin entries
  | name :: path, origin, entries =>
    let inner := changeAt byDottedKey change path
    match entries.lookup name with
    | none => do
      let (sub, made) ← inner (if byDottedKey then .dotted else .implied) []
      some (origin, entries ++ [(name, .table sub made)])
    | some (.table sub old) =>
      if sub == .inline || (byDottedKey && sub == .header) then none
      else do
        let (sub, changed) ← inner sub old
        some (origin, replace name (.table sub changed) entries)
    | some (.tables elements) => do
      let changed ← changeLast inner elements
      some (origin, replace name (.tables changed) entries)
    | some _ => none

/-- Adds a value under a key that is new. -/
def assign (key : Key) (item : Item) : Change :=
  changeAt true (fun origin entries =>
    if (origin == .dotted) == key.path.isEmpty || (entries.lookup key.last).isSome then none
    else some (origin, entries ++ [(key.last, item)])) key.path

/-- Opens a table for a header. -/
def openTable (key : Key) : Change :=
  changeAt false (fun origin entries =>
    match entries.lookup key.last with
    | none => some (origin, entries ++ [(key.last, .table .header [])])
    | some (.table .implied old) => some (origin, replace key.last (.table .header old) entries)
    | some _ => none) key.path

/-- Adds a table for an array header. -/
def openElement (key : Key) : Change :=
  changeAt false (fun origin entries =>
    match entries.lookup key.last with
    | none => some (origin, entries ++ [(key.last, .tables [.table .header []])])
    | some (.tables elements) =>
      some (origin, replace key.last (.tables (elements ++ [.table .header []])) entries)
    | some _ => none) key.path

end QueryPredicates.Toml
