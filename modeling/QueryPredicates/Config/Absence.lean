import QueryPredicates.Text.Split

/-! Paths at which there is no file, and why reading there fails. The path alone tells: it is
not well formed, it is too long as a whole, or the first name on it leads nowhere, be it that
the name is too long or that nothing has it. Lengths are counted in bytes. -/

namespace QueryPredicates
open QueryPredicates.Text

inductive Absence where
  | zeroCharacter
  | nameTooLong
  | noSuchFile
  deriving DecidableEq, Repr, Inhabited

namespace Absence

def message : Absence → String
  | zeroCharacter => "file name contained an unexpected NUL byte"
  | nameTooLong => "File name too long (os error 36)"
  | noSuchFile => "No such file or directory (os error 2)"

def pathLimit : Nat := 4095

def nameLimit : Nat := 255

/-- The first name on a path, apart from those of the current and the parent directory, which
are always there. -/
def firstName? (path : List Char) : Option (List Char) :=
  (cut (· == '/') path).find? fun name => !([[], ['.'], ['.', '.']].contains name)

/-- Why there is no file at a path. -/
def ofPath (path : String) : Absence :=
  if path.toList.contains '\x00' then zeroCharacter
  else if pathLimit < path.utf8ByteSize then nameTooLong
  else if (firstName? path.toList).any fun name => nameLimit < (String.ofList name).utf8ByteSize then
    nameTooLong
  else noSuchFile

end Absence
end QueryPredicates
