import QueryPredicates.Text.Blank

/-! Cutting a character list at separators. `cut` keeps empty pieces, so its
pieces and the separators between them account for every character;
`words` drops them and so gives the maximal blank-free runs. -/

namespace QueryPredicates.Text

def cut (isSeparator : Char → Bool) : List Char → List (List Char)
  | [] => [[]]
  | c :: cs =>
    if isSeparator c then [] :: cut isSeparator cs
    else match cut isSeparator cs with
      | [] => [[c]]
      | piece :: pieces => (c :: piece) :: pieces

theorem cut_ne_nil (p : Char → Bool) (cs : List Char) : cut p cs ≠ [] := by
  cases cs with
  | nil => simp [cut]
  | cons c cs =>
    unfold cut
    split
    · simp
    · split <;> simp

def words (cs : List Char) : List (List Char) :=
  (cut isBlank cs).filter fun piece => !piece.isEmpty

/-- Separates the pieces by `separator`. -/
def join (separator : String) : List String → String
  | [] => ""
  | [piece] => piece
  | piece :: pieces => piece ++ separator ++ join separator pieces

end QueryPredicates.Text
