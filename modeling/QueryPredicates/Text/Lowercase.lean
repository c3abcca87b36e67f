import QueryPredicates.Text.CaseTable

/-! Lower-casing of text. Every character has its own lower-case form except the
capital sigma, which becomes a final sigma at the end of a word: when the nearest
character before it that a case context does not look past is cased, and the
nearest one after it is not. -/

namespace QueryPredicates.Text

def isCased (c : Char) : Bool := inRanges casedRanges c.toNat

def isCaseIgnorable (c : Char) : Bool := inRanges caseIgnorableRanges c.toNat

def lowerOf (c : Char) : List Char :=
  if c = 'İ' then ['i', '\u0307']
  else match lowerRuns.find? (·.covers c.toNat) with
    | some run => [Char.ofNat (c.toNat + run.shift).toNat]
    | none => [c]

/-- Whether the first character that a case context does not look past is cased. -/
def meetsCased (cs : List Char) : Bool :=
  match cs.dropWhile isCaseIgnorable with
  | c :: _ => isCased c
  | [] => false

/-- Lower-cases the rest of a text; `before` holds what precedes it, nearest first. -/
def lowerAfter (before : List Char) : List Char → List Char
  | [] => []
  | c :: after =>
    let lowered :=
      if c = 'Σ' then [if meetsCased before && !meetsCased after then 'ς' else 'σ']
      else lowerOf c
    lowered ++ lowerAfter (c :: before) after

def lowercase (cs : List Char) : List Char := lowerAfter [] cs

end QueryPredicates.Text
