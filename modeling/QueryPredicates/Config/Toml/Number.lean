import QueryPredicates.Config.Toml.Strings
import QueryPredicates.Text.Digits
import QueryPredicates.Text.Split

/-! Numbers among the words of a document. No setting is a number, so it is enough to tell
numbers from other words: decimal integers without leading zeros, digits under a prefix that
names their base, floats, infinity and NaN. An integer is judged by its leading digits and by
what its underscores stand between; what else its last group holds is never read. Dates are
refused. -/

namespace QueryPredicates.Toml
open QueryPredicates.Text

def isHexDigit (c : Char) : Bool := (hexDigit? c).isSome

/-- Whether every underscore stands between two digits. -/
def isGrouped (isDigit : Char → Bool) (cs : List Char) : Bool :=
  let groups := cut (· == '_') cs
  groups.tail.all (·.head?.any isDigit) && groups.dropLast.all (·.getLast?.any isDigit)

/-- Whether the characters after a prefix are digits of its base; there may be none. -/
def isUnderPrefix (isDigit : Char → Bool) (cs : List Char) : Bool :=
  isGrouped isDigit cs && cs.all fun c => isDigit c || c == '_'

/-- What follows a run of digits and underscores that holds a digit; a zero in front of other
digits is a leading one. -/
def afterDigits? (leadingZero : Bool) (cs : List Char) : Option (List Char) :=
  let run := cs.takeWhile fun c => isDigit c || c == '_'
  let count := run.countP isDigit
  if count == 0 || (!leadingZero && 1 < count && run.head? == some '0') then none
  else some (cs.dropWhile fun c => isDigit c || c == '_')

def afterFraction? : List Char → Option (List Char)
  | '.' :: cs => afterDigits? true cs
  | cs => some cs

def afterExponent? : List Char → Option (List Char)
  | [] => some []
  | c :: cs => if c == 'e' || c == 'E' then afterDigits? true (sign cs).2 else some (c :: cs)

def isFloat (unsigned : List Char) : Bool :=
  ((afterDigits? false unsigned).bind afterFraction?).bind afterExponent? == some []

/-- Whether a word, given also without its sign, is a float or a decimal integer. What has a
point or an `e` after its leading digits is to be a float. -/
def isDecimal (word unsigned : List Char) : Bool :=
  let rest := unsigned.dropWhile isDigit
  if !unsigned.head?.any isDigit then false
  else if rest.head? == some '-' || rest.head? == some ':' then false
  else if rest.any fun c => c == '.' || c == 'e' || c == 'E' then
    isFloat unsigned && isGrouped isDigit word
  else
    (unsigned == ['0'] || unsigned.head? != some '0') &&
      (rest.isEmpty || rest.head? == some '_') && isGrouped isHexDigit word

/-- Whether a word is a number. Only decimal numbers take a sign. -/
def isNumber (word : List Char) : Bool :=
  match word with
  | '0' :: 'x' :: digits => isUnderPrefix isHexDigit digits
  | '0' :: 'o' :: digits => isUnderPrefix (fun c => '0' ≤ c && c ≤ '7') digits
  | '0' :: 'b' :: digits => isUnderPrefix (fun c => c == '0' || c == '1') digits
  | _ =>
    let unsigned := (sign word).2
    unsigned == "inf".toList || unsigned == "nan".toList || isDecimal word unsigned

end QueryPredicates.Toml
