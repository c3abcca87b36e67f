/-! Quoted text: the characters between single quotes, a quote inside written twice. -/

namespace QueryPredicates.Text

def doubleQuotes : List Char → List Char
  | [] => []
  | c :: cs => if c = '\'' then '\'' :: '\'' :: doubleQuotes cs else c :: doubleQuotes cs

def quote (s : String) : String :=
  String.ofList ('\'' :: (doubleQuotes s.toList ++ ['\'']))

end QueryPredicates.Text
