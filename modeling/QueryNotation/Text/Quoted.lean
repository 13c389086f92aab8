/-! Quoted text: the form of a name or a text literal in SQL. It stands between two quote
characters, and a quote character inside it is written twice. -/

namespace QueryNotation.Text

/-- The characters with every `q` written twice. -/
def doubled (q : Char) : List Char → List Char
  | [] => []
  | c :: cs => if c = q then q :: q :: doubled q cs else c :: doubled q cs

/-- `s` between two `q`, every `q` inside it written twice. -/
def quoted (q : Char) (s : String) : String :=
  String.ofList (q :: doubled q s.toList ++ [q])

/-- Reads to the first `q` that is not doubled: the characters before it, doubled ones once, and
what follows it. -/
def readDoubled (q : Char) : List Char → Option (List Char × List Char)
  | [] => none
  | [c] => if c = q then some ([], []) else none
  | c :: d :: cs =>
    if c = q then
      if d = q then (readDoubled q cs).map fun (s, rest) => (q :: s, rest)
      else some ([], d :: cs)
    else (readDoubled q (d :: cs)).map fun (s, rest) => (c :: s, rest)

/-- Reads text quoted with `q` from the start of `cs`: the text and what follows it. -/
def readQuoted (q : Char) : List Char → Option (List Char × List Char)
  | [] => none
  | c :: cs => if c = q then readDoubled q cs else none

end QueryNotation.Text
