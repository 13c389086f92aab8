/-! Upper case for comparison with names written in ASCII. Besides the ASCII letters, ten characters
have an upper-case form made of ASCII letters alone; every other character outside ASCII has none,
so it never takes part in an ASCII name. -/

namespace QueryNotation.Text

/-- The upper-case form of `c` where that form is ASCII, and `c` itself otherwise. -/
def upperAscii (c : Char) : List Char :=
  match c with
  | 'ß' => ['S', 'S']
  | 'ı' => ['I']
  | 'ſ' => ['S']
  | 'ﬀ' => ['F', 'F']
  | 'ﬁ' => ['F', 'I']
  | 'ﬂ' => ['F', 'L']
  | 'ﬃ' => ['F', 'F', 'I']
  | 'ﬄ' => ['F', 'F', 'L']
  | 'ﬅ' => ['S', 'T']
  | 'ﬆ' => ['S', 'T']
  | c => [c.toUpper]

/-- `s` in upper case, as far as that is ASCII. -/
def upper (s : String) : String :=
  String.ofList (s.toList.flatMap upperAscii)

end QueryNotation.Text
