/-! Lower case for comparison with words written in ASCII. Besides the ASCII letters, only the
Kelvin sign has a lower-case form made of ASCII letters alone; every other character outside ASCII
has none, so it never takes part in an ASCII word. -/

namespace QueryNotation.Text

/-- The lower-case form of `c` where that form is ASCII, and `c` itself otherwise. -/
def lowerAscii (c : Char) : Char := if c = '\u212a' then 'k' else c.toLower

/-- `s` in lower case, as far as that is ASCII. -/
def lower (s : String) : String :=
  String.ofList (s.toList.map lowerAscii)

/-- An ASCII letter has its usual lower-case form. -/
theorem lowerAscii_of_lt {c : Char} (h : c.toNat < 128) : lowerAscii c = c.toLower := by
  have hne : c ≠ '\u212a' := by
    rintro rfl
    revert h
    decide
  rw [lowerAscii, if_neg hne]

end QueryNotation.Text
