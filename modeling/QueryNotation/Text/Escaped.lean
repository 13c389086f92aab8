import QueryNotation.Text.Unprinted

/-! Text as descriptions show it: between double quotes, with escapes for quotes, backslashes and
characters that do not print. -/

namespace QueryNotation.Text

/-- A character as descriptions show it. -/
def escapedChar (c : Char) : List Char :=
  match c with
  | '"' => ['\\', '"']
  | '\\' => ['\\', '\\']
  | '\n' => ['\\', 'n']
  | '\r' => ['\\', 'r']
  | '\t' => ['\\', 't']
  | '\x00' => ['\\', '0']
  | c =>
    if isUnprinted c then '\\' :: 'u' :: '\x7b' :: Nat.toDigits 16 c.toNat ++ ['\x7d'] else [c]

/-- Text between double quotes, with escapes. -/
def escaped (s : String) : String :=
  String.ofList ('"' :: s.toList.flatMap escapedChar ++ ['"'])

end QueryNotation.Text
