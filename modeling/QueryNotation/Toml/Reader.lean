/-! Readers: functions that take a part off the front of a text, or refuse it. Of two readers with
`<|>` between them, the second starts where the first did. -/

namespace QueryNotation.Toml

/-- A reader of a part with a value of type `α`. -/
abbrev Reader := StateT (List Char) Option

namespace Reader

/-- Any character. -/
def any : Reader Char := fun
  | c :: cs => some (c, cs)
  | [] => none

/-- A character with this property. -/
def satisfy (p : Char → Bool) : Reader Char := do
  let c ← any
  if p c then return c else failure

/-- This character. -/
def char (c : Char) : Reader Unit := do
  let _ ← satisfy (· = c)

/-- This text. -/
def word (s : String) : Reader Unit := fun cs =>
  if s.toList.isPrefixOf cs then some ((), cs.drop s.length) else none

/-- All characters with this property up to the first without it. -/
def takeWhile (p : Char → Bool) : Reader (List Char) := fun cs =>
  some (cs.takeWhile p, cs.dropWhile p)

/-- The end of the text. -/
def atEnd : Reader Unit := fun cs => if cs.isEmpty then some ((), cs) else none

/-- A part that may be missing. -/
def optional (p : Reader α) : Reader (Option α) := (some <$> p) <|> pure none

/-- A part that must come next, but is not taken. -/
def peek (p : Reader α) : Reader α := fun cs => (p cs).map fun (x, _) => (x, cs)

/-- At most `n` parts, as many as there are. -/
def upTo (p : Reader α) : Nat → Reader (List α)
  | 0 => pure []
  | n + 1 => (do
      let x ← p
      let xs ← upTo p n
      return x :: xs) <|> pure []

/-- As many parts as there are; each takes at least one character, so the length of the text bounds
their number. -/
def many (p : Reader α) : Reader (List α) := fun cs => upTo p cs.length cs

/-- Exactly `n` parts. -/
def times (p : Reader α) : Nat → Reader (List α)
  | 0 => pure []
  | n + 1 => do
    let x ← p
    return x :: (← times p n)

/-- At least one part, with a separator between each two. -/
def separated (p : Reader α) (separator : Reader Unit) : Reader (List α) := do
  let x ← p
  return x :: (← many (do separator; p))

end Reader

end QueryNotation.Toml
