import QueryNotation.Proofs.Scanning
import QueryNotation.Proofs.Writing

/-! Names and text literals stay inside their quotes. A reader that knows only the two quote
characters of a dialect finds in a printed text exactly the names and literals of the tree, whatever
they hold. Only an operator or a function that is written as it was given can disturb it. -/

namespace QueryNotation

section NumberText

/-- A character of the text of a number. -/
def Number.isTextChar (c : Char) : Bool := c.isDigit || c ∈ ['-', '+', '.', 'e']

theorem isTextChar_of_mem_toDigits {n : Nat} {c : Char} (h : c ∈ Nat.toDigits 10 n) :
    Number.isTextChar c := by
  simp [Number.isTextChar, Nat.isDigit_of_mem_toDigits (by decide) (by decide) h]

theorem Decimal.positional_chars (d : Decimal) : ∀ c ∈ d.positional, Number.isTextChar c := by
  have hdigit : ∀ c ∈ d.digitList, Number.isTextChar c := fun _ => isTextChar_of_mem_toDigits
  intro c hc
  unfold positional at hc
  simp only at hc
  split at hc
  · simp only [List.mem_append, List.mem_replicate, List.mem_cons, List.not_mem_nil, or_false] at hc
    rcases hc with (hc | ⟨_, rfl⟩) | rfl | rfl
    · exact hdigit c hc
    all_goals decide
  · split at hc
    · rw [List.mem_append, List.mem_cons] at hc
      rcases hc with hc | rfl | hc
      · exact hdigit c (List.mem_of_mem_take hc)
      · decide
      · exact hdigit c (List.mem_of_mem_drop hc)
    · simp only [List.mem_cons, List.cons_append, List.mem_append, List.mem_replicate] at hc
      rcases hc with rfl | rfl | ⟨_, rfl⟩ | hc
      · decide
      · decide
      · decide
      · exact hdigit c hc

theorem Decimal.scientific_chars (d : Decimal) :
    ∀ c ∈ d.scientific Number.layout, Number.isTextChar c := by
  have hdigit : ∀ c ∈ d.digitList, Number.isTextChar c := fun _ => isTextChar_of_mem_toDigits
  intro c hc
  simp only [scientific, List.mem_append] at hc
  rcases hc with (((hc | hc) | hc) | hc) | hc
  · exact hdigit c (List.mem_of_mem_take hc)
  · split at hc
    · cases hc
    · rcases List.mem_cons.mp hc with rfl | hc
      · decide
      · exact hdigit c (List.mem_of_mem_drop hc)
  · exact List.all_eq_true.mp (by decide) c hc
  · split at hc
    · exact List.all_eq_true.mp (by decide) c hc
    · exact List.all_eq_true.mp (by decide) c hc
  · exact isTextChar_of_mem_toDigits hc

/-- The text of a number has digits, signs, a point and an exponent mark. -/
theorem Number.text_chars (n : Number) : ∀ c ∈ n.text.toList, isTextChar c := by
  cases n with
  | integer n =>
    intro c hc
    cases n with
    | ofNat m =>
      change c ∈ (Nat.repr m).toList at hc
      rw [Nat.toList_repr] at hc
      exact isTextChar_of_mem_toDigits hc
    | negSucc m =>
      change c ∈ ("-" ++ Nat.repr (m + 1)).toList at hc
      rw [String.toList_append, List.mem_append, Nat.toList_repr] at hc
      rcases hc with hc | hc
      · exact List.all_eq_true.mp (by decide) c hc
      · exact isTextChar_of_mem_toDigits hc
  | double d =>
    intro c hc
    simp only [text, Decimal.text, String.toList_ofList, List.mem_append] at hc
    rcases hc with hc | hc
    · split at hc
      · exact List.all_eq_true.mp (by decide) c hc
      · cases hc
    · split at hc
      · exact d.positional_chars c hc
      · exact d.scientific_chars c hc

end NumberText

section PlainText

/-- A character of the texts that a dialect writes outside quotes. -/
def isPlainChar (c : Char) : Bool :=
  Sql.isGlueChar c || c ∈ ['_', '(', ')', '<', '>', '!', '+', '-', '/', '%', '|', '$', '?']

/-- Whether a text has plain characters only. -/
def isPlain (s : String) : Bool := s.toList.all isPlainChar

theorem isPlain_append {s t : String} (hs : isPlain s) (ht : isPlain t) : isPlain (s ++ t) := by
  unfold isPlain at *
  rw [String.toList_append, List.all_append, hs, ht]
  rfl

theorem isPlain_of_isGlue {s : String} (h : Sql.isGlue s) : isPlain s := by
  simp only [Sql.isGlue, Bool.and_eq_true, List.all_eq_true] at h
  refine List.all_eq_true.mpr fun c hc => ?_
  simp [isPlainChar, h.2 c hc]

theorem isPlainChar_of_isDigit {c : Char} (h : c.isDigit) : isPlainChar c := by
  simp [isPlainChar, Sql.isGlueChar, Char.isAlphanum, h]

theorem isPlain_nat (n : Nat) : isPlain (toString n) := by
  refine List.all_eq_true.mpr fun c hc => isPlainChar_of_isDigit ?_
  change c ∈ (Nat.repr n).toList at hc
  rw [Nat.toList_repr] at hc
  exact Nat.isDigit_of_mem_toDigits (by decide) (by decide) hc

theorem isPlain_number (n : Number) : isPlain n.text := by
  refine List.all_eq_true.mpr fun c hc => ?_
  have htext := n.text_chars c hc
  simp only [Number.isTextChar, Bool.or_eq_true, decide_eq_true_eq] at htext
  rcases htext with hdigit | hmem
  · exact isPlainChar_of_isDigit hdigit
  · exact List.all_eq_true.mp (by decide) c hmem

/-- The quote characters of a text whose names are quoted by `q`. -/
def quoteChars (q : Char) : List Char := [q, Dialect.textQuote]

/-- Plain text has no quote in it. -/
theorem unquoted_of_isPlain {q : Char} (hq : ¬ isPlainChar q) {s : String} (hs : isPlain s) :
    Text.Unquoted (quoteChars q) s := by
  intro c hc hmem
  have hplain : isPlainChar c := List.all_eq_true.mp hs c hc
  simp only [quoteChars, List.mem_cons, List.not_mem_nil, or_false] at hmem
  rcases hmem with rfl | rfl
  · exact hq hplain
  · exact absurd hplain (by decide)

end PlainText

namespace Dialect

/-- The texts of a dialect are plain. An operator of its own or a function that it does not know is
written as it was given. -/
structure PlainTexts (d : Dialect) : Prop where
  bool : ∀ b, isPlain (d.boolText b)
  type : ∀ declared, isPlain (d.typeName declared)
  placeholder : ∀ index, isPlain (d.placeholder index)
  operator : ∀ op, isPlain (d.operatorText op) ∨ op = .custom (d.operatorText op)
  function : ∀ name, isPlain (d.functionName name) ∨ d.functionName name = name

theorem isPlain_wordBool (b : Bool) : isPlain (wordBool b) := by
  cases b <;> decide

theorem isPlain_numberBool (b : Bool) : isPlain (numberBool b) := by
  cases b <;> decide

theorem isPlain_standardType (declared : String) : isPlain (standardType declared) := by
  unfold standardType
  split <;> decide

theorem isPlain_operator (op : Sql.Operator) : isPlain op.text ∨ op = .custom op.text := by
  cases op with
  | custom token => exact .inr rfl
  | _ => exact .inl (by decide)

theorem isPlain_standardFunction (name : String) :
    isPlain (standardFunction name) ∨ standardFunction name = name := by
  have hall : standardFunctions.all isPlain := by decide
  unfold standardFunction
  simp only
  split
  · exact .inl (by decide)
  · split
    · rename_i hmem
      exact .inl (List.all_eq_true.mp hall _ (List.contains_iff_mem.mp hmem))
    · exact .inr rfl

theorem isPlain_mysqlType (declared : String) : isPlain (mysqlType declared) := by
  unfold mysqlType
  split
  case h_7 => exact isPlain_standardType declared
  all_goals decide

theorem isPlain_postgresType (declared : String) : isPlain (postgresType declared) := by
  unfold postgresType
  split
  case h_7 => exact isPlain_standardType declared
  all_goals decide

theorem isPlain_sqliteType (declared : String) : isPlain (sqliteType declared) := by
  unfold sqliteType
  split <;> decide

/-- A dialect may call one standard function by another plain name. -/
theorem isPlain_renamed (standard : String) {own : String} (hown : isPlain own) (name : String) :
    isPlain (if standardFunction name = standard then own else standardFunction name) ∨
      (if standardFunction name = standard then own else standardFunction name) = name := by
  split
  · exact .inl hown
  · exact isPlain_standardFunction name

theorem isPlain_mark (mark : String) (h : isPlain mark) (index : Nat) :
    isPlain (mark ++ toString index) :=
  isPlain_append h (isPlain_nat index)

-- The fields of a dialect are opened by `simp`. To compare one with its definition by unfolding
-- would run both on an unknown name.
theorem plainTexts_ansi : ansi.PlainTexts := by
  constructor <;> simp only [ansi]
  · exact isPlain_wordBool
  · exact isPlain_standardType
  · exact isPlain_mark "$" (by decide)
  · exact isPlain_operator
  · exact isPlain_standardFunction

theorem plainTexts_mysql : mysql.PlainTexts := by
  constructor <;> simp only [mysql, ansi]
  · exact isPlain_numberBool
  · exact isPlain_mysqlType
  · intro index
    decide
  · exact isPlain_operator
  · exact isPlain_standardFunction

theorem plainTexts_postgres : postgres.PlainTexts := by
  constructor <;> simp only [postgres, ansi, postgresFunction]
  · exact isPlain_wordBool
  · exact isPlain_postgresType
  · exact isPlain_mark "$" (by decide)
  · exact isPlain_operator
  · exact isPlain_renamed "IFNULL" (by decide)

theorem plainTexts_sqlite : sqlite.PlainTexts := by
  constructor <;> simp only [sqlite, ansi, sqliteFunction]
  · exact isPlain_numberBool
  · exact isPlain_sqliteType
  · exact isPlain_mark "?" (by decide)
  · exact isPlain_operator
  · exact isPlain_renamed "SUBSTRING" (by decide)

theorem plainTexts_of_builtin {d : Dialect} (h : d ∈ builtins) : d.PlainTexts := by
  simp only [builtins, List.mem_cons, List.not_mem_nil, or_false] at h
  rcases h with rfl | rfl | rfl | rfl
  · exact plainTexts_ansi
  · exact plainTexts_postgres
  · exact plainTexts_sqlite
  · exact plainTexts_mysql

/-- Quoting tells quote characters apart. -/
theorem quote_unique {p q : Char} (h : Text.quoted p = Text.quoted q) : p = q := by
  have hchars := congrArg String.toList (congrFun h "")
  simp only [Text.quoted, String.toList_ofList] at hchars
  exact (List.cons.inj hchars).1

theorem quote_not_plain {d : Dialect} (h : d ∈ builtins) {q : Char}
    (hq : d.quoteName = Text.quoted q) : ¬ isPlainChar q := by
  simp only [builtins, List.mem_cons, List.not_mem_nil, or_false] at h
  rcases h with rfl | rfl | rfl | rfl <;> rw [← quote_unique hq] <;> decide

/-- How a piece reads: a name or a literal is one lexeme, all else is plain. -/
def lexemes (d : Dialect) (q : Char) : Sql.Piece → List Text.Lexeme
  | .plain s => s.toList.map .plain
  | .name s => [.quoted q s]
  | .text s => [.quoted textQuote s]
  | .param index => (d.placeholder index).toList.map .plain

theorem toList_text_append (d : Dialect) (xs ys : List Sql.Piece) :
    (d.text (xs ++ ys)).toList = (d.text xs).toList ++ (d.text ys).toList := by
  simp [text, String.toList_join]

theorem toList_text_cons (d : Dialect) (x : Sql.Piece) (xs : List Sql.Piece) :
    (d.text (x :: xs)).toList = (d.pieceText x).toList ++ (d.text xs).toList := by
  simp [text, String.toList_join]

theorem text_append (d : Dialect) (xs ys : List Sql.Piece) :
    d.text (xs ++ ys) = d.text xs ++ d.text ys := by
  rw [← String.toList_inj, toList_text_append, String.toList_append]

theorem text_cons (d : Dialect) (x : Sql.Piece) (xs : List Sql.Piece) :
    d.text (x :: xs) = d.pieceText x ++ d.text xs := by
  rw [← String.toList_inj, toList_text_cons, String.toList_append]

theorem text_parens (d : Dialect) (pieces : List Sql.Piece) :
    d.text (Sql.Piece.parens pieces) = "(" ++ d.text pieces ++ ")" := by
  rw [Sql.Piece.parens, text_append, text_cons]
  rfl

/-- The text of pieces reads as the pieces do. -/
def ReadsBack (d : Dialect) (q : Char) (xs : List Sql.Piece) : Prop :=
  Text.Reads (quoteChars q) (d.text xs).toList (xs.flatMap (d.lexemes q))

namespace ReadsBack

variable {d : Dialect} {q : Char} {xs ys : List Sql.Piece} {s : String}

theorem nil : d.ReadsBack q [] := Text.Reads.nil

theorem single {x : Sql.Piece}
    (hx : Text.Reads (quoteChars q) (d.pieceText x).toList (d.lexemes q x)) :
    d.ReadsBack q [x] := by
  rw [ReadsBack, toList_text_cons, List.flatMap_cons]
  simpa [text] using hx

theorem plain (hs : Text.Unquoted (quoteChars q) s) : d.ReadsBack q [.plain s] :=
  single (Text.Reads.plain hs)

theorem before (hs : Text.Unquoted (quoteChars q) s) (hys : d.ReadsBack q ys) :
    d.ReadsBack q (.plain s :: ys) := by
  rw [ReadsBack, toList_text_cons, List.flatMap_cons]
  exact Text.Reads.before hs hys

theorem join (hs : Text.Unquoted (quoteChars q) s) (hne : s.toList ≠ []) (hxs : d.ReadsBack q xs)
    (hys : d.ReadsBack q ys) : d.ReadsBack q (xs ++ .plain s :: ys) := by
  rw [ReadsBack, toList_text_append, toList_text_cons, List.flatMap_append, List.flatMap_cons]
  exact Text.Reads.join hs hne hxs hys

end ReadsBack

end Dialect

namespace Sql

/-- An operator and a function are written without quotes. -/
def Part.Unquoted (d : Dialect) (quotes : List Char) : Part → Prop
  | .operator op => Text.Unquoted quotes (d.operatorText op)
  | .function called => Text.Unquoted quotes (d.functionName called)
  | _ => True

/-- What a name or a literal reads as: its quote character and its contents. -/
def Piece.token? (q : Char) : Piece → Option (Char × String)
  | .name s => some (q, s)
  | .text s => some (Dialect.textQuote, s)
  | _ => none

/-- What a name or a literal of a tree reads as. -/
def Part.token? (q : Char) : Part → Option (Char × String)
  | .name s => some (q, s)
  | .text s => some (Dialect.textQuote, s)
  | _ => none

/-- Written parts read back: between two quoted ones there is always some text, and it has no quote
in it. -/
theorem Writes.readsBack {d : Dialect} (hd : d.PlainTexts) {q : Char}
    (hname : d.quoteName = Text.quoted q) (hq : ¬ isPlainChar q) {a : List Part} {xs : List Piece}
    (h : Writes d a xs) (hparts : ∀ p ∈ a, p.Unquoted d (quoteChars q)) : d.ReadsBack q xs := by
  induction h with
  | nil => exact .nil
  | @leaf p piece hpiece =>
    refine .single ?_
    cases p with
    | name s =>
      cases hpiece
      rw [Dialect.pieceText, hname]
      exact .quoted (by simp [quoteChars]) s
    | text s =>
      cases hpiece
      exact .quoted (by simp [quoteChars]) s
    | param index =>
      cases hpiece
      exact .plain (unquoted_of_isPlain hq (hd.placeholder index))
    | _ => cases hpiece
  | nulls => exact .nil
  | limit => exact .nil
  | bool b => exact .plain (unquoted_of_isPlain hq (hd.bool b))
  | number n => exact .plain (unquoted_of_isPlain hq (isPlain_number n))
  | glue s hs left right ihl ihr =>
    simp only [List.mem_append, or_imp, forall_and] at hparts
    -- The text between is not empty, so a quote at the end of the left side is not read as half of
    -- a doubled one.
    have hne : s.toList ≠ [] := by
      intro hnil
      simp [isGlue, hnil] at hs
    exact .join (unquoted_of_isPlain hq (isPlain_of_isGlue hs)) hne (ihl hparts.1) (ihr hparts.2)
  | operator op left right ihl ihr =>
    simp only [List.mem_append, List.mem_cons, or_imp, forall_and, forall_eq] at hparts
    obtain ⟨hl, hop, hr⟩ := hparts
    have hspace : Text.Unquoted (quoteChars q) " " := unquoted_of_isPlain hq (by decide)
    exact .join ((hspace.append hop).append hspace) (by simp) (ihl hl) (ihr hr)
  | parens inner ih =>
    have hopen : Text.Unquoted (quoteChars q) "(" := unquoted_of_isPlain hq (by decide)
    have hclose : Text.Unquoted (quoteChars q) ")" := unquoted_of_isPlain hq (by decide)
    exact .join hclose (by decide) (.before hopen (ih hparts)) .nil
  | function name args ih =>
    simp only [List.mem_cons, or_imp, forall_and, forall_eq] at hparts
    exact .before hparts.1 (ih hparts.2)
  | cast type operand ih =>
    simp only [List.mem_append, or_imp, forall_and] at hparts
    have hopen : Text.Unquoted (quoteChars q) "CAST(" := unquoted_of_isPlain hq (by decide)
    have htype : isPlain (" AS " ++ d.typeName type ++ ")") :=
      isPlain_append (isPlain_append (by decide) (hd.type type)) (by decide)
    exact .join (unquoted_of_isPlain hq htype) (by simp) (.before hopen (ih hparts.1)) .nil

/-- In plain dialects only an operator or a function that is written as given can have a quote. -/
theorem Part.unquoted_of_given {d : Dialect} (hd : d.PlainTexts) {q : Char} (hq : ¬ isPlainChar q)
    {p : Part} (hop : ∀ token, p = .operator (.custom token) → Text.Unquoted (quoteChars q) token)
    (hfun : ∀ f, p = .function f → d.functionName f = f → Text.Unquoted (quoteChars q) f) :
    p.Unquoted d (quoteChars q) := by
  cases p with
  | operator op =>
    rcases hd.operator op with hplain | hgiven
    · exact unquoted_of_isPlain hq hplain
    · exact hop _ (congrArg Part.operator hgiven)
  | function f =>
    rcases hd.function f with hplain | hgiven
    · exact unquoted_of_isPlain hq hplain
    · rw [Part.Unquoted, hgiven]
      exact hfun f rfl hgiven
  | _ => exact True.intro

theorem Piece.filterMap_lexemes (d : Dialect) (q : Char) (xs : List Piece) :
    (xs.flatMap (d.lexemes q)).filterMap Text.Lexeme.quoted? = xs.filterMap (token? q) := by
  have hplain (s : String) :
      (s.toList.map Text.Lexeme.plain).filterMap Text.Lexeme.quoted? = [] := by
    simp [List.filterMap_map, Function.comp_def, Text.Lexeme.quoted?]
  induction xs with
  | nil => rfl
  | cons x xs ih =>
    rw [List.flatMap_cons, List.filterMap_append, ih]
    cases x with
    | plain s => rw [Dialect.lexemes, hplain]; rfl
    | name s => rfl
    | text s => rfl
    | param index => rw [Dialect.lexemes, hplain]; rfl

/-- The quoted lexemes of written parts are the names and literals among the parts. -/
theorem Writes.tokens {d : Dialect} (q : Char) {a : List Part} {xs : List Piece}
    (h : Writes d a xs) :
    (xs.flatMap (d.lexemes q)).filterMap Text.Lexeme.quoted? = a.filterMap (Part.token? q) := by
  rw [Piece.filterMap_lexemes, h.filterMap_pieces fun _ => rfl]
  congr 1
  funext p
  cases p <;> rfl

end Sql

/-- A text in a dialect that is always there reads to its end, and the quoted parts that are found
in it are the names and the text literals of the statement in the order in which it is written. It
needs only that operators and functions which are written as given have no quote in them. -/
theorem Dialect.scan_generate {d : Dialect} (hd : d ∈ Dialect.builtins) {q : Char}
    (hq : d.quoteName = Text.quoted q) {t : Sql.Statement}
    (hops : ∀ token, .operator (.custom token) ∈ t.writtenParts →
      Text.Unquoted (quoteChars q) token)
    (hfuns : ∀ f, .function f ∈ t.writtenParts → d.functionName f = f →
      Text.Unquoted (quoteChars q) f)
    {sql : String} (hsql : d.generate t = .ok sql) :
    ∃ lexemes, Text.scan (quoteChars q) sql.toList = some lexemes ∧
      lexemes.filterMap Text.Lexeme.quoted? = t.writtenParts.filterMap (Sql.Part.token? q) := by
  obtain ⟨pieces, hprint, rfl⟩ := Outcome.map_eq_ok.mp hsql
  have hwrites := Sql.Statement.print_writes (Dialect.defaultLimit_of_builtin hd) hprint
  have hplain := Dialect.plainTexts_of_builtin hd
  have hquote := Dialect.quote_not_plain hd hq
  have hparts : ∀ p ∈ t.writtenParts, p.Unquoted d (quoteChars q) := by
    intro p hp
    refine Sql.Part.unquoted_of_given hplain hquote ?_ ?_
    · rintro token rfl
      exact hops token hp
    · rintro f rfl
      exact hfuns f hp
  exact ⟨_, (hwrites.readsBack hplain hq hquote hparts).scan_eq, hwrites.tokens q⟩

/-- A select whose names and literals are made of quotes and of SQL. -/
def selectWithQuotes : Sql.Statement := .select {
  columns := [
    .expr (.call "json_path" [.ref ⟨["a`b", "*"], none⟩] none) (some "x'y"),
    .expr (.ref ⟨["``"], none⟩) none]
  source := .join .cross (.table ⟨["A'; --"], some "`"⟩) (.table ⟨["B"], none⟩)
    (some (.literal (.text "hidden"))) none
  filter := some (.binary (.custom "@>") (.literal (.text "'--'")) (.literal (.text "`")))
  groupBy := []
  having := none
  orderBy := []
  limit := none
  distinct := false
  label := none }

/-- In MySQL all of them read back; the literal in the condition of the cross join is not there. -/
theorem selectWithQuotes_scan : ∃ sql lexemes, Dialect.mysql.generate selectWithQuotes = .ok sql ∧
    Text.scan (quoteChars '\x60') sql.toList = some lexemes ∧
    lexemes.filterMap Text.Lexeme.quoted? = [
      ('\x60', "a`b"), ('\x60', "x'y"), ('\x60', "``"), ('\x60', "A'; --"), ('\x60', "`"),
      ('\x60', "B"), ('\x27', "'--'"), ('\x27', "`")] := by
  have hparts : selectWithQuotes.writtenParts = [
      .function "json_path", .name "a`b", .name "x'y", .name "``", .name "A'; --", .name "`",
      .name "B", .text "'--'", .operator (.custom "@>"), .text "`"] := rfl
  have hops (token : String) (h : .operator (.custom token) ∈ selectWithQuotes.writtenParts) :
      Text.Unquoted (quoteChars '\x60') token := by
    have : token = "@>" := by simpa [hparts] using h
    subst this
    decide
  have hfuns (f : String) (h : .function f ∈ selectWithQuotes.writtenParts)
      (_ : Dialect.mysql.functionName f = f) : Text.Unquoted (quoteChars '\x60') f := by
    have : f = "json_path" := by simpa [hparts] using h
    subst this
    decide
  obtain ⟨lexemes, hscan, htokens⟩ := Dialect.scan_generate (d := Dialect.mysql)
    (by simp [Dialect.builtins]) rfl hops hfuns rfl
  exact ⟨_, lexemes, rfl, hscan, htokens⟩

end QueryNotation
