import QueryNotation.Proofs.Rereading

/-! Reading joins back from standard SQL. A join on the left of another is printed as it is, one on
the right in parentheses, and one with an alias in parentheses that the alias follows. So the text
is read from the left: a table or an open parenthesis, then the condition of the join that ends
there, then the next join. What is read is the tree that was printed, and two trees with the same
text are one. -/

namespace QueryNotation.Sql

/-- Joins of tables, in any nesting, whose conditions are chains. -/
inductive Source.Joined : Source → Prop
  | table {path : List String} (h : path ≠ []) (label : Option String) :
      Source.Joined (.table ⟨path, label⟩)
  | join {kind : JoinKind} {l r : Source} {on : Option Expr} (left : l.Joined) (right : r.Joined)
      (hon : ∀ e ∈ on, e.ChainNormal) (hcross : kind = .cross → on = none)
      (label : Option String) : Source.Joined (.join kind l r on label)

/-- The text of a source. -/
def Source.text (d : Dialect) (s : Source) : Except PrintError String := (s.print d).map d.text

section Reader

/-- Reads an alias, if there is one. -/
def readAlias : List Char → Option String × List Char
  | ' ' :: 'A' :: 'S' :: ' ' :: rest =>
    match Text.readQuoted '"' rest with
    | some (s, rest) => (some (String.ofList s), rest)
    | none => (none, rest)
  | cs => (none, cs)

theorem length_readAlias_le (cs : List Char) : (readAlias cs).2.length ≤ cs.length := by
  unfold readAlias
  split
  · split
    · rename_i hread
      have hlength := Text.length_readQuoted_lt hread
      simp only [List.length_cons]
      omega
    · simp only [List.length_cons]
      omega
  · exact Nat.le_refl _

/-- Reads a table. -/
def readTable (cs : List Char) : Option (Ref × List Char) :=
  (readPath cs).map fun p => (⟨p.1, (readAlias p.2).1⟩, (readAlias p.2).2)

theorem length_readTable_lt {cs rest : List Char} {r : Ref}
    (h : readTable cs = some (r, rest)) : rest.length < cs.length := by
  obtain ⟨⟨path, rest'⟩, hpath, ⟨⟩⟩ := Option.map_eq_some_iff.mp h
  have hlength := length_readPath_lt hpath
  have halias := length_readAlias_le rest'
  dsimp only
  omega

/-- The words between the sources of a join. -/
def joinWords (kind : JoinKind) : List Char := (" " ++ kind.keyword ++ " JOIN ").toList

/-- Reads the words between the sources of a join. -/
def readKind (cs : List Char) : Option (JoinKind × List Char) :=
  (JoinKind.all.find? fun kind => (joinWords kind).isPrefixOf cs).map fun kind =>
    (kind, cs.drop (joinWords kind).length)

theorem length_readKind_lt {cs rest : List Char} {kind : JoinKind}
    (h : readKind cs = some (kind, rest)) : rest.length < cs.length := by
  obtain ⟨_, hfind, ⟨⟩⟩ := Option.map_eq_some_iff.mp h
  have hprefix := List.find?_some hfind
  have hlength := (List.isPrefixOf_iff_prefix.mp hprefix).length_le
  have hpos : 0 < (joinWords kind).length := by cases kind <;> decide
  rw [List.length_drop]
  omega

section Chains

variable {stack : List (Expr → Expr)} {e : Expr} {cs : List Char}
  (hclose : ∀ fill stack' rest, stack = fill :: stack' → cs = ')' :: rest → False)

include hclose

theorem readAfter_of_some {op : Operator} {rest : List Char}
    (hread : readOperator cs = some (op, rest)) :
    readAfter stack e cs = readOperand stack (.binary op e) rest := by
  rw [readAfter.eq_2 _ _ _ hclose]
  split
  · rename_i hsome
    rw [hread] at hsome
    cases hsome
    rfl
  · rename_i hnone
    rw [hread] at hnone
    cases hnone

theorem readAfter_of_none (hread : readOperator cs = none) :
    readAfter stack e cs = if stack.isEmpty then some (e, cs) else none := by
  rw [readAfter.eq_2 _ _ _ hclose]
  split
  · rename_i hsome
    rw [hread] at hsome
    cases hsome
  · rfl

end Chains

/-- A chain is read from the front of the text. -/
theorem length_read_le :
    (∀ stack fill cs e rest, readOperand stack fill cs = some (e, rest) →
      rest.length ≤ cs.length) ∧
    ∀ stack e' cs e rest, readAfter stack e' cs = some (e, rest) → rest.length ≤ cs.length := by
  apply readOperand.mutual_induct
  case case1 =>
    intro stack fill cs ih e rest h
    rw [readOperand_open] at h
    exact Nat.le_succ_of_le (ih e rest h)
  case case2 =>
    intro stack fill cs ih e rest h
    have hrest := ih e rest (readOperand_not.symm.trans h)
    simp only [List.length_cons]
    omega
  case case3 =>
    intro stack fill cs hopen hnot hread e rest h
    rw [readOperand.eq_3 _ _ _ hopen hnot] at h
    split at h
    · cases h
    · rename_i hsome
      rw [hread] at hsome
      cases hsome
  case case4 =>
    intro stack fill cs _ _ e' rest' hread ih e rest h
    rw [readOperand_atom hread] at h
    have hrest := ih e rest h
    have hatom := length_readAtom_lt hread
    omega
  case case5 =>
    intro e' fill stack cs ih e rest h
    rw [readAfter_close] at h
    exact Nat.le_succ_of_le (ih e rest h)
  case case6 =>
    intro e' stack cs hclose op rest' hread ih e rest h
    rw [readAfter_of_some hclose hread] at h
    have hrest := ih e rest h
    have hoperator := length_readOperator_lt hread
    omega
  case case7 =>
    intro e' stack cs hclose hread hstack e rest h
    rw [readAfter_of_none hclose hread, if_pos hstack] at h
    cases h
    exact Nat.le_refl _
  case case8 =>
    intro e' stack cs hclose hread hstack e rest h
    rw [readAfter_of_none hclose hread, if_neg hstack] at h
    cases h

/-- Reads the condition of a join; one that always holds stands for none. -/
def readOn : List Char → Option (Option Expr × List Char)
  | ' ' :: 'O' :: 'N' :: ' ' :: rest =>
    match readOperand [] id rest with
    | some (e, rest) => some (some e, rest)
    | none => if "1=1".toList.isPrefixOf rest then some (none, rest.drop 3) else none
  | _ => none

theorem length_readOn_le {cs rest : List Char} {on : Option Expr}
    (h : readOn cs = some (on, rest)) : rest.length ≤ cs.length := by
  unfold readOn at h
  split at h
  · split at h
    · rename_i hread
      cases h
      have hlength := length_read_le.1 _ _ _ _ _ hread
      simp only [List.length_cons]
      omega
    · split at h
      · cases h
        simp only [List.length_cons, List.length_drop]
        omega
      · cases h
  · cases h

/-- What stands to the left of a source: nothing, or a source and the kind of its join. -/
abbrev Left := Option (Source × JoinKind)

/-- Joins a source to what stands to the left of it. -/
def readJoin (left : Left) (s : Source) (cs : List Char) : Option (Source × List Char) :=
  match left with
  | none => some (s, cs)
  | some (l, kind) =>
    if kind = .cross then some (.join kind l s none none, cs)
    else (readOn cs).map fun p => (.join kind l s p.1 none, p.2)

theorem length_readJoin_le {left : Left} {s s' : Source} {cs rest : List Char}
    (h : readJoin left s cs = some (s', rest)) : rest.length ≤ cs.length := by
  unfold readJoin at h
  split at h
  · cases h
    exact Nat.le_refl _
  · split at h
    · cases h
      exact Nat.le_refl _
    · obtain ⟨⟨on, _⟩, hon, ⟨⟩⟩ := Option.map_eq_some_iff.mp h
      exact length_readOn_le hon

/-- A join with another alias. -/
def Source.relabel (label : Option String) : Source → Source
  | .join kind l r on _ => .join kind l r on label
  | s => s

mutual

/-- Reads joins from a source on that has `left` to its left. For every parenthesis that is open,
`stack` has what stands to the left of it. -/
def readSource (stack : List Left) (left : Left) (cs : List Char) : Option (Source × List Char) :=
  match cs with
  | '(' :: rest => readSource (left :: stack) none rest
  | cs =>
    match _hread : readTable cs with
    | none => none
    | some (r, rest) => readJoined stack left (.table r) rest
termination_by 2 * cs.length
decreasing_by
  · simp only [List.length_cons]
    omega
  · have := length_readTable_lt _hread
    omega

/-- Reads joins on after a source that has `left` to its left. -/
def readJoined (stack : List Left) (left : Left) (s : Source) (cs : List Char) :
    Option (Source × List Char) :=
  match _hread : readJoin left s cs with
  | none => none
  | some (s, rest) => readRest stack s rest
termination_by 2 * cs.length + 1
decreasing_by
  have := length_readJoin_le _hread
  omega

/-- Reads joins on after a source that nothing stands to the left of. -/
def readRest (stack : List Left) (s : Source) (cs : List Char) : Option (Source × List Char) :=
  match stack, cs with
  | left :: stack, ')' :: rest =>
    readJoined stack left (s.relabel (readAlias rest).1) (readAlias rest).2
  | stack, cs =>
    match _hread : readKind cs with
    | some (kind, rest) => readSource stack (some (s, kind)) rest
    | none => if stack.isEmpty then some (s, cs) else none
termination_by 2 * cs.length
decreasing_by
  · have := length_readAlias_le rest
    simp only [List.length_cons]
    omega
  · have := length_readKind_lt _hread
    omega

end

end Reader

section RoundTrip

/-- What may follow a source: a blank or the end of a group, or nothing, but neither an alias nor an
operator. -/
structure Follows (rest : List Char) : Prop where
  delimited : Delimited rest
  unaliased : readAlias rest = (none, rest)
  ended : readOperator rest = none

theorem follows_nil : Follows [] := ⟨delimited_nil, rfl, rfl⟩

theorem follows_close (rest : List Char) : Follows (')' :: rest) :=
  ⟨by simp [Delimited], rfl, rfl⟩

theorem follows_joinWords (kind : JoinKind) (rest : List Char) :
    Follows (joinWords kind ++ rest) := by
  cases kind <;> exact ⟨by simp [Delimited, joinWords], rfl, rfl⟩

theorem follows_on (rest : List Char) : Follows (" ON ".toList ++ rest) :=
  ⟨by simp [Delimited], rfl, rfl⟩

theorem readKind_joinWords (kind : JoinKind) (rest : List Char) :
    readKind (joinWords kind ++ rest) = some (kind, rest) := by
  have hfind : (JoinKind.all.find? fun kind' =>
      (joinWords kind').isPrefixOf (joinWords kind ++ rest)) = some kind := by
    cases kind <;> rfl
  rw [readKind, hfind, Option.map_some, List.drop_left]

theorem readAlias_quoted (s : String) {rest : List Char} (hrest : Delimited rest) :
    readAlias (" AS ".toList ++ ((Text.quoted '"' s).toList ++ rest)) = (some s, rest) := by
  change readAlias (' ' :: 'A' :: 'S' :: ' ' :: ((Text.quoted '"' s).toList ++ rest)) = _
  rw [readAlias, Text.readQuoted_quoted (hrest.notMem_head? (c := '"') (by decide))]
  simp

theorem text_aliased (xs : List Piece) (s : String) :
    (Dialect.ansi.text (Piece.aliased xs (some s))).toList =
      (Dialect.ansi.text xs).toList ++ (" AS ".toList ++ (Text.quoted '"' s).toList) := by
  rw [Piece.aliased, Dialect.toList_text_append, Dialect.toList_text_cons, toList_text_single]
  rfl

theorem readTable_text {path : List String} (hpath : path ≠ []) (label : Option String)
    {rest : List Char} (hrest : Follows rest) :
    readTable ((Dialect.ansi.text (Ref.printTable ⟨path, label⟩)).toList ++ rest) =
      some (⟨path, label⟩, rest) := by
  unfold readTable
  cases label with
  | none =>
    rw [Ref.printTable, Piece.aliased, readPath_text hpath hrest.delimited, Option.map_some,
      hrest.unaliased]
  | some s =>
    have hblank : Delimited (" AS ".toList ++ ((Text.quoted '"' s).toList ++ rest)) := by
      simp [Delimited]
    rw [Ref.printTable, text_aliased, List.append_assoc, List.append_assoc,
      readPath_text hpath hblank, Option.map_some, readAlias_quoted s hrest.delimited]

/-- The condition in the text of a join. -/
def onText (kind : JoinKind) (on : Option (List Piece)) : List Char :=
  if kind = .cross then []
  else " ON ".toList ++ (Dialect.ansi.text (on.getD [.plain "1=1"])).toList

theorem text_printJoin (kind : JoinKind) (left right : List Piece) (on : Option (List Piece)) :
    (Dialect.ansi.text (printJoin kind left right on)).toList =
      (Dialect.ansi.text left).toList ++
        (joinWords kind ++ ((Dialect.ansi.text right).toList ++ onText kind on)) := by
  rw [printJoin, List.append_assoc, Dialect.toList_text_append, List.cons_append,
    Dialect.toList_text_cons, Dialect.toList_text_append, onText]
  split
  · rfl
  · rw [Dialect.toList_text_cons]
    rfl

theorem follows_onText {rest : List Char} (hrest : Follows rest) (kind : JoinKind)
    (on : Option (List Piece)) : Follows (onText kind on ++ rest) := by
  unfold onText
  split
  · exact hrest
  · rw [List.append_assoc]
    exact follows_on _

/-- No chain starts as a condition that always holds is written. -/
theorem readOperand_always {rest : List Char} (hrest : Delimited rest) :
    readOperand [] id ("1=1".toList ++ rest) = none := by
  have hatom : readAtom ("1=1".toList ++ rest) = none := by
    cases rest with
    | nil => rfl
    | cons c rest => rcases hrest c rfl with rfl | rfl <;> rfl
  rw [readOperand.eq_3]
  · split
    · rfl
    · rename_i hsome
      rw [hatom] at hsome
      cases hsome
  · rintro _ ⟨⟩
  · rintro _ ⟨⟩

theorem readOn_always {rest : List Char} (hrest : Delimited rest) :
    readOn (" ON ".toList ++ ("1=1".toList ++ rest)) = some (none, rest) := by
  change readOn (' ' :: 'O' :: 'N' :: ' ' :: ("1=1".toList ++ rest)) = _
  rw [readOn, readOperand_always hrest]
  rfl

theorem readOn_text {e : Expr} (h : e.ChainNormal) {xs : List Piece} (hx : e.print .ansi = .ok xs)
    {rest : List Char} (hrest : Follows rest) :
    readOn (" ON ".toList ++ ((Dialect.ansi.text xs).toList ++ rest)) = some (some e, rest) := by
  change readOn (' ' :: 'O' :: 'N' :: ' ' :: ((Dialect.ansi.text xs).toList ++ rest)) = _
  rw [readOn, h.read_text hx hrest.delimited hrest.ended]

/-- A join is read up to the end of its condition. -/
theorem readJoin_onText {kind : JoinKind} {on : Option Expr} (hon : ∀ e ∈ on, e.ChainNormal)
    (hcross : kind = .cross → on = none) {o : Option (List Piece)}
    (ho : printOn .ansi kind on = .ok o) (l s : Source) {rest : List Char} (hrest : Follows rest) :
    readJoin (some (l, kind)) s (onText kind o ++ rest) = some (.join kind l s on none, rest) := by
  by_cases hkind : kind = .cross
  · rw [readJoin, if_pos hkind, onText, if_pos hkind, hcross hkind]
    rfl
  · rw [readJoin, if_neg hkind, onText, if_neg hkind, List.append_assoc]
    cases on with
    | none =>
      cases ho
      change (readOn (" ON ".toList ++ ("1=1".toList ++ rest))).map _ = _
      rw [readOn_always hrest.delimited]
      rfl
    | some e =>
      simp only [printOn, if_neg hkind, Outcome.bind_eq_ok, Outcome.pure_eq_ok] at ho
      obtain ⟨xs, hx, rfl⟩ := ho
      rw [Option.getD_some, readOn_text (hon e rfl) hx hrest]
      rfl

variable {stack : List Left} {left : Left} {s : Source} {cs rest : List Char}

theorem readSource_open :
    readSource stack left ('(' :: rest) = readSource (left :: stack) none rest := by
  rw [readSource]

theorem readSource_table {r : Ref} (h : readTable cs = some (r, rest)) :
    readSource stack left cs = readJoined stack left (.table r) rest := by
  have hopen : ∀ rest', cs ≠ '(' :: rest' := by
    rintro rest' rfl
    rw [readTable, readPath.eq_def] at h
    cases h
  rw [readSource.eq_2 _ _ _ hopen]
  split
  · rename_i hnone
    rw [h] at hnone
    cases hnone
  · rename_i hsome
    rw [h] at hsome
    cases hsome
    rfl

theorem readJoined_of_readJoin {s' : Source} (h : readJoin left s cs = some (s', rest)) :
    readJoined stack left s cs = readRest stack s' rest := by
  rw [readJoined]
  split
  · rename_i hnone
    rw [h] at hnone
    cases hnone
  · rename_i hsome
    rw [h] at hsome
    cases hsome
    rfl

theorem readRest_joinWords (kind : JoinKind) :
    readRest stack s (joinWords kind ++ rest) = readSource stack (some (s, kind)) rest := by
  have hread := readKind_joinWords kind rest
  have hclose : ∀ (left : Left) (stack' : List Left) (rest' : List Char), stack = left :: stack' →
      joinWords kind ++ rest = ')' :: rest' → False := by
    intro left stack' rest' _ hwords
    cases kind <;> cases hwords
  rw [readRest.eq_2 _ _ _ hclose]
  split
  · rename_i hsome
    rw [hread] at hsome
    cases hsome
    rfl
  · rename_i hnone
    rw [hread] at hnone
    cases hnone

theorem readRest_close :
    readRest (left :: stack) s (')' :: rest) =
      readJoined stack left (s.relabel (readAlias rest).1) (readAlias rest).2 := by
  rw [readRest]

theorem readRest_end : readRest [] s [] = some (s, []) := by
  rw [readRest]
  · rfl
  · intro left stack' rest' hstack
    cases hstack

namespace Source.Joined

theorem print_ok (h : s.Joined) : ∃ xs, s.print .ansi = .ok xs := by
  induction h with
  | table _ _ => exact ⟨_, rfl⟩
  | @join kind l r on _ _ hon _ label ihl ihr =>
    obtain ⟨xs, hx⟩ := ihl
    obtain ⟨ys, hy⟩ := ihr
    have hcondition : ∃ o, printOn .ansi kind on = .ok o := by
      cases on with
      | none => exact ⟨none, rfl⟩
      | some e =>
        obtain ⟨zs, hz⟩ := (hon e rfl).print_ok .ansi
        rw [printOn]
        split
        · exact ⟨none, rfl⟩
        · exact ⟨some zs, by rw [hz]; rfl⟩
    obtain ⟨o, ho⟩ := hcondition
    refine ⟨aliasedJoin (printJoin kind xs (printRight r ys) o) label, ?_⟩
    rw [Source.print, hx, hy, ho]
    rfl

/-- A source is read up to its end: at the start of a text or of a group as it is printed there, and
in any place as it is printed on the right of a join. -/
theorem readSource_text (h : s.Joined) {xs : List Piece} (hx : s.print .ansi = .ok xs)
    (hrest : Follows rest) :
    (∀ stack, readSource stack none ((Dialect.ansi.text xs).toList ++ rest) =
      readRest stack s rest) ∧
    ∀ stack left, readSource stack left ((Dialect.ansi.text (printRight s xs)).toList ++ rest) =
      readJoined stack left s rest := by
  induction h generalizing xs rest with
  | table hpath label =>
    cases hx
    have hread := readTable_text hpath label hrest
    constructor
    · intro stack
      rw [readSource_table hread]
      exact readJoined_of_readJoin rfl
    · intro stack left
      exact readSource_table hread
  | @join kind l r on _ _ hon hcross label ihl ihr =>
    simp only [Source.print, Outcome.bind_eq_ok, Outcome.pure_eq_ok] at hx
    obtain ⟨ys, hy, zs, hz, o, ho, rfl⟩ := hx
    -- The join without its alias: its left side, the words, its right side, its condition.
    have hjoin : ∀ {rest : List Char}, Follows rest → ∀ stack,
        readSource stack none
            ((Dialect.ansi.text (printJoin kind ys (printRight r zs) o)).toList ++ rest) =
          readRest stack (.join kind l r on none) rest := by
      intro rest hrest stack
      have hleft := (ihl hy (follows_joinWords kind
        ((Dialect.ansi.text (printRight r zs)).toList ++ (onText kind o ++ rest)))).1 stack
      have hright := (ihr hz (follows_onText hrest kind o)).2 stack (some (l, kind))
      rw [text_printJoin]
      simp only [List.append_assoc]
      rw [hleft, readRest_joinWords, hright]
      exact readJoined_of_readJoin (readJoin_onText hon hcross ho l r hrest)
    cases label with
    | none =>
      constructor
      · exact hjoin hrest
      · intro stack left
        change readSource stack left ((Dialect.ansi.text (Piece.parens
          (printJoin kind ys (printRight r zs) o))).toList ++ rest) = _
        rw [text_parens, List.cons_append, List.append_assoc, List.singleton_append,
          readSource_open, hjoin (follows_close rest), readRest_close, hrest.unaliased]
        rfl
    | some a =>
      have hread : ∀ stack left,
          readSource stack left ((Dialect.ansi.text (aliasedJoin
            (printJoin kind ys (printRight r zs) o) (some a))).toList ++ rest) =
          readJoined stack left (.join kind l r on (some a)) rest := by
        intro stack left
        rw [aliasedJoin, text_aliased, text_parens]
        simp only [List.cons_append, List.append_assoc, List.nil_append]
        rw [readSource_open, hjoin (follows_close _), readRest_close,
          readAlias_quoted a hrest.delimited]
        rfl
      constructor
      · intro stack
        rw [hread]
        exact readJoined_of_readJoin rfl
      · exact hread

end Source.Joined

end RoundTrip

/-- Joins with the same text in standard SQL are the same tree. -/
theorem Source.Joined.text_injective {s s' : Source} (h : s.Joined) (h' : s'.Joined)
    (htext : s.text .ansi = s'.text .ansi) : s = s' := by
  obtain ⟨xs, hx⟩ := h.print_ok
  obtain ⟨xs', hx'⟩ := h'.print_ok
  have hsame : Dialect.ansi.text xs = Dialect.ansi.text xs' := by
    rw [Source.text, Source.text, hx, hx'] at htext
    exact Except.ok.inj htext
  have hread := (h.readSource_text hx follows_nil).1 []
  have hread' := (h'.readSource_text hx' follows_nil).1 []
  rw [hsame, hread', readRest_end, readRest_end] at hread
  cases hread
  rfl

/-- Joins on the left, on the right and under an alias, one of them without a condition. -/
def nestedJoins : Source :=
  .join .left
    (.join .inner (.table ⟨["A"], none⟩) (.table ⟨["s", "B"], some "b"⟩) none none)
    (.join .full
      (.join .cross (.table ⟨["C"], none⟩) (.table ⟨["D"], none⟩) none (some "cd"))
      (.table ⟨["E"], none⟩) (some (.binary .eq (.ref ⟨["x"], none⟩) (.param 1))) none)
    (some (.not (.ref ⟨["y"], none⟩))) none

theorem nestedJoins_unique :
    nestedJoins.Joined ∧
      nestedJoins.text .ansi = .ok ("\"A\" INNER JOIN \"s\".\"B\" AS \"b\" ON 1=1 " ++
        "LEFT JOIN ((\"C\" CROSS JOIN \"D\") AS \"cd\" FULL JOIN \"E\" ON \"x\" = $1) " ++
        "ON NOT \"y\"") ∧
      nestedJoins = .join .left
        (.join .inner (.table ⟨["A"], none⟩) (.table ⟨["s", "B"], some "b"⟩) none none)
        (.join .full
          (.join .cross (.table ⟨["C"], none⟩) (.table ⟨["D"], none⟩) none (some "cd"))
          (.table ⟨["E"], none⟩) (some (.binary .eq (.ref ⟨["x"], none⟩) (.param 1))) none)
        (some (.not (.ref ⟨["y"], none⟩))) none := by
  have hequation : (Expr.binary .eq (.ref ⟨["x"], none⟩) (.param 1)).ChainNormal :=
    .binary (by decide) (.atom (.ref (by decide))) (.atom (.param _)) (by decide) (by decide)
  have hnegation : (Expr.not (.ref ⟨["y"], none⟩)).ChainNormal :=
    .not (.atom (.ref (by decide))) (by decide)
  have hcross : (Source.join .cross (.table ⟨["C"], none⟩) (.table ⟨["D"], none⟩) none
      (some "cd")).Joined :=
    .join (.table (by decide) _) (.table (by decide) _) (by simp) (by simp) _
  have h : nestedJoins.Joined :=
    .join
      (.join (.table (by decide) _) (.table (by decide) _) (by simp) (by simp) _)
      (.join hcross (.table (by decide) _) (by simpa using hequation) (by simp) _)
      (by simpa using hnegation) (by simp) _
  exact ⟨h, rfl, Source.Joined.text_injective h h rfl⟩

end QueryNotation.Sql
