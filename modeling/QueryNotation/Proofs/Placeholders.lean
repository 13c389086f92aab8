import QueryNotation.Compiler
import QueryNotation.Proofs.Numbering
import QueryNotation.Proofs.Writing

/-! The placeholders of a text. They stand in it in the order in which their parameters were
numbered. A parameter in the condition of a cross join is numbered and never written; apart from
those, every number has its placeholder. -/

namespace QueryNotation

open Occurrence

namespace Sql

/-- The numbers of the placeholders among pieces, from left to right. -/
def Piece.params (pieces : List Piece) : List Nat :=
  pieces.filterMap fun
    | .param index => some index
    | _ => none

/-- Pieces hold the placeholders of exactly the parameters that they write. -/
theorem Writes.params {d : Dialect} {a : List Part} {xs : List Piece} (h : Writes d a xs) :
    Piece.params xs = a.filterMap Part.param? := by
  rw [Piece.params, h.filterMap_pieces fun _ => rfl]
  congr 1
  funext p
  cases p <;> rfl

end Sql

/-- The placeholders of a printed query are those of its numbered parameters that the text shows. -/
theorem params_print {d : Dialect} (hd : d.DefaultLimit) {policy : NestedPolicy} {q : Query}
    {n n' : Nat} {t : Sql.Statement} {pieces : List Sql.Piece}
    (hlower : (q.lower policy n).outcome = .ok (t, n')) (hprint : t.print d = .ok pieces) :
    Sql.Piece.params pieces = writtenValues (numbered n q.refs) := by
  rw [(Sql.Statement.print_writes hd hprint).params, Sql.Statement.writtenParts,
    filterMap_writtenValues, ← (Query.lower_numbers hlower).params, paramParts]

/-- The placeholders of a printed query are among the numbers of its parameters, in order. -/
theorem params_print_sublist {d : Dialect} (hd : d.DefaultLimit) {policy : NestedPolicy} {q : Query}
    {n n' : Nat} {t : Sql.Statement} {pieces : List Sql.Piece}
    (hlower : (q.lower policy n).outcome = .ok (t, n')) (hprint : t.print d = .ok pieces) :
    (Sql.Piece.params pieces).Sublist (List.range' (n + 1) (paramCount q.refs)) := by
  rw [params_print hd hlower hprint, ← map_value_numbered]
  exact writtenValues_sublist _

/-- In a dialect that writes the rows of a limit before the offset, the numbers of the placeholders
increase from the left to the right of the text. -/
theorem placeholders_increasing {d : Dialect} (hd : d.limitClause = Dialect.limitOffset)
    {policy : NestedPolicy} {q : Query} {n n' : Nat} {t : Sql.Statement} {sql : String}
    (hlower : (q.lower policy n).outcome = .ok (t, n')) (hsql : d.generate t = .ok sql) :
    ∃ pieces, t.print d = .ok pieces ∧ d.text pieces = sql ∧
      (Sql.Piece.params pieces).Pairwise (· < ·) := by
  obtain ⟨pieces, hprint, htext⟩ := Outcome.map_eq_ok.mp hsql
  refine ⟨pieces, hprint, htext, ?_⟩
  exact List.Pairwise.sublist (params_print_sublist hd hlower hprint) List.pairwise_lt_range'

/-- In MySQL the placeholders of a select with a hidden parameter are those of 1, 2, 4 and 5. -/
theorem selectWithParams_increasing : ∃ t sql,
    (selectWithParams.lower .skip 0).outcome = .ok (t, 5) ∧ Dialect.mysql.generate t = .ok sql ∧
    ∃ pieces, t.print Dialect.mysql = .ok pieces ∧ Dialect.mysql.text pieces = sql ∧
      (Sql.Piece.params pieces).Pairwise (· < ·) :=
  ⟨_, _, rfl, rfl,
    @placeholders_increasing Dialect.mysql rfl .skip selectWithParams 0 5 _ _ rfl rfl⟩

/-- The parameters of a query that its text leaves out: those in the condition of a cross join. -/
def Query.hiddenParams (q : Query) : List (Occurrence Ref) :=
  q.refs.filter fun r => r.value.isParam && !r.written

/-- A numbered parameter is either shown or hidden. -/
theorem length_writtenValues_numbered (n : Nat) (rs : List (Occurrence Ref)) :
    (writtenValues (numbered n rs)).length +
      (rs.filter fun r => r.value.isParam && !r.written).length = paramCount rs := by
  induction rs generalizing n with
  | nil => rfl
  | cons r rs ih =>
    obtain ⟨ref, written⟩ := r
    cases hparam : ref.isParam with
    | false => simpa [numbered, paramCount, hparam] using ih n
    | true =>
      have := ih (n + 1)
      cases written <;> simp [numbered, paramCount, hparam, writtenValues] at this ⊢ <;> omega

/-- A compiled query was lowered from the number zero on and printed. -/
theorem Compiler.compileQuery_ok {c : Compiler} {q : Query} {r : Compiled}
    (h : (c.compileQuery q).result = .ok r) :
    ∃ t pieces, (q.lower c.nested 0).outcome = .ok (t, r.params) ∧
      t.print c.dialect = .ok pieces ∧ c.dialect.text pieces = r.sql := by
  unfold compileQuery at h
  split at h
  · cases h
  · unfold compileValid at h
    simp only at h
    split at h
    · cases h
    · rename_i t params hlower
      split at h
      · cases h
      · rename_i sql hsql
        obtain ⟨pieces, hprint, htext⟩ := Outcome.map_eq_ok.mp hsql
        cases h
        exact ⟨t, pieces, hlower, hprint, htext⟩

/-- The reported number of parameters is the number of placeholders in the text and of the
parameters that the text leaves out. So it is the number of placeholders exactly if no cross join
has a parameter in its condition. -/
theorem Compiler.params_eq_placeholders_add_hidden {c : Compiler}
    (hc : c.dialect ∈ Dialect.builtins) {q : Query} {r : Compiled}
    (h : (c.compileQuery q).result = .ok r) :
    ∃ t pieces, (q.lower c.nested 0).outcome = .ok (t, r.params) ∧
      t.print c.dialect = .ok pieces ∧ c.dialect.text pieces = r.sql ∧
      (Sql.Piece.params pieces).Sublist (List.range' 1 r.params) ∧
      r.params = (Sql.Piece.params pieces).length + q.hiddenParams.length ∧
      (r.params = (Sql.Piece.params pieces).length ↔
        ∀ o ∈ q.refs, o.value.isParam → o.written) := by
  have hd := Dialect.defaultLimit_of_builtin hc
  obtain ⟨t, pieces, hlower, hprint, htext⟩ := Compiler.compileQuery_ok h
  have hlast : r.params = paramCount q.refs := by
    simpa using (Query.lower_numbers hlower).last
  -- Both sides count the numbered references: those that are shown and those that are hidden.
  have hcount : r.params = (Sql.Piece.params pieces).length + q.hiddenParams.length := by
    rw [params_print hd hlower hprint, hlast]
    exact (length_writtenValues_numbered 0 q.refs).symm
  have hsublist := params_print_sublist hd hlower hprint
  rw [Nat.zero_add, ← hlast] at hsublist
  refine ⟨t, pieces, hlower, hprint, htext, hsublist, hcount, ?_⟩
  have hhidden : r.params = (Sql.Piece.params pieces).length ↔ q.hiddenParams = [] := by
    rw [← List.length_eq_zero_iff]
    omega
  rw [hhidden, Query.hiddenParams, List.filter_eq_nil_iff]
  simp

/-- Of the five parameters of a select one is left out of the text. -/
theorem selectWithParams_hidden : ∃ r,
    ((⟨Dialect.mysql, .skip⟩ : Compiler).compileQuery selectWithParams).result = .ok r ∧
    ∃ t pieces, (selectWithParams.lower .skip 0).outcome = .ok (t, r.params) ∧
      t.print Dialect.mysql = .ok pieces ∧ Dialect.mysql.text pieces = r.sql ∧
      (Sql.Piece.params pieces).Sublist (List.range' 1 r.params) ∧
      r.params = (Sql.Piece.params pieces).length + selectWithParams.hiddenParams.length ∧
      (r.params = (Sql.Piece.params pieces).length ↔
        ∀ o ∈ selectWithParams.refs, o.value.isParam → o.written) :=
  ⟨_, rfl, @Compiler.params_eq_placeholders_add_hidden ⟨Dialect.mysql, .skip⟩
    (by simp [Dialect.builtins]) selectWithParams _ rfl⟩

/-- A select from a cross join whose condition is a parameter. -/
def crossJoinOnParam : Query where
  select := some {
    columns := none
    source := some (.join {
      kind := .cross
      args := [.ref ⟨["A"], none, none, false⟩, .ref ⟨["B"], none, none, false⟩]
      on := some (.ref ⟨["?"], none, none, false⟩)
      label := none })
    filter := none
    groupBy := none
    having := none
    orderBy := none
    limit := none
    distinct := false }
  insert := none
  update := none
  delete := none
  upsert := none
  others := []

/-- One parameter is reported for a text without a placeholder. -/
theorem crossJoinOnParam_compiled :
    (Compiler.standard.compileQuery crossJoinOnParam).result =
      .ok ⟨"SELECT *\nFROM \"A\" CROSS JOIN \"B\"", 1⟩ ∧ crossJoinOnParam.hiddenParams.length = 1 :=
  ⟨rfl, rfl⟩

end QueryNotation
