import QueryNotation.Lowering.Statement
import QueryNotation.Proofs.Parts
import QueryNotation.Proofs.Success

/-! The numbering of parameters. Lowering a tree whose last parameter number is `n` numbers its
parameter references `n + 1`, `n + 2` and so on, in the order in which they occur, and nothing else
takes a number. -/

namespace QueryNotation

open Occurrence

/-- The parameters among references, numbered from the one after `n`. -/
def numbered (n : Nat) : List (Occurrence Ref) → List (Occurrence Nat)
  | [] => []
  | r :: rs =>
    if r.value.isParam then ⟨n + 1, r.written⟩ :: numbered (n + 1) rs else numbered n rs

/-- How many references stand for parameters. -/
def paramCount (refs : List (Occurrence Ref)) : Nat := refs.countP (·.value.isParam)

/-- The numbers of the parameters among the parts of a SQL tree. -/
def paramParts (parts : List (Occurrence Sql.Part)) : List (Occurrence Nat) :=
  parts.filterMap fun o => o.value.param?.map (⟨·, o.written⟩)

@[simp] theorem paramParts_append (ps ps' : List (Occurrence Sql.Part)) :
    paramParts (ps ++ ps') = paramParts ps ++ paramParts ps' :=
  List.filterMap_append

theorem paramParts_flatMap (f : α → List (Occurrence Sql.Part)) (l : List α) :
    paramParts (l.flatMap f) = l.flatMap fun a => paramParts (f a) :=
  List.filterMap_flatMap

theorem map_value_paramParts (ps : List (Occurrence Sql.Part)) :
    (paramParts ps).map value = ps.filterMap (·.value.param?) := by
  simp [paramParts, List.map_filterMap, Function.comp_def]

theorem numbered_append (n : Nat) (rs rs' : List (Occurrence Ref)) :
    numbered n (rs ++ rs') = numbered n rs ++ numbered (n + paramCount rs) rs' := by
  induction rs generalizing n with
  | nil => rfl
  | cons r rs ih =>
    by_cases h : r.value.isParam
    · simp [numbered, paramCount, h, ih]
      congr 1
      omega
    · simp [numbered, paramCount, h, ih]

theorem numbered_map_hide (n : Nat) (rs : List (Occurrence Ref)) :
    numbered n (rs.map hide) = (numbered n rs).map hide := by
  induction rs generalizing n with
  | nil => rfl
  | cons r rs ih => by_cases h : r.value.isParam <;> simp [numbered, hide, h, ih]

/-- The numbers themselves are those after `n`, without a gap. -/
theorem map_value_numbered (n : Nat) (rs : List (Occurrence Ref)) :
    (numbered n rs).map value = List.range' (n + 1) (paramCount rs) := by
  induction rs generalizing n with
  | nil => rfl
  | cons r rs ih =>
    by_cases h : r.value.isParam
    · simp [numbered, paramCount, h, ih, List.range'_succ]
    · simp [numbered, paramCount, h, ih]

/-- Lowering a tree with the references `refs` to one with the parts `parts` has numbered its
parameters from the one after `n` to `n'`. -/
structure Numbers (n n' : Nat) (refs : List (Occurrence Ref)) (parts : List (Occurrence Sql.Part)) :
    Prop where
  params : paramParts parts = numbered n refs
  last : n' = n + paramCount refs

namespace Numbers

/-- Parts without a parameter take no number. -/
theorem silent {parts : List (Occurrence Sql.Part)} (n : Nat) (h : paramParts parts = []) :
    Numbers n n [] parts := ⟨h, rfl⟩

theorem append {n₁ n₂ n₃ : Nat} {rs rs' : List (Occurrence Ref)}
    {ps ps' : List (Occurrence Sql.Part)} (h : Numbers n₁ n₂ rs ps) (h' : Numbers n₂ n₃ rs' ps') :
    Numbers n₁ n₃ (rs ++ rs') (ps ++ ps') := by
  obtain ⟨hp, rfl⟩ := h
  obtain ⟨hp', rfl⟩ := h'
  constructor
  · rw [paramParts_append, numbered_append, hp, hp']
  · simp [paramCount]
    omega

theorem append_silent {n₁ n₂ : Nat} {rs : List (Occurrence Ref)}
    {ps ps' : List (Occurrence Sql.Part)} (h : Numbers n₁ n₂ rs ps) (h' : paramParts ps' = []) :
    Numbers n₁ n₂ rs (ps ++ ps') := by
  have := h.append (silent n₂ h')
  rwa [List.append_nil] at this

theorem cons_silent {n₁ n₂ : Nat} {rs : List (Occurrence Ref)} {ps : List (Occurrence Sql.Part)}
    {p : Sql.Part} (hp : p.param? = none) (h : Numbers n₁ n₂ rs ps) :
    Numbers n₁ n₂ rs (shown p :: ps) := by
  have hsilent : paramParts [shown p] = [] := by simp [paramParts, shown, hp]
  exact (silent n₁ hsilent).append h

theorem silent_append {n₁ n₂ : Nat} {rs : List (Occurrence Ref)}
    {ps ps' : List (Occurrence Sql.Part)} (h : paramParts ps = []) (h' : Numbers n₁ n₂ rs ps') :
    Numbers n₁ n₂ rs (ps ++ ps') :=
  (silent n₁ h).append h'

/-- The condition of a cross join is numbered like that of any other. -/
theorem condition {n₁ n₂ : Nat} {rs : List (Occurrence Ref)} {ps : List (Occurrence Sql.Part)}
    (kind : JoinKind) (h : Numbers n₁ n₂ rs ps) :
    Numbers n₁ n₂ (kind.condition rs) (kind.condition ps) := by
  obtain ⟨hp, rfl⟩ := h
  unfold JoinKind.condition
  split
  · constructor
    · rw [numbered_map_hide, ← hp]
      simp [paramParts, List.filterMap_map, List.map_filterMap, Function.comp_def, hide]
    · simp [paramCount, hide, Function.comp_def]
  · exact ⟨hp, rfl⟩

theorem castTo {n₁ n₂ : Nat} {rs : List (Occurrence Ref)} {x : Sql.Expr} (cast : Option String)
    (h : Numbers n₁ n₂ rs x.parts) : Numbers n₁ n₂ rs (x.castTo cast).parts := by
  cases cast with
  | none => exact h
  | some type => exact h.append_silent rfl

end Numbers

@[simp] theorem paramParts_names (names : List String) :
    paramParts (names.map fun s => shown (.name s)) = [] := by
  induction names with
  | nil => rfl
  | cons s names ih => exact ih

@[simp] theorem paramParts_pathParts (path : List String) : paramParts (Sql.pathParts path) = [] :=
  paramParts_names _

@[simp] theorem paramParts_labelParts (label : Option String) :
    paramParts (Sql.labelParts label) = [] := by
  cases label <;> rfl

@[simp] theorem paramParts_tableParts (r : Sql.Ref) : paramParts r.parts = [] := by
  simp [Sql.Ref.parts]

@[simp] theorem paramParts_scalarParts (v : Scalar) : paramParts (Sql.scalarParts v) = [] := by
  cases v <;> rfl

/-- A reference takes a number exactly if it stands for a parameter. -/
theorem Ref.lower_numbers {r : Ref} {n n' : Nat} {x : Sql.Expr} (h : r.lower n = .ok (x, n')) :
    Numbers n n' [shown r] x.parts := by
  unfold Ref.lower at h
  split at h
  · rename_i hparam
    simp only [Lowering.bind_eq_ok, Lowering.pure_eq_ok] at h
    obtain ⟨i, n₁, hi, rfl, rfl⟩ := h
    cases hi
    refine Numbers.castTo r.cast ⟨?_, ?_⟩
    · simp [numbered, shown, hparam, Sql.Expr.parts, paramParts, Sql.Part.param?]
    · simp [paramCount, shown, hparam]
  · rename_i hparam
    simp only [Lowering.bind_eq_ok, Lowering.pure_eq_ok, Lowering.lift_eq_ok] at h
    obtain ⟨t, _, ⟨_, rfl⟩, rfl, rfl⟩ := h
    refine Numbers.castTo r.cast ⟨?_, ?_⟩
    · simp [numbered, shown, hparam, Sql.Expr.parts]
    · simp [paramCount, shown, hparam]

-- One theorem for each function of the mutual recursion. In every one of them the last number of a
-- part is the number that the next part starts from, which is what `Numbers.append` asks for.
mutual

/-- Lowering an expression numbers the parameters that it refers to, in their order. -/
theorem Expr.lower_numbers {e : Expr} {n n' : Nat} {x : Sql.Expr} (h : e.lower n = .ok (x, n')) :
    Numbers n n' e.refs x.parts := by
  cases e with
  | ref r => exact Ref.lower_numbers h
  | val v =>
    simp only [Expr.lower, Lowering.pure_eq_ok] at h
    obtain ⟨rfl, rfl⟩ := h
    exact Numbers.silent n (paramParts_scalarParts v)
  | compound items => exact lowerCompound_numbers h
  | list items =>
    simp only [Expr.lower, Lowering.bind_eq_ok, Lowering.pure_eq_ok] at h
    obtain ⟨xs, n₁, hxs, rfl, rfl⟩ := h
    exact lowerExprs_numbers hxs
  | call c => exact Call.lower_numbers h
  | select s label =>
    simp only [Expr.lower, Lowering.bind_eq_ok, Lowering.pure_eq_ok] at h
    obtain ⟨y, n₁, hy, rfl, rfl⟩ := h
    exact Select.lower_numbers hy
  | bareSelect s =>
    simp only [Expr.lower, Lowering.bind_eq_ok, Lowering.pure_eq_ok] at h
    obtain ⟨y, n₁, hy, rfl, rfl⟩ := h
    exact Select.lower_numbers hy
  | other => exact absurd h Lowering.throw_ne_ok

theorem lowerExprs_numbers {es : List Expr} {n n' : Nat} {xs : List Sql.Expr}
    (h : lowerExprs es n = .ok (xs, n')) : Numbers n n' (exprRefs es) (Sql.exprParts xs) := by
  cases es with
  | nil =>
    simp only [lowerExprs, Lowering.pure_eq_ok] at h
    obtain ⟨rfl, rfl⟩ := h
    exact Numbers.silent n rfl
  | cons e es =>
    simp only [lowerExprs, Lowering.bind_eq_ok, Lowering.pure_eq_ok] at h
    obtain ⟨x, n₁, hx, xs, n₂, hxs, rfl, rfl⟩ := h
    exact (Expr.lower_numbers hx).append (lowerExprs_numbers hxs)

theorem lowerOption_numbers {o : Option Expr} {n n' : Nat} {x : Option Sql.Expr}
    (h : lowerOption o n = .ok (x, n')) : Numbers n n' (optionRefs o) (Sql.optionParts x) := by
  cases o with
  | none =>
    simp only [lowerOption, Lowering.pure_eq_ok] at h
    obtain ⟨rfl, rfl⟩ := h
    exact Numbers.silent n rfl
  | some e =>
    simp only [lowerOption, Lowering.bind_eq_ok, Lowering.pure_eq_ok] at h
    obtain ⟨x, n₁, hx, rfl, rfl⟩ := h
    exact Expr.lower_numbers hx

theorem Call.lower_numbers {c : Call} {n n' : Nat} {x : Sql.Expr} (h : c.lower n = .ok (x, n')) :
    Numbers n n' c.refs x.parts := by
  obtain ⟨name, args, label, cast⟩ := c
  simp only [Call.lower, Lowering.bind_eq_ok, Lowering.pure_eq_ok] at h
  obtain ⟨xs, n₁, hxs, rfl, rfl⟩ := h
  exact Numbers.castTo cast ((lowerExprs_numbers hxs).cons_silent rfl)

theorem Item.lower_numbers {i : Item} {n n' : Nat} {x : Sql.Expr} (h : i.lower n = .ok (x, n')) :
    Numbers n n' i.refs x.parts := by
  cases i with
  | token t => exact absurd h Lowering.throw_ne_ok
  | expr e =>
    simp only [Item.lower, Lowering.bind_eq_ok, Lowering.pure_eq_ok] at h
    obtain ⟨y, n₁, hy, rfl, rfl⟩ := h
    have hparts := Expr.lower_numbers hy
    split
    · exact hparts
    · exact hparts

theorem lowerCompound_numbers {items : List Item} {n n' : Nat} {x : Sql.Expr}
    (h : lowerCompound items n = .ok (x, n')) : Numbers n n' (itemRefs items) x.parts := by
  match items with
  | [] => exact absurd h Lowering.throw_ne_ok
  | [i] =>
    have hi := Item.lower_numbers (i := i) h
    simpa only [itemRefs, List.append_nil] using hi
  | [.token t, i] =>
    simp only [lowerCompound] at h
    split at h
    · simp only [Lowering.bind_eq_ok, Lowering.pure_eq_ok] at h
      obtain ⟨y, n₁, hy, rfl, rfl⟩ := h
      have hi := Item.lower_numbers hy
      simpa only [itemRefs, Item.refs, List.nil_append, List.append_nil, Sql.Expr.parts] using hi
    · exact absurd h Lowering.throw_ne_ok
  | [.expr e, i] => exact absurd h Lowering.throw_ne_ok
  | i :: j :: k :: rest =>
    simp only [lowerCompound] at h
    split at h
    · rename_i heven
      simp only [Lowering.bind_eq_ok] at h
      obtain ⟨first, n₁, hfirst, hchain⟩ := h
      exact lowerChain_numbers hchain heven (Item.lower_numbers hfirst)
    · exact absurd h Lowering.throw_ne_ok

/-- The invariant of the fold: what stands to the left is numbered up to the last number. -/
theorem lowerChain_numbers {left : Sql.Expr} {position : Nat} {items : List Item}
    {n₀ n n' : Nat} {rs : List (Occurrence Ref)} {x : Sql.Expr}
    (h : lowerChain left position items n = .ok (x, n')) (heven : items.length % 2 = 0)
    (hleft : Numbers n₀ n rs left.parts) : Numbers n₀ n' (rs ++ itemRefs items) x.parts := by
  match items with
  | [] =>
    simp only [lowerChain, Lowering.pure_eq_ok] at h
    obtain ⟨rfl, rfl⟩ := h
    simpa only [itemRefs, List.append_nil] using hleft
  | [_] => simp at heven
  | .expr e :: j :: rest =>
    simp only [lowerChain, Lowering.bind_eq_ok, Lowering.lift_eq_ok] at h
    obtain ⟨_, _, ⟨hop, _⟩, _⟩ := h
    cases hop
  | .token t :: j :: rest =>
    simp only [lowerChain, Lowering.bind_eq_ok, Lowering.lift_eq_ok] at h
    obtain ⟨op, _, ⟨_, rfl⟩, right, n₁, hright, hrest⟩ := h
    -- The operator takes no number, so the new left side is numbered without a gap.
    have hboth := hleft.append ((Item.lower_numbers hright).cons_silent (p := .operator op) rfl)
    have hall := lowerChain_numbers hrest (by simp at heven; omega) hboth
    simpa only [itemRefs, Item.refs, List.nil_append, List.append_assoc] using hall

theorem Select.lower_numbers {s : Select} {label : Option String} {n n' : Nat} {x : Sql.Select}
    (h : s.lower label n = .ok (x, n')) : Numbers n n' s.refs x.parts := by
  obtain ⟨source, columns, filter, groupBy, having, orderBy, limit, distinct⟩ := s
  simp only [Select.lower, Lowering.bind_eq_ok, Lowering.pure_eq_ok] at h
  obtain ⟨_, _, hcolumns, _, _, hsource, _, _, hfilter, _, _, hgroup, _, _, hhaving, _, _, horder,
    _, _, hlimit, rfl, rfl⟩ := h
  have hcolumns := lowerColumnList_numbers hcolumns
  have hsource := hcolumns.append (lowerSource_numbers hsource)
  have hfilter := hsource.append (lowerOption_numbers hfilter)
  have hgroup := hfilter.append (lowerExprList_numbers hgroup)
  have hhaving := hgroup.append (lowerOption_numbers hhaving)
  have horder := hhaving.append (lowerOrderList_numbers horder)
  exact horder.append (lowerLimit_numbers hlimit)

theorem lowerColumnList_numbers {o : Option (List Column)} {n n' : Nat} {xs : List Sql.Column}
    (h : lowerColumnList o n = .ok (xs, n')) :
    Numbers n n' (columnListRefs o) (Sql.columnParts xs) := by
  match o with
  | none =>
    simp only [lowerColumnList, Lowering.pure_eq_ok] at h
    obtain ⟨rfl, rfl⟩ := h
    exact Numbers.silent n rfl
  | some [] =>
    simp only [lowerColumnList, List.isEmpty_nil, if_true, Lowering.pure_eq_ok] at h
    obtain ⟨rfl, rfl⟩ := h
    exact Numbers.silent n rfl
  | some (c :: cs) => exact lowerColumns_numbers h

theorem lowerSource_numbers {o : Option Source} {n n' : Nat} {x : Sql.Source}
    (h : lowerSource o n = .ok (x, n')) : Numbers n n' (sourceRefs o) x.parts := by
  cases o with
  | none => exact absurd h Lowering.throw_ne_ok
  | some source => exact Source.lower_numbers h

theorem lowerExprList_numbers {o : Option (List Expr)} {n n' : Nat} {xs : List Sql.Expr}
    (h : lowerExprList o n = .ok (xs, n')) :
    Numbers n n' (exprListRefs o) (Sql.exprParts xs) := by
  cases o with
  | none =>
    simp only [lowerExprList, Lowering.pure_eq_ok] at h
    obtain ⟨rfl, rfl⟩ := h
    exact Numbers.silent n rfl
  | some es => exact lowerExprs_numbers h

theorem lowerOrderList_numbers {o : Option (List Order)} {n n' : Nat} {xs : List Sql.Order}
    (h : lowerOrderList o n = .ok (xs, n')) :
    Numbers n n' (orderListRefs o) (Sql.orderParts xs) := by
  cases o with
  | none =>
    simp only [lowerOrderList, Lowering.pure_eq_ok] at h
    obtain ⟨rfl, rfl⟩ := h
    exact Numbers.silent n rfl
  | some orders => exact lowerOrders_numbers h

theorem lowerLimit_numbers {o : Option Limit} {n n' : Nat} {x : Option Sql.Limit}
    (h : lowerLimit o n = .ok (x, n')) : Numbers n n' (limitRefs o) (Sql.limitParts x) := by
  match o with
  | none =>
    simp only [lowerLimit, Lowering.pure_eq_ok] at h
    obtain ⟨rfl, rfl⟩ := h
    exact Numbers.silent n rfl
  | some ⟨rows, offset⟩ =>
    simp only [lowerLimit, Limit.lower, Lowering.bind_eq_ok, Lowering.pure_eq_ok] at h
    obtain ⟨_, _, ⟨rows', n₁, hrows, offset', n₂, hoffset, rfl, rfl⟩, rfl, rfl⟩ := h
    exact ((Expr.lower_numbers hrows).append (lowerOption_numbers hoffset)).cons_silent rfl

theorem Column.lower_numbers {c : Column} {n n' : Nat} {x : Sql.Column}
    (h : c.lower n = .ok (x, n')) : Numbers n n' c.refs x.parts := by
  cases c with
  | wildcard star =>
    simp only [Column.lower, Lowering.pure_eq_ok] at h
    obtain ⟨rfl, rfl⟩ := h
    exact Numbers.silent n rfl
  | other =>
    simp only [Column.lower, Lowering.pure_eq_ok] at h
    obtain ⟨rfl, rfl⟩ := h
    exact Numbers.silent n rfl
  | ref r =>
    simp only [Column.lower, Lowering.bind_eq_ok, Lowering.pure_eq_ok] at h
    obtain ⟨y, n₁, hy, rfl, rfl⟩ := h
    exact (Ref.lower_numbers hy).append_silent (paramParts_labelParts r.label)
  | call c =>
    simp only [Column.lower, Lowering.bind_eq_ok, Lowering.pure_eq_ok] at h
    obtain ⟨y, n₁, hy, rfl, rfl⟩ := h
    exact (Call.lower_numbers hy).append_silent (paramParts_labelParts c.label)

theorem lowerColumns_numbers {cs : List Column} {n n' : Nat} {xs : List Sql.Column}
    (h : lowerColumns cs n = .ok (xs, n')) : Numbers n n' (columnRefs cs) (Sql.columnParts xs) := by
  cases cs with
  | nil =>
    simp only [lowerColumns, Lowering.pure_eq_ok] at h
    obtain ⟨rfl, rfl⟩ := h
    exact Numbers.silent n rfl
  | cons c cs =>
    simp only [lowerColumns, Lowering.bind_eq_ok, Lowering.pure_eq_ok] at h
    obtain ⟨x, n₁, hx, xs, n₂, hxs, rfl, rfl⟩ := h
    exact (Column.lower_numbers hx).append (lowerColumns_numbers hxs)

theorem Source.lower_numbers {s : Source} {n n' : Nat} {x : Sql.Source}
    (h : s.lower n = .ok (x, n')) : Numbers n n' s.refs x.parts := by
  cases s with
  | ref r =>
    simp only [Source.lower, Lowering.bind_eq_ok, Lowering.pure_eq_ok, Lowering.lift_eq_ok] at h
    obtain ⟨t, _, ⟨_, rfl⟩, rfl, rfl⟩ := h
    exact Numbers.silent n (paramParts_tableParts t)
  | select s label =>
    simp only [Source.lower, Lowering.bind_eq_ok, Lowering.pure_eq_ok] at h
    obtain ⟨y, n₁, hy, rfl, rfl⟩ := h
    exact (Select.lower_numbers hy).append_silent (paramParts_labelParts y.label)
  | join j => exact Join.lower_numbers h
  | other => exact absurd h Lowering.throw_ne_ok

theorem Join.lower_numbers {j : Join} {n n' : Nat} {x : Sql.Source}
    (h : j.lower n = .ok (x, n')) : Numbers n n' j.refs x.parts := by
  match j with
  | ⟨kind, [left, right], on, label⟩ =>
    simp only [Join.lower, Lowering.bind_eq_ok, Lowering.pure_eq_ok] at h
    obtain ⟨_, _, hleft, _, _, hright, _, _, hon, rfl, rfl⟩ := h
    -- Every condition is lowered, so that of a cross join takes its numbers too.
    have hboth := (Source.lower_numbers hleft).append (Source.lower_numbers hright)
    have hall := (hboth.append ((lowerOption_numbers hon).condition kind)).append_silent
      (paramParts_labelParts label)
    simpa only [Join.refs, sourceListRefs, List.append_nil, Sql.Source.parts] using hall
  | ⟨_, [], _, _⟩ => exact absurd h Lowering.throw_ne_ok
  | ⟨_, [_], _, _⟩ => exact absurd h Lowering.throw_ne_ok
  | ⟨_, _ :: _ :: _ :: _, _, _⟩ => exact absurd h Lowering.throw_ne_ok

theorem Order.lower_numbers {o : Order} {n n' : Nat} {x : Sql.Order}
    (h : o.lower n = .ok (x, n')) : Numbers n n' o.refs x.parts := by
  obtain ⟨e, direction, nulls⟩ := o
  simp only [Order.lower, Lowering.bind_eq_ok, Lowering.pure_eq_ok] at h
  obtain ⟨y, n₁, hy, rfl, rfl⟩ := h
  exact (Expr.lower_numbers hy).append_silent (by cases nulls <;> rfl)

theorem lowerOrders_numbers {os : List Order} {n n' : Nat} {xs : List Sql.Order}
    (h : lowerOrders os n = .ok (xs, n')) : Numbers n n' (orderRefs os) (Sql.orderParts xs) := by
  cases os with
  | nil =>
    simp only [lowerOrders, Lowering.pure_eq_ok] at h
    obtain ⟨rfl, rfl⟩ := h
    exact Numbers.silent n rfl
  | cons o os =>
    simp only [lowerOrders, Lowering.bind_eq_ok, Lowering.pure_eq_ok] at h
    obtain ⟨x, n₁, hx, xs, n₂, hxs, rfl, rfl⟩ := h
    exact (Order.lower_numbers hx).append (lowerOrders_numbers hxs)

end

theorem lowerAssignments_numbers {as : List (String × Expr)} {n n' : Nat}
    {xs : List (String × Sql.Expr)} (h : lowerAssignments as n = .ok (xs, n')) :
    Numbers n n' (exprRefs (as.map Prod.snd)) (Sql.assignmentParts xs) := by
  induction as generalizing n xs with
  | nil =>
    simp only [lowerAssignments, Lowering.pure_eq_ok] at h
    obtain ⟨rfl, rfl⟩ := h
    exact Numbers.silent n rfl
  | cons a as ih =>
    obtain ⟨column, e⟩ := a
    simp only [lowerAssignments, Lowering.bind_eq_ok, Lowering.pure_eq_ok] at h
    obtain ⟨x, n₁, hx, xs, n₂, hxs, rfl, rfl⟩ := h
    exact ((Expr.lower_numbers hx).append (ih hxs)).cons_silent rfl

theorem Update.lower_numbers {u : Update} {n n' : Nat} {x : Sql.Update}
    (h : u.lower n = .ok (x, n')) :
    Numbers n n' (Statement.update u).refs (Sql.Statement.update x).parts := by
  obtain ⟨target, assignments, filter⟩ := u
  cases target with
  | none => exact absurd h Lowering.throw_ne_ok
  | some r =>
    simp only [Update.lower, Lowering.bind_eq_ok, Lowering.pure_eq_ok, Lowering.lift_eq_ok] at h
    obtain ⟨as, n₁, has, table, _, ⟨_, rfl⟩, filter, n₂, hfilter, rfl, rfl⟩ := h
    -- The table is lowered after the assignments and written before them; it takes no number.
    have hset := Numbers.silent_append (paramParts_tableParts table) (lowerAssignments_numbers has)
    exact hset.append (lowerOption_numbers hfilter)

theorem Delete.lower_numbers {d : Delete} {n n' : Nat} {x : Sql.Delete}
    (h : d.lower n = .ok (x, n')) :
    Numbers n n' (Statement.delete d).refs (Sql.Statement.delete x).parts := by
  obtain ⟨target, filter⟩ := d
  cases target with
  | none => exact absurd h Lowering.throw_ne_ok
  | some r =>
    simp only [Delete.lower, Lowering.bind_eq_ok, Lowering.pure_eq_ok, Lowering.lift_eq_ok] at h
    obtain ⟨table, _, ⟨_, rfl⟩, filter, n₁, hfilter, rfl, rfl⟩ := h
    exact Numbers.silent_append (paramParts_tableParts table) (lowerOption_numbers hfilter)

/-- The rows of an insert are scalars, so it has no parameter. -/
theorem paramParts_insertParts (i : Sql.Insert) : paramParts i.parts = [] := by
  simp [Sql.Insert.parts, paramParts_flatMap]

/-- Lowering a statement numbers the parameters that it refers to, in their order. -/
theorem Statement.lower_numbers {policy : NestedPolicy} {s : Statement} {n n' : Nat}
    {t : Sql.Statement} (h : (s.lower policy n).outcome = .ok (t, n')) :
    Numbers n n' s.refs t.parts := by
  cases s with
  | select s =>
    obtain ⟨x, hx, rfl⟩ := Lowering.map_eq_ok.mp h
    exact Select.lower_numbers hx
  | insert i =>
    obtain ⟨x, _, ⟨⟩⟩ := Outcome.map_eq_ok.mp h
    exact Numbers.silent n (paramParts_insertParts x)
  | update u =>
    obtain ⟨x, hx, rfl⟩ := Lowering.map_eq_ok.mp h
    exact Update.lower_numbers hx
  | delete d =>
    obtain ⟨x, hx, rfl⟩ := Lowering.map_eq_ok.mp h
    exact Delete.lower_numbers hx
  | upsert u =>
    obtain ⟨x, _, ⟨⟩⟩ := Outcome.map_eq_ok.mp h
    exact Numbers.silent n (paramParts_insertParts x)

/-- Lowering a query numbers the parameters that its statement refers to, in their order. -/
theorem Query.lower_numbers {policy : NestedPolicy} {q : Query} {n n' : Nat} {t : Sql.Statement}
    (h : (q.lower policy n).outcome = .ok (t, n')) : Numbers n n' q.refs t.parts := by
  unfold Query.lower at h
  unfold Query.refs
  split at h
  · rename_i s hs
    rw [hs]
    exact Statement.lower_numbers h
  · cases h

/-- The parameters of a lowered query have the numbers after `n` up to the last one, each once and
in order, and there are as many as the statement has references that stand for parameters. -/
theorem Query.params_of_lower {policy : NestedPolicy} {q : Query} {n n' : Nat} {t : Sql.Statement}
    (h : (q.lower policy n).outcome = .ok (t, n')) :
    t.params = List.range' (n + 1) (n' - n) ∧ n' = n + paramCount q.refs := by
  obtain ⟨hparams, rfl⟩ := Query.lower_numbers h
  refine ⟨?_, rfl⟩
  rw [Sql.Statement.params, ← map_value_paramParts, hparams, map_value_numbered,
    Nat.add_sub_cancel_left]

/-- A select with parameters in a column, a nested select, the condition of a cross join, a list and
a limit. -/
def selectWithParams : Query where
  select := some {
    columns := some [.ref ⟨["?"], none, some "cds.Integer", false⟩]
    source := some (.join {
      kind := .cross
      args := [.ref ⟨["?"], none, none, false⟩, .select {
        source := some (.ref ⟨["B"], none, none, false⟩)
        columns := none
        filter := some (.compound [.expr (.ref ⟨["b"], none, none, false⟩), .token "=",
          .expr (.ref ⟨["p"], none, none, true⟩)])
        groupBy := none
        having := none
        orderBy := none
        limit := none
        distinct := false } (some "s")]
      on := some (.ref ⟨["?"], none, none, false⟩)
      label := none })
    filter := some (.compound [.expr (.ref ⟨["a"], none, none, false⟩), .token "in",
      .expr (.list [.ref ⟨["?"], none, none, false⟩, .val (.bool true)])])
    groupBy := none
    having := none
    orderBy := none
    limit := some ⟨.ref ⟨["?"], none, none, false⟩, none⟩
    distinct := false }
  insert := none
  update := none
  delete := none
  upsert := none
  others := []

/-- From the last number 4, five parameters are numbered; the table named `?` is none of them. -/
theorem selectWithParams_numbers : ∃ t, (selectWithParams.lower .skip 4).outcome = .ok (t, 9) ∧
    t.params = [5, 6, 7, 8, 9] ∧ 9 = 4 + paramCount selectWithParams.refs :=
  ⟨_, rfl, @Query.params_of_lower .skip selectWithParams 4 9 _ rfl⟩

/-- A select without a parameter beside a delete with one. -/
def selectAndDelete : Query where
  select := some {
    source := some (.ref ⟨["A"], none, none, false⟩)
    columns := none
    filter := none
    groupBy := none
    having := none
    orderBy := none
    limit := none
    distinct := false }
  insert := none
  update := none
  delete := some ⟨some ⟨["B"], none, none, false⟩, some (.ref ⟨["?"], none, none, false⟩)⟩
  upsert := none
  others := []

/-- The parameters of a statement that is not lowered take no number, so a query that holds several
statements has more references to parameters than numbers. -/
theorem params_of_lower_not_allRefs : ¬ ∀ (policy : NestedPolicy) (q : Query) (n n' : Nat)
    (t : Sql.Statement), (q.lower policy n).outcome = .ok (t, n') →
      t.params = List.range' (n + 1) (n' - n) ∧ n' = n + paramCount q.allRefs := by
  intro h
  have hcount := (h .skip selectAndDelete 0 0 _ rfl).2
  revert hcount
  decide

end QueryNotation
