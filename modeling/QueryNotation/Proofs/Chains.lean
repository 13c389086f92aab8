import QueryNotation.Proofs.Rereading
import QueryNotation.Proofs.Success

/-! Compounds as flat chains. A compound of three or more items is lowered to the left fold of its
operands, and its text is the texts of the operands with the operators between them. Parentheses
come from operands that are compounds of several items, one pair for each; compounds of a single
item leave no trace. -/

namespace QueryNotation

/-- Operator tokens, each with the operand after it, as items of a compound. -/
def stepItems (steps : List (String × Expr)) : List Item :=
  steps.flatMap fun step => [.token step.1, .expr step.2]

/-- An expression in as many compounds of one item as `depth` says. -/
def Expr.wrapped (e : Expr) : Nat → Expr
  | 0 => e
  | depth + 1 => .compound [.expr (e.wrapped depth)]

/-- Lowers an expression in the place of an operand. -/
def Expr.lowerOperand (e : Expr) : Lowering Sql.Expr := (Item.expr e).lower

/-- Lowers the operands of steps from left to right. -/
def lowerSteps (steps : List (String × Expr)) : Lowering (List (String × Sql.Expr)) :=
  steps.mapM fun step => (step.1, ·) <$> step.2.lowerOperand

namespace Sql

/-- The left fold of operators and operands onto a first operand. -/
def Expr.folded (first : Expr) (steps : List (String × Expr)) : Expr :=
  steps.foldl (fun left step => .binary (.ofToken step.1) left step.2) first

/-- The text of steps: each operator between blanks, then its operand. -/
def stepsText (d : Dialect) : List (String × Expr) → Except PrintError String
  | [] => pure ""
  | step :: steps => do
    let s ← step.2.text d
    return " " ++ d.operatorText (.ofToken step.1) ++ " " ++ s ++ (← stepsText d steps)

end Sql

/-- An item, or the same operand in compounds of one item. -/
inductive Item.Wraps : Item → Item → Prop
  | token (t : String) : Item.Wraps (.token t) (.token t)
  | operand (e : Expr) (depth : Nat) : Item.Wraps (.expr e) (.expr (e.wrapped depth))

/-- The same items, with operands in compounds of one item. -/
inductive Rewrapped : List Item → List Item → Prop
  | nil : Rewrapped [] []
  | cons {i j : Item} {items items' : List Item} (head : i.Wraps j)
      (tail : Rewrapped items items') : Rewrapped (i :: items) (j :: items')

section Wrapping

theorem Expr.lowerOperand_of_not_isGroup {e : Expr} (h : e.isGroup = false) :
    e.lowerOperand = e.lower := by
  simp [Expr.lowerOperand, Item.lower, h]

theorem Expr.lowerOperand_of_isGroup {e : Expr} (h : e.isGroup) :
    e.lowerOperand = Sql.Expr.group <$> e.lower := by
  simp [Expr.lowerOperand, Item.lower, h]

theorem Expr.lowerOperand_wrapped (e : Expr) (depth : Nat) :
    (e.wrapped depth).lowerOperand = e.lowerOperand := by
  induction depth with
  | zero => rfl
  | succ depth ih =>
    calc (Expr.compound [.expr (e.wrapped depth)]).lowerOperand
      _ = (Expr.compound [.expr (e.wrapped depth)]).lower := Expr.lowerOperand_of_not_isGroup rfl
      _ = (e.wrapped depth).lowerOperand := rfl
      _ = e.lowerOperand := ih

variable {i j : Item} {items items' : List Item}

theorem Item.Wraps.lower_eq (h : i.Wraps j) : j.lower = i.lower := by
  cases h with
  | token t => rfl
  | operand e depth => exact e.lowerOperand_wrapped depth

theorem Item.Wraps.isNegation_eq (h : i.Wraps j) : j.isNegation = i.isNegation := by
  cases h <;> rfl

theorem Item.Wraps.operatorAt_eq (h : i.Wraps j) (position : Nat) :
    j.operatorAt position = i.operatorAt position := by
  cases h <;> rfl

theorem Rewrapped.length_eq (h : Rewrapped items items') : items'.length = items.length := by
  induction h with
  | nil => rfl
  | cons head tail ih => rw [List.length_cons, List.length_cons, ih]

theorem Rewrapped.lowerChain_eq {items items' : List Item} (h : Rewrapped items items')
    (left : Sql.Expr) (position : Nat) :
    lowerChain left position items' = lowerChain left position items := by
  cases h with
  | nil => rfl
  | cons hop tail =>
    cases tail with
    | nil => rfl
    | cons hoperand tail =>
      rw [lowerChain, lowerChain, hop.operatorAt_eq, hoperand.lower_eq]
      refine bind_congr fun op => bind_congr fun right => ?_
      exact tail.lowerChain_eq _ _
termination_by items.length

/-- Compounds of one item around operands change nothing. -/
theorem Rewrapped.lowerCompound_eq (h : Rewrapped items items') :
    lowerCompound items' = lowerCompound items := by
  cases h with
  | nil => rfl
  | cons first tail =>
    cases tail with
    | nil => exact first.lower_eq
    | cons second tail =>
      cases tail with
      | nil => rw [lowerCompound, lowerCompound, first.isNegation_eq, second.lower_eq]
      | cons third tail =>
        have hrest := Rewrapped.cons second (.cons third tail)
        simp only [lowerCompound, first.lower_eq, hrest.lowerChain_eq, hrest.length_eq]

end Wrapping

section Fold

/-- The fold of a chain, operand after operand, is the fold of the lowered operands. -/
theorem lowerChain_stepItems (left : Sql.Expr) (position : Nat) (steps : List (String × Expr)) :
    lowerChain left position (stepItems steps) = left.folded <$> lowerSteps steps := by
  induction steps generalizing left position with
  | nil => rfl
  | cons step steps ih =>
    obtain ⟨t, e⟩ := step
    have hop : (liftM ((Item.token t).operatorAt position) : Lowering Sql.Operator) =
        pure (.ofToken t) := rfl
    have hitems : stepItems ((t, e) :: steps) = .token t :: .expr e :: stepItems steps := rfl
    rw [hitems, lowerChain, hop, pure_bind, lowerSteps, List.mapM_cons]
    simp only [map_bind, map_pure, bind_map_left]
    refine bind_congr fun right => ?_
    rw [ih, ← bind_pure_comp]
    rfl

/-- Operators and operands take turns in a chain that is lowered. -/
theorem exists_steps_of_lowerChain {items : List Item} {left x : Sql.Expr} {position n n' : Nat}
    (heven : items.length % 2 = 0) (h : lowerChain left position items n = .ok (x, n')) :
    ∃ steps, items = stepItems steps := by
  match items with
  | [] => exact ⟨[], rfl⟩
  | [_] => cases heven
  | op :: i :: rest =>
    simp only [lowerChain, Lowering.bind_eq_ok, Lowering.lift_eq_ok] at h
    obtain ⟨op', _, ⟨hop, rfl⟩, right, n₁, hright, hrest⟩ := h
    have hrestEven : rest.length % 2 = 0 := by
      simp only [List.length_cons] at heven
      omega
    obtain ⟨steps, rfl⟩ := exists_steps_of_lowerChain hrestEven hrest
    cases op with
    | expr e => cases hop
    | token t =>
      cases i with
      | token t' => exact absurd hright Lowering.throw_ne_ok
      | expr e => exact ⟨(t, e) :: steps, rfl⟩

theorem length_stepItems (steps : List (String × Expr)) :
    (stepItems steps).length = 2 * steps.length := by
  induction steps with
  | nil => rfl
  | cons step steps ih =>
    have hitems : (stepItems (step :: steps)).length = (stepItems steps).length + 2 := rfl
    rw [hitems, ih, List.length_cons]
    omega

theorem lowerCompound_chain (first : Expr) {steps : List (String × Expr)} (h : steps ≠ []) :
    lowerCompound (.expr first :: stepItems steps) = do
      let y ← first.lowerOperand
      let ys ← lowerSteps steps
      return y.folded ys := by
  obtain ⟨step, steps, rfl⟩ := List.exists_cons_of_ne_nil h
  have hitems : stepItems (step :: steps) = .token step.1 :: .expr step.2 :: stepItems steps := rfl
  have heven : (stepItems (step :: steps)).length % 2 = 0 := by
    rw [length_stepItems]
    omega
  rw [hitems] at heven ⊢
  simp only [lowerCompound, if_pos heven]
  refine bind_congr fun y => ?_
  rw [← hitems, lowerChain_stepItems, bind_pure_comp]

theorem exists_chain_of_lowerCompound {items : List Item} {n n' : Nat} {x : Sql.Expr}
    (hlength : 3 ≤ items.length) (h : lowerCompound items n = .ok (x, n')) :
    ∃ first steps, items = .expr first :: stepItems steps ∧ steps ≠ [] := by
  match items with
  | i :: j :: k :: rest =>
    simp only [lowerCompound] at h
    split at h
    · rename_i heven
      simp only [Lowering.bind_eq_ok] at h
      obtain ⟨y, n₁, hy, hchain⟩ := h
      obtain ⟨steps, hsteps⟩ := exists_steps_of_lowerChain heven hchain
      cases i with
      | token t => exact absurd hy Lowering.throw_ne_ok
      | expr first =>
        refine ⟨first, steps, by rw [hsteps], ?_⟩
        rintro rfl
        cases hsteps
    · exact absurd h Lowering.throw_ne_ok

end Fold

namespace Sql

variable (d : Dialect)

theorem Expr.text_binary (op : Operator) (l r : Expr) : (Expr.binary op l r).text d = do
    let s ← l.text d
    let s' ← r.text d
    return s ++ " " ++ d.operatorText op ++ " " ++ s' := by
  have hpieces (x y : List Piece) :
      d.text (x ++ .plain (" " ++ d.operatorText op ++ " ") :: y) =
        d.text x ++ " " ++ d.operatorText op ++ " " ++ d.text y := by
    rw [d.text_append, d.text_cons, Dialect.pieceText]
    simp only [String.append_assoc]
  rw [Expr.text, Expr.text, Expr.text, Expr.print]
  cases l.print d with
  | error e => rfl
  | ok x =>
    cases r.print d with
    | error e => rfl
    | ok y => exact congrArg Except.ok (hpieces x y)

theorem Expr.text_group (e : Expr) : (Expr.group e).text d = do
    let s ← e.text d
    return "(" ++ s ++ ")" := by
  rw [Expr.text, Expr.text, Expr.print]
  cases e.print d with
  | error e => rfl
  | ok x => exact congrArg Except.ok (d.text_parens x)

theorem Expr.text_folded (first : Expr) (steps : List (String × Expr)) :
    (first.folded steps).text d = do
      let s ← first.text d
      return s ++ (← stepsText d steps) := by
  induction steps generalizing first with
  | nil => simp [Expr.folded, stepsText]
  | cons step steps ih =>
    have hfold : first.folded (step :: steps) =
        (Expr.binary (.ofToken step.1) first step.2).folded steps := rfl
    rw [hfold, ih, Expr.text_binary, stepsText]
    simp only [bind_assoc, pure_bind, String.append_assoc]

end Sql

/-- A compound of three or more items that is lowered has operands with operators between them, and
its tree is the left fold of the operands, lowered from left to right. Its text is theirs with the
operators between. An operand that is a compound of several items, in whatever compounds of one
item, is that compound in one pair of parentheses. Compounds of one item change nothing. -/
theorem Expr.chain_of_lower {items : List Item} (hlength : 3 ≤ items.length) {n n' : Nat}
    {x : Sql.Expr} (h : (Expr.compound items).lower n = .ok (x, n')) :
    (∃ first steps y ys n₁, items = .expr first :: stepItems steps ∧
      first.lowerOperand n = .ok (y, n₁) ∧ lowerSteps steps n₁ = .ok (ys, n') ∧
      x = y.folded ys ∧
      ∀ d, x.text d = do
        let s ← y.text d
        return s ++ (← Sql.stepsText d ys)) ∧
    (∀ items' : List Item, 1 < items'.length → ∀ depth m m' z,
      ((Expr.compound items').wrapped depth).lowerOperand m = .ok (z, m') →
      ∃ w, (Expr.compound items').lower m = .ok (w, m') ∧ z = .group w ∧
        ∀ d, z.text d = do
          let s ← w.text d
          return "(" ++ s ++ ")") ∧
    ∀ items', Rewrapped items items' →
      (Expr.compound items').lower = (Expr.compound items).lower := by
  refine ⟨?_, fun items' hmany depth m m' z hz => ?_, fun items' hwraps => hwraps.lowerCompound_eq⟩
  · obtain ⟨first, steps, rfl, hsteps⟩ := exists_chain_of_lowerCompound hlength h
    have hchain : (Expr.compound (.expr first :: stepItems steps)).lower = _ :=
      lowerCompound_chain first hsteps
    rw [hchain] at h
    simp only [Lowering.bind_eq_ok, Lowering.pure_eq_ok] at h
    obtain ⟨y, n₁, hy, ys, n₂, hys, rfl, rfl⟩ := h
    exact ⟨first, steps, y, ys, n₁, rfl, hy, hys, rfl, fun d => y.text_folded d ys⟩
  · have hgroup : (Expr.compound items').isGroup := by simpa [Expr.isGroup] using hmany
    rw [Expr.lowerOperand_wrapped, Expr.lowerOperand_of_isGroup hgroup, Lowering.map_eq_ok] at hz
    obtain ⟨w, hw, rfl⟩ := hz
    exact ⟨w, hw, rfl, fun d => w.text_group d⟩

def columnOrParam : List Item :=
  [.expr (.ref ⟨["b"], none, none, false⟩), .token "or", .expr (.ref ⟨["?"], none, none, false⟩)]

/-- Three operands, of which the second is in as many compounds of one item as `depth` says. -/
def chainAtDepth (depth : Nat) : List Item :=
  [.expr (.ref ⟨["a"], none, none, false⟩), .token "+",
    .expr ((Expr.compound columnOrParam).wrapped depth), .token "and",
    .expr (.compound [.token "not", .expr (.ref ⟨["c"], none, none, false⟩)])]

theorem chainAtDepth_flat : ∃ x, (Expr.compound (chainAtDepth 0)).lower 4 = .ok (x, 5) ∧
    (∃ first steps y ys n₁, chainAtDepth 0 = .expr first :: stepItems steps ∧
      first.lowerOperand 4 = .ok (y, n₁) ∧ lowerSteps steps n₁ = .ok (ys, 5) ∧ x = y.folded ys) ∧
    x.text .ansi = .ok "\"a\" + (\"b\" OR $5) AND (NOT \"c\")" ∧
    (∃ z w, ((Expr.compound columnOrParam).wrapped 2).lowerOperand 4 = .ok (z, 5) ∧
      (Expr.compound columnOrParam).lower 4 = .ok (w, 5) ∧ z = .group w) ∧
    ∀ depth,
      (Expr.compound (chainAtDepth depth)).lower = (Expr.compound (chainAtDepth 0)).lower := by
  obtain ⟨⟨first, steps, y, ys, n₁, hitems, hfirst, hsteps, hfold, -⟩, hgroup, hwrap⟩ :=
    @Expr.chain_of_lower (chainAtDepth 0) (by decide) 4 5 _ rfl
  obtain ⟨w, hw, hz, -⟩ := hgroup columnOrParam (by decide) 2 4 5 _ rfl
  refine ⟨_, rfl, ⟨first, steps, y, ys, n₁, hitems, hfirst, hsteps, hfold⟩,
    by with_unfolding_all rfl, ⟨_, w, rfl, hw, hz⟩, fun depth => hwrap _ ?_⟩
  exact .cons (.operand _ 0) <| .cons (.token _) <| .cons (.operand _ depth) <|
    .cons (.token _) <| .cons (.operand _ 0) .nil

end QueryNotation
