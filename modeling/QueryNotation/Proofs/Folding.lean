import QueryNotation.Dialect.Builtin
import QueryNotation.Proofs.NormalForm
import QueryNotation.Proofs.Precedence
import QueryNotation.Proofs.Subtrees
import QueryNotation.Sql.Print

/-! Compounds against their text. Lowering folds a compound from the left whatever its operators
are, and the fold is printed without parentheses. So the text is read back as the same tree, by a
reader that goes by the strength of operators, exactly if no operator is stronger than the one
before. -/

namespace QueryNotation

namespace Sql

def Token.print (d : Dialect) : Token → Printed
  | .operand e => e.print d
  | .operator spelling => pure [.plain (" " ++ spelling ++ " ")]
  | .negation => pure [.plain "NOT "]
  | .opening => pure [.plain "("]
  | .closing => pure [.plain ")"]

/-- The pieces of tokens in a row. -/
def printTokens (d : Dialect) : List Token → Printed
  | [] => pure []
  | t :: ts => do
    let x ← t.print d
    return x ++ (← printTokens d ts)

/-- The tree of an expression, with the operators as a dialect spells them. -/
def Expr.tree (d : Dialect) : Expr → Tree
  | .binary op left right => .binary (d.operatorText op) (left.tree d) (right.tree d)
  | .not e => .not (e.tree d)
  | .group e => .group (e.tree d)
  | e => .operand e

section Print

variable (d : Dialect)

theorem printTokens_append (ts us : List Token) : printTokens d (ts ++ us) = do
    let x ← printTokens d ts
    return x ++ (← printTokens d us) := by
  induction ts with
  | nil => simp [printTokens]
  | cons t ts ih =>
    simp only [List.cons_append, printTokens, ih, bind_assoc, pure_bind, List.append_assoc]

theorem printTokens_operand (e : Expr) : printTokens d [.operand e] = e.print d := by
  simp [printTokens, Token.print]

/-- An expression in normal form is printed as the tokens of its tree. -/
theorem Expr.Normal.print_eq {e : Expr} (h : e.Normal) :
    e.print d = printTokens d (e.tree d).tokens := by
  cases e with
  | binary op l r =>
    obtain _ | _ | ⟨_, hl, hr, -, -⟩ := h
    rw [tree, Tree.tokens, printTokens_append, ← hl.print_eq]
    simp [Expr.print, printTokens, Token.print, ← hr.print_eq]
  | not e =>
    obtain _ | _ | _ | ⟨he, hop⟩ := h
    have hbinary : e.isBinary = false := by
      cases e <;> simp_all [isBinary, isOperation]
    simp [Expr.print, printNot, hbinary, tree, Tree.tokens, printTokens, Token.print, ← he.print_eq]
  | group e =>
    obtain _ | _ | _ | _ | ⟨he, -⟩ := h
    simp [Expr.print, tree, Tree.tokens, printTokens, printTokens_append, Token.print,
      ← he.print_eq, Piece.parens]
  | _ => exact (printTokens_operand d _).symm

end Print

theorem Tree.respects_binary {strength : String → Nat} {s : String} {l r : Tree}
    (h : r.operator? = none) : (Tree.binary s l r).Respects strength ↔
      l.Respects strength ∧ r.Respects strength ∧ ∀ s' ∈ l.operator?, strength s ≤ strength s' := by
  simp [Tree.Respects, h]

theorem Expr.operator?_tree (d : Dialect) {e : Expr} (h : e.isOperation = false) :
    (e.tree d).operator? = none := by
  cases e <;> first | rfl | cases h

theorem Expr.respects_castTo (strength : String → Nat) (d : Dialect) {e : Expr} (h : e.isCastable)
    (cast : Option String) : ((e.castTo cast).tree d).Respects strength := by
  cases cast with
  | none => cases e <;> trivial
  | some type => trivial

end Sql

/-- Numbers that never increase from left to right. -/
def NeverIncreasing : List Nat → Prop
  | a :: b :: rest => b ≤ a ∧ NeverIncreasing (b :: rest)
  | _ => True

theorem neverIncreasing_toList (o : Option Nat) : NeverIncreasing o.toList := by
  cases o <;> trivial

theorem forall_mem_map_strength {strength : String → Nat} {o : Option String} {b : Nat} :
    (∀ a ∈ o.map strength, b ≤ a) ↔ ∀ s ∈ o, b ≤ strength s := by
  cases o <;> simp

theorem neverIncreasing_toList_append_cons {o : Option Nat} {b : Nat} {l : List Nat} :
    NeverIncreasing (o.toList ++ b :: l) ↔ (∀ a ∈ o, b ≤ a) ∧ NeverIncreasing (b :: l) := by
  cases o with
  | none => simp
  | some a => simp [NeverIncreasing]

/-- How strong the operator at a place of a compound is, unless an operand stands there. -/
def Item.strength? (strength : String → Nat) (d : Dialect) : Item → Option Nat
  | .token t => some (strength (d.operatorText (.ofToken t)))
  | .expr _ => none

theorem Item.strength?_token (strength : String → Nat) (d : Dialect) (t : String) :
    (Item.token t).strength? strength d = some (strength (d.operatorText (.ofToken t))) := rfl

def Expr.isCompound : Expr → Bool
  | .compound _ => true
  | _ => false

/-- In a compound, and in every compound among its operands, no operator is stronger than the one
before. -/
inductive Expr.Falling (strength : String → Nat) (d : Dialect) : Expr → Prop
  | compound {items : List Item}
      (operators : NeverIncreasing (items.filterMap (Item.strength? strength d)))
      (operands : ∀ e, .expr e ∈ items → e.Falling strength d) :
      Expr.Falling strength d (.compound items)
  | simple {e : Expr} (h : e.isCompound = false) : e.Falling strength d

section Falling

variable {strength : String → Nat} {d : Dialect}

theorem Expr.falling_compound {items : List Item} : (Expr.compound items).Falling strength d ↔
    NeverIncreasing (items.filterMap (Item.strength? strength d)) ∧
      ∀ e, .expr e ∈ items → e.Falling strength d := by
  constructor
  · intro h
    cases h with
    | compound operators operands => exact ⟨operators, operands⟩
    | simple h => cases h
  · intro h
    exact .compound h.1 h.2

open Lowering (Yields)

-- The lowered tree is bound by strength exactly if the operators of the compound fall. The operands
-- of a chain are told to be no operations, so only the operators of the chain itself meet.
mutual

theorem Expr.lower_respects (strength : String → Nat) (d : Dialect) (e : Expr) :
    e.lower.Yields fun x => (x.tree d).Respects strength ↔ e.Falling strength d := by
  cases e with
  | compound items => exact lowerCompound_respects strength d items
  | ref r =>
    have hlower : r.lower.Yields fun x => (x.tree d).Respects strength := by
      unfold Ref.lower
      split
      · exact (Yields.any _).bind fun i _ => .pure (Sql.Expr.respects_castTo strength d rfl r.cast)
      · exact (Yields.any _).bind fun i _ => .pure (Sql.Expr.respects_castTo strength d rfl r.cast)
    exact hlower.imp fun x hx => iff_of_true hx (.simple rfl)
  | call c =>
    obtain ⟨name, args, label, cast⟩ := c
    exact (Yields.any _).bind fun xs _ => .pure
      (iff_of_true (Sql.Expr.respects_castTo strength d rfl cast) (.simple rfl))
  | val v => exact .pure (iff_of_true trivial (.simple rfl))
  | list items =>
    exact (Yields.any _).bind fun xs _ => .pure (iff_of_true trivial (.simple rfl))
  | select s label =>
    exact (Yields.any _).bind fun x _ => .pure (iff_of_true trivial (.simple rfl))
  | bareSelect s =>
    exact (Yields.any _).bind fun x _ => .pure (iff_of_true trivial (.simple rfl))
  | other => exact .throw _

theorem Item.lower_respects (strength : String → Nat) (d : Dialect) (i : Item) :
    i.lower.Yields fun x => (i.strength? strength d = none ∧ (x.tree d).operator? = none) ∧
      ((x.tree d).Respects strength ↔ ∀ e, i = .expr e → e.Falling strength d) := by
  cases i with
  | token t => exact .throw _
  | expr e =>
    have hoperator : (Item.expr e).lower.Yields fun x => (x.tree d).operator? = none :=
      (Item.expr e).lower_yields.imp fun x hx => Sql.Expr.operator?_tree d hx.2
    have hrespects : (Item.expr e).lower.Yields fun x =>
        (x.tree d).Respects strength ↔ ∀ e', Item.expr e = .expr e' → e'.Falling strength d := by
      refine (e.lower_respects strength d).bind fun x hx => .pure ?_
      split
      · simpa [Sql.Expr.tree, Sql.Tree.Respects] using hx
      · simpa using hx
    exact (hoperator.and hrespects).imp fun x hx => ⟨⟨rfl, hx.1⟩, hx.2⟩

theorem lowerCompound_respects (strength : String → Nat) (d : Dialect) (items : List Item) :
    (lowerCompound items).Yields fun x =>
      (x.tree d).Respects strength ↔ (Expr.compound items).Falling strength d := by
  rw [Expr.falling_compound]
  match items with
  | [] => exact .throw _
  | [i] =>
    refine (i.lower_respects strength d).imp fun x hx => ?_
    obtain ⟨⟨hi, -⟩, hx⟩ := hx
    rw [forall_operand_cons, List.filterMap_cons_none hi, hx]
    simp [NeverIncreasing]
  | [negation, i] =>
    rw [lowerCompound]
    split
    · rename_i h
      obtain ⟨t, rfl, ht⟩ := negation.isNegation_iff.mp h
      refine (i.lower_respects strength d).bind fun x hx => .pure ?_
      obtain ⟨⟨hi, hnone⟩, hx⟩ := hx
      rw [forall_operand_cons, forall_operand_cons,
        List.filterMap_cons_some (Item.strength?_token strength d t), List.filterMap_cons_none hi]
      simp [NeverIncreasing, Sql.Expr.tree, Sql.Tree.Respects, hnone, hx]
    · exact .throw _
  | i :: op :: j :: rest =>
    simp only [lowerCompound]
    split
    · rename_i heven
      refine (i.lower_respects strength d).bind fun x hx => ?_
      obtain ⟨⟨hi, hnone⟩, hx⟩ := hx
      refine (lowerChain_respects strength d x 1 (op :: j :: rest) heven).imp fun y hy => ?_
      rw [hy, hnone, hx, forall_operand_cons (x := i), List.filterMap_cons_none hi]
      exact and_left_comm
    · exact .throw _

/-- The strength of the operator that was folded last stands before those that are still to come. -/
theorem lowerChain_respects (strength : String → Nat) (d : Dialect) (left : Sql.Expr)
    (position : Nat) (items : List Item) (heven : items.length % 2 = 0) :
    (lowerChain left position items).Yields fun x =>
      (x.tree d).Respects strength ↔ (left.tree d).Respects strength ∧
        NeverIncreasing (((left.tree d).operator?.map strength).toList ++
          items.filterMap (Item.strength? strength d)) ∧
        ∀ e, .expr e ∈ items → e.Falling strength d := by
  match items with
  | [] =>
    refine .pure ?_
    simp [neverIncreasing_toList]
  | [_] => cases heven
  | .expr e :: _ :: _ =>
    exact (Yields.lift fun _ h => absurd h Outcome.throw_ne_ok).bind fun _ (h : False) => h.elim
  | .token t :: i :: rest =>
    have hop : Yields (liftM ((Item.token t).operatorAt position)) fun op => op = .ofToken t :=
      .lift fun op h => (Except.ok.inj h).symm
    refine hop.bind fun op hop => (i.lower_respects strength d).bind fun x hx => ?_
    obtain ⟨⟨hi, hnone⟩, hx⟩ := hx
    have hrest : rest.length % 2 = 0 := by
      simp only [List.length_cons] at heven
      omega
    have hchain := lowerChain_respects strength d (.binary op left x) (position + 2) rest hrest
    refine hchain.imp fun y hy => ?_
    subst hop
    have hfold : ((Sql.Expr.binary (.ofToken t) left x).tree d).Respects strength ↔
        (left.tree d).Respects strength ∧ (∀ e, i = .expr e → e.Falling strength d) ∧
          ∀ s ∈ (left.tree d).operator?, strength (d.operatorText (.ofToken t)) ≤ strength s := by
      rw [Sql.Expr.tree, Sql.Tree.respects_binary hnone, hx]
    rw [hy, hfold, forall_operand_cons, forall_operand_cons,
      List.filterMap_cons_some (Item.strength?_token strength d t), List.filterMap_cons_none hi,
      neverIncreasing_toList_append_cons, forall_mem_map_strength]
    constructor
    · rintro ⟨⟨hl, hoperand, hfalls⟩, hnever, hoperands⟩
      exact ⟨hl, ⟨hfalls, hnever⟩, fun _ he => (by cases he), hoperand, hoperands⟩
    · rintro ⟨hl, ⟨hfalls, hnever⟩, -, hoperand, hoperands⟩
      exact ⟨⟨hl, hoperand, hfalls⟩, hnever, hoperands⟩

end

theorem neverIncreasing_of_length_le_one {l : List Nat} (h : l.length ≤ 1) :
    NeverIncreasing l := by
  match l with
  | [] => trivial
  | [_] => trivial
  | _ :: _ :: _ =>
    simp only [List.length_cons] at h
    omega

theorem length_filterMap_strength? (strength : String → Nat) (d : Dialect) (items : List Item) :
    (items.filterMap (Item.strength? strength d)).length = (items.filter Item.isToken).length := by
  induction items with
  | nil => rfl
  | cons i items ih =>
    cases i with
    | token t =>
      rw [List.filterMap_cons_some (Item.strength?_token strength d t), List.filter_cons_of_pos rfl,
        List.length_cons, List.length_cons, ih]
    | expr e => exact ih

/-- Whether a compound has at most one operator. -/
def AtMostOneOperator (items : List Item) : Prop := (items.filter Item.isToken).length ≤ 1

mutual

/-- A single operator has nothing to fall from. -/
theorem Expr.falling_of_atMostOneOperator (strength : String → Nat) (d : Dialect) (e : Expr)
    (h : ∀ items, .expr (.compound items) ∈ e.subtrees → AtMostOneOperator items) :
    e.Falling strength d := by
  cases e with
  | compound items =>
    refine .compound (neverIncreasing_of_length_le_one ?_) ?_
    · rw [length_filterMap_strength?]
      exact h items List.mem_cons_self
    · exact falling_operands strength d items fun items' h' => h items' (List.mem_cons_of_mem _ h')
  | _ => exact .simple rfl

theorem falling_operands (strength : String → Nat) (d : Dialect) (items : List Item)
    (h : ∀ items', .expr (.compound items') ∈ itemSubtrees items → AtMostOneOperator items') :
    ∀ e, .expr e ∈ items → e.Falling strength d := by
  match items with
  | [] =>
    intro e he
    cases he
  | .token t :: items =>
    rw [forall_operand_cons]
    exact ⟨fun _ he => (by cases he), falling_operands strength d items h⟩
  | .expr e :: items =>
    rw [forall_operand_cons]
    refine ⟨fun e' he' => ?_, falling_operands strength d items fun items' h' =>
      h items' (List.mem_append_right _ h')⟩
    cases he'
    exact e.falling_of_atMostOneOperator strength d fun items' h' =>
      h items' (List.mem_append_left _ h')

end

/-- A compound is printed as the tokens of its tree. They are read as a tree that is bound by
strength, which is the lowered tree exactly if no operator of the compound, or of a compound among
its operands, is stronger than the one before. So where no compound of a query has two operators,
each is read back, whatever the strengths are. A database reads `BETWEEN` together with the `AND`
after it, so this is its reading only of texts without `BETWEEN`. -/
theorem Expr.reading_of_lower {items : List Item} {n n' : Nat} {x : Sql.Expr}
    (h : (Expr.compound items).lower n = .ok (x, n')) (strength : String → Nat) (d : Dialect) :
    x.print d = Sql.printTokens d (x.tree d).tokens ∧
    (∃ t, Sql.readTokens strength (x.tree d).tokens = some t ∧ t.tokens = (x.tree d).tokens ∧
      t.Respects strength ∧ (t = x.tree d ↔ (Expr.compound items).Falling strength d)) ∧
    ∀ q : Query, (∀ items', .expr (.compound items') ∈ q.subtrees → AtMostOneOperator items') →
      .expr (.compound items) ∈ q.subtrees →
      Sql.readTokens strength (x.tree d).tokens = some (x.tree d) := by
  have hnormal := ((Expr.compound items).lower_yields n x n' h).1
  have hrespects := (Expr.compound items).lower_respects strength d n x n' h
  refine ⟨hnormal.print_eq d, ?_, fun q hq hmem => ?_⟩
  · obtain ⟨t, hread, htokens, ht, heq⟩ := (x.tree d).exists_readTokens strength
    exact ⟨t, hread, htokens, ht, heq.trans hrespects⟩
  · refine (hrespects.mpr ?_).readTokens
    exact (Expr.compound items).falling_of_atMostOneOperator strength d fun items' h' =>
      hq items' (q.closed_subtrees _ hmem h')

end Falling

/-- A product is stronger than a sum. -/
def usualStrength (spelling : String) : Nat :=
  if spelling = "*" then 2 else if spelling = "+" then 1 else 0

def plainColumn (name : String) : Expr := .ref ⟨[name], none, none, false⟩

def threeColumns (first second : String) : List Item :=
  [.expr (plainColumn "a"), .token first, .expr (plainColumn "b"), .token second,
    .expr (plainColumn "c")]

def sumItems : List Item := [.expr (plainColumn "a"), .token "+", .expr (plainColumn "b")]

def sumEquals : List Item :=
  [.expr (.compound sumItems), .token "=", .expr (plainColumn "c")]

def deleteWhereSum : Query :=
  ⟨none, none, none, some ⟨some ⟨["t"], none, none, false⟩, some (.compound sumEquals)⟩, none, []⟩

/-- A sum after a product is read back, and a product after a sum is not. A sum in parentheses is
read back whatever its strength is. -/
theorem chains_readings :
    (∃ x, (Expr.compound (threeColumns "*" "+")).lower 0 = .ok (x, 0) ∧
      Sql.readTokens usualStrength (x.tree .ansi).tokens = some (x.tree .ansi)) ∧
    (∃ x, (Expr.compound (threeColumns "+" "*")).lower 0 = .ok (x, 0) ∧
      Sql.readTokens usualStrength (x.tree .ansi).tokens ≠ some (x.tree .ansi)) ∧
    ∃ x, (Expr.compound sumEquals).lower 0 = .ok (x, 0) ∧
      ∀ strength, Sql.readTokens strength (x.tree .ansi).tokens = some (x.tree .ansi) := by
  have hfalls : (Expr.compound (threeColumns "*" "+")).Falling usualStrength .ansi := by
    refine .compound ⟨?_, trivial⟩ fun e he => ?_
    · decide
    · have he : e = plainColumn "a" ∨ e = plainColumn "b" ∨ e = plainColumn "c" := by
        simpa [threeColumns] using he
      rcases he with rfl | rfl | rfl <;> exact .simple rfl
  have hrises : ¬ (Expr.compound (threeColumns "+" "*")).Falling usualStrength .ansi := by
    intro h
    exact absurd (Expr.falling_compound.mp h).1.1 (by decide)
  have hsingle : ∀ items, .expr (.compound items) ∈ deleteWhereSum.subtrees →
      AtMostOneOperator items := by
    intro items h
    have hitems : items = sumEquals ∨ items = sumItems := by
      simpa [deleteWhereSum, sumEquals, sumItems, plainColumn, Query.subtrees, Query.statements,
        Statement.subtrees, optionSubtrees, Expr.subtrees, itemSubtrees, Item.subtrees] using h
    rcases hitems with rfl | rfl
    · exact Nat.le_refl 1
    · exact Nat.le_refl 1
  refine ⟨⟨_, rfl, ?_⟩, ⟨_, rfl, ?_⟩, ⟨_, rfl, fun strength => ?_⟩⟩
  · obtain ⟨-, ⟨t, hread, -, -, heq⟩, -⟩ := Expr.reading_of_lower
      (rfl : (Expr.compound (threeColumns "*" "+")).lower 0 = _) usualStrength .ansi
    rw [hread, heq.mpr hfalls]
  · obtain ⟨-, ⟨t, hread, -, -, heq⟩, -⟩ := Expr.reading_of_lower
      (rfl : (Expr.compound (threeColumns "+" "*")).lower 0 = _) usualStrength .ansi
    rw [hread]
    intro h
    exact hrises (heq.mp (Option.some.inj h))
  · obtain ⟨-, -, hquery⟩ := Expr.reading_of_lower
      (rfl : (Expr.compound sumEquals).lower 0 = _) strength .ansi
    exact hquery deleteWhereSum hsingle List.mem_cons_self

end QueryNotation
