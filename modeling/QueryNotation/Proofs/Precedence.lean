import QueryNotation.Sql.Basic

/-! Reading chains of operations by the strength of their operators. The text of a chain has no
parentheses of its own: a database binds its operands by the strength of the operators between them,
and those of equal strength from the left. Such a reader is a machine that takes one token at a
time. It reads the tokens of every tree, and what it reads is the one tree with these tokens that is
bound by strength. -/

namespace QueryNotation

namespace Sql

/-- A token of a printed expression. An operand that is no group is one token. -/
inductive Token where
  | operand (e : Expr)
  | operator (spelling : String)
  | negation
  | opening
  | closing

/-- An expression as it is read: operators are known by their spelling only. -/
inductive Tree where
  | operand (e : Expr)
  | binary (spelling : String) (left right : Tree)
  | not (t : Tree)
  | group (t : Tree)

namespace Tree

def tokens : Tree → List Token
  | .operand e => [.operand e]
  | .binary spelling left right => left.tokens ++ .operator spelling :: right.tokens
  | .not t => .negation :: t.tokens
  | .group t => .opening :: t.tokens ++ [.closing]

/-- The operator at the top of a tree, unless that is an operand. -/
def operator? : Tree → Option String
  | .binary spelling _ _ => some spelling
  | _ => none

/-- The operands are bound by the strength of the operators: those on the left of an operator are
not weaker, and those on its right are stronger. A negation is stronger than every operator. -/
def Respects (strength : String → Nat) : Tree → Prop
  | .operand _ => True
  | .binary s l r => l.Respects strength ∧ r.Respects strength ∧
    (∀ s' ∈ l.operator?, strength s ≤ strength s') ∧ ∀ s' ∈ r.operator?, strength s < strength s'
  | .not t => t.Respects strength ∧ t.operator? = none
  | .group t => t.Respects strength

end Tree

section Reader

/-- What waits for the operand to its right. -/
inductive Pending where
  | negation
  | left (t : Tree) (spelling : String)

namespace Pending

def close : Pending → Tree → Tree
  | .negation, t => .not t
  | .left l spelling, t => .binary spelling l t

def tokens : Pending → List Token
  | .negation => [.negation]
  | .left l spelling => l.tokens ++ [.operator spelling]

/-- Whether what waits takes its operand before an operator that comes. One of the same strength
does, so equal operators are bound from the left. -/
def holds (strength : String → Nat) (coming : String) : Pending → Bool
  | .negation => true
  | .left _ spelling => strength coming ≤ strength spelling

end Pending

/-- Closes all that waits, the innermost first. -/
def closeAll : List Pending → Tree → Tree
  | [], t => t
  | p :: ps, t => closeAll ps (p.close t)

/-- Closes what takes its operand before an operator that comes. -/
def reduce (strength : String → Nat) (coming : String) :
    List Pending → Tree → List Pending × Tree
  | [], t => ([], t)
  | p :: ps, t =>
    if p.holds strength coming then reduce strength coming ps (p.close t) else (p :: ps, t)

/-- The state of a reader: what waits in the groups around, what waits in this one, and the operand
that was read last, unless one is to come. -/
structure Reader where
  outer : List (List Pending)
  pending : List Pending
  current : Option Tree

namespace Reader

def start : Reader := ⟨[], [], none⟩

def step (strength : String → Nat) : Reader → Token → Option Reader
  | ⟨outer, pending, none⟩, .operand e => some ⟨outer, pending, some (.operand e)⟩
  | ⟨outer, pending, none⟩, .negation => some ⟨outer, .negation :: pending, none⟩
  | ⟨outer, pending, none⟩, .opening => some ⟨pending :: outer, [], none⟩
  | ⟨outer, pending, some t⟩, .operator s =>
    let reduced := reduce strength s pending t
    some ⟨outer, .left reduced.2 s :: reduced.1, none⟩
  | ⟨before :: outer, pending, some t⟩, .closing =>
    some ⟨outer, before, some (.group (closeAll pending t))⟩
  | _, _ => none

def run (strength : String → Nat) (r : Reader) : List Token → Option Reader
  | [] => some r
  | t :: ts => (r.step strength t).bind fun r' => r'.run strength ts

/-- What has been read, if no group is open and no operand is missing. -/
def result : Reader → Option Tree
  | ⟨[], pending, some t⟩ => some (closeAll pending t)
  | _ => none

end Reader

/-- The tree that tokens in a row are read as. -/
def readTokens (strength : String → Nat) (tokens : List Token) : Option Tree :=
  (Reader.start.run strength tokens).bind Reader.result

end Reader

section Steps

variable {strength : String → Nat}

theorem Reader.run_append (r : Reader) (ts us : List Token) :
    r.run strength (ts ++ us) = (r.run strength ts).bind fun r' => r'.run strength us := by
  induction ts generalizing r with
  | nil => rfl
  | cons t ts ih =>
    simp only [List.cons_append, Reader.run]
    cases r.step strength t with
    | none => rfl
    | some r' => exact ih r'

/-- All that a step can do. -/
inductive Reader.Steps (strength : String → Nat) : Reader → Token → Reader → Prop
  | operand (outer pending e) :
      Steps strength ⟨outer, pending, none⟩ (.operand e) ⟨outer, pending, some (.operand e)⟩
  | negation (outer pending) :
      Steps strength ⟨outer, pending, none⟩ .negation ⟨outer, .negation :: pending, none⟩
  | opening (outer pending) :
      Steps strength ⟨outer, pending, none⟩ .opening ⟨pending :: outer, [], none⟩
  | operator (outer pending t s) : Steps strength ⟨outer, pending, some t⟩ (.operator s)
      ⟨outer, .left (reduce strength s pending t).2 s :: (reduce strength s pending t).1, none⟩
  | closing (outer before pending t) : Steps strength ⟨before :: outer, pending, some t⟩ .closing
      ⟨outer, before, some (.group (closeAll pending t))⟩

theorem Reader.steps_of_step {r r' : Reader} {t : Token} (h : r.step strength t = some r') :
    Steps strength r t r' := by
  unfold Reader.step at h
  split at h
  · cases h
    exact .operand ..
  · cases h
    exact .negation ..
  · cases h
    exact .opening ..
  · cases h
    exact .operator ..
  · cases h
    exact .closing ..
  · cases h

/-- What every step keeps, every run keeps. -/
theorem Reader.run_induct {P : Reader → List Token → Prop} {r r' : Reader} {ts us : List Token}
    (step : ∀ {r r' : Reader} {t : Token} {ts : List Token}, Steps strength r t r' → P r ts →
      P r' (ts ++ [t]))
    (start : P r ts) (h : r.run strength us = some r') : P r' (ts ++ us) := by
  induction us generalizing r ts with
  | nil =>
    cases h
    rwa [List.append_nil]
  | cons u us ih =>
    obtain ⟨r₁, h₁, h⟩ := Option.bind_eq_some_iff.mp h
    have := ih (step (Reader.steps_of_step h₁) start) h
    rwa [List.append_assoc] at this

end Steps

section Sound

variable {strength : String → Nat}

/-- The tokens of all that waits, the innermost last. -/
def pendingTokens : List Pending → List Token
  | [] => []
  | p :: ps => pendingTokens ps ++ p.tokens

def outerTokens : List (List Pending) → List Token
  | [] => []
  | ps :: outer => outerTokens outer ++ pendingTokens ps ++ [.opening]

def Reader.tokens (r : Reader) : List Token :=
  outerTokens r.outer ++ pendingTokens r.pending ++ (r.current.map Tree.tokens).getD []

theorem Pending.tokens_close (p : Pending) (t : Tree) :
    (p.close t).tokens = p.tokens ++ t.tokens := by
  cases p with
  | negation => rfl
  | left l s => simp [Pending.close, Pending.tokens, Tree.tokens]

theorem tokens_closeAll (ps : List Pending) (t : Tree) :
    (closeAll ps t).tokens = pendingTokens ps ++ t.tokens := by
  induction ps generalizing t with
  | nil => rfl
  | cons p ps ih => rw [closeAll, ih, Pending.tokens_close, pendingTokens, List.append_assoc]

theorem tokens_reduce (strength : String → Nat) (s : String) (ps : List Pending) (t : Tree) :
    pendingTokens (reduce strength s ps t).1 ++ (reduce strength s ps t).2.tokens =
      pendingTokens ps ++ t.tokens := by
  induction ps generalizing t with
  | nil => rfl
  | cons p ps ih =>
    unfold reduce
    split
    · rw [ih, Pending.tokens_close, pendingTokens, List.append_assoc]
    · rfl

theorem Reader.Steps.tokens {r r' : Reader} {t : Token} (h : Steps strength r t r') :
    r'.tokens = r.tokens ++ [t] := by
  cases h with
  | operand => simp [Reader.tokens, Tree.tokens]
  | negation => simp [Reader.tokens, pendingTokens, Pending.tokens]
  | opening => simp [Reader.tokens, outerTokens, pendingTokens]
  | operator outer pending t s =>
    have hreduce := tokens_reduce strength s pending t
    simp [Reader.tokens, pendingTokens, Pending.tokens, ← hreduce]
  | closing outer before pending t =>
    simp [Reader.tokens, outerTokens, Tree.tokens, tokens_closeAll]

/-- What waits is bound by strength: the left operand of an operator is not weaker, and what waits
around it does not take its operand before that operator. -/
def Ordered (strength : String → Nat) : List Pending → Prop
  | [] => True
  | .negation :: ps => Ordered strength ps
  | .left l s :: ps => Ordered strength ps ∧ l.Respects strength ∧
    (∀ s' ∈ l.operator?, strength s ≤ strength s') ∧ ∀ p ∈ ps.head?, ¬ p.holds strength s

/-- A tree that what waits may take as its operand. -/
def Fits (strength : String → Nat) (ps : List Pending) (t : Tree) : Prop :=
  ∀ s ∈ t.operator?, ∀ p ∈ ps.head?, ¬ p.holds strength s

theorem fits_of_operator?_eq_none {t : Tree} (h : t.operator? = none) (ps : List Pending) :
    Fits strength ps t := by
  intro s hs
  rw [h] at hs
  cases hs

theorem Ordered.tail {p : Pending} {ps : List Pending} (h : Ordered strength (p :: ps)) :
    Ordered strength ps := by
  cases p with
  | negation => exact h
  | left l s => exact h.1

/-- Closing keeps the order, and the closed tree fits what waits around it. -/
theorem Ordered.close {p : Pending} {ps : List Pending} {t : Tree} (h : Ordered strength (p :: ps))
    (ht : t.Respects strength) (hfits : Fits strength (p :: ps) t) :
    (p.close t).Respects strength ∧ Fits strength ps (p.close t) := by
  cases p with
  | negation =>
    have hnone : t.operator? = none := by
      rw [Option.eq_none_iff_forall_not_mem]
      intro s hs
      exact hfits s hs .negation rfl rfl
    exact ⟨⟨ht, hnone⟩, fits_of_operator?_eq_none rfl ps⟩
  | left l s =>
    obtain ⟨-, hl, hleft, hhead⟩ := h
    refine ⟨⟨hl, ht, hleft, fun s' hs' => ?_⟩, fun _ hs' => ?_⟩
    · have := hfits s' hs' (.left l s) rfl
      simpa [Pending.holds] using this
    · cases hs'
      exact hhead

theorem Ordered.closeAll {ps : List Pending} {t : Tree} (h : Ordered strength ps)
    (ht : t.Respects strength) (hfits : Fits strength ps t) :
    (closeAll ps t).Respects strength := by
  induction ps generalizing t with
  | nil => exact ht
  | cons p ps ih =>
    have hclose := h.close ht hfits
    exact ih h.tail hclose.1 hclose.2

/-- After what is as strong has been closed, the operator that comes can wait in its turn. -/
theorem Ordered.reduce {s : String} {ps : List Pending} {t : Tree} (h : Ordered strength ps)
    (ht : t.Respects strength) (hfits : Fits strength ps t)
    (hs : ∀ s' ∈ t.operator?, strength s ≤ strength s') :
    Ordered strength (.left (reduce strength s ps t).2 s :: (reduce strength s ps t).1) := by
  induction ps generalizing t with
  | nil => exact ⟨trivial, ht, hs, fun _ hp => by cases hp⟩
  | cons p ps ih =>
    unfold Sql.reduce
    split
    · rename_i hholds
      have hclose := h.close ht hfits
      refine ih h.tail hclose.1 hclose.2 fun s' hs' => ?_
      cases p with
      | negation => cases hs'
      | left l s₁ =>
        cases hs'
        simpa [Pending.holds] using hholds
    · rename_i hholds
      refine ⟨h, ht, hs, fun q hq => ?_⟩
      cases hq
      exact hholds

structure Reader.Ordered (strength : String → Nat) (r : Reader) : Prop where
  outer : ∀ ps ∈ r.outer, Sql.Ordered strength ps
  pending : Sql.Ordered strength r.pending
  current : ∀ t ∈ r.current, t.Respects strength ∧ t.operator? = none

theorem Reader.ordered_start : Reader.start.Ordered strength :=
  ⟨fun _ h => (List.not_mem_nil h).elim, trivial, fun _ h => by cases h⟩

theorem Reader.Ordered.step {r r' : Reader} {t : Token} (h : r.Ordered strength)
    (hstep : Steps strength r t r') : r'.Ordered strength := by
  cases hstep with
  | operand outer pending e =>
    refine ⟨h.outer, h.pending, fun t ht => ?_⟩
    cases ht
    exact ⟨trivial, rfl⟩
  | negation => exact ⟨h.outer, h.pending, fun _ ht => by cases ht⟩
  | opening =>
    exact ⟨List.forall_mem_cons.mpr ⟨h.pending, h.outer⟩, trivial, fun _ ht => by cases ht⟩
  | operator outer pending t s =>
    obtain ⟨ht, hnone⟩ := h.current t rfl
    have hs : ∀ s' ∈ t.operator?, strength s ≤ strength s' := by
      intro s' hs'
      rw [hnone] at hs'
      cases hs'
    exact ⟨h.outer, h.pending.reduce ht (fits_of_operator?_eq_none hnone _) hs,
      fun _ ht => by cases ht⟩
  | closing outer before pending t =>
    obtain ⟨hbefore, houter⟩ := List.forall_mem_cons.mp h.outer
    obtain ⟨ht, hnone⟩ := h.current t rfl
    refine ⟨houter, hbefore, fun u hu => ?_⟩
    cases hu
    exact ⟨h.pending.closeAll ht (fits_of_operator?_eq_none hnone _), rfl⟩

/-- Whatever is read has the tokens that were read, and is bound by strength. -/
theorem respects_of_readTokens {ts : List Token} {t : Tree} (h : readTokens strength ts = some t) :
    t.tokens = ts ∧ t.Respects strength := by
  obtain ⟨r, hrun, hresult⟩ := Option.bind_eq_some_iff.mp h
  have hinv : r.tokens = [] ++ ts ∧ r.Ordered strength :=
    Reader.run_induct (P := fun r ts => r.tokens = ts ∧ r.Ordered strength)
      (fun hstep hP => ⟨by rw [hstep.tokens, hP.1], hP.2.step hstep⟩)
      ⟨rfl, Reader.ordered_start⟩ hrun
  unfold Reader.result at hresult
  split at hresult
  · rename_i pending t
    cases hresult
    obtain ⟨htokens, hordered⟩ := hinv
    obtain ⟨ht, hnone⟩ := hordered.current t rfl
    refine ⟨?_, hordered.pending.closeAll ht (fits_of_operator?_eq_none hnone _)⟩
    rw [tokens_closeAll]
    simpa [Reader.tokens, outerTokens] using htokens
  · cases hresult

end Sound

section Complete

variable {strength : String → Nat}

theorem closeAll_append (ps qs : List Pending) (t : Tree) :
    closeAll (ps ++ qs) t = closeAll qs (closeAll ps t) := by
  induction ps generalizing t with
  | nil => rfl
  | cons p ps ih => exact ih (p.close t)

namespace Tree

/-- What waits once the tokens of a tree have been read. -/
def spine : Tree → List Pending
  | .binary s l r => r.spine ++ [.left l s]
  | .not t => t.spine ++ [.negation]
  | _ => []

/-- The operand that ends a tree. -/
def last : Tree → Tree
  | .binary _ _ r => r.last
  | .not t => t.last
  | t => t

theorem closeAll_spine (t : Tree) : closeAll t.spine t.last = t := by
  induction t with
  | operand e => rfl
  | binary s l r _ ih =>
    rw [spine, last, closeAll_append, ih]
    rfl
  | not t ih =>
    rw [spine, last, closeAll_append, ih]
    rfl
  | group t => rfl

/-- All that waits in a tree is closed by an operator that is not stronger than the tree's own. -/
theorem Respects.holds {t : Tree} (h : t.Respects strength) {s : String}
    (hs : ∀ s' ∈ t.operator?, strength s ≤ strength s') : ∀ p ∈ t.spine, p.holds strength s := by
  induction t with
  | operand e =>
    intro p hp
    cases hp
  | group t =>
    intro p hp
    cases hp
  | not t ih =>
    obtain ⟨ht, hnone⟩ := h
    intro p hp
    rcases List.mem_append.mp hp with hp | hp
    · exact ih ht (by simp [hnone]) p hp
    · rw [List.mem_singleton] at hp
      rw [hp]
      rfl
  | binary s₁ l r _ ih =>
    obtain ⟨-, hr, -, hright⟩ := h
    have hs₁ : strength s ≤ strength s₁ := hs s₁ rfl
    intro p hp
    rcases List.mem_append.mp hp with hp | hp
    · refine ih hr (fun s' hs' => ?_) p hp
      have hs' := hright s' hs'
      omega
    · rw [List.mem_singleton] at hp
      rw [hp]
      exact decide_eq_true hs₁

end Tree

theorem reduce_append {s : String} {ps : List Pending} (h : ∀ p ∈ ps, p.holds strength s)
    (qs : List Pending) (t : Tree) :
    reduce strength s (ps ++ qs) t = reduce strength s qs (closeAll ps t) := by
  induction ps generalizing t with
  | nil => rfl
  | cons p ps ih =>
    obtain ⟨hp, hps⟩ := List.forall_mem_cons.mp h
    rw [List.cons_append, reduce, if_pos hp]
    exact ih hps (p.close t)

theorem reduce_of_not_holds {s : String} {ps : List Pending}
    (h : ∀ p ∈ ps.head?, ¬ p.holds strength s) (t : Tree) : reduce strength s ps t = (ps, t) := by
  cases ps with
  | nil => rfl
  | cons p ps => exact if_neg (h p rfl)

theorem Pending.not_holds_of_le {s s' : String} {p : Pending} (h : ¬ p.holds strength s)
    (hle : strength s ≤ strength s') : ¬ p.holds strength s' := by
  cases p with
  | negation => exact absurd rfl h
  | left l s₁ =>
    simp only [Pending.holds, decide_eq_true_eq] at h ⊢
    omega

theorem Fits.left {s : String} {l r : Tree} {ps : List Pending}
    (h : Fits strength ps (.binary s l r)) (hleft : ∀ s' ∈ l.operator?, strength s ≤ strength s') :
    Fits strength ps l := by
  intro s' hs' p hp
  exact Pending.not_holds_of_le (h s rfl p hp) (hleft s' hs')

theorem Fits.right {s : String} {r : Tree} (h : ∀ s' ∈ r.operator?, strength s < strength s')
    (l : Tree) (ps : List Pending) : Fits strength (.left l s :: ps) r := by
  intro s' hs' p hp
  cases hp
  simpa [Pending.holds] using h s' hs'

/-- A tree that is bound by strength is read in any place that it fits. -/
theorem Tree.Respects.run {t : Tree} (h : t.Respects strength) (outer : List (List Pending))
    (ps : List Pending) (hfits : Fits strength ps t) :
    Reader.run strength ⟨outer, ps, none⟩ t.tokens = some ⟨outer, t.spine ++ ps, some t.last⟩ := by
  induction t generalizing outer ps with
  | operand e => rfl
  | not t ih =>
    obtain ⟨ht, hnone⟩ := h
    have hrun := ih ht outer (.negation :: ps) (fits_of_operator?_eq_none hnone _)
    rw [Tree.spine, List.append_assoc]
    exact hrun
  | group t ih =>
    have hrun := ih h (ps :: outer) [] (fun _ _ _ hp => by cases hp)
    rw [Tree.tokens, List.cons_append, Reader.run, Reader.step, Option.bind_some, Reader.run_append,
      hrun, List.append_nil, Option.bind_some, Reader.run, Reader.step, Tree.closeAll_spine]
    rfl
  | binary s l r ihl ihr =>
    obtain ⟨hl, hr, hleft, hright⟩ := h
    have hreduce : reduce strength s (l.spine ++ ps) l.last = (ps, l) := by
      rw [reduce_append (hl.holds hleft), Tree.closeAll_spine]
      exact reduce_of_not_holds (hfits s rfl) l
    rw [Tree.tokens, Reader.run_append, ihl hl outer ps (hfits.left hleft), Option.bind_some,
      Reader.run, Reader.step, hreduce, Option.bind_some,
      ihr hr outer (.left l s :: ps) (.right hright l ps), Tree.spine, List.append_assoc]
    rfl

/-- A tree that is bound by strength is read back as itself. -/
theorem Tree.Respects.readTokens {t : Tree} (h : t.Respects strength) :
    readTokens strength t.tokens = some t := by
  have hrun := h.run [] [] fun _ _ _ hp => by cases hp
  rw [Sql.readTokens, Reader.start, hrun, List.append_nil]
  exact congrArg some t.closeAll_spine

/-- At most one tree of the same tokens is bound by strength. -/
theorem Tree.Respects.eq_of_tokens_eq {t u : Tree} (ht : t.Respects strength)
    (hu : u.Respects strength) (h : t.tokens = u.tokens) : t = u := by
  have hread : Sql.readTokens strength u.tokens = some t := by
    rw [← h]
    exact ht.readTokens
  exact Option.some.inj (hread.symm.trans hu.readTokens)

/-- The tokens of every tree are read to their end. -/
theorem Tree.exists_run (strength : String → Nat) (t : Tree) (outer : List (List Pending))
    (ps : List Pending) :
    ∃ qs u, Reader.run strength ⟨outer, ps, none⟩ t.tokens = some ⟨outer, qs, some u⟩ := by
  induction t generalizing outer ps with
  | operand e => exact ⟨ps, .operand e, rfl⟩
  | not t ih => exact ih outer (.negation :: ps)
  | group t ih =>
    obtain ⟨qs, u, hrun⟩ := ih (ps :: outer) []
    refine ⟨ps, .group (closeAll qs u), ?_⟩
    rw [Tree.tokens, List.cons_append, Reader.run, Reader.step, Option.bind_some, Reader.run_append,
      hrun]
    rfl
  | binary s l r ihl ihr =>
    obtain ⟨qs, u, hl⟩ := ihl outer ps
    obtain ⟨qs', u', hr⟩ := ihr outer
      (.left (reduce strength s qs u).2 s :: (reduce strength s qs u).1)
    refine ⟨qs', u', ?_⟩
    rw [Tree.tokens, Reader.run_append, hl]
    exact hr

/-- The tokens of a tree are read as a tree of the same tokens that is bound by strength, which is
the tree itself exactly if it was bound so. -/
theorem Tree.exists_readTokens (strength : String → Nat) (t : Tree) :
    ∃ u, Sql.readTokens strength t.tokens = some u ∧ u.tokens = t.tokens ∧ u.Respects strength ∧
      (u = t ↔ t.Respects strength) := by
  obtain ⟨qs, v, hrun⟩ := t.exists_run strength [] []
  have hread : Sql.readTokens strength t.tokens = some (closeAll qs v) := by
    rw [Sql.readTokens, Reader.start, hrun]
    rfl
  obtain ⟨htokens, hrespects⟩ := respects_of_readTokens hread
  refine ⟨closeAll qs v, hread, htokens, hrespects, ?_, fun ht => ?_⟩
  · intro h
    rw [← h]
    exact hrespects
  · exact hrespects.eq_of_tokens_eq ht htokens

end Complete

end Sql

end QueryNotation
