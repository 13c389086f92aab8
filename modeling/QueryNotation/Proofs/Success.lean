import QueryNotation.Lowering.Expr

/-! What the success or the failure of a computation says of its steps. `Accepts` says when a
computation succeeds, and `Yields` what its result is like. Both are composed along the steps. -/

namespace QueryNotation

namespace Outcome

theorem bind_eq_ok {x : Except ε α} {k : α → Except ε β} {b : β} :
    (x >>= k) = .ok b ↔ ∃ a, x = .ok a ∧ k a = .ok b := by
  cases x <;> simp [bind, Except.bind]

theorem pure_eq_ok {a b : α} : (pure a : Except ε α) = .ok b ↔ a = b := by
  simp [pure, Except.pure]

theorem throw_ne_ok {e : ε} {b : α} : (throw e : Except ε α) ≠ .ok b := by
  simp [throw, throwThe, MonadExceptOf.throw]

theorem bind_eq_error {x : Except ε α} {k : α → Except ε β} {e : ε} :
    (x >>= k) = .error e ↔ x = .error e ∨ ∃ a, x = .ok a ∧ k a = .error e := by
  cases x <;> simp [bind, Except.bind]

theorem throw_eq_error {e e' : ε} : (throw e : Except ε α) = .error e' ↔ e = e' := by
  simp [throw, throwThe, MonadExceptOf.throw]

theorem map_eq_error {x : Except ε α} {f : α → β} {e : ε} :
    x.map f = .error e ↔ x = .error e := by
  cases x <;> simp [Except.map]

theorem map_eq_ok {x : Except ε α} {f : α → β} {b : β} :
    x.map f = .ok b ↔ ∃ a, x = .ok a ∧ f a = b := by
  cases x <;> simp [Except.map]

theorem exists_map_eq_ok {x : Except ε α} {f : α → β} :
    (∃ b, x.map f = .ok b) ↔ ∃ a, x = .ok a := by
  cases x <;> simp [Except.map]

end Outcome

namespace Lowering

theorem bind_eq_ok {m : Lowering α} {k : α → Lowering β} {n n' : Nat} {b : β} :
    (m >>= k) n = .ok (b, n') ↔ ∃ a n₁, m n = .ok (a, n₁) ∧ k a n₁ = .ok (b, n') := by
  change (m n >>= fun p => k p.1 p.2) = .ok (b, n') ↔ _
  rw [Outcome.bind_eq_ok]
  exact Prod.exists

theorem bind_eq_error {m : Lowering α} {k : α → Lowering β} {n : Nat} {e : LoweringError} :
    (m >>= k) n = .error e ↔ m n = .error e ∨ ∃ a n', m n = .ok (a, n') ∧ k a n' = .error e := by
  change (m n >>= fun p => k p.1 p.2) = .error e ↔ _
  rw [Outcome.bind_eq_error, Prod.exists]

theorem pure_eq_ok {a b : α} {n n' : Nat} :
    (pure a : Lowering α) n = .ok (b, n') ↔ a = b ∧ n = n' := by
  change Except.ok (a, n) = .ok (b, n') ↔ _
  rw [Except.ok.injEq, Prod.mk.injEq]

theorem map_eq_ok {m : Lowering α} {f : α → β} {n n' : Nat} {b : β} :
    (f <$> m) n = .ok (b, n') ↔ ∃ a, m n = .ok (a, n') ∧ f a = b := by
  rw [← bind_pure_comp, bind_eq_ok]
  simp [pure_eq_ok]

theorem throw_ne_ok {e : LoweringError} {n : Nat} {r : α × Nat} :
    (throw e : Lowering α) n ≠ .ok r := by
  simp [throw, throwThe, MonadExceptOf.throw, StateT.lift, bind, Except.bind]

theorem lift_eq_ok {x : Except LoweringError α} {n n' : Nat} {a : α} :
    (liftM x : Lowering α) n = .ok (a, n') ↔ x = .ok a ∧ n = n' := by
  cases x <;>
    simp [liftM, monadLift, MonadLift.monadLift, StateT.lift, bind, Except.bind, pure, Except.pure]

/-- A computation succeeds exactly if `P` holds, whatever the last parameter number is. -/
def Accepts (m : Lowering α) (P : Prop) : Prop := ∀ n, (∃ r, m n = .ok r) ↔ P

namespace Accepts

variable {m : Lowering α} {k : α → Lowering β} {P Q : Prop}

theorem congr (h : m.Accepts P) (hPQ : P ↔ Q) : m.Accepts Q := fun n => (h n).trans hPQ

theorem pure (a : α) : Accepts (pure a) True := fun n => iff_of_true ⟨(a, n), rfl⟩ trivial

theorem throw (e : LoweringError) : Accepts (throw e : Lowering α) False :=
  fun _ => iff_of_false (fun ⟨_, h⟩ => throw_ne_ok h) id

theorem bind (hm : m.Accepts P) (hk : ∀ a, (k a).Accepts Q) : (m >>= k).Accepts (P ∧ Q) := by
  intro n
  simp only [Prod.exists, bind_eq_ok]
  constructor
  · rintro ⟨b, n', a, n₁, ha, hb⟩
    exact ⟨(hm n).mp ⟨_, ha⟩, (hk a n₁).mp ⟨_, hb⟩⟩
  · rintro ⟨hP, hQ⟩
    obtain ⟨⟨a, n₁⟩, ha⟩ := (hm n).mpr hP
    obtain ⟨⟨b, n'⟩, hb⟩ := (hk a n₁).mpr hQ
    exact ⟨b, n', a, n₁, ha, hb⟩

/-- What is made of a result at the end cannot fail. -/
theorem bind_pure (hm : m.Accepts P) (f : α → β) : Accepts (m >>= fun a => Pure.pure (f a)) P :=
  (hm.bind fun a => pure (f a)).congr (and_iff_left trivial)

theorem map (hm : m.Accepts P) (f : α → β) : Accepts (f <$> m) P := by
  rw [← bind_pure_comp]
  exact hm.bind_pure f

theorem lift {x : Except LoweringError α} (h : (∃ a, x = .ok a) ↔ P) :
    Accepts (liftM x : Lowering α) P := by
  intro n
  rw [← h]
  simp only [Prod.exists, lift_eq_ok]
  exact ⟨fun ⟨a, _, ha, _⟩ => ⟨a, ha⟩, fun ⟨a, ha⟩ => ⟨a, n, ha, rfl⟩⟩

end Accepts

/-- Whatever a computation gives has the property `Q`. -/
def Yields (m : Lowering α) (Q : α → Prop) : Prop := ∀ n a n', m n = .ok (a, n') → Q a

namespace Yields

variable {m : Lowering α} {k : α → Lowering β} {Q : α → Prop} {R : β → Prop}

theorem any (m : Lowering α) : m.Yields fun _ => True := fun _ _ _ _ => trivial

theorem pure {a : α} (h : Q a) : Yields (pure a) Q := by
  intro n a' n' heq
  obtain ⟨rfl, -⟩ := pure_eq_ok.mp heq
  exact h

theorem throw (e : LoweringError) : Yields (throw e) Q := fun _ _ _ h => absurd h throw_ne_ok

theorem bind (hm : m.Yields Q) (hk : ∀ a, Q a → (k a).Yields R) : (m >>= k).Yields R := by
  intro n b n' h
  obtain ⟨a, n₁, ha, hb⟩ := bind_eq_ok.mp h
  exact hk a (hm n a n₁ ha) n₁ b n' hb

theorem imp {R : α → Prop} (hm : m.Yields Q) (h : ∀ a, Q a → R a) : m.Yields R :=
  fun n a n' heq => h a (hm n a n' heq)

theorem and {R : α → Prop} (hQ : m.Yields Q) (hR : m.Yields R) : m.Yields fun a => Q a ∧ R a :=
  fun n a n' heq => ⟨hQ n a n' heq, hR n a n' heq⟩

theorem lift {x : Except LoweringError α} (h : ∀ a, x = .ok a → Q a) :
    Yields (liftM x : Lowering α) Q := by
  intro n a n' heq
  exact h a (lift_eq_ok.mp heq).1

end Yields

end Lowering

end QueryNotation
