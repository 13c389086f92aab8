import Mathlib.Data.List.Basic
import QueryNotation.Lowering.Statement

/-! The entries of a payload as a whole. Lowering goes through them field by field and stops at the
first error. What comes of it depends only on the scalars and the nested fields of all entries:
`skip` reports every nested field, and `reject` gives the first one as an error. -/

namespace QueryNotation

/-- The fields of an entry that hold scalars. -/
def Entry.scalars (e : Entry) : List (String × Scalar) :=
  e.filterMap fun (k, v) => v.scalar?.map (k, ·)

/-- The names of the fields of an entry that hold arrays or objects. -/
def Entry.nested (e : Entry) : List String :=
  e.filterMap fun (k, v) => if v.scalar?.isNone then some k else none

namespace Payload

/-- The nested fields of all entries, row by row. -/
def nestedFields (p : Payload) : List String := (p.entries.getD []).flatMap Entry.nested

/-- The scalars of a payload as an insert; each row must have one. -/
def toInsert (into : Sql.Ref) (p : Payload) : Except LoweringError Sql.Insert :=
  p.assemble into (p.entries.map (·.map Entry.scalars))

end Payload

namespace Lowered

variable {α β : Type}

theorem bind_ok (dropped : List String) (a : α) (f : α → Lowered β) :
    (⟨dropped, .ok a⟩ : Lowered α) >>= f = ⟨dropped ++ (f a).dropped, (f a).outcome⟩ := rfl

instance : LawfulMonad Lowered := .mk' _
  (fun ⟨_, outcome⟩ => by cases outcome <;> rfl)
  (fun _ _ => rfl)
  (fun ⟨dropped, outcome⟩ f g => by
    cases outcome with
    | error e => rfl
    | ok a =>
      simp only [bind_ok]
      obtain ⟨dropped', outcome'⟩ := f a
      cases outcome' with
      | error e => rfl
      | ok b => simp only [bind_ok, List.append_assoc])
  (fun _ _ => rfl) (fun _ _ => rfl) (fun _ _ => rfl)
  (fun f ⟨dropped, outcome⟩ => by
    cases outcome with
    | error e => rfl
    | ok a => exact congrArg (Lowered.mk · _) (List.append_nil dropped))

/-- The lowering of what has these nested fields, with `outcome` if they may be dropped. -/
def meeting (policy : NestedPolicy) (fields : List String) (outcome : Except LoweringError α) :
    Lowered α :=
  match policy, fields with
  | .skip, fields => ⟨fields, outcome⟩
  | .reject, [] => of outcome
  | .reject, field :: _ => of (.error (.nestedEntry field))

variable {policy : NestedPolicy}

theorem of_eq_meeting (outcome : Except LoweringError α) :
    of outcome = meeting policy [] outcome := by
  cases policy <;> rfl

/-- The nested fields of two steps in a row. Under `reject` the second is not taken if the first
has one. -/
theorem meeting_bind {fields fields' : List String} {a : α} {f : α → Lowered β}
    {outcome : Except LoweringError β} (h : f a = meeting policy fields' outcome) :
    meeting policy fields (.ok a) >>= f = meeting policy (fields ++ fields') outcome := by
  cases policy with
  | skip =>
    rw [meeting, bind_ok, h]
    rfl
  | reject =>
    cases fields with
    | nil => exact h
    | cons field fields => rfl

theorem map_meeting (f : α → β) (fields : List String) (outcome : Except LoweringError α) :
    f <$> meeting policy fields outcome = meeting policy fields (outcome.map f) := by
  cases policy with
  | skip => rfl
  | reject => cases fields <;> rfl

theorem meeting_eq_ok {fields : List String} {outcome : Except LoweringError α} {a : α} :
    (meeting policy fields outcome).outcome = .ok a ↔
      outcome = .ok a ∧ (policy = .reject → fields = []) := by
  cases policy with
  | skip => simp [meeting]
  | reject => cases fields <;> simp [meeting, of]

theorem meeting_eq_error {fields : List String} {outcome : Except LoweringError α}
    {e : LoweringError} (h : (meeting policy fields outcome).outcome = .error e) :
    outcome = .error e ∨ ∃ field, e = .nestedEntry field := by
  unfold meeting at h
  split at h
  · exact .inl h
  · exact .inl h
  · cases h
    exact .inr ⟨_, rfl⟩

theorem mapM_meeting {f : α → Lowered β} {fields : α → List String} {g : α → β}
    (h : ∀ a, f a = meeting policy (fields a) (.ok (g a))) (l : List α) :
    l.mapM f = meeting policy (l.flatMap fields) (.ok (l.map g)) := by
  induction l with
  | nil => exact of_eq_meeting _
  | cons a l ih =>
    -- The fields of the head come first, so the first of all is the head's if it has any.
    rw [List.mapM_cons, h, ih, List.flatMap_cons]
    refine meeting_bind ?_
    rw [bind_pure_comp, map_meeting]
    rfl

theorem filterMapM_meeting {f : α → Lowered (Option β)} {fields : α → List String}
    {g : α → Option β} (h : ∀ a, f a = meeting policy (fields a) (.ok (g a))) (l : List α) :
    l.filterMapM f = meeting policy (l.flatMap fields) (.ok (l.filterMap g)) := by
  induction l with
  | nil => exact of_eq_meeting _
  | cons a l ih =>
    rw [List.filterMapM_cons, h, ih, List.flatMap_cons]
    refine meeting_bind ?_
    cases hg : g a with
    | none => rw [List.filterMap_cons_none hg]
    | some b =>
      rw [List.filterMap_cons_some hg]
      dsimp only
      rw [bind_pure_comp, map_meeting]
      rfl

end Lowered

section Loops

variable (policy : NestedPolicy)

/-- A field has a scalar and no nested field, or the other way round. -/
theorem lowerField_eq (field : String × Json) : lowerField policy field =
    .meeting policy (if field.2.scalar?.isNone then some field.1 else none).toList
      (.ok (field.2.scalar?.map (field.1, ·))) := by
  unfold lowerField
  cases field.2.scalar? <;> cases policy <;> rfl

theorem Entry.lower_eq (e : Entry) :
    e.lower policy = .meeting policy e.nested (.ok e.scalars) := by
  rw [Entry.lower, Lowered.filterMapM_meeting (lowerField_eq policy),
    ← List.filterMap_eq_flatMap_toList]
  rfl

/-- Lowering a payload by its fields is lowering its scalars once no nested field stops it. -/
theorem Payload.lower_eq (into : Sql.Ref) (p : Payload) :
    p.lower policy into = .meeting policy p.nestedFields (p.toInsert into) := by
  have hentries : p.entries.mapM (·.mapM (Entry.lower policy)) =
      .meeting policy p.nestedFields (.ok (p.entries.map (·.map Entry.scalars))) := by
    unfold nestedFields
    cases p.entries with
    | none => exact Lowered.of_eq_meeting _
    | some es =>
      change some <$> es.mapM (Entry.lower policy) = _
      rw [Lowered.mapM_meeting (Entry.lower_eq policy), Lowered.map_meeting]
      rfl
  calc p.lower policy into
    _ = .meeting policy p.nestedFields (.ok (p.entries.map (·.map Entry.scalars))) >>=
          fun entries => .of (p.assemble into entries) := by rw [Payload.lower, hentries]
    _ = .meeting policy (p.nestedFields ++ []) (p.toInsert into) :=
          Lowered.meeting_bind (Lowered.of_eq_meeting _)
    _ = .meeting policy p.nestedFields (p.toInsert into) := by rw [List.append_nil]

end Loops

end QueryNotation
