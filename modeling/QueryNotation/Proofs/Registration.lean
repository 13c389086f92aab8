import QueryNotation.Registry

/-! Registries over runs of calls. A call sets the policy or registers a dialect, and what it leaves
behind is the registry of the next call, whether it fails or not. Whatever the calls are, the names
stay in order, each of them is that of its dialect, no name is lost, and under a name stands the
dialect that was accepted there last. -/

namespace QueryNotation

section Insertion

variable {key n : String} {value : α} {entries : List (String × α)}

theorem lookup_insertSorted_self (key : String) (value : α) (entries : List (String × α)) :
    (insertSorted key value entries).lookup key = some value := by
  induction entries with
  | nil => simp [insertSorted]
  | cons entry rest ih =>
    unfold insertSorted
    split
    · simp
    · split
      · simp
      · rename_i hne
        rw [List.lookup_cons, beq_false_of_ne hne]
        exact ih

theorem lookup_insertSorted_of_ne (h : n ≠ key) (value : α) (entries : List (String × α)) :
    (insertSorted key value entries).lookup n = entries.lookup n := by
  have hkey : (n == key) = false := beq_false_of_ne h
  induction entries with
  | nil => simp [insertSorted, List.lookup_cons, hkey]
  | cons entry rest ih =>
    unfold insertSorted
    split
    · rw [List.lookup_cons, hkey]
    · split
      · rename_i heq
        rw [List.lookup_cons, hkey, List.lookup_cons, ← heq, hkey]
      · rw [List.lookup_cons, List.lookup_cons, ih]

theorem mem_insertSorted {entry : String × α} (h : entry ∈ insertSorted key value entries) :
    entry = (key, value) ∨ entry ∈ entries := by
  induction entries with
  | nil => simpa [insertSorted] using h
  | cons entry' rest ih =>
    unfold insertSorted at h
    split at h
    · simpa using h
    · split at h
      · rcases List.mem_cons.mp h with rfl | h
        · exact .inl rfl
        · exact .inr (List.mem_cons_of_mem _ h)
      · rcases List.mem_cons.mp h with rfl | h
        · exact .inr (List.mem_cons_self ..)
        · exact (ih h).imp_right (List.mem_cons_of_mem _)

/-- A value is put after those with lesser keys and before those with greater ones. -/
theorem pairwise_insertSorted (key : String) (value : α) (h : entries.Pairwise (·.1 < ·.1)) :
    (insertSorted key value entries).Pairwise (·.1 < ·.1) := by
  induction entries with
  | nil => simp [insertSorted]
  | cons entry rest ih =>
    have ⟨hfirst, hrest⟩ := List.pairwise_cons.mp h
    unfold insertSorted
    split
    · rename_i hlt
      refine List.pairwise_cons.mpr ⟨?_, h⟩
      intro x hx
      rcases List.mem_cons.mp hx with rfl | hx
      · exact hlt
      · exact String.lt_trans hlt (hfirst x hx)
    · rename_i hnot
      split
      · rename_i heq
        refine List.pairwise_cons.mpr ⟨?_, hrest⟩
        intro x hx
        rw [heq]
        exact hfirst x hx
      · rename_i hne
        refine List.pairwise_cons.mpr ⟨?_, ih hrest⟩
        intro x hx
        rcases mem_insertSorted hx with rfl | hx
        · exact String.not_le.mp fun hle =>
            hne (String.le_antisymm hle (String.not_lt.mp hnot))
        · exact hfirst x hx

/-- With increasing keys, no value is hidden behind another one of its key. -/
theorem lookup_of_mem (h : entries.Pairwise (·.1 < ·.1)) {entry : String × α}
    (hmem : entry ∈ entries) : entries.lookup entry.1 = some entry.2 := by
  induction entries with
  | nil => cases hmem
  | cons first rest ih =>
    have ⟨hfirst, hrest⟩ := List.pairwise_cons.mp h
    rcases List.mem_cons.mp hmem with rfl | hmem
    · exact List.lookup_cons_self
    · have hne : entry.1 ≠ first.1 := fun heq =>
        String.lt_irrefl _ (heq ▸ hfirst entry hmem)
      rw [List.lookup_cons, beq_false_of_ne hne]
      exact ih hrest hmem

end Insertion

namespace Registry

/-- A call that may change a registry. -/
inductive Call where
  | setDuplicates (policy : DuplicatePolicy)
  | register (d : Dialect)

def Call.policy? : Call → Option DuplicatePolicy
  | .setDuplicates policy => some policy
  | .register _ => none

/-- The registry that a call leaves behind. -/
def after (r : Registry) : Call → Registry
  | .setDuplicates policy => r.setDuplicates policy
  | .register d => (r.register d).1

/-- The dialect that a call registers, if it does not fail. -/
def accepted? (r : Registry) : Call → Option Dialect
  | .setDuplicates _ => none
  | .register d => if (r.register d).2.result.isOk then some d else none

/-- The registry after calls in a row. -/
def run (r : Registry) : List Call → Registry
  | [] => r
  | call :: calls => (r.after call).run calls

/-- The dialects that calls in a row register, in order. -/
def accepted (r : Registry) : List Call → List Dialect
  | [] => []
  | call :: calls => (r.accepted? call).toList ++ (r.after call).accepted calls

/-- The names of a registry increase, and each is the name of the dialect under it. -/
structure Sound (r : Registry) : Prop where
  increasing : r.entries.Pairwise (·.1 < ·.1)
  own_name : ∀ entry ∈ r.entries, entry.2.name = entry.1

section Steps

variable {r : Registry} {n : String}

theorem isSome_get?_iff : (r.get? n).isSome ↔ n ∈ r.names := by
  rw [get?, List.lookup_isSome_iff, names, List.mem_map]
  simp only [beq_iff_eq, eq_comm (a := n)]

theorem get?_insert_self (r : Registry) (d : Dialect) : (r.insert n d).get? n = some d :=
  lookup_insertSorted_self n d r.entries

theorem get?_insert_of_ne {key : String} (h : n ≠ key) (r : Registry) (d : Dialect) :
    (r.insert key d).get? n = r.get? n :=
  lookup_insertSorted_of_ne h d r.entries

/-- All that a registration can do: refuse the dialect, or put it under its name. -/
theorem register_cases (r : Registry) (d : Dialect) :
    (d.name ∈ r.names ∧ r.duplicates = .reject ∧
      r.register d = (r, ⟨[], .error (.duplicateDialect d.name)⟩)) ∨
    (¬ (d.name ∈ r.names ∧ r.duplicates = .reject) ∧
      ∃ events, r.register d = (r.insert d.name d, ⟨events, .ok ()⟩)) := by
  rw [← isSome_get?_iff]
  unfold register
  by_cases hname : (r.get? d.name).isSome
  · by_cases hreject : r.duplicates = .reject
    · exact .inl ⟨hname, hreject, by simp [hname, hreject]⟩
    · exact .inr ⟨by simp [hreject], [.replaced d.name], by simp [hname, hreject]⟩
  · exact .inr ⟨by simp [hname], [], by simp [hname]⟩

/-- All that a call can do: set the policy, put a dialect under its name, or nothing. -/
theorem after_cases (r : Registry) (call : Call) :
    (∃ policy, call = .setDuplicates policy ∧ r.after call = r.setDuplicates policy ∧
      r.accepted? call = none) ∨
    (∃ d, call = .register d ∧ r.after call = r.insert d.name d ∧ r.accepted? call = some d) ∨
    ∃ d, call = .register d ∧ r.after call = r ∧ r.accepted? call = none := by
  cases call with
  | setDuplicates policy => exact .inl ⟨policy, rfl, rfl, rfl⟩
  | register d =>
    rcases r.register_cases d with ⟨_, _, h⟩ | ⟨_, events, h⟩
    · exact .inr (.inr ⟨d, rfl, by rw [after, h], by rw [accepted?, h]; rfl⟩)
    · exact .inr (.inl ⟨d, rfl, by rw [after, h], by rw [accepted?, h]; rfl⟩)

/-- Under a name stands what the call puts there, or what stood there before. -/
theorem get?_after (r : Registry) (call : Call) (n : String) :
    (r.after call).get? n = ((r.accepted? call).toList.find? (·.name = n)).or (r.get? n) := by
  rcases r.after_cases call with ⟨policy, -, h, ha⟩ | ⟨d, -, h, ha⟩ | ⟨d, -, h, ha⟩
  · rw [h, ha]
    rfl
  · rw [h, ha, Option.toList_some, List.find?_singleton]
    by_cases hn : d.name = n
    · subst hn
      rw [if_pos (by simp)]
      exact r.get?_insert_self d
    · rw [if_neg (by simpa using hn)]
      exact get?_insert_of_ne (Ne.symm hn) r d
  · rw [h, ha]
    rfl

theorem names_after_of_mem {call : Call} (h : n ∈ r.names) : n ∈ (r.after call).names := by
  rw [← isSome_get?_iff] at h ⊢
  rw [get?_after, Option.isSome_or, h, Bool.or_true]

theorem duplicates_after (r : Registry) (call : Call) :
    (r.after call).duplicates = call.policy?.getD r.duplicates := by
  rcases r.after_cases call with ⟨policy, rfl, h, -⟩ | ⟨d, rfl, h, -⟩ | ⟨d, rfl, h, -⟩
  · rw [h]
    rfl
  · rw [h]
    rfl
  · rw [h]
    rfl

end Steps

namespace Sound

variable {r : Registry}

theorem empty : Sound .empty := ⟨.nil, by simp [Registry.empty]⟩

/-- A dialect that is put under its own name keeps a registry sound. -/
theorem insert (h : r.Sound) (d : Dialect) : (r.insert d.name d).Sound where
  increasing := pairwise_insertSorted d.name d h.increasing
  own_name := by
    intro entry hentry
    rcases mem_insertSorted hentry with rfl | hmem
    · rfl
    · exact h.own_name entry hmem

theorem after {call : Call} (h : r.Sound) : (r.after call).Sound := by
  rcases r.after_cases call with ⟨policy, -, hr, -⟩ | ⟨d, -, hr, -⟩ | ⟨d, -, hr, -⟩
  · rw [hr]
    exact ⟨h.increasing, h.own_name⟩
  · rw [hr]
    exact h.insert d
  · rwa [hr]

theorem run (h : r.Sound) (calls : List Call) : (r.run calls).Sound := by
  induction calls generalizing r with
  | nil => exact h
  | cons call calls ih => exact ih h.after

theorem builtins : Sound .builtins := by
  have hfold (ds : List Dialect) {r : Registry} (h : r.Sound) :
      (ds.foldl (fun r d => r.insert d.name d) r).Sound := by
    induction ds generalizing r with
    | nil => exact h
    | cons d ds ih => exact ih (h.insert d)
  exact hfold Dialect.builtins empty

theorem name_of_get? (h : r.Sound) {n : String} {d : Dialect} (hd : r.get? n = some d) :
    d.name = n := by
  obtain ⟨before, rest, hentries, -⟩ := List.lookup_eq_some_iff.mp hd
  exact h.own_name (n, d) (by simp [hentries])

theorem dialects_eq (h : r.Sound) : r.dialects.map some = r.names.map r.get? := by
  rw [dialects, names, List.map_map, List.map_map]
  exact List.map_congr_left fun entry hmem => (lookup_of_mem h.increasing hmem).symm

end Sound

section Runs

variable {r : Registry} {calls : List Call} {n : String}

theorem names_run_of_mem (h : n ∈ r.names) : n ∈ (r.run calls).names := by
  induction calls generalizing r with
  | nil => exact h
  | cons call calls ih => exact ih (names_after_of_mem h)

/-- The policy is the one that was set last. -/
theorem duplicates_run (r : Registry) (calls : List Call) :
    (r.run calls).duplicates = (calls.filterMap Call.policy?).getLast?.getD r.duplicates := by
  induction calls generalizing r with
  | nil => rfl
  | cons call calls ih =>
    rw [run, ih, duplicates_after, List.filterMap_cons]
    cases call.policy? with
    | none => rfl
    | some policy => cases h : calls.filterMap Call.policy? <;> simp [List.getLast?_cons]

/-- Under a name stands the last dialect that was accepted there. -/
theorem get?_run (r : Registry) (calls : List Call) (n : String) :
    (r.run calls).get? n = ((r.accepted calls).reverse.find? (·.name = n)).or (r.get? n) := by
  induction calls generalizing r with
  | nil => rfl
  | cons call calls ih =>
    rw [run, ih, get?_after, accepted, List.reverse_append, List.find?_append, Option.or_assoc]
    cases r.accepted? call <;> rfl

end Runs

/-- What can be said of a registry `r` to which `calls` lead from `start`. -/
structure Reached (start : Registry) (calls : List Call) (r : Registry) : Prop where
  /-- The names are in order, and none stands there twice. -/
  increasing : r.names.Pairwise (· < ·)
  own_name : ∀ n d, r.get? n = some d → d.name = n
  /-- The dialects are listed in the order of their names. -/
  listed : r.dialects.map some = r.names.map r.get?
  policy : r.duplicates = (calls.filterMap Call.policy?).getLast?.getD start.duplicates
  refused_iff : ∀ d, (∃ e, (r.register d).2.result = .error e) ↔
    d.name ∈ r.names ∧ r.duplicates = .reject
  /-- A call that fails leaves the registry behind as it was. -/
  refused : ∀ d e, (r.register d).2.result = .error e →
    e = .duplicateDialect d.name ∧ (r.register d).1 = r
  /-- A call that succeeds changes nothing but what stands under the name of its dialect. -/
  registered : ∀ d, (r.register d).2.result = .ok () →
    (r.register d).1.get? d.name = some d ∧
      (∀ n, n ≠ d.name → (r.register d).1.get? n = r.get? n) ∧
      (r.register d).1.duplicates = r.duplicates
  kept : ∀ later, ∀ n ∈ r.names, n ∈ (r.run later).names
  /-- Under a name stands the last dialect that was accepted there, or that of the start. -/
  last : ∀ n, r.get? n = ((start.accepted calls).reverse.find? (·.name = n)).or (start.get? n)

theorem reached_run {start : Registry} (hstart : start = .empty ∨ start = .builtins)
    (calls : List Call) : Reached start calls (start.run calls) := by
  have hsound : start.Sound := by
    rcases hstart with rfl | rfl
    · exact .empty
    · exact .builtins
  have hrun := hsound.run calls
  generalize hr : start.run calls = r at hrun
  refine {
    increasing := List.pairwise_map.mpr hrun.increasing
    own_name := fun n d => hrun.name_of_get?
    listed := hrun.dialects_eq
    policy := by rw [← hr, duplicates_run]
    refused_iff := fun d => ?_
    refused := fun d e he => ?_
    registered := fun d hok => ?_
    kept := fun later n => names_run_of_mem
    last := fun n => by rw [← hr, get?_run] }
  · rcases r.register_cases d with ⟨hmem, hreject, h⟩ | ⟨hnot, events, h⟩
    · exact iff_of_true ⟨_, by rw [h]⟩ ⟨hmem, hreject⟩
    · exact iff_of_false (by simp [h]) hnot
  · rcases r.register_cases d with ⟨-, -, h⟩ | ⟨-, events, h⟩
    · rw [h] at he ⊢
      cases he
      exact ⟨rfl, rfl⟩
    · rw [h] at he
      cases he
  · rcases r.register_cases d with ⟨-, -, h⟩ | ⟨-, events, h⟩
    · rw [h] at hok
      cases hok
    · rw [h]
      exact ⟨r.get?_insert_self d, fun n hn => get?_insert_of_ne hn r d, rfl⟩

/-- A name that is taken is refused first, another one is replaced later, and a new one is accepted
under either policy. -/
def phasedCalls : List Call := [
  .setDuplicates .reject, .register { Dialect.mysql with version := "2.0.0" },
  .setDuplicates .replace, .register { Dialect.sqlite with version := "2.0.0" },
  .setDuplicates .reject, .register { Dialect.ansi with name := "duck" }]

theorem phasedCalls_reached :
    (builtins.run phasedCalls).names = ["ansi-sql", "duck", "mysql", "postgres", "sqlite"] ∧
      (builtins.run phasedCalls).dialects.map Dialect.version =
        ["1.0.0", "1.0.0", "1.0.0", "1.0.0", "2.0.0"] ∧
      Reached builtins phasedCalls (builtins.run phasedCalls) :=
  ⟨by decide, by decide, reached_run (.inr rfl) phasedCalls⟩

end Registry

end QueryNotation
