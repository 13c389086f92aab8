import QueryNotation.Proofs.Members

/-! Edits of a JSON value that its readers should not notice: the keys of an object are put in
another order, or a key that the notation does not know is added. Where an edit is allowed depends
on the role of the value, since the keys of an entry are columns, in the order of the columns.

`Json.Close` says what an edit of a value, or of one of its parts, leaves of the top layer, and
`Json.Edit.of_close` turns a relation that follows from that into one that holds of all edits. -/

namespace QueryNotation

/-- What a JSON value in a query is read as. -/
inductive Role where
  | query
  | body (keyword : Keyword)
  -- An expression, a source, a column, an item of an order, a limit, a reference, a cell or a
  -- nested select, or a name or value that is a member of one of them.
  | part
  | parts
  | rows
  -- A word of a fixed vocabulary: a text, or an object with the word as its only key. The object is
  -- no record, and a second key would make it no word.
  | word
  | entries
  -- An entry, or the assignments of an update.
  | fields
deriving DecidableEq

/-- The keys that some record below the top of a query knows. -/
def knownKeys : List String :=
  Select.keys ++ ["SELECT", "as", "ref", "cast", "param", "val", "xpr", "list", "func", "args",
    "join", "on", "rows", "offset", "*", "sort", "nulls", "into", "upsert", "update", "delete",
    "entries", "values", "set"]

namespace Role

/-- The members of a part that are no parts themselves. -/
def partMembers : List (String × Role) :=
  [("xpr", .parts), ("list", .parts), ("args", .parts), ("columns", .parts), ("groupBy", .parts),
    ("orderBy", .parts), ("join", .word), ("sort", .word), ("nulls", .word)]

/-- The members that a statement has in roles of their own. -/
def bodyMembers : Keyword → List (String × Role)
  | .insert | .upsert => [("entries", .entries), ("values", .rows), ("rows", .rows)]
  | .update => [("set", .fields)]
  | .select | .delete => []

/-- The role of the value under a key. -/
def member : Role → String → Role
  | .query, key => ((Keyword.ofText? key).map .body).getD .part
  | .body keyword, key => ((bodyMembers keyword ++ partMembers).lookup key).getD .part
  | .fields, _ => .part
  | _, key => (partMembers.lookup key).getD .part

/-- The role of an item of an array with `length` items. A part that is an array holds its members
in the order of the record that has as many. -/
def item (role : Role) (length index : Nat) : Role :=
  match role, length with
  | .part, 1 => .parts
  | .part, 4 => if index = 0 then .word else if index = 1 then .parts else .part
  | .part, 7 => if index = 1 ∨ index = 3 ∨ index = 5 then .parts else .part
  | .part, 8 => if index = 1 ∨ index = 3 ∨ index = 5 then .parts else .part
  | .rows, _ => .parts
  | .entries, _ => .fields
  | _, _ => .part

/-- Whether an object in this role ignores the keys that it does not know. -/
def isOpen : Role → Bool
  | .query | .word | .fields => false
  | _ => true

end Role

namespace Json

/-- An edit of a value in a role. -/
inductive Edit : Role → Json → Json → Prop where
  | permute {role : Role} {members members' : List (String × Json)} (hrole : role ≠ .fields)
      (hkeys : (members.map Prod.fst).Nodup) (hperm : members.Perm members') :
      Edit role (.object members) (.object members')
  | extend {role : Role} {members : List (String × Json)} {key : String} (v : Json)
      (hrole : role.isOpen) (hknown : key ∉ knownKeys) (hnew : key ∉ members.map Prod.fst) :
      Edit role (.object members) (.object (members ++ [(key, v)]))
  | member {role : Role} {v v' : Json} (before : List (String × Json)) (key : String)
      (after : List (String × Json)) (hvalue : Edit (role.member key) v v') :
      Edit role (.object (before ++ (key, v) :: after)) (.object (before ++ (key, v') :: after))
  | item {role : Role} {v v' : Json} (before after : List Json)
      (hitem : Edit (role.item (before ++ v :: after).length before.length) v v') :
      Edit role (.array (before ++ v :: after)) (.array (before ++ v' :: after))

/-- Any number of edits of a query, one after the other. -/
inductive Edits : Json → Json → Prop where
  | refl (v : Json) : Edits v v
  | step {v v' v'' : Json} (hfirst : Edits v v') (hlast : Edit .query v' v'') : Edits v v''

/-- The keys of an object, each once. -/
def keys : Json → List String
  | .object members => (lastWins members).map Prod.fst
  | _ => []

/-- Two arrays with related items, or two objects with related values, where the second object may
have further keys. The roles are those of the parts of a value in the role `role`. -/
inductive Close (S : Role → Json → Json → Prop) (role : Role) : Json → Json → Prop where
  | array {items items' : List Json} (hlength : items'.length = items.length)
      (hitem : ∀ (i : Nat) (v v' : Json), items[i]? = some v → items'[i]? = some v' →
        S (role.item items.length i) v v') :
      Close S role (.array items) (.array items')
  | object {members members' : List (String × Json)} {added : List String}
      (hkeys : (Json.object members').keys.Perm ((Json.object members).keys ++ added))
      (hadded : ∀ key ∈ added, role.isOpen ∧ key ∉ knownKeys)
      (horder : role = .fields → (Json.object members').keys = (Json.object members).keys)
      (hmember : ∀ (key : String) (v : Json), (Json.object members).get? key = some v →
        ∃ v', (Json.object members').get? key = some v' ∧ S (role.member key) v v') :
      Close S role (.object members) (.object members')

end Json

section Keys

theorem lookup_eq_some_iff_mem {members : List (String × α)} (h : (members.map Prod.fst).Nodup)
    {key : String} {v : α} : members.lookup key = some v ↔ (key, v) ∈ members := by
  induction members with
  | nil => simp
  | cons m ms ih =>
    obtain ⟨k, w⟩ := m
    rw [List.map_cons, List.nodup_cons] at h
    rw [lookup_cons_ite, List.mem_cons, Prod.mk.injEq]
    by_cases hk : key = k
    · subst hk
      have hrest : (key, v) ∉ ms := fun hmem => h.1 (List.mem_map.mpr ⟨_, hmem, rfl⟩)
      simp [hrest, eq_comm]
    · simp [hk, ih h.2]

/-- The order of distinct keys does not matter for what is found under them. -/
theorem lookup_of_perm {members members' : List (String × α)} (h : (members.map Prod.fst).Nodup)
    (hperm : members.Perm members') (key : String) : members'.lookup key = members.lookup key := by
  have h' : (members'.map Prod.fst).Nodup := (hperm.map Prod.fst).nodup h
  apply Option.ext
  intro v
  rw [lookup_eq_some_iff_mem h', lookup_eq_some_iff_mem h, hperm.mem_iff]

/-- Lists with the same distinct keys agree if the values under each key do. -/
theorem map_eq_of_lookup (g : α → β) {members members' : List (String × α)}
    (h : (members.map Prod.fst).Nodup) (hkeys : members'.map Prod.fst = members.map Prod.fst)
    (hlookup : ∀ key, (members'.lookup key).map g = (members.lookup key).map g) :
    (members'.map fun m => (m.1, g m.2)) = members.map fun m => (m.1, g m.2) := by
  -- Either list is what its keys find in it.
  have hfound : ∀ {l : List (String × α)}, (l.map Prod.fst).Nodup →
      (l.map fun m => (m.1, g m.2)).map some =
        (l.map Prod.fst).map fun key => ((l.lookup key).map g).map (key, ·) := by
    intro l hl
    rw [List.map_map, List.map_map]
    apply List.map_congr_left
    intro m hm
    rw [Function.comp_apply, Function.comp_apply, (lookup_eq_some_iff_mem hl).mpr hm]
    rfl
  have hsome : (members'.map fun m => (m.1, g m.2)).map some =
      (members.map fun m => (m.1, g m.2)).map some := by
    rw [hfound (hkeys ▸ h), hfound h, hkeys]
    simp only [hlookup]
  exact List.map_inj_right (fun _ _ heq => Option.some.inj heq) |>.mp hsome

theorem lookup_filter (p : String → Bool) (key : String) (members : List (String × α)) :
    (members.filter fun m => p m.1).lookup key = if p key then members.lookup key else none := by
  induction members with
  | nil => simp
  | cons m ms ih =>
    obtain ⟨k, v⟩ := m
    by_cases hk : key = k
    · subst hk
      by_cases hp : p key
      · simp [hp]
      · simp [hp, ih]
    · by_cases hp : p k
      · simp [hp, lookup_cons_ite, hk, ih]
      · simp [hp, lookup_cons_ite, hk, ih]

namespace Json

theorem mem_keys_iff {key : String} {members : List (String × Json)} :
    key ∈ (Json.object members).keys ↔ ((Json.object members).get? key).isSome := by
  rw [keys, get?, ← lookup_lastWins, lookup_isSome_iff_mem]

theorem keys_of_nodup {members : List (String × Json)} (h : (members.map Prod.fst).Nodup) :
    (Json.object members).keys = members.map Prod.fst := by
  rw [keys, lastWins_of_nodup h]

/-- The keys of an object do not depend on its values. -/
theorem keys_congr {members members' : List (String × Json)}
    (h : members'.map Prod.fst = members.map Prod.fst) :
    (Json.object members').keys = (Json.object members).keys := by
  have hkeys : ∀ l : List (String × Json),
      (Json.object l).keys =
        (lastWins ((l.map Prod.fst).map fun key => (key, ()))).map Prod.fst := by
    intro l
    have hunit := lastWins_map (fun _ _ => ()) l
    rw [List.map_map, keys]
    change _ = (lastWins (l.map fun m => (m.1, ()))).map Prod.fst
    rw [hunit, List.map_map]
    rfl
  rw [hkeys, hkeys, h]

theorem keys_filter (p : String → Bool) (members : List (String × Json)) :
    (Json.object (members.filter fun m => p m.1)).keys = (Json.object members).keys.filter p := by
  rw [keys, keys, lastWins_filter, List.filter_map]
  rfl

theorem get?_filter (p : String → Bool) (key : String) (members : List (String × Json)) :
    (Json.object (members.filter fun m => p m.1)).get? key =
      if p key then (Json.object members).get? key else none := by
  rw [get?, get?, ← List.filter_reverse, lookup_filter]

theorem get?_append_singleton (key k : String) (v : Json) (members : List (String × Json)) :
    (Json.object (members ++ [(k, v)])).get? key =
      if key = k then some v else (Json.object members).get? key := by
  rw [get?, get?, List.reverse_append, List.reverse_singleton, List.singleton_append,
    lookup_cons_ite]

/-- An object with one key is settled to a single member. -/
theorem lastWins_of_keys {members : List (String × Json)} {key : String}
    (h : (Json.object members).keys = [key]) :
    ∃ v, (Json.object members).get? key = some v ∧ lastWins members = [(key, v)] := by
  rw [keys, List.map_eq_singleton_iff] at h
  obtain ⟨⟨k, v⟩, hsingle, rfl⟩ := h
  refine ⟨v, ?_, hsingle⟩
  rw [get?, ← lookup_lastWins, hsingle, lookup_cons_ite, if_pos rfl]

end Json

end Keys

namespace Json

variable {S : Role → Json → Json → Prop} {role : Role} {v v' : Json}

namespace Close

/-- What is found under a known key is related, and so is what is found under any key of an object
to which no key may be added. -/
theorem get? (h : Close S role v v') (key : String)
    (hkey : key ∈ knownKeys ∨ role.isOpen = false) :
    Option.Rel (S (role.member key)) (v.get? key) (v'.get? key) := by
  cases h with
  | array => exact .none
  | @object members members' added hkeys hadded _ hmember =>
    cases hfound : (Json.object members).get? key with
    | some w =>
      obtain ⟨w', hfound', hw⟩ := hmember key w hfound
      rw [hfound']
      exact .some hw
    | none =>
      have hmem : key ∉ (Json.object members').keys := by
        rw [hkeys.mem_iff, List.mem_append, mem_keys_iff, hfound]
        rintro (hsome | hin)
        · cases hsome
        · obtain ⟨hopen, hunknown⟩ := hadded key hin
          rcases hkey with hknown | hclosed
          · exact hunknown hknown
          · rw [hclosed] at hopen
            cases hopen
      rw [mem_keys_iff, Bool.not_eq_true, Option.isSome_eq_false_iff,
        Option.isNone_iff_eq_none] at hmem
      rw [hmem]
      exact .none

theorem keys_perm (h : Close S role v v') (hclosed : role.isOpen = false) :
    v'.keys.Perm v.keys := by
  cases h with
  | array => exact .refl _
  | @object _ _ added hkeys hadded _ _ =>
    have hnone : added = [] := by
      apply List.eq_nil_iff_forall_not_mem.mpr
      intro key hin
      have hopen := (hadded key hin).1
      rw [hclosed] at hopen
      cases hopen
    rwa [hnone, List.append_nil] at hkeys

/-- Leaving out the same keys of two objects keeps them close. -/
theorem filter {members members' : List (String × Json)}
    (h : Close S role (.object members) (.object members')) (p : String → Bool) :
    Close S role (.object (members.filter fun m => p m.1))
      (.object (members'.filter fun m => p m.1)) := by
  cases h with
  | @object _ _ added hkeys hadded horder hmember =>
    have hkeys' := hkeys.filter p
    rw [List.filter_append, ← keys_filter, ← keys_filter] at hkeys'
    apply Close.object hkeys'
    · intro key hin
      exact hadded key (List.mem_filter.mp hin).1
    · intro hfields
      rw [keys_filter, keys_filter, horder hfields]
    · intro key w hfound
      rw [get?_filter] at hfound
      by_cases hp : p key
      · rw [if_pos hp] at hfound
        rw [get?_filter, if_pos hp]
        exact hmember key w hfound
      · rw [if_neg hp] at hfound
        cases hfound

end Close

section Steps

variable (hrefl : ∀ role v, S role v v)

include hrefl

theorem close_permute {members members' : List (String × Json)} (hrole : role ≠ .fields)
    (hkeys : (members.map Prod.fst).Nodup) (hperm : members.Perm members') :
    Close S role (.object members) (.object members') := by
  have hkeys' : (members'.map Prod.fst).Nodup := (hperm.map Prod.fst).nodup hkeys
  have hreverse : (members.reverse.map Prod.fst).Nodup :=
    (members.reverse_perm.symm.map Prod.fst).nodup hkeys
  have hperm' : members.reverse.Perm members'.reverse :=
    (members.reverse_perm.trans hperm).trans members'.reverse_perm.symm
  have hsame : (Json.object members').keys.Perm ((Json.object members).keys ++ []) := by
    rw [keys_of_nodup hkeys, keys_of_nodup hkeys', List.append_nil]
    exact hperm.symm.map Prod.fst
  apply Close.object hsame
  · intro key hin
    cases hin
  · intro hfields
    exact absurd hfields hrole
  · intro key w hfound
    refine ⟨w, ?_, hrefl _ w⟩
    rw [get?, lookup_of_perm hreverse hperm']
    exact hfound

theorem close_extend {members : List (String × Json)} {key : String} (w : Json)
    (hrole : role.isOpen) (hknown : key ∉ knownKeys) (hnew : key ∉ members.map Prod.fst) :
    Close S role (.object members) (.object (members ++ [(key, w)])) := by
  have hfresh : (Json.object members).get? key = none := by
    rw [← Option.isNone_iff_eq_none, ← Option.isSome_eq_false_iff, ← Bool.not_eq_true, get?,
      lookup_isSome_iff_mem, List.map_reverse, List.mem_reverse]
    exact hnew
  have hkeys : (Json.object (members ++ [(key, w)])).keys =
      (Json.object members).keys ++ [key] := by
    have hset : lastWins (members ++ [(key, w)]) = setMember key w (lastWins members) :=
      List.foldl_append
    have hout : key ∉ (lastWins members).map Prod.fst := by
      change key ∉ (Json.object members).keys
      rw [mem_keys_iff, hfresh]
      exact Bool.false_ne_true
    rw [keys, hset, setMember_of_notMem hout, List.map_append]
    rfl
  apply Close.object
  · rw [hkeys]
  · intro k hin
    rw [List.mem_singleton.mp hin]
    exact ⟨hrole, hknown⟩
  · rintro rfl
    cases hrole
  · intro k x hfound
    refine ⟨x, ?_, hrefl _ x⟩
    rw [get?_append_singleton, if_neg, hfound]
    rintro rfl
    rw [hfresh] at hfound
    cases hfound

theorem close_member {key : String} {w w' : Json} (before after : List (String × Json))
    (hvalue : S (role.member key) w w') :
    Close S role (.object (before ++ (key, w) :: after))
      (.object (before ++ (key, w') :: after)) := by
  have hkeys : (Json.object (before ++ (key, w') :: after)).keys =
      (Json.object (before ++ (key, w) :: after)).keys :=
    keys_congr (by simp)
  have hsame : (Json.object (before ++ (key, w') :: after)).keys.Perm
      ((Json.object (before ++ (key, w) :: after)).keys ++ []) := by
    rw [hkeys, List.append_nil]
  apply Close.object hsame
  · intro k hin
    cases hin
  · exact fun _ => hkeys
  · intro k x hfound
    simp only [get?, List.reverse_append, List.reverse_cons, List.append_assoc,
      List.singleton_append, List.lookup_append, lookup_cons_ite] at hfound ⊢
    -- A later value of the key hides the one that is changed.
    cases hlater : after.reverse.lookup k with
    | some y =>
      rw [hlater, Option.some_or] at hfound
      exact ⟨y, Option.some_or, Option.some.inj hfound ▸ hrefl _ y⟩
    | none =>
      rw [hlater, Option.none_or] at hfound
      rw [Option.none_or]
      by_cases hk : k = key
      · subst hk
        rw [if_pos rfl] at hfound ⊢
        exact ⟨w', rfl, Option.some.inj hfound ▸ hvalue⟩
      · rw [if_neg hk] at hfound ⊢
        exact ⟨x, hfound, hrefl _ x⟩

theorem close_item {w w' : Json} (before after : List Json)
    (hitem : S (role.item (before ++ w :: after).length before.length) w w') :
    Close S role (.array (before ++ w :: after)) (.array (before ++ w' :: after)) := by
  apply Close.array
  · simp
  · intro i x x' hx hx'
    by_cases hi : i = before.length
    · subst hi
      rw [List.getElem?_append_right (Nat.le_refl _), Nat.sub_self,
        List.getElem?_cons_zero] at hx hx'
      cases hx
      cases hx'
      exact hitem
    · have hsame : (before ++ w' :: after)[i]? = (before ++ w :: after)[i]? := by
        by_cases hlt : i < before.length
        · rw [List.getElem?_append_left hlt, List.getElem?_append_left hlt]
        · obtain ⟨j, hj⟩ : ∃ j, i - before.length = j + 1 := ⟨i - before.length - 1, by omega⟩
          rw [List.getElem?_append_right (by omega), List.getElem?_append_right (by omega), hj,
            List.getElem?_cons_succ, List.getElem?_cons_succ]
      rw [hsame, hx] at hx'
      cases hx'
      exact hrefl _ x

/-- A relation that holds of a value and itself, and of two values that are close by it, holds
before and after every edit. -/
theorem Edit.of_close (hclose : ∀ role v v', Close S role v v' → S role v v')
    (h : Edit role v v') : S role v v' := by
  apply hclose
  induction h with
  | permute hrole hkeys hperm => exact close_permute hrefl hrole hkeys hperm
  | extend w hrole hknown hnew => exact close_extend hrefl w hrole hknown hnew
  | member before key after _ ih => exact close_member hrefl before after (hclose _ _ _ ih)
  | item before after _ ih => exact close_item hrefl before after (hclose _ _ _ ih)

end Steps

end Json

end QueryNotation
