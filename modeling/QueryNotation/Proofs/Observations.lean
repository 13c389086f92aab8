import QueryNotation.Proofs.Edits
import QueryNotation.Proofs.Places
import QueryNotation.Proofs.Roundtrip

/-! What the readers of a query see of a JSON value. For every role there is a relation that says
that its readers see the same of two values; for the role of the query itself the reader is the
compiler. Two parts of a query are seen alike if their own parts are, because every record reads its
members in their roles. -/

namespace QueryNotation

section Observations

/-- Readers of scalars and of lists of texts see the same. -/
structure SamePlain (v v' : Json) : Prop where
  scalar : v'.scalar? = v.scalar?
  texts : v'.reading.list? Reading.text? = v.reading.list? Reading.text?

structure SamePart (v v' : Json) : Prop extends SamePlain v v' where
  ref : Ref.ofNode? v'.reading.node = Ref.ofNode? v.reading.node
  val : Scalar.ofNode? v'.reading.node = Scalar.ofNode? v.reading.node
  expr : v'.reading.expr = v.reading.expr
  source : v'.reading.source = v.reading.source
  column : v'.reading.column = v.reading.column
  select : v'.reading.select = v.reading.select
  order : v'.reading.order = v.reading.order
  limit : v'.reading.limit = v.reading.limit

/-- Readers of lists see the same, if those of the items see the same of items related by `S`. -/
structure SameItems (S : Json → Json → Prop) (v v' : Json) : Prop extends SamePlain v v' where
  list : ∀ {α : Type} (f : Reading → Option α), (∀ w w', S w w' → f w'.reading = f w.reading) →
    v'.reading.list? f = v.reading.list? f

structure SameWord (v v' : Json) : Prop extends SamePlain v v' where
  word : ∀ {α : Type} (vocabulary : String → Option α),
    v'.reading.word? vocabulary = v.reading.word? vocabulary

structure SameFields (v v' : Json) : Prop extends SamePlain v v' where
  fields : ∀ {α : Type} (g : Reading → α), (∀ w w', SamePart w w' → g w'.reading = g w.reading) →
    v'.reading.fields? (fun r => some (g r)) = v.reading.fields? fun r => some (g r)

/-- Statements that are checked and lowered alike. They need not be equal: a nested field of an
entry is kept as it is written until it is dropped or rejected. -/
structure Statement.Alike (s s' : Statement) : Prop where
  keyword : s'.keyword = s.keyword
  validate : s'.validate = s.validate
  lower : ∀ policy n, s'.lower policy n = s.lower policy n

structure SameBody (keyword : Keyword) (v v' : Json) : Prop extends SamePlain v v' where
  isObject : v'.isObject = v.isObject
  statement : v.isObject →
    Option.Rel Statement.Alike (Statement.ofBody? keyword v) (Statement.ofBody? keyword v')

structure SameQuery (v v' : Json) : Prop extends SamePlain v v' where
  compiled : ∀ c : Compiler, c.compileJson v' = c.compileJson v

/-- The readers of a value in this role see the same of both values. -/
def Role.Same : Role → Json → Json → Prop
  | .query => SameQuery
  | .body keyword => SameBody keyword
  | .part => SamePart
  | .parts => SameItems SamePart
  | .rows => SameItems (SameItems SamePart)
  | .word => SameWord
  | .entries => SameItems SameFields
  | .fields => SameFields

theorem SamePlain.refl (v : Json) : SamePlain v v := ⟨rfl, rfl⟩

theorem SamePart.refl (v : Json) : SamePart v v :=
  ⟨.refl v, rfl, rfl, rfl, rfl, rfl, rfl, rfl, rfl⟩

theorem SameItems.refl {S : Json → Json → Prop} (v : Json) : SameItems S v v :=
  ⟨.refl v, fun _ _ => rfl⟩

theorem Statement.Alike.refl (s : Statement) : s.Alike s := ⟨rfl, rfl, fun _ _ => rfl⟩

theorem Role.Same.refl (role : Role) (v : Json) : role.Same v v := by
  cases role with
  | query => exact ⟨.refl v, fun _ => rfl⟩
  | body keyword =>
    refine ⟨.refl v, rfl, fun _ => ?_⟩
    cases Statement.ofBody? keyword v with
    | none => exact .none
    | some s => exact .some (.refl s)
  | part => exact SamePart.refl v
  | parts => exact SameItems.refl v
  | rows => exact SameItems.refl v
  | word => exact ⟨.refl v, fun _ => rfl⟩
  | entries => exact SameItems.refl v
  | fields => exact ⟨.refl v, fun _ _ => rfl⟩

theorem Role.Same.plain {role : Role} {v v' : Json} (h : role.Same v v') : SamePlain v v' := by
  cases role with
  | query => exact SameQuery.toSamePlain h
  | body => exact SameBody.toSamePlain h
  | part => exact SamePart.toSamePlain h
  | parts => exact SameItems.toSamePlain h
  | rows => exact SameItems.toSamePlain h
  | word => exact SameWord.toSamePlain h
  | entries => exact SameItems.toSamePlain h
  | fields => exact SameFields.toSamePlain h

theorem Json.scalar?_reading (v : Json) : v.reading.scalar? = v.scalar? := by
  rw [Reading.scalar?, Json.node_reading]
  cases v <;> rfl

theorem Json.text?_eq (v : Json) :
    v.reading.text? = v.scalar?.bind fun | .text s => some s | _ => none := by
  rw [Reading.text?, Json.node_reading]
  cases v <;> rfl

theorem Json.bool?_eq (v : Json) :
    v.reading.bool? = v.scalar?.bind fun | .bool b => some b | _ => none := by
  rw [Reading.bool?, Json.node_reading]
  cases v <;> rfl

theorem Json.isNull_eq (v : Json) : v.reading.isNull = decide (v.scalar? = some .null) := by
  rw [Reading.isNull, Json.node_reading]
  cases v <;> rfl

theorem Json.scalar?_value (v : Json) : v.reading.value.scalar? = v.scalar? := by
  rw [Json.reading, Json.fold_eq]
  cases v <;> rfl

namespace SamePlain

variable {v v' : Json} (h : SamePlain v v')

include h

theorem text : v'.reading.text? = v.reading.text? := by
  rw [Json.text?_eq, Json.text?_eq, h.scalar]

theorem bool : v'.reading.bool? = v.reading.bool? := by
  rw [Json.bool?_eq, Json.bool?_eq, h.scalar]

theorem isNull : v'.reading.isNull = v.reading.isNull := by
  rw [Json.isNull_eq, Json.isNull_eq, h.scalar]

theorem scalar_reading : v'.reading.scalar? = v.reading.scalar? := by
  rw [Json.scalar?_reading, Json.scalar?_reading, h.scalar]

end SamePlain

theorem SamePart.item {v v' : Json} (h : SamePart v v') : v'.reading.item = v.reading.item := by
  rw [Reading.item, Reading.item, h.text, h.expr]

theorem SamePart.cell {v v' : Json} (h : SamePart v v') :
    Cell.ofReading? v'.reading = Cell.ofReading? v.reading := by
  rw [Cell.ofReading?, Cell.ofReading?, h.val, h.scalar_reading]

end Observations

section Records

/-- What a record reads a member as; none if it only takes a scalar or a list of texts. -/
def Seen : Option Role → Json → Json → Prop
  | none => SamePlain
  | some role => role.Same

theorem Seen.plain {use : Option Role} {v v' : Json} (h : Seen use v v') : SamePlain v v' := by
  cases use with
  | none => exact h
  | some role => exact Role.Same.plain h

theorem Role.Same.seen {role : Role} {use : Option Role} {v v' : Json} (h : role.Same v v')
    (huse : use.isNone || use = some role) : Seen use v v' := by
  cases use with
  | none => exact h.plain
  | some role' =>
    have hrole : role' = role := by simpa using huse
    exact hrole ▸ h

/-- The members of two records, seen alike. -/
inductive Related : List (Option Role) → List (Option Json) → List (Option Json) → Prop where
  | nil : Related [] [] []
  | cons {use : Option Role} {uses : List (Option Role)} {o o' : Option Json}
      {os os' : List (Option Json)} (hmember : Option.Rel (Seen use) o o')
      (hrest : Related uses os os') : Related (use :: uses) (o :: os) (o' :: os')

/-- Whether a record with these keys reads the members of an object in their roles. -/
def Role.fitsObject (role : Role) : List String → List (Option Role) → Bool
  | [], [] => true
  | key :: keys, use :: uses =>
    knownKeys.contains key && (use.isNone || use = some (role.member key)) &&
      role.fitsObject keys uses
  | _, _ => false

/-- Whether a record reads the items of an array from `index` on in their roles. -/
def Role.fitsArray (role : Role) (length : Nat) : Nat → List (Option Role) → Bool
  | _, [] => true
  | index, use :: uses =>
    (length ≤ index || use.isNone || use = some (role.item length index)) &&
      role.fitsArray length (index + 1) uses

/-- Whether a record reads its members in their roles, however it is written. -/
def Role.fits (role : Role) (keys : List String) (least : Nat) (uses : List (Option Role)) : Bool :=
  role.fitsObject keys uses &&
    (List.range' least (keys.length + 1 - least)).all (role.fitsArray · 0 uses)

theorem rel_imp {R T : α → α → Prop} {x x' : Option α} (h : Option.Rel R x x')
    (himp : ∀ a a', R a a' → T a a') : Option.Rel T x x' := by
  cases h with
  | none => exact .none
  | some h => exact .some (himp _ _ h)

theorem eq_of_rel {S : Json → Json → Prop} {o o' : Option Json} (h : Option.Rel S o o')
    (F : Option Json → α) (hF : ∀ w w', S w w' → F (some w') = F (some w)) : F o' = F o := by
  cases h with
  | none => rfl
  | some h => exact hF _ _ h

section Members

variable {S : Json → Json → Prop} {o o' : Option Json} {use : Option Role} (f : Reading → Option α)

theorem required?_same (h : Option.Rel S o o') (hf : ∀ w w', S w w' → f w'.reading = f w.reading) :
    required? f (o'.map Json.reading) = required? f (o.map Json.reading) :=
  eq_of_rel h (fun o => required? f (o.map Json.reading)) hf

theorem default?_same (h : Option.Rel S o o') (hf : ∀ w w', S w w' → f w'.reading = f w.reading)
    (a : α) : default? a f (o'.map Json.reading) = default? a f (o.map Json.reading) :=
  eq_of_rel h (fun o => default? a f (o.map Json.reading)) hf

theorem optional?_same (h : Option.Rel (Seen use) o o')
    (hf : ∀ w w', Seen use w w' → f w'.reading = f w.reading) :
    optional? f (o'.map Json.reading) = optional? f (o.map Json.reading) := by
  apply eq_of_rel h fun o => optional? f (o.map Json.reading)
  intro w w' hs
  simp only [Option.map_some, optional?, hs.plain.isNull, hf w w' hs]

end Members

variable {role : Role} {v v' : Json}

theorem related_object (h : Json.Close Role.Same role v v') (keys : List String)
    (uses : List (Option Role)) (hfits : role.fitsObject keys uses) :
    Related uses (keys.map (Json.get? · v)) (keys.map (Json.get? · v')) := by
  induction keys generalizing uses with
  | nil =>
    cases uses with
    | nil => exact .nil
    | cons => cases hfits
  | cons key keys ih =>
    cases uses with
    | nil => cases hfits
    | cons use uses =>
      rw [Role.fitsObject, Bool.and_eq_true, Bool.and_eq_true, List.contains_iff_mem] at hfits
      obtain ⟨⟨hkey, huse⟩, hrest⟩ := hfits
      exact .cons (rel_imp (h.get? key (.inl hkey)) fun _ _ hs => hs.seen huse) (ih uses hrest)

theorem map_some_append_replicate (items : List α) {count : Nat} (h : items.length ≤ count) :
    items.map some ++ List.replicate (count - items.length) none =
      (List.range' 0 count).map (items[·]?) := by
  apply List.ext_getElem?
  intro i
  by_cases hi : i < items.length
  · have hcount : i < count := by omega
    simp [hi, hcount, List.getElem?_append_left]
  · have hpast : items[i]? = none := List.getElem?_eq_none (by omega)
    rw [List.getElem?_append_right (by rw [List.length_map]; omega), List.length_map,
      List.getElem?_replicate, List.getElem?_map]
    by_cases hcount : i < count
    · simp [hcount, hpast, show i - items.length < count - items.length by omega]
    · simp [hcount, show ¬ i - items.length < count - items.length by omega]

/-- An array is a record if it has the right length, and then its items are the members. -/
theorem Json.record?_array (keys : List String) (least : Nat) (items : List Json) :
    (Json.array items).reading.node.record? keys least =
      if least ≤ items.length ∧ items.length ≤ keys.length then
        some (((List.range' 0 keys.length).map (items[·]?)).map (Option.map Json.reading))
      else none := by
  rw [Json.node_reading]
  change (if least ≤ (items.map Json.reading).length ∧
    (items.map Json.reading).length ≤ keys.length then _ else _) = _
  rw [List.length_map]
  by_cases h : least ≤ items.length ∧ items.length ≤ keys.length
  · rw [if_pos h, if_pos h, ← map_some_append_replicate items h.2]
    simp [List.map_append, List.map_replicate]
  · rw [if_neg h, if_neg h]

theorem related_array {items items' : List Json} (hlength : items'.length = items.length)
    (hitem : ∀ (i : Nat) (v v' : Json), items[i]? = some v → items'[i]? = some v' →
      (role.item items.length i).Same v v') (index : Nat) (uses : List (Option Role))
    (hfits : role.fitsArray items.length index uses) :
    Related uses ((List.range' index uses.length).map (items[·]?))
      ((List.range' index uses.length).map (items'[·]?)) := by
  induction uses generalizing index with
  | nil => exact .nil
  | cons use uses ih =>
    rw [Role.fitsArray, Bool.and_eq_true, Bool.or_assoc, Bool.or_eq_true] at hfits
    refine .cons ?_ (ih (index + 1) hfits.2)
    change Option.Rel (Seen use) items[index]? items'[index]?
    by_cases hindex : index < items.length
    · have huse : use.isNone || use = some (role.item items.length index) := by
        rcases hfits.1 with hle | huse
        · exact absurd (of_decide_eq_true hle) (by omega)
        · exact huse
      rw [List.getElem?_eq_getElem hindex, List.getElem?_eq_getElem (hlength ▸ hindex)]
      exact .some ((hitem index _ _ (List.getElem?_eq_getElem hindex)
        (List.getElem?_eq_getElem (hlength ▸ hindex))).seen huse)
    · rw [List.getElem?_eq_none (by omega), List.getElem?_eq_none (by omega)]
      exact .none

theorem length_of_fitsObject {keys : List String} {uses : List (Option Role)}
    (h : role.fitsObject keys uses) : uses.length = keys.length := by
  induction keys generalizing uses with
  | nil =>
    cases uses with
    | nil => rfl
    | cons => cases h
  | cons key keys ih =>
    cases uses with
    | nil => cases h
    | cons use uses =>
      rw [Role.fitsObject, Bool.and_eq_true] at h
      exact congrArg (· + 1) (ih h.2)

theorem Json.Close.isObject {S : Role → Json → Json → Prop} (h : Close S role v v') :
    v'.isObject = v.isObject := by
  cases h <;> rfl

/-- What is made of the members of an object is the same if it is the same for members that are seen
alike. -/
theorem Json.Close.bind_record?_object (h : Close Role.Same role v v') (hv : v.isObject)
    {keys : List String} {least : Nat} (uses : List (Option Role))
    (hfits : role.fitsObject keys uses) {F : List (Option Reading) → Option α}
    (hF : ∀ os os', Related uses os os' →
      F (os'.map (Option.map Json.reading)) = F (os.map (Option.map Json.reading))) :
    (v'.reading.node.record? keys least).bind F = (v.reading.node.record? keys least).bind F := by
  have hv' : v'.isObject := by rw [h.isObject, hv]
  have hsame := hF _ _ (related_object h keys uses hfits)
  rw [List.map_map, List.map_map] at hsame
  rw [Json.record?_of_isObject hv, Json.record?_of_isObject hv']
  exact hsame

/-- The same for records that may be written as arrays. -/
theorem Json.Close.bind_record? (h : Close Role.Same role v v') {keys : List String} {least : Nat}
    (uses : List (Option Role)) (hfits : role.fits keys least uses)
    {F : List (Option Reading) → Option α}
    (hF : ∀ os os', Related uses os os' →
      F (os'.map (Option.map Json.reading)) = F (os.map (Option.map Json.reading))) :
    (v'.reading.node.record? keys least).bind F = (v.reading.node.record? keys least).bind F := by
  rw [Role.fits, Bool.and_eq_true] at hfits
  obtain ⟨hobject, harray⟩ := hfits
  cases h with
  | @array items items' hlength hitem =>
    rw [Json.record?_array, Json.record?_array, hlength]
    by_cases hsize : least ≤ items.length ∧ items.length ≤ keys.length
    · have hitems : role.fitsArray items.length 0 uses :=
        List.all_eq_true.mp harray _ (List.mem_range'_1.mpr ⟨hsize.1, by omega⟩)
      have hrelated := related_array hlength hitem 0 uses hitems
      rw [length_of_fitsObject hobject] at hrelated
      rw [if_pos hsize, if_pos hsize]
      exact hF _ _ hrelated
    · rw [if_neg hsize, if_neg hsize]
  | @object members members' added hkeys hadded horder hmember =>
    exact bind_record?_object (.object hkeys hadded horder hmember) rfl uses hobject hF

end Records

section Parts

variable {v v' : Json}

theorem mapM_eq_of_getElem? {f : α → Option β} {items items' : List α}
    (hlength : items'.length = items.length)
    (h : ∀ (i : Nat) (a a' : α), items[i]? = some a → items'[i]? = some a' → f a' = f a) :
    items'.mapM f = items.mapM f := by
  have hmap : items'.map f = items.map f := by
    apply List.ext_getElem
    · rw [List.length_map, List.length_map, hlength]
    · intro i hi hi'
      rw [List.length_map] at hi hi'
      rw [List.getElem_map, List.getElem_map]
      exact h i _ _ (List.getElem?_eq_getElem hi') (List.getElem?_eq_getElem hi)
  have hid : ∀ l : List α, l.mapM f = (l.map f).mapM id :=
    fun l => (List.mapM_map : (l.map f).mapM id = l.mapM (id ∘ f)).symm
  rw [hid, hid, hmap]

theorem Json.list?_object (f : Reading → Option α) (members : List (String × Json)) :
    (Json.object members).reading.list? f = none := by
  rw [Reading.list?, Json.node_reading]
  rfl

/-- A word that is an object stands alone, over null. -/
theorem Json.word?_object (vocabulary : String → Option α) (members : List (String × Json)) :
    (Json.object members).reading.word? vocabulary =
      match (Json.object members).keys with
      | [key] =>
        if ((Json.object members).get? key).any (·.reading.isNull) then vocabulary key else none
      | _ => none := by
  have hnode : (Json.object members).reading.node =
      .object ((lastWins members).map fun m => (m.1, m.2.reading)) := by
    rw [Json.node_reading, ← lastWins_map fun _ => Json.reading]
    rfl
  rw [Reading.word?, hnode, Json.keys]
  simp only [Json.get?, ← lookup_lastWins]
  rcases lastWins members with _ | ⟨⟨key, w⟩, _ | ⟨m, ms⟩⟩
  · rfl
  · simp
  · rfl

namespace Json.Close

section Part

variable (h : Close Role.Same .part v v')

include h

theorem ref : Ref.ofNode? v'.reading.node = Ref.ofNode? v.reading.node := by
  apply h.bind_record? [none, none, none, none] (by decide)
  rintro _ _ (_ | ⟨hpath, _ | ⟨hlabel, _ | ⟨hcast, _ | ⟨hparam, _ | _⟩⟩⟩⟩)
  have hpath' := required?_same (Reading.list? Reading.text?) hpath fun _ _ hs => hs.texts
  have hlabel' := optional?_same Reading.text? hlabel fun _ _ hs => hs.text
  have hcast' := optional?_same Reading.text? hcast fun _ _ hs => hs.text
  have hparam' := default?_same Reading.bool? hparam (fun _ _ hs => hs.bool) false
  simp only [List.map_cons, List.map_nil, hpath', hlabel', hcast', hparam']

theorem val : Scalar.ofNode? v'.reading.node = Scalar.ofNode? v.reading.node := by
  apply h.bind_record? [none] (by decide)
  rintro _ _ (_ | ⟨hval, _ | _⟩)
  exact required?_same _ hval fun _ _ hs => hs.scalar_reading

theorem items : Item.listOfNode? v'.reading.node = Item.listOfNode? v.reading.node := by
  apply h.bind_record? [some .parts] (by decide)
  rintro _ _ (_ | ⟨hitems, _ | _⟩)
  exact required?_same _ hitems fun _ _ hs => hs.list _ fun _ _ hpart => congrArg some hpart.item

theorem exprs : Expr.listOfNode? v'.reading.node = Expr.listOfNode? v.reading.node := by
  apply h.bind_record? [some .parts] (by decide)
  rintro _ _ (_ | ⟨hitems, _ | _⟩)
  exact required?_same _ hitems fun _ _ hs => hs.list _ fun _ _ hpart => congrArg some hpart.expr

theorem star : Column.starOfNode? v'.reading.node = Column.starOfNode? v.reading.node := by
  apply h.bind_record? [none] (by decide)
  rintro _ _ (_ | ⟨hstar, _ | _⟩)
  exact required?_same _ hstar fun _ _ hs => hs.bool

theorem call : Call.ofNode? v'.reading.node = Call.ofNode? v.reading.node := by
  apply h.bind_record? [none, some .parts, none, none] (by decide)
  rintro _ _ (_ | ⟨hname, _ | ⟨hargs, _ | ⟨hlabel, _ | ⟨hcast, _ | _⟩⟩⟩⟩)
  have hname' := required?_same Reading.text? hname fun _ _ hs => hs.text
  have hargs' := default?_same (Reading.list? fun r => some r.expr) hargs
    (fun _ _ hs => hs.list _ fun _ _ hpart => congrArg some hpart.expr) []
  have hlabel' := optional?_same Reading.text? hlabel fun _ _ hs => hs.text
  have hcast' := optional?_same Reading.text? hcast fun _ _ hs => hs.text
  simp only [List.map_cons, List.map_nil, hname', hargs', hlabel', hcast']

theorem select : Select.ofNode? v'.reading.node = Select.ofNode? v.reading.node := by
  apply h.bind_record?
    [some .part, some .parts, some .part, some .parts, some .part, some .parts, some .part, none]
    (by decide)
  rintro _ _ (_ | ⟨hsource, _ | ⟨hcolumns, _ | ⟨hfilter, _ | ⟨hgroupBy, _ | ⟨hhaving, _ |
    ⟨horderBy, _ | ⟨hlimit, _ | ⟨hdistinct, _ | _⟩⟩⟩⟩⟩⟩⟩⟩)
  have hsource' := optional?_same (fun r => some r.source) hsource
    fun _ _ hs => congrArg some hs.source
  have hcolumns' := optional?_same (Reading.list? fun r => some r.column) hcolumns
    fun _ _ hs => hs.list _ fun _ _ hpart => congrArg some hpart.column
  have hfilter' := optional?_same (fun r => some r.expr) hfilter fun _ _ hs => congrArg some hs.expr
  have hgroupBy' := optional?_same (Reading.list? fun r => some r.expr) hgroupBy
    fun _ _ hs => hs.list _ fun _ _ hpart => congrArg some hpart.expr
  have hhaving' := optional?_same (fun r => some r.expr) hhaving fun _ _ hs => congrArg some hs.expr
  have horderBy' := optional?_same (Reading.list? Reading.order) horderBy
    fun _ _ hs => hs.list _ fun _ _ hpart => hpart.order
  have hlimit' := optional?_same Reading.limit hlimit fun _ _ hs => hs.limit
  have hdistinct' := default?_same Reading.bool? hdistinct (fun _ _ hs => hs.bool) false
  simp only [List.map_cons, List.map_nil, hsource', hcolumns', hfilter', hgroupBy', hhaving',
    horderBy', hlimit', hdistinct']

theorem nested : Select.nestedOfNode? v'.reading.node = Select.nestedOfNode? v.reading.node := by
  apply h.bind_record? [some .part, none] (by decide)
  rintro _ _ (_ | ⟨hselect, _ | ⟨hlabel, _ | _⟩⟩)
  have hselect' := required?_same Reading.select hselect fun _ _ hs => hs.select
  have hlabel' := optional?_same Reading.text? hlabel fun _ _ hs => hs.text
  simp only [List.map_cons, List.map_nil, hselect', hlabel']

theorem join : Join.ofNode? v'.reading.node = Join.ofNode? v.reading.node := by
  apply h.bind_record? [some .word, some .parts, some .part, none] (by decide)
  rintro _ _ (_ | ⟨hjoin, _ | ⟨hargs, _ | ⟨hon, _ | ⟨hlabel, _ | _⟩⟩⟩⟩)
  have hjoin' := required?_same (Reading.word? JoinKind.ofName?) hjoin fun _ _ hs => hs.word _
  have hargs' := default?_same (Reading.list? fun r => some r.source) hargs
    (fun _ _ hs => hs.list _ fun _ _ hpart => congrArg some hpart.source) []
  have hon' := optional?_same (fun r => some r.expr) hon fun _ _ hs => congrArg some hs.expr
  have hlabel' := optional?_same Reading.text? hlabel fun _ _ hs => hs.text
  simp only [List.map_cons, List.map_nil, hjoin', hargs', hon', hlabel']

theorem limit : Limit.ofNode? v'.reading.node = Limit.ofNode? v.reading.node := by
  apply h.bind_record? [some .part, some .part] (by decide)
  rintro _ _ (_ | ⟨hrows, _ | ⟨hoffset, _ | _⟩⟩)
  have hrows' := required?_same (fun r => some r.expr) hrows fun _ _ hs => congrArg some hs.expr
  have hoffset' := optional?_same (fun r => some r.expr) hoffset fun _ _ hs => congrArg some hs.expr
  simp only [List.map_cons, List.map_nil, hrows', hoffset']

theorem bare : Select.bareOfNode? v'.reading.node = Select.bareOfNode? v.reading.node := by
  have hsource := eq_of_rel (h.get? "from" (.inl (by decide))) Option.isSome fun _ _ _ => rfl
  have hcolumns := eq_of_rel (h.get? "columns" (.inl (by decide))) Option.isSome fun _ _ _ => rfl
  have hselect := h.select
  cases h with
  | array =>
    rw [Json.node_reading, Json.node_reading]
    rfl
  | object =>
    rw [Select.bareOfNode?_object, Select.bareOfNode?_object, hselect, hsource, hcolumns]

theorem expr : v'.reading.expr = v.reading.expr := by
  rw [Json.expr_reading, Json.expr_reading, Expr.ofNode, Expr.ofNode, h.ref, h.val, h.items,
    h.exprs, h.call, h.nested, h.bare]

theorem source : v'.reading.source = v.reading.source := by
  rw [Json.source_reading, Json.source_reading, Source.ofNode, Source.ofNode, h.ref, h.join,
    h.nested]

theorem column : v'.reading.column = v.reading.column := by
  rw [Json.column_reading, Json.column_reading, Column.ofNode, Column.ofNode, h.star, h.ref, h.call]

theorem order : v'.reading.order = v.reading.order := by
  have hsort : Option.Rel (Seen (some .word)) (v.get? "sort") (v'.get? "sort") :=
    h.get? "sort" (.inl (by decide))
  have hnulls : Option.Rel (Seen (some .word)) (v.get? "nulls") (v'.get? "nulls") :=
    h.get? "nulls" (.inl (by decide))
  cases h with
  | array =>
    rw [Json.order_reading, Json.order_reading, Json.node_reading, Json.node_reading]
    rfl
  | object hkeys hadded horder hmember =>
    have hexpr := ((Close.object hkeys hadded horder hmember).filter
      fun key => key ≠ "sort" ∧ key ≠ "nulls").expr
    have hsort' := default?_same (Reading.word? Direction.ofName?) hsort
      (fun _ _ hs => hs.word _) .asc
    have hnulls' := optional?_same (Reading.word? NullsOrder.ofName?) hnulls fun _ _ hs => hs.word _
    rw [Json.order_object, Json.order_object, hexpr, hsort', hnulls']

end Part

/-- Whatever the role is, scalars stay as they are, and so do lists of texts. -/
theorem plain {role : Role} (h : Close Role.Same role v v') : SamePlain v v' := by
  cases h with
  | array hlength hitem =>
    refine ⟨rfl, ?_⟩
    rw [Json.list?_array, Json.list?_array]
    exact mapM_eq_of_getElem? hlength fun i w w' hw hw' => (hitem i w w' hw hw').plain.text
  | object =>
    refine ⟨rfl, ?_⟩
    rw [Json.list?_object, Json.list?_object]

theorem part (h : Close Role.Same .part v v') : SamePart v v' where
  toSamePlain := h.plain
  ref := h.ref
  val := h.val
  expr := h.expr
  source := h.source
  column := h.column
  select := by rw [Json.select_reading, Json.select_reading, h.select]
  order := h.order
  limit := by rw [Json.limit_reading, Json.limit_reading, h.limit]

/-- A list of values that all have one role is seen alike if its items are. -/
theorem sameItems {role : Role} (inner : Role)
    (hrole : ∀ length index, role.item length index = inner) (h : Close Role.Same role v v') :
    SameItems inner.Same v v' := by
  refine ⟨h.plain, ?_⟩
  intro α f hf
  cases h with
  | array hlength hitem =>
    rw [Json.list?_array, Json.list?_array]
    apply mapM_eq_of_getElem? hlength
    intro i w w' hw hw'
    have hsame := hitem i w w' hw hw'
    rw [hrole] at hsame
    exact hf w w' hsame
  | object => rw [Json.list?_object, Json.list?_object]

theorem sameWord (h : Close Role.Same .word v v') : SameWord v v' := by
  refine ⟨h.plain, ?_⟩
  intro α vocabulary
  have hperm := h.keys_perm rfl
  have hfound : ∀ key, Option.Rel (Role.word.member key).Same (v.get? key) (v'.get? key) :=
    fun key => h.get? key (.inr rfl)
  cases h with
  | array =>
    rw [Reading.word?, Reading.word?, Json.node_reading, Json.node_reading]
    rfl
  | @object members members' =>
    rw [Json.word?_object, Json.word?_object]
    rcases hkeys : (Json.object members).keys with _ | ⟨key, _ | ⟨second, rest⟩⟩
    · rw [hkeys, List.perm_nil] at hperm
      rw [hperm]
    · rw [hkeys, List.perm_singleton] at hperm
      have hnull := eq_of_rel (hfound key) (Option.any (·.reading.isNull))
        fun _ _ hs => hs.plain.isNull
      rw [hperm]
      simp only [hnull]
    · have hlength := hperm.length_eq
      rw [hkeys] at hlength
      rcases hkeys' : (Json.object members').keys with _ | ⟨key', _ | ⟨second', rest'⟩⟩
      · rfl
      · rw [hkeys'] at hlength
        cases hlength
      · rfl

theorem sameFields (h : Close Role.Same .fields v v') : SameFields v v' := by
  refine ⟨h.plain, ?_⟩
  intro α g hg
  have hfound : ∀ key, Option.Rel (Role.fields.member key).Same (v.get? key) (v'.get? key) :=
    fun key => h.get? key (.inr rfl)
  cases h with
  | array =>
    rw [Reading.fields?, Reading.fields?, Json.node_reading, Json.node_reading]
    rfl
  | @object members members' _ _ _ horder _ =>
    rw [Json.fields?_object, Json.fields?_object]
    apply congrArg some
    apply map_eq_of_lookup (fun w : Json => g w.reading) (nodup_keys_lastWins members) (horder rfl)
    intro key
    rw [lookup_lastWins, lookup_lastWins]
    exact eq_of_rel (hfound key) (Option.map fun w => g w.reading) fun w w' hs =>
      congrArg some (hg w w' hs)

end Json.Close

end Parts

end QueryNotation
