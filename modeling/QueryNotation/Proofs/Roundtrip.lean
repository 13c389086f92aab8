import QueryNotation.Proofs.Members
import QueryNotation.Proofs.Subtrees
import QueryNotation.Query.Written

/-! Reading undoes writing. The forms of an expression, a source or a column are tried in a fixed
order, so a written part is read back only if no earlier form takes it: each form has a key that it
requires, and no other form writes that key. What the parts of a form read back to, the form does,
and by induction on the query every part is read back. -/

namespace QueryNotation

section Members

@[simp] theorem Json.get?_nil (key : String) : (Json.object []).get? key = none := rfl

@[simp] theorem Json.get?_append (key : String) (before after : List (String × Json)) :
    (Json.object (before ++ after)).get? key =
      ((Json.object after).get? key).or ((Json.object before).get? key) := by
  simp only [Json.get?, List.reverse_append, List.lookup_append]

@[simp] theorem Json.get?_cons (key k : String) (v : Json) (members : List (String × Json)) :
    (Json.object ((k, v) :: members)).get? key =
      ((Json.object members).get? key).or (if key = k then some v else none) := by
  rw [← List.singleton_append, Json.get?_append, Json.get?, Json.get?, List.reverse_singleton,
    lookup_cons_ite, List.lookup_nil]

@[simp] theorem Json.get?_writeMember (key k : String) (f : α → Json) (o : Option α) :
    (Json.object (writeMember k f o)).get? key = if key = k then o.map f else none := by
  cases o <;> simp [writeMember]

@[simp] theorem Json.get?_writeMark (key k : String) (b : Bool) :
    (Json.object (writeMark k b)).get? key =
      if key = k then (if b then some (.bool true) else none) else none := by
  cases b <;> simp [writeMark]

/-- A member that is written if it is there is read back. -/
theorem optional?_written {f : Reading → Option α} {g : α → Json} {o : Option α}
    (hnull : ∀ a, g a ≠ .null) (h : ∀ a ∈ o, f (g a).reading = some a) :
    optional? f (o.map (Json.reading ∘ g)) = some o := by
  cases o with
  | none => rfl
  | some a =>
    rw [Option.map_some, Function.comp_apply, optional?_reading_some (hnull a), h a rfl]
    rfl

/-- A member for which null is written if it is missing is read back too. -/
theorem optional?_written_null {f : Reading → Option α} {g : α → Json} {o : Option α}
    (hnull : ∀ a, g a ≠ .null) (h : ∀ a ∈ o, f (g a).reading = some a) :
    optional? f (some ((o.map g).getD .null).reading) = some o := by
  cases o with
  | none => rfl
  | some a =>
    rw [Option.map_some, Option.getD_some, optional?_reading_some (hnull a), h a rfl]
    rfl

theorem list?_written {f : Reading → Option α} {g : α → Json} {l : List α}
    (h : ∀ a ∈ l, f (g a).reading = some a) : (Json.array (l.map g)).reading.list? f = some l := by
  rw [Json.list?_array, List.mapM_map]
  induction l with
  | nil => rfl
  | cons a l ih =>
    rw [List.forall_mem_cons] at h
    rw [List.mapM_cons, Function.comp_apply, h.1, ih h.2]
    rfl

@[simp] theorem Json.text?_reading (s : String) : (Json.text s).reading.text? = some s := rfl

@[simp] theorem Json.bool?_reading (b : Bool) : (Json.bool b).reading.bool? = some b := rfl

@[simp] theorem Json.word?_reading (vocabulary : String → Option α) (s : String) :
    (Json.text s).reading.word? vocabulary = vocabulary s := rfl

@[simp] theorem Scalar.scalar?_reading (s : Scalar) : s.toJson.reading.scalar? = some s := by
  cases s <;> rfl

@[simp] theorem default?_mark (b : Bool) :
    default? false Reading.bool? (if b then some (Json.bool true).reading else none) = some b := by
  cases b <;> rfl

@[simp] theorem optional?_text (o : Option String) :
    optional? Reading.text? (o.map (Json.reading ∘ Json.text)) = some o :=
  optional?_written (fun _ => nofun) fun _ _ => rfl

theorem list?_textArray (texts : List String) :
    (textArray texts).reading.list? Reading.text? = some texts :=
  list?_written fun _ _ => rfl

end Members

section Written

-- The writers of lists and options are recursive functions of their own. These two lemmas say once
-- that each of them writes part by part.
theorem eq_map_of_cons {w : List α → List Json} {f : α → Json} (hnil : w [] = [])
    (hcons : ∀ a l, w (a :: l) = f a :: w l) (l : List α) : w l = l.map f := by
  induction l with
  | nil => exact hnil
  | cons a l ih => rw [hcons, ih, List.map_cons]

theorem eq_writeMember {w : Option α → List (String × Json)} {key : String} {f : α → Json}
    (hnone : w none = []) (hsome : ∀ a, w (some a) = [(key, f a)]) (o : Option α) :
    w o = writeMember key f o := by
  cases o with
  | none => exact hnone
  | some a => exact hsome a

theorem writeExprs_eq_map : ∀ es, writeExprs es = es.map Expr.toJson :=
  eq_map_of_cons rfl fun _ _ => rfl

theorem writeItems_eq_map : ∀ items, writeItems items = items.map Item.toJson :=
  eq_map_of_cons rfl fun _ _ => rfl

theorem writeSources_eq_map : ∀ sources, writeSources sources = sources.map Source.toJson :=
  eq_map_of_cons rfl fun _ _ => rfl

theorem writeColumns_eq_map : ∀ columns, writeColumns columns = columns.map Column.toJson :=
  eq_map_of_cons rfl fun _ _ => rfl

theorem writeOrders_eq_map : ∀ orders, writeOrders orders = orders.map Order.toJson :=
  eq_map_of_cons rfl fun _ _ => rfl

/-- The array of the written items of a list. -/
def arrayOf (f : α → Json) (items : List α) : Json := .array (items.map f)

theorem writeExpr_eq (key : String) : ∀ o, writeExpr key o = writeMember key Expr.toJson o :=
  eq_writeMember rfl fun _ => rfl

theorem writeSource_eq : ∀ o, writeSource o = writeMember "from" Source.toJson o :=
  eq_writeMember rfl fun _ => rfl

theorem writeColumnList_eq :
    ∀ o, writeColumnList o = writeMember "columns" (arrayOf Column.toJson) o :=
  eq_writeMember rfl fun columns => by rw [writeColumnList, writeColumns_eq_map, arrayOf]

theorem writeExprList_eq :
    ∀ o, writeExprList o = writeMember "groupBy" (arrayOf Expr.toJson) o :=
  eq_writeMember rfl fun es => by rw [writeExprList, writeExprs_eq_map, arrayOf]

theorem writeOrderList_eq :
    ∀ o, writeOrderList o = writeMember "orderBy" (arrayOf Order.toJson) o :=
  eq_writeMember rfl fun orders => by rw [writeOrderList, writeOrders_eq_map, arrayOf]

theorem writeLimit_eq : ∀ o, writeLimit o = writeMember "limit" Limit.toJson o :=
  eq_writeMember rfl fun _ => rfl

/-- The members of a select after its source and columns. -/
def Select.clauseMembers (s : Select) : List (String × Json) :=
  writeMember "where" Expr.toJson s.filter ++
    writeMember "groupBy" (arrayOf Expr.toJson) s.groupBy ++
    writeMember "having" Expr.toJson s.having ++
    writeMember "orderBy" (arrayOf Order.toJson) s.orderBy ++
    writeMember "limit" Limit.toJson s.limit ++ writeMark "distinct" s.distinct

theorem Select.members_eq (s : Select) :
    s.members = writeMember "from" Source.toJson s.source ++
      writeMember "columns" (arrayOf Column.toJson) s.columns ++ s.clauseMembers := by
  obtain ⟨source, columns, filter, groupBy, having, orderBy, limit, distinct⟩ := s
  simp only [Select.members, writeSource_eq, writeColumnList_eq, writeExpr_eq, writeExprList_eq,
    writeOrderList_eq, writeLimit_eq, Select.clauseMembers, List.append_assoc]

theorem Select.bareMembers_eq (s : Select) :
    s.bareMembers = [("from", (s.source.map Source.toJson).getD .null),
      ("columns", (s.columns.map (arrayOf Column.toJson)).getD .null)] ++ s.clauseMembers := by
  obtain ⟨source, columns, filter, groupBy, having, orderBy, limit, distinct⟩ := s
  simp only [Select.bareMembers, writeSource_eq, writeColumnList_eq, writeExpr_eq,
    writeExprList_eq, writeOrderList_eq, writeLimit_eq, Select.clauseMembers, List.append_assoc]
  cases source <;> cases columns <;> rfl

theorem Call.members_eq (c : Call) :
    c.members = [("func", .text c.name), ("args", arrayOf Expr.toJson c.args)] ++
      writeMember "as" .text c.label ++ writeMember "cast" .text c.cast := by
  obtain ⟨name, args, label, cast⟩ := c
  rw [Call.members, writeExprs_eq_map, arrayOf]

theorem Call.get?_members_of_notMem {key : String} (h : key ∉ ["func", "args", "as", "cast"])
    (c : Call) : (Json.object c.members).get? key = none := by
  simp only [List.mem_cons, List.not_mem_nil, or_false, not_or] at h
  simp [Call.members_eq, h]

theorem Select.get?_bareMembers_of_notMem {key : String} (h : key ∉ Select.keys) (s : Select) :
    (Json.object s.bareMembers).get? key = none := by
  simp only [Select.keys, List.mem_cons, List.not_mem_nil, or_false, not_or] at h
  simp [Select.bareMembers_eq, Select.clauseMembers, h]

theorem Join.toJson_eq (j : Join) :
    j.toJson = .object ([("join", .text j.kind.name), ("args", arrayOf Source.toJson j.args)] ++
      writeMember "on" Expr.toJson j.on ++ writeMember "as" .text j.label) := by
  obtain ⟨kind, args, on, label⟩ := j
  rw [Join.toJson, writeSources_eq_map, writeExpr_eq, arrayOf]

theorem Limit.toJson_eq (l : Limit) :
    l.toJson = .object (("rows", l.rows.toJson) :: writeMember "offset" Expr.toJson l.offset) := by
  obtain ⟨rows, offset⟩ := l
  rw [Limit.toJson, writeExpr_eq, Expr.toJson]

theorem Order.toJson_eq (o : Order) :
    o.toJson = .object (o.expr.members ++ ("sort", .text o.direction.name) ::
      writeMember "nulls" (fun n => .text n.name) o.nulls) := by
  obtain ⟨e, direction, nulls⟩ := o
  rw [Order.toJson]

theorem Source.toJson_ne_null (s : Source) : s.toJson ≠ .null := by
  cases s <;> simp [Source.toJson, Ref.toJson, Join.toJson_eq]

theorem Limit.toJson_ne_null (l : Limit) : l.toJson ≠ .null := by
  simp [Limit.toJson_eq]

end Written

section Forms

variable {members : List (String × Json)}

-- A form whose required key is missing does not fit.

@[simp] theorem Ref.ofNode?_absent (h : (Json.object members).get? "ref" = none) :
    Ref.ofNode? (Json.object members).reading.node = none := by
  simp [Ref.ofNode?, Json.record?_reading, h, required?]

@[simp] theorem Scalar.ofNode?_absent (h : (Json.object members).get? "val" = none) :
    Scalar.ofNode? (Json.object members).reading.node = none := by
  simp [Scalar.ofNode?, Json.record?_reading, h, required?]

@[simp] theorem Item.listOfNode?_absent (h : (Json.object members).get? "xpr" = none) :
    Item.listOfNode? (Json.object members).reading.node = none := by
  simp [Item.listOfNode?, Json.record?_reading, h, required?]

@[simp] theorem Expr.listOfNode?_absent (h : (Json.object members).get? "list" = none) :
    Expr.listOfNode? (Json.object members).reading.node = none := by
  simp [Expr.listOfNode?, Json.record?_reading, h, required?]

@[simp] theorem Call.ofNode?_absent (h : (Json.object members).get? "func" = none) :
    Call.ofNode? (Json.object members).reading.node = none := by
  simp [Call.ofNode?, Json.record?_reading, h, required?]

@[simp] theorem Select.nestedOfNode?_absent (h : (Json.object members).get? "SELECT" = none) :
    Select.nestedOfNode? (Json.object members).reading.node = none := by
  simp [Select.nestedOfNode?, Json.record?_reading, h, required?]

@[simp] theorem Join.ofNode?_absent (h : (Json.object members).get? "join" = none) :
    Join.ofNode? (Json.object members).reading.node = none := by
  simp [Join.ofNode?, Json.record?_reading, h, required?]

@[simp] theorem Column.starOfNode?_absent (h : (Json.object members).get? "*" = none) :
    Column.starOfNode? (Json.object members).reading.node = none := by
  simp [Column.starOfNode?, Json.record?_reading, h, required?]

theorem Json.any_key_reading (key : String) (members : List (String × Json)) :
    (lastWins (members.map fun m => (m.1, m.2.reading))).any (·.1 = key) =
      ((Json.object members).get? key).isSome := by
  rw [Bool.eq_iff_iff, Json.get?, ← lookup_lastWins, lookup_isSome_iff_mem,
    lastWins_map fun _ => Json.reading, List.any_map]
  simp [List.any_eq_true]

/-- A select without its keyword is one in the place of an expression if it has its two keys. -/
theorem Select.bareOfNode?_object (members : List (String × Json)) :
    Select.bareOfNode? (Json.object members).reading.node =
      if ((Json.object members).get? "from").isSome ∧
          ((Json.object members).get? "columns").isSome then
        Select.ofNode? (Json.object members).reading.node
      else none := by
  rw [← Json.any_key_reading, ← Json.any_key_reading, Json.node_reading]
  rfl

end Forms

section ReadingBack

-- A part is read back if reading, in the part's own place, gives it for what it is written as.

def Expr.ReadsBack (e : Expr) : Prop := e.toJson.reading.expr = e

def Item.ReadsBack (x : Item) : Prop := x.toJson.reading.item = x

def Source.ReadsBack (s : Source) : Prop := s.toJson.reading.source = s

def Column.ReadsBack (c : Column) : Prop := c.toJson.reading.column = c

def Order.ReadsBack (o : Order) : Prop := o.toJson.reading.order = some o

def Limit.ReadsBack (l : Limit) : Prop := l.toJson.reading.limit = some l

/-- Every part of a select is read back. -/
structure Select.ReadsBack (s : Select) : Prop where
  source : ∀ source ∈ s.source, source.ReadsBack
  columns : ∀ columns ∈ s.columns, ∀ c ∈ columns, c.ReadsBack
  filter : ∀ e ∈ s.filter, e.ReadsBack
  groupBy : ∀ es ∈ s.groupBy, ∀ e ∈ es, e.ReadsBack
  having : ∀ e ∈ s.having, e.ReadsBack
  orderBy : ∀ orders ∈ s.orderBy, ∀ o ∈ orders, o.ReadsBack
  limit : ∀ l ∈ s.limit, l.ReadsBack

theorem optional?_expr {o : Option Expr} (h : ∀ e ∈ o, e.ReadsBack) :
    optional? (fun r => some r.expr) (o.map (Json.reading ∘ Expr.toJson)) = some o :=
  optional?_written (fun _ => nofun) fun e he => congrArg some (h e he)

theorem list?_expr {es : List Expr} (h : ∀ e ∈ es, e.ReadsBack) :
    (arrayOf Expr.toJson es).reading.list? (fun r => some r.expr) = some es :=
  list?_written fun e he => congrArg some (h e he)

theorem Ref.ofNode?_members (r : Ref) :
    Ref.ofNode? (Json.object r.members).reading.node = some r := by
  simp [Ref.ofNode?, Json.record?_reading, Ref.members, required?, list?_textArray]

theorem Call.ofNode?_members {c : Call} (h : ∀ e ∈ c.args, e.ReadsBack) :
    Call.ofNode? (Json.object c.members).reading.node = some c := by
  obtain ⟨name, args, label, cast⟩ := c
  simp [Call.ofNode?, Json.record?_reading, Call.members_eq, required?, default?, list?_expr h]

theorem Select.ofNode?_of_get? {s : Select} {members : List (String × Json)} (h : s.ReadsBack)
    (hsource : optional? (fun r => some r.source)
      (((Json.object members).get? "from").map Json.reading) = some s.source)
    (hcolumns : optional? (Reading.list? fun r => some r.column)
      (((Json.object members).get? "columns").map Json.reading) = some s.columns)
    (hclauses : ∀ key ∈ Select.keys.drop 2,
      (Json.object members).get? key = (Json.object s.clauseMembers).get? key) :
    Select.ofNode? (Json.object members).reading.node = some s := by
  have hfilter := optional?_expr h.filter
  have hgroupBy : optional? (Reading.list? fun r => some r.expr)
      (s.groupBy.map (Json.reading ∘ arrayOf Expr.toJson)) = some s.groupBy :=
    optional?_written (fun _ => nofun) fun es hes => list?_expr (h.groupBy es hes)
  have hhaving := optional?_expr h.having
  have horderBy : optional? (Reading.list? Reading.order)
      (s.orderBy.map (Json.reading ∘ arrayOf Order.toJson)) = some s.orderBy :=
    optional?_written (fun _ => nofun) fun orders hos => list?_written (h.orderBy orders hos)
  have hlimit : optional? Reading.limit (s.limit.map (Json.reading ∘ Limit.toJson)) =
      some s.limit :=
    optional?_written Limit.toJson_ne_null h.limit
  simp only [Select.keys, List.drop, List.forall_mem_cons] at hclauses
  obtain ⟨source, columns, filter, groupBy, having, orderBy, limit, distinct⟩ := s
  simp [Select.ofNode?, Json.record?_reading, Select.keys, Select.clauseMembers, hsource, hcolumns,
    hclauses, hfilter, hgroupBy, hhaving, horderBy, hlimit]

theorem Select.ReadsBack.source_eq {s : Select} (h : s.ReadsBack) :
    ∀ source ∈ s.source, some source.toJson.reading.source = some source :=
  fun source hs => congrArg some (h.source source hs)

theorem Select.ReadsBack.columns_eq {s : Select} (h : s.ReadsBack) :
    ∀ columns ∈ s.columns,
      (arrayOf Column.toJson columns).reading.list? (fun r => some r.column) = some columns :=
  fun columns hcs => list?_written fun c hc => congrArg some (h.columns columns hcs c hc)

theorem Select.ofNode?_members {s : Select} (h : s.ReadsBack) :
    Select.ofNode? (Json.object s.members).reading.node = some s := by
  have hsource : optional? (fun r => some r.source) (s.source.map (Json.reading ∘ Source.toJson)) =
      some s.source :=
    optional?_written Source.toJson_ne_null h.source_eq
  have hcolumns : optional? (Reading.list? fun r => some r.column)
      (s.columns.map (Json.reading ∘ arrayOf Column.toJson)) = some s.columns :=
    optional?_written (fun _ => nofun) h.columns_eq
  apply Select.ofNode?_of_get? h
  · simpa [Select.members_eq, Select.clauseMembers] using hsource
  · simpa [Select.members_eq, Select.clauseMembers] using hcolumns
  · simp [Select.keys, Select.members_eq]

theorem Select.bareOfNode?_members {s : Select} (h : s.ReadsBack) :
    Select.bareOfNode? (Json.object s.bareMembers).reading.node = some s := by
  have hsource : (Json.object s.bareMembers).get? "from" =
      some ((s.source.map Source.toJson).getD .null) := by
    simp [Select.bareMembers_eq, Select.clauseMembers]
  have hcolumns : (Json.object s.bareMembers).get? "columns" =
      some ((s.columns.map (arrayOf Column.toJson)).getD .null) := by
    simp [Select.bareMembers_eq, Select.clauseMembers]
  rw [Select.bareOfNode?_object, if_pos ⟨by simp [hsource], by simp [hcolumns]⟩]
  apply Select.ofNode?_of_get? h
  · rw [hsource]
    exact optional?_written_null Source.toJson_ne_null h.source_eq
  · rw [hcolumns]
    exact optional?_written_null (fun _ => nofun) h.columns_eq
  · simp [Select.keys, Select.bareMembers_eq]

theorem Select.nestedOfNode?_members {s : Select} (h : s.ReadsBack) (label : Option String) :
    Select.nestedOfNode?
      (Json.object (("SELECT", .object s.members) :: writeMember "as" .text label)).reading.node =
      some (s, label) := by
  simp [Select.nestedOfNode?, Json.record?_reading, required?, Json.select_reading,
    Select.ofNode?_members h]

theorem Join.ofNode?_toJson {j : Join} (hargs : ∀ s ∈ j.args, s.ReadsBack)
    (hon : ∀ e ∈ j.on, e.ReadsBack) : Join.ofNode? j.toJson.reading.node = some j := by
  have hkind : JoinKind.ofName? j.kind.name = some j.kind := by cases j.kind <;> rfl
  have hsources : (arrayOf Source.toJson j.args).reading.list? (fun r => some r.source) =
      some j.args :=
    list?_written fun s hs => congrArg some (hargs s hs)
  have hcondition := optional?_expr hon
  obtain ⟨kind, args, on, label⟩ := j
  simp [Join.ofNode?, Join.toJson_eq, Json.record?_reading, required?, default?, hkind, hsources,
    hcondition]

theorem Limit.readsBack_of {l : Limit} (hrows : l.rows.ReadsBack)
    (hoffset : ∀ e ∈ l.offset, e.ReadsBack) : l.ReadsBack := by
  have hskipped := optional?_expr hoffset
  rw [Expr.ReadsBack] at hrows
  obtain ⟨rows, offset⟩ := l
  simp [Limit.ReadsBack, Json.limit_reading, Limit.ofNode?, Limit.toJson_eq, Json.record?_reading,
    required?, hrows, hskipped]

-- In every case below, the forms that are tried before the written one miss the key that they
-- require, and drop out by the lemmas on missing keys.

theorem Expr.readsBack_ref (r : Ref) : (Expr.ref r).ReadsBack := by
  simp [Expr.ReadsBack, Expr.toJson, Expr.members, Json.expr_reading, Expr.ofNode,
    Ref.ofNode?_members]

theorem Expr.readsBack_val (v : Scalar) : (Expr.val v).ReadsBack := by
  have hval : Scalar.ofNode? (Json.object [("val", v.toJson)]).reading.node = some v := by
    simp [Scalar.ofNode?, Json.record?_reading, required?]
  simp [Expr.ReadsBack, Expr.toJson, Expr.members, Json.expr_reading, Expr.ofNode, hval]

theorem Expr.readsBack_compound {items : List Item} (h : ∀ x ∈ items, x.ReadsBack) :
    (Expr.compound items).ReadsBack := by
  have hitems : Item.listOfNode? (Json.object [("xpr", arrayOf Item.toJson items)]).reading.node =
      some items := by
    have hlist : (arrayOf Item.toJson items).reading.list? (fun r => some r.item) = some items :=
      list?_written fun x hx => congrArg some (h x hx)
    simp [Item.listOfNode?, Json.record?_reading, required?, hlist]
  rw [arrayOf] at hitems
  simp [Expr.ReadsBack, Expr.toJson, Expr.members, Json.expr_reading, Expr.ofNode,
    writeItems_eq_map, hitems]

theorem Expr.readsBack_list {es : List Expr} (h : ∀ e ∈ es, e.ReadsBack) :
    (Expr.list es).ReadsBack := by
  have hes : Expr.listOfNode? (Json.object [("list", arrayOf Expr.toJson es)]).reading.node =
      some es := by
    simp [Expr.listOfNode?, Json.record?_reading, required?, list?_expr h]
  rw [arrayOf] at hes
  simp [Expr.ReadsBack, Expr.toJson, Expr.members, Json.expr_reading, Expr.ofNode,
    writeExprs_eq_map, hes]

theorem Expr.readsBack_call {c : Call} (h : ∀ e ∈ c.args, e.ReadsBack) :
    (Expr.call c).ReadsBack := by
  simp [Expr.ReadsBack, Expr.toJson, Expr.members, Json.expr_reading, Expr.ofNode,
    Call.get?_members_of_notMem, Call.ofNode?_members h]

theorem Expr.readsBack_select {s : Select} (h : s.ReadsBack) (label : Option String) :
    (Expr.select s label).ReadsBack := by
  simp [Expr.ReadsBack, Expr.toJson, Expr.members, Json.expr_reading, Expr.ofNode,
    Select.nestedOfNode?_members h label]

theorem Expr.readsBack_bareSelect {s : Select} (h : s.ReadsBack) :
    (Expr.bareSelect s).ReadsBack := by
  simp [Expr.ReadsBack, Expr.toJson, Expr.members, Json.expr_reading, Expr.ofNode, Select.keys,
    Select.get?_bareMembers_of_notMem, Select.bareOfNode?_members h]

theorem Source.readsBack_ref (r : Ref) : (Source.ref r).ReadsBack := by
  simp [Source.ReadsBack, Source.toJson, Ref.toJson, Json.source_reading, Source.ofNode,
    Ref.ofNode?_members]

theorem Source.readsBack_join {j : Join} (hargs : ∀ s ∈ j.args, s.ReadsBack)
    (hon : ∀ e ∈ j.on, e.ReadsBack) : (Source.join j).ReadsBack := by
  have hjoin := Join.ofNode?_toJson hargs hon
  rw [Join.toJson_eq] at hjoin
  rw [Source.ReadsBack, Source.toJson, Json.source_reading, Source.ofNode, Join.toJson_eq, hjoin,
    Ref.ofNode?_absent (by simp)]
  rfl

theorem Source.readsBack_select {s : Select} (h : s.ReadsBack) (label : Option String) :
    (Source.select s label).ReadsBack := by
  simp [Source.ReadsBack, Source.toJson, Json.source_reading, Source.ofNode,
    Select.nestedOfNode?_members h label]

theorem Column.readsBack_wildcard (star : Bool) : (Column.wildcard star).ReadsBack := by
  simp [Column.ReadsBack, Column.toJson, Json.column_reading, Column.ofNode, Column.starOfNode?,
    Json.record?_reading, required?]

theorem Column.readsBack_ref (r : Ref) : (Column.ref r).ReadsBack := by
  have hstar : (Json.object r.members).get? "*" = none := by simp [Ref.members]
  simp [Column.ReadsBack, Column.toJson, Ref.toJson, Json.column_reading, Column.ofNode,
    Ref.ofNode?_members, hstar]

theorem Column.readsBack_call {c : Call} (h : ∀ e ∈ c.args, e.ReadsBack) :
    (Column.call c).ReadsBack := by
  simp [Column.ReadsBack, Column.toJson, Json.column_reading, Column.ofNode,
    Call.get?_members_of_notMem, Call.ofNode?_members h]

/-- Leaving out the members of the order leaves those of its expression. -/
theorem Json.withoutOrder_reading (members : List (String × Json)) :
    (Json.object members).reading.node.withoutOrder =
      (Json.object (members.filter fun m => m.1 ≠ "sort" ∧ m.1 ≠ "nulls")).reading.node := by
  rw [Json.node_reading, Json.node_reading]
  change Node.object ((lastWins (members.map fun m => (m.1, m.2.reading))).filter fun m =>
      decide (m.1 ≠ "sort" ∧ m.1 ≠ "nulls")) =
    .object (lastWins ((members.filter _).map fun m => (m.1, m.2.reading)))
  rw [← lastWins_filter fun key => decide (key ≠ "sort" ∧ key ≠ "nulls"), List.filter_map]
  rfl

@[simp] theorem forall_mem_writeMember {P : String × Json → Prop} {k : String} {f : α → Json}
    {o : Option α} : (∀ m ∈ writeMember k f o, P m) ↔ ∀ a ∈ o, P (k, f a) := by
  cases o <;> simp [writeMember]

@[simp] theorem forall_mem_writeMark {P : String × Json → Prop} {k : String} {b : Bool} :
    (∀ m ∈ writeMark k b, P m) ↔ (b → P (k, .bool true)) := by
  cases b <;> simp [writeMark]

theorem Expr.key_ne_of_mem_members (e : Expr) : ∀ m ∈ e.members, m.1 ≠ "sort" ∧ m.1 ≠ "nulls" := by
  cases e <;>
    simp only [Expr.members, Ref.members, Call.members_eq, Select.bareMembers_eq,
      Select.clauseMembers, List.cons_append, List.nil_append, List.forall_mem_cons,
      List.forall_mem_append, forall_mem_writeMember, forall_mem_writeMark] <;>
    simp

/-- An item of an order is the expression that its other members write, with the direction and the
place of nulls. -/
theorem Json.order_object (members : List (String × Json)) :
    (Json.object members).reading.order =
      (default? .asc (Reading.word? Direction.ofName?)
        (((Json.object members).get? "sort").map Json.reading)).bind fun direction =>
      (optional? (Reading.word? NullsOrder.ofName?)
        (((Json.object members).get? "nulls").map Json.reading)).bind fun nulls =>
      some ⟨(Json.object (members.filter fun m => m.1 ≠ "sort" ∧ m.1 ≠ "nulls")).reading.expr,
        direction, nulls⟩ := by
  rw [Json.expr_reading, ← Json.withoutOrder_reading, Json.order_reading, Json.node_reading]
  simp only [Json.node, Node.map, Node.settle, Order.ofNode?, Json.member?_reading,
    Option.bind_eq_bind, Option.bind_some]

theorem Order.filter_members (o : Order) :
    (o.expr.members ++ ("sort", .text o.direction.name) ::
      writeMember "nulls" (fun n => .text n.name) o.nulls).filter
        (fun m => m.1 ≠ "sort" ∧ m.1 ≠ "nulls") = o.expr.members := by
  have hkept : o.expr.members.filter (fun m => m.1 ≠ "sort" ∧ m.1 ≠ "nulls") = o.expr.members :=
    List.filter_eq_self.mpr fun m hm => decide_eq_true (o.expr.key_ne_of_mem_members m hm)
  rw [List.filter_append, hkept, List.filter_eq_nil_iff.mpr, List.append_nil]
  simp only [List.forall_mem_cons, forall_mem_writeMember]
  simp

theorem Order.readsBack_of {o : Order} (h : o.expr.ReadsBack) : o.ReadsBack := by
  have hexpr : (Json.object o.expr.members).reading.expr = o.expr := h
  have hdirection : Direction.ofName? o.direction.name = some o.direction := by
    cases o.direction <;> rfl
  have hnulls : optional? (Reading.word? NullsOrder.ofName?)
      (o.nulls.map (Json.reading ∘ fun n => .text n.name)) = some o.nulls :=
    optional?_written (fun _ => nofun) fun n _ => by cases n <;> rfl
  have hfree : (Json.object o.expr.members).get? "nulls" = none := by
    rw [Json.get?, List.lookup_eq_none_iff]
    intro m hm
    have hne := (o.expr.key_ne_of_mem_members m (List.mem_reverse.mp hm)).2
    simpa using hne.symm
  rw [Order.ReadsBack, Order.toJson_eq, Json.order_object, o.filter_members, hexpr]
  obtain ⟨e, direction, nulls⟩ := o
  simp [default?, hdirection, hnulls, hfree]

end ReadingBack

section Induction

/-- No part of a query has an unknown form. -/
def Known (ts : List Subtree) : Prop := ∀ t ∈ ts, ¬ t.isOther

@[simp] theorem known_cons {t : Subtree} {ts : List Subtree} :
    Known (t :: ts) ↔ ¬ t.isOther ∧ Known ts :=
  List.forall_mem_cons

@[simp] theorem known_append {ts us : List Subtree} :
    Known (ts ++ us) ↔ Known ts ∧ Known us :=
  List.forall_mem_append

mutual

theorem Expr.readsBack (e : Expr) (h : Known e.subtrees) : e.ReadsBack := by
  cases e with
  | ref r => exact Expr.readsBack_ref r
  | val v => exact Expr.readsBack_val v
  | compound items => exact Expr.readsBack_compound (items_readBack items (known_cons.mp h).2)
  | list items => exact Expr.readsBack_list (exprs_readBack items (known_cons.mp h).2)
  | call c => exact Expr.readsBack_call (c.args_readBack (known_cons.mp h).2)
  | select s label => exact Expr.readsBack_select (s.readsBack (known_cons.mp h).2) label
  | bareSelect s => exact Expr.readsBack_bareSelect (s.readsBack (known_cons.mp h).2)
  | other => exact absurd rfl (known_cons.mp h).1

theorem exprs_readBack (es : List Expr) (h : Known (exprSubtrees es)) : ∀ e ∈ es, e.ReadsBack := by
  cases es with
  | nil => simp
  | cons e es =>
    obtain ⟨he, hes⟩ := known_append.mp h
    exact List.forall_mem_cons.mpr ⟨e.readsBack he, exprs_readBack es hes⟩

theorem option_readsBack (o : Option Expr) (h : Known (optionSubtrees o)) :
    ∀ e ∈ o, e.ReadsBack := by
  cases o with
  | none => simp
  | some e => simpa using e.readsBack h

theorem Call.args_readBack (c : Call) (h : Known c.subtrees) : ∀ e ∈ c.args, e.ReadsBack := by
  obtain ⟨name, args, label, cast⟩ := c
  exact exprs_readBack args h

theorem Item.readsBack (x : Item) (h : Known x.subtrees) : x.ReadsBack := by
  cases x with
  | token t => rfl
  | expr e => exact congrArg Item.expr (e.readsBack h)

theorem items_readBack (items : List Item) (h : Known (itemSubtrees items)) :
    ∀ x ∈ items, x.ReadsBack := by
  cases items with
  | nil => simp
  | cons x xs =>
    obtain ⟨hx, hxs⟩ := known_append.mp h
    exact List.forall_mem_cons.mpr ⟨x.readsBack hx, items_readBack xs hxs⟩

theorem Select.readsBack (s : Select) (h : Known s.subtrees) : s.ReadsBack := by
  obtain ⟨source, columns, filter, groupBy, having, orderBy, limit, distinct⟩ := s
  simp only [Select.subtrees, known_append] at h
  obtain ⟨⟨⟨⟨⟨⟨hcolumns, hsource⟩, hfilter⟩, hgroupBy⟩, hhaving⟩, horderBy⟩, hlimit⟩ := h
  exact {
    source := source_readsBack source hsource
    columns := columnList_readsBack columns hcolumns
    filter := option_readsBack filter hfilter
    groupBy := exprList_readsBack groupBy hgroupBy
    having := option_readsBack having hhaving
    orderBy := orderList_readsBack orderBy horderBy
    limit := limit_readsBack limit hlimit }

theorem source_readsBack (o : Option Source) (h : Known (sourceSubtrees o)) :
    ∀ s ∈ o, s.ReadsBack := by
  cases o with
  | none => simp
  | some s => simpa using s.readsBack h

theorem columnList_readsBack (o : Option (List Column)) (h : Known (columnListSubtrees o)) :
    ∀ columns ∈ o, ∀ c ∈ columns, c.ReadsBack := by
  cases o with
  | none => simp
  | some columns => simpa using columns_readBack columns h

theorem exprList_readsBack (o : Option (List Expr)) (h : Known (exprListSubtrees o)) :
    ∀ es ∈ o, ∀ e ∈ es, e.ReadsBack := by
  cases o with
  | none => simp
  | some es => simpa using exprs_readBack es h

theorem orderList_readsBack (o : Option (List Order)) (h : Known (orderListSubtrees o)) :
    ∀ orders ∈ o, ∀ item ∈ orders, item.ReadsBack := by
  cases o with
  | none => simp
  | some orders => simpa using orders_readBack orders h

theorem limit_readsBack (o : Option Limit) (h : Known (limitSubtrees o)) :
    ∀ l ∈ o, l.ReadsBack := by
  cases o with
  | none => simp
  | some l => simpa using l.readsBack h

theorem Source.readsBack (s : Source) (h : Known s.subtrees) : s.ReadsBack := by
  cases s with
  | ref r => exact Source.readsBack_ref r
  | join j =>
    obtain ⟨hargs, hon⟩ := j.parts_readBack (known_cons.mp h).2
    exact Source.readsBack_join hargs hon
  | select s label => exact Source.readsBack_select (s.readsBack (known_cons.mp h).2) label
  | other => exact absurd rfl (known_cons.mp h).1

theorem sources_readBack (sources : List Source) (h : Known (sourceListSubtrees sources)) :
    ∀ s ∈ sources, s.ReadsBack := by
  cases sources with
  | nil => simp
  | cons s sources =>
    obtain ⟨hs, hsources⟩ := known_append.mp h
    exact List.forall_mem_cons.mpr ⟨s.readsBack hs, sources_readBack sources hsources⟩

theorem Join.parts_readBack (j : Join) (h : Known j.subtrees) :
    (∀ s ∈ j.args, s.ReadsBack) ∧ ∀ e ∈ j.on, e.ReadsBack := by
  obtain ⟨kind, args, on, label⟩ := j
  obtain ⟨hargs, hon⟩ := known_append.mp h
  exact ⟨sources_readBack args hargs, option_readsBack on hon⟩

theorem Column.readsBack (c : Column) (h : Known c.subtrees) : c.ReadsBack := by
  cases c with
  | wildcard star => exact Column.readsBack_wildcard star
  | ref r => exact Column.readsBack_ref r
  | call c => exact Column.readsBack_call (c.args_readBack (known_cons.mp h).2)
  | other => exact absurd rfl (known_cons.mp h).1

theorem columns_readBack (columns : List Column) (h : Known (columnSubtrees columns)) :
    ∀ c ∈ columns, c.ReadsBack := by
  cases columns with
  | nil => simp
  | cons c cs =>
    obtain ⟨hc, hcs⟩ := known_append.mp h
    exact List.forall_mem_cons.mpr ⟨c.readsBack hc, columns_readBack cs hcs⟩

theorem Order.readsBack (o : Order) (h : Known o.subtrees) : o.ReadsBack := by
  obtain ⟨e, direction, nulls⟩ := o
  exact Order.readsBack_of (e.readsBack h)

theorem orders_readBack (orders : List Order) (h : Known (orderSubtrees orders)) :
    ∀ o ∈ orders, o.ReadsBack := by
  cases orders with
  | nil => simp
  | cons o os =>
    obtain ⟨ho, hos⟩ := known_append.mp h
    exact List.forall_mem_cons.mpr ⟨o.readsBack ho, orders_readBack os hos⟩

theorem Limit.readsBack (l : Limit) (h : Known l.subtrees) : l.ReadsBack := by
  obtain ⟨rows, offset⟩ := l
  obtain ⟨hrows, hoffset⟩ := known_append.mp h
  exact Limit.readsBack_of (rows.readsBack hrows) (option_readsBack offset hoffset)

end

end Induction

section Values

/-- No object in a value repeats a key. -/
def Json.DistinctKeys : Json → Prop :=
  Json.fold fun
    | .array items => ∀ p ∈ items, p
    | .object members => (members.map Prod.fst).Nodup ∧ ∀ m ∈ members, m.2
    | _ => True

theorem Json.distinctKeys_array {items : List Json} :
    (Json.array items).DistinctKeys ↔ ∀ v ∈ items, v.DistinctKeys := by
  rw [Json.DistinctKeys, Json.fold_eq]
  exact List.forall_mem_map

theorem Json.distinctKeys_object {members : List (String × Json)} :
    (Json.object members).DistinctKeys ↔
      (members.map Prod.fst).Nodup ∧ ∀ m ∈ members, m.2.DistinctKeys := by
  rw [Json.DistinctKeys, Json.fold_eq]
  refine and_congr (iff_of_eq (congrArg List.Nodup ?_)) List.forall_mem_map
  exact List.map_map

theorem map_eq_self_of_forall {f : α → α} {l : List α} (h : ∀ a ∈ l, f a = a) : l.map f = l :=
  (List.map_congr_left h).trans (List.map_id' l)

mutual

/-- A value without repeated keys is kept as it is. -/
theorem Json.value_reading (v : Json) (h : v.DistinctKeys) : v.reading.value = v := by
  rw [Json.reading, Json.fold_eq]
  cases v with
  | array items =>
    have hitems := items_value_reading items (Json.distinctKeys_array.mp h)
    change Json.array ((items.map Json.reading).map Reading.value) = _
    rw [List.map_map]
    exact congrArg Json.array (map_eq_self_of_forall hitems)
  | object members =>
    obtain ⟨hkeys, hvalues⟩ := Json.distinctKeys_object.mp h
    have hmembers := members_value_reading members hvalues
    change Json.object ((lastWins (members.map fun m => (m.1, m.2.reading))).map
      fun m => (m.1, m.2.value)) = _
    rw [lastWins_map fun _ => Json.reading, lastWins_of_nodup hkeys, List.map_map]
    exact congrArg Json.object (map_eq_self_of_forall fun m hm => Prod.ext rfl (hmembers m hm))
  | _ => rfl

theorem items_value_reading (items : List Json) (h : ∀ v ∈ items, v.DistinctKeys) :
    ∀ v ∈ items, v.reading.value = v := by
  cases items with
  | nil => simp
  | cons v vs =>
    rw [List.forall_mem_cons] at h ⊢
    exact ⟨v.value_reading h.1, items_value_reading vs h.2⟩

theorem members_value_reading (members : List (String × Json))
    (h : ∀ m ∈ members, m.2.DistinctKeys) : ∀ m ∈ members, m.2.reading.value = m.2 := by
  cases members with
  | nil => simp
  | cons m ms =>
    obtain ⟨k, v⟩ := m
    rw [List.forall_mem_cons] at h ⊢
    exact ⟨v.value_reading h.1, members_value_reading ms h.2⟩

end

theorem fields?_written {f : Reading → α} {g : α → Json} {l : List (String × α)}
    (hkeys : (l.map Prod.fst).Nodup) (h : ∀ m ∈ l, f (g m.2).reading = m.2) :
    (Json.object (l.map fun m => (m.1, g m.2))).reading.fields? (fun r => some (f r)) = some l := by
  have hwritten : ((l.map fun m => (m.1, g m.2)).map Prod.fst).Nodup := by
    rwa [List.map_map]
  rw [Json.fields?_object, lastWins_of_nodup hwritten, List.map_map]
  exact congrArg some (map_eq_self_of_forall fun m hm => Prod.ext rfl (h m hm))

end Values

section Statements

/-- The entries of a payload have distinct keys, at every depth. -/
def Payload.DistinctKeys (p : Payload) : Prop :=
  ∀ entries ∈ p.entries, ∀ entry ∈ entries, (Json.object entry).DistinctKeys

/-- Nothing that a statement writes by names given in the query repeats a name: no entry, at any
depth, and no list of assignments. -/
def Statement.DistinctKeys : Statement → Prop
  | .insert i => i.payload.DistinctKeys
  | .upsert u => u.payload.DistinctKeys
  | .update u => ∀ assignments ∈ u.assignments, (assignments.map Prod.fst).Nodup
  | .select _ => True
  | .delete _ => True

theorem Entry.ofReading?_object {entry : Entry} (h : (Json.object entry).DistinctKeys) :
    Entry.ofReading? (Json.object entry).reading = some entry := by
  obtain ⟨hkeys, hvalues⟩ := Json.distinctKeys_object.mp h
  have hwritten := fields?_written (f := Reading.value) (g := id) hkeys
    (members_value_reading entry hvalues)
  rwa [show entry.map (fun m => (m.1, id m.2)) = entry from List.map_id' entry] at hwritten

theorem Cell.ofReading?_toJson (c : Cell) : Cell.ofReading? c.toJson.reading = some c := by
  cases c with
  | val v =>
    simp [Cell.ofReading?, Cell.toJson, Scalar.ofNode?, Json.record?_reading, required?]
  | scalar v => cases v <;> rfl

theorem optional?_ref (o : Option Ref) :
    optional? Ref.form.ofReading? (o.map (Json.reading ∘ Ref.toJson)) = some o :=
  optional?_written (fun _ => nofun) fun r _ => Ref.ofNode?_members r

theorem optional?_cellRows (o : Option (List (List Cell))) :
    optional? Cell.rowsOfReading? (o.map (Json.reading ∘ cellRows)) = some o :=
  optional?_written (fun _ => nofun) fun _ _ =>
    list?_written fun _ _ => list?_written fun c _ => c.ofReading?_toJson

theorem Payload.ofMembers?_of_get? {p : Payload} (h : p.DistinctKeys)
    {members : List (String × Json)}
    (hmembers : ∀ key ∈ ["columns", "entries", "values", "rows"],
      (Json.object members).get? key = (Json.object p.members).get? key) :
    Payload.ofMembers? (lastWins (members.map fun (k, v) => (k, v.reading))) = some p := by
  have hcolumns : optional? (Reading.list? Reading.text?)
      (p.columns.map (Json.reading ∘ textArray)) = some p.columns :=
    optional?_written (fun _ => nofun) fun texts _ => list?_textArray texts
  have hentries : optional? (Reading.list? Entry.ofReading?)
      (p.entries.map (Json.reading ∘ fun entries => .array (entries.map .object))) =
      some p.entries :=
    optional?_written (fun _ => nofun) fun entries hentries =>
      list?_written fun entry hentry => Entry.ofReading?_object (h entries hentries entry hentry)
  simp only [List.forall_mem_cons] at hmembers
  simp [Payload.ofMembers?, Json.member?_reading, hmembers, Payload.members, hcolumns, hentries,
    optional?_cellRows]

theorem Insert.ofJson?_toJson {i : Insert} (h : i.payload.DistinctKeys) :
    Insert.form.ofJson? i.toJson = some i := by
  have hpayload : Payload.ofMembers? (lastWins ((writeMember "into" Ref.toJson i.into ++
      i.payload.members ++ writeMember "as" .text i.label).map fun (k, v) => (k, v.reading))) =
      some i.payload :=
    Payload.ofMembers?_of_get? h (by simp)
  change Insert.ofReading? (Json.object _).reading = _
  rw [Insert.ofReading?, Json.node_reading]
  simp only [Json.node, Node.map, Node.settle, hpayload, Json.member?_reading]
  simp [Payload.members, optional?_ref]

theorem Upsert.ofJson?_toJson {u : Upsert} (h : u.payload.DistinctKeys) :
    Upsert.form.ofJson? u.toJson = some u := by
  have hpayload : Payload.ofMembers? (lastWins ((writeMember "upsert" Ref.toJson u.upsert ++
      writeMember "into" Ref.toJson u.into ++ u.payload.members).map
        fun (k, v) => (k, v.reading))) = some u.payload :=
    Payload.ofMembers?_of_get? h (by simp)
  change Upsert.ofReading? (Json.object _).reading = _
  rw [Upsert.ofReading?, Json.node_reading]
  simp only [Json.node, Node.map, Node.settle, hpayload, Json.member?_reading]
  simp [Payload.members, optional?_ref]

theorem Update.ofJson?_toJson {u : Update}
    (hassigned : ∀ m ∈ u.assignments.getD [], m.2.ReadsBack)
    (hfilter : ∀ e ∈ u.filter, e.ReadsBack)
    (hkeys : ∀ assignments ∈ u.assignments, (assignments.map Prod.fst).Nodup) :
    Update.form.ofJson? u.toJson = some u := by
  have hassignments : optional? (Reading.fields? fun v => some v.expr)
      (u.assignments.map (Json.reading ∘ assignmentObject)) = some u.assignments := by
    refine optional?_written (fun _ => nofun) fun assignments h => ?_
    rw [h] at hassigned
    exact fields?_written (hkeys assignments h) hassigned
  change Update.ofReading? (Json.object _).reading = _
  simp [Update.ofReading?, Json.record?_reading, optional?_ref, hassignments,
    optional?_expr hfilter]

theorem Delete.ofJson?_toJson {d : Delete} (hfilter : ∀ e ∈ d.filter, e.ReadsBack) :
    Delete.form.ofJson? d.toJson = some d := by
  change Delete.ofReading? (Json.object _).reading = _
  simp [Delete.ofReading?, Json.record?_reading, optional?_ref, optional?_expr hfilter]

/-- The body of a statement is read back under the statement's keyword. -/
theorem Statement.ofBody?_toJson {s : Statement} (hknown : Known s.subtrees)
    (hkeys : s.DistinctKeys) : Statement.ofBody? s.keyword s.toJson = some s := by
  cases s with
  | select s =>
    have hselect : Select.form.ofJson? (.object s.members) = some s :=
      (Json.select_reading _).trans (Select.ofNode?_members (s.readsBack hknown))
    exact congrArg (Option.map Statement.select) hselect
  | insert i => exact congrArg (Option.map Statement.insert) (Insert.ofJson?_toJson hkeys)
  | update u =>
    obtain ⟨hassigned, hfilter⟩ := known_append.mp hknown
    have hupdate := Update.ofJson?_toJson
      (List.forall_mem_map.mp (exprs_readBack _ hassigned)) (option_readsBack _ hfilter) hkeys
    exact congrArg (Option.map Statement.update) hupdate
  | delete d =>
    have hdelete := Delete.ofJson?_toJson (option_readsBack d.filter hknown)
    exact congrArg (Option.map Statement.delete) hdelete
  | upsert u => exact congrArg (Option.map Statement.upsert) (Upsert.ofJson?_toJson hkeys)

theorem Statement.toJson_ne_null (s : Statement) : s.toJson ≠ .null := by
  cases s <;> exact nofun

/-- A query with one statement and no other key is that statement alone. -/
theorem Query.eq_toQuery {q : Query} (hone : q.statements.length = 1) (hothers : q.others = []) :
    ∃ s, q = s.toQuery ∧ q.statements = [s] := by
  obtain ⟨select, insert, update, delete, upsert, others⟩ := q
  subst hothers
  cases select <;> cases insert <;> cases update <;> cases delete <;> cases upsert <;>
    simp [Query.statements, Statement.toQuery] at hone ⊢

/-- Reading undoes writing: a query with one statement is read back from what it is written as, if
no part of it has an unknown form and no name is repeated where the query gives the names. -/
theorem Query.roundtrip {q : Query} (hone : q.statements.length = 1) (hothers : q.others = [])
    (hknown : ∀ t ∈ q.subtrees, ¬ t.isOther) (hkeys : ∀ s ∈ q.statements, s.DistinctKeys) :
    Query.form.ofJson? q.toJson = some q := by
  obtain ⟨s, hq, hs⟩ := Query.eq_toQuery hone hothers
  have hwritten : q.toJson = .object [(s.keyword.text, s.toJson)] := by
    rw [Query.toJson, hs]
    rfl
  have hparts : Known s.subtrees := by
    rwa [Query.subtrees, hs, List.flatMap_singleton] at hknown
  have hbody := Statement.ofBody?_toJson hparts (hkeys s (by simp [hs]))
  rw [hwritten, Query.ofJson?_single _ s.toJson_ne_null, hbody, Option.map_some, hq]

/-- An update that takes a value from a select without source, under a condition on an ordered
select. -/
def updateFromSelects : Query where
  select := none
  insert := none
  update := some {
    target := some ⟨["A"], none, none, false⟩
    assignments := some [
      ("x", .bareSelect ⟨none, some [.wildcard true], none, none, none, none, none, true⟩),
      ("y", .val .null)]
    filter := some (.compound [.expr (.ref ⟨["z"], none, none, false⟩), .token "in",
      .expr (.select {
        source := some (.ref ⟨["B"], none, none, false⟩)
        columns := some [.call ⟨"max", [.ref ⟨["z"], none, none, false⟩], some "m", none⟩]
        filter := none
        groupBy := none
        having := none
        orderBy := some [⟨.bareSelect ⟨none, none, none, none, none, none, none, false⟩, .desc,
          some .last⟩]
        limit := some ⟨.val (.number (.integer 1)), none⟩
        distinct := false } none)]) }
  delete := none
  upsert := none
  others := []

theorem updateFromSelects_roundtrip :
    updateFromSelects.statements.length = 1 ∧ updateFromSelects.others = [] ∧
      (∀ t ∈ updateFromSelects.subtrees, ¬ t.isOther) ∧
      (∀ s ∈ updateFromSelects.statements, s.DistinctKeys) ∧
      Query.form.ofJson? updateFromSelects.toJson = some updateFromSelects := by
  have hall : updateFromSelects.subtrees.all (!·.isOther) = true := rfl
  have hknown : ∀ t ∈ updateFromSelects.subtrees, ¬ t.isOther := by
    simpa [List.all_eq_true] using hall
  have hkeys : ∀ s ∈ updateFromSelects.statements, s.DistinctKeys := by
    simp [updateFromSelects, Query.statements, Statement.DistinctKeys]
  exact ⟨rfl, rfl, hknown, hkeys, Query.roundtrip rfl rfl hknown hkeys⟩

end Statements

end QueryNotation
