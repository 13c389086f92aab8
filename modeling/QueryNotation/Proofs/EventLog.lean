import QueryNotation.Proofs.Places

/-! What a call reports. A failed call reports its failure once, with its text, whichever step
failed; a compilation that succeeds reports its start, the fields that it dropped and its end, and
nothing else. The one call that reports nothing is that on a text which is no JSON. -/

namespace QueryNotation

/-- Whether an event reports a failure. -/
def Event.isFailure (event : Event) : Bool :=
  event.message = "Validation failed" || event.message = "Compilation failed"

/-- One of the events reports a failure, with the text of `f`. -/
def FailureLog (f : Failure) (events : List Event) : Prop :=
  ∃ event, events.filter Event.isFailure = [event] ∧ event.fields = [("error", f.message)]

/-- The events are those of a compilation of `q` that succeeds: it starts with the statement of `q`
and ends with the number of parameters, and between are the fields that were dropped. -/
def SuccessLog (c : Compiler) (q : Query) (events : List Event) : Prop :=
  events.filter Event.isFailure = [] ∧
    ∃ statement tree params, ∃ fields : List String, q.statement? = some statement ∧
      (q.lower c.nested 0).outcome = .ok (tree, params) ∧
      events = .compiling c.dialect.name statement.keyword.text ::
        fields.map Event.dropped ++ [.compiled params]

/-- A call reports all that it has to, where a compilation that succeeds is one of a query that
`Writes` holds of. -/
def Logged.Complete (c : Compiler) (Writes : Query → Prop) (l : Logged α) : Prop :=
  match l.result with
  | .error f => FailureLog f l.events
  | .ok _ => ∃ q, Writes q ∧ SuccessLog c q l.events

theorem filter_isFailure_dropped (fields : List String) :
    (fields.map Event.dropped).filter Event.isFailure = [] := by
  rw [List.filter_eq_nil_iff]
  intro event hevent
  obtain ⟨field, -, rfl⟩ := List.mem_map.mp hevent
  exact Bool.false_ne_true

theorem Query.ofJson?_of_ofValidJson {v : Json} {q : Query} (h : Query.ofValidJson v = .ok q) :
    Query.form.ofJson? v = some q := by
  obtain ⟨_, -, hread⟩ := Outcome.bind_eq_ok.mp h
  split at hread
  · rename_i q' hform
    simp only [Outcome.bind_eq_ok, Outcome.pure_eq_ok] at hread
    obtain ⟨_, -, rfl⟩ := hread
    exact hform
  · exact absurd hread Outcome.throw_ne_ok

namespace Compiler

variable (c : Compiler)

/-- A failure after events that report none is reported once. -/
theorem failureLog_failed {events : List Event} (h : events.filter Event.isFailure = [])
    (f : Failure) : FailureLog f (failed events f).events := by
  refine ⟨.compilationFailed f, ?_, rfl⟩
  rw [failed, List.filter_append, h]
  rfl

theorem complete_compileValid (q : Query) : (c.compileValid q).Complete c (· = q) := by
  have hstart (statement : String) (fields : List String) :
      (Event.compiling c.dialect.name statement :: fields.map Event.dropped).filter
        Event.isFailure = [] := filter_isFailure_dropped fields
  unfold compileValid
  dsimp only
  cases hlower : (q.lower c.nested 0).outcome with
  | error e => exact failureLog_failed (hstart _ _) _
  | ok lowered =>
    obtain ⟨tree, params⟩ := lowered
    cases hgenerate : c.dialect.generate tree with
    | error e =>
      dsimp only
      rw [hgenerate]
      exact failureLog_failed (hstart _ _) _
    | ok sql =>
      dsimp only
      rw [hgenerate]
      -- A query without a statement is not lowered, so there is a keyword to report.
      cases hstatement : q.statement? with
      | none =>
        rw [Query.lower, hstatement] at hlower
        cases hlower
      | some statement =>
        refine ⟨q, rfl, ?_, statement, tree, params, _, hstatement, hlower, rfl⟩
        rw [List.filter_append, hstart]
        rfl

theorem complete_compileQuery (q : Query) : (c.compileQuery q).Complete c (· = q) := by
  unfold compileQuery
  cases q.validate with
  | error e => exact failureLog_failed rfl _
  | ok u => exact c.complete_compileValid q

theorem complete_map {Writes Writes' : Query → Prop} {l : Logged α} (h : l.Complete c Writes)
    (hwrites : ∀ q, Writes q → Writes' q) (f : α → β) : (l.map f).Complete c Writes' := by
  obtain ⟨events, result⟩ := l
  cases result with
  | error e => exact h
  | ok a =>
    obtain ⟨q, hq, hlog⟩ := h
    exact ⟨q, hwrites q hq, hlog⟩

theorem complete_compileJson (v : Json) :
    (c.compileJson v).Complete c fun q => Query.form.ofJson? v = some q := by
  unfold compileJson
  cases hvalid : Query.ofValidJson v with
  | error e => exact ⟨.validationFailed e, rfl, rfl⟩
  | ok q =>
    have hread : Query.form.ofJson? v = some q := Query.ofJson?_of_ofValidJson hvalid
    apply c.complete_map (c.complete_compileQuery q)
    rintro _ rfl
    exact hread

/-- A call on a text reports all that it has to exactly if the text is read as JSON. -/
theorem complete_compileText_iff (parse : String → Option Json) (s : String) :
    ((c.compileText parse s).Complete c fun q => (parse s).bind Query.form.ofJson? = some q) ↔
      (parse s).isSome := by
  unfold compileText
  cases parse s with
  | none =>
    apply iff_of_false
    · rintro ⟨event, hevents, -⟩
      cases hevents
    · exact Bool.false_ne_true
  | some v => exact iff_of_true (c.complete_compileJson v) rfl

/-- Every call on a query or a JSON value reports what it did: its failure, once and with the text
of the failure, or else the start, the dropped fields and the end. So does a call on a text that is
read as JSON, whatever reads it. On any other text a call fails and reports nothing. -/
theorem calls_complete :
    (∀ q, (c.compileQuery q).Complete c (· = q)) ∧
    (∀ v, (c.compileJson v).Complete c fun q => Query.form.ofJson? v = some q) ∧
    (∀ (parse : String → Option Json) (s : String),
      ((c.compileText parse s).Complete c
        fun q => (parse s).bind Query.form.ofJson? = some q) ↔ (parse s).isSome) ∧
    ∀ (parse : String → Option Json) (s : String), (parse s).isSome ∨
      (c.compileText parse s).result = .error (.validation .malformed) ∧
        (c.compileText parse s).events = [] := by
  refine ⟨c.complete_compileQuery, c.complete_compileJson, c.complete_compileText_iff, ?_⟩
  intro parse s
  rw [compileText]
  cases parse s with
  | none => exact .inr ⟨rfl, rfl⟩
  | some v => exact .inl rfl

/-- A text that ends before its object does is refused, and the failure is not reported. -/
theorem openText_unreported :
    Json.ofText? "\x7b" = none ∧
      (standard.compileText Json.ofText? "\x7b").result = .error (.validation .malformed) ∧
      ¬ FailureLog (.validation .malformed) (standard.compileText Json.ofText? "\x7b").events := by
  have hnone : Json.ofText? "\x7b" = none := by with_unfolding_all rfl
  refine ⟨hnone, ?_⟩
  rw [compileText, hnone]
  refine ⟨rfl, ?_⟩
  rintro ⟨event, hone, -⟩
  cases hone

end Compiler

end QueryNotation
