import HarnessAgent.Foundation.Json

/-! # Message chunks

What a provider streams for a query. The result chunk is the end of the stream: it
carries the session to resume, the usage, and whether the query failed.
-/

namespace HarnessAgent

namespace Provider

structure TokenUsage where
  input : Nat
  output : Nat
  total : Option Nat := none
  cost : Option F64 := none
  deriving DecidableEq

structure ResultFields where
  sessionId : Option String := none
  tokens : Option TokenUsage := none
  structuredOutput : Option Value := none
  isError : Option Bool := none
  errorSubtype : Option String := none
  errors : Option (List String) := none
  cost : Option F64 := none
  stopReason : Option String := none
  numTurns : Option Nat := none
  modelUsage : Option Members := none
  deriving DecidableEq

inductive MessageChunk
  | assistant (content : String) (flush : Option Bool)
  | system (content : String)
  | thinking (content : String)
  | result (fields : ResultFields)
  | rateLimit (rateLimitInfo : Members)
  | tool (toolName : String) (toolInput : Option Value) (toolCallId : Option String)
  | toolResult (toolName toolOutput : String) (toolCallId : Option String)
  | workflowDispatch (workerConversationId workflowName : String)
  deriving DecidableEq

def MessageChunk.isResult : MessageChunk → Bool
  | .result _ => true
  | _ => false

/-- Exactly one result, at the end; it reports an error unless the query finished
normally. -/
def EndsInResult (normal : Prop) (chunks : List MessageChunk) : Prop :=
  ∃ before fields, chunks = before ++ [.result fields] ∧
    (∀ chunk ∈ before, chunk.isResult = false) ∧ (¬ normal → fields.isError = some true)

def NoResult (chunks : List MessageChunk) : Prop :=
  ∀ chunk ∈ chunks, chunk.isResult = false

theorem noResult_nil : NoResult [] := by
  intro chunk member
  cases member

theorem noResult_singleton (other : chunk.isResult = false) : NoResult [chunk] := by
  intro only member
  rw [List.mem_singleton.mp member]
  exact other

theorem NoResult.append (first : NoResult left) (second : NoResult right) :
    NoResult (left ++ right) := by
  intro chunk member
  rcases List.mem_append.mp member with early | late
  · exact first chunk early
  · exact second chunk late

variable {chunks : List MessageChunk} {normal : Prop}

theorem NoResult.not_endsInResult (none : NoResult chunks) : ¬ EndsInResult normal chunks := by
  rintro ⟨before, fields, whole, -, -⟩
  have absent := none (.result fields) (by simp [whole])
  cases absent

theorem nil_not_endsInResult (normal : Prop) : ¬ EndsInResult normal [] :=
  noResult_nil.not_endsInResult

theorem endsInResult_result_cons {fields : ResultFields} {later : List MessageChunk} :
    EndsInResult normal (.result fields :: later) ↔
      later = [] ∧ (¬ normal → fields.isError = some true) := by
  constructor
  · rintro ⟨before, last, whole, absent, reported⟩
    cases before with
    | nil =>
        cases whole
        exact ⟨rfl, reported⟩
    | cons first rest =>
        cases whole
        cases absent (.result fields) List.mem_cons_self
  · rintro ⟨rfl, reported⟩
    exact ⟨[], fields, rfl, noResult_nil, reported⟩

theorem endsInResult_singleton {fields : ResultFields} :
    EndsInResult normal [.result fields] ↔ (¬ normal → fields.isError = some true) := by
  rw [endsInResult_result_cons]
  exact and_iff_right rfl

theorem endsInResult_append_iff (none : NoResult before) :
    EndsInResult normal (before ++ chunks) ↔ EndsInResult normal chunks := by
  constructor
  · rintro ⟨earlier, fields, whole, absent, reported⟩
    rcases List.eq_nil_or_concat chunks with rfl | ⟨rest, last, rfl⟩
    · rw [List.append_nil] at whole
      have single := none (.result fields) (by simp [whole])
      cases single
    · rw [List.concat_eq_append, ← List.append_assoc] at whole
      obtain ⟨front, final⟩ := List.append_inj' whole rfl
      refine ⟨rest, fields, by rw [List.concat_eq_append, final], ?_, reported⟩
      intro chunk member
      apply absent
      rw [← front]
      exact List.mem_append_right before member
  · rintro ⟨earlier, fields, whole, absent, reported⟩
    exact ⟨before ++ earlier, fields, by rw [whole, List.append_assoc], none.append absent, reported⟩

theorem endsInResult_cons_iff (other : chunk.isResult = false) :
    EndsInResult normal (chunk :: chunks) ↔ EndsInResult normal chunks :=
  endsInResult_append_iff (noResult_singleton other)

def errorResult (errorSubtype : String) (errors : List String) : MessageChunk :=
  .result { isError := some true, errorSubtype := some errorSubtype, errors := some errors }

theorem endsInResult_errorResult (normal : Prop) (errorSubtype : String) (errors : List String) :
    EndsInResult normal [errorResult errorSubtype errors] :=
  endsInResult_singleton.mpr fun _ => rfl

end Provider

end HarnessAgent
