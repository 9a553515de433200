import HarnessAgent.Provider.ClaudeTranscript

/-! # Malformed lines

A line of the output that is not JSON is passed over by the loop over the events, but the
first event is waited for elsewhere. What an attempt yields is determined by the kinds of
the lines, without their numbers.
-/

namespace HarnessAgent

open Provider

namespace NdjsonStream

open Framing

variable {ε : Type}

inductive Kind
  | value (value : Value)
  | malformed
  | failed
  deriving DecidableEq

def Item.kind : Item ε → Kind
  | .value event => .value event
  | .io _ => .failed
  | .parseError _ _ _ => .malformed

variable (fromStr : String → Except ε Value)

def textKind (text : List Char) : Kind :=
  match fromStr (String.ofList text) with
  | .ok value => .value value
  | .error _ => .malformed

def lineKinds (rawLine : List UInt8) : List Kind :=
  if (stripLineEnd rawLine).isEmpty then []
  else ((Text.fromUtf8 (stripLineEnd rawLine)).map (textKind fromStr)).toList

def restKinds (buffer : List UInt8) : List Kind :=
  if buffer.isEmpty then []
  else (((Text.fromUtf8 buffer).map Text.trim).filter (· ≠ [])).toList.map (textKind fromStr)

def byteKinds (bytes : List UInt8) : List Kind :=
  (lineDecoder.drain bytes).items.flatMap (lineKinds fromStr) ++
    restKinds fromStr (restOf (lineDecoder.drain bytes))

def lineBytes (lines : List (List UInt8)) : List UInt8 :=
  (lines.map (· ++ [10])).flatten

variable {fromStr}

theorem kind_parseLine (lineNo : Nat) (line : List Char) :
    (parseLine fromStr lineNo (String.ofList line)).kind = textKind fromStr line := by
  rw [parseLine, textKind]
  cases fromStr (String.ofList line) with
  | ok value => rfl
  | error source => rfl

theorem kinds_takeLine (progress : Progress ε) (rawLine : List UInt8) :
    (takeLine fromStr progress rawLine).items.map Item.kind =
      progress.items.map Item.kind ++ lineKinds fromStr rawLine := by
  rw [takeLine, lineKinds]
  dsimp only
  split
  · rw [List.append_nil]
  · cases Text.fromUtf8 (stripLineEnd rawLine) with
    | none => exact (List.append_nil _).symm
    | some line =>
        dsimp only
        rw [List.map_append, List.map_singleton, kind_parseLine]
        rfl

theorem kinds_foldl_takeLine (progress : Progress ε) (rawLines : List (List UInt8)) :
    (rawLines.foldl (takeLine fromStr) progress).items.map Item.kind =
      progress.items.map Item.kind ++ rawLines.flatMap (lineKinds fromStr) := by
  induction rawLines generalizing progress with
  | nil => exact (List.append_nil _).symm
  | cons rawLine rest induction =>
      rw [List.foldl_cons, induction, kinds_takeLine, List.flatMap_cons, List.append_assoc]

theorem kinds_finish (state : State ε) :
    (finish fromStr state).map Item.kind =
      state.progress.items.map Item.kind ++ restKinds fromStr state.buffer := by
  rw [finish, restKinds]
  split
  · rw [List.append_nil]
  · cases Text.fromUtf8 state.buffer with
    | none => exact (List.append_nil _).symm
    | some line =>
        cases trimmed : Text.trim line with
        | nil => simp [trimmed]
        | cons first more =>
            simp only [Option.map_some, Option.filter, trimmed, ne_eq, reduceCtorEq,
              not_false_eq_true, decide_true, if_true, Option.toList_some, List.map_singleton,
              List.isEmpty_cons, Bool.false_eq_true, if_false, List.map_append, kind_parseLine]

theorem kinds_fromByteStream (chunks : List (List UInt8)) :
    (fromByteStream fromStr (chunks.map .ok)).map Item.kind =
      byteKinds fromStr chunks.flatten := by
  rw [fromByteStream_eq, kinds_finish, stateOf, kinds_foldl_takeLine, byteKinds]
  rfl

theorem byteKinds_lineBytes {lines : List (List UInt8)} (separate : ∀ line ∈ lines, 10 ∉ line)
    (rest : List UInt8) :
    byteKinds fromStr (lineBytes lines ++ rest) =
      lines.flatMap (fun line => lineKinds fromStr (line ++ [10])) ++ byteKinds fromStr rest := by
  have framed : ∀ rawLine ∈ lines.map (· ++ [10]), ∀ rest,
      lineDecoder.decode (id rawLine ++ rest) = .frame rawLine rest := by
    intro rawLine member rest
    rcases List.mem_map.mp member with ⟨line, listed, rfl⟩
    change cutLine _ = _
    rw [cutLine]
    have found : cut [10] (id (line ++ [10]) ++ rest) = some (line, rest) :=
      cut_of_not_mem (separate line listed) rest
    rw [found]
  have drained := Decoder.drain_flatten framed rest
  rw [List.map_id] at drained
  rw [byteKinds, lineBytes, drained, Drained.after, List.flatMap_append, List.flatMap_map,
    List.append_assoc]
  rfl

/-- Without a line feed everything is left to the end. -/
theorem byteKinds_rest (oneLine : 10 ∉ buffer) :
    byteKinds fromStr buffer = restKinds fromStr buffer := by
  have more : lineDecoder.decode buffer = .more := by
    change cutLine buffer = _
    rw [cutLine, cut_eq_none_of_not_mem oneLine]
  rw [byteKinds, Decoder.drain_of_more more]
  rfl

theorem failed_not_mem_byteKinds (bytes : List UInt8) : .failed ∉ byteKinds fromStr bytes := by
  have other : ∀ text, textKind fromStr text ≠ .failed := by
    intro text same
    rw [textKind] at same
    split at same
    · cases same
    · cases same
  intro member
  rcases List.mem_append.mp member with inLine | inRest
  · rcases List.mem_flatMap.mp inLine with ⟨rawLine, -, inside⟩
    rw [lineKinds] at inside
    split at inside
    · cases inside
    · rcases Option.map_eq_some_iff.mp (Option.mem_toList.mp inside) with ⟨text, -, same⟩
      exact other text same
  · rw [restKinds] at inRest
    split at inRest
    · cases inRest
    · rcases List.mem_map.mp inRest with ⟨text, -, same⟩
      exact other text same

end NdjsonStream

namespace Claude

open NdjsonStream

variable {ε : Type} {library : Library ε}

def yielded : AttemptOutcome → Option (List MessageChunk)
  | .finished chunks => some chunks
  | .failed _ => none
  | .panicked => none

def exitsWell (stdout : List (List UInt8)) (stderr : List String) : Attempt where
  started := .ok { stdout := stdout.map .ok, stderr, exitCode := some 0 }

def kindChunks (render : Value → String) : List Kind → Option (List MessageChunk)
  | [] => some []
  | .value event :: rest => do
      let more ← parseClaudeStreamJson render event
      let others ← kindChunks render rest
      pure (more ++ others)
  | .failed :: _ => none
  | .malformed :: rest => kindChunks render rest

def startedChunks (render : Value → String) : List Kind → Option (List MessageChunk)
  | [] => some []
  | .value event :: rest => kindChunks render (.value event :: rest)
  | .failed :: _ => none
  | .malformed :: _ => none

theorem eventChunks_eq_kindChunks (items : List (NdjsonStream.Item ε)) :
    eventChunks library items = kindChunks library.render (items.map Item.kind) := by
  induction items with
  | nil => rfl
  | cons item rest induction =>
      cases item with
      | value event => rw [eventChunks, List.map_cons, Item.kind, kindChunks, induction]
      | io message => rfl
      | parseError lineNo line source =>
          rw [eventChunks, List.map_cons, Item.kind, kindChunks, induction]

theorem yielded_eq_some_iff {outcome : AttemptOutcome} {chunks : List MessageChunk} :
    yielded outcome = some chunks ↔ outcome = .finished chunks := by
  cases outcome with
  | finished others => exact ⟨fun same => by cases same; rfl, fun same => by cases same; rfl⟩
  | failed message => exact ⟨nofun, nofun⟩
  | panicked => exact ⟨nofun, nofun⟩

theorem yielded_exitsWell (library : Library ε) (timeoutMs : Nat) (stdout : List (List UInt8))
    (stderr : List String) :
    yielded (runSingleAttempt library timeoutMs (exitsWell stdout stderr)) =
      startedChunks library.render (byteKinds library.fromStr stdout.flatten) := by
  have running : ∀ process, (exitsWell stdout stderr).started = .ok process →
      ∀ index, process.cancelledAt index = false := by
    intro process started index
    cases started
    rfl
  apply Option.ext
  intro chunks
  rw [yielded_eq_some_iff, runSingleAttempt_eq_finished running, ← kinds_fromByteStream]
  constructor
  · rintro ⟨process, started, -, -, first, mapped⟩
    cases started
    rw [eventChunks_eq_kindChunks] at mapped
    cases items : fromByteStream library.fromStr (stdout.map .ok) with
    | nil =>
        rw [items] at mapped
        exact mapped
    | cons item rest =>
        rcases first item (by rw [items]; rfl) with ⟨event, rfl⟩
        rw [items] at mapped
        exact mapped
  · intro yields
    refine ⟨_, rfl, rfl, fun code exited => (Option.some.inj exited).symm, ?_, ?_⟩
    · intro item first
      cases items : fromByteStream library.fromStr (stdout.map .ok) with
      | nil =>
          rw [items] at first
          cases first
      | cons other rest =>
          rw [items] at first yields
          cases first
          cases item with
          | value event => exact ⟨event, rfl⟩
          | io message => cases yields
          | parseError lineNo line source => cases yields
    · rw [eventChunks_eq_kindChunks]
      cases items : (fromByteStream library.fromStr (stdout.map .ok)).map Item.kind with
      | nil =>
          rw [items] at yields
          exact yields
      | cons kind rest =>
          rw [items] at yields
          cases kind with
          | value event => exact yields
          | failed => cases yields
          | malformed => cases yields

def endedBytes (ended : Bool) (line : List UInt8) : List UInt8 :=
  if ended then line ++ [10] else line

/-- The items of a line, as one among others or as what is left at the end. -/
def endedKinds (fromStr : String → Except ε Value) (ended : Bool) (line : List UInt8) :
    List Kind :=
  if ended then lineKinds fromStr (line ++ [10]) else restKinds fromStr line

def Malformed (fromStr : String → Except ε Value) (ended : Bool) (line : List UInt8) : Prop :=
  endedKinds fromStr ended line = [] ∨ endedKinds fromStr ended line = [.malformed]

/-- The output fails an attempt: it starts with a line that is not JSON, or an output of a
tool is cut inside a character. -/
def FailsAnyway (render : Value → String) (kinds : List Kind) : Prop :=
  kinds.head? = some .malformed ∨ ∃ event, .value event ∈ kinds ∧ ¬CutsCleanly render event

/-- The line is not the first one that is UTF-8 and not empty, or the attempt fails without
it, too. -/
def PassedOver (library : Library ε) (front : List (List UInt8)) (bad back : List UInt8)
    (ended : Bool) : Prop :=
  (∃ line ∈ front, lineKinds library.fromStr (line ++ [10]) ≠ []) ∨
    endedKinds library.fromStr ended bad = [] ∨
    FailsAnyway library.render (byteKinds library.fromStr back)

theorem kindChunks_insert (render : Value → String) (front back : List Kind) :
    kindChunks render (front ++ .malformed :: back) = kindChunks render (front ++ back) := by
  induction front with
  | nil => rw [List.nil_append, kindChunks, List.nil_append]
  | cons kind front induction =>
      cases kind with
      | value event => rw [List.cons_append, List.cons_append, kindChunks, kindChunks, induction]
      | malformed => exact induction
      | failed => rfl

theorem kindChunks_eq_none_iff {render : Value → String} (read : .failed ∉ kinds) :
    kindChunks render kinds = none ↔ ∃ event, .value event ∈ kinds ∧ ¬CutsCleanly render event := by
  induction kinds with
  | nil => simp [kindChunks]
  | cons kind rest induction =>
      have later := induction fun member => read (List.mem_cons_of_mem _ member)
      cases kind with
      | failed => exact absurd List.mem_cons_self read
      | malformed =>
          rw [kindChunks, later]
          simp
      | value event =>
          have here := parseClaudeStreamJson_eq_none_iff render event
          rw [kindChunks]
          cases parsed : parseClaudeStreamJson render event with
          | none =>
              refine iff_of_true rfl ⟨event, List.mem_cons_self, here.mp parsed⟩
          | some more =>
              have clean : CutsCleanly render event := by
                by_contra unclean
                rw [here.mpr unclean] at parsed
                cases parsed
              have others : kindChunks render rest = none ↔
                  ∃ other, .value other ∈ (.value event :: rest) ∧ ¬CutsCleanly render other := by
                rw [later]
                apply exists_congr
                intro other
                apply and_congr_left
                intro unclean
                rw [List.mem_cons]
                refine ⟨.inr, fun member => member.resolve_left ?_⟩
                intro same
                cases same
                exact unclean clean
              rw [← others]
              cases kindChunks render rest with
              | none => exact iff_of_true rfl rfl
              | some more => exact iff_of_false (Option.some_ne_none _) (Option.some_ne_none _)

theorem startedChunks_eq_none_iff {render : Value → String} (read : .failed ∉ kinds) :
    startedChunks render kinds = none ↔ FailsAnyway render kinds := by
  rw [FailsAnyway, ← kindChunks_eq_none_iff read]
  cases kinds with
  | nil => simp [startedChunks, kindChunks]
  | cons kind rest =>
      cases kind with
      | failed => exact absurd List.mem_cons_self read
      | malformed => exact iff_of_true rfl (.inl rfl)
      | value event => simp [startedChunks]

theorem startedChunks_insert (render : Value → String) {front : List Kind}
    (readBack : .failed ∉ back) :
    startedChunks render (front ++ .malformed :: back) = startedChunks render (front ++ back) ↔
      front ≠ [] ∨ FailsAnyway render back := by
  cases front with
  | nil =>
      rw [List.nil_append, List.nil_append, startedChunks, eq_comm,
        startedChunks_eq_none_iff readBack]
      simp
  | cons kind front =>
      apply iff_of_true
      · cases kind with
        | value event => exact kindChunks_insert render (.value event :: front) back
        | malformed => rfl
        | failed => rfl
      · exact .inl (List.cons_ne_nil _ _)

/-- A malformed line makes no difference to what an attempt yields exactly if it is passed
over: only the first line that is looked at may not be malformed. -/
theorem runSingleAttempt_inserted_iff (library : Library ε) (timeoutMs : Nat)
    (stderr : List String) {front : List (List UInt8)} {bad back : List UInt8} {ended : Bool}
    (separate : ∀ line ∈ front, 10 ∉ line) (oneLine : 10 ∉ bad)
    (last : ended = false → back = []) (malformed : Malformed library.fromStr ended bad)
    {plain inserted : List (List UInt8)}
    (plainBytes : plain.flatten = lineBytes front ++ back)
    (insertedBytes : inserted.flatten = lineBytes front ++ (endedBytes ended bad ++ back)) :
    yielded (runSingleAttempt library timeoutMs (exitsWell inserted stderr)) =
        yielded (runSingleAttempt library timeoutMs (exitsWell plain stderr)) ↔
      PassedOver library front bad back ended := by
  have badKinds : byteKinds library.fromStr (endedBytes ended bad ++ back) =
      endedKinds library.fromStr ended bad ++ byteKinds library.fromStr back := by
    cases ended with
    | true =>
        have one := @byteKinds_lineBytes _ library.fromStr [bad]
          (List.forall_mem_singleton.mpr oneLine) back
        rw [lineBytes, List.map_singleton, List.flatten_singleton, List.flatMap_singleton] at one
        exact one
    | false =>
        rw [last rfl, endedBytes, endedKinds]
        simp only [Bool.false_eq_true, if_false, List.append_nil]
        rw [byteKinds_rest oneLine, byteKinds_rest List.not_mem_nil]
        exact (List.append_nil _).symm
  have frontKinds : front.flatMap (fun line => lineKinds library.fromStr (line ++ [10])) ≠ [] ↔
      ∃ line ∈ front, lineKinds library.fromStr (line ++ [10]) ≠ [] := by
    rw [ne_eq, List.flatMap_eq_nil_iff]
    simp
  rw [yielded_exitsWell, yielded_exitsWell, plainBytes, insertedBytes,
    byteKinds_lineBytes separate, byteKinds_lineBytes separate, badKinds]
  rcases malformed with nothing | one
  · rw [nothing, List.nil_append]
    exact iff_of_true rfl (.inr (.inl nothing))
  · rw [one, List.singleton_append, startedChunks_insert _ (failed_not_mem_byteKinds back),
      frontKinds]
    constructor
    · rintro (inFront | fails)
      · exact .inl inFront
      · exact .inr (.inr fails)
    · rintro (inFront | nothing | fails)
      · exact .inl inFront
      · rw [nothing] at one
        cases one
      · exact .inr fails

def doneText : String :=
  "\x7b\"type\":\"result\"\x7d"

def doneEvent : Value :=
  .object [("type", .string "result")]

def doneLibrary : Library String where
  fromStr text := if text = doneText then .ok doneEvent else .error "expected value"
  render _ := ""
  showError := id
  quote := id

def doneLine : List UInt8 :=
  Text.utf8 doneText.toList

def noticeLine : List UInt8 :=
  Text.utf8 "Debugger attached.".toList

theorem lineKinds_doneLine :
    lineKinds doneLibrary.fromStr (doneLine ++ [10]) = [.value doneEvent] := by
  decide +kernel

theorem malformed_noticeLine : Malformed doneLibrary.fromStr true noticeLine := by
  right
  decide +kernel

theorem byteKinds_nil (fromStr : String → Except ε Value) : byteKinds fromStr [] = [] := by
  rw [byteKinds_rest List.not_mem_nil]
  rfl

/-- Behind the first event, the notice is passed over. -/
theorem runSingleAttempt_late_notice :
    yielded (runSingleAttempt doneLibrary 60000
        (exitsWell [doneLine ++ [10], noticeLine ++ [10]] [])) =
      yielded (runSingleAttempt doneLibrary 60000 (exitsWell [doneLine ++ [10]] [])) := by
  apply (@runSingleAttempt_inserted_iff _ doneLibrary 60000 [] [doneLine] noticeLine [] true
    (by decide +kernel) (by decide +kernel) (fun same => by cases same) malformed_noticeLine
    [doneLine ++ [10]] [doneLine ++ [10], noticeLine ++ [10]] (by decide +kernel)
    (by decide +kernel)).mpr
  refine .inl ⟨doneLine, List.mem_singleton_self _, ?_⟩
  rw [lineKinds_doneLine]
  exact List.cons_ne_nil _ _

theorem runSingleAttempt_early_notice :
    yielded (runSingleAttempt doneLibrary 60000 (exitsWell [doneLine ++ [10]] [])) =
        some [resultChunk doneEvent] ∧
      yielded (runSingleAttempt doneLibrary 60000
        (exitsWell [noticeLine ++ [10], doneLine ++ [10]] [])) = none := by
  have answered : byteKinds doneLibrary.fromStr [doneLine ++ [10]].flatten = [.value doneEvent] := by
    have lines := @byteKinds_lineBytes _ doneLibrary.fromStr [doneLine] (by decide +kernel) []
    rw [List.flatMap_singleton, lineKinds_doneLine, byteKinds_nil] at lines
    exact lines
  have noticed : byteKinds doneLibrary.fromStr [noticeLine ++ [10], doneLine ++ [10]].flatten =
      [.malformed, .value doneEvent] := by
    have lines := @byteKinds_lineBytes _ doneLibrary.fromStr [noticeLine, doneLine]
      (by decide +kernel) []
    have notice : lineKinds doneLibrary.fromStr (noticeLine ++ [10]) = [.malformed] := by
      decide +kernel
    rw [List.flatMap_cons, List.flatMap_singleton, notice, lineKinds_doneLine, byteKinds_nil]
      at lines
    exact lines
  rw [yielded_exitsWell, yielded_exitsWell, answered, noticed]
  exact ⟨rfl, rfl⟩

end Claude

end HarnessAgent
