import HarnessAgent.Executor.CompletionTags

/-! # Completion signals

A signal counts as given when it stands between two tags of one name, at the end of the
output, or on a line of its own. The expression for tags cannot compare the two names,
so the code does, with a slice of bytes, for each element that the expression finds.
-/

namespace HarnessAgent

open Text

namespace CompletionTags

structure PlainPatterns where
  compilesEnd : String → Bool
  compilesOwnLine : String → Bool

section Detection

variable (tables : RegexTables) (patterns : PlainPatterns)

/-- The elements that wrap a signal, by the opening tag and the closing name. -/
def elements (signal : String) (text : List Char) : List (List Char × List Char) :=
  occurrences (wrappedSignal tables signal) 0 text

def firstMatching : List (List Char × List Char) → Option Bool
  | [] => some false
  | element :: rest =>
      match closeIsBackrefOfOpen element.1 element.2 with
      | none => none
      | some true => some true
      | some false => firstMatching rest

def xmlWrappedSignalMatch (output : List Char) (signal : String) : Option Bool :=
  if tables.compiles signal then firstMatching (elements tables signal output) else some false

def isClosingPunctuation (character : Char) : Bool :=
  isWhitespace character || ".,;:!?".toList.contains character

def endMatches (output : List Char) (signal : String) : Bool :=
  output.tails.any fun tail =>
    match Matcher.literal signal tail with
    | none => false
    | some found => found.2.all isClosingPunctuation

def lineEnd : Matcher Unit := fun text =>
  match text with
  | [] => some ((), text)
  | character :: _ => if character = '\n' then some ((), text) else none

def ownLine (signal : String) : Matcher Unit :=
  ((Matcher.literal signal).bind fun _ => lineEnd.afterSpaces).afterSpaces

def ownLineMatches (signal : String) : Bool → List Char → Bool
  | starts, [] => starts && (ownLine signal []).isSome
  | starts, character :: rest =>
      (starts && (ownLine signal (character :: rest)).isSome) ||
        ownLineMatches signal (character = '\n') rest

/-- Whether the output gives the signal, or nothing if the search panics. -/
def detectCompletionSignal (output signal : String) : Option Bool :=
  (xmlWrappedSignalMatch tables output.toList signal).map fun wrapped =>
    wrapped || (patterns.compilesEnd signal && endMatches output.toList signal) ||
      (patterns.compilesOwnLine signal && ownLineMatches signal true output.toList)

end Detection

/-! ## Panics -/

section Panics

variable {tables : RegexTables} {patterns : PlainPatterns} {signal : String}

/-- The closing name would end inside a character of the opening tag. -/
def Cuts (element : List Char × List Char) : Prop :=
  Straddles (byteLength element.2) element.1

theorem closeIsBackrefOfOpen_eq_none_iff {openInner close : List Char} :
    closeIsBackrefOfOpen openInner close = none ↔ Cuts (openInner, close) := by
  rw [closeIsBackrefOfOpen, Cuts]
  split
  · next settled =>
      refine iff_of_false (Option.some_ne_none _) ?_
      rintro ⟨before, character, after, split, below, above⟩
      dsimp only at split below above
      rw [Bool.or_eq_true, decide_eq_true_iff, decide_eq_true_iff] at settled
      rcases settled with empty | longer
      · rw [empty] at below
        exact absurd below (Nat.not_lt_zero _)
      · rw [split, byteLength_append, byteLength_cons] at longer
        omega
  · next fits =>
      rw [Bool.or_eq_true, decide_eq_true_iff, decide_eq_true_iff, not_or] at fits
      rw [Option.map_eq_none_iff]
      exact takeBytes_eq_none_iff (Nat.not_lt.mp fits.2)

def compared (elements : List (List Char × List Char)) : List (List Char × List Char) :=
  elements.takeWhile fun element => closeIsBackrefOfOpen element.1 element.2 ≠ some true

theorem isSome_firstMatching (elements : List (List Char × List Char)) :
    (firstMatching elements).isSome = true ↔ ∀ element ∈ compared elements, ¬ Cuts element := by
  induction elements with
  | nil => simp [firstMatching, compared]
  | cons element rest induction =>
      have panics := @closeIsBackrefOfOpen_eq_none_iff element.1 element.2
      rw [firstMatching, compared]
      cases decided : closeIsBackrefOfOpen element.1 element.2 with
      | none =>
          rw [List.takeWhile_cons_of_pos (by simp [decided])]
          refine iff_of_false Bool.false_ne_true ?_
          intro whole
          exact whole element List.mem_cons_self (panics.mp decided)
      | some matching =>
          have aligned : ¬ Cuts element := by
            intro cuts
            rw [panics.mpr cuts] at decided
            cases decided
          cases matching with
          | true =>
              rw [List.takeWhile_cons_of_neg (by simp [decided])]
              simp
          | false =>
              rw [List.takeWhile_cons_of_pos (by simp [decided]), List.forall_mem_cons]
              dsimp only
              rw [induction, compared]
              exact ⟨fun later => ⟨aligned, later⟩, fun both => both.2⟩

theorem isSome_detectCompletionSignal (output : String) :
    (detectCompletionSignal tables patterns output signal).isSome = true ↔
      (tables.compiles signal = true →
        ∀ element ∈ compared (elements tables signal output.toList), ¬ Cuts element) := by
  rw [detectCompletionSignal, Option.isSome_map, xmlWrappedSignalMatch]
  split
  · next compiles => simp [isSome_firstMatching, compiles]
  · next broken => simp [broken]

def withoutPromise (tables : RegexTables) (content : List Char) : List Char :=
  (replaceMatches (findPromise tables) 0 content).getD []

theorem replaceMatches_findPromise (content : List Char) :
    replaceMatches (findPromise tables) 0 content = some (withoutPromise tables content) := by
  have ends : (replaceMatches (findPromise tables) 0 content).isSome = true := by
    apply (@isSome_replaceMatches Unit (promise tables) (fun _ _ => some []) (fun _ => False)
      (by simp) 0 content).mpr
    simp
  rcases Option.isSome_iff_exists.mp ends with ⟨result, passed⟩
  rw [withoutPromise, passed]
  rfl

theorem isSome_stripXmlWrappedSignal (text : List Char) :
    (stripXmlWrappedSignal tables signal text).isSome = true ↔
      (tables.compiles signal = true →
        ∀ element ∈ elements tables signal text, ¬ Cuts element) := by
  have passes := @isSome_replaceMatches _ (wrappedSignal tables signal)
    (fun text found => (closeIsBackrefOfOpen found.1.1 found.1.2).map
      fun matching => if matching then [] else text.take (text.length - found.2.length))
    Cuts
    (fun text found => by
      rw [Option.map_eq_none_iff]
      exact closeIsBackrefOfOpen_eq_none_iff) 0 text
  rw [stripXmlWrappedSignal]
  split
  · next compiles =>
      simp only [compiles, forall_const]
      exact passes
  · next broken => simp [broken]

theorem isSome_stripCompletionTags (content : String)
    (untilSignal : Option String) :
    (stripCompletionTags tables content untilSignal).isSome = true ↔
      ∀ signal ∈ untilSignal, tables.compiles signal = true →
        ∀ element ∈ elements tables signal (withoutPromise tables content.toList),
          ¬ Cuts element := by
  rw [stripCompletionTags, replaceMatches_findPromise, Option.bind_some, Option.isSome_map]
  cases untilSignal with
  | none => simp
  | some signal => simp [isSome_stripXmlWrappedSignal]

end Panics

section Returns

/-- Both functions return exactly when no closing name would end inside a character of its
opening tag: among the elements of the output up to the first with one name, and among
those of the output without `promise` elements. -/
theorem returns_iff (tables : RegexTables) (patterns : PlainPatterns) (output signal : String) :
    ((detectCompletionSignal tables patterns output signal).isSome = true ∧
      ∀ untilSignal, untilSignal = none ∨ untilSignal = some signal →
        (stripCompletionTags tables output untilSignal).isSome = true) ↔
      (tables.compiles signal = true →
        (∀ element ∈ compared (elements tables signal output.toList), ¬ Cuts element) ∧
          ∀ element ∈ elements tables signal (withoutPromise tables output.toList),
            ¬ Cuts element) := by
  rw [isSome_detectCompletionSignal]
  simp only [isSome_stripCompletionTags]
  constructor
  · rintro ⟨detects, strips⟩ compiles
    exact ⟨detects compiles, strips (some signal) (.inr rfl) signal rfl compiles⟩
  · intro aligned
    refine ⟨fun compiles => (aligned compiles).1, ?_⟩
    rintro untilSignal (rfl | rfl) other given compiles
    · cases given
    · cases given
      exact (aligned compiles).2

/-- The closing name `abc` would end inside the third character of the opening tag. -/
theorem not_returns_snowman :
    ¬ (∀ (tables : RegexTables) (patterns : PlainPatterns) (output signal : String),
      (detectCompletionSignal tables patterns output signal).isSome = true ∧
        ∀ untilSignal, untilSignal = none ∨ untilSignal = some signal →
          (stripCompletionTags tables output untilSignal).isSome = true) := by
  intro always
  have returned := (always asciiTables ⟨fun _ => true, fun _ => true⟩ "<ab☃>DONE</abc>" "DONE").1
  revert returned
  decide

end Returns

/-! ## A promised signal -/

/-- What is known of the tables: characters that differ in their case are alike in being
white space, and ASCII letters are word characters while a bracket is not. -/
structure Regular (tables : RegexTables) : Prop where
  spaces : ∀ wanted character, tables.sameCase wanted character = true →
    isWhitespace wanted = isWhitespace character
  letters : ∀ character ∈ "promise".toList, tables.isWord character = true
  bracket : tables.isWord '>' = false

def promised (signal : String) : List Char :=
  "<promise>".toList ++ signal.toList ++ "</promise>".toList

section Promised

variable {tables : RegexTables} {patterns : PlainPatterns} {signal : String}

theorem wrapped_append (text rest : List Char) :
    "<promise>".toList ++ text ++ "</promise>".toList ++ rest =
      '<' :: (['p', 'r', 'o', 'm', 'i', 's', 'e'] ++ '>' ::
        (text ++ '<' :: '/' :: (['p', 'r', 'o', 'm', 'i', 's', 'e'] ++ '>' :: rest))) := by
  have opening : "<promise>".toList = ['<', 'p', 'r', 'o', 'm', 'i', 's', 'e', '>'] := by simp
  have closing : "</promise>".toList = ['<', '/', 'p', 'r', 'o', 'm', 'i', 's', 'e', '>'] := by
    simp
  rw [opening, closing]
  simp only [List.cons_append, List.nil_append, List.append_assoc]

theorem promised_append (signal : String) (rest : List Char) :
    promised signal ++ rest = '<' :: (['p', 'r', 'o', 'm', 'i', 's', 'e'] ++ '>' ::
      (signal.toList ++ '<' :: '/' :: (['p', 'r', 'o', 'm', 'i', 's', 'e'] ++ '>' :: rest))) :=
  wrapped_append signal.toList rest

theorem bracketed_promise {isPart : Char → Bool}
    (part : ∀ character ∈ ['r', 'o', 'm', 'i', 's', 'e'], isPart character = true)
    (stops : isPart '>' = false) (rest : List Char) :
    Matcher.bracketed isTagStart isPart (['p', 'r', 'o', 'm', 'i', 's', 'e'] ++ '>' :: rest) =
      some (['p', 'r', 'o', 'm', 'i', 's', 'e'], rest) :=
  Matcher.bracketed_eq_some.mpr
    ⟨'p', ['r', 'o', 'm', 'i', 's', 'e'], rfl, by decide, part, stops, rfl⟩

theorem literal_open (rest : List Char) : Matcher.literal "<" ('<' :: rest) = some ((), rest) := by
  simp [Matcher.literal, Matcher.folded]

theorem literal_close (rest : List Char) :
    Matcher.literal "</" ('<' :: '/' :: rest) = some ((), rest) := by
  simp [Matcher.literal, Matcher.folded]

theorem closing_promise (regular : Regular tables) (openInner rest : List Char) :
    ((Matcher.literal "</").bind fun _ =>
      (Matcher.bracketed isTagStart fun character =>
          tables.isWord character || character == '-').bind fun close =>
        Matcher.pure (openInner, close)).afterSpaces
      ('<' :: '/' :: (['p', 'r', 'o', 'm', 'i', 's', 'e'] ++ '>' :: rest)) =
      some ((openInner, ['p', 'r', 'o', 'm', 'i', 's', 'e']), rest) := by
  have name := @bracketed_promise
    (fun character => tables.isWord character || character == '-')
    (fun character member => by
      rw [regular.letters character (List.mem_cons_of_mem 'p' member), Bool.true_or])
    (by rw [regular.bracket]; rfl) rest
  have visible : ¬ isWhitespace '<' = true := by decide
  rw [Matcher.afterSpaces, if_neg visible, Matcher.bind, literal_close, Option.bind_some]
  dsimp only
  rw [Matcher.bind, name]
  rfl

/-- At its beginning the element is found as it is, with nothing of what follows. -/
theorem wrappedSignal_promised (regular : Regular tables) (rest : List Char) :
    wrappedSignal tables signal (promised signal ++ rest) =
      some ((['p', 'r', 'o', 'm', 'i', 's', 'e'], ['p', 'r', 'o', 'm', 'i', 's', 'e']), rest) := by
  have name := @bracketed_promise (fun character => decide (character ≠ '>'))
    (forall_of_all (by decide)) (by decide)
  rw [promised_append, wrappedSignal, Matcher.bind, literal_open, Option.bind_some]
  dsimp only
  rw [Matcher.bind, name, Option.bind_some]
  dsimp only
  apply Matcher.afterSpaces_of_alone
  · rw [Matcher.bind, Matcher.folded_self, Option.bind_some]
    exact closing_promise regular _ rest
  · intro before later nonempty split blank
    have shifted := @Matcher.folded_eq_none_of_shifted tables.sameCase regular.spaces
      signal.toList before later _ '<' (by decide) nonempty blank split
    rw [Matcher.bind, shifted, Option.bind_none]

/-- An element that the expression finds before the recommended one neither reaches into it
nor makes the comparison of its names panic. -/
def Clear (tables : RegexTables) (signal : String) (before after : List Char) : Prop :=
  ∀ front part, before = front ++ part → part ≠ [] →
    ∀ found, wrappedSignal tables signal (part ++ (promised signal ++ after)) = some found →
      (promised signal ++ after).length ≤ found.2.length ∧ ¬ Cuts found.1

variable {before : List Char}

theorem firstMatching_of_clear (regular : Regular tables) (clear : Clear tables signal before after)
    (within : skip ≤ before.length) :
    firstMatching (occurrences (wrappedSignal tables signal) skip
      (before ++ (promised signal ++ after))) = some true := by
  induction before generalizing skip with
  | nil =>
      rw [Nat.le_zero.mp within, List.nil_append]
      have found := @wrappedSignal_promised tables signal regular after
      have matching : closeIsBackrefOfOpen ['p', 'r', 'o', 'm', 'i', 's', 'e']
          ['p', 'r', 'o', 'm', 'i', 's', 'e'] = some true := by decide
      cases text : promised signal ++ after with
      | nil => cases text
      | cons character rest =>
          rw [text] at found
          rw [occurrences, found]
          dsimp only
          rw [firstMatching, matching]
  | cons character before induction =>
      have later : Clear tables signal before after := by
        intro front part split nonempty
        exact clear (character :: front) part (by rw [split]; rfl) nonempty
      cases skip with
      | succ skip => exact induction later (Nat.le_of_succ_le_succ within)
      | zero =>
          rw [List.cons_append, occurrences]
          cases found : wrappedSignal tables signal
              (character :: (before ++ (promised signal ++ after))) with
          | none => exact induction later (Nat.zero_le _)
          | some result =>
              have bounds := clear [] (character :: before) rfl (List.cons_ne_nil _ _) result found
              rcases result with ⟨⟨openInner, close⟩, remaining⟩
              dsimp only
              rw [firstMatching]
              cases decided : closeIsBackrefOfOpen openInner close with
              | none => exact absurd (closeIsBackrefOfOpen_eq_none_iff.mp decided) bounds.2
              | some matching =>
                  cases matching with
                  | true => rfl
                  | false =>
                      apply induction later
                      have short := bounds.1
                      dsimp only at short
                      rw [@List.length_append _ before]
                      omega

theorem detects_of_clear (regular : Regular tables) (compiles : tables.compiles signal = true)
    (split : output.toList = before ++ (promised signal ++ after))
    (clear : Clear tables signal before after) :
    detectCompletionSignal tables patterns output signal = some true := by
  have matched : xmlWrappedSignalMatch tables output.toList signal = some true := by
    rw [xmlWrappedSignalMatch, if_pos compiles, elements, split]
    exact firstMatching_of_clear regular clear (Nat.zero_le _)
  rw [detectCompletionSignal, matched]
  rfl

/-! ### What stripping leaves -/

def Spells (tables : RegexTables) (word spelled : List Char) : Prop :=
  List.Forall₂ (fun wanted character =>
    character = wanted ∨ tables.sameCase wanted character = true) word spelled

def PromiseElement (tables : RegexTables) (element : List Char) : Prop :=
  ∃ opening text closing,
    Spells tables "promise".toList opening ∧ Spells tables "promise".toList closing ∧
      element = '<' :: (opening ++ '>' :: (text ++ '<' :: '/' :: (closing ++ ['>'])))

/-- The closing name begins the opening tag, whatever the case of its letters. -/
def OneName (openInner close : List Char) : Prop :=
  close ≠ [] ∧ close.map Char.toLower <+: openInner.map Char.toLower

instance (openInner close : List Char) : Decidable (OneName openInner close) :=
  inferInstanceAs (Decidable (close ≠ [] ∧ close.map Char.toLower <+: openInner.map Char.toLower))

/-- An element that wraps the given signal, with its opening tag and its closing name. -/
def Wrapping (tables : RegexTables) (untilSignal : Option String) :
    LeftmostReading.Occurs Char (List Char × (List Char × List Char)) := fun text element rest =>
  ∃ signal ∈ untilSignal, tables.compiles signal = true ∧
    (wrappedSignal tables signal).Finds text element rest

/-- An element between tags of one name goes, any other stays. -/
def leftOf (element : List Char × (List Char × List Char)) : List Char :=
  if OneName element.2.1 element.2.2 then [] else element.1

open LeftmostReading in
/-- A reading from left to right takes out the `promise` elements, and no such element is
left within a gap. Another one, of what the first has joined, takes out the elements that
wrap the given signal between tags of one name. -/
def Stripped (tables : RegexTables) (content : List Char) (untilSignal : Option String)
    (stripped : List Char) : Prop :=
  ∃ promises last, Reads (promise tables).Finds content promises last ∧
    (∀ part ∈ promises, PromiseElement tables part.2.1) ∧
    (∀ gap ∈ gaps promises last, ∀ element, PromiseElement tables element → ¬ element <:+: gap) ∧
    ∃ elements rest,
      Reads (Wrapping tables untilSignal) (replaced (fun _ => []) promises last) elements rest ∧
      stripped = trim (replaced leftOf elements rest)

theorem promiseElement_of_promise (found : promise tables element = some ((), [])) :
    PromiseElement tables element := by
  rcases Option.bind_eq_some_iff.mp found with ⟨⟨_, rest⟩, start, found⟩
  rcases Option.bind_eq_some_iff.mp found with ⟨⟨_, rest⟩, name, found⟩
  rcases Option.bind_eq_some_iff.mp found with ⟨⟨_, rest⟩, bracket, found⟩
  rcases Matcher.exists_of_anywhere found with ⟨text, after, split, found⟩
  rcases Option.bind_eq_some_iff.mp found with ⟨⟨_, rest⟩, slash, found⟩
  rcases Option.bind_eq_some_iff.mp found with ⟨⟨_, rest⟩, closes, found⟩
  rcases Matcher.folded_eq_some_iff.mp name with ⟨opening, opens, nameText⟩
  rcases Matcher.folded_eq_some_iff.mp closes with ⟨closing, shuts, closeText⟩
  refine ⟨opening, text, closing, opens, shuts, ?_⟩
  dsimp only at *
  rw [Matcher.literal_eq_some start, nameText, Matcher.literal_eq_some bracket, split, Matcher.literal_eq_some slash,
    closeText, Matcher.literal_eq_some found]
  rfl

theorem isSome_promise (stands : PromiseElement tables element) :
    (promise tables element).isSome = true := by
  rcases stands with ⟨opening, text, closing, opens, shuts, rfl⟩
  have bracket : ∀ rest, Matcher.literal ">" ('>' :: rest) = some ((), rest) := by
    intro rest
    simp [Matcher.literal, Matcher.folded]
  rw [promise, Matcher.bind, literal_open, Option.bind_some]
  dsimp only
  rw [Matcher.bind, Matcher.folded_eq_some_iff.mpr ⟨opening, opens, rfl⟩, Option.bind_some]
  dsimp only
  rw [Matcher.bind, bracket, Option.bind_some]
  dsimp only
  apply Matcher.isSome_anywhere_append
  rw [Matcher.bind, literal_close, Option.bind_some]
  dsimp only
  rw [Matcher.bind, Matcher.folded_eq_some_iff.mpr ⟨closing, shuts, rfl⟩, Option.bind_some]
  dsimp only
  rw [bracket]
  rfl

theorem promiseElement_promised : PromiseElement tables (promised signal) := by
  have spelled : Spells tables "promise".toList ['p', 'r', 'o', 'm', 'i', 's', 'e'] :=
    List.forall₂_same.mpr fun _ _ => .inl rfl
  refine ⟨_, signal.toList, _, spelled, spelled, ?_⟩
  rw [← List.append_nil (promised signal), promised_append]

theorem oneName_of_closeIsBackrefOfOpen
    (decided : closeIsBackrefOfOpen openInner close = some matching) :
    matching = decide (OneName openInner close) := by
  rw [closeIsBackrefOfOpen] at decided
  split at decided
  · next settled =>
      cases decided
      refine (decide_eq_false ?_).symm
      rintro ⟨nonempty, more, whole⟩
      rcases Bool.or_eq_true_iff.mp settled with empty | longer
      · exact nonempty (of_decide_eq_true empty)
      · have bytes := congrArg byteLength whole
        rw [byteLength_append, byteLength_map_toLower, byteLength_map_toLower] at bytes
        have shorter := of_decide_eq_true longer
        omega
  · next fits =>
      rw [Bool.or_eq_true_iff, not_or] at fits
      have nonempty : close ≠ [] := fun empty => fits.1 (decide_eq_true empty)
      rcases Option.map_eq_some_iff.mp decided with ⟨start, taken, rfl⟩
      rw [Bool.eq_iff_iff, decide_eq_true_iff, beq_iff_eq]
      constructor
      · intro same
        rcases exists_append_of_takeBytes taken with ⟨rest, rfl⟩
        refine ⟨nonempty, rest.map Char.toLower, ?_⟩
        rw [List.map_append, same]
      · rintro ⟨-, more, whole⟩
        rcases List.append_eq_map_iff.mp whole with ⟨front, back, rfl, lower, -⟩
        have bytes : byteLength close = byteLength front := by
          rw [← byteLength_map_toLower close, ← lower, byteLength_map_toLower]
        rw [bytes, takeBytes_append] at taken
        cases taken
        exact lower

section Passes

open LeftmostReading

theorem reads_of_no_wrapping {text : List Char}
    (absent : ∀ signal ∈ untilSignal, tables.compiles signal ≠ true) :
    Reads (Wrapping tables untilSignal) text [] text := by
  apply Reads.last
  rintro start - - element rest ⟨signal, given, compiles, -⟩
  exact absent signal given compiles

theorem reads_stripXmlWrappedSignal
    (passed : stripXmlWrappedSignal tables signal text = some result) :
    ∃ elements rest, Reads (Wrapping tables (some signal)) text elements rest ∧
      result = replaced leftOf elements rest := by
  rw [stripXmlWrappedSignal] at passed
  split at passed
  · next compiles =>
      have same : (wrappedSignal tables signal).Finds = Wrapping tables (some signal) := by
        funext text element rest
        refine propext ⟨fun found => ⟨signal, rfl, compiles, found⟩, ?_⟩
        rintro ⟨other, given, -, found⟩
        cases given
        exact found
      rw [← same]
      let write : List Char × (List Char × List Char) → Option (List Char) := fun element =>
        (closeIsBackrefOfOpen element.2.1 element.2.2).map
          fun matching => if matching then [] else element.1
      have writes : ∀ element replaced, write element = some replaced →
          replaced = leftOf element := by
        intro element replaced written
        rcases Option.map_eq_some_iff.mp written with ⟨matching, decided, rfl⟩
        rw [oneName_of_closeIsBackrefOfOpen decided, leftOf]
        simp only [decide_eq_true_eq]
      exact exists_reads_replaceMatches stable_wrappedSignal rfl writes passed
  · next broken =>
      cases passed
      refine ⟨[], text, reads_of_no_wrapping ?_, rfl⟩
      intro other given
      cases given
      exact broken

/-- The first pass leaves no element within a piece of the content, and the second one takes
elements out of what the first one has joined. -/
theorem stripped_of_stripCompletionTags
    (passed : stripCompletionTags tables content untilSignal = some stripped) :
    Stripped tables content.toList untilSignal stripped.toList := by
  rw [stripCompletionTags, replaceMatches_findPromise, Option.bind_some] at passed
  rcases Option.map_eq_some_iff.mp passed with ⟨result, second, rfl⟩
  rcases exists_reads_replaceMatches stable_promise rfl
    (fun _ replaced given => (Option.some.inj given).symm)
    (replaceMatches_findPromise content.toList) with ⟨promises, last, reads, joined⟩
  refine ⟨promises, last, reads, ?_, ?_, ?_⟩
  · intro part member
    rcases reads.occurs_of_mem member with ⟨start, rest, split, found⟩
    rcases stable_promise.truncates found with ⟨matched, same, alone⟩
    rw [List.append_cancel_right (split.symm.trans same)]
    exact promiseElement_of_promise alone
  · intro gap member element stands inside
    rcases reads.free_of_mem_gaps member with ⟨after, free⟩
    have present := isSome_promise stands
    rw [stable_promise.eq_none_of_free rfl free inside] at present
    cases present
  · rw [String.toList_ofList, ← joined]
    cases untilSignal with
    | none =>
        cases second
        exact ⟨[], _, reads_of_no_wrapping (by simp), rfl⟩
    | some signal =>
        rcases reads_stripXmlWrappedSignal second with ⟨elements, rest, again, replaced⟩
        exact ⟨elements, rest, again, congrArg trim replaced⟩

end Passes

/-- A promised signal that nothing reaches into is detected. Stripping takes every element
out in one pass, so that none is left within a piece of the output, and then the elements
that wrap the signal; it does not look again at what a removal joins. -/
theorem promised_handled {tables : RegexTables} (regular : Regular tables)
    (patterns : PlainPatterns) {signal : String} (compiles : tables.compiles signal = true)
    {output : String} {before after : List Char}
    (split : output.toList = before ++ (promised signal ++ after))
    (clear : Clear tables signal before after) :
    detectCompletionSignal tables patterns output signal = some true ∧
      PromiseElement tables (promised signal) ∧
      ∀ untilSignal stripped, stripCompletionTags tables output untilSignal = some stripped →
        Stripped tables output.toList untilSignal stripped.toList :=
  ⟨detects_of_clear regular compiles split clear, promiseElement_promised,
    fun _ _ => stripped_of_stripCompletionTags⟩

theorem clear_of_no_bracket (plain : '<' ∉ before) (after : List Char) :
    Clear tables signal before after := by
  intro front part split nonempty found matched
  rcases starts_of_bind_literal matched with ⟨rest, starts⟩
  cases part with
  | nil => exact absurd rfl nonempty
  | cons first more =>
      rw [List.cons_append] at starts
      rw [(List.cons.inj starts).1] at split
      rw [split] at plain
      simp at plain

end Promised

/-- A tag that is left open hides the element. -/
example : detectCompletionSignal asciiTables ⟨fun _ => true, fun _ => true⟩
    "<x <promise>DONE</promise>" "DONE" = some false := by decide

theorem isWhitespace_eq_false_of_letter (letter : 65 ≤ character.toNat ∧ character.toNat ≤ 122) :
    isWhitespace character = false := by
  rw [Bool.eq_false_iff]
  intro space
  simp only [isWhitespace, Bool.or_eq_true, Bool.and_eq_true, decide_eq_true_eq, beq_iff_eq] at space
  omega

theorem isWhitespace_toLower (character : Char) :
    isWhitespace character.toLower = isWhitespace character := by
  by_cases upper : 'A'.val ≤ character.val ∧ character.val ≤ 'Z'.val
  · have low : 65 ≤ character.toNat := UInt32.le_iff_toNat_le.mp upper.1
    have high : character.toNat ≤ 90 := UInt32.le_iff_toNat_le.mp upper.2
    have lower : character.toLower.val = character.val + ('a'.val - 'A'.val) :=
      congrArg Char.val (dif_pos upper)
    have code : character.toLower.toNat = character.toNat + 32 := by
      rw [← Char.toNat_val, lower, UInt32.toNat_add]
      change (character.toNat + 32) % 4294967296 = _
      omega
    rw [isWhitespace_eq_false_of_letter (by omega),
      isWhitespace_eq_false_of_letter ⟨low, by omega⟩]
  · have kept : character.toLower = character := dif_neg upper
    rw [kept]

theorem regular_asciiTables : Regular asciiTables where
  spaces := by
    intro wanted character same
    have lower : wanted.toLower = character.toLower := of_decide_eq_true same
    rw [← isWhitespace_toLower, lower, isWhitespace_toLower]
  letters := forall_of_all (by decide)
  bracket := by decide

theorem promised_handled_done :
    detectCompletionSignal asciiTables ⟨fun _ => true, fun _ => true⟩
        "All done. <promise>DONE</promise>" "DONE" = some true ∧
      PromiseElement asciiTables (promised "DONE") ∧
      ∀ untilSignal stripped,
        stripCompletionTags asciiTables "All done. <promise>DONE</promise>" untilSignal =
          some stripped →
        Stripped asciiTables "All done. <promise>DONE</promise>".toList untilSignal
          stripped.toList :=
  @promised_handled asciiTables regular_asciiTables ⟨fun _ => true, fun _ => true⟩ "DONE" rfl _
    "All done. ".toList [] (by decide) (clear_of_no_bracket (by decide) [])

/-- Removing the element `a` joins a new promised signal. -/
theorem not_stripped_joined :
    ¬ (∀ tables, Regular tables → ∀ (patterns : PlainPatterns) (signal output : String),
      tables.compiles signal = true → promised signal <:+: output.toList →
      detectCompletionSignal tables patterns output signal = some true ∧
        ∀ stripped, stripCompletionTags tables output (some signal) = some stripped →
          ¬ promised signal <:+: stripped.toList) := by
  intro always
  have stripped : stripCompletionTags asciiTables
      "<promise>DONE</promise><<a>DONE</a>promise>DONE</promise>" (some "DONE") =
        some "<promise>DONE</promise>" := by decide
  have gone := (always asciiTables regular_asciiTables ⟨fun _ => true, fun _ => true⟩ "DONE"
    "<promise>DONE</promise><<a>DONE</a>promise>DONE</promise>" rfl (by decide)).2 _ stripped
  exact gone (by decide)

end CompletionTags

end HarnessAgent
