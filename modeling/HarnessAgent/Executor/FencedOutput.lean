import HarnessAgent.Executor.OutputRef
import HarnessAgent.Foundation.JsonGrammar
import HarnessAgent.Foundation.SealedText
import HarnessAgent.Foundation.TextScan

/-! # Fenced output

The pattern for a fenced block is searched anywhere in the output of a node. In the
text of a JSON object it finds nothing, and around one it finds exactly the object.
-/

namespace HarnessAgent

open JsonGrammar

namespace Fence

def tag : List Char := ['j', 's', 'o', 'n']

/-! ## Inside a string -/

theorem afterNewlines_string (printable : ∀ character ∈ body, 0x20 ≤ character.toNat)
    (rest : List Char) : afterNewlines (body ++ '"' :: rest) = [] := by
  induction body with
  | nil => rfl
  | cons character body induction =>
      rcases List.forall_mem_cons.mp printable with ⟨shown, later⟩
      have noBreak : character ≠ '\n' := by
        intro same
        rw [same] at shown
        exact absurd shown (by decide)
      rw [List.cons_append, afterNewlines, induction later, if_neg noBreak]
      exact ite_self _

theorem block_string (printable : ∀ character ∈ body, 0x20 ≤ character.toNat) (rest : List Char) :
    block (body ++ '"' :: rest) = none := by
  have tagged : ∀ text ∈ (Text.afterLiteral tag (body ++ '"' :: rest)).toList ++
      [body ++ '"' :: rest], afterNewlines text = [] := by
    intro text member
    rcases List.mem_append.mp member with after | whole
    · rw [Option.mem_toList, Text.Finder.afterLiteral_append (by decide : '"' ∉ tag) (by
        intro character first
        cases first
        rfl)] at after
      rcases Option.mem_map.mp after with ⟨more, found, rfl⟩
      apply afterNewlines_string
      intro character inside
      apply printable
      rw [← List.isPrefixOf?_eq_some_iff_append_eq.mp found]
      exact List.mem_append_right tag inside
    · rw [List.mem_singleton.mp whole]
      exact afterNewlines_string printable rest
  have lacking : (((Text.afterLiteral tag (body ++ '"' :: rest)).toList ++
      [body ++ '"' :: rest]).flatMap afterNewlines) = [] :=
    List.flatMap_eq_nil_iff.mpr tagged
  change (((Text.afterLiteral tag (body ++ '"' :: rest)).toList ++
      [body ++ '"' :: rest]).flatMap afterNewlines).findSome? content = none
  rw [lacking]
  rfl

variable {text : List Char}

theorem capture_lexed (lexed : Lexed text) : capture text = none := by
  apply List.findSome?_eq_none_iff.mpr
  intro suffix member
  rcases (List.mem_tails _ _).mp member with ⟨before, split⟩
  cases opened : Text.afterLiteral mark suffix with
  | none => rfl
  | some rest =>
      have third : text = (before ++ ['`', '`']) ++ '`' :: rest := by
        rw [← split, ← List.isPrefixOf?_eq_some_iff_append_eq.mp opened]
        simp [mark]
      rw [third] at lexed
      rcases lexed.closed (by decide) (by decide) with ⟨body, more, rfl, printable⟩
      exact block_string printable more

/-! ## Around a text -/

theorem not_closes (lexed : Lexed text) (shown : ¬Text.Blank text) (rest : List Char) :
    closes (text ++ rest) = false := by
  rw [closes, ← Text.trimStart, Text.trimStart_append_of_not_blank shown]
  cases start : Text.trimStart text with
  | nil => exact absurd (List.dropWhile_eq_nil_iff.mp start) shown
  | cons first visible =>
      have marked := lexed.head_trimStart first (by rw [start]; rfl)
      have different : ('`' == first) = false := by
        rcases marked with rfl | marked
        · rfl
        · apply beq_false_of_ne
          rintro rfl
          exact absurd marked (by decide)
      change (if '`' == first then _ else none).isSome = false
      rw [different]
      rfl

/-- The block of a text ends with the text, up to white space at its end. -/
theorem content_lexed (lines : ∀ before after, text = before ++ '\n' :: after → Lexed after)
    (rest : List Char) :
    ∃ front trailing, text = front ++ trailing ∧ Text.Blank trailing ∧
      content (text ++ '\n' :: (mark ++ rest)) = some front := by
  induction text with
  | nil => exact ⟨[], [], rfl, List.forall_mem_nil _, rfl⟩
  | cons character text induction =>
      rw [List.cons_append, content]
      by_cases closed : (character = '\n' && closes (text ++ '\n' :: (mark ++ rest))) = true
      · rw [if_pos closed]
        rw [Bool.and_eq_true, decide_eq_true_eq] at closed
        rcases closed with ⟨rfl, closed⟩
        have blank : Text.Blank text := by
          by_contra shown
          rw [not_closes (lines [] text rfl) shown] at closed
          cases closed
        exact ⟨[], '\n' :: text, rfl, List.forall_mem_cons.mpr ⟨rfl, blank⟩, rfl⟩
      · rw [if_neg closed]
        rcases induction (fun before after split =>
          lines (character :: before) after (by rw [split]; rfl)) with
          ⟨front, trailing, rfl, blank, found⟩
        refine ⟨character :: front, trailing, rfl, blank, ?_⟩
        rw [found]
        rfl

/-- Content may start wherever a line ends in the white space before a text. -/
theorem mem_afterNewlines {blanks : List Char} {rest : List Char}
    (shown : Text.isWhitespace first = false) :
    ∀ start ∈ afterNewlines (blanks ++ first :: rest),
      ∃ more, more <:+ blanks ∧ start = more ++ first :: rest := by
  induction blanks with
  | nil =>
      intro start member
      rw [List.nil_append, afterNewlines, if_neg (by simp [shown])] at member
      exact absurd member List.not_mem_nil
  | cons character blanks induction =>
      intro start member
      rw [List.cons_append, afterNewlines] at member
      split at member
      · rcases List.mem_append.mp member with later | here
        · rcases induction start later with ⟨more, inside, same⟩
          exact ⟨more, inside.trans (List.suffix_cons _ _), same⟩
        · split at here
          · rw [List.mem_singleton.mp here]
            exact ⟨blanks, List.suffix_cons _ _, rfl⟩
          · exact absurd here List.not_mem_nil
      · exact absurd member List.not_mem_nil

/-- White space at the end of an object is what stands after its closing brace. -/
theorem blank_of_suffix (object : IsObject text) (split : text = front ++ trailing)
    (blank : Text.Blank trailing) : Blank trailing := by
  rcases object with ⟨before, inner, after, -, derives, blankAfter, rfl⟩
  rcases derives.braces with ⟨body, rfl⟩
  rcases List.append_eq_append_iff.mp split with ⟨more, -, rfl⟩ | ⟨more, ends, rfl⟩
  · intro character member
    exact blankAfter character (List.mem_append_right more member)
  · cases reversed : more.getLast? with
    | none =>
        rw [List.getLast?_eq_none_iff.mp reversed]
        exact blankAfter
    | some last =>
        have brace := congrArg List.getLast? ends
        rw [List.getLast?_append, List.getLast?_append, reversed, Option.some_or,
          ← List.cons_append, List.getLast?_append] at brace
        cases Option.some.inj brace
        have shown := blank '}' (List.mem_append_left _ (List.mem_of_getLast? reversed))
        exact absurd shown (by decide)

theorem content_object (object : IsObject text) (rest : List Char) :
    ∃ found trailing, text = found ++ trailing ∧ Blank trailing ∧
      content (text ++ '\n' :: (mark ++ rest)) = some found := by
  have lines : ∀ before after, text = before ++ '\n' :: after → Lexed after := by
    intro before after split
    have lexed := object.lexed
    rw [split] at lexed
    exact lexed.after_newline
  rcases content_lexed lines rest with ⟨found, trailing, split, blank, same⟩
  exact ⟨found, trailing, split, blank_of_suffix object split blank, same⟩

theorem block_tagged (text : List Char) :
    block (tag ++ '\n' :: text) = (afterNewlines text ++ [text]).findSome? content := by
  change ((afterNewlines text ++ [text]) ++ []).findSome? content = _
  rw [List.append_nil]

theorem block_object (object : IsObject text) (rest : List Char) :
    ∃ before found after, text = before ++ found ++ after ∧ Blank before ∧ Blank after ∧
      block (tag ++ '\n' :: (text ++ '\n' :: (mark ++ rest))) = some found := by
  rcases object with ⟨blanks, inner, after, blank, derives, blankAfter, rfl⟩
  rcases derives.braces with ⟨body, rfl⟩
  -- Whichever line the content starts on, it is the object.
  have each : ∀ before more, blanks = before ++ more → ∃ found,
      content (more ++ '{' :: (body ++ ['}']) ++ after ++ '\n' :: (mark ++ rest)) = some found ∧
        ∃ before behind, Blank before ∧ Blank behind ∧
          blanks ++ '{' :: (body ++ ['}']) ++ after = before ++ found ++ behind := by
    rintro before more rfl
    have object : IsObject (more ++ '{' :: (body ++ ['}']) ++ after) :=
      ⟨more, _, after, fun character member => blank character (List.mem_append_right _ member),
        derives, blankAfter, rfl⟩
    rcases content_object object rest with ⟨found, trailing, split, blankTrailing, same⟩
    refine ⟨found, same, before, trailing, ?_, blankTrailing, ?_⟩
    · exact fun character member => blank character (List.mem_append_left _ member)
    · rw [List.append_assoc before found trailing, ← split]
      simp
  have starts : ∀ start ∈ afterNewlines
        (blanks ++ '{' :: (body ++ ['}']) ++ after ++ '\n' :: (mark ++ rest)) ++
        [blanks ++ '{' :: (body ++ ['}']) ++ after ++ '\n' :: (mark ++ rest)],
      ∃ found, content start = some found ∧ ∃ before behind, Blank before ∧ Blank behind ∧
        blanks ++ '{' :: (body ++ ['}']) ++ after = before ++ found ++ behind := by
    intro start member
    rcases List.mem_append.mp member with later | here
    · rw [List.append_assoc, List.append_assoc, List.cons_append] at later
      rcases mem_afterNewlines (by decide) start later with ⟨more, ⟨before, split⟩, rfl⟩
      have found := each before more split.symm
      rw [List.append_assoc, List.append_assoc, List.cons_append] at found
      exact found
    · rw [List.mem_singleton.mp here]
      exact each [] blanks rfl
  rw [block_tagged]
  cases found : (afterNewlines
      (blanks ++ '{' :: (body ++ ['}']) ++ after ++ '\n' :: (mark ++ rest)) ++
      [blanks ++ '{' :: (body ++ ['}']) ++ after ++ '\n' :: (mark ++ rest)]).findSome? content with
  | none =>
      have missed := List.findSome?_eq_none_iff.mp found _
        (List.mem_append_right _ (List.mem_singleton_self _))
      rcases each [] blanks rfl with ⟨_, same, -⟩
      rw [missed] at same
      cases same
  | some contentText =>
      rcases List.exists_of_findSome?_eq_some found with ⟨start, member, same⟩
      rcases starts start member with ⟨other, found, before, trailing, blankBefore, blankAfter, split⟩
      rw [same] at found
      cases found
      exact ⟨before, contentText, trailing, split, blankBefore, blankAfter, rfl⟩

/-! ## Prose before the block -/

theorem capture_cons (character : Char) (rest : List Char) :
    capture (character :: rest) =
      ((Text.afterLiteral mark (character :: rest)).bind block).or (capture rest) := by
  rw [capture, List.tails_cons, List.findSome?_cons]
  cases (Text.afterLiteral mark (character :: rest)).bind block with
  | none => rfl
  | some found => rfl

theorem capture_mark (rest : List Char) :
    capture (mark ++ rest) = (block rest).or (capture (['`', '`'] ++ rest)) :=
  capture_cons '`' (['`', '`'] ++ rest)

/-- Backquotes right before the opening fence are no fence. -/
theorem capture_prose (absent : ¬mark <:+: prose) (rest : List Char) :
    capture (prose ++ mark ++ 'j' :: rest) = capture (mark ++ 'j' :: rest) := by
  induction prose with
  | nil => rfl
  | cons character prose induction =>
      have later : ¬mark <:+: prose := fun inside => absent (List.infix_cons inside)
      have lacking : (Text.afterLiteral mark (character :: prose ++ mark ++ 'j' :: rest)).bind block =
          none := by
        cases opened : Text.afterLiteral mark (character :: prose ++ mark ++ 'j' :: rest) with
        | none => rfl
        | some after =>
            have split := List.isPrefixOf?_eq_some_iff_append_eq.mp opened
            match prose with
            | [] =>
                cases split
                rfl
            | [second] =>
                cases split
                rfl
            | second :: third :: prose =>
                cases split
                exact absurd (List.prefix_append mark prose).isInfix absent
      rw [List.cons_append, List.cons_append, capture_cons]
      rw [List.cons_append, List.cons_append] at lacking
      rw [lacking, Option.none_or]
      exact induction later

theorem capture_object (object : IsObject text) (absent : ¬mark <:+: prose) (rest : List Char) :
    ∃ before found after, text = before ++ found ++ after ∧ Blank before ∧ Blank after ∧
      capture (prose ++ mark ++ tag ++ '\n' :: (text ++ '\n' :: (mark ++ rest))) =
        some found := by
  rcases block_object object rest with ⟨before, found, after, split, blank, blankAfter, same⟩
  refine ⟨before, found, after, split, blank, blankAfter, ?_⟩
  have opening : capture (prose ++ mark ++ tag ++ '\n' :: (text ++ '\n' :: (mark ++ rest))) =
      capture (mark ++ (tag ++ '\n' :: (text ++ '\n' :: (mark ++ rest)))) := by
    rw [List.append_assoc (prose ++ mark)]
    exact capture_prose absent _
  rw [opening, capture_mark, same, Option.some_or]

end Fence

theorem parseOutputObject_of_capture {serde : SerdeJson} {text : String} (shown : text ≠ "") :
    parseOutputObject serde text =
      (serde.fromStr (((Fence.capture text.toList).map String.ofList).getD text)).bind
        Value.asObject := by
  rw [parseOutputObject, if_neg shown]
  cases Fence.capture text.toList with
  | none => rfl
  | some found => rfl

section Objects

variable {serde : SerdeJson} (reads : serde.ReadsObjects)

include reads

/-- An object is read as it is, and out of a fenced block, whatever its strings hold. -/
theorem parseOutputObject_object {text : String} {members : Members}
    (object : serde.fromStr text = some (.object members)) :
    parseOutputObject serde text = some members ∧
      ∀ prose rest : String, prose.mentions "```" = false →
        parseOutputObject serde (prose ++ "```json\n" ++ text ++ "\n```" ++ rest) =
          some members := by
  have asList : serde.fromStr (String.ofList text.toList) = some (.object members) := by
    rw [String.ofList_toList]
    exact object
  have grammar := reads.accepts text.toList members asList
  constructor
  · have shown : text ≠ "" := by
      rintro rfl
      rcases grammar with ⟨before, inner, after, -, derives, -, split⟩
      rcases derives.braces with ⟨body, rfl⟩
      exact absurd (congrArg List.length split) (by simp)
    rw [parseOutputObject_of_capture shown, Fence.capture_lexed grammar.lexed, Option.map_none,
      Option.getD_none, object, Option.bind_some, Value.asObject]
  · intro prose rest absent
    have noMark : ¬Fence.mark <:+: prose.toList := by
      intro inside
      have found := (Text.occurs_iff_infix Fence.mark prose.toList).mpr inside
      exact absurd (found.symm.trans absent) (by decide)
    have whole : (prose ++ "```json\n" ++ text ++ "\n```" ++ rest).toList =
        prose.toList ++ Fence.mark ++ Fence.tag ++
          '\n' :: (text.toList ++ '\n' :: (Fence.mark ++ rest.toList)) := by
      have opening : "```json\n".toList = Fence.mark ++ Fence.tag ++ ['\n'] := rfl
      have closing : "\n```".toList = '\n' :: Fence.mark := rfl
      simp only [String.toList_append, opening, closing, List.append_assoc, List.cons_append,
        List.nil_append]
    have shown : prose ++ "```json\n" ++ text ++ "\n```" ++ rest ≠ "" := by
      intro same
      have length := congrArg List.length (whole.symm.trans (congrArg String.toList same))
      exact absurd length (by simp)
    rcases Fence.capture_object grammar noMark rest.toList with
      ⟨before, found, after, split, blank, blankAfter, same⟩
    rw [split, reads.blank before found after blank blankAfter] at asList
    rw [parseOutputObject_of_capture shown, whole, same, Option.map_some, Option.getD_some,
      asList, Option.bind_some, Value.asObject]

end Objects

def fenceInString : List Char :=
  "\x7b\"a\":\"```\"\x7d".toList

theorem derives_fenceInString : Derives .object fenceInString := by
  have key : StringBody ['a'] := .plain (by decide) (by decide) (by decide) .empty
  have mark : StringBody Fence.mark :=
    .plain (by decide) (by decide) (by decide) <|
      .plain (by decide) (by decide) (by decide) <|
        .plain (by decide) (by decide) (by decide) .empty
  have nothing : Blank [] := List.forall_mem_nil _
  exact .object (.lastMember (.member nothing key nothing (.element nothing (.string mark) nothing)))

def fenceSerde : SerdeJson :=
  .knowing fenceInString [("a", .string "```")]

theorem parseOutputObject_fenceInString :
    fenceSerde.fromStr (String.ofList fenceInString) = some (.object [("a", .string "```")]) ∧
      fenceSerde.ReadsObjects ∧
      (parseOutputObject fenceSerde (String.ofList fenceInString) =
          some [("a", .string "```")] ∧
        ∀ prose rest : String, prose.mentions "```" = false →
          parseOutputObject fenceSerde
              (prose ++ "```json\n" ++ String.ofList fenceInString ++ "\n```" ++ rest) =
            some [("a", .string "```")]) :=
  ⟨rfl, SerdeJson.readsObjects_knowing derives_fenceInString _,
    parseOutputObject_object (SerdeJson.readsObjects_knowing derives_fenceInString _) rfl⟩

end HarnessAgent
