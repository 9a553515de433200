import HarnessAgent.Foundation.Lists
import HarnessAgent.Provider.EventSubscription

/-! # What an event subscription delivers

The events of a well-formed stream against those that the client yields. A chunk that
ends inside a character spoils the character; a blank line with a carriage return does
not end a frame; and every data line is parsed by itself.
-/

namespace HarnessAgent

namespace OpenCode

open EventStream

/-! ## Payloads -/

def jsonBlank (character : Char) : Bool :=
  character = ' ' || character = '\t' || character = '\n' || character = '\r'

/-- A JSON text without the white space around it. -/
abbrev core (text : List Char) : List Char :=
  Text.strip jsonBlank text

def Blank (text : List Char) : Prop :=
  ∀ character ∈ text, jsonBlank character = true

/-- A frame whose data is a JSON text, as far as that matters here: a JSON text is neither
blank nor `[DONE]`. -/
structure JsonFrame extends Frame where
  plain : toFrame.Plain
  shown : core toFrame.data ≠ []
  notDone : core toFrame.data ≠ "[DONE]".toList

def streamText (stream : List JsonFrame) : List Char :=
  text (stream.map JsonFrame.toFrame)

/-- A line that adds only white space to the data and gives nothing to the parser. -/
def Silent (raw : List Char) : Prop :=
  Blank raw ∧ (raw = [' '] ∨ raw.head? ≠ some ' ')

/-- One line carries the data, with a space behind the colon. -/
def OneText (frame : Frame) : Prop :=
  ∃ front raw back, frame.seen = front ++ raw :: back ∧ raw.head? = some ' ' ∧
    ∀ other ∈ front ++ back, Silent other

theorem nonblank_of_high (high : 0x80 ≤ character.toNat) : jsonBlank character = false := by
  cases blank : jsonBlank character with
  | false => rfl
  | true =>
      simp only [jsonBlank, Bool.or_eq_true, decide_eq_true_eq] at blank
      rcases blank with ((rfl | rfl) | rfl) | rfl <;> exact absurd high (by decide)

variable {raw : List Char}

theorem eq_of_blank (blank : Blank raw) (wear : Text.Worn raw worn) : worn = raw := by
  apply wear.eq_of_ascii
  intro character member
  by_contra high
  have shown := nonblank_of_high (Nat.le_of_not_lt high)
  exact absurd ((blank character member).symm.trans shown) (by decide)

theorem core_value (raw : List Char) : core (value raw) = core raw := by
  unfold value
  split
  · next rest =>
      have space : ∀ character ∈ [' '], jsonBlank character = true := by
        intro character member
        rcases List.mem_singleton.mp member with rfl
        rfl
      exact (@Text.strip_of_blank_append jsonBlank [' '] rest space).symm
  · rfl

theorem blank_value : Blank (value raw) ↔ Blank raw := by
  rw [Blank, ← Text.strip_eq_nil_iff, Blank, ← Text.strip_eq_nil_iff]
  exact Eq.congr_left (core_value raw)

/-! ### Data of several lines -/

variable {texts : List (List Char)}

theorem intercalate_append (left : texts ≠ []) (right : others ≠ []) :
    ['\n'].intercalate (texts ++ others) =
      ['\n'].intercalate texts ++ '\n' :: ['\n'].intercalate others := by
  induction texts with
  | nil => exact absurd rfl left
  | cons text texts induction =>
      cases texts with
      | nil =>
          cases others with
          | nil => exact absurd rfl right
          | cons other others => simp
      | cons next texts =>
          have later := induction (List.cons_ne_nil _ _)
          rw [List.cons_append, List.cons_append, List.intercalate_cons_cons, ← List.cons_append,
            later, List.intercalate_cons_cons]
          simp

theorem mem_intercalate {text : List Char} (listed : text ∈ texts) (member : character ∈ text) :
    character ∈ ['\n'].intercalate texts := by
  induction texts with
  | nil => cases listed
  | cons first texts induction =>
      cases texts with
      | nil =>
          rcases List.mem_singleton.mp listed with rfl
          rwa [List.intercalate_singleton]
      | cons next texts =>
          rw [List.intercalate_cons_cons]
          rcases List.mem_cons.mp listed with rfl | later
          · exact List.mem_append_left _ (List.mem_append_left _ member)
          · exact List.mem_append_right _ (induction later)

theorem blank_intercalate (blank : ∀ text ∈ texts, Blank text) :
    Blank (['\n'].intercalate texts) := by
  induction texts with
  | nil =>
      intro character member
      cases member
  | cons first texts induction =>
      cases texts with
      | nil =>
          rw [List.intercalate_singleton]
          exact blank first List.mem_cons_self
      | cons next texts =>
          have later := induction fun text member => blank text (List.mem_cons_of_mem _ member)
          rw [List.intercalate_cons_cons]
          intro character member
          rcases List.mem_append.mp member with front | back
          · rcases List.mem_append.mp front with own | feed
            · exact blank first List.mem_cons_self character own
            · rcases List.mem_singleton.mp feed with rfl
              rfl
          · exact later character back

theorem core_intercalate {text : List Char} (before : ∀ other ∈ front, Blank other)
    (after : ∀ other ∈ back, Blank other) :
    core (['\n'].intercalate (front ++ text :: back)) = core text := by
  have behind : core (['\n'].intercalate (text :: back)) = core text := by
    cases back with
    | nil => rw [List.intercalate_singleton]
    | cons next back =>
        rw [List.intercalate_cons_cons, List.append_assoc]
        apply Text.strip_append_of_blank
        intro character member
        rcases List.mem_append.mp member with feed | later
        · rcases List.mem_singleton.mp feed with rfl
          rfl
        · exact blank_intercalate after character later
  cases front with
  | nil => exact behind
  | cons first front =>
      rw [intercalate_append (List.cons_ne_nil _ _) (List.cons_ne_nil _ _),
        show ∀ left right : List Char, left ++ '\n' :: right = (left ++ ['\n']) ++ right by simp]
      rw [← behind]
      apply Text.strip_of_blank_append
      intro character member
      rcases List.mem_append.mp member with own | feed
      · exact blank_intercalate before character own
      · rcases List.mem_singleton.mp feed with rfl
        rfl

theorem exists_only (shown : core (['\n'].intercalate texts) ≠ [])
    (single : '\n' ∉ core (['\n'].intercalate texts)) :
    ∃ front text back, texts = front ++ text :: back ∧ ∀ other ∈ front ++ back, Blank other := by
  have present : ∃ text ∈ texts, ¬ Blank text := by
    by_contra absent
    apply shown
    apply Text.strip_eq_nil_iff.mpr
    apply blank_intercalate
    intro text member
    by_contra own
    exact absent ⟨text, member, own⟩
  obtain ⟨text, listed, own⟩ := present
  have witness : ∀ {other : List Char}, ¬ Blank other →
      ∃ character ∈ other, jsonBlank character = false := by
    intro other nonblank
    by_contra absent
    apply nonblank
    intro character member
    cases isShown : jsonBlank character with
    | true => rfl
    | false => exact absurd ⟨character, member, isShown⟩ absent
  -- Two texts with something to show would keep the line feed between them.
  have apart : ∀ {left right : List (List Char)}, texts = left ++ right →
      (∃ other ∈ left, ¬ Blank other) → (∃ other ∈ right, ¬ Blank other) → False := by
    intro left right split first second
    obtain ⟨one, oneMember, oneShown⟩ := first
    obtain ⟨two, twoMember, twoShown⟩ := second
    obtain ⟨oneChar, oneIn, onePlain⟩ := witness oneShown
    obtain ⟨twoChar, twoIn, twoPlain⟩ := witness twoShown
    apply single
    rw [split, intercalate_append (List.ne_nil_of_mem oneMember) (List.ne_nil_of_mem twoMember)]
    exact Text.mem_strip_of_between ⟨oneChar, mem_intercalate oneMember oneIn, onePlain⟩
      ⟨twoChar, mem_intercalate twoMember twoIn, twoPlain⟩
  obtain ⟨front, back, split⟩ := List.append_of_mem listed
  refine ⟨front, text, back, split, ?_⟩
  intro other member
  by_contra nonblank
  rcases List.mem_append.mp member with before | after
  · exact apart split ⟨other, before, nonblank⟩ ⟨text, List.mem_cons_self, own⟩
  · have moved : texts = (front ++ [text]) ++ back := by
      rw [split]
      simp
    exact apart moved ⟨text, by simp, own⟩ ⟨other, after, nonblank⟩

/-! ### What is seen of a frame -/

theorem value_append_carriage (raw : List Char) : value (raw ++ ['\r']) = value raw ++ ['\r'] := by
  cases raw with
  | nil => rfl
  | cons first rest =>
      by_cases space : first = ' '
      · rw [space]
        rfl
      · have kept : ∀ tail, value (first :: tail) = first :: tail := by
          intro tail
          unfold value
          split
          · next same => exact absurd (List.cons.inj same).1 space
          · rfl
        rw [List.cons_append, kept, kept]
        rfl

theorem core_data (frame : Frame) (present : frame.lines ≠ []) :
    core frame.data = core (['\n'].intercalate (frame.seen.map value)) := by
  rw [Frame.data, Frame.seen]
  cases frame.ending with
  | crlf =>
      rw [seenLines_crlf, List.map_map]
      rfl
  | lf =>
      obtain ⟨front, last, split⟩ := (List.eq_nil_or_concat' frame.lines).resolve_left present
      rw [split, seenLines_lf, List.map_append, List.map_append, List.map_map]
      cases last.ending with
      | lf => simp [LineEnd.carriage, Function.comp_def]
      | crlf =>
          have joined : ∀ (texts : List (List Char)) (text : List Char),
              ['\n'].intercalate (texts ++ [text ++ ['\r']]) =
                ['\n'].intercalate (texts ++ [text]) ++ ['\r'] := by
            intro texts text
            cases texts with
            | nil => simp
            | cons first texts =>
                rw [intercalate_append (List.cons_ne_nil _ _) (List.cons_ne_nil _ _),
                  intercalate_append (List.cons_ne_nil _ _) (List.cons_ne_nil _ _)]
                simp
          rw [List.map_singleton, List.map_singleton, LineEnd.carriage, value_append_carriage,
            joined]
          apply Eq.symm
          apply Text.strip_append_of_blank
          intro character member
          rcases List.mem_singleton.mp member with rfl
          rfl

def given (raw : List Char) : Option (List Char) :=
  dataText (field ++ raw)

theorem given_eq_some_iff {data : List Char} :
    given raw = some data ↔ raw = ' ' :: data ∧ data ≠ [] ∧ data ≠ "[DONE]".toList := by
  have literal : ∀ rest, given (' ' :: rest) =
      if rest = [] ∨ rest = "[DONE]".toList then none else some rest := fun _ => rfl
  constructor
  · intro found
    cases raw with
    | nil => cases found
    | cons first rest =>
        by_cases space : first = ' '
        · rcases space with rfl
          rw [literal] at found
          split at found
          · cases found
          · next usable =>
              rcases not_or.mp usable with ⟨shown, other⟩
              cases found
              exact ⟨rfl, shown, other⟩
        · have nothing : given (first :: rest) = none := by
            have differs : (' ' == first) = false := by
              simpa using fun same : ' ' = first => space same.symm
            simp [given, dataText, field, Text.afterLiteral, List.isPrefixOf?, differs]
          rw [nothing] at found
          cases found
  · intro parts
    rcases parts with ⟨rfl, shown, other⟩
    rw [literal, if_neg (not_or.mpr ⟨shown, other⟩)]

theorem handed_eq (frame : Frame) : handed frame = frame.seen.filterMap given := by
  have blankLine : dataText [] = none := rfl
  rw [handed, Frame.read, List.filterMap_append, List.filterMap_map]
  split
  · rw [List.filterMap_nil, List.append_nil]
    rfl
  · rw [List.filterMap_cons, blankLine, List.filterMap_nil, List.append_nil]
    rfl

theorem silent_of_given (blank : Blank raw)
    (nothing : ∀ data, given raw = some data → core data ≠ []) : Silent raw ∧ given raw = none := by
  have absent : given raw = none := by
    cases found : given raw with
    | none => rfl
    | some data =>
        exfalso
        apply nothing data found
        apply Text.strip_eq_nil_iff.mpr
        intro character member
        apply blank
        rw [(given_eq_some_iff.mp found).1]
        exact List.mem_cons_of_mem _ member
  refine ⟨⟨blank, ?_⟩, absent⟩
  by_cases space : raw.head? = some ' '
  · left
    cases raw with
    | nil => cases space
    | cons first rest =>
        rw [List.head?_cons, Option.some.injEq] at space
        rcases space with rfl
        by_contra longer
        have shown : rest ≠ [] := fun same => longer (by rw [same])
        have other : rest ≠ "[DONE]".toList := by
          rintro rfl
          exact absurd (blank 'D' (by decide)) (by decide)
        rw [given_eq_some_iff.mpr ⟨rfl, shown, other⟩] at absent
        cases absent
  · exact .inr space

theorem given_of_silent (silent : Silent raw) : given raw = none := by
  cases found : given raw with
  | none => rfl
  | some data =>
      obtain ⟨rfl, shown, -⟩ := given_eq_some_iff.mp found
      rcases silent.2 with single | other
      · exact absurd (List.cons.inj single).2 shown
      · exact absurd rfl other

theorem core_cons_space (data : List Char) : core (' ' :: data) = core data :=
  (core_value (' ' :: data)).symm

theorem head_of_worn (wear : Text.Worn raw (' ' :: data)) : raw.head? = some ' ' := by
  generalize whole : ' ' :: data = worn at wear
  cases wear with
  | nil => cases whole
  | kept character later =>
      rw [(List.cons.inj whole).1]
      rfl
  | @broken character count text worn wide several later =>
      exfalso
      cases count with
      | zero => omega
      | succ count =>
          rw [List.replicate_succ, List.cons_append] at whole
          exact absurd (List.cons.inj whole).1 (by decide)

theorem eq_of_core (wear : Text.Worn raw worn) (same : core worn = core raw) : worn = raw := by
  have counts := congrArg (List.countP fun character => !jsonBlank character) same
  rw [Text.countP_strip, Text.countP_strip] at counts
  apply wear.eq_of_countP_le _ (Nat.le_of_eq counts)
  intro character high
  rw [nonblank_of_high high]
  rfl

theorem eq_of_blanks (wear : List.Forall₂ Text.Worn texts worn) (blank : ∀ text ∈ texts, Blank text) :
    worn = texts := by
  induction wear with
  | nil => rfl
  | cons own later induction =>
      rw [eq_of_blank (blank _ List.mem_cons_self) own,
        induction fun text member => blank text (List.mem_cons_of_mem _ member)]

theorem handed_of_worn (frame : JsonFrame) {worn : Frame} (wear : frame.toFrame.Wear worn)
    (single : '\n' ∉ core frame.data) (shown : ∀ data ∈ handed worn, core data ≠ []) :
    handed worn = [] ∨ OneText frame.toFrame ∧ ∃ data, handed worn = [data] ∧
      (core data = core frame.data → worn = frame.toFrame) := by
  have joined := core_data frame.toFrame frame.plain.present
  have notBlank := frame.shown
  rw [joined] at single notBlank
  obtain ⟨valuesFront, text, valuesBack, split, blanks⟩ := exists_only notBlank single
  obtain ⟨front, rest, seen, frontValues, restValues⟩ := List.map_eq_append_iff.mp split
  obtain ⟨raw, back, rfl, rfl, backValues⟩ := List.map_eq_cons_iff.mp restValues
  rw [← frontValues, ← backValues] at blanks
  have blank : ∀ other ∈ front ++ back, Blank other := by
    intro other member
    apply blank_value.mp
    apply blanks
    rw [← List.map_append]
    exact List.mem_map_of_mem member
  have data : core frame.data = core raw := by
    rw [joined, split, core_intercalate, core_value]
    · intro other member
      apply blanks
      rw [frontValues]
      exact List.mem_append_left _ member
    · intro other member
      apply blanks
      rw [backValues]
      exact List.mem_append_right _ member
  have seenWear := wear.seen
  rw [seen] at seenWear
  obtain ⟨wornFront, wornRest, wornSeen, fronts, rests⟩ := exists_of_forall₂_append seenWear
  obtain ⟨wornRaw, wornBack, own, backs, rfl⟩ := List.forall₂_cons_left_iff.mp rests
  rw [eq_of_blanks fronts fun other member => blank other (List.mem_append_left _ member),
    eq_of_blanks backs fun other member => blank other (List.mem_append_right _ member)] at wornSeen
  rw [handed_eq, wornSeen, List.filterMap_append, List.filterMap_cons] at shown ⊢
  have quiet : ∀ other ∈ front ++ back, Silent other ∧ given other = none := by
    intro other member
    apply silent_of_given (blank other member)
    intro found foundEq
    apply shown
    rcases List.mem_append.mp member with before | after
    · exact List.mem_append_left _ (List.mem_filterMap.mpr ⟨other, before, foundEq⟩)
    · apply List.mem_append_right
      have later : found ∈ back.filterMap given := List.mem_filterMap.mpr ⟨other, after, foundEq⟩
      split
      · exact later
      · exact List.mem_cons_of_mem _ later
  have absent : ∀ {others : List (List Char)}, (∀ other ∈ others, given other = none) →
      others.filterMap given = [] := by
    intro others all
    exact List.filterMap_eq_nil_iff.mpr all
  rw [absent fun other member => (quiet other (List.mem_append_left _ member)).2,
    absent fun other member => (quiet other (List.mem_append_right _ member)).2, List.nil_append]
  cases found : given wornRaw with
  | none => exact .inl rfl
  | some ownPart =>
      right
      have starts := (given_eq_some_iff.mp found).1
      rw [starts] at own
      refine ⟨⟨front, raw, back, seen, head_of_worn own, fun other member =>
        (quiet other member).1⟩, ownPart, rfl, ?_⟩
      intro same
      apply wear.eq_of_seen
      rw [wornSeen, seen, starts, eq_of_core own]
      rw [core_cons_space, same, data]

theorem handed_of_oneText (frame : JsonFrame) (one : OneText frame.toFrame) :
    ∃ data, handed frame.toFrame = [data] ∧ core data = core frame.data := by
  obtain ⟨front, raw, back, seen, space, silent⟩ := one
  have blank : ∀ other ∈ front ++ back, Blank (value other) := fun other member =>
    blank_value.mpr (silent other member).1
  have joined : core frame.data = core raw := by
    rw [core_data frame.toFrame frame.plain.present, seen, List.map_append, List.map_cons,
      core_intercalate, core_value]
    · intro other member
      obtain ⟨own, listed, rfl⟩ := List.mem_map.mp member
      exact blank own (List.mem_append_left _ listed)
    · intro other member
      obtain ⟨own, listed, rfl⟩ := List.mem_map.mp member
      exact blank own (List.mem_append_right _ listed)
  cases raw with
  | nil => cases space
  | cons first data =>
      rw [List.head?_cons, Option.some.injEq] at space
      rcases space with rfl
      rw [core_cons_space] at joined
      have shown : data ≠ [] := by
        rintro rfl
        exact frame.shown joined
      have other : data ≠ "[DONE]".toList := by
        rintro rfl
        exact frame.notDone (joined.trans (by decide))
      have quiet : ∀ {others : List (List Char)}, (∀ other ∈ others, other ∈ front ++ back) →
          others.filterMap given = [] := by
        intro others listed
        apply List.filterMap_eq_nil_iff.mpr
        intro each member
        exact given_of_silent (silent each (listed each member))
      refine ⟨data, ?_, joined.symm⟩
      rw [handed_eq, seen, List.filterMap_append, List.filterMap_cons,
        given_eq_some_iff.mpr ⟨rfl, shown, other⟩,
        quiet fun each member => List.mem_append_left _ member,
        quiet fun each member => List.mem_append_right _ member]
      rfl

/-! ## Whole streams -/

theorem not_mem_of_handed (plain : frame.Plain) (member : data ∈ handed frame) : '\n' ∉ data := by
  have lines : ∀ (ending : LineEnd) (lines : List DataLine),
      (∀ line ∈ lines, '\n' ∉ line.raw) → ∀ raw ∈ seenLines ending lines, '\n' ∉ raw := by
    intro ending lines
    fun_induction seenLines ending lines with
    | case1 =>
        intro single raw listed
        cases listed
    | case2 line =>
        intro single raw listed
        rcases List.mem_singleton.mp listed with rfl
        have carriage : '\n' ∉ (if ending = .lf then line.ending.carriage else []) := by
          cases ending <;> cases line.ending <;> decide
        exact fun fed => (List.mem_append.mp fed).elim (single line List.mem_cons_self) carriage
    | case3 line next rest induction =>
        intro single raw listed
        rcases List.mem_cons.mp listed with rfl | later
        · exact single line List.mem_cons_self
        · exact induction (fun other own => single other (List.mem_cons_of_mem _ own)) raw later
  rw [handed_eq] at member
  obtain ⟨raw, listed, found⟩ := List.mem_filterMap.mp member
  have single := lines frame.ending frame.lines (fun line own => (plain.single line own).1) raw
    listed
  rw [(given_eq_some_iff.mp found).1] at single
  exact fun fed => single (List.mem_cons_of_mem _ fed)

theorem mem_of_mem_core {text : List Char} (member : character ∈ core text) : character ∈ text := by
  obtain ⟨before, after, -, -, whole⟩ := Text.exists_strip jsonBlank text
  rw [whole]
  exact List.mem_append_left _ (List.mem_append_right _ member)

def Agrees (frame : JsonFrame) (worn : Frame) : Prop :=
  handed worn = [] ∨ OneText frame.toFrame ∧ ∃ data, handed worn = [data] ∧
    (core data = core frame.data → worn = frame.toFrame)

theorem Agrees.length_le {frame : JsonFrame} {worn : Frame} (agrees : Agrees frame worn) :
    (handed worn).length ≤ 1 := by
  rcases agrees with nothing | ⟨-, data, one, -⟩
  · rw [nothing]
    exact Nat.zero_le 1
  · rw [one]
    exact Nat.le_refl 1

theorem length_handed_le {frames : List Frame}
    (short : ∀ frame ∈ frames, (handed frame).length ≤ 1) :
    (frames.flatMap handed).length ≤ frames.length := by
  induction frames with
  | nil => exact Nat.le_refl 0
  | cons frame frames induction =>
      have first := short frame List.mem_cons_self
      have later := induction fun other member => short other (List.mem_cons_of_mem _ member)
      rw [List.flatMap_cons, List.length_append, List.length_cons]
      omega

theorem eq_of_agrees {stream : List JsonFrame} {worn : List Frame}
    (agrees : List.Forall₂ Agrees stream worn)
    (same : (worn.flatMap handed).map core = stream.map fun frame => core frame.data) :
    (∀ frame ∈ stream, OneText frame.toFrame) ∧ worn = stream.map JsonFrame.toFrame := by
  induction agrees with
  | nil => exact ⟨fun frame member => absurd member List.not_mem_nil, rfl⟩
  | @cons frame wornFrame stream worn own later induction =>
      have short : (worn.flatMap handed).length ≤ worn.length := by
        apply length_handed_le
        clear induction same
        induction later with
        | nil =>
            intro frame member
            cases member
        | cons own later induction =>
            intro frame member
            rcases List.mem_cons.mp member with rfl | member
            · exact own.length_le
            · exact induction frame member
      rw [List.flatMap_cons, List.map_append] at same
      rcases own with nothing | ⟨one, data, handedOne, unworn⟩
      · have lengths := congrArg List.length same
        rw [nothing, List.map_nil, List.nil_append, List.length_map, List.length_map,
          List.length_cons, later.length_eq] at lengths
        omega
      · rw [handedOne, List.map_singleton, List.map_cons, List.singleton_append,
          List.cons.injEq] at same
        obtain ⟨others, rest⟩ := induction same.2
        constructor
        · intro other member
          rcases List.mem_cons.mp member with rfl | member
          · exact one
          · exact others other member
        · rw [unworn same.1, rest]
          rfl

theorem dataTexts_of_text {chunks : List (List UInt8)} {frames : List Frame}
    (plain : ∀ frame ∈ frames, frame.Plain)
    (decoded : chunks.flatMap Text.fromUtf8Lossy = text frames) :
    dataTexts chunks = (delivered frames).flatMap handed := by
  have all := frameTexts_drain frames plain [] (by simp) (by simp)
  rw [dataTexts_eq, decoded]
  exact all

theorem delivered_eq_self_iff (frames : List Frame) :
    delivered frames = frames ↔ ∀ frame ∈ frames.getLast?, frame.ending = .lf := by
  rw [delivered, List.rdropWhile_eq_self_iff]
  constructor
  · intro ends frame last
    have shown : frames ≠ [] := List.ne_nil_of_mem (List.mem_of_getLast? last)
    have own := ends shown
    rw [List.getLast?_eq_getLast_of_ne_nil shown, Option.mem_some_iff] at last
    rw [last] at own
    cases ending : frame.ending with
    | lf => rfl
    | crlf => exact absurd (decide_eq_true ending) own
  · intro ends shown crlf
    have own := ends _ (List.getLast?_eq_getLast_of_ne_nil shown)
    rw [own] at crlf
    cases crlf

theorem exists_of_forall₂_mem {α β : Type} {relation : α → β → Prop} {left : List α}
    {right : List β} (related : List.Forall₂ relation left right) {item : β}
    (member : item ∈ right) : ∃ other ∈ left, relation other item := by
  induction related with
  | nil => cases member
  | cons own later induction =>
      rcases List.mem_cons.mp member with rfl | member
      · exact ⟨_, List.mem_cons_self, own⟩
      · obtain ⟨other, listed, found⟩ := induction member
        exact ⟨other, List.mem_cons_of_mem _ listed, found⟩

section Texts

variable {stream : List JsonFrame} {worn : List Frame}

theorem not_mem_core_of_texts (plain : ∀ frame ∈ delivered worn, frame.Plain)
    (same : ((delivered worn).flatMap handed).map core = stream.map fun frame => core frame.data) :
    ∀ frame ∈ stream, '\n' ∉ core frame.data := by
  intro frame member
  have listed : core frame.data ∈ ((delivered worn).flatMap handed).map core := by
    rw [same]
    exact List.mem_map_of_mem member
  obtain ⟨data, dataMember, dataCore⟩ := List.mem_map.mp listed
  obtain ⟨own, ownMember, handedOwn⟩ := List.mem_flatMap.mp dataMember
  rw [← dataCore]
  exact fun fed => not_mem_of_handed (plain own ownMember) handedOwn (mem_of_mem_core fed)

theorem core_ne_nil_of_texts
    (same : ((delivered worn).flatMap handed).map core = stream.map fun frame => core frame.data) :
    ∀ own ∈ delivered worn, ∀ data ∈ handed own, core data ≠ [] := by
  intro own ownMember data handedOwn
  have listed : core data ∈ ((delivered worn).flatMap handed).map core :=
    List.mem_map_of_mem (List.mem_flatMap.mpr ⟨own, ownMember, handedOwn⟩)
  rw [same] at listed
  obtain ⟨frame, -, dataCore⟩ := List.mem_map.mp listed
  rw [← dataCore]
  exact frame.shown

theorem forall₂_agrees
    (pairs : List.Forall₂ (fun (frame : JsonFrame) other => frame.toFrame.Wear other) stream worn)
    (single : ∀ frame ∈ stream, '\n' ∉ core frame.data)
    (shown : ∀ own ∈ worn, ∀ data ∈ handed own, core data ≠ []) :
    List.Forall₂ Agrees stream worn := by
  induction pairs with
  | nil => exact .nil
  | cons own later induction =>
      apply List.Forall₂.cons
      · exact handed_of_worn _ own (single _ List.mem_cons_self) (shown _ List.mem_cons_self)
      · exact induction (fun frame member => single frame (List.mem_cons_of_mem _ member))
          fun frame member => shown frame (List.mem_cons_of_mem _ member)

/-- There are as many texts as frames, and no frame gives more than one. -/
theorem delivered_eq_of_texts
    (pairs : List.Forall₂ (fun (frame : JsonFrame) other => frame.toFrame.Wear other) stream worn)
    (single : ∀ frame ∈ stream, '\n' ∉ core frame.data)
    (same : ((delivered worn).flatMap handed).map core = stream.map fun frame => core frame.data) :
    delivered worn = worn := by
  have part : delivered worn <+: worn := List.rdropWhile_prefix _ _
  have short : ∀ own ∈ delivered worn, (handed own).length ≤ 1 := by
    intro own ownMember
    obtain ⟨frame, member, wearing⟩ := exists_of_forall₂_mem pairs (part.subset ownMember)
    have agrees : Agrees frame own :=
      handed_of_worn frame wearing (single frame member) (core_ne_nil_of_texts same own ownMember)
    exact agrees.length_le
  apply part.eq_of_length
  have counts := congrArg List.length same
  have few := length_handed_le short
  have least := part.length_le
  rw [List.length_map, List.length_map, pairs.length_eq] at counts
  omega

theorem texts_of_oneText (one : ∀ frame ∈ stream, OneText frame.toFrame) :
    ((stream.map JsonFrame.toFrame).flatMap handed).map core =
      stream.map fun frame => core frame.data := by
  induction stream with
  | nil => rfl
  | cons frame stream induction =>
      obtain ⟨data, handedOne, same⟩ := handed_of_oneText frame (one frame List.mem_cons_self)
      have later := induction fun other member => one other (List.mem_cons_of_mem _ member)
      rw [List.map_cons, List.flatMap_cons, List.map_append, handedOne, later, List.map_singleton,
        List.map_cons, same]
      rfl

end Texts

/-- The texts given to the parser are the JSON texts of the frames exactly when no chunk
ends inside a character, the last frame is ended by a bare line feed, and every frame has
one data line with a space behind its colon and nothing else to show. -/
theorem texts_iff (stream : List JsonFrame) (chunks : List (List UInt8))
    (arrives : chunks.flatten = Text.utf8 (streamText stream)) :
    (dataTexts chunks).map core = stream.map (fun frame => core frame.data) ↔
      (∀ chunk ∈ chunks, Text.IsUtf8 chunk) ∧
        (∀ frame ∈ stream.getLast?, frame.ending = .lf) ∧
          ∀ frame ∈ stream, OneText frame.toFrame := by
  obtain ⟨wear, valid⟩ := Text.exists_worn chunks arrives
  have last : (∀ frame ∈ (stream.map JsonFrame.toFrame).getLast?, frame.ending = .lf) ↔
      ∀ frame ∈ stream.getLast?, frame.ending = .lf := by
    rw [List.getLast?_map]
    cases stream.getLast? <;> simp
  have plain : ∀ frame ∈ stream.map JsonFrame.toFrame, frame.Plain := by
    intro frame member
    obtain ⟨own, -, rfl⟩ := List.mem_map.mp member
    exact own.plain
  constructor
  · intro same
    obtain ⟨worn, decoded, wears⟩ := exists_of_worn wear
    have wornPlain : ∀ frame ∈ worn, frame.Plain := by
      intro frame member
      obtain ⟨own, listed, wearing⟩ := exists_of_forall₂_mem wears member
      exact wearing.plain (plain own listed)
    rw [dataTexts_of_text wornPlain decoded] at same
    have pairs : List.Forall₂ (fun (frame : JsonFrame) other => frame.toFrame.Wear other) stream
        worn := List.forall₂_map_left_iff.mp wears
    have part : delivered worn <+: worn := List.rdropWhile_prefix _ _
    have single := not_mem_core_of_texts (fun own member => wornPlain own (part.subset member)) same
    have all := delivered_eq_of_texts pairs single same
    have shown := core_ne_nil_of_texts same
    rw [all] at same shown
    obtain ⟨one, unworn⟩ := eq_of_agrees (forall₂_agrees pairs single shown) same
    rw [unworn] at decoded all
    exact ⟨valid.mp decoded, last.mp ((delivered_eq_self_iff _).mp all), one⟩
  · rintro ⟨whole, ends, one⟩
    rw [dataTexts_of_text plain (valid.mpr whole),
      (delivered_eq_self_iff _).mpr (last.mpr ends)]
    exact texts_of_oneText one

/-! ## Events -/

/-- White space around a JSON text does not change what is read from it. -/
def IgnoresBlanks (fromStr : String → Except String Value) : Prop :=
  ∀ left right value, core left = core right → fromStr (String.ofList left) = .ok value →
    fromStr (String.ofList right) = .ok value

def JsonFrame.event (fromStr : String → Except String Value) (frame : JsonFrame) :
    Option SseEvent :=
  match fromStr (String.ofList frame.data) with
  | .ok (.object object) => some (.ofObject object)
  | _ => none

theorem readTexts_of_core (ignores : IgnoresBlanks fromStr) {stream : List JsonFrame}
    (same : texts.map core = stream.map fun frame => core frame.data)
    (accepts : ∀ frame ∈ stream, ∃ value, fromStr (String.ofList frame.data) = .ok value) :
    readTexts fromStr texts = ⟨stream.filterMap (JsonFrame.event fromStr), none⟩ := by
  induction stream generalizing texts with
  | nil =>
      rw [List.map_eq_nil_iff.mp same]
      rfl
  | cons frame stream induction =>
      obtain ⟨data, rest, rfl, own, others⟩ := List.map_eq_cons_iff.mp same
      obtain ⟨value, read⟩ := accepts frame List.mem_cons_self
      have later := induction others fun other member =>
        accepts other (List.mem_cons_of_mem _ member)
      have parsed : fromStr (String.ofList data) = .ok value :=
        ignores frame.data data value own.symm read
      rw [readTexts, parsed, List.filterMap_cons, JsonFrame.event, read]
      cases value with
      | object object => simp only [later]
      | _ => exact later

/-- The client gives the JSON texts of the frames to the parser, in order and none else,
and yields their events. -/
structure Delivers (stream : List JsonFrame) (chunks : List (List UInt8)) : Prop where
  texts : (dataTexts chunks).map core = stream.map fun frame => core frame.data
  events : ∀ fromStr, IgnoresBlanks fromStr →
    (∀ frame ∈ stream, ∃ value, fromStr (String.ofList frame.data) = .ok value) →
      subscribeEvents fromStr (chunks.map .ok) =
        (stream.filterMap (JsonFrame.event fromStr)).map .ok

/-- The events of a stream arrive exactly when no chunk ends inside a character, the last
frame is ended by a bare line feed, and every frame has one data line with a space behind
its colon and nothing else to show. -/
theorem delivers_iff (stream : List JsonFrame) (chunks : List (List UInt8))
    (arrives : chunks.flatten = Text.utf8 (streamText stream)) :
    Delivers stream chunks ↔
      (∀ chunk ∈ chunks, Text.IsUtf8 chunk) ∧
        (∀ frame ∈ stream.getLast?, frame.ending = .lf) ∧
          ∀ frame ∈ stream, OneText frame.toFrame := by
  rw [← texts_iff stream chunks arrives]
  constructor
  · exact Delivers.texts
  · intro texts
    constructor
    · exact texts
    · intro fromStr ignores accepts
      rw [subscribeEvents_ok, readTexts_of_core ignores texts accepts]
      exact List.append_nil _

def accent : JsonFrame where
  lines := [⟨" \x7b\"type\":\"é\"\x7d".toList, .lf⟩]
  ending := .lf
  plain := ⟨by decide, by decide⟩
  shown := by decide
  notDone := by decide

def cutAccent : List (List UInt8) :=
  [Text.utf8 "data: \x7b\"type\":\"".toList ++ [0xC3],
    [0xA9] ++ Text.utf8 "\"\x7d\n\n".toList]

theorem delivers_accent : Delivers [accent] [Text.utf8 (streamText [accent])] := by
  apply (delivers_iff [accent] [Text.utf8 (streamText [accent])] List.flatten_singleton).mpr
  constructor
  · intro chunk member
    exact ⟨streamText [accent], List.mem_singleton.mp member⟩
  · constructor
    · intro frame member
      rw [← Option.some.inj member]
      rfl
    · intro frame member
      rw [List.mem_singleton.mp member]
      exact ⟨[], " \x7b\"type\":\"é\"\x7d".toList, [], by decide, by decide,
        fun other absent => absurd absent List.not_mem_nil⟩

/-- The two halves of the character become two replacement characters. -/
theorem not_delivers_cutAccent :
    cutAccent.flatten = Text.utf8 (streamText [accent]) ∧ ¬Delivers [accent] cutAccent := by
  have arrives : cutAccent.flatten = Text.utf8 (streamText [accent]) := by decide
  constructor
  · exact arrives
  · intro delivers
    obtain ⟨whole, -⟩ := (texts_iff [accent] cutAccent arrives).mp delivers.texts
    obtain ⟨text, bytes⟩ := whole _ List.mem_cons_self
    have start : Text.fromUtf8Lossy [0xC3] = [Text.replacement] :=
      @Text.fromUtf8Lossy_start 'é' [0xC3] [0xA9] (by decide) (by decide) (by decide)
    have decoded := congrArg Text.fromUtf8Lossy bytes
    rw [Text.fromUtf8Lossy_utf8_append, start, Text.fromUtf8Lossy_utf8] at decoded
    rw [← decoded] at bytes
    exact absurd bytes (by decide)

end OpenCode

end HarnessAgent
