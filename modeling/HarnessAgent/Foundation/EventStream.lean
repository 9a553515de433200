import HarnessAgent.Foundation.Framing
import HarnessAgent.Foundation.Utf8Lossy

/-! # Event streams

The text format of server-sent events: frames of data lines, each frame ended by a blank
line. Also the two facts about texts that readers of the format need: what is left of a
text without what surrounds it, and where two line feeds follow each other.
-/

namespace Text

/-! ## Surroundings -/

section Strip

variable (blank : Char → Bool)

def strip (text : List Char) : List Char :=
  (text.dropWhile blank).rdropWhile blank

variable {blank}

theorem strip_append_of_blank {text : List Char}
    (blanks : ∀ character ∈ after, blank character = true) :
    strip blank (text ++ after) = strip blank text := by
  have ended : ∀ front : List Char, (front ++ after).rdropWhile blank = front.rdropWhile blank := by
    intro front
    rw [List.rdropWhile, List.reverse_append, List.dropWhile_append_of_pos, List.rdropWhile]
    intro character member
    exact blanks character (List.mem_reverse.mp member)
  rw [strip, strip, List.dropWhile_append]
  split
  next empty =>
    have left : text.dropWhile blank = [] := List.isEmpty_iff.mp empty
    have right : after.dropWhile blank = [] := List.dropWhile_eq_nil_iff.mpr blanks
    rw [left, right]
  next => exact ended _

theorem strip_of_blank_append {before text : List Char}
    (blanks : ∀ character ∈ before, blank character = true) :
    strip blank (before ++ text) = strip blank text := by
  rw [strip, List.dropWhile_append_of_pos blanks, strip]

theorem exists_strip (blank : Char → Bool) (text : List Char) :
    ∃ before after, (∀ character ∈ before, blank character = true) ∧
      (∀ character ∈ after, blank character = true) ∧
      text = before ++ strip blank text ++ after := by
  refine ⟨text.takeWhile blank, (text.dropWhile blank).rtakeWhile blank, ?_, ?_, ?_⟩
  · intro character member
    exact List.mem_takeWhile_imp member
  · intro character member
    exact List.mem_rtakeWhile_imp member
  · have ends : strip blank text ++ (text.dropWhile blank).rtakeWhile blank =
        text.dropWhile blank := List.rdropWhile_append_rtakeWhile
    rw [List.append_assoc, ends]
    exact List.takeWhile_append_dropWhile.symm

theorem strip_eq_nil_iff {text : List Char} :
    strip blank text = [] ↔ ∀ character ∈ text, blank character = true := by
  constructor
  · intro nothing
    obtain ⟨before, after, front, back, whole⟩ := exists_strip blank text
    rw [nothing, List.append_nil] at whole
    intro character member
    rw [whole] at member
    exact (List.mem_append.mp member).elim (front character) (back character)
  · intro blanks
    rw [← List.append_nil text, strip_of_blank_append blanks]
    rfl

theorem countP_strip (text : List Char) :
    (strip blank text).countP (fun character => !blank character) =
      text.countP (fun character => !blank character) := by
  obtain ⟨before, after, front, back, whole⟩ := exists_strip blank text
  have lacking : ∀ {blanks : List Char}, (∀ character ∈ blanks, blank character = true) →
      blanks.countP (fun character => !blank character) = 0 := by
    intro blanks all
    apply List.countP_eq_zero.mpr
    intro character member
    simp [all character member]
  have counted := congrArg (List.countP fun character => !blank character) whole
  rw [List.countP_append, List.countP_append, lacking front, lacking back] at counted
  omega

theorem mem_strip_of_between {character : Char} (before : ∃ other ∈ left, blank other = false)
    (after : ∃ other ∈ right, blank other = false) :
    character ∈ strip blank (left ++ character :: right) := by
  have kept : ∀ {text : List Char}, (∃ other ∈ text, blank other = false) →
      (text.dropWhile blank).isEmpty = false := by
    intro text shown
    obtain ⟨other, member, stays⟩ := shown
    apply Bool.eq_false_iff.mpr
    intro empty
    have all := List.dropWhile_eq_nil_iff.mp (List.isEmpty_iff.mp empty) other member
    exact absurd (stays.symm.trans all) (by decide)
  have back : ∃ other ∈ right.reverse, blank other = false := by
    obtain ⟨other, member, stays⟩ := after
    exact ⟨other, List.mem_reverse.mpr member, stays⟩
  have first := kept before
  have last := kept back
  rw [strip, List.dropWhile_append, first, if_neg (by decide), List.rdropWhile,
    List.reverse_append, List.reverse_cons, List.append_assoc, List.dropWhile_append, last,
    if_neg (by decide)]
  simp

end Strip

/-! ## Line feeds -/

def unlines (lines : List (List Char)) : List Char :=
  lines.flatMap (· ++ ['\n'])

@[simp] theorem unlines_cons (line : List Char) (lines : List (List Char)) :
    unlines (line :: lines) = line ++ '\n' :: unlines lines := by
  simp [unlines]

@[simp] theorem unlines_append (left right : List (List Char)) :
    unlines (left ++ right) = unlines left ++ unlines right :=
  List.flatMap_append

theorem splitInclusive_cons_line (whole : '\n' ∉ line) (rest : List Char) :
    splitInclusive (line ++ '\n' :: rest) = (line ++ ['\n']) :: splitInclusive rest := by
  induction line with
  | nil => rfl
  | cons character line induction =>
      have parts := List.ne_and_not_mem_of_not_mem_cons whole
      have other : ¬ character = '\n' := fun same => parts.1 same.symm
      rw [List.cons_append, splitInclusive, if_neg other, induction parts.2]
      rfl

variable {lines : List (List Char)}

theorem lines_unlines_append (whole : ∀ line ∈ lines, '\n' ∉ line) (wholeLast : '\n' ∉ last)
    (shown : last ≠ []) :
    Text.lines (unlines lines ++ last) =
      lines.map (fun line => stripLineEnd (line ++ ['\n'])) ++ [last] := by
  induction lines with
  | nil => exact lines_of_not_mem wholeLast shown
  | cons line lines induction =>
      have first := splitInclusive_cons_line (whole line List.mem_cons_self)
        (unlines lines ++ last)
      have others := induction fun other member => whole other (List.mem_cons_of_mem _ member)
      rw [Text.lines] at others ⊢
      rw [unlines_cons, List.append_assoc, List.cons_append, first, List.map_cons, others]
      rfl

theorem splitOn_unlines (whole : ∀ line ∈ lines, '\n' ∉ line) :
    (unlines lines).splitOn '\n' = lines ++ [[]] := by
  induction lines with
  | nil => rfl
  | cons line lines induction =>
      rw [unlines_cons, List.splitOn_append_cons_self,
        List.splitOn_eq_singleton (whole line List.mem_cons_self),
        induction fun other member => whole other (List.mem_cons_of_mem _ member)]
      rfl

theorem not_feeds_infix_unlines (whole : ∀ line ∈ lines, '\n' ∉ line)
    (shown : ∀ line ∈ lines, line ≠ []) : ¬['\n', '\n'] <:+: unlines lines := by
  induction lines with
  | nil => exact fun inside => absurd inside.length_le (by decide)
  | cons line lines induction =>
      have later := induction (fun other member => whole other (List.mem_cons_of_mem _ member))
        (fun other member => shown other (List.mem_cons_of_mem _ member))
      have next : ¬ unlines lines = [] → (unlines lines).head? ≠ some '\n' := by
        intro present starts
        cases lines with
        | nil => exact present rfl
        | cons other lines =>
            have second := shown other (List.mem_cons_of_mem _ List.mem_cons_self)
            have fed := whole other (List.mem_cons_of_mem _ List.mem_cons_self)
            cases other with
            | nil => exact second rfl
            | cons first other =>
                rw [unlines_cons, List.cons_append, List.head?_cons, Option.some.injEq] at starts
                exact fed (starts ▸ List.mem_cons_self)
      have fed := whole line List.mem_cons_self
      clear induction whole shown
      rw [unlines_cons]
      induction line with
      | nil =>
          intro inside
          rcases List.infix_cons_iff.mp inside with starts | inside
          · have second := (List.cons_prefix_cons.mp starts).2
            obtain ⟨rest, same⟩ := second
            apply next
            · rw [← same]
              exact List.cons_ne_nil _ _
            · rw [← same]
              rfl
          · exact later inside
      | cons character line induction =>
          have parts := List.ne_and_not_mem_of_not_mem_cons fed
          intro inside
          rcases List.infix_cons_iff.mp inside with starts | inside
          · exact parts.1 (List.cons_prefix_cons.mp starts).1
          · exact induction parts.2 inside

end Text

namespace Framing

variable {β : Type} [BEq β] [LawfulBEq β] {separator : List β}

theorem cut_eq_none_of_not_infix (absent : ¬separator <:+: buffer) :
    cut separator buffer = none := by
  cases found : cut separator buffer with
  | none => rfl
  | some sides =>
      rcases sides with ⟨before, after⟩
      exact absurd ⟨before, after, (append_of_cut found).symm⟩ absent

/-- A separator is found where it stands if it does not occur earlier, not even with its
own start. -/
theorem cut_of_not_infix (shown : separator ≠ [])
    (absent : ¬separator <:+: before ++ separator.dropLast) (after : List β) :
    cut separator (before ++ separator ++ after) = some (before, after) := by
  induction before with
  | nil =>
      cases separator with
      | nil => exact absurd rfl shown
      | cons first separator =>
          have starts : (first :: separator).isPrefixOf (first :: separator ++ after) = true :=
            List.isPrefixOf_iff_prefix.mpr (List.prefix_append _ _)
          simp only [List.nil_append, List.cons_append] at starts ⊢
          simp [cut, starts]
  | cons symbol before induction =>
      have later : ¬separator <:+: before ++ separator.dropLast := fun inside =>
        absent (inside.trans (List.suffix_cons _ _).isInfix)
      have other : ¬ separator.isPrefixOf (symbol :: before ++ separator ++ after) = true := by
        intro starts
        have early : symbol :: before ++ separator.dropLast <+:
            symbol :: before ++ separator ++ after :=
          ((List.prefix_append_right_inj _).mpr (List.dropLast_prefix separator)).trans
            (List.prefix_append _ _)
        have fits : separator.length ≤ (symbol :: before ++ separator.dropLast).length := by
          simp only [List.length_append, List.length_cons, List.length_dropLast]
          omega
        exact absent (List.prefix_of_prefix_length_le (List.isPrefixOf_iff_prefix.mp starts) early
          fits).isInfix
      simp only [List.cons_append] at other ⊢
      rw [cut, if_neg other, induction later]
      rfl

end Framing

namespace EventStream

open Text Framing

/-! ## The format -/

inductive LineEnd
  | lf
  | crlf
  deriving DecidableEq

def LineEnd.carriage : LineEnd → List Char
  | .lf => []
  | .crlf => ['\r']

structure DataLine where
  raw : List Char
  ending : LineEnd

structure Frame where
  lines : List DataLine
  ending : LineEnd

def field : List Char := "data:".toList

def DataLine.physical (line : DataLine) : List Char :=
  field ++ line.raw ++ line.ending.carriage

def Frame.physical (frame : Frame) : List (List Char) :=
  frame.lines.map DataLine.physical ++ [frame.ending.carriage]

def Frame.text (frame : Frame) : List Char :=
  unlines frame.physical

def text (frames : List Frame) : List Char :=
  frames.flatMap Frame.text

def value : List Char → List Char
  | ' ' :: rest => rest
  | raw => raw

def Frame.data (frame : Frame) : List Char :=
  ['\n'].intercalate (frame.lines.map fun line => value line.raw)

structure Frame.Plain (frame : Frame) : Prop where
  single : ∀ line ∈ frame.lines, '\n' ∉ line.raw ∧ '\r' ∉ line.raw
  present : frame.lines ≠ []

/-! ## Reading up to a blank line -/

/-- What a reader sees behind the fields of a frame that it cuts off at two line feeds:
the carriage return of the last data line is not followed by a line feed any more. -/
def seenLines (ending : LineEnd) : List DataLine → List (List Char)
  | [] => []
  | [line] => [line.raw ++ if ending = .lf then line.ending.carriage else []]
  | line :: next :: rest => line.raw :: seenLines ending (next :: rest)

def Frame.seen (frame : Frame) : List (List Char) :=
  seenLines frame.ending frame.lines

def Frame.read (frame : Frame) : List (List Char) :=
  frame.seen.map (field ++ ·) ++ if frame.ending = .lf then [] else [[]]

theorem seenLines_crlf (lines : List DataLine) :
    seenLines .crlf lines = lines.map DataLine.raw := by
  fun_induction seenLines LineEnd.crlf lines with
  | case1 => rfl
  | case2 line => simp
  | case3 line next rest induction =>
      rw [induction]
      rfl

theorem seenLines_lf (front : List DataLine) (last : DataLine) :
    seenLines .lf (front ++ [last]) =
      front.map DataLine.raw ++ [last.raw ++ last.ending.carriage] := by
  induction front with
  | nil => rfl
  | cons line front induction =>
      cases front with
      | nil => rfl
      | cons next front =>
          rw [List.cons_append, List.cons_append, seenLines, ← List.cons_append, induction]
          rfl

theorem not_mem_physical {line : DataLine} (single : '\n' ∉ line.raw) : '\n' ∉ line.physical := by
  have carriage : '\n' ∉ line.ending.carriage := by cases line.ending <;> decide
  have fields : '\n' ∉ field := by decide
  rw [DataLine.physical, List.mem_append, List.mem_append]
  exact fun member => member.elim (fun front => front.elim fields single) carriage

theorem physical_ne_nil (line : DataLine) : line.physical ≠ [] :=
  List.cons_ne_nil _ _

theorem getLast_field_raw {raw : List Char} (single : '\r' ∉ raw) :
    (field ++ raw).getLast? ≠ some '\r' := by
  intro ends
  have member := List.mem_of_getLast? ends
  have fields : '\r' ∉ field := by decide
  exact (List.mem_append.mp member).elim fields single

theorem stripLineEnd_append (ends : line.getLast? ≠ some '\r') (ending : LineEnd) :
    stripLineEnd (line ++ ending.carriage ++ ['\n']) = line := by
  cases ending with
  | lf =>
      have bare : ¬['\r', '\n'].isSuffixOf (line ++ [] ++ ['\n']) = true := by
        intro occurs
        obtain ⟨front, same⟩ := List.isSuffixOf_iff_suffix.mp occurs
        rw [List.append_nil, show ['\r', '\n'] = ['\r'] ++ ['\n'] from rfl,
          ← List.append_assoc] at same
        apply ends
        rw [← List.append_cancel_right same, List.getLast?_concat]
      have fed : ['\n'].isSuffixOf (line ++ [] ++ ['\n']) = true :=
        List.isSuffixOf_iff_suffix.mpr (List.suffix_append _ _)
      rw [LineEnd.carriage, stripLineEnd, if_neg bare, if_pos fed]
      simp
  | crlf =>
      have both : ['\r', '\n'].isSuffixOf (line ++ ['\r'] ++ ['\n']) = true := by
        apply List.isSuffixOf_iff_suffix.mpr
        rw [List.append_assoc]
        exact List.suffix_append _ _
      rw [LineEnd.carriage, stripLineEnd, if_pos both]
      simp

variable {frame : Frame}

theorem map_strip_physical (plain : frame.Plain) (ending : frame.ending = .crlf) :
    frame.physical.map (fun line => stripLineEnd (line ++ ['\n'])) = frame.read := by
  have stripped : ∀ line ∈ frame.lines,
      stripLineEnd (line.physical ++ ['\n']) = field ++ line.raw := fun line member =>
    stripLineEnd_append (getLast_field_raw (plain.single line member).2) line.ending
  have mapped : (frame.lines.map DataLine.physical).map
      (fun line => stripLineEnd (line ++ ['\n'])) = (frame.lines.map DataLine.raw).map (field ++ ·) := by
    rw [List.map_map, List.map_map]
    exact List.map_congr_left stripped
  rw [Frame.physical, Frame.read, Frame.seen, ending, seenLines_crlf, List.map_append, mapped,
    if_neg (by decide)]
  rfl

theorem shown_physical (plain : frame.Plain) (ending : frame.ending = .crlf) :
    ∀ line ∈ frame.physical, '\n' ∉ line ∧ line ≠ [] := by
  intro line member
  rw [Frame.physical, ending] at member
  rcases List.mem_append.mp member with listed | blank
  · obtain ⟨own, ownMember, rfl⟩ := List.mem_map.mp listed
    exact ⟨not_mem_physical (plain.single own ownMember).1, physical_ne_nil own⟩
  · rcases List.mem_singleton.mp blank with rfl
    exact ⟨by decide, by decide⟩

section Cut

variable {late : List Frame} (plain : ∀ frame ∈ late, frame.Plain)
  (ending : ∀ frame ∈ late, frame.ending = .crlf)

include plain ending

theorem shown_late : ∀ line ∈ late.flatMap Frame.physical, '\n' ∉ line ∧ line ≠ [] := by
  intro line member
  obtain ⟨frame, frameMember, listed⟩ := List.mem_flatMap.mp member
  exact shown_physical (plain frame frameMember) (ending frame frameMember) line listed

omit plain ending in
theorem text_late (late : List Frame) : text late = unlines (late.flatMap Frame.physical) := by
  induction late with
  | nil => rfl
  | cons frame late induction =>
      rw [text, List.flatMap_cons, List.flatMap_cons, unlines_append, ← induction]
      rfl

/-- Blank lines with a carriage return do not end anything for the reader. -/
theorem cut_late : cut ['\n', '\n'] (text late) = none := by
  apply cut_eq_none_of_not_infix
  rw [text_late]
  have shown := shown_late plain ending
  exact not_feeds_infix_unlines (fun line member => (shown line member).1)
    fun line member => (shown line member).2

theorem cut_text (own : frame.Plain) (ends : frame.ending = .lf) (rest : List Char) :
    ∃ before, cut ['\n', '\n'] (text late ++ frame.text ++ rest) = some (before, rest) ∧
      Text.lines before = late.flatMap Frame.read ++ frame.read := by
  obtain ⟨front, last, split⟩ := (List.eq_nil_or_concat' frame.lines).resolve_left own.present
  have shown := shown_late plain ending
  have member : ∀ line ∈ front, line ∈ frame.lines := by
    intro line member
    rw [split]
    exact List.mem_append_left _ member
  have lastMember : last ∈ frame.lines := by
    rw [split]
    exact List.mem_append_right _ (List.mem_singleton.mpr rfl)
  have lines : ∀ line ∈ late.flatMap Frame.physical ++ front.map DataLine.physical,
      '\n' ∉ line ∧ line ≠ [] := by
    intro line listed
    rcases List.mem_append.mp listed with listed | listed
    · exact shown line listed
    · obtain ⟨ownPart, ownMember, rfl⟩ := List.mem_map.mp listed
      exact ⟨not_mem_physical (own.single ownPart (member ownPart ownMember)).1, physical_ne_nil ownPart⟩
  have wholeLast := not_mem_physical (own.single last lastMember).1
  apply Exists.intro (unlines (late.flatMap Frame.physical ++ front.map DataLine.physical) ++
    last.physical)
  constructor
  · have whole : text late ++ frame.text ++ rest =
        unlines (late.flatMap Frame.physical ++ front.map DataLine.physical) ++ last.physical ++
          ['\n', '\n'] ++ rest := by
      rw [text_late, Frame.text, Frame.physical, split, ends]
      simp [unlines, LineEnd.carriage]
    have joined : unlines (late.flatMap Frame.physical ++ front.map DataLine.physical) ++
        last.physical ++ ['\n', '\n'].dropLast =
          unlines (late.flatMap Frame.physical ++ front.map DataLine.physical ++
            [last.physical]) := by
      rw [unlines_append _ [last.physical], List.append_assoc]
      simp [unlines]
    rw [whole]
    apply cut_of_not_infix (List.cons_ne_nil _ _)
    rw [joined]
    apply not_feeds_infix_unlines
    · intro line listed
      rcases List.mem_append.mp listed with listed | listed
      · exact (lines line listed).1
      · rcases List.mem_singleton.mp listed with rfl
        exact wholeLast
    · intro line listed
      rcases List.mem_append.mp listed with listed | listed
      · exact (lines line listed).2
      · rcases List.mem_singleton.mp listed with rfl
        exact physical_ne_nil last
  · have lateLines : (late.flatMap Frame.physical).map
        (fun line => stripLineEnd (line ++ ['\n'])) = late.flatMap Frame.read := by
      clear lines shown
      induction late with
      | nil => rfl
      | cons first late induction =>
          rw [List.flatMap_cons, List.flatMap_cons, List.map_append,
            map_strip_physical (plain first List.mem_cons_self) (ending first List.mem_cons_self),
            induction (fun other member => plain other (List.mem_cons_of_mem _ member))
              fun other member => ending other (List.mem_cons_of_mem _ member)]
    have frontLines : (front.map DataLine.physical).map
        (fun line => stripLineEnd (line ++ ['\n'])) = front.map (field ++ DataLine.raw ·) := by
      rw [List.map_map]
      apply List.map_congr_left
      intro line listed
      exact stripLineEnd_append (getLast_field_raw (own.single line (member line listed)).2)
        line.ending
    rw [lines_unlines_append (fun line listed => (lines line listed).1) wholeLast
      (physical_ne_nil last), List.map_append, lateLines, frontLines, Frame.read, Frame.seen, ends,
      split, seenLines_lf, if_pos rfl]
    simp [DataLine.physical, Function.comp_def]

end Cut

/-! ## Worn streams -/

structure DataLine.Wear (line worn : DataLine) : Prop where
  raw : Worn line.raw worn.raw
  ending : worn.ending = line.ending

structure Frame.Wear (frame worn : Frame) : Prop where
  lines : List.Forall₂ DataLine.Wear frame.lines worn.lines
  ending : worn.ending = frame.ending

variable {lines : List DataLine}

theorem exists_lines_of_worn {worn : List Char}
    (wear : Worn (unlines (lines.map DataLine.physical)) worn) :
    ∃ wornLines, worn = unlines (wornLines.map DataLine.physical) ∧
      List.Forall₂ DataLine.Wear lines wornLines := by
  induction lines generalizing worn with
  | nil =>
      cases wear
      exact ⟨[], rfl, .nil⟩
  | cons line lines induction =>
      have parts : unlines ((line :: lines).map DataLine.physical) =
          field ++ (line.raw ++ (line.ending.carriage ++ ['\n'] ++
            unlines (lines.map DataLine.physical))) := by
        simp [unlines, DataLine.physical]
      rw [parts] at wear
      obtain ⟨front, rest, rfl, fields, wear⟩ := wear.exists_of_append
      obtain ⟨raw, rest, rfl, own, wear⟩ := wear.exists_of_append
      obtain ⟨feed, rest, rfl, ends, wear⟩ := wear.exists_of_append
      obtain ⟨others, rfl, later⟩ := induction wear
      have sameFields := fields.eq_of_ascii (forall_of_all (by decide))
      have sameEnd := ends.eq_of_ascii (by cases line.ending <;> exact forall_of_all (by decide))
      apply Exists.intro (⟨raw, line.ending⟩ :: others)
      constructor
      · rw [sameFields, sameEnd]
        simp [unlines, DataLine.physical]
      · exact .cons ⟨own, rfl⟩ later

theorem exists_of_worn {worn : List Char} (wear : Worn (text frames) worn) :
    ∃ wornFrames, worn = text wornFrames ∧ List.Forall₂ Frame.Wear frames wornFrames := by
  induction frames generalizing worn with
  | nil =>
      cases wear
      exact ⟨[], rfl, .nil⟩
  | cons frame frames induction =>
      have parts : text (frame :: frames) = unlines (frame.lines.map DataLine.physical) ++
          (frame.ending.carriage ++ ['\n'] ++ text frames) := by
        simp [text, Frame.text, Frame.physical, unlines]
      rw [parts] at wear
      obtain ⟨front, back, rfl, own, ended⟩ := wear.exists_of_append
      obtain ⟨feed, rest, rfl, ends, tail⟩ := ended.exists_of_append
      obtain ⟨lines, rfl, wornLines⟩ := exists_lines_of_worn own
      obtain ⟨others, rfl, later⟩ := induction tail
      have sameEnd := ends.eq_of_ascii (by cases frame.ending <;> exact forall_of_all (by decide))
      apply Exists.intro (⟨lines, frame.ending⟩ :: others)
      constructor
      · rw [sameEnd]
        simp [text, Frame.text, Frame.physical, unlines]
      · exact .cons ⟨wornLines, rfl⟩ later

theorem DataLine.Wear.single {line worn : DataLine} (wear : line.Wear worn)
    (single : '\n' ∉ line.raw ∧ '\r' ∉ line.raw) : '\n' ∉ worn.raw ∧ '\r' ∉ worn.raw := by
  constructor
  · intro member
    exact (wear.raw.mem_or_eq member).elim single.1 (by decide)
  · intro member
    exact (wear.raw.mem_or_eq member).elim single.2 (by decide)

variable {worn : List DataLine}

theorem single_of_wear (wear : List.Forall₂ DataLine.Wear lines worn)
    (single : ∀ line ∈ lines, '\n' ∉ line.raw ∧ '\r' ∉ line.raw) :
    ∀ line ∈ worn, '\n' ∉ line.raw ∧ '\r' ∉ line.raw := by
  induction wear with
  | nil =>
      intro line member
      cases member
  | cons own later induction =>
      intro line member
      rcases List.mem_cons.mp member with rfl | member
      · exact own.single (single _ List.mem_cons_self)
      · exact induction (fun other listed => single other (List.mem_cons_of_mem _ listed)) line
          member

theorem Frame.Wear.plain {worn : Frame} (wear : frame.Wear worn) (plain : frame.Plain) :
    worn.Plain := by
  constructor
  · exact single_of_wear wear.lines plain.single
  · intro nothing
    have lines := wear.lines
    rw [nothing] at lines
    exact plain.present (List.forall₂_nil_right_iff.mp lines)

theorem seenLines_worn (ending : LineEnd) (wear : List.Forall₂ DataLine.Wear lines worn) :
    List.Forall₂ Worn (seenLines ending lines) (seenLines ending worn) := by
  induction wear with
  | nil => exact .nil
  | cons own later induction =>
      cases later with
      | nil =>
          rw [seenLines, seenLines, own.ending]
          exact .cons (own.raw.append (Worn.refl _)) .nil
      | cons next others => exact .cons own.raw induction

theorem Frame.Wear.seen {worn : Frame} (wear : frame.Wear worn) :
    List.Forall₂ Worn frame.seen worn.seen := by
  rw [Frame.seen, Frame.seen, wear.ending]
  exact seenLines_worn frame.ending wear.lines

theorem eq_of_seenLines {ending : LineEnd} (wear : List.Forall₂ DataLine.Wear lines worn)
    (same : seenLines ending worn = seenLines ending lines) : worn = lines := by
  have equal : ∀ {line other : DataLine}, line.Wear other → other.raw = line.raw →
      other = line := by
    intro line other own raws
    rcases line with ⟨raw, ending⟩
    rcases other with ⟨otherRaw, otherEnding⟩
    rcases own with ⟨-, rfl⟩
    rcases raws with rfl
    rfl
  induction wear with
  | nil => rfl
  | cons own later induction =>
      cases later with
      | nil =>
          rw [seenLines, seenLines, own.ending, List.cons.injEq] at same
          rw [equal own (List.append_cancel_right same.1)]
      | cons next others =>
          rw [seenLines, seenLines, List.cons.injEq] at same
          rw [equal own same.1, induction same.2]

theorem Frame.Wear.eq_of_seen {worn : Frame} (wear : frame.Wear worn)
    (same : worn.seen = frame.seen) : worn = frame := by
  rw [Frame.seen, Frame.seen, wear.ending] at same
  have lines := eq_of_seenLines wear.lines same
  rcases frame with ⟨own, ending⟩
  rcases worn with ⟨wornLines, wornEnding⟩
  rcases wear with ⟨-, rfl⟩
  rcases lines with rfl
  rfl

end EventStream
