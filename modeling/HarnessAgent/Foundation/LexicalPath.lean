import HarnessAgent.Foundation.TextSplit
import Mathlib.Data.List.Induction

/-! # Lexical paths

Paths as texts, joined as the standard library joins them, and the places that they
name when `.` and `..` are resolved without a file system.
-/

namespace LexicalPath

abbrev Path := List Char

abbrev Segment := List Char

def isAbsolute (path : Path) : Bool :=
  path.head? = some '/'

def segments (path : Path) : List Segment :=
  (path.splitOn '/').filter (· ≠ [])

/-- An absolute right operand replaces the left one. -/
def join (base path : Path) : Path :=
  if isAbsolute path || base.isEmpty then path
  else if base.getLast? = some '/' then base ++ path
  else base ++ '/' :: path

@[simp] theorem segments_nil : segments [] = [] := rfl

theorem segments_append_slash (left right : Path) :
    segments (left ++ '/' :: right) = segments left ++ segments right := by
  rw [segments, List.splitOn_append_cons_self, List.filter_append]
  rfl

variable {segment : Segment}

theorem segments_of_segment (noSlash : '/' ∉ segment) (nonempty : segment ≠ []) :
    segments segment = [segment] := by
  rw [segments, List.splitOn_eq_singleton noSlash]
  simp [nonempty]

variable {base path : Path}

theorem join_of_relative (nonempty : base ≠ []) (relative : isAbsolute path = false) :
    join base path = if base.getLast? = some '/' then base ++ path else base ++ '/' :: path := by
  rw [join, relative, Bool.false_or, if_neg]
  rwa [List.isEmpty_iff]

theorem segments_join (relative : isAbsolute path = false) :
    segments (join base path) = segments base ++ segments path := by
  cases base with
  | nil => simp [join]
  | cons first rest =>
      rw [join_of_relative (List.cons_ne_nil _ _) relative]
      split
      next ends =>
        rcases List.getLast?_eq_some_iff.mp ends with ⟨front, whole⟩
        rw [whole, List.append_assoc, List.singleton_append, segments_append_slash,
          segments_append_slash, segments_nil, List.append_nil]
      next => exact segments_append_slash _ _

theorem isAbsolute_append (nonempty : path ≠ []) (more : Path) :
    isAbsolute (path ++ more) = isAbsolute path := by
  cases path with
  | nil => exact absurd rfl nonempty
  | cons first path => rfl

theorem isAbsolute_join (nonempty : base ≠ []) (relative : isAbsolute path = false) :
    isAbsolute (join base path) = isAbsolute base := by
  rw [join_of_relative nonempty relative]
  split
  · exact isAbsolute_append nonempty _
  · exact isAbsolute_append nonempty _

theorem slash_not_mem_segment (member : segment ∈ segments path) : '/' ∉ segment := by
  intro slash
  have part := (List.mem_filter.mp member).1
  rw [List.splitOn_eq_splitOnP] at part
  have other := Text.not_separator_of_mem_splitOnP part '/' slash
  simp at other

theorem join_ne_nil (nonempty : base ≠ []) (path : Path) (relative : isAbsolute path = false) :
    join base path ≠ [] := by
  rw [join_of_relative nonempty relative]
  split
  · exact List.append_ne_nil_of_left_ne_nil nonempty _
  · exact List.append_ne_nil_of_left_ne_nil nonempty _

theorem ne_nil_of_mem_segments (member : segment ∈ segments path) : segment ≠ [] := by
  simpa using (List.mem_filter.mp member).2

def Proper (segment : Segment) : Prop :=
  segment ≠ [] ∧ '/' ∉ segment

theorem proper_of_mem_segments (member : segment ∈ segments path) : Proper segment :=
  ⟨ne_nil_of_mem_segments member, slash_not_mem_segment member⟩

theorem Proper.isAbsolute_eq_false (proper : Proper segment) : isAbsolute segment = false := by
  cases segment with
  | nil => rfl
  | cons first rest =>
      have other : first ≠ '/' := by
        intro same
        exact proper.2 (same ▸ List.mem_cons_self)
      simp [isAbsolute, other]

/-- The path of some segments, as it is built by pushing one after the other. -/
def joinAll (names : List Segment) : Path :=
  names.foldl join []

theorem joinAll_concat (names : List Segment) (name : Segment) :
    joinAll (names ++ [name]) = join (joinAll names) name :=
  List.foldl_append

variable {names : List Segment}

theorem segments_joinAll (proper : ∀ name ∈ names, Proper name) :
    segments (joinAll names) = names := by
  induction names using List.reverseRecOn with
  | nil => rfl
  | append_singleton names name induction =>
      have last : Proper name := proper name (by simp)
      rw [joinAll_concat, segments_join last.isAbsolute_eq_false,
        segments_of_segment last.2 last.1, induction]
      intro name member
      exact proper name (by simp [member])

theorem isPrefix_join (base path : Path) (relative : isAbsolute path = false) :
    base <+: join base path := by
  cases base with
  | nil => exact List.nil_prefix
  | cons first rest =>
      rw [join_of_relative (List.cons_ne_nil _ _) relative]
      split
      · exact List.prefix_append _ _
      · exact List.prefix_append _ _

theorem Proper.join_eq (proper : Proper segment) (relative : isAbsolute path = false) :
    join segment path = segment ++ '/' :: path := by
  have ending : segment.getLast? ≠ some '/' := by
    intro ends
    exact proper.2 (List.mem_of_getLast? ends)
  simp [join, relative, proper.1, ending]

/-- The first segment begins the path, and a slash follows if it is not the only one. -/
theorem joinAll_cons (proper : ∀ name ∈ first :: rest, Proper name) :
    joinAll (first :: rest) = first ∨ first ++ ['/'] <+: joinAll (first :: rest) := by
  have head : Proper first := proper first List.mem_cons_self
  induction rest using List.reverseRecOn with
  | nil =>
      left
      rw [joinAll, List.foldl_cons, List.foldl_nil, join, List.isEmpty_nil, Bool.or_true, if_pos rfl]
  | append_singleton rest name induction =>
      have last : Proper name := proper name (by simp)
      right
      rw [← List.cons_append, joinAll_concat]
      have before : ∀ name ∈ first :: rest, Proper name := by
        intro other member
        apply proper
        rw [← List.cons_append]
        exact List.mem_append_left _ member
      rcases induction before with only | longer
      · rw [only, head.join_eq last.isAbsolute_eq_false]
        exact ⟨name, by simp⟩
      · exact longer.trans (isPrefix_join _ _ last.isAbsolute_eq_false)

theorem isAbsolute_joinAll (proper : ∀ name ∈ names, Proper name) :
    isAbsolute (joinAll names) = false := by
  cases names with
  | nil => rfl
  | cons first rest =>
      have head : Proper first := proper first List.mem_cons_self
      have begins : first <+: joinAll (first :: rest) := by
        rcases joinAll_cons proper with only | longer
        · rw [only]
        · exact (List.prefix_append _ _).trans longer
      rcases begins with ⟨after, whole⟩
      have relative := head.isAbsolute_eq_false
      rw [← whole]
      cases first with
      | nil => exact absurd rfl head.1
      | cons character others => exact relative

/-! ## Components -/

inductive Component where
  | rootDir
  | curDir
  | parentDir
  | normal (name : Segment)
  deriving DecidableEq, Repr

def Component.ofSegment (segment : Segment) : Component :=
  if segment = ['.', '.'] then .parentDir else .normal segment

def components (path : Path) : List Component :=
  (if isAbsolute path then [.rootDir]
    else if (segments path).head? = some ['.'] then [.curDir]
    else []) ++
    ((segments path).filter (· ≠ ['.'])).map Component.ofSegment

def EndsBeforeName (front : Path) : Prop :=
  front = [] ∨ ∃ outer, front = outer ++ ['/']

theorem segments_append_of_ends (ends : EndsBeforeName front) (path : Path) :
    segments (front ++ path) = segments front ++ segments path := by
  rcases ends with rfl | ⟨outer, rfl⟩
  · rfl
  · rw [List.append_assoc, List.singleton_append, segments_append_slash, segments_append_slash,
      segments_nil, List.append_nil]

theorem segments_append_name {name rest : Path} (noSlash : '/' ∉ name) {first : Char}
    (other : first ≠ '/') :
    ∃ more later, segments (name ++ first :: rest) = (name ++ first :: more) :: later := by
  by_cases slash : '/' ∈ first :: rest
  · rcases List.eq_append_cons_of_mem slash with ⟨before, after, whole, clean⟩
    cases before with
    | nil => exact absurd (List.cons.inj whole).1 other
    | cons head more =>
        cases (List.cons.inj whole).1
        refine ⟨more, segments after, ?_⟩
        have proper : '/' ∉ name ++ first :: more := by
          rw [List.mem_append, not_or]
          exact ⟨noSlash, clean⟩
        rw [whole, ← List.append_assoc, segments_append_slash,
          segments_of_segment proper (by simp)]
        rfl
  · refine ⟨rest, [], segments_of_segment ?_ (by simp)⟩
    rw [List.mem_append, not_or]
    exact ⟨noSlash, slash⟩

variable {name : Segment}

/-- A path that begins with the text of another one lies in it by its components just
when the text ends there or goes on with a slash. -/
theorem components_isPrefix_append_iff (ends : EndsBeforeName front) (proper : Proper name)
    (notDot : name ≠ ['.']) (notDots : name ≠ ['.', '.']) (rest : Path) :
    components (front ++ name) <+: components (front ++ name ++ rest) ↔
      rest = [] ∨ rest.head? = some '/' := by
  have named : segments (front ++ name) = segments front ++ [name] := by
    rw [segments_append_of_ends ends, segments_of_segment proper.2 proper.1]
  have nonempty : front ++ name ≠ [] := by simp [proper.1]
  have absolute : isAbsolute (front ++ name ++ rest) = isAbsolute (front ++ name) := by
    cases whole : front ++ name with
    | nil => exact absurd whole nonempty
    | cons first text => rfl
  cases rest with
  | nil => simp
  | cons first rest =>
      by_cases slash : first = '/'
      · subst slash
        apply iff_of_true
        · have heads : (segments front ++ [name] ++ segments rest).head? =
              (segments front ++ [name]).head? := by
            cases segments front with
            | nil => rfl
            | cons head tail => rfl
          rw [components, components, absolute, segments_append_slash, named, heads,
            List.filter_append _ (segments rest), List.map_append, ← List.append_assoc]
          exact List.prefix_append _ _
        · exact Or.inr rfl
      · apply iff_of_false
        · rcases @segments_append_name name rest proper.2 first slash with ⟨more, later, goes⟩
          have longer : segments (front ++ name ++ first :: rest) =
              segments front ++ (name ++ first :: more) :: later := by
            rw [List.append_assoc, segments_append_of_ends ends, goes]
          have notDot' : name ++ first :: more ≠ ['.'] := by
            intro same
            have long := congrArg List.length same
            have short := List.length_pos_iff.mpr proper.1
            simp only [List.length_append, List.length_cons, List.length_nil] at long
            omega
          have heads : (segments front ++ [name]).head? = some ['.'] ↔
              (segments front ++ (name ++ first :: more) :: later).head? = some ['.'] := by
            cases segments front with
            | nil => simp [notDot, notDot']
            | cons head tail => simp
          rw [components, components, absolute, longer, named]
          simp only [heads, List.filter_append, List.map_append, ← List.append_assoc]
          rw [List.prefix_append_right_inj]
          simp only [List.filter_cons, notDot, notDot', ne_eq, not_false_eq_true, decide_true, if_true,
            List.filter_nil, List.map_cons, List.map_nil, List.cons_prefix_cons, not_and]
          intro same
          have equal : name = name ++ first :: more := by
            rw [Component.ofSegment, if_neg notDots, Component.ofSegment] at same
            split at same
            · cases same
            · exact Component.normal.inj same
          have long := congrArg List.length equal
          simp at long
        · simp [slash]

/-! ## Places -/

/-- Where a path leads: up from the start a number of times, unless it starts at the
root, and then down a trail of names, of which the innermost comes first. -/
structure Place where
  absolute : Bool
  ups : Nat := 0
  trail : List Segment := []
  deriving DecidableEq, Repr

namespace Place

theorem eq_of_fields {first second : Place} (absolute : first.absolute = second.absolute)
    (ups : first.ups = second.ups) (trail : first.trail = second.trail) : first = second := by
  cases first
  cases second
  rw [Place.mk.injEq]
  exact ⟨absolute, ups, trail⟩

def enter (place : Place) (segment : Segment) : Place :=
  if segment = ['.'] then place
  else if segment = ['.', '.'] then
    match place.trail with
    | _ :: outer => { place with trail := outer }
    | [] => if place.absolute then place else { place with ups := place.ups + 1 }
  else { place with trail := segment :: place.trail }

def enterAll (place : Place) (path : List Segment) : Place :=
  path.foldl enter place

def resolve (path : Path) : Place :=
  enterAll { absolute := isAbsolute path } (segments path)

def follow (place relative : Place) : Place where
  absolute := place.absolute
  ups :=
    if place.absolute then place.ups
    else place.ups + (relative.ups - place.trail.length)
  trail := relative.trail ++ place.trail.drop relative.ups

/-- A place that is another one or lies below it, by the names between them. -/
def Extends (inner outer : Place) (between : List Segment) : Prop :=
  inner.absolute = outer.absolute ∧ inner.ups = outer.ups ∧
    inner.trail = between ++ outer.trail

def Inside (inner outer : Place) : Prop :=
  ∃ between, inner.Extends outer between

def StrictlyInside (inner outer : Place) : Prop :=
  ∃ between, between ≠ [] ∧ inner.Extends outer between

theorem enter_follow (place relative : Place) (isRelative : relative.absolute = false)
    (segment : Segment) :
    (place.follow relative).enter segment = place.follow (relative.enter segment) := by
  rcases place with ⟨absolute, ups, trail⟩
  rcases relative with ⟨_, upsBelow, trailBelow⟩
  cases isRelative
  rw [enter, enter]
  split
  · rfl
  · split
    · cases trailBelow with
      | cons name outer => rfl
      | nil =>
          have dropped : (trail.drop upsBelow).tail = trail.drop (upsBelow + 1) := List.tail_drop
          simp only [follow, List.nil_append, Bool.false_eq_true, if_false]
          cases rest : trail.drop upsBelow with
          | cons name outer =>
              have short : upsBelow < trail.length := by
                by_contra long
                rw [List.drop_eq_nil_of_le (by omega)] at rest
                cases rest
              rw [rest, List.tail_cons] at dropped
              rw [dropped]
              cases absolute with
              | true => rfl
              | false =>
                  simp only [Bool.false_eq_true, if_false, Place.mk.injEq, true_and, and_true]
                  omega
          | nil =>
              have long : trail.length ≤ upsBelow := List.drop_eq_nil_iff.mp rest
              rw [rest] at dropped
              rw [← dropped]
              cases absolute with
              | true => rfl
              | false =>
                  simp only [Bool.false_eq_true, if_false, List.tail_nil, Place.mk.injEq, true_and,
                    and_true]
                  omega
    · rfl

theorem absolute_enter (place : Place) (segment : Segment) :
    (place.enter segment).absolute = place.absolute := by
  rw [enter]
  split
  · rfl
  · split
    · split
      · rfl
      · split
        · rfl
        · rfl
    · rfl

theorem absolute_enterAll (place : Place) (path : List Segment) :
    (place.enterAll path).absolute = place.absolute := by
  induction path generalizing place with
  | nil => rfl
  | cons segment path induction =>
      rw [enterAll, List.foldl_cons, ← enterAll, induction, absolute_enter]

theorem absolute_resolve (path : Path) : (resolve path).absolute = isAbsolute path :=
  absolute_enterAll _ _

theorem enterAll_concat (place : Place) (path : List Segment) (segment : Segment) :
    place.enterAll (path ++ [segment]) = (place.enterAll path).enter segment :=
  List.foldl_append

theorem enterAll_eq_follow (place : Place) (path : List Segment) :
    place.enterAll path = place.follow (enterAll { absolute := false } path) := by
  induction path using List.reverseRecOn with
  | nil =>
      rcases place with ⟨absolute, ups, trail⟩
      cases absolute with
      | true => rfl
      | false => simp [enterAll, follow]
  | append_singleton path segment induction =>
      rw [enterAll_concat, enterAll_concat, induction, enter_follow _ _ (absolute_enterAll _ _)]

theorem resolve_of_segments (sameRoot : isAbsolute path = isAbsolute base)
    (longer : segments path = segments base ++ added) :
    resolve path = (resolve base).follow (enterAll { absolute := false } added) := by
  rw [resolve, sameRoot, longer, enterAll, List.foldl_append, ← enterAll, ← enterAll, ← resolve,
    enterAll_eq_follow]

theorem resolve_join (nonempty : base ≠ []) (relative : isAbsolute path = false) :
    resolve (join base path) = (resolve base).follow (resolve path) := by
  rw [resolve_of_segments (isAbsolute_join nonempty relative) (segments_join relative),
    resolve, resolve, relative]

def Plain (segment : Segment) : Prop :=
  segment ≠ ['.'] ∧ segment ≠ ['.', '.']

theorem enter_of_plain (place : Place) (plain : Plain segment) :
    place.enter segment = { place with trail := segment :: place.trail } := by
  rw [enter, if_neg plain.1, if_neg plain.2]

variable {place : Place}

theorem mem_trail_enter (member : name ∈ (place.enter segment).trail) :
    (name = segment ∧ Plain segment) ∨ name ∈ place.trail := by
  rw [enter] at member
  split at member
  · exact Or.inr member
  · next noDot =>
      split at member
      · split at member
        · next outer trail =>
            right
            rw [trail]
            exact List.mem_cons_of_mem _ member
        · next trail =>
            split at member
            · exact Or.inr member
            · exact Or.inr member
      · next noDots =>
          rcases List.mem_cons.mp member with same | earlier
          · exact Or.inl ⟨same, noDot, noDots⟩
          · exact Or.inr earlier

theorem mem_trail_enterAll {path : List Segment} (member : name ∈ (place.enterAll path).trail) :
    (name ∈ path ∧ Plain name) ∨ name ∈ place.trail := by
  induction path using List.reverseRecOn with
  | nil => exact Or.inr member
  | append_singleton path segment induction =>
      rw [enterAll_concat] at member
      rcases mem_trail_enter member with ⟨rfl, plain⟩ | earlier
      · exact Or.inl ⟨by simp, plain⟩
      · rcases induction earlier with ⟨inside, plain⟩ | start
        · exact Or.inl ⟨by simp [inside], plain⟩
        · exact Or.inr start

theorem enterAll_of_plain (place : Place) {path : List Segment}
    (plain : ∀ name ∈ path, Plain name) :
    place.enterAll path = { place with trail := path.reverse ++ place.trail } := by
  induction path using List.reverseRecOn with
  | nil => rfl
  | append_singleton path segment induction =>
      have before : ∀ name ∈ path, Plain name := by
        intro name member
        exact plain name (by simp [member])
      rw [enterAll_concat, induction before, enter_of_plain _ (plain segment (by simp))]
      simp

theorem mem_trail_resolve (member : name ∈ (resolve path).trail) : Proper name ∧ Plain name := by
  rcases mem_trail_enterAll member with ⟨inside, plain⟩ | start
  · exact ⟨proper_of_mem_segments inside, plain⟩
  · cases start

theorem ups_enter {segment : Segment} (place : Place)
    (stays : segment ≠ ['.', '.'] ∨ place.trail ≠ []) : (place.enter segment).ups = place.ups := by
  rw [enter]
  split
  · rfl
  · split
    · next dots =>
        split
        · rfl
        · next noTrail =>
            rcases stays with other | trail
            · exact absurd dots other
            · exact absurd noTrail trail
    · rfl

theorem ups_enter_of_absolute (absolute : place.absolute = true) (segment : Segment) :
    (place.enter segment).ups = place.ups := by
  rw [enter]
  split
  · rfl
  · split
    · split
      · rfl
      · rfl
    · rfl

theorem ups_resolve_of_absolute (absolute : isAbsolute path = true) : (resolve path).ups = 0 := by
  rw [resolve]
  induction segments path using List.reverseRecOn with
  | nil => rfl
  | append_singleton names name induction =>
      rw [enterAll_concat, ups_enter_of_absolute, induction]
      rw [absolute_enterAll, absolute]

theorem resolve_joinAll (proper : ∀ name ∈ names, Proper name) :
    resolve (joinAll names) = enterAll { absolute := false } names := by
  rw [resolve, isAbsolute_joinAll proper, segments_joinAll proper]

variable {relative : Place}

/-- Following a relative place leads below the start exactly if it comes back down
through the directories that it has gone up, and possibly further. -/
theorem extends_follow_iff {between : List Segment} :
    (place.follow relative).Extends place between ↔
      (place.absolute = true ∨ relative.ups ≤ place.trail.length) ∧
        relative.trail = between ++ place.trail.take relative.ups := by
  rw [Extends, follow]
  have trails : relative.trail ++ place.trail.drop relative.ups = between ++ place.trail ↔
      relative.trail = between ++ place.trail.take relative.ups := by
    constructor
    · intro same
      apply List.append_cancel_right
      rw [same, List.append_assoc, List.take_append_drop]
    · intro same
      rw [same, List.append_assoc, List.take_append_drop]
  simp only [trails, true_and]
  cases place.absolute with
  | true => simp
  | false =>
      simp only [Bool.false_eq_true, if_false, false_or]
      constructor
      · intro both
        exact ⟨by omega, both.2⟩
      · intro both
        exact ⟨by omega, both.2⟩

theorem inside_follow_iff :
    (place.follow relative).Inside place ↔
      (place.absolute = true ∨ relative.ups ≤ place.trail.length) ∧
        place.trail.take relative.ups <:+ relative.trail := by
  simp only [Inside, extends_follow_iff]
  constructor
  · intro inside
    rcases inside with ⟨between, reach, trail⟩
    exact ⟨reach, between, trail.symm⟩
  · intro inside
    rcases inside with ⟨reach, between, trail⟩
    exact ⟨between, reach, trail.symm⟩

theorem inside_follow_of_ups_eq_zero (place : Place) (stays : relative.ups = 0) :
    (place.follow relative).Inside place := by
  rw [inside_follow_iff, stays, List.take_zero]
  exact ⟨Or.inr (Nat.zero_le _), List.nil_suffix⟩

/-! ### Names under a directory -/

def Descends (name : Path) : Prop :=
  isAbsolute name = false ∧ (resolve name).ups = 0

instance (name : Path) : Decidable (Descends name) :=
  inferInstanceAs (Decidable (_ ∧ _))

theorem resolve_join_of_descends {name : Path} (nonempty : base ≠ []) (descends : Descends name) :
    resolve (join base name) =
      { resolve base with trail := (resolve name).trail ++ (resolve base).trail } := by
  rw [resolve_join nonempty descends.1, follow, descends.2, List.drop_zero, Nat.zero_sub,
    Nat.add_zero, ite_self]

theorem inside_join_of_descends {name : Path} (nonempty : base ≠ []) (descends : Descends name) :
    (resolve (join base name)).Inside (resolve base) := by
  rw [resolve_join_of_descends nonempty descends]
  exact ⟨(resolve name).trail, rfl, rfl, rfl⟩

/-- Under one directory, names lead to the same place as they do by themselves. -/
theorem resolve_join_inj (nonempty : base ≠ []) (descendsLeft : Descends left)
    (descendsRight : Descends right) :
    resolve (join base left) = resolve (join base right) ↔ resolve left = resolve right := by
  rw [resolve_join_of_descends nonempty descendsLeft,
    resolve_join_of_descends nonempty descendsRight]
  constructor
  · intro same
    have trails := List.append_cancel_right (congrArg Place.trail same)
    have absolutes : (resolve left).absolute = (resolve right).absolute := by
      rw [absolute_resolve, absolute_resolve, descendsLeft.1, descendsRight.1]
    have ups := descendsLeft.2.trans descendsRight.2.symm
    cases place : resolve left
    cases other : resolve right
    rw [place, other] at trails absolutes ups
    simp only at trails absolutes ups
    rw [trails, absolutes, ups]
  · intro same
    rw [same]

theorem inside_of_inside (first : place.Inside left) (second : place.Inside right) :
    left.Inside right ∨ right.Inside left := by
  obtain ⟨above, leftRoot, leftUps, leftTrail⟩ := first
  obtain ⟨below, rightRoot, rightUps, rightTrail⟩ := second
  have suffixes : left.trail <:+ right.trail ∨ right.trail <:+ left.trail :=
    List.suffix_or_suffix_of_suffix ⟨above, leftTrail.symm⟩ ⟨below, rightTrail.symm⟩
  rcases suffixes with ⟨between, trail⟩ | ⟨between, trail⟩
  · exact .inr ⟨between, rightRoot.symm.trans leftRoot, rightUps.symm.trans leftUps, trail.symm⟩
  · exact .inl ⟨between, leftRoot.symm.trans rightRoot, leftUps.symm.trans rightUps, trail.symm⟩

theorem join_append (base : Path) (kept : isAbsolute (path ++ more) = isAbsolute path) :
    join base (path ++ more) = join base path ++ more := by
  rw [join, join, kept]
  split
  · rfl
  · split <;> simp

theorem join_join (base path : Path) (nonempty : middle ≠ []) :
    join (join base middle) path = join base (join middle path) := by
  cases absolute : isAbsolute path with
  | true => simp [join, absolute]
  | false =>
      have inner : ∃ more, join middle path = middle ++ more ∧ ∀ front : Path,
          front.getLast? = middle.getLast? → front ≠ [] → join front path = front ++ more := by
        by_cases ends : middle.getLast? = some '/'
        · refine ⟨path, by simp [join, absolute, nonempty, ends], ?_⟩
          intro front last shown
          simp [join, absolute, shown, last, ends]
        · refine ⟨'/' :: path, by simp [join, absolute, nonempty, ends], ?_⟩
          intro front last shown
          simp [join, absolute, shown, last, ends]
      obtain ⟨more, joined, longer⟩ := inner
      have outer : ∃ front, join base middle = front ++ middle := by
        rw [join]
        split
        · exact ⟨[], rfl⟩
        · split
          · exact ⟨base, rfl⟩
          · exact ⟨base ++ ['/'], by simp⟩
      obtain ⟨front, whole⟩ := outer
      rw [joined, join_append base (isAbsolute_append nonempty more)]
      apply longer
      · rw [whole, List.getLast?_append_of_ne_nil front nonempty]
      · rw [whole]
        simp [nonempty]

/-- What is put behind a path becomes part of its last name. -/
theorem exists_stem (nonempty : path ≠ []) :
    ∃ (place : Place) (stem : Segment), place.absolute = isAbsolute path ∧
      ∀ ending : Segment, '/' ∉ ending → 3 ≤ ending.length →
        resolve (path ++ ending) = { place with trail := (stem ++ ending) :: place.trail } := by
  have parts : ∃ front stem, path = front ++ stem ∧ EndsBeforeName front ∧ '/' ∉ stem := by
    by_cases slash : '/' ∈ path
    · obtain ⟨after, before, reversed, clean⟩ :=
        List.eq_append_cons_of_mem (List.mem_reverse.mpr slash)
      refine ⟨before.reverse ++ ['/'], after.reverse, ?_, .inr ⟨before.reverse, rfl⟩, by
        simpa using clean⟩
      rw [← List.reverse_reverse path, reversed]
      simp
    · exact ⟨[], path, rfl, .inl rfl, slash⟩
  obtain ⟨front, stem, rfl, ends, clean⟩ := parts
  refine ⟨enterAll { absolute := isAbsolute (front ++ stem) } (segments front), stem,
    absolute_enterAll _ _, ?_⟩
  intro ending noSlash long
  have whole : '/' ∉ stem ++ ending := by simp [clean, noSlash]
  have shown : stem ++ ending ≠ [] := by
    intro nothing
    rw [(List.append_eq_nil_iff.mp nothing).2] at long
    exact absurd long (by decide)
  have plain : Plain (stem ++ ending) := by
    constructor
    · intro same
      have lengths := congrArg List.length same
      simp only [List.length_append, List.length_cons, List.length_nil] at lengths
      omega
    · intro same
      have lengths := congrArg List.length same
      simp only [List.length_append, List.length_cons, List.length_nil] at lengths
      omega
  rw [resolve, isAbsolute_append nonempty, List.append_assoc, segments_append_of_ends ends,
    segments_of_segment whole shown, enterAll_concat, enter_of_plain _ plain]

theorem resolve_of_proper (proper : Proper segment) (plain : Plain segment) :
    resolve segment = { absolute := false, trail := [segment] } := by
  rw [resolve, segments_of_segment proper.2 proper.1, proper.isAbsolute_eq_false, enterAll,
    List.foldl_cons, List.foldl_nil, enter_of_plain _ plain]

theorem descends_of_proper (proper : Proper segment) (plain : Plain segment) : Descends segment :=
  ⟨proper.isAbsolute_eq_false, by rw [resolve_of_proper proper plain]⟩

theorem resolve_join_proper (nonempty : base ≠ []) (proper : Proper segment)
    (plain : Plain segment) :
    resolve (join base segment) =
      { resolve base with trail := segment :: (resolve base).trail } := by
  rw [resolve_join_of_descends nonempty (descends_of_proper proper plain),
    resolve_of_proper proper plain]
  rfl

theorem descends_join_proper (nonempty : base ≠ []) (proper : Proper segment)
    (plain : Plain segment) : Descends (join base segment) ↔ Descends base := by
  rw [Descends, Descends, isAbsolute_join nonempty proper.isAbsolute_eq_false,
    resolve_join_proper nonempty proper plain]

/-! ### Fresh directories -/

theorem length_le_of_mem_trail (member : name ∈ (resolve path).trail) :
    name.length ≤ path.length := by
  rcases mem_trail_enterAll member with ⟨listed, -⟩ | start
  · have part := (List.mem_filter.mp listed).1
    rw [List.splitOn_eq_splitOnP] at part
    exact (Text.sublist_of_mem_splitOnP part).length_le
  · cases start

def freshName (letter : Char) (length : Nat) : Segment :=
  List.replicate (length + 3) letter

def freshDirectory (letter : Char) (length : Nat) : Path :=
  '/' :: freshName letter length

theorem resolve_freshDirectory (noSlash : letter ≠ '/') (length : Nat) :
    resolve (freshDirectory letter length) =
      { absolute := true, trail := [freshName letter length] } := by
  have clean : '/' ∉ freshName letter length := by
    intro member
    exact noSlash (List.eq_of_mem_replicate member).symm
  have shown : freshName letter length ≠ [] := by simp [freshName]
  have plain : Plain (freshName letter length) := by
    constructor
    · intro same
      have lengths := congrArg List.length same
      simp only [freshName, List.length_replicate, List.length_cons, List.length_nil] at lengths
      omega
    · intro same
      have lengths := congrArg List.length same
      simp only [freshName, List.length_replicate, List.length_cons, List.length_nil] at lengths
      omega
  have segment : segments (freshDirectory letter length) = [freshName letter length] := by
    rw [freshDirectory, ← List.nil_append ('/' :: freshName letter length), segments_append_slash,
      segments_nil, List.nil_append, segments_of_segment clean shown]
  rw [resolve, segment, enterAll, List.foldl_cons, List.foldl_nil, enter_of_plain _ plain]
  rfl

theorem inside_freshDirectory_iff (noSlash : letter ≠ '/') (name : Path)
    (long : name.length ≤ length) :
    (resolve (join (freshDirectory letter length) name)).Inside
        (resolve (freshDirectory letter length)) ↔ Descends name := by
  have other : freshName letter length ∉ (resolve name).trail := by
    intro member
    have short := length_le_of_mem_trail member
    rw [freshName, List.length_replicate] at short
    omega
  constructor
  · intro inside
    have relative : isAbsolute name = false := by
      by_contra absolute
      rw [Bool.not_eq_false] at absolute
      have alone : join (freshDirectory letter length) name = name := by
        rw [join, absolute, Bool.true_or, if_pos rfl]
      obtain ⟨between, -, -, trail⟩ := inside
      rw [alone, resolve_freshDirectory noSlash] at trail
      apply other
      rw [trail]
      exact List.mem_append_right _ List.mem_cons_self
    constructor
    · exact relative
    · by_contra up
      have shown : freshDirectory letter length ≠ [] := List.cons_ne_nil _ _
      rw [resolve_join shown relative, inside_follow_iff, resolve_freshDirectory noSlash] at inside
      have taken : [freshName letter length].take (resolve name).ups =
          [freshName letter length] := by
        apply List.take_of_length_le
        exact Nat.pos_of_ne_zero up
      rw [taken] at inside
      exact other (inside.2.subset List.mem_cons_self)
  · exact inside_join_of_descends (List.cons_ne_nil _ _)

end Place

end LexicalPath
