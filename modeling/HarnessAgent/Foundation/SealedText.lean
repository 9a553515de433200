import HarnessAgent.Foundation.Matcher

/-! # Replacement passes and sealed texts

A pass replaces what it finds in a text, from left to right. Several passes one after
the other also look into what earlier ones have put in. A text in chunks keeps apart
what was put in: a pass over the chunks leaves it alone, and all passes together then
amount to one pass that looks for everything at once.
-/

namespace Text

/-- What is found at the start of a text: what takes its place, and the rest. -/
abbrev Finder := Matcher (List Char)

namespace Finder

/-- A pass, with the characters of a match still to be skipped and the rest of the
text. The flag reports whether anything was found. -/
def pass (find : Finder) : Nat → List Char → List Char × Bool
  | _, [] => ([], false)
  | skip + 1, _ :: rest => pass find skip rest
  | 0, character :: rest =>
      match find (character :: rest) with
      | some (replacement, remaining) =>
          (replacement ++ (pass find (rest.length - remaining.length) rest).1, true)
      | none =>
          (character :: (pass find 0 rest).1, (pass find 0 rest).2)

def replace (find : Finder) (text : List Char) : List Char :=
  (pass find 0 text).1

def replaceEach (finders : List Finder) (text : List Char) : List Char :=
  finders.foldl (fun text find => replace find text) text

def first (finders : List Finder) : Finder :=
  fun text => finders.findSome? fun find => find text

/-- Matches start with a mark, end before the next one, and do not depend on what
comes from there on. -/
structure Opened (mark : Char) (find : Finder) : Prop where
  starts : ∀ {character rest found}, find (character :: rest) = some found → character = mark
  splits : ∀ {body found}, find (mark :: body) = some found → found.2 <:+ body
  bounded : ∀ {body after : List Char}, (∀ character ∈ after.head?, character = mark) →
    find (mark :: (body ++ after)) =
      (find (mark :: body)).map fun found => (found.1, found.2 ++ after)

variable {mark : Char} {find : Finder} {finders : List Finder}

theorem first_cons (text : List Char) :
    first (find :: finders) text = (find text).or (first finders text) := by
  rw [first, List.findSome?_cons]
  cases find text with
  | some found => rfl
  | none => rfl

theorem first_append (more : List Finder) (text : List Char) :
    first (finders ++ more) text = (first finders text).or (first more text) :=
  List.findSome?_append

theorem first_singleton : first [find] = find := by
  funext text
  rw [first_cons]
  exact Option.or_none

theorem replaceEach_append (more : List Finder) (text : List Char) :
    replaceEach (finders ++ more) text = replaceEach more (replaceEach finders text) :=
  List.foldl_append

theorem pass_skip (inner : List Char) (after : List Char) :
    pass find inner.length (inner ++ after) = pass find 0 after := by
  induction inner with
  | nil => rfl
  | cons character inner induction => exact induction

theorem pass_append {part after : List Char}
    (none : ∀ start, start ≠ [] → start <:+ part → find (start ++ after) = none) :
    pass find 0 (part ++ after) = (part ++ (pass find 0 after).1, (pass find 0 after).2) := by
  induction part with
  | nil => rfl
  | cons character part induction =>
      have here := none (character :: part) (List.cons_ne_nil _ _) List.suffix_rfl
      have later := induction fun start shown inside =>
        none start shown (inside.trans (List.suffix_cons character part))
      rw [List.cons_append] at here ⊢
      rw [pass, here]
      dsimp only
      rw [later, List.cons_append]

/-! ## Matches that end before the next mark -/

/-- What is matched at the start of a text does not depend on what comes from the next
mark on. -/
def Bounded {α : Type} (mark : Char) (matcher : Matcher α) : Prop :=
  ∀ {body after : List Char}, (∀ character ∈ after.head?, character = mark) →
    matcher (body ++ after) = (matcher body).map fun found => (found.1, found.2 ++ after)

variable {name : List Char}

theorem afterLiteral_append (absent : mark ∉ name) {body : List Char}
    (follows : ∀ character ∈ after.head?, character = mark) :
    afterLiteral name (body ++ after) = (afterLiteral name body).map fun rest => rest ++ after := by
  induction name generalizing body with
  | nil => rfl
  | cons wanted name induction =>
      rcases not_or.mp (mt List.mem_cons.mpr absent) with ⟨other, later⟩
      cases body with
      | nil =>
          cases after with
          | nil => rfl
          | cons character after =>
              have same := follows character rfl
              have different : (wanted == character) = false := by
                rw [same]
                exact beq_false_of_ne fun equal => other equal.symm
              change (if wanted == character then _ else none) = none
              rw [different]
              rfl
      | cons character body =>
          change (if wanted == character then afterLiteral name (body ++ after) else none) =
            (if wanted == character then afterLiteral name body else none).map _
          split
          · exact induction later
          · rfl

variable {isPart : Char → Bool}

/-- A run of characters ends at the latest at a character of another class. -/
theorem span_append (stops : ∀ character ∈ after.head?, isPart character = false) (body : List Char) :
    (body ++ after).takeWhile isPart = body.takeWhile isPart ∧
      (body ++ after).dropWhile isPart = body.dropWhile isPart ++ after := by
  induction body with
  | nil =>
      cases after with
      | nil => exact ⟨rfl, rfl⟩
      | cons next after => simp [stops next rfl]
  | cons character body induction =>
      rcases induction with ⟨taken, dropped⟩
      rw [List.cons_append, List.takeWhile_cons, List.takeWhile_cons, List.dropWhile_cons,
        List.dropWhile_cons, taken, dropped]
      split
      · exact ⟨rfl, rfl⟩
      · exact ⟨rfl, rfl⟩

theorem bounded_identifier (start : isStart mark = false) (part : isPart mark = false) :
    Bounded mark (identifier isStart isPart) := by
  intro body after follows
  cases body with
  | nil =>
      cases after with
      | nil => rfl
      | cons character after =>
          have other : ¬ isStart character = true := by
            rw [follows character rfl, start]
            exact Bool.false_ne_true
          simp [identifier, other]
  | cons character body =>
      have stops : ∀ next ∈ after.head?, isPart next = false := by
        intro next member
        rw [follows next member]
        exact part
      rcases span_append stops body with ⟨taken, dropped⟩
      rw [List.cons_append, identifier, identifier, taken, dropped]
      split
      · rfl
      · rfl

def literal (name replacement : List Char) : Finder :=
  fun text => (afterLiteral name text).map fun rest => (replacement, rest)

variable {replacement : List Char}

theorem literal_eq_some {text : List Char} {found : List Char × List Char} :
    literal name replacement text = some found ↔
      found.1 = replacement ∧ text = name ++ found.2 := by
  rcases found with ⟨put, rest⟩
  rw [literal, Option.map_eq_some_iff]
  constructor
  · rintro ⟨remaining, after, same⟩
    cases same
    exact ⟨rfl, (List.isPrefixOf?_eq_some_iff_append_eq.mp after).symm⟩
  · rintro ⟨rfl, rfl⟩
    exact ⟨rest, List.isPrefixOf?_eq_some_iff_append_eq.mpr rfl, rfl⟩

theorem opened_literal (absent : mark ∉ name) (replacement : List Char) :
    Opened mark (literal (mark :: name) replacement) where
  starts present := by
    have split := (literal_eq_some.mp present).2
    rw [List.cons_append] at split
    exact (List.cons.inj split).1
  splits present := by
    have split := (literal_eq_some.mp present).2
    rw [List.cons_append] at split
    exact ⟨name, (List.cons.inj split).2.symm⟩
  bounded := by
    intro body after follows
    have inner : ∀ text, literal (mark :: name) replacement (mark :: text) =
        literal name replacement text := by
      intro text
      rw [literal, literal, afterLiteral, afterLiteral, List.isPrefixOf?, beq_self_eq_true]
      rfl
    rw [inner, inner, literal, literal, afterLiteral_append absent follows]
    cases afterLiteral name body with
    | some rest => rfl
    | none => rfl

/-- Finds a literal before a character of another class, or at the end. -/
def wholeLiteral (isPart : Char → Bool) (name replacement : List Char) : Finder :=
  fun text => ((afterLiteral name text).bind fun rest =>
    if rest.head?.any isPart then none else some rest).map fun rest => (replacement, rest)

theorem literal_of_wholeLiteral {text : List Char} {found : List Char × List Char}
    (present : wholeLiteral isPart name replacement text = some found) :
    literal name replacement text = some found := by
  rcases Option.map_eq_some_iff.mp present with ⟨rest, matched, same⟩
  rcases Option.bind_eq_some_iff.mp matched with ⟨remaining, after, ends⟩
  split at ends
  · cases ends
  · cases ends
    exact Option.map_eq_some_iff.mpr ⟨rest, after, same⟩

theorem opened_wholeLiteral (part : isPart mark = false) (absent : mark ∉ name)
    (replacement : List Char) :
    Opened mark (wholeLiteral isPart (mark :: name) replacement) where
  starts present := (opened_literal absent replacement).starts (literal_of_wholeLiteral present)
  splits present := (opened_literal absent replacement).splits (literal_of_wholeLiteral present)
  bounded := by
    intro body after follows
    have inner : ∀ text, afterLiteral (mark :: name) (mark :: text) = afterLiteral name text := by
      intro text
      rw [afterLiteral, afterLiteral, List.isPrefixOf?, beq_self_eq_true]
      rfl
    rw [wholeLiteral, wholeLiteral, inner, inner, afterLiteral_append absent follows]
    cases afterLiteral name body with
    | none => rfl
    | some rest =>
        have ends : (rest ++ after).head?.any isPart = rest.head?.any isPart := by
          cases rest with
          | cons character rest => rfl
          | nil =>
              cases after with
              | nil => rfl
              | cons character after =>
                  have same : character = mark := follows character rfl
                  rw [same]
                  exact part
        dsimp only [Option.map_some, Option.bind_some]
        rw [ends]
        split
        · rfl
        · rfl

theorem pass_literal {first : Char} (skip : Nat) (text : List Char) :
    (pass (literal (first :: name) replacement) skip text).1 =
      replaceLoop (first :: name) replacement skip text := by
  induction text generalizing skip with
  | nil => cases skip with
    | zero => rfl
    | succ skip => rfl
  | cons character rest induction =>
      cases skip with
      | succ skip => exact induction skip
      | zero =>
          rw [pass, replaceLoop]
          cases present : literal (first :: name) replacement (character :: rest) with
          | some found =>
              rcases found with ⟨put, remaining⟩
              rcases literal_eq_some.mp present with ⟨same, split⟩
              dsimp only at same split
              subst same
              have starts : (first :: name).isPrefixOf (character :: rest) = true :=
                List.isPrefixOf_iff_prefix.mpr ⟨remaining, split.symm⟩
              have length : rest.length - remaining.length = (first :: name).length - 1 := by
                rw [List.cons_append] at split
                rw [(List.cons.inj split).2, List.length_append, List.length_cons]
                omega
              dsimp only
              rw [if_pos starts, length, induction]
          | none =>
              have other : ¬ (first :: name).isPrefixOf (character :: rest) = true := by
                intro starts
                rcases List.isPrefixOf_iff_prefix.mp starts with ⟨remaining, split⟩
                have found : literal (first :: name) replacement (character :: rest) =
                    some (replacement, remaining) := literal_eq_some.mpr ⟨rfl, split.symm⟩
                rw [found] at present
                cases present
              dsimp only
              rw [if_neg other, induction]

end Finder

/-! ## Chunks -/

/-- Part of a text, in which some parts take the place of what was found. -/
inductive Chunk
  /-- What was put in. -/
  | value (text : List Char)
  /-- Text without a mark. -/
  | plain (text : List Char)
  /-- A mark and the text up to the next one. -/
  | marked (body : List Char)
  deriving DecidableEq

namespace Chunk

variable (mark : Char)

def text : Chunk → List Char
  | .value text => text
  | .plain text => text
  | .marked body => mark :: body

def written (chunks : List Chunk) : List Char :=
  chunks.flatMap (text mark)

/-- There is no mark where there should be none. -/
def Unmarked : Chunk → Prop
  | .value _ => True
  | .plain text => mark ∉ text
  | .marked body => mark ∉ body

def splitMarks : List Char → List Char × List (List Char)
  | [] => ([], [])
  | character :: rest =>
      if character = mark then ([], (splitMarks rest).1 :: (splitMarks rest).2)
      else (character :: (splitMarks rest).1, (splitMarks rest).2)

def chunks (text : List Char) : List Chunk :=
  .plain (splitMarks mark text).1 :: (splitMarks mark text).2.map .marked

def expand (find : Finder) : Chunk → List Chunk
  | .marked body =>
      match find (mark :: body) with
      | some (replacement, rest) => [.value replacement, .plain rest]
      | none => [.marked body]
  | chunk => [chunk]

def found (find : Finder) : Chunk → Bool
  | .marked body => (find (mark :: body)).isSome
  | _ => false

/-- In the whole text nothing is found that starts in a text that was put in, and from
every other mark what is found is what the chunk alone has there. -/
def Untouched (find : Finder) : List Chunk → Prop
  | [] => True
  | .value text :: rest =>
      (∀ start ∈ text.tails, start ≠ [] → find (start ++ written mark rest) = none) ∧
        Untouched find rest
  | .plain _ :: rest => Untouched find rest
  | .marked body :: rest =>
      find (mark :: (body ++ written mark rest)) =
          (find (mark :: body)).map (fun found => (found.1, found.2 ++ written mark rest)) ∧
        Untouched find rest

/-- The same for several passes, each over what the ones before it have left. -/
def AllUntouched : List Finder → List Chunk → Prop
  | [], _ => True
  | find :: finders, chunks =>
      Untouched mark find chunks ∧ AllUntouched finders (chunks.flatMap (expand mark find))

instance decidableUntouched (find : Finder) :
    (chunks : List Chunk) → Decidable (Untouched mark find chunks)
  | [] => isTrue trivial
  | .value _ :: rest => @instDecidableAnd _ _ inferInstance (decidableUntouched find rest)
  | .plain _ :: rest => decidableUntouched find rest
  | .marked _ :: rest => @instDecidableAnd _ _ inferInstance (decidableUntouched find rest)

instance decidableAllUntouched :
    (finders : List Finder) → (chunks : List Chunk) → Decidable (AllUntouched mark finders chunks)
  | [], _ => isTrue trivial
  | _ :: finders, _ => @instDecidableAnd _ _ inferInstance (decidableAllUntouched finders _)

variable {mark} {find : Finder} {finders : List Finder} {chunks : List Chunk}

theorem written_append (first second : List Chunk) :
    written mark (first ++ second) = written mark first ++ written mark second :=
  List.flatMap_append

theorem written_splitMarks (text : List Char) :
    (splitMarks mark text).1 ++ (splitMarks mark text).2.flatMap (fun body => mark :: body) =
      text := by
  induction text with
  | nil => rfl
  | cons character rest induction =>
      rw [splitMarks]
      split
      · next opens =>
          rw [opens]
          dsimp only
          rw [List.flatMap_cons, List.nil_append, List.cons_append, induction]
      · rw [List.cons_append, induction]

theorem written_chunks (text : List Char) : written mark (Chunk.chunks mark text) = text := by
  rw [Chunk.chunks, written, List.flatMap_cons, List.flatMap_map]
  exact written_splitMarks text

theorem splitMarks_unmarked (text : List Char) :
    mark ∉ (splitMarks mark text).1 ∧ ∀ body ∈ (splitMarks mark text).2, mark ∉ body := by
  induction text with
  | nil => simp [splitMarks]
  | cons character rest induction =>
      rw [splitMarks]
      split
      · constructor
        · exact List.not_mem_nil
        · intro body member
          rcases List.mem_cons.mp member with rfl | later
          · exact induction.1
          · exact induction.2 body later
      · next other =>
          constructor
          · intro member
            rcases List.mem_cons.mp member with same | later
            · exact other same.symm
            · exact induction.1 later
          · exact induction.2

theorem unmarked_chunks (text : List Char) :
    ∀ chunk ∈ Chunk.chunks mark text, chunk.Unmarked mark := by
  intro chunk member
  rcases List.mem_cons.mp member with rfl | later
  · exact (splitMarks_unmarked text).1
  · rcases List.mem_map.mp later with ⟨body, inside, rfl⟩
    exact (splitMarks_unmarked text).2 body inside

theorem unmarked_expand (opened : Finder.Opened mark find) (unmarked : chunk.Unmarked mark) :
    ∀ next ∈ expand mark find chunk, next.Unmarked mark := by
  intro next member
  cases chunk with
  | value text =>
      rw [List.mem_singleton.mp member]
      exact unmarked
  | plain text =>
      rw [List.mem_singleton.mp member]
      exact unmarked
  | marked body =>
      rw [expand] at member
      split at member
      · next replacement rest present =>
          rcases List.mem_pair.mp member with rfl | rfl
          · trivial
          · exact fun inside => unmarked ((opened.splits present).mem inside)
      · rw [List.mem_singleton.mp member]
        exact unmarked

theorem unmarked_flatMap_expand (opened : Finder.Opened mark find)
    (unmarked : ∀ chunk ∈ chunks, chunk.Unmarked mark) :
    ∀ chunk ∈ chunks.flatMap (expand mark find), chunk.Unmarked mark := by
  intro chunk member
  rcases List.mem_flatMap.mp member with ⟨earlier, inside, expanded⟩
  exact unmarked_expand opened (unmarked earlier inside) chunk expanded

theorem pass_unmarked (opened : Finder.Opened mark find) (absent : mark ∉ part) (after : List Char) :
    find.pass 0 (part ++ after) = (part ++ (find.pass 0 after).1, (find.pass 0 after).2) := by
  apply Finder.pass_append
  intro start shown inside
  cases start with
  | nil => exact absurd rfl shown
  | cons character rest =>
      rw [List.cons_append]
      cases present : find (character :: (rest ++ after)) with
      | none => rfl
      | some found =>
          have same := opened.starts present
          rw [same] at inside
          exact absurd (inside.mem List.mem_cons_self) absent

theorem pass_written (opened : Finder.Opened mark find)
    (unmarked : ∀ chunk ∈ chunks, chunk.Unmarked mark) (untouched : Untouched mark find chunks) :
    find.pass 0 (written mark chunks) =
      (written mark (chunks.flatMap (expand mark find)), chunks.any (found mark find)) := by
  induction chunks with
  | nil => rfl
  | cons chunk rest induction =>
      rcases List.forall_mem_cons.mp unmarked with ⟨here, later⟩
      rw [written, List.flatMap_cons, List.flatMap_cons, written_append, List.any_cons]
      cases chunk with
      | value text =>
          rcases untouched with ⟨none, onward⟩
          have kept := @Finder.pass_append find text (written mark rest) fun start shown inside =>
            none start ((List.mem_tails _ _).mpr inside) shown
          have after := induction later onward
          change find.pass 0 (text ++ written mark rest) = _
          rw [kept, after]
          simp [expand, found, written, Chunk.text]
      | plain text =>
          have kept := pass_unmarked opened here (written mark rest)
          have after := induction later untouched
          change find.pass 0 (text ++ written mark rest) = _
          rw [kept, after]
          simp [expand, found, written, Chunk.text]
      | marked body =>
          rcases untouched with ⟨alone, onward⟩
          have after := induction later onward
          change find.pass 0 (mark :: (body ++ written mark rest)) = _
          rw [Finder.pass, alone, expand, found]
          cases present : find (mark :: body) with
          | none =>
              have kept := pass_unmarked opened here (written mark rest)
              dsimp only [Option.map_none]
              rw [kept, after]
              simp [written, Chunk.text]
          | some result =>
              rcases result with ⟨replacement, remaining⟩
              rcases opened.splits present with ⟨inner, split⟩
              dsimp only at split
              subst split
              have short : mark ∉ remaining := fun inside =>
                here (List.mem_append_right inner inside)
              have kept := pass_unmarked opened short (written mark rest)
              have skipped : (inner ++ remaining ++ written mark rest).length -
                  (remaining ++ written mark rest).length = inner.length := by
                simp only [List.length_append]
                omega
              dsimp only [Option.map_some]
              rw [skipped, List.append_assoc, Finder.pass_skip, kept, after]
              simp [written, Chunk.text]

/-! ## All passes at once -/

theorem expand_first_nil (chunk : Chunk) : expand mark (Finder.first []) chunk = [chunk] := by
  cases chunk with
  | value text => rfl
  | plain text => rfl
  | marked body => rfl

/-- What one pass has put in, another one leaves alone. -/
theorem expand_or (find other : Finder) (chunk : Chunk) :
    (expand mark find chunk).flatMap (expand mark other) =
      expand mark (fun text => (find text).or (other text)) chunk := by
  cases chunk with
  | value text => rfl
  | plain text => rfl
  | marked body =>
      rw [expand, expand]
      cases present : find (mark :: body) with
      | some result => rfl
      | none =>
          rw [Option.none_or, List.flatMap_singleton, expand]

theorem flatMap_expand_nil : chunks.flatMap (expand mark (Finder.first [])) = chunks := by
  rw [funext expand_first_nil, List.flatMap_singleton']

theorem flatMap_expand_cons :
    (chunks.flatMap (expand mark find)).flatMap (expand mark (Finder.first finders)) =
      chunks.flatMap (expand mark (Finder.first (find :: finders))) := by
  rw [List.flatMap_assoc, funext Finder.first_cons]
  exact List.flatMap_congr fun chunk _ => expand_or _ _ chunk

theorem flatMap_expand_append (more : List Finder) :
    (chunks.flatMap (expand mark (Finder.first finders))).flatMap
        (expand mark (Finder.first more)) =
      chunks.flatMap (expand mark (Finder.first (finders ++ more))) := by
  rw [List.flatMap_assoc, funext (Finder.first_append more)]
  exact List.flatMap_congr fun chunk _ => expand_or _ _ chunk

theorem allUntouched_append {more : List Finder} :
    AllUntouched mark (finders ++ more) chunks ↔
      AllUntouched mark finders chunks ∧
        AllUntouched mark more (chunks.flatMap (expand mark (Finder.first finders))) := by
  induction finders generalizing chunks with
  | nil =>
      rw [flatMap_expand_nil]
      exact (and_iff_right trivial).symm
  | cons find finders induction =>
      rw [List.cons_append, AllUntouched, AllUntouched, induction, flatMap_expand_cons, and_assoc]

/-- A pass changes nothing after one that finds whatever it finds. -/
theorem flatMap_expand_of_none (covers : ∀ text, find text = none → other text = none) :
    (chunks.flatMap (expand mark find)).flatMap (expand mark other) =
      chunks.flatMap (expand mark find) := by
  have same : (fun text => (find text).or (other text)) = find := by
    funext text
    cases present : find text with
    | some found => rfl
    | none => exact covers text present
  rw [List.flatMap_assoc]
  apply List.flatMap_congr
  intro chunk _
  rw [expand_or, same]

/-- What a pass finds is found as well after one that leaves it alone. -/
theorem any_found_flatMap_expand (apart : ∀ text, (other text).isSome = true → find text = none) :
    (chunks.flatMap (expand mark find)).any (found mark other) = chunks.any (found mark other) := by
  rw [List.any_flatMap]
  congr 1
  funext chunk
  cases chunk with
  | value text => rfl
  | plain text => rfl
  | marked body =>
      rw [expand, found]
      cases present : find (mark :: body) with
      | none =>
          dsimp only
          rw [List.any_cons, List.any_nil, Bool.or_false, found]
      | some result =>
          cases matched : (other (mark :: body)).isSome with
          | false => rfl
          | true =>
              rw [apart _ matched] at present
              cases present

theorem replaceEach_written (opened : ∀ find ∈ finders, Finder.Opened mark find)
    (unmarked : ∀ chunk ∈ chunks, chunk.Unmarked mark)
    (untouched : AllUntouched mark finders chunks) :
    Finder.replaceEach finders (written mark chunks) =
      written mark (chunks.flatMap (expand mark (Finder.first finders))) := by
  induction finders generalizing chunks with
  | nil =>
      rw [flatMap_expand_nil]
      rfl
  | cons find finders induction =>
      rcases List.forall_mem_cons.mp opened with ⟨here, later⟩
      have once := congrArg Prod.fst (pass_written here unmarked untouched.1)
      rw [← flatMap_expand_cons,
        ← induction later (unmarked_flatMap_expand here unmarked) untouched.2]
      exact congrArg (Finder.replaceEach finders) once

theorem opened_first (opened : ∀ find ∈ finders, Finder.Opened mark find) :
    Finder.Opened mark (Finder.first finders) where
  starts present := by
    rcases List.exists_of_findSome?_eq_some present with ⟨find, member, found⟩
    exact (opened find member).starts found
  splits present := by
    rcases List.exists_of_findSome?_eq_some present with ⟨find, member, found⟩
    exact (opened find member).splits found
  bounded := by
    intro body after follows
    induction finders with
    | nil => rfl
    | cons find finders induction =>
        rcases List.forall_mem_cons.mp opened with ⟨here, later⟩
        rw [Finder.first_cons, Finder.first_cons, here.bounded follows, induction later]
        cases find (mark :: body) with
        | some found => rfl
        | none => rfl

/-- In a text in which nothing was put in, everything is found where it stands. -/
theorem untouched_chunks (opened : Finder.Opened mark find) (text : List Char) :
    Untouched mark find (Chunk.chunks mark text) := by
  rw [Chunk.chunks, Untouched]
  induction (splitMarks mark text).2 with
  | nil => trivial
  | cons body bodies induction =>
      rw [List.map_cons, Untouched]
      refine ⟨opened.bounded ?_, induction⟩
      intro character follows
      cases bodies with
      | nil => cases follows
      | cons next bodies => exact (Option.some.inj follows).symm

theorem pass_chunks (opened : Finder.Opened mark find) (text : List Char) :
    find.pass 0 text =
      (written mark ((Chunk.chunks mark text).flatMap (expand mark find)),
        (Chunk.chunks mark text).any (found mark find)) := by
  have passed := pass_written opened (unmarked_chunks text) (untouched_chunks opened text)
  rw [written_chunks] at passed
  exact passed

/-- Passes over a text whose replacements stay untouched amount to one pass over the
text that looks for everything at once. -/
theorem replaceEach_eq_replace_first (opened : ∀ find ∈ finders, Finder.Opened mark find)
    {text : List Char} (untouched : AllUntouched mark finders (Chunk.chunks mark text)) :
    Finder.replaceEach finders text = (Finder.first finders).replace text := by
  have each := replaceEach_written opened (unmarked_chunks text) untouched
  rw [written_chunks] at each
  rw [each, Finder.replace, pass_chunks (opened_first opened)]

end Chunk

end Text
