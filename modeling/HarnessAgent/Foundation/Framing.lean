import Mathlib.Data.List.Basic

/-! # Framing

Decoders that cut a stream of symbols into frames while the stream arrives in
chunks. A decoder looks at a buffer from its start; whoever feeds it appends each
chunk to the buffer and takes frames off until the decoder asks for more.
-/

namespace Framing

inductive Decoded (ε β α : Type) where
  | more
  | frame (item : α) (rest : List β)
  | failed (error : ε)

/-- A frame takes something off the buffer, and what was decided about a buffer is
not revised when more arrives behind it. -/
structure Decoder (ε β α : Type) where
  decode : List β → Decoded ε β α
  shrinks : ∀ {buffer item rest}, decode buffer = .frame item rest →
    rest.length < buffer.length
  frame_append : ∀ {buffer item rest} (later : List β), decode buffer = .frame item rest →
    decode (buffer ++ later) = .frame item (rest ++ later)
  failed_append : ∀ {buffer error} (later : List β), decode buffer = .failed error →
    decode (buffer ++ later) = .failed error

/-- The frames taken so far, and the rest of the buffer or the failure that ended
the decoding. -/
structure Drained (ε β α : Type) where
  items : List α
  ending : Except ε (List β)

namespace Drained

variable {ε β α : Type}

def after (items : List α) (drained : Drained ε β α) : Drained ε β α :=
  ⟨items ++ drained.items, drained.ending⟩

@[simp] theorem after_nil (drained : Drained ε β α) : drained.after [] = drained := rfl

@[simp] theorem after_after (first second : List α) (drained : Drained ε β α) :
    (drained.after second).after first = drained.after (first ++ second) := by
  simp [after]

end Drained

namespace Decoder

variable {ε β α : Type} (decoder : Decoder ε β α)

def drain (buffer : List β) : Drained ε β α :=
  match _decoded : decoder.decode buffer with
  | .more => ⟨[], .ok buffer⟩
  | .frame item rest => (drain rest).after [item]
  | .failed error => ⟨[], .error error⟩
termination_by buffer.length
decreasing_by exact decoder.shrinks _decoded

def feed (drained : Drained ε β α) (chunk : List β) : Drained ε β α :=
  match drained.ending with
  | .ok buffer => (decoder.drain (buffer ++ chunk)).after drained.items
  | .error _ => drained

def feedAll (chunks : List (List β)) : Drained ε β α :=
  chunks.foldl decoder.feed (decoder.drain [])

variable {decoder}

variable {buffer : List β}

theorem drain_of_more (decoded : decoder.decode buffer = .more) :
    decoder.drain buffer = ⟨[], .ok buffer⟩ := by
  rw [drain]
  split
  · rfl
  · next found => rw [decoded] at found; cases found
  · next found => rw [decoded] at found; cases found

theorem drain_of_frame (decoded : decoder.decode buffer = .frame item rest) :
    decoder.drain buffer = (decoder.drain rest).after [item] := by
  rw [drain]
  split
  · next found => rw [decoded] at found; cases found
  · next found =>
      rw [decoded] at found
      cases found
      rfl
  · next found => rw [decoded] at found; cases found

theorem drain_of_failed (decoded : decoder.decode buffer = .failed error) :
    decoder.drain buffer = ⟨[], .error error⟩ := by
  rw [drain]
  split
  · next found => rw [decoded] at found; cases found
  · next found => rw [decoded] at found; cases found
  · next found =>
      rw [decoded] at found
      cases found
      rfl

theorem feed_drain (decoder : Decoder ε β α) (buffer chunk : List β) :
    decoder.feed (decoder.drain buffer) chunk = decoder.drain (buffer ++ chunk) := by
  fun_induction decoder.drain buffer with
  | case1 buffer decoded => simp [feed]
  | case2 buffer item rest decoded induction =>
      rw [drain_of_frame (decoder.frame_append chunk decoded), ← induction]
      simp only [feed, Drained.after]
      split <;> simp
  | case3 buffer error decoded =>
      rw [drain_of_failed (decoder.failed_append chunk decoded)]
      rfl

theorem foldl_feed_of_error (failed : drained.ending = .error error) (chunks : List (List β)) :
    chunks.foldl decoder.feed drained = drained := by
  induction chunks with
  | nil => rfl
  | cons chunk rest induction =>
      rw [List.foldl_cons]
      simpa only [feed, failed] using induction

theorem feedAll_eq_drain (decoder : Decoder ε β α) (chunks : List (List β)) :
    decoder.feedAll chunks = decoder.drain chunks.flatten := by
  have fed : ∀ (chunks : List (List β)) (buffer : List β),
      chunks.foldl decoder.feed (decoder.drain buffer) =
        decoder.drain (buffer ++ chunks.flatten) := by
    intro chunks
    induction chunks with
    | nil => simp
    | cons chunk rest induction =>
        intro buffer
        rw [List.foldl_cons, feed_drain, induction, List.flatten_cons, List.append_assoc]
  exact fed chunks []

theorem drain_flatten {items : List α}
    (framed : ∀ item ∈ items, ∀ rest, decoder.decode (encode item ++ rest) = .frame item rest)
    (tail : List β) :
    decoder.drain ((items.map encode).flatten ++ tail) =
      (decoder.drain tail).after items := by
  induction items with
  | nil => rfl
  | cons item rest induction =>
      have first := framed item List.mem_cons_self ((rest.map encode).flatten ++ tail)
      have others := induction fun other member => framed other (List.mem_cons_of_mem _ member)
      rw [List.map_cons, List.flatten_cons, List.append_assoc, drain_of_frame first, others]
      simp

end Decoder

section Cut

variable {β : Type} [BEq β]

/-- What stands before and behind the first occurrence of a separator. -/
def cut (separator : List β) : List β → Option (List β × List β)
  | [] => none
  | symbol :: rest =>
      if separator.isPrefixOf (symbol :: rest) then
        some ([], (symbol :: rest).drop separator.length)
      else
        (cut separator rest).map fun sides => (symbol :: sides.1, sides.2)

variable [LawfulBEq β]

variable {before buffer separator : List β}

theorem append_of_cut {after : List β} (found : cut separator buffer = some (before, after)) :
    buffer = before ++ separator ++ after := by
  induction buffer generalizing before with
  | nil => cases found
  | cons symbol rest induction =>
      simp only [cut] at found
      split at found
      · next starts =>
          cases found
          obtain ⟨tail, whole⟩ := List.isPrefixOf_iff_prefix.mp starts
          rw [← whole]
          simp
      · obtain ⟨sides, inner, same⟩ := Option.map_eq_some_iff.mp found
        cases same
        rw [induction inner]
        rfl

theorem cut_append {after : List β} (later : List β)
    (found : cut separator buffer = some (before, after)) :
    cut separator (buffer ++ later) = some (before, after ++ later) := by
  induction buffer generalizing before with
  | nil => cases found
  | cons symbol rest induction =>
      have whole := append_of_cut found
      simp only [cut, List.cons_append] at found ⊢
      split at found
      · next starts =>
          cases found
          have prefixed := List.isPrefixOf_iff_prefix.mp starts
          have longer : separator <+: symbol :: (rest ++ later) :=
            prefixed.trans (List.prefix_append (symbol :: rest) later)
          rw [if_pos (List.isPrefixOf_iff_prefix.mpr longer), ← List.cons_append,
            List.drop_append_of_le_length prefixed.length_le]
      · next starts =>
          obtain ⟨sides, inner, same⟩ := Option.map_eq_some_iff.mp found
          cases same
          -- The separator fits into the rest, so a match at this place would not
          -- reach into what arrives later.
          have fits : separator.length ≤ (symbol :: rest).length := by
            rw [whole]
            simp only [List.length_append]
            omega
          have absent : ¬ separator.isPrefixOf (symbol :: (rest ++ later)) = true := by
            intro occurs
            apply starts
            apply List.isPrefixOf_iff_prefix.mpr
            exact List.prefix_of_prefix_length_le (List.isPrefixOf_iff_prefix.mp occurs)
              (List.prefix_append (symbol :: rest) later) fits
          rw [if_neg absent, induction inner]
          rfl

theorem cut_of_not_mem (absent : first ∉ before) (after : List β) :
    cut (first :: separator) (before ++ first :: separator ++ after) =
      some (before, after) := by
  induction before with
  | nil =>
      have starts : (first :: separator).isPrefixOf (first :: separator ++ after) = true :=
        List.isPrefixOf_iff_prefix.mpr (List.prefix_append _ _)
      simp only [List.nil_append, List.cons_append] at starts ⊢
      simp [cut, starts]
  | cons symbol rest induction =>
      have parts := List.ne_and_not_mem_of_not_mem_cons absent
      have other : (first == symbol) = false := by
        simpa using parts.1
      simp only [List.cons_append, cut, List.isPrefixOf, other, Bool.false_and] at induction ⊢
      rw [if_neg (by decide)]
      rw [induction parts.2]
      rfl

theorem cut_eq_none_of_not_mem (absent : first ∉ buffer) :
    cut (first :: separator) buffer = none := by
  induction buffer with
  | nil => rfl
  | cons symbol rest induction =>
      have parts := List.ne_and_not_mem_of_not_mem_cons absent
      have other : (first == symbol) = false := by
        simpa using parts.1
      simp only [cut, List.isPrefixOf, other, Bool.false_and]
      rw [if_neg (by decide), induction parts.2]
      rfl

end Cut

end Framing
