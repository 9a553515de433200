import HarnessAgent.Executor.NodeFiles
import HarnessAgent.Foundation.TextLanguage
import HarnessAgent.Provider.AgentSelection

/-! # Names of agents

A definition is checked to name its agents in kebab case, and an agent of an OpenCode
session is known by its identifier converted to kebab case. The two loops are written in
different crates; they agree, so agents do not share a name or a file.
-/

namespace HarnessAgent

open Text TextLanguage

/-- Words of lowercase letters and digits with hyphens between them. -/
def kebabCase : Language Char :=
  words Validation.isAgentIdPart '-'

def kebabRest : Language Char :=
  wordsRest Validation.isAgentIdPart '-'

/-! ## Validation -/

namespace Validation

theorem ne_hyphen_of_isAgentIdPart (part : isAgentIdPart character = true) : character ≠ '-' := by
  intro hyphen
  rw [hyphen] at part
  cases part

theorem isAgentIdRest_cons (part : isAgentIdPart first = true) (rest : List Char) :
    isAgentIdRest (first :: rest) = isAgentIdRest rest := by
  rw [isAgentIdRest.eq_def]
  dsimp only
  rw [if_neg (ne_hyphen_of_isAgentIdPart part), part, Bool.true_and]

theorem isAgentIdRest_hyphen (part : isAgentIdPart first = true) (rest : List Char) :
    isAgentIdRest ('-' :: first :: rest) = isAgentIdRest rest := by
  rw [isAgentIdRest, if_pos rfl, part, Bool.true_and, isAgentIdRest_cons part]

theorem isAgentIdRest_of_mem (isRest : text ∈ kebabRest) : isAgentIdRest text = true := by
  apply wordsRest_induction (motive := fun text => isAgentIdRest text = true) _ _ _ text isRest
  · rfl
  · intro first rest part _ induction
    rw [isAgentIdRest_cons part, induction]
  · intro first rest part _ induction
    rw [isAgentIdRest_hyphen part, induction]

theorem mem_of_isAgentIdRest (text : List Char) (accepted : isAgentIdRest text = true) :
    text ∈ kebabRest := by
  induction text using isAgentIdRest.induct with
  | case1 => exact nil_mem_wordsRest
  | case2 next tail induction =>
      rw [isAgentIdRest, if_pos rfl, Bool.and_eq_true] at accepted
      rcases accepted with ⟨part, later⟩
      have behind := mem_wordsRest_of_cons (ne_hyphen_of_isAgentIdPart part) (induction later)
      exact separator_mem_wordsRest part behind.2
  | case3 => cases accepted
  | case4 character rest other induction =>
      rw [isAgentIdRest.eq_def] at accepted
      dsimp only at accepted
      rw [if_neg other, Bool.and_eq_true] at accepted
      exact cons_mem_wordsRest accepted.1 (induction accepted.2)

theorem isValidAgentId_iff (id : String) : isValidAgentId id = true ↔ id.toList ∈ kebabCase := by
  rw [isValidAgentId, kebabCase, mem_words_iff]
  constructor
  · intro accepted
    split at accepted
    · cases accepted
    · next first rest split =>
        rcases Bool.and_eq_true _ _ ▸ accepted with ⟨part, later⟩
        exact ⟨first, rest, part, mem_of_isAgentIdRest rest later, split⟩
  · intro isKebab
    rcases isKebab with ⟨first, rest, part, isRest, split⟩
    rw [split]
    exact Bool.and_eq_true _ _ ▸ ⟨part, isAgentIdRest_of_mem isRest⟩

end Validation

/-! ## Lowercase -/

theorem toLower_cases (character : Char) :
    (0x41 ≤ character.toNat ∧ character.toNat ≤ 0x5A ∧
      character.toLower.toNat = character.toNat + 0x20) ∨
    (¬(0x41 ≤ character.toNat ∧ character.toNat ≤ 0x5A) ∧ character.toLower = character) := by
  have low : 'A'.val ≤ character.val ↔ 0x41 ≤ character.toNat := UInt32.le_iff_toNat_le
  have high : character.val ≤ 'Z'.val ↔ character.toNat ≤ 0x5A := UInt32.le_iff_toNat_le
  by_cases upper : 'A'.val ≤ character.val ∧ character.val ≤ 'Z'.val
  · refine .inl ⟨low.mp upper.1, high.mp upper.2, ?_⟩
    have moved : character.toLower.val = character.val + ('a'.val - 'A'.val) := by
      exact congrArg Char.val (dif_pos upper)
    have code := congrArg UInt32.toNat moved
    have bound := high.mp upper.2
    have step : ('a'.val - 'A'.val).toNat = 0x20 := rfl
    rw [UInt32.toNat_add, step] at code
    exact code.trans (Nat.mod_eq_of_lt (Nat.lt_of_le_of_lt
      (Nat.add_le_add_right bound 0x20) (by decide)))
  · refine .inr ⟨fun bounds => upper ⟨low.mpr bounds.1, high.mpr bounds.2⟩, ?_⟩
    exact dif_neg upper

variable {character : Char}

theorem isAgentIdPart_toLower
    (alphanumeric : (isAsciiDigit character.toLower || isAsciiLetter character.toLower) = true) :
    Validation.isAgentIdPart character.toLower = true := by
  rw [isAsciiDigit, isAsciiLetter] at alphanumeric
  rw [Validation.isAgentIdPart, isAsciiDigit]
  simp only [Bool.or_eq_true, Bool.and_eq_true, decide_eq_true_eq] at alphanumeric ⊢
  rcases toLower_cases character with ⟨low, high, moved⟩ | ⟨notUpper, kept⟩
  · omega
  · rw [kept] at alphanumeric ⊢
    omega

theorem isAgentIdPart_of_mem_lowercase (member : character ∈ lowercase text)
    (alphanumeric : (isAsciiDigit character || isAsciiLetter character) = true) :
    Validation.isAgentIdPart character = true := by
  rcases List.mem_flatMap.mp member with ⟨original, -, lowered⟩
  split at lowered
  · rw [List.mem_singleton.mp lowered]
    rfl
  split at lowered
  · rcases List.mem_cons.mp lowered with rfl | mark
    · rfl
    · rw [List.mem_singleton.mp mark] at alphanumeric
      cases alphanumeric
  · rw [List.mem_singleton.mp lowered] at alphanumeric ⊢
    exact isAgentIdPart_toLower alphanumeric

theorem lowercase_of_parts
    (parts : ∀ character ∈ text, Validation.isAgentIdPart character = true ∨ character = '-') :
    lowercase text = text := by
  induction text with
  | nil => rfl
  | cons character rest induction =>
      rcases List.forall_mem_cons.mp parts with ⟨part, later⟩
      have bounds : character.toNat ≤ 0x7A ∧
          ¬(0x41 ≤ character.toNat ∧ character.toNat ≤ 0x5A) := by
        rcases part with isPart | rfl
        · rw [Validation.isAgentIdPart, isAsciiDigit] at isPart
          simp only [Bool.or_eq_true, Bool.and_eq_true, decide_eq_true_eq] at isPart
          omega
        · decide
      have kept : character.toLower = character := by
        rcases toLower_cases character with ⟨low, high, -⟩ | ⟨-, kept⟩
        · exact absurd ⟨low, high⟩ bounds.2
        · exact kept
      have onward := induction later
      rw [lowercase] at onward ⊢
      rw [List.flatMap_cons, onward, if_neg (by omega), if_neg (by omega), kept,
        List.singleton_append]

theorem parts_of_mem_kebabRest (text : List Char) (isRest : text ∈ kebabRest) :
    ∀ character ∈ text, Validation.isAgentIdPart character = true ∨ character = '-' := by
  apply wordsRest_induction (motive := fun text => ∀ character ∈ text,
    Validation.isAgentIdPart character = true ∨ character = '-') _ _ _ text isRest
  · exact List.forall_mem_nil _
  · intro first rest part _ induction
    exact List.forall_mem_cons.mpr ⟨.inl part, induction⟩
  · intro first rest part _ induction
    exact List.forall_mem_cons.mpr ⟨.inr rfl, List.forall_mem_cons.mpr ⟨.inl part, induction⟩⟩

/-! ## Conversion -/

namespace OpenCode

/-- A letter or digit is written behind a hyphen if something was left out before it. -/
theorem kebabCase_step (inSep : Bool) (part : Validation.isAgentIdPart character = true)
    (before : written = [] ∨ written ∈ kebabCase) :
    (if inSep && !written.isEmpty then written ++ ['-'] else written) ++ [character] ∈
      kebabCase := by
  have single : [character] ∈ kebabRest := cons_mem_wordsRest part nil_mem_wordsRest
  have hyphened : ['-', character] ∈ kebabRest := separator_mem_wordsRest part nil_mem_wordsRest
  rcases before with rfl | isKebab
  · cases inSep <;> exact singleton_mem_words part
  · split
    · rw [List.append_assoc]
      exact append_mem_words isKebab hyphened
    · exact append_mem_words isKebab single

theorem kebabLoop_mem (text written : List Char) (inSep : Bool)
    (parts : ∀ character ∈ text, (isAsciiDigit character || isAsciiLetter character) = true →
      Validation.isAgentIdPart character = true)
    (before : written = [] ∨ written ∈ kebabCase) :
    kebabLoop text written inSep = [] ∨ kebabLoop text written inSep ∈ kebabCase := by
  induction text generalizing written inSep with
  | nil => exact before
  | cons character rest induction =>
      rcases List.forall_mem_cons.mp parts with ⟨part, later⟩
      rw [kebabLoop]
      split
      · next alphanumeric =>
          apply induction _ _ later
          exact .inr (kebabCase_step inSep (part alphanumeric) before)
      · exact induction written true later before

theorem alphanumeric_of_isAgentIdPart (part : Validation.isAgentIdPart character = true) :
    (isAsciiDigit character || isAsciiLetter character) = true := by
  rw [Validation.isAgentIdPart, Bool.or_eq_true, Bool.and_eq_true, decide_eq_true_eq,
    decide_eq_true_eq] at part
  rw [isAsciiLetter]
  simp only [Bool.or_eq_true, Bool.and_eq_true, decide_eq_true_eq]
  exact part.symm.imp_right .inr

theorem kebabLoop_part (part : Validation.isAgentIdPart character = true) (rest written : List Char)
    (inSep : Bool) :
    kebabLoop (character :: rest) written inSep =
      kebabLoop rest
        ((if inSep && !written.isEmpty then written ++ ['-'] else written) ++ [character]) false := by
  rw [kebabLoop, if_pos (alphanumeric_of_isAgentIdPart part)]

theorem kebabLoop_hyphen (rest written : List Char) (inSep : Bool) :
    kebabLoop ('-' :: rest) written inSep = kebabLoop rest written true := by
  rw [kebabLoop, if_neg (by decide)]

theorem kebabLoop_of_mem (isRest : rest ∈ kebabRest) :
    ∀ written, written ≠ [] → kebabLoop rest written false = written ++ rest := by
  apply wordsRest_induction (motive := fun rest => ∀ written, written ≠ [] →
    kebabLoop rest written false = written ++ rest) _ _ _ rest isRest
  · intro written _
    rw [kebabLoop, List.append_nil]
  · intro first rest part _ induction written _
    have written' := induction (written ++ [first]) (List.append_ne_nil_of_right_ne_nil _
      (List.cons_ne_nil _ _))
    rw [kebabLoop_part part, Bool.false_and, if_neg Bool.false_ne_true, written',
      List.append_assoc]
    rfl
  · intro first rest part _ induction written shown
    have notEmpty : (true && !written.isEmpty) = true := by
      cases written with
      | nil => exact absurd rfl shown
      | cons => rfl
    have written' := induction (written ++ ['-'] ++ [first]) (List.append_ne_nil_of_right_ne_nil _
      (List.cons_ne_nil _ _))
    rw [kebabLoop_hyphen, kebabLoop_part part, if_pos notEmpty, written', List.append_assoc,
      List.append_assoc]
    rfl

theorem toKebabCase_eq_self {id : String} (isKebab : id.toList ∈ kebabCase) :
    toKebabCase id = id := by
  rcases mem_words_iff.mp isKebab with ⟨first, rest, part, isRest, split⟩
  have parts : ∀ character ∈ id.toList,
      Validation.isAgentIdPart character = true ∨ character = '-' := by
    rw [split]
    exact List.forall_mem_cons.mpr ⟨.inl part, parts_of_mem_kebabRest rest isRest⟩
  rw [toKebabCase, lowercase_of_parts parts, split, kebabLoop_part part]
  rw [Bool.false_and, if_neg Bool.false_ne_true, List.nil_append,
    kebabLoop_of_mem isRest [first] (List.cons_ne_nil _ _), List.singleton_append, ← split,
    String.ofList_toList]

theorem toKebabCase_mem (id : String) :
    toKebabCase id = "" ∨ (toKebabCase id).toList ∈ kebabCase := by
  have written := kebabLoop_mem (lowercase id.toList) [] false
    (fun character member alphanumeric => isAgentIdPart_of_mem_lowercase member alphanumeric)
    (.inl rfl)
  rw [toKebabCase, String.toList_ofList]
  rcases written with empty | isKebab
  · rw [empty]
    exact .inl rfl
  · exact .inr isKebab

end OpenCode

/-! ## Files -/

namespace NodeFiles

theorem agentFile_eq (key : String) :
    agentFile lowercase key =
      "archon-".toList ++ (OpenCode.toKebabCase key).toList ++ ".md".toList := by
  have converted : (OpenCode.toKebabCase key).toList =
      OpenCode.kebabLoop (lowercase key.toList) [] false := String.toList_ofList
  delta agentFile
  rw [converted]

end NodeFiles

/-- Validation and the conversion to kebab case agree on one language, so that agents with
different identifiers have different names and different files. -/
theorem agentIds_apart :
    (∀ id : String, Validation.isValidAgentId id = true ↔ id.toList ∈ kebabCase) ∧
    (∀ id : String, id.toList ∈ kebabCase → OpenCode.toKebabCase id = id) ∧
    (∀ id : String, OpenCode.toKebabCase id = "" ∨
      (OpenCode.toKebabCase id).toList ∈ kebabCase) ∧
    ∀ (left right : String) (leftConfig rightConfig : OpenCode.AgentConfig),
      Validation.isValidAgentId left = true → Validation.isValidAgentId right = true →
      ((OpenCode.named left leftConfig).opencodeAgentName =
          (OpenCode.named right rightConfig).opencodeAgentName ∨
        NodeFiles.agentFile lowercase left = NodeFiles.agentFile lowercase right) →
      left = right := by
  refine ⟨Validation.isValidAgentId_iff, fun id => OpenCode.toKebabCase_eq_self,
    OpenCode.toKebabCase_mem, ?_⟩
  intro left right leftConfig rightConfig leftValid rightValid same
  have leftKept := OpenCode.toKebabCase_eq_self ((Validation.isValidAgentId_iff left).mp leftValid)
  have rightKept :=
    OpenCode.toKebabCase_eq_self ((Validation.isValidAgentId_iff right).mp rightValid)
  rcases same with sameName | sameFile
  · rw [OpenCode.named, OpenCode.named, leftKept, rightKept] at sameName
    exact (String.append_right_inj _).mp sameName
  · rw [NodeFiles.agentFile_eq, NodeFiles.agentFile_eq, leftKept, rightKept] at sameFile
    exact String.toList_injective
      (List.append_cancel_left (List.append_cancel_right sameFile))

end HarnessAgent
