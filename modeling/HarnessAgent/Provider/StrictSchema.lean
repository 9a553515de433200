import HarnessAgent.Foundation.JsonTree

/-! # Schemas for strict structured outputs

The schema of an output format is closed before Codex gets it: every object of the
document that looks like the schema of an object is given `additionalProperties: false`.
A check that is made first, for a warning, looks for such objects that state something
else.
-/

namespace HarnessAgent

namespace StrictSchema

def isObjectSchemaNode (node : Members) : Bool :=
  let typeIncludesObject := match node.get "type" with
    | some (.string text) => text == "object"
    | some (.array items) => items.any fun item => item.asStr == some "object"
    | _ => false
  typeIncludesObject || (node.get "properties").isSome

def closeNode (result : Members) : Members :=
  if isObjectSchemaNode result then result.insert "additionalProperties" (.bool false)
  else result

mutual
def normalizeNode : Value → Value
  | .array items => .array (normalizeItems items)
  | .object members => .object (closeNode (Members.concat [] (normalizeMembers members)))
  | .null => .null
  | .bool value => .bool value
  | .number value => .number value
  | .string value => .string value

def normalizeItems : List Value → List Value
  | [] => []
  | item :: rest => normalizeNode item :: normalizeItems rest

def normalizeMembers : List (String × Value) → List (String × Value)
  | [] => []
  | (key, value) :: rest => (key, normalizeNode value) :: normalizeMembers rest
end

def normalizeJsonSchemaForOpenaiStrict (schema : Members) : Members :=
  match normalizeNode (.object schema) with
  | .object members => members
  | _ => schema

def isOpenNode (node : Members) : Bool :=
  isObjectSchemaNode node &&
    match node.get "additionalProperties" with
    | some stated => stated ≠ .bool false
    | none => false

mutual
def hasOpenAdditionalProperties : Value → Bool
  | .array items => hasOpenItem items
  | .object members => isOpenNode members || hasOpenMember members
  | .null => false
  | .bool _ => false
  | .number _ => false
  | .string _ => false

def hasOpenItem : List Value → Bool
  | [] => false
  | item :: rest => hasOpenAdditionalProperties item || hasOpenItem rest

def hasOpenMember : List (String × Value) → Bool
  | [] => false
  | (_, value) :: rest => hasOpenAdditionalProperties value || hasOpenMember rest
end

/-! ## What is written -/

def Closed (value : Value) : Prop :=
  ∀ node : Members, Value.Part (.object node) value → isObjectSchemaNode node = true →
    node.get "additionalProperties" = some (.bool false)

/-- The same document but for the `additionalProperties` of its objects: the other keys of
every object are the same, in the same order, and so is the length of every array. A member
of that name is replaced by `false` or has kept its shape too. -/
inductive SameShape : Value → Value → Prop
  | plain {value : Value} (plain : value.isPlain = true) : SameShape value value
  | array {items others : List Value} (length : others.length = items.length)
      (same : ∀ (index : Nat) first second, items[index]? = some first →
        others[index]? = some second → SameShape first second) :
      SameShape (.array items) (.array others)
  | object {members others : Members}
      (keys : others.keys.filter (· ≠ "additionalProperties") =
        members.keys.filter (· ≠ "additionalProperties"))
      (same : ∀ key first second, members.get key = some first → others.get key = some second →
        ¬(key = "additionalProperties" ∧ second = .bool false) → SameShape first second) :
      SameShape (.object members) (.object others)

variable (items : List Value)

theorem normalizeItems_eq_map : normalizeItems items = items.map normalizeNode := by
  induction items with
  | nil => rfl
  | cons item rest induction => rw [normalizeItems, induction, List.map_cons]

theorem normalizeMembers_eq_map (members : Members) :
    normalizeMembers members = members.map fun member => (member.1, normalizeNode member.2) := by
  induction members with
  | nil => rfl
  | cons member rest induction => rw [normalizeMembers, induction, List.map_cons]

theorem normalizeNode_array : normalizeNode (.array items) = .array (items.map normalizeNode) := by
  rw [normalizeNode, normalizeItems_eq_map]

variable {value : Value}

theorem normalizeNode_of_isPlain (plain : value.isPlain = true) : normalizeNode value = value := by
  cases value with
  | array items => cases plain
  | object members => cases plain
  | null => rfl
  | bool value => rfl
  | number value => rfl
  | string value => rfl

theorem asStr_normalizeNode (value : Value) : (normalizeNode value).asStr = value.asStr := by
  cases value with
  | array items => rfl
  | object members => rfl
  | null => rfl
  | bool value => rfl
  | number value => rfl
  | string value => rfl

abbrev inner (members : Members) : Members :=
  members.map fun member => (member.1, normalizeNode member.2)

theorem isObjectSchemaNode_inner (members : Members) :
    isObjectSchemaNode (inner members) = isObjectSchemaNode members := by
  rw [isObjectSchemaNode, isObjectSchemaNode, inner, Members.get_map, Members.get_map,
    Option.isSome_map]
  congr 1
  cases members.get "type" with
  | none => rfl
  | some value =>
      cases value with
      | array items =>
          rw [Option.map_some, normalizeNode_array]
          dsimp only
          rw [List.any_map]
          congr 1
          funext item
          rw [Function.comp_apply, asStr_normalizeNode]
      | object members => rfl
      | null => rfl
      | bool value => rfl
      | number value => rfl
      | string value => rfl

variable {members : Members}

theorem normalizeNode_object (nodup : members.keys.Nodup) :
    normalizeNode (.object members) = .object (closeNode (inner members)) := by
  rw [normalizeNode, normalizeMembers_eq_map, Members.concat_nil]
  rw [Members.keys_map]
  exact nodup

theorem get_closeNode (members : Members) (key : String) :
    (closeNode (inner members)).get key =
      if key = "additionalProperties" ∧ isObjectSchemaNode members = true then some (.bool false)
      else (members.get key).map normalizeNode := by
  rw [closeNode, isObjectSchemaNode_inner]
  by_cases shaped : isObjectSchemaNode members = true
  · rw [if_pos shaped, Members.get_insert, inner, Members.get_map]
    by_cases same : key = "additionalProperties"
    · rw [if_pos same, if_pos ⟨same, shaped⟩]
    · rw [if_neg same, if_neg fun both => same both.1]
  · rw [if_neg shaped, if_neg fun both => shaped both.2, inner, Members.get_map]

theorem isObjectSchemaNode_closeNode (members : Members) :
    isObjectSchemaNode (closeNode (inner members)) = isObjectSchemaNode members := by
  have apart : ("type" : String) ≠ "additionalProperties" ∧
      ("properties" : String) ≠ "additionalProperties" := by decide
  rw [← isObjectSchemaNode_inner members]
  simp only [isObjectSchemaNode]
  rw [get_closeNode, get_closeNode, if_neg fun both => apart.1 both.1,
    if_neg fun both => apart.2 both.1, inner, Members.get_map, Members.get_map]

theorem nodup_closeNode (nodup : members.keys.Nodup) : (closeNode (inner members)).keys.Nodup := by
  have kept : (inner members).keys.Nodup := by
    rw [inner, Members.keys_map]
    exact nodup
  rw [closeNode]
  split
  · exact Members.nodup_keys_insert kept _ _
  · exact kept

theorem mem_closeNode (nodup : members.keys.Nodup) (listed : member ∈ closeNode (inner members)) :
    member.2 = .bool false ∨ ∃ old ∈ members, member.2 = normalizeNode old.2 := by
  have ofInner : ∀ entry ∈ inner members, ∃ old ∈ members, entry.2 = normalizeNode old.2 := by
    intro entry inside
    rcases List.mem_map.mp inside with ⟨old, known, rfl⟩
    exact ⟨old, known, rfl⟩
  rw [closeNode] at listed
  split at listed
  · have kept : (inner members).keys.Nodup := by
      rw [inner, Members.keys_map]
      exact nodup
    rcases (Members.mem_insert kept).mp listed with rfl | ⟨inside, -⟩
    · exact .inl rfl
    · exact .inr (ofInner member inside)
  · exact .inr (ofInner member listed)

/-! ## Closed documents -/

theorem closed_object_iff :
    Closed (.object members) ↔
      (isObjectSchemaNode members = true →
        members.get "additionalProperties" = some (.bool false)) ∧
        ∀ member ∈ members, Closed member.2 := by
  constructor
  · intro closed
    refine ⟨closed members .self, ?_⟩
    intro member listed node inside
    exact closed node (.member listed inside)
  · intro both node inside
    rcases Value.part_object_iff.mp inside with rfl | ⟨member, listed, inside⟩
    · exact both.1
    · exact both.2 member listed node inside

theorem closed_array_iff {items : List Value} :
    Closed (.array items) ↔ ∀ item ∈ items, Closed item := by
  constructor
  · intro closed item listed node inside
    exact closed node (.item listed inside)
  · intro closed node inside
    rcases Value.part_array_iff.mp inside with ⟨item, listed, inside⟩
    exact closed item listed node inside

theorem closed_of_isPlain (plain : value.isPlain = true) : Closed value :=
  fun _ inside => absurd inside (Value.not_part_of_isPlain plain)

theorem kept_normalizeNode (value : Value) (formed : value.Formed) :
    Closed (normalizeNode value) ∧ (normalizeNode value).Formed := by
  induction value using Value.tree_rule with
  | plain value plain =>
      rw [normalizeNode_of_isPlain plain]
      exact ⟨closed_of_isPlain plain, formed⟩
  | array items induction =>
      rw [normalizeNode_array, closed_array_iff, Value.formed_array_iff, ← forall₂_and]
      intro item listed
      rcases List.mem_map.mp listed with ⟨old, known, rfl⟩
      exact induction old known (Value.formed_array_iff.mp formed old known)
  | object members induction =>
      rcases Value.formed_object_iff.mp formed with ⟨nodup, parts⟩
      rw [normalizeNode_object nodup, closed_object_iff, isObjectSchemaNode_closeNode,
        Value.formed_object_iff, and_and_and_comm, ← forall₂_and]
      refine ⟨⟨?_, nodup_closeNode nodup⟩, ?_⟩
      · intro shaped
        rw [get_closeNode, if_pos ⟨rfl, shaped⟩]
      · intro member listed
        rcases mem_closeNode nodup listed with stated | ⟨old, known, same⟩
        · rw [stated]
          exact ⟨closed_of_isPlain rfl, Value.formed_of_isPlain rfl⟩
        · rw [same]
          exact induction old known (parts old known)

theorem closed_normalizeNode (value : Value) (formed : value.Formed) :
    Closed (normalizeNode value) :=
  (kept_normalizeNode value formed).1

theorem formed_normalizeNode (value : Value) (formed : value.Formed) :
    (normalizeNode value).Formed :=
  (kept_normalizeNode value formed).2

theorem normalizeNode_of_closed (value : Value) (formed : value.Formed) (closed : Closed value) :
    normalizeNode value = value := by
  induction value using Value.tree_rule with
  | plain value plain => exact normalizeNode_of_isPlain plain
  | array items induction =>
      rw [normalizeNode_array]
      have same : items.map normalizeNode = items.map id := by
        apply List.map_congr_left
        intro item listed
        exact induction item listed (Value.formed_array_iff.mp formed item listed)
          (closed_array_iff.mp closed item listed)
      rw [same, List.map_id]
  | object members induction =>
      rcases Value.formed_object_iff.mp formed with ⟨nodup, parts⟩
      rcases closed_object_iff.mp closed with ⟨stated, closedParts⟩
      have same : inner members = members.map id := by
        apply List.map_congr_left
        intro member listed
        rw [induction member listed (parts member listed) (closedParts member listed)]
        rfl
      rw [normalizeNode_object nodup, same, List.map_id, closeNode]
      split
      · next shaped => rw [Members.insert_eq_self (stated shaped)]
      · rfl

theorem normalizeNode_eq_self_iff (formed : value.Formed) :
    normalizeNode value = value ↔ Closed value := by
  constructor
  · intro same
    rw [← same]
    exact closed_normalizeNode value formed
  · exact normalizeNode_of_closed value formed

/-! ## The check -/

theorem hasOpenItem_eq_any : hasOpenItem items = items.any hasOpenAdditionalProperties := by
  induction items with
  | nil => rfl
  | cons item rest induction => rw [hasOpenItem, induction, List.any_cons]

theorem hasOpenMember_eq_any (members : Members) :
    hasOpenMember members = members.any fun member => hasOpenAdditionalProperties member.2 := by
  induction members with
  | nil => rfl
  | cons member rest induction => rw [hasOpenMember, induction, List.any_cons]

theorem hasOpenAdditionalProperties_of_closed (value : Value) (closed : Closed value) :
    hasOpenAdditionalProperties value = false := by
  induction value using Value.tree_rule with
  | plain value plain =>
      cases value with
      | array items => cases plain
      | object members => cases plain
      | null => rfl
      | bool value => rfl
      | number value => rfl
      | string value => rfl
  | array items induction =>
      rw [hasOpenAdditionalProperties, hasOpenItem_eq_any, List.any_eq_false]
      intro item listed
      rw [induction item listed (closed_array_iff.mp closed item listed)]
      exact Bool.false_ne_true
  | object members induction =>
      rcases closed_object_iff.mp closed with ⟨stated, closedParts⟩
      rw [hasOpenAdditionalProperties, Bool.or_eq_false_iff]
      constructor
      · rw [isOpenNode]
        cases shaped : isObjectSchemaNode members with
        | false => rfl
        | true =>
            rw [stated shaped]
            rfl
      · rw [hasOpenMember_eq_any, List.any_eq_false]
        intro member listed
        rw [induction member listed (closedParts member listed)]
        exact Bool.false_ne_true

/-! ## Shapes -/

theorem keys_closeNode (members : Members) :
    (closeNode (inner members)).keys.filter (· ≠ "additionalProperties") =
      members.keys.filter (· ≠ "additionalProperties") := by
  have kept : (inner members).keys = members.keys := Members.keys_map normalizeNode members
  rw [closeNode]
  split
  · rw [Members.keys_insert, kept]
    split
    · rfl
    · rw [List.filter_append]
      exact List.append_nil _
  · rw [kept]

theorem sameShape_normalizeNode (value : Value) (formed : value.Formed) :
    SameShape value (normalizeNode value) := by
  induction value using Value.tree_rule with
  | plain value plain =>
      rw [normalizeNode_of_isPlain plain]
      exact .plain plain
  | array items induction =>
      rw [normalizeNode_array]
      apply SameShape.array (List.length_map normalizeNode)
      intro index first second found changed
      rw [List.getElem?_map, found] at changed
      cases changed
      have listed := List.mem_of_getElem? found
      exact induction first listed (Value.formed_array_iff.mp formed first listed)
  | object members induction =>
      rcases Value.formed_object_iff.mp formed with ⟨nodup, parts⟩
      rw [normalizeNode_object nodup]
      apply SameShape.object (keys_closeNode members)
      intro key first second found changed other
      rw [get_closeNode, found] at changed
      split at changed
      · next both =>
          cases changed
          exact absurd ⟨both.1, rfl⟩ other
      · cases changed
        have listed := Members.mem_of_get found
        exact induction _ listed (parts _ listed)

/-- Normalizing twice is normalizing once, and what comes out is closed for the check and
for every object in it, and is the same document otherwise. -/
theorem normalizeNode_closes (value : Value) (formed : value.Formed) :
    normalizeNode (normalizeNode value) = normalizeNode value ∧
      hasOpenAdditionalProperties (normalizeNode value) = false ∧
      Closed (normalizeNode value) ∧ SameShape value (normalizeNode value) := by
  have closed := closed_normalizeNode value formed
  exact ⟨normalizeNode_of_closed _ (formed_normalizeNode value formed) closed,
    hasOpenAdditionalProperties_of_closed _ closed, closed, sameShape_normalizeNode value formed⟩

def findingsSchema : Value :=
  .object [("type", .string "array"), ("items", .object [
    ("properties", .object [("note", .object [("type", .array [.string "object", .string "null"]),
      ("additionalProperties", .bool true)])])])]

theorem findingsSchema_closes :
    normalizeNode (normalizeNode findingsSchema) = normalizeNode findingsSchema ∧
      hasOpenAdditionalProperties (normalizeNode findingsSchema) = false ∧
      Closed (normalizeNode findingsSchema) ∧
      SameShape findingsSchema (normalizeNode findingsSchema) :=
  normalizeNode_closes findingsSchema (by decide)

/-! ## Positions -/

/-- What stands under a keyword of a schema: a schema or a list of schemas, schemas by
name, or data. -/
inductive Position
  | schema
  | named
  | data
  deriving DecidableEq

structure Vocabulary where
  position : String → Position
  named : ∀ keyword ∈ ["properties", "$defs", "definitions"], position keyword = .named
  data : ∀ keyword ∈ ["enum", "const", "default", "examples"], position keyword = .data
  additional : position "additionalProperties" = .schema

def jsonSchemaPosition (keyword : String) : Position :=
  if ["properties", "$defs", "definitions", "patternProperties", "dependentSchemas",
      "dependencies"].contains keyword then .named
  else if ["items", "additionalItems", "prefixItems", "contains", "additionalProperties",
      "propertyNames", "unevaluatedItems", "unevaluatedProperties", "if", "then", "else", "not",
      "allOf", "anyOf", "oneOf", "contentSchema"].contains keyword then .schema
  else .data

def jsonSchema : Vocabulary where
  position := jsonSchemaPosition
  named := by decide
  data := by decide
  additional := by decide

variable (vocabulary : Vocabulary)

inductive OnlySchemas : Value → Value → Prop
  | plain {value : Value} (plain : value.isPlain = true) : OnlySchemas value value
  | list {items others : List Value} (length : others.length = items.length)
      (each : ∀ (index : Nat) first second, items[index]? = some first →
        others[index]? = some second → OnlySchemas first second) :
      OnlySchemas (.array items) (.array others)
  | schema {members others : Members}
      (keywords : ∀ keyword, keyword ≠ "additionalProperties" →
        (others.get keyword = none ↔ members.get keyword = none))
      (additional : others.get "additionalProperties" = some (.bool false) ∨
        (others.get "additionalProperties" = none ↔ members.get "additionalProperties" = none))
      (data : ∀ keyword value, vocabulary.position keyword = .data →
        members.get keyword = some value → others.get keyword = some value)
      (names : ∀ keyword (schemas : Members), vocabulary.position keyword = .named →
        members.get keyword = some (.object schemas) → ∃ after : Members,
          others.get keyword = some (.object after) ∧
            ∀ name, after.get name = none ↔ schemas.get name = none)
      (named : ∀ keyword (schemas after : Members) name first second,
        vocabulary.position keyword = .named →
        members.get keyword = some (.object schemas) → others.get keyword = some (.object after) →
        schemas.get name = some first → after.get name = some second → OnlySchemas first second)
      (unnamed : ∀ keyword value, vocabulary.position keyword = .named →
        (∀ schemas, value ≠ .object schemas) → members.get keyword = some value →
        others.get keyword = some value)
      (parts : ∀ keyword first second, vocabulary.position keyword = .schema →
        members.get keyword = some first → others.get keyword = some second →
        ¬(keyword = "additionalProperties" ∧ second = .bool false) → OnlySchemas first second) :
      OnlySchemas (.object members) (.object others)

inductive Unmistakable : Value → Prop
  | plain {value : Value} (plain : value.isPlain = true) : Unmistakable value
  | list {items : List Value} (each : ∀ item ∈ items, Unmistakable item) :
      Unmistakable (.array items)
  | schema {members : Members}
      (data : ∀ keyword value, vocabulary.position keyword = .data →
        members.get keyword = some value → Closed value)
      (names : ∀ keyword (schemas : Members), vocabulary.position keyword = .named →
        members.get keyword = some (.object schemas) → isObjectSchemaNode schemas = true →
        schemas.get "additionalProperties" = some (.bool false))
      (named : ∀ keyword (schemas : Members) name schema, vocabulary.position keyword = .named →
        members.get keyword = some (.object schemas) → schemas.get name = some schema →
        Unmistakable schema)
      (unnamed : ∀ keyword value, vocabulary.position keyword = .named →
        (∀ schemas, value ≠ .object schemas) → members.get keyword = some value → Closed value)
      (parts : ∀ keyword part, vocabulary.position keyword = .schema →
        members.get keyword = some part →
        ¬(keyword = "additionalProperties" ∧ isObjectSchemaNode members = true) →
        Unmistakable part) :
      Unmistakable (.object members)

variable {vocabulary}

theorem Vocabulary.ne_additional (other : vocabulary.position keyword ≠ .schema) :
    keyword ≠ "additionalProperties" := by
  intro same
  exact other (same ▸ vocabulary.additional)

theorem get_closeNode_of_ne (members : Members) (other : key ≠ "additionalProperties") :
    (closeNode (inner members)).get key = (members.get key).map normalizeNode := by
  rw [get_closeNode, if_neg fun both => other both.1]

theorem normalizeNode_object_of_get (parts : ∀ member ∈ members, member.2.Formed)
    (found : members.get key = some (.object schemas)) :
    normalizeNode (.object schemas) = .object (closeNode (inner schemas)) :=
  normalizeNode_object
    (Value.formed_object_iff.mp (parts (key, .object schemas) (Members.mem_of_get found))).1

theorem get_named (clear : isObjectSchemaNode schemas = true →
      schemas.get "additionalProperties" = some (.bool false)) (name : String) :
    (closeNode (inner schemas)).get name = (schemas.get name).map normalizeNode := by
  rw [get_closeNode]
  split
  · next both =>
      rw [both.1, clear both.2]
      rfl
  · rfl

theorem get_closeNode_of_position {position : Position}
    (formed : ∀ member ∈ members, member.2.Formed) (isAt : vocabulary.position keyword = position)
    (other : position ≠ .schema) (found : members.get keyword = some value) :
    (closeNode (inner members)).get keyword = some value ↔ Closed value := by
  rw [get_closeNode_of_ne members (Vocabulary.ne_additional (isAt.trans_ne other)), found,
    Option.map_some, Option.some.injEq]
  exact normalizeNode_eq_self_iff (formed _ (Members.mem_of_get found))

theorem get_closeNode_schemas (formed : ∀ member ∈ members, member.2.Formed)
    (isNamed : vocabulary.position keyword = .named)
    (found : members.get keyword = some (.object schemas)) :
    (closeNode (inner members)).get keyword = some (.object (closeNode (inner schemas))) := by
  rw [get_closeNode_of_ne members (Vocabulary.ne_additional (isNamed.trans_ne nofun)), found,
    Option.map_some, normalizeNode_object_of_get formed found]

theorem formed_of_get {keyword : String} {schemas : Members} {name : String} {schema : Value}
    (formed : ∀ member ∈ members, member.2.Formed)
    (found : members.get keyword = some (.object schemas)) (entry : schemas.get name = some schema) :
    schema.Formed :=
  (Value.formed_object_iff.mp (formed _ (Members.mem_of_get found))).2 _ (Members.mem_of_get entry)

theorem onlySchemas_of_unmistakable (clear : Unmistakable vocabulary value)
    (formed : value.Formed) : OnlySchemas vocabulary value (normalizeNode value) := by
  induction clear with
  | plain plain =>
      rw [normalizeNode_of_isPlain plain]
      exact .plain plain
  | @list items each induction =>
      rw [normalizeNode_array]
      apply OnlySchemas.list (List.length_map normalizeNode)
      intro index first second found changed
      rw [List.getElem?_map, found] at changed
      cases changed
      have listed := List.mem_of_getElem? found
      exact induction first listed (Value.formed_array_iff.mp formed first listed)
  | @schema members data names named unnamed parts namedInduction partsInduction =>
      rcases Value.formed_object_iff.mp formed with ⟨nodup, formedParts⟩
      rw [normalizeNode_object nodup]
      apply OnlySchemas.schema
      case keywords =>
        intro keyword other
        rw [get_closeNode_of_ne members other, Option.map_eq_none_iff]
      case additional =>
        rw [get_closeNode]
        split
        · exact .inl rfl
        · exact .inr Option.map_eq_none_iff
      case data =>
        intro keyword value isData found
        exact (get_closeNode_of_position formedParts isData nofun found).mpr
          (data keyword value isData found)
      case names =>
        intro keyword schemas isNamed found
        refine ⟨closeNode (inner schemas), get_closeNode_schemas formedParts isNamed found, ?_⟩
        intro name
        rw [get_named (names keyword schemas isNamed found), Option.map_eq_none_iff]
      case named =>
        intro keyword schemas after name first second isNamed found changed foundFirst foundSecond
        rw [get_closeNode_schemas formedParts isNamed found] at changed
        cases changed
        rw [get_named (names keyword schemas isNamed found), foundFirst] at foundSecond
        cases foundSecond
        exact namedInduction keyword schemas name first isNamed found foundFirst
          (formed_of_get formedParts found foundFirst)
      case unnamed =>
        intro keyword value isNamed other found
        exact (get_closeNode_of_position formedParts isNamed nofun found).mpr
          (unnamed keyword value isNamed other found)
      case parts =>
        intro keyword first second isSchema found changed other
        rw [get_closeNode, found] at changed
        split at changed
        · next both =>
            cases changed
            exact absurd ⟨both.1, rfl⟩ other
        · next isOpen =>
            cases changed
            exact partsInduction keyword first isSchema found isOpen
              (formedParts _ (Members.mem_of_get found))

theorem eq_of_onlySchemas_bool (only : OnlySchemas vocabulary value (.bool stated)) :
    value = .bool stated := by
  cases only with
  | plain => rfl

theorem eq_of_normalizeNode_bool (same : normalizeNode value = .bool stated) :
    value = .bool stated := by
  cases value with
  | bool value => exact same
  | array items => cases same
  | object members => cases same
  | null => cases same
  | number value => cases same
  | string value => cases same

theorem clear_of_onlySchemas (shaped : isObjectSchemaNode schemas = true)
    (same : after = closeNode (inner schemas))
    (names : ∀ name, after.get name = none ↔ schemas.get name = none)
    (named : ∀ name first second, schemas.get name = some first → after.get name = some second →
      OnlySchemas vocabulary first second) :
    schemas.get "additionalProperties" = some (.bool false) := by
  have stated : after.get "additionalProperties" = some (.bool false) := by
    rw [same, get_closeNode, if_pos ⟨rfl, shaped⟩]
  cases old : schemas.get "additionalProperties" with
  | none =>
      rw [(names "additionalProperties").mpr old] at stated
      cases stated
  | some value => rw [eq_of_onlySchemas_bool (named "additionalProperties" value _ old stated)]

theorem unmistakable_of_onlySchemas (only : OnlySchemas vocabulary value normalized)
    (formed : value.Formed) (same : normalized = normalizeNode value) :
    Unmistakable vocabulary value := by
  induction only with
  | plain plain => exact .plain plain
  | @list items others length each induction =>
      rw [normalizeNode_array] at same
      cases same
      apply Unmistakable.list
      intro item listed
      rcases List.getElem?_of_mem listed with ⟨index, found⟩
      have changed : (items.map normalizeNode)[index]? = some (normalizeNode item) := by
        rw [List.getElem?_map, found, Option.map_some]
      exact induction index item _ found changed (Value.formed_array_iff.mp formed item listed) rfl
  | @schema members others keywords additional data names named unnamed parts namedInduction
      partsInduction =>
      rcases Value.formed_object_iff.mp formed with ⟨nodup, formedParts⟩
      rw [normalizeNode_object nodup] at same
      cases same
      have clear {keyword : String} {schemas : Members}
          (isNamed : vocabulary.position keyword = .named)
          (found : members.get keyword = some (.object schemas))
          (shaped : isObjectSchemaNode schemas = true) :
          schemas.get "additionalProperties" = some (.bool false) := by
        rcases names keyword schemas isNamed found with ⟨after, foundAfter, sameNames⟩
        apply clear_of_onlySchemas shaped ?_ sameNames
        · exact fun name first second =>
            named keyword schemas after name first second isNamed found foundAfter
        · cases foundAfter.symm.trans (get_closeNode_schemas formedParts isNamed found)
          rfl
      apply Unmistakable.schema
      case data =>
        intro keyword value isData found
        exact (get_closeNode_of_position formedParts isData nofun found).mp
          (data keyword value isData found)
      case names =>
        intro keyword schemas isNamed found shaped
        exact clear isNamed found shaped
      case named =>
        intro keyword schemas name schema isNamed found foundSchema
        have foundAfter : (closeNode (inner schemas)).get name = some (normalizeNode schema) := by
          rw [get_named (clear isNamed found), foundSchema, Option.map_some]
        exact namedInduction keyword schemas _ name schema _ isNamed found
          (get_closeNode_schemas formedParts isNamed found) foundSchema foundAfter
          (formed_of_get formedParts found foundSchema) rfl
      case unnamed =>
        intro keyword value isNamed other found
        exact (get_closeNode_of_position formedParts isNamed nofun found).mp
          (unnamed keyword value isNamed other found)
      case parts =>
        intro keyword part isSchema found isOpen
        have foundAfter : (closeNode (inner members)).get keyword = some (normalizeNode part) := by
          rw [get_closeNode, if_neg isOpen, found, Option.map_some]
        by_cases stated : keyword = "additionalProperties" ∧ normalizeNode part = .bool false
        · rw [eq_of_normalizeNode_bool stated.2]
          exact .plain rfl
        · exact partsInduction keyword part _ isSchema found foundAfter stated
            (formedParts _ (Members.mem_of_get found)) rfl

/-- Exactly the schemas without such an object are changed in places of schemas only. -/
theorem onlySchemas_iff (vocabulary : Vocabulary) (schema : Members)
    (formed : (Value.object schema).Formed) :
    OnlySchemas vocabulary (.object schema)
        (.object (normalizeJsonSchemaForOpenaiStrict schema)) ↔
      Unmistakable vocabulary (.object schema) := by
  have nodup := (Value.formed_object_iff.mp formed).1
  have normalized : Value.object (normalizeJsonSchemaForOpenaiStrict schema) =
      normalizeNode (.object schema) := by
    rw [normalizeJsonSchemaForOpenaiStrict, normalizeNode_object nodup]
  rw [normalized]
  constructor
  · intro only
    exact unmistakable_of_onlySchemas only formed rfl
  · intro clear
    exact onlySchemas_of_unmistakable clear formed

def describedSchema : Members :=
  [("type", .string "object"),
    ("properties", .object [("properties", .object [("type", .string "string")]),
      ("kind", .object [("enum", .array [.object [("type", .string "object")]])])])]

theorem describedSchema_onlySchemas_iff :
    OnlySchemas jsonSchema (.object describedSchema)
        (.object (normalizeJsonSchemaForOpenaiStrict describedSchema)) ↔
      Unmistakable jsonSchema (.object describedSchema) :=
  onlySchemas_iff jsonSchema describedSchema (by decide)

/-- The described schema gets a property more, and another value of an enumeration. -/
theorem describedSchema_changed :
    ¬OnlySchemas jsonSchema (.object describedSchema)
      (.object (normalizeJsonSchemaForOpenaiStrict describedSchema)) := by
  intro only
  have clear := unmistakable_of_onlySchemas only (by decide) (by decide)
  cases clear with
  | plain plain => cases plain
  | schema data names named unnamed parts =>
      have closed := names "properties" _ (by decide) rfl (by decide)
      exact absurd closed (by decide)

end StrictSchema

end HarnessAgent
