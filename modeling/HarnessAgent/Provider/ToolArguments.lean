import HarnessAgent.Foundation.JsonSchema
import HarnessAgent.Provider.McpConfig

/-! # Arguments of native tools

A native tool states what it takes in a JSON schema. It is converted to a list of fields,
from which the schema that is advertised is made and against which arguments are checked.
-/

namespace HarnessAgent

open Results

inductive ToolFieldKind
  | string
  | stringEnum (values : List String)
  | boolean
  deriving DecidableEq, Repr

structure ToolField where
  name : String
  kind : ToolFieldKind
  description : Option String := none
  required : Bool
  deriving DecidableEq, Repr

namespace ToolArguments

/-! ## The fields of a tool -/

def unsupportedType (key : String) : String :=
  "native tool schema: unsupported type for '" ++ key ++ "' (only string / string-enum / boolean)"

def notAnObjectSchema : String :=
  "native tool inputSchema must be an object schema with `properties`"

def convertKind (key : String) (property : Members) : Except String ToolFieldKind :=
  match property.get "enum" with
  | some (.array enumVals) =>
      let values := enumVals.filterMap Value.asStr
      if values.isEmpty then
        .error ("native tool schema: enum for '" ++ key ++ "' must be non-empty strings")
      else .ok (.stringEnum values)
  | _ =>
      if property.getStr "type" = some "string" then .ok .string
      else if property.getStr "type" = some "boolean" then .ok .boolean
      else .error (unsupportedType key)

def convertProperties (required : List String) : Members → Except String (List ToolField)
  | [] => .ok []
  | (key, .object property) :: rest => do
      let kind ← convertKind key property
      let fields ← convertProperties required rest
      return { name := key, kind, description := Members.getStr property "description",
               required := decide (key ∈ required) } :: fields
  | (key, _) :: _ => .error (unsupportedType key)

def validateAndConvertSchema (schema : Members) : Except String (List ToolField) :=
  if schema.getStr "type" = some "object" then
    match schema.get "properties" with
    | some (.object properties) =>
        let required := (((schema.get "required").bind Value.asArray).getD []).filterMap Value.asStr
        convertProperties required properties
    | _ => .error notAnObjectSchema
  else .error notAnObjectSchema

/-! ## The advertised schema -/

def typeNameForField (field : ToolField) : String :=
  match field.kind with
  | .stringEnum _ | .string => "string"
  | .boolean => "boolean"

def enumKeyword (field : ToolField) : Members :=
  match field.kind with
  | .stringEnum values => [("enum", .array (values.map .string))]
  | _ => []

def descriptionKeyword (field : ToolField) : Members :=
  match field.required, field.description with
  | true, some description => [("description", .string description)]
  | _, _ => []

def wireProperty (field : ToolField) : Members :=
  descriptionKeyword field ++ [("type", .string (typeNameForField field))] ++ enumKeyword field

def wireProperties (fields : List ToolField) : Members :=
  Members.concat [] (fields.map fun field => (field.name, .object (wireProperty field)))

def wireRequired (fields : List ToolField) : List Value :=
  (fields.filter fun field => field.required).map fun field => .string field.name

def wireInputSchema (fields : List ToolField) : Value :=
  .object ([("$schema", .string "http://json-schema.org/draft-07/schema#"),
      ("type", .string "object")] ++ [("properties", .object (wireProperties fields))] ++
    if (wireRequired fields).isEmpty then [] else [("required", .array (wireRequired fields))])

/-! ## Checks of arguments -/

def invalidType (field : ToolField) (expected message : String) : Value :=
  .object [("expected", .string expected), ("code", .string "invalid_type"),
    ("path", .array [.string field.name]), ("message", .string message)]

def quoted (text : String) : String :=
  "\"" ++ text ++ "\""

def invalidValue (field : ToolField) (values : List String) : Value :=
  .object [("code", .string "invalid_value"), ("values", .array (values.map .string)),
    ("path", .array [.string field.name]),
    ("message", .string ("Invalid option: expected one of " ++
      "|".intercalate (values.map quoted)))]

def valueIssue (field : ToolField) (value : Value) : Option Value :=
  match field.kind with
  | .stringEnum values =>
      match value.asStr with
      | none => some (invalidType field "string" "Invalid input: expected string")
      | some text => if text ∈ values then none else some (invalidValue field values)
  | .string =>
      if value.asStr.isSome then none
      else some (invalidType field "string" "Invalid input: expected string")
  | .boolean =>
      if value.asBool.isSome then none
      else some (invalidType field "boolean" "Invalid input: expected boolean")

def fieldIssue (args : Members) (field : ToolField) : Option Value :=
  match args.get field.name with
  | none =>
      if field.required then
        some (invalidType field (typeNameForField field)
          ("Invalid input: expected " ++ typeNameForField field ++ ", received undefined"))
      else none
  | some value => valueIssue field value

def validationError (toStringPretty : List Value → String) (toolName : String)
    (issues : List Value) : String :=
  "MCP error -32602: Input validation error: Invalid arguments for tool " ++ toolName ++ ": " ++
    toStringPretty issues

/-- The check of the arguments of a call, with the rendering of a list of issues. -/
def validateToolArgs (toStringPretty : List Value → String) (fields : List ToolField)
    (args : Members) (toolName : String) : Except String Unit :=
  let issues := fields.filterMap (fieldIssue args)
  if issues.isEmpty then .ok () else .error (validationError toStringPretty toolName issues)

/-! ## What a field asks for -/

def KindHolds (kind : ToolFieldKind) (value : Value) : Prop :=
  match kind with
  | .stringEnum values => value ∈ values.map Value.string
  | .string => value.asStr.isSome
  | .boolean => value.asBool.isSome

def FieldHolds (args : Members) (field : ToolField) : Prop :=
  match args.get field.name with
  | none => field.required = false
  | some value => KindHolds field.kind value

instance (kind : ToolFieldKind) (value : Value) : Decidable (KindHolds kind value) :=
  match kind with
  | .stringEnum values => inferInstanceAs (Decidable (value ∈ values.map Value.string))
  | .string => inferInstanceAs (Decidable (value.asStr.isSome = true))
  | .boolean => inferInstanceAs (Decidable (value.asBool.isSome = true))

instance (args : Members) (field : ToolField) : Decidable (FieldHolds args field) :=
  match found : args.get field.name with
  | none => decidable_of_iff (field.required = false) (by rw [FieldHolds, found])
  | some value => decidable_of_iff (KindHolds field.kind value) (by rw [FieldHolds, found])

variable {field : ToolField}

theorem valueIssue_eq_none_iff {value : Value} :
    valueIssue field value = none ↔ KindHolds field.kind value := by
  unfold valueIssue KindHolds
  cases field.kind with
  | stringEnum values =>
      cases value with
      | string text =>
          dsimp only [Value.asStr]
          rw [ite_eq_left_iff, List.mem_map]
          constructor
          · intro known
            by_contra missing
            exact absurd (known fun member => missing ⟨text, member, rfl⟩) (by simp)
          · intro known
            rcases known with ⟨other, member, same⟩
            cases same
            exact fun missing => absurd member missing
      | _ => simp [Value.asStr]
  | string => cases value <;> simp [Value.asStr]
  | boolean => cases value <;> simp [Value.asBool]

variable {args : Members}

theorem fieldIssue_eq_none_iff : fieldIssue args field = none ↔ FieldHolds args field := by
  unfold fieldIssue FieldHolds
  cases args.get field.name with
  | none =>
      cases field.required with
      | true => exact iff_of_false nofun nofun
      | false => exact iff_of_true rfl rfl
  | some value => exact valueIssue_eq_none_iff

def pathOf (issue : Value) : Option Value :=
  issue.get "path"

theorem pathOf_valueIssue (found : valueIssue field value = some issue) :
    pathOf issue = some (.array [.string field.name]) := by
  unfold valueIssue at found
  split at found
  · split at found
    · cases found
      rfl
    · split_ifs at found
      cases found
      rfl
  · split_ifs at found
    cases found
    rfl
  · split_ifs at found
    cases found
    rfl

theorem pathOf_fieldIssue (found : fieldIssue args field = some issue) :
    pathOf issue = some (.array [.string field.name]) := by
  unfold fieldIssue at found
  split at found
  · split_ifs at found
    cases found
    rfl
  · exact pathOf_valueIssue found

theorem paths_issues (args : Members) (fields : List ToolField) :
    (fields.filterMap (fieldIssue args)).map pathOf =
      (fields.filter fun field => ¬FieldHolds args field).map fun field =>
        some (.array [.string field.name]) := by
  induction fields with
  | nil => rfl
  | cons field rest induction =>
      rw [List.filterMap_cons, List.filter_cons]
      cases found : fieldIssue args field with
      | none =>
          have holds := fieldIssue_eq_none_iff.mp found
          rw [if_neg (by simpa using holds)]
          exact induction
      | some issue =>
          have fails : ¬FieldHolds args field := by
            intro holds
            rw [fieldIssue_eq_none_iff.mpr holds] at found
            cases found
          rw [if_pos (by simpa using fails), List.map_cons, List.map_cons, induction,
            pathOf_fieldIssue found]

/-! ## What the advertised schema asks for -/

section Wire

open JsonSchema

theorem accepts_wireProperty_iff {value : Value} :
    Accepts (.object (wireProperty field)) value ↔ KindHolds field.kind value := by
  have descriptions : AcceptsAll (descriptionKeyword field) value := by
    unfold descriptionKeyword
    split
    · exact (acceptsAll_singleton (by decide)).mpr trivial
    · rw [AcceptsAll]
      trivial
  rw [accepts_object_iff, wireProperty, acceptsAll_append, acceptsAll_append,
    acceptsAll_singleton (by decide), typeNameForField, enumKeyword]
  unfold KindHolds
  cases field.kind with
  | stringEnum values =>
      rw [acceptsAll_singleton (by decide)]
      constructor
      · intro accepted
        exact accepted.2
      · intro member
        refine ⟨⟨descriptions, ?_⟩, member⟩
        rcases List.mem_map.mp member with ⟨text, -, rfl⟩
        rfl
  | string =>
      rw [AcceptsAll, and_true, and_iff_right descriptions]
      cases value <;> simp [AcceptsKeyword, typeName, Value.asStr]
  | boolean =>
      rw [AcceptsAll, and_true, and_iff_right descriptions]
      cases value <;> simp [AcceptsKeyword, typeName, Value.asBool]

variable {fields : List ToolField}

theorem wireProperties_eq_map (nodup : (fields.map ToolField.name).Nodup) :
    wireProperties fields = fields.map fun field => (field.name, .object (wireProperty field)) := by
  apply Members.concat_nil
  rw [Members.keys, List.map_map]
  exact nodup

theorem acceptsAll_required_iff :
    AcceptsAll (if (wireRequired fields).isEmpty then []
      else [("required", .array (wireRequired fields))]) (.object args) ↔
      ∀ field ∈ fields, field.required = true → field.name ∈ args.keys := by
  have listed : ∀ name, .string name ∈ wireRequired fields ↔
      ∃ field ∈ fields, field.required = true ∧ field.name = name := by
    intro name
    unfold wireRequired
    simp [and_assoc]
  have asked : (∀ name, .string name ∈ wireRequired fields → name ∈ args.keys) ↔
      ∀ field ∈ fields, field.required = true → field.name ∈ args.keys := by
    constructor
    · intro known field member required
      exact known field.name ((listed field.name).mpr ⟨field, member, required, rfl⟩)
    · intro known name member
      rcases (listed name).mp member with ⟨field, own, required, rfl⟩
      exact known field own required
  rw [← asked]
  by_cases empty : (wireRequired fields).isEmpty = true
  · rw [if_pos empty, AcceptsAll, List.isEmpty_iff.mp empty]
    exact iff_of_true trivial fun name member => absurd member List.not_mem_nil
  · rw [if_neg empty, acceptsAll_singleton (by decide)]
    constructor
    · intro accepted
      exact accepted args rfl
    · intro known members same
      cases same
      exact known

theorem accepts_wireInputSchema_iff (nodup : (fields.map ToolField.name).Nodup) :
    Accepts (wireInputSchema fields) (.object args) ↔ ∀ field ∈ fields, FieldHolds args field := by
  have header : AcceptsAll [("$schema", .string "http://json-schema.org/draft-07/schema#"),
      ("type", .string "object")] (.object args) := by
    rw [AcceptsAll, if_neg (by decide), acceptsAll_singleton (by decide)]
    exact ⟨trivial, rfl⟩
  rw [wireInputSchema, accepts_object_iff, acceptsAll_append, acceptsAll_append,
    and_iff_right header, acceptsAll_properties, acceptsMembers_iff, acceptsAll_required_iff,
    wireProperties_eq_map nodup, List.forall_mem_map, ← forall₂_and]
  apply forall₂_congr
  intro field _
  rw [Members.mem_keys_iff, FieldHolds]
  cases args.get field.name with
  | none => simp
  | some value => simp [accepts_wireProperty_iff]

end Wire

/-! ## Converted fields -/

theorem names_convertProperties (converted : convertProperties required properties = .ok fields) :
    fields.map ToolField.name = properties.keys := by
  induction properties generalizing fields with
  | nil =>
      cases converted
      rfl
  | cons property rest induction =>
      rcases property with ⟨key, property⟩
      cases property with
      | object keywords =>
          rw [convertProperties] at converted
          rcases bind_eq_ok.mp converted with ⟨kind, -, more⟩
          rcases bind_eq_ok.mp more with ⟨later, convertedRest, last⟩
          cases last
          rw [List.map_cons, induction convertedRest, Members.keys_cons]
      | _ => cases converted

theorem nodup_of_validateAndConvertSchema (formed : (Value.object schema).Formed)
    (converted : validateAndConvertSchema schema = .ok fields) :
    (fields.map ToolField.name).Nodup := by
  unfold validateAndConvertSchema at converted
  split_ifs at converted
  split at converted
  · next properties found =>
      have member := Members.mem_of_get found
      have inner := (Value.formed_object_iff.mp formed).2 _ member
      rw [names_convertProperties converted]
      exact (Value.formed_object_iff.mp inner).1
  · cases converted

open JsonSchema

/-- Arguments pass exactly if every field holds, and otherwise there is an issue for each
field that does not, in their order. With one field for each name, as converted tools have
them, the fields ask for what the advertised schema asks for. -/
theorem validateToolArgs_correct (toStringPretty : List Value → String)
    (fields : List ToolField) (args : Members) (toolName : String) :
    (validateToolArgs toStringPretty fields args toolName = .ok () ↔
      ∀ field ∈ fields, FieldHolds args field) ∧
    ((¬∀ field ∈ fields, FieldHolds args field) →
      ∃ issues, validateToolArgs toStringPretty fields args toolName =
          .error (validationError toStringPretty toolName issues) ∧
        issues.map pathOf = (fields.filter fun field => ¬FieldHolds args field).map fun field =>
          some (.array [.string field.name])) ∧
    ((fields.map ToolField.name).Nodup →
      ((∀ field ∈ fields, FieldHolds args field) ↔
        Accepts (wireInputSchema fields) (.object args))) ∧
    ∀ schema : Members, (Value.object schema).Formed →
      validateAndConvertSchema schema = .ok fields → (fields.map ToolField.name).Nodup := by
  have silent : (fields.filterMap (fieldIssue args)).isEmpty = true ↔
      ∀ field ∈ fields, FieldHolds args field := by
    rw [List.isEmpty_iff, List.filterMap_eq_nil_iff]
    apply forall₂_congr
    intro field _
    exact fieldIssue_eq_none_iff
  refine ⟨?_, ?_, fun nodup => (accepts_wireInputSchema_iff nodup).symm,
    fun schema formed converted => nodup_of_validateAndConvertSchema formed converted⟩
  · rw [← silent, validateToolArgs]
    split_ifs with quiet
    · exact iff_of_true rfl quiet
    · exact iff_of_false nofun quiet
  · intro failing
    rw [← silent] at failing
    exact ⟨_, if_neg failing, paths_issues args fields⟩

def sharedName : List ToolField :=
  [{ name := "dry", kind := .string, required := false },
    { name := "dry", kind := .boolean, required := false }]

theorem sharedName_disagrees :
    Accepts (wireInputSchema sharedName) (.object [("dry", .bool true)]) ∧
      ∀ toStringPretty : List Value → String,
        validateToolArgs toStringPretty sharedName [("dry", .bool true)] "tool" ≠ .ok () := by
  refine ⟨?_, ?_⟩
  · simp [wireInputSchema, wireProperties, wireRequired, sharedName, Members.concat,
      Members.insert, wireProperty, descriptionKeyword, enumKeyword, typeNameForField, Accepts,
      AcceptsAll, AcceptsProperties, AcceptsMembers, AcceptsKeyword, typeName, Members.get_cons]
  · intro toStringPretty passed
    cases passed

def manageRun : Members :=
  [("type", .string "object"),
    ("properties", .object [
      ("action", .object [("type", .string "string"),
        ("enum", .array [.string "list", .string "resume"])]),
      ("force", .object [("type", .string "boolean")])]),
    ("required", .array [.string "action"])]

theorem validateToolArgs_manageRun : ∃ fields, validateAndConvertSchema manageRun = .ok fields ∧
    Accepts (wireInputSchema fields) (.object [("action", .string "list"), ("other", .null)]) ∧
      ∃ issues, validateToolArgs (fun _ => "") fields [("force", .null)] "manage_run" =
          .error (validationError (fun _ => "") "manage_run" issues) ∧
        issues.map pathOf =
          [some (.array [.string "action"]), some (.array [.string "force"])] := by
  refine ⟨_, rfl, ?_, ?_⟩
  · have facts := validateToolArgs_correct (fun _ => "")
      [{ name := "action", kind := .stringEnum ["list", "resume"], required := true },
        { name := "force", kind := .boolean, required := false }]
      [("action", .string "list"), ("other", .null)] "manage_run"
    exact (facts.2.2.1 (by decide)).mp (by decide)
  · have facts := validateToolArgs_correct (fun _ => "")
      [{ name := "action", kind := .stringEnum ["list", "resume"], required := true },
        { name := "force", kind := .boolean, required := false }]
      [("force", .null)] "manage_run"
    exact facts.2.1 (by decide)

end ToolArguments

end HarnessAgent
