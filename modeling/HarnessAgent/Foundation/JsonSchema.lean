import HarnessAgent.Foundation.JsonTree

/-! # JSON schemas

A schema is a JSON document that other documents satisfy or not. Its members are keywords:
`type`, `enum`, `required` and `properties` each ask for something, and a document has to
satisfy all of them. Other members, such as descriptions, ask for nothing.
-/

namespace HarnessAgent

namespace JsonSchema

def typeName : Value → String
  | .null => "null"
  | .bool _ => "boolean"
  | .number _ => "number"
  | .string _ => "string"
  | .array _ => "array"
  | .object _ => "object"

def AcceptsKeyword (keyword : String) (stated value : Value) : Prop :=
  match keyword, stated with
  | "type", .string name => typeName value = name
  | "type", .array names => .string (typeName value) ∈ names
  | "enum", .array values => value ∈ values
  | "required", .array names =>
      ∀ members : Members, value = .object members →
        ∀ name, .string name ∈ names → name ∈ members.keys
  | _, _ => True

mutual
def Accepts : Value → Value → Prop
  | .bool all, _ => all = true
  | .object schema, value => AcceptsAll schema value
  | _, _ => False

def AcceptsAll : List (String × Value) → Value → Prop
  | [], _ => True
  | (keyword, stated) :: rest, value =>
      (if keyword = "properties" then AcceptsProperties stated value
        else AcceptsKeyword keyword stated value) ∧ AcceptsAll rest value

def AcceptsProperties : Value → Value → Prop
  | .object properties, .object members => AcceptsMembers properties members
  | _, _ => True

def AcceptsMembers : List (String × Value) → List (String × Value) → Prop
  | [], _ => True
  | (name, schema) :: rest, members =>
      (∀ value, Members.get members name = some value → Accepts schema value) ∧
        AcceptsMembers rest members
end

theorem accepts_object_iff {schema : Members} {value : Value} :
    Accepts (.object schema) value ↔ AcceptsAll schema value := by
  rw [Accepts]

theorem acceptsAll_append {first later : Members} {value : Value} :
    AcceptsAll (first ++ later) value ↔ AcceptsAll first value ∧ AcceptsAll later value := by
  induction first with
  | nil => rw [List.nil_append, AcceptsAll, true_and]
  | cons member rest induction =>
      rcases member with ⟨keyword, stated⟩
      rw [List.cons_append, AcceptsAll, AcceptsAll, induction, and_assoc]

theorem acceptsAll_singleton {stated value : Value} (plain : keyword ≠ "properties") :
    AcceptsAll [(keyword, stated)] value ↔ AcceptsKeyword keyword stated value := by
  rw [AcceptsAll, AcceptsAll, and_true, if_neg plain]

theorem acceptsAll_properties {properties members : Members} :
    AcceptsAll [("properties", .object properties)] (.object members) ↔
      AcceptsMembers properties members := by
  rw [AcceptsAll, AcceptsAll, and_true, if_pos rfl, AcceptsProperties]

theorem acceptsMembers_iff {properties members : Members} :
    AcceptsMembers properties members ↔
      ∀ property ∈ properties, ∀ value, members.get property.1 = some value →
        Accepts property.2 value := by
  induction properties with
  | nil =>
      rw [AcceptsMembers]
      exact iff_of_true trivial (List.forall_mem_nil _)
  | cons property rest induction =>
      rcases property with ⟨name, schema⟩
      rw [AcceptsMembers, List.forall_mem_cons, induction]

end JsonSchema

end HarnessAgent
