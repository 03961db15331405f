/-
  **What the schema of a request asks of an answer.**

  `keeps raw key` says which keywords of a field are asked for: all of them (`Every`), or
  what the private mapping carries (`Carried`).
-/
import MultiRag.InteractionForms

namespace MultiRag.InteractionForms

def FieldType.Holds : FieldType → Data → Prop
  | .string, value => ∃ text, value = .str text
  | .integer, value => (∃ n, value = .int n) ∨ ∃ x, ∃ n : Int, value = .float x ∧ floatReal x = .finite n
  | .number, value => (∃ n, value = .int n) ∨ ∃ x q, value = .float x ∧ floatReal x = .finite q
  | .boolean, value => ∃ b, value = .bool b
  | .array, value => ∃ items, value = .list items

variable (keeps : Data → String → Prop) (raw : Data)

def AtLeast (key : String) (q : ℚ) : Prop :=
  keeps raw key → ∀ m, (raw.getD key).real? = some (.finite m) → m ≤ q

def AtMost (key : String) (q : ℚ) : Prop :=
  keeps raw key → ∀ m, (raw.getD key).real? = some (.finite m) → q ≤ m

def EnumHolds (schema value : Data) : Prop := ∀ values, schema.getD "enum" = .list values → value ∈ values

structure TextHolds (text : String) : Prop where
  enum : EnumHolds raw (.str text)
  least : AtLeast keeps raw "minLength" text.length
  most : AtMost keeps raw "maxLength" text.length

structure NumberHolds (q : ℚ) : Prop where
  least : AtLeast keeps raw "minimum" q
  most : AtMost keeps raw "maximum" q

structure ItemsHold (items : List Data) : Prop where
  item : ∀ item ∈ items, FieldType.string.Holds item ∧ EnumHolds (raw.getD "items") item
  least : AtLeast keeps raw "minItems" items.length
  most : AtMost keeps raw "maxItems" items.length
  unique : (raw.getD "uniqueItems").truthy = true → items.Nodup

def KeywordsHold : FieldType → Data → Prop
  | .string, value => ∀ text, value = .str text → TextHolds keeps raw text
  | .integer, value | .number, value => ∀ q, value.real? = some (.finite q) → NumberHolds keeps raw q
  | .boolean, _ => True
  | .array, value => ∀ items, value = .list items → ItemsHold keeps raw items

def FieldSatisfies (value : Data) : Prop :=
  ∃ type, fieldType (raw.getD "type") = .ok type ∧ type.Holds value ∧ KeywordsHold keeps raw type value

def Requires (schema : Data) (name : String) : Prop :=
  ∃ names, schemaRequired schema = .list names ∧ .str name ∈ names

structure Satisfies (keeps : Data → String → Prop) (schema : Data) (content : List (String × Data)) : Prop where
  distinct : (content.map Prod.fst).Nodup
  declared : ∀ name value, (name, value) ∈ content →
    ∃ raw, (name, raw) ∈ schemaProperties schema ∧ FieldSatisfies keeps raw value
  required : ∀ name, Requires schema name → ∃ value, (name, value) ∈ content

def accepted (content : List (String × Data)) : Data :=
  .dict [("action", .str "accept"), ("content", .dict content)]

def Answers (keeps : Data → String → Prop) (inputRequests responses : List (String × Data)) : Prop :=
  responses.map Prod.fst = inputRequests.map Prod.fst ∧
    ∀ requestId request, (requestId, request) ∈ inputRequests →
      ∃ content, (requestId, accepted content) ∈ responses ∧
        Satisfies keeps (requestedSchema request) content

/-- Every keyword counts. -/
def Every (_ : Data) (_ : String) : Prop := True

/-- A string field that is neither a select nor a date. -/
def IsText (raw : Data) : Prop := (raw.getD "enum").isNone = true ∧ (raw.getD "format").isNone = true

/-- An integer bound that `float` does not change. -/
def Exact (bound : Data) : Prop :=
  ∀ n, bound = .int n → (floatOfInt n).map floatReal = some (.finite n)

/-- The keywords that the private mapping carries as they are: lengths for texts, and the
    bounds that are floats. -/
def Carried (raw : Data) (key : String) : Prop :=
  if key = "minLength" ∨ key = "maxLength" then IsText raw
  else if key = "minimum" ∨ key = "maximum" then Exact (raw.getD key)
  else True

end MultiRag.InteractionForms
