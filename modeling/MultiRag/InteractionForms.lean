/-
  **Forms for the requests of an interaction, and what a submission decodes to.**

  `buildFormProjection` turns elicitation requests into the public fields of a form and a private
  mapping from opaque ids back to the requests; `decodeFormSubmission` reads the values of a
  submitted form with that mapping.
-/
import MultiRag.Fallible
import MultiRag.PyNumerals

namespace MultiRag.InteractionForms

/-- `InteractionStateError` with its two codes here; every other exception is `raised`. -/
inductive Failure where
  | payloadInvalid | responseInvalid | raised
deriving DecidableEq

def reject {α : Type} : Except Failure α := .error .payloadInvalid

def maxRequests : Nat := 4
def maxFields : Nat := 12
def maxOptions : Nat := 20
def maxLabel : Nat := 80
def maxMessage : Nat := 240
def maxText : Nat := 1000

def rootKeys : List String :=
  ["$schema", "type", "title", "description", "properties", "required", "additionalProperties"]
def commonFieldKeys : List String := ["type", "title", "description", "default"]
def stringFieldKeys : List String :=
  commonFieldKeys ++ ["enum", "enumNames", "format", "minLength", "maxLength", "pattern"]
def numberFieldKeys : List String := commonFieldKeys ++ ["minimum", "maximum"]
def arrayFieldKeys : List String := commonFieldKeys ++ ["items", "minItems", "maxItems", "uniqueItems"]

/-! ### The public form -/

inductive FieldKind where
  | text | number | boolean | date | select | multiSelect
deriving DecidableEq

def FieldKind.name : FieldKind → String
  | .text => "text"
  | .number => "number"
  | .boolean => "boolean"
  | .date => "date"
  | .select => "select"
  | .multiSelect => "multi_select"

structure InteractionFormOption where
  value : String
  label : String

structure InteractionFormField where
  name : String
  kind : FieldKind
  label : String
  required : Bool
  options : List InteractionFormOption
  minLength : Option Nat
  maxLength : Option Nat
  minimum : Option Float.Model
  maximum : Option Float.Model

structure InteractionFormProjection where
  message : String
  fields : List InteractionFormField

def lengthWithin (text : String) (least most : Nat) : Bool := least ≤ text.length && text.length ≤ most

def InteractionFormOption.valid (o : InteractionFormOption) : Bool :=
  lengthWithin o.value 1 64 && lengthWithin o.label 1 maxLabel

def InteractionFormField.valid (f : InteractionFormField) : Bool :=
  lengthWithin f.name 1 64 && lengthWithin f.label 1 maxLabel && f.minLength.all (· ≤ maxText) &&
    f.maxLength.all (fun n => 1 ≤ n && n ≤ maxText)

def InteractionFormProjection.valid (p : InteractionFormProjection) : Bool :=
  lengthWithin p.message 1 maxMessage && 1 ≤ p.fields.length && p.fields.length ≤ maxFields

def validated {α : Type} (valid : α → Bool) (a : α) : Except Failure α :=
  if valid a then .ok a else .error .raised

/-! ### Helpers -/

def boundedPlain (value : Data) (fallback : String) (limit : Nat) : String :=
  match value.asStr with
  | none => fallback
  | some text =>
    let normalized := joinWords text
    if normalized = "" ∨ limit < normalized.length then fallback else normalized

def encodePart (part : String) : List UInt8 :=
  let bytes := part.toUTF8.data.toList
  [24, 16, 8, 0].map (fun shift => UInt8.ofNat (bytes.length >>> shift)) ++ bytes

def opaqueId (python : Runtime) (kind : String) (parts : List String) : String :=
  kind ++ "_" ++ String.ofList (hexDigits 24 (python.sha256 (parts.flatMap encodePart) / 16 ^ 40))

def integer (value : Data) (default upper : Nat) : Except Failure Nat :=
  match value with
  | .null => .ok default
  | .int n => if n < 0 ∨ (upper : Int) < n then reject else .ok n.toNat
  | _ => reject

def number (value : Data) : Except Failure (Option Float.Model) :=
  match value with
  | .null => .ok none
  | .int n => match floatOfInt n with
    | none => .error .raised
    | some x => .ok (some x)
  | .float x => if x.isFinite then .ok (some x) else reject
  | _ => reject

def daysInMonth (year month : Nat) : Nat :=
  if month = 2 then
    if year % 4 = 0 ∧ (year % 100 ≠ 0 ∨ year % 400 = 0) then 29 else 28
  else if month ∈ [4, 6, 9, 11] then 30 else 31

def isDateShape : List Char → Bool
  | [y₁, y₂, y₃, y₄, '-', m₁, m₂, '-', d₁, d₂] => [y₁, y₂, y₃, y₄, m₁, m₂, d₁, d₂].all isAsciiDigit
  | _ => false

/-- `date.fromisoformat` accepts a text of that shape. -/
def isCalendarDate : List Char → Bool
  | [y₁, y₂, y₃, y₄, '-', m₁, m₂, '-', d₁, d₂] =>
    let year := digitsValue (asciiDigits [y₁, y₂, y₃, y₄])
    let month := digitsValue (asciiDigits [m₁, m₂])
    let day := digitsValue (asciiDigits [d₁, d₂])
    1 ≤ year && 1 ≤ month && month ≤ 12 && 1 ≤ day && day ≤ daysInMonth year month
  | _ => false

/-- The offset of `_DATE_WITH_OFFSET` after the date, at most fourteen hours. -/
def isOffset : List Char → Bool
  | [' ', sign, h₁, h₂, m₁, m₂] =>
    let hours := digitsValue (asciiDigits [h₁, h₂])
    let minutes := digitsValue (asciiDigits [m₁, m₂])
    (sign = '+' || sign = '-') && [h₁, h₂, m₁, m₂].all isAsciiDigit && hours ≤ 14 && minutes ≤ 59 &&
      !(hours = 14 && minutes ≠ 0)
  | _ => false

def normalizedDate (text : String) : Option String :=
  let chars := text.toList
  if isDateShape chars then
    if isCalendarDate chars then some text else none
  else
    let date := chars.take 10
    if isDateShape date ∧ isOffset (chars.drop 10) ∧ isCalendarDate date then some (String.ofList date)
    else none

/-- The values that `not in {None, flag}` lets pass; numbers equal to the flag are the flag. -/
def isNoneOr (flag : Bool) (value : Data) : Except Failure Bool :=
  match value with
  | .null => .ok true
  | .list _ | .dict _ => .error .raised
  | value => .ok (decide (value.real? = some (.finite (if flag then 1 else 0))))

/-! ### Building -/

structure Presentation where
  interactionId : String
  revision : Int

inductive OptionType where
  | string | boolean

def OptionType.accepts : OptionType → Data → Bool
  | .string, .str _ => true
  | .boolean, .bool _ => true
  | _, _ => false

variable (python : Runtime) (p : Presentation)

def fieldId (requestId propertyName : String) : String :=
  opaqueId python "f" [p.interactionId, toString p.revision, requestId, propertyName]

def optionId (requestId propertyName : String) (index : Nat) : String :=
  opaqueId python "o" [p.interactionId, toString p.revision, requestId, propertyName, toString index]

def rawLabels (values : List Data) (labels : Data) : Except Failure (List Data) :=
  match labels with
  | .null => .ok values
  | .list labels => if labels.length = values.length then .ok labels else reject
  | _ => reject

def buildOption (requestId propertyName : String) (valueType : OptionType) (index : Nat)
    (value rawLabel : Data) : Except Failure (InteractionFormOption × String × Data) :=
  if valueType.accepts value then do
    let label := boundedPlain rawLabel ("选项 " ++ toString (index + 1)) maxLabel
    let built ← validated InteractionFormOption.valid ⟨optionId python p requestId propertyName index, label⟩
    return (built, built.value, value)
  else reject

def options (requestId propertyName : String) (values labels : Data) (valueType : OptionType) :
    Except Failure (List InteractionFormOption × List (String × Data)) :=
  match values.asList with
  | none => reject
  | some values =>
    if values = [] ∨ maxOptions < values.length ∨ ¬ (values.map python.repr).Nodup then reject
    else do
      let labels ← rawLabels values labels
      let built ← ((values.zip labels).zipIdx).mapM fun item =>
        buildOption python p requestId propertyName valueType item.2 item.1.1 item.1.2
      return (built.map Prod.fst, dictOf (built.map Prod.snd))

structure Projected where
  kind : FieldKind
  options : List InteractionFormOption
  optionMap : List (String × Data)
  minLength : Option Nat
  maxLength : Option Nat
  minimum : Option Float.Model
  maximum : Option Float.Model

inductive FieldType where
  | string | integer | number | boolean | array
deriving DecidableEq

def FieldType.name : FieldType → String
  | .string => "string"
  | .integer => "integer"
  | .number => "number"
  | .boolean => "boolean"
  | .array => "array"

def FieldType.allowedKeys : FieldType → List String
  | .string => stringFieldKeys
  | .integer | .number => numberFieldKeys
  | .boolean => commonFieldKeys
  | .array => arrayFieldKeys

/-- A type that is no string is not looked up: a list or a dictionary is not hashable. -/
def fieldType (value : Data) : Except Failure FieldType :=
  match value with
  | .str name =>
    match [FieldType.string, .integer, .number, .boolean, .array].find? (fun t => t.name = name) with
    | some t => .ok t
    | none => reject
  | .list _ | .dict _ => .error .raised
  | _ => reject

def stringKind (requestId propertyName : String) (raw : Data) :
    Except Failure (FieldKind × List InteractionFormOption × List (String × Data)) :=
  if (raw.getD "enum").isNone then
    if (raw.getD "format").asStr = some "date" then .ok (.date, [], [])
    else if (raw.getD "format").isNone then .ok (.text, [], [])
    else reject
  else do
    let built ← options python p requestId propertyName (raw.getD "enum") (raw.getD "enumNames") .string
    return (.select, built)

def projectString (requestId propertyName : String) (raw : Data) : Except Failure Projected := do
  let kind ← stringKind python p requestId propertyName raw
  if !(raw.getD "pattern").isNone then reject
  else do
    let minLength ← integer (raw.getD "minLength") 0 maxText
    let maxLength ← integer (raw.getD "maxLength") maxText maxText
    if minLength > maxLength then reject
    else return ⟨kind.1, kind.2.1, kind.2.2, some minLength, some maxLength, none, none⟩

def exceeds (minimum maximum : Option Float.Model) : Bool :=
  match minimum, maximum with
  | some minimum, some maximum => (floatReal maximum).lt (floatReal minimum)
  | _, _ => false

def projectNumber (raw : Data) : Except Failure Projected := do
  let minimum ← number (raw.getD "minimum")
  let maximum ← number (raw.getD "maximum")
  if exceeds minimum maximum then reject
  else return ⟨.number, [], [], none, none, minimum, maximum⟩

def projectBoolean (requestId propertyName : String) : Except Failure Projected := do
  let built ← options python p requestId propertyName (.list [.bool true, .bool false])
    (.list [.str "是", .str "否"]) .boolean
  return ⟨.boolean, built.1, built.2, none, none, none, none⟩

def projectArray (requestId propertyName : String) (raw : Data) : Except Failure Projected :=
  match (raw.getD "items").asDict with
  | none => reject
  | some items =>
    if ¬ items.map Prod.fst ⊆ ["type", "enum", "enumNames"] ∨
        ((raw.getD "items").getD "type").asStr ≠ some "string" then reject
    else do
      let built ← options python p requestId propertyName ((raw.getD "items").getD "enum")
        ((raw.getD "items").getD "enumNames") .string
      let minLength ← integer (raw.getD "minItems") 0 maxOptions
      let maxLength ← integer (raw.getD "maxItems") built.1.length maxOptions
      let unique ← isNoneOr true (raw.getD "uniqueItems")
      if !unique ∨ minLength > 1 ∨ maxLength ≠ built.1.length then reject
      else return ⟨.multiSelect, built.1, built.2, some minLength, some maxLength, none, none⟩

def project (type : FieldType) (requestId propertyName : String) (raw : Data) : Except Failure Projected :=
  match type with
  | .string => projectString python p requestId propertyName raw
  | .integer | .number => projectNumber raw
  | .boolean => projectBoolean python p requestId propertyName
  | .array => projectArray python p requestId propertyName raw

def lengthData (bound : Option Nat) : Data := (bound.map fun n => Data.int n).getD .null

def floatData (bound : Option Float.Model) : Data := (bound.map Data.float).getD .null

/-- Lengths are kept for texts and multiple selections, minimum and maximum for all else. -/
def Projected.keepsLength (projected : Projected) : Bool :=
  projected.kind = .text || projected.kind = .multiSelect

def privateSpec (propertyName : String) (type : FieldType) (required : Bool) (projected : Projected) : Data :=
  .dict [("name", .str propertyName), ("type", .str type.name), ("kind", .str projected.kind.name),
    ("required", .bool required), ("options", .dict projected.optionMap),
    ("min", if projected.keepsLength then lengthData projected.minLength else floatData projected.minimum),
    ("max", if projected.keepsLength then lengthData projected.maxLength else floatData projected.maximum)]

/-- `count` public fields come before this one. -/
def buildField (requestIndex : Nat) (requestId : String) (required : List String) (count index : Nat)
    (propertyName : String) (raw : Data) : Except Failure (InteractionFormField × String × Data) :=
  match raw.asDict with
  | none => reject
  | some entries =>
    if maxFields ≤ count ∨ isBlank propertyName then reject
    else do
      let type ← fieldType (raw.getD "type")
      if ¬ entries.map Prod.fst ⊆ type.allowedKeys then reject
      else do
        let name := fieldId python p requestId propertyName
        let label := boundedPlain (raw.getD "title")
          ("字段 " ++ toString (requestIndex + 1) ++ "." ++ toString (index + 1)) maxLabel
        let projected ← project python p type requestId propertyName raw
        let isRequired := required.contains propertyName
        let field ← validated InteractionFormField.valid ⟨name, projected.kind, label, isRequired,
          projected.options, projected.minLength, projected.maxLength, projected.minimum, projected.maximum⟩
        return (field, name, privateSpec propertyName type isRequired projected)

def requestedSchema (request : Data) : Data := (request.getD "params").getD "requestedSchema"

def schemaProperties (schema : Data) : List (String × Data) := ((schema.getD "properties").asDict).getD []

def schemaRequired (schema : Data) : Data :=
  ((schema.asDict.bind (·.lookup "required"))).getD (.list [])

def requestMode (params : Data) : Data := ((params.asDict.bind (·.lookup "mode"))).getD (.str "form")

def checkRequest (requestId : String) (request : Data) : Except Failure (List String) :=
  let params := request.getD "params"
  let schema := requestedSchema request
  if isBlank requestId ∨ request.asDict.isNone then reject
  else if (request.getD "method").asStr ≠ some "elicitation/create" ∨ params.asDict.isNone ∨
      (requestMode params).asStr ≠ some "form" then reject
  else match schema.asDict with
    | none => reject
    | some entries =>
      if ¬ entries.map Prod.fst ⊆ rootKeys ∨ (schema.getD "type").asStr ≠ some "object" then reject
      else do
        let closed ← isNoneOr false (schema.getD "additionalProperties")
        if !closed then reject
        else match (schema.getD "properties").asDict, (schemaRequired schema).asList with
          | some properties, some required =>
            match required.mapM Data.asStr with
            | none => reject
            | some required =>
              if properties = [] ∨ ¬ required.Nodup ∨ ¬ required ⊆ properties.map Prod.fst then reject
              else .ok required
          | _, _ => reject

structure BuiltRequest where
  requestId : String
  message : String
  fields : List InteractionFormField
  entries : List (String × Data)

def buildRequest (requestIndex count : Nat) (requestId : String) (request : Data) :
    Except Failure BuiltRequest := do
  let required ← checkRequest requestId request
  let message := boundedPlain ((request.getD "params").getD "message") "请补充以下信息" maxMessage
  let built ← (schemaProperties (requestedSchema request)).zipIdx.mapM fun item =>
    buildField python p requestIndex requestId required (count + item.2) item.2 item.1.1 item.1.2
  return ⟨requestId, message, built.map Prod.fst, dictOf (built.map Prod.snd)⟩

def buildRequests (requestIndex count : Nat) : List (String × Data) → Except Failure (List BuiltRequest)
  | [] => .ok []
  | (requestId, request) :: rest => do
    let built ← buildRequest python p requestIndex count requestId request
    let others ← buildRequests (requestIndex + 1) (count + built.fields.length) rest
    return built :: others

/-- `build_form_projection`: the public form and the private mapping. -/
def buildFormProjection (inputRequests : List (String × Data)) :
    Except Failure (InteractionFormProjection × Data) :=
  if inputRequests = [] ∨ maxRequests < inputRequests.length then reject
  else do
    let built ← buildRequests python p 0 0 inputRequests
    let message := " / ".intercalate (built.map BuiltRequest.message).eraseDups
    let projection ← validated InteractionFormProjection.valid
      ⟨String.ofList (message.toList.take maxMessage), built.flatMap BuiltRequest.fields⟩
    return (projection,
      .dict [("requests", .dict (dictOf (built.map fun b => (b.requestId, Data.dict b.entries))))])

/-! ### Decoding -/

inductive FormAction where
  | accept | decline | cancel

def FormAction.name : FormAction → String
  | .accept => "accept"
  | .decline => "decline"
  | .cancel => "cancel"

def decodeOption (optionMap value : Data) : Option Data :=
  match value.asStr, optionMap.asDict with
  | some id, some optionMap => optionMap.lookup id
  | _, _ => none

/-- A list of distinct option ids; ids that are no strings raise one way or the other. -/
def decodeOptions (spec value : Data) : Option Data :=
  match value.asList.bind (·.mapM Data.asStr), (spec.getD "options").asDict with
  | some ids, some optionMap =>
    if ids.Nodup then do
      let chosen ← ids.mapM (optionMap.lookup ·)
      let minimum ← (spec.getD "min").asInt
      let maximum ← (spec.getD "max").asInt
      if minimum ≤ chosen.length ∧ (chosen.length : Int) ≤ maximum then return .list chosen else none
    else none
  | _, _ => none

variable (unicodeDecimal : Char → Option Nat)

def toFloat (value : Data) : Option Float.Model :=
  match value with
  | .int n => floatOfInt n
  | .float x => some x
  | .str text => floatOfText unicodeDecimal text
  | _ => none

def normalizedNumber (type value : Data) : Option Data :=
  if type.asStr = some "integer" then
    match value with
    | .int n => some (.int n)
    | .str text => (intOfText unicodeDecimal text).map .int
    | _ => none
  else match toFloat unicodeDecimal value with
    | some x => if x.isFinite then some (.float x) else none
    | none => none

def crossed (bound : Data) (less : Option Bool) : Option Bool := if bound.isNone then some false else less

def decodeNumber (spec value : Data) : Option Data := do
  let normalized ← normalizedNumber unicodeDecimal (spec.getD "type") value
  let tooSmall ← crossed (spec.getD "min") (normalized.lt? (spec.getD "min"))
  let tooLarge ← crossed (spec.getD "max") ((spec.getD "max").lt? normalized)
  if tooSmall ∨ tooLarge then none else return normalized

def orInt (value : Data) (default : Int) : Data := if value.truthy then value else .int default

def readText (isDate : Bool) (text : String) : Option String :=
  if isDate then normalizedDate text else some text

def decodeText (spec : Data) (isDate : Bool) (value : Data) : Option Data :=
  match value.asStr with
  | none => none
  | some text => do
    let normalized ← readText isDate text
    let least ← (orInt (spec.getD "min") 0).le? (.int normalized.length)
    let most ← (Data.int normalized.length).le? (orInt (spec.getD "max") maxText)
    if least ∧ most then return .str normalized else none

/-- The value of one field; `none` is a `TypeError`, `ValueError` or `OverflowError`. -/
def decodeValue (spec value : Data) : Option Data :=
  match [FieldKind.text, .number, .boolean, .date, .select, .multiSelect].find? (fun kind =>
      decide ((spec.getD "kind").asStr = some kind.name)) with
  | some .select | some .boolean => decodeOption (spec.getD "options") value
  | some .multiSelect => decodeOptions spec value
  | some .number => decodeNumber unicodeDecimal spec value
  | some .text => decodeText spec false value
  | some .date => decodeText spec true value
  | none => none

def answerOf (formValue : List (String × Data)) (fieldId : String) : Option Data :=
  match formValue.lookup fieldId with
  | none | some .null => none
  | some (.str text) => if text = "" then none else some (.str text)
  | some value => some value

def decodeField (formValue : List (String × Data)) (fieldId : String) (spec : Data) :
    Except Failure (Option (String × Data)) :=
  match spec.asDict with
  | none => reject
  | some _ =>
    match answerOf formValue fieldId with
    | none => if (spec.getD "required").asBool = some true then .error .responseInvalid else .ok none
    | some value =>
      match decodeValue unicodeDecimal spec value with
      | none => .error .responseInvalid
      | some normalized =>
        match (spec.getD "name").asStr with
        | none => reject
        | some name => if name = "" then reject else .ok (some (name, normalized))

def decodeRequest (formValue : List (String × Data)) (requestId : String) (fields : Data) :
    Except Failure (String × Data) :=
  match fields.asDict with
  | none => reject
  | some fields => do
    let content ← fields.mapM fun field => decodeField unicodeDecimal formValue field.1 field.2
    return (requestId,
      .dict [("action", .str "accept"), ("content", .dict (dictOf (content.filterMap id)))])

def knownFields (requests : List (String × Data)) : List String :=
  requests.flatMap fun request => ((request.2.asDict).getD []).map Prod.fst

def decodeAccepted (formValue requests : List (String × Data)) : Except Failure (List (String × Data)) :=
  if ¬ formValue.map Prod.fst ⊆ knownFields requests then reject
  else do
    let responses ← requests.mapM fun request => decodeRequest unicodeDecimal formValue request.1 request.2
    return dictOf responses

def decodeFormSubmission (mapping : Data) (action : FormAction) (formValue : List (String × Data)) :
    Except Failure (List (String × Data)) :=
  match (mapping.getD "requests").asDict with
  | none => reject
  | some requests =>
    match action with
    | .accept => decodeAccepted unicodeDecimal formValue requests
    | .decline | .cancel =>
      if formValue ≠ [] then reject
      else .ok (dictOf (requests.map fun request => (request.1, .dict [("action", .str action.name)])))

end MultiRag.InteractionForms
