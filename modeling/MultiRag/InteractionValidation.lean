/-
  **Fail-closed normalization of the JSON a remote tool or a person supplies**
  (`api/identity/mcp_interactions/validation.py`).

  The checks that need the JSON-schema library (`Draft202012Validator`) go through
  `SchemaLibrary`; the walks over a schema are the repository's own. The source walks with an
  explicit stack; every refusal on the way is the same error, so the walk is written here as a
  recursion over the value.
-/
import MultiRag.InteractionContracts

namespace MultiRag.McpInteractions

/-- What a call of the schema library does: return, raise `SchemaError` or
    `ValidationError`, or raise something else. -/
inductive SchemaOutcome where
  | accepted | rejected | crashed

/-- `jsonschema.Draft202012Validator`. -/
structure SchemaLibrary where
  checkSchema : Json → SchemaOutcome
  validate : Json → Json → SchemaOutcome

def SchemaOutcome.orRaise (outcome : SchemaOutcome) (code : InteractionErrorCode) :
    Except RepositoryError Unit :=
  match outcome with
  | .accepted => .ok ()
  | .rejected => .error (.state code)
  | .crashed => .error .schemaLibrary

/-! ### `str.casefold`, as far as it yields ASCII letters -/

/-- The case folding of one character.  Characters whose folding holds no ASCII
    letter are left alone: the program only looks for ASCII words in the result. -/
def casefoldChar (c : Char) : List Char :=
  if 'A' ≤ c ∧ c ≤ 'Z' then [Char.ofNat (c.toNat + 32)]
  else match c.toNat with
    | 0x130 => ['i', Char.ofNat 0x307]
    | 0x149 => [Char.ofNat 0x2bc, 'n']
    | 0x17f => ['s']
    | 0x1f0 => ['j', Char.ofNat 0x30c]
    | 0xdf | 0x1e9e => ['s', 's']
    | 0x1e96 => ['h', Char.ofNat 0x331]
    | 0x1e97 => ['t', Char.ofNat 0x308]
    | 0x1e98 => ['w', Char.ofNat 0x30a]
    | 0x1e99 => ['y', Char.ofNat 0x30a]
    | 0x1e9a => ['a', Char.ofNat 0x2be]
    | 0x212a => ['k']
    | 0xfb00 => ['f', 'f']
    | 0xfb01 => ['f', 'i']
    | 0xfb02 => ['f', 'l']
    | 0xfb03 => ['f', 'f', 'i']
    | 0xfb04 => ['f', 'f', 'l']
    | 0xfb05 | 0xfb06 => ['s', 't']
    | _ => [c]

def casefold (text : String) : List Char := text.toList.flatMap casefoldChar

/-! ### Safe schemas -/

def forbiddenFieldParts : List String :=
  ["api_key", "apikey", "card_number", "credit_card", "cvv", "oauth", "password", "payment",
    "secret", "token"]

def forbiddenName (name : String) : Bool :=
  forbiddenFieldParts.any (fun part =>
    (casefold name).tails.any (fun tail => part.toList.isPrefixOf tail))

/-- `str(node.get("format", "")).casefold() == "password"`: only a string can
    have this text. -/
def isPasswordFormat (items : List (String × Json)) : Bool :=
  match items.lookup "format" with
  | some (.str format) => casefold format == "password".toList
  | _ => false

def truthy : Json → Bool
  | .null => false
  | .bool b => b
  | .int n => n != 0
  | .float text => text != "0.0" && text != "-0.0"
  | .str s => s != ""
  | .arr items => !items.isEmpty
  | .obj items => !items.isEmpty

mutual

/-- The loop of `_assert_safe_schema` on one node and the nodes below it. -/
def safeNode (fieldName : String) : Json → Bool
  | .obj items => !forbiddenName fieldName && !isPasswordFormat items && safeItems fieldName items
  | _ => !forbiddenName fieldName

def safeItems (fieldName : String) : List (String × Json) → Bool
  | [] => true
  | (key, value) :: rest =>
      (if key = "properties" then safeProperties value
        else if key = "items" then value == .null || safeNode fieldName value
        else true) && safeItems fieldName rest

def safeProperties : Json → Bool
  | .obj children => safeChildren children
  | value => !truthy value

def safeChildren : List (String × Json) → Bool
  | [] => true
  | (name, child) :: rest => safeNode name child && safeChildren rest

end

def assertSafeSchema (library : SchemaLibrary) (schema : Option Json) :
    Except RepositoryError Json :=
  match schema with
  | none => .error (.state .payloadInvalid)
  | some schema =>
      if !schema.isObj || schema.get? "type" != some (.str "object") then
        .error (.state .payloadInvalid)
      else
        match (library.checkSchema schema).orRaise .payloadInvalid with
        | .error error => .error error
        | .ok () =>
            if safeNode "" schema then .ok schema else .error (.state .payloadInvalid)

/-! ### Requests and responses -/

def normalizeInputRequest (library : SchemaLibrary) (requestId : String) (request : Json) :
    Except RepositoryError Unit :=
  if isBlank requestId || !request.isObj then .error (.state .payloadInvalid)
  else
    match request.get? "params" with
    | none => .error (.state .payloadInvalid)
    | some params =>
        if request.get? "method" != some (.str "elicitation/create") || !params.isObj then
          .error (.state .payloadInvalid)
        else if (params.get? "mode").getD (.str "form") != .str "form" then
          .error (.state .payloadInvalid)
        else
          match assertSafeSchema library (params.get? "requestedSchema") with
          | .error error => .error error
          | .ok _ => .ok ()

def normalizeInputRequests (library : SchemaLibrary) (maxPayloadBytes : Nat)
    (inputRequests : List (String × Json)) : Except RepositoryError (List (String × Json)) :=
  if inputRequests.isEmpty || decide (maxPayloadBytes < (Json.obj inputRequests).payloadSize) then
    .error (.state .payloadInvalid)
  else do
    inputRequests.forM (fun request => normalizeInputRequest library request.1 request.2)
    return inputRequests

def interactionSchemaDigest (sha256 : String → String) (inputRequests : List (String × Json)) :
    String :=
  sha256 ("multirag.mcp-interaction.schema.v1\x00" ++ (Json.obj inputRequests).dumps)

mutual

/-- Every `$ref` of a schema is local. -/
def localReferences : Json → Bool
  | .obj items => localFields items
  | .arr items => localItems items
  | _ => true

def localItems : List Json → Bool
  | [] => true
  | item :: rest => localReferences item && localItems rest

def localFields : List (String × Json) → Bool
  | [] => true
  | (key, value) :: rest =>
      (if key = "$ref" then
          match value with
          | .null => true
          | .str reference => reference.toList.head? == some '#'
          | _ => false
        else true) && localReferences value && localFields rest

end

def normalizeOutputSchema (library : SchemaLibrary) (maxPayloadBytes : Nat)
    (outputSchema : Option (List (String × Json))) :
    Except RepositoryError (Option (List (String × Json))) :=
  match outputSchema with
  | none => .ok none
  | some schema =>
      if schema.isEmpty || decide (maxPayloadBytes < (Json.obj schema).payloadSize) then
        .error (.state .payloadInvalid)
      else
        match (library.checkSchema (.obj schema)).orRaise .payloadInvalid with
        | .error error => .error error
        | .ok () =>
            if localReferences (.obj schema) then .ok (some schema)
            else .error (.state .payloadInvalid)

def outputSchemaDigest (sha256 : String → String) (outputSchema : Option (List (String × Json))) :
    Option String :=
  outputSchema.map (fun schema =>
    sha256 ("multirag.mcp-interaction.output-schema.v1\x00" ++ (Json.obj schema).dumps))

def normalizeInteractionResult (library : SchemaLibrary) (maxPayloadBytes : Nat)
    (outputSchema : Option (List (String × Json))) (result : Json) : Except RepositoryError Json :=
  if maxPayloadBytes < result.payloadSize then .error (.state .payloadInvalid)
  else
    match normalizeOutputSchema library maxPayloadBytes outputSchema with
    | .error error => .error error
    | .ok none => .ok result
    | .ok (some schema) =>
        match (library.validate (.obj schema) result).orRaise .payloadInvalid with
        | .error error => .error error
        | .ok () => .ok result

def requestedSchema (request : Option Json) : Option Json :=
  (request.bind (Json.get? "params")).bind (Json.get? "requestedSchema")

def normalizeInputResponse (library : SchemaLibrary) (request : Option Json) (response : Json) :
    Except RepositoryError Unit :=
  if !response.isObj || response.keys.any (fun key => key != "action" && key != "content") then
    .error (.state .responseInvalid)
  else
    match response.get? "action" with
    | some (.arr _) | some (.obj _) => .error (.type "unhashable type")
    | some (.str "accept") =>
        match assertSafeSchema library (requestedSchema request) with
        | .error error => .error error
        | .ok schema =>
            (library.validate schema ((response.get? "content").getD .null)).orRaise .responseInvalid
    | some (.str "decline") | some (.str "cancel") =>
        if (response.get? "content").isSome then .error (.state .responseInvalid) else .ok ()
    | _ => .error (.state .responseInvalid)

def sameKeys (left right : List (String × Json)) : Bool :=
  left.all (fun item => (right.lookup item.1).isSome) &&
    right.all (fun item => (left.lookup item.1).isSome)

def normalizeInputResponses (library : SchemaLibrary) (maxPayloadBytes : Nat)
    (inputRequests inputResponses : List (String × Json)) :
    Except RepositoryError (List (String × Json)) :=
  if !sameKeys inputResponses inputRequests ||
      decide (maxPayloadBytes < (Json.obj inputResponses).payloadSize) then
    .error (.state .responseInvalid)
  else do
    inputResponses.forM (fun response =>
      normalizeInputResponse library (inputRequests.lookup response.1) response.2)
    return inputResponses

end MultiRag.McpInteractions
