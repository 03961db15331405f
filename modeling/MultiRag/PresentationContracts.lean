/-
  **Channel presentations and callback receipts** (the data of
  `api/channel_execution/interaction_presentations.py`).

  A presentation shows one round of an interaction as a form in a chat channel. It is at once an
  outbox entry (the delivery columns), the holder of the form's nonce, and the state of the
  answer; a receipt is one stored answer waiting to be processed.
-/
import MultiRag.InteractionRepository

namespace MultiRag.ChannelExecution

open McpInteractions

/-! ### Closed value sets and errors -/

inductive ResponseState where
  | open | received | claimed | terminal
deriving DecidableEq

inductive DeliveryKind where
  | form | terminal
deriving DecidableEq

inductive DeliveryState where
  | pending | leased | delivered | failed
deriving DecidableEq

inductive ReceiptState where
  | received | leased | claimed | rejected
deriving DecidableEq

inductive CallbackAction where
  | accept | decline | cancel
deriving DecidableEq

def CallbackAction.value : CallbackAction → String
  | .accept => "accept"
  | .decline => "decline"
  | .cancel => "cancel"

inductive InteractionPresentationErrorCode where
  | notFound | bindingMismatch | stateConflict | expired | payloadInvalid | deliveryConflict

def InteractionPresentationErrorCode.value : InteractionPresentationErrorCode → String
  | .notFound => "INTERACTION_PRESENTATION_NOT_FOUND"
  | .bindingMismatch => "INTERACTION_PRESENTATION_BINDING_MISMATCH"
  | .stateConflict => "INTERACTION_PRESENTATION_STATE_CONFLICT"
  | .expired => "INTERACTION_PRESENTATION_EXPIRED"
  | .payloadInvalid => "INTERACTION_PRESENTATION_PAYLOAD_INVALID"
  | .deliveryConflict => "INTERACTION_PRESENTATION_DELIVERY_CONFLICT"

/-- What a presentation function raises: an `InteractionPresentationError`, or an
    error the interaction layer has too. -/
inductive PresentationError where
  | presentation (code : InteractionPresentationErrorCode)
  | repository (error : RepositoryError)

def safeCode (code : String) : Bool :=
  let upper (c : Char) : Bool := 'A' ≤ c && c ≤ 'Z'
  match code.toList with
  | [] => false
  | first :: rest =>
      upper first && decide (rest.length ≤ 63) &&
        rest.all (fun c => upper c || ('0' ≤ c && c ≤ '9') || c == '_')

def digest (sha256 : String → String) (domain : String) (values : List Json) : String :=
  sha256 ("multirag.channel-interaction." ++ domain ++ ".v1\x00" ++ (Json.arr values).dumps)

def tokenDigest (sha256 : String → String) (purpose value : String) : String :=
  digest sha256 purpose [.str value]

/-! ### Callback payloads -/

structure ExternalIdentityIdentifier where
  kind : String
  value : String

structure ExternalIdentityAssertion where
  provider : String
  providerTenantKey : Option String
  identifiers : List ExternalIdentityIdentifier

structure ChannelActor where
  provider : String
  subject : String
  conversation : String
  identity : Option ExternalIdentityAssertion

/-- `Field(min_length=…, max_length=…)`. -/
def lengthBetween (low high : Nat) (text : String) : Bool :=
  decide (low ≤ text.length) && decide (text.length ≤ high)

def trimmed (text : String) : Bool := !isBlank text && text == pyStrip text

def ExternalIdentityIdentifier.valid (identifier : ExternalIdentityIdentifier) : Bool :=
  lengthBetween 1 64 identifier.kind && lengthBetween 1 255 identifier.value &&
    trimmed identifier.kind && trimmed identifier.value

def ExternalIdentityAssertion.valid (assertion : ExternalIdentityAssertion) : Bool :=
  lengthBetween 1 64 assertion.provider && trimmed assertion.provider &&
    assertion.providerTenantKey.all (fun key => lengthBetween 1 255 key && trimmed key) &&
    decide (1 ≤ assertion.identifiers.length) && decide (assertion.identifiers.length ≤ 8) &&
    assertion.identifiers.all ExternalIdentityIdentifier.valid &&
    decide ((assertion.identifiers.map ExternalIdentityIdentifier.kind).Nodup)

def ChannelActor.valid (actor : ChannelActor) : Bool :=
  lengthBetween 1 64 actor.provider && lengthBetween 1 255 actor.subject &&
    lengthBetween 1 255 actor.conversation &&
    actor.identity.all (fun identity => identity.valid && identity.provider == actor.provider)

/-- The arguments of the `InteractionCallbackPayload` constructor. -/
structure CallbackFields where
  eventId : String
  nonce : String
  action : CallbackAction
  messageId : String
  actor : ChannelActor
  formValue : List (String × Json)

def optional (name : String) (value : Option Json) : List (String × Json) :=
  value.toList.map (fun json => (name, json))

def ExternalIdentityAssertion.toJson (assertion : ExternalIdentityAssertion) : Json :=
  .obj [("identifiers", .arr (assertion.identifiers.map (fun identifier =>
      .obj [("kind", .str identifier.kind), ("value", .str identifier.value)]))),
    ("provider", .str assertion.provider),
    ("provider_tenant_key", (assertion.providerTenantKey.map Json.str).getD .null)]

def ChannelActor.toJson (actor : ChannelActor) : Json :=
  .obj ([("conversation", .str actor.conversation)] ++
    optional "identity" (actor.identity.map ExternalIdentityAssertion.toJson) ++
    [("provider", .str actor.provider), ("subject", .str actor.subject)])

/-- `model_dump(mode="json")`. -/
def CallbackFields.toJson (fields : CallbackFields) : Json :=
  .obj [("action", .str fields.action.value), ("actor", fields.actor.toJson),
    ("event_id", .str fields.eventId), ("form_value", .obj fields.formValue),
    ("message_id", .str fields.messageId), ("nonce", .str fields.nonce)]

def formFieldId (key : String) : Bool :=
  match key.toList with
  | 'f' :: '_' :: rest =>
      decide (rest.length = 24) &&
        rest.all (fun c => ('0' ≤ c && c ≤ '9') || ('a' ≤ c && c ≤ 'f'))
  | _ => false

def validFormValue : Json → Bool
  | .str text => decide (text.length ≤ 1000)
  | .bool _ => true
  | .arr items =>
      decide (items.length ≤ 20) && decide items.Nodup &&
        items.all (fun item =>
          match item with
          | .str text => lengthBetween 1 64 text
          | _ => false)
  | _ => false

def CallbackFields.valid (fields : CallbackFields) : Bool :=
  lengthBetween 1 255 fields.eventId && lengthBetween 16 255 fields.nonce &&
    lengthBetween 1 255 fields.messageId && fields.actor.valid &&
    (fields.action == .accept || fields.formValue.isEmpty) &&
    fields.formValue.all (fun field => formFieldId field.1 && validFormValue field.2) &&
    decide (fields.toJson.payloadSize ≤ 65536)

structure InteractionCallbackPayload extends CallbackFields where
  valid : toCallbackFields.valid = true

def actionOf : Json → Option CallbackAction
  | .str "accept" => some .accept
  | .str "decline" => some .decline
  | .str "cancel" => some .cancel
  | _ => none

def textOf : Json → Option String
  | .str text => some text
  | _ => none

/-- `extra="forbid"`. -/
def onlyKeys (allowed : List String) (value : Json) : Bool :=
  value.isObj && value.keys.all allowed.contains

def identifierOfJson (value : Json) : Option ExternalIdentityIdentifier := do
  let kind ← textOf (← value.get? "kind")
  let text ← textOf (← value.get? "value")
  if onlyKeys ["kind", "value"] value then some ⟨kind, text⟩ else none

def assertionOfJson (value : Json) : Option ExternalIdentityAssertion := do
  let provider ← textOf (← value.get? "provider")
  let tenantKey ←
    match value.get? "provider_tenant_key" with
    | none | some .null => some none
    | some key => (textOf key).map some
  match value.get? "identifiers" with
  | some (.arr items) =>
      let identifiers ← items.mapM identifierOfJson
      if onlyKeys ["identifiers", "provider", "provider_tenant_key"] value then
        some ⟨provider, tenantKey, identifiers⟩
      else none
  | _ => none

def actorOfJson (value : Json) : Option ChannelActor := do
  let provider ← textOf (← value.get? "provider")
  let subject ← textOf (← value.get? "subject")
  let conversation ← textOf (← value.get? "conversation")
  let identity ←
    match value.get? "identity" with
    | none | some .null => some none
    | some identity => (assertionOfJson identity).map some
  if onlyKeys ["conversation", "identity", "provider", "subject"] value then
    some ⟨provider, subject, conversation, identity⟩
  else none

/-- `InteractionCallbackPayload.model_validate`; `none` is its validation error. -/
def callbackOfJson (value : Json) : Option InteractionCallbackPayload := do
  let eventId ← textOf (← value.get? "event_id")
  let nonce ← textOf (← value.get? "nonce")
  let action ← actionOf ((value.get? "action").getD (.str "accept"))
  let messageId ← textOf (← value.get? "message_id")
  let actor ← actorOfJson (← value.get? "actor")
  let formValue ←
    match value.get? "form_value" with
    | none => some []
    | some (.obj items) => some items
    | some _ => none
  let fields : CallbackFields := ⟨eventId, nonce, action, messageId, actor, formValue⟩
  if h : fields.valid = true then
    if onlyKeys ["action", "actor", "event_id", "form_value", "message_id", "nonce"] value then
      some ⟨fields, h⟩
    else none
  else none

/-! ### Rows -/

structure McpInteractionPresentation where
  id : String
  interactionId : String
  tenantId : String
  revision : Nat
  bindingId : String
  bindingGeneration : Nat
  provider : String
  providerAccountId : String
  sourceEventDigest : String
  conversationRef : String
  presentationRef : String
  expiresAt : Int
  responseState : ResponseState
  deliveryKind : DeliveryKind
  deliveryState : DeliveryState
  deliveryProjection : Json
  formMapping : Option EncryptedInteractionPayload
  nonceDigest : Option String
  deliveryTokenDigest : Option String
  deliveryLeaseOwner : Option String
  deliveryLeaseUntil : Option Int
  deliveryAttempt : Nat
  deliveryNextAttemptAt : Option Int
  safeErrorCode : Option String
  createdAt : Int
  updatedAt : Int

structure McpInteractionCallbackReceipt where
  id : String
  presentationId : String
  bindingId : String
  eventDigest : String
  payloadDigest : String
  payload : EncryptedInteractionPayload
  state : ReceiptState
  leaseOwner : Option String
  leaseUntil : Option Int
  attempt : Nat
  nextAttemptAt : Option Int
  safeErrorCode : Option String
  createdAt : Int
  updatedAt : Int

structure ChannelStore extends InteractionStore where
  presentations : Table McpInteractionPresentation McpInteractionPresentation.id
  receipts : Table McpInteractionCallbackReceipt McpInteractionCallbackReceipt.id

def ChannelStore.empty : ChannelStore := ⟨InteractionStore.empty, Table.empty, Table.empty⟩

/-! ### Arguments and results -/

/-- The part of a `TrustedChannelContext` that is read here. -/
structure TrustedChannelContext where
  bindingId : String
  tenantId : String
  enabled : Bool
  bindingGeneration : Nat
  provider : String
  principal : Option Principal

structure LinkedChannel where
  bindingGeneration : Nat
  bindingEnabled : Bool
  channelStatus : Int
  channelTenantId : String
  channelProvider : String
  linkTenantId : String
  linkProvider : String
  providerAccountId : String

structure InteractionRequiredNotice where
  actionId : String
  revision : Nat
  expiresAt : Int

structure InteractionDelivery where
  deliveryId : String
  deliveryToken : String
  actionId : String
  revision : Nat
  kind : DeliveryKind
  presentationRef : String
  projection : Json
  actionNonce : Option String
  expiresAt : Int
  safeErrorCode : Option String

inductive CallbackReceiptStatus where
  | accepted | duplicate
deriving DecidableEq

structure CallbackLease where
  receiptId : String
  owner : String
  attempt : Nat
  presentationId : String
  bindingId : String
  bindingGeneration : Nat
  providerAccountId : String
  interactionId : String
  revision : Nat
  actor : ChannelActor
  action : CallbackAction
  inputResponses : List (String × Json)
  idempotencyKey : String

/-! ### What a finished interaction shows -/

structure TerminalResult where
  title : Option String
  message : String
  fields : List (String × String)

variable (isPrintable : Char → Bool)

def terminalText (value : Option Json) (maxChars : Nat) : Option String :=
  match value with
  | some (.str text) =>
      if text = "" ∨ text ≠ pyStrip text ∨ maxChars < text.length ∨
          text.toList.all isPrintable = false then none
      else some text
  | _ => none

def terminalFields : List String → List Json → Option (List (String × String))
  | _, [] => some []
  | labels, item :: items =>
      if item.isObj && onlyKeys ["label", "value"] item &&
          (item.get? "label").isSome && (item.get? "value").isSome then
        match terminalText isPrintable (item.get? "label") 32,
            terminalText isPrintable (item.get? "value") 160 with
        | some label, some value =>
            if labels.contains label then none
            else (terminalFields (label :: labels) items).map (fun rest => (label, value) :: rest)
        | _, _ => none
      else none

def hasKeys (keys : List String) (value : Json) : Bool :=
  onlyKeys keys value && keys.all (fun key => (value.get? key).isSome)

def decodeTerminalResult (value : Json) : Option TerminalResult :=
  let payload := if hasKeys ["result"] value then (value.get? "result").getD .null else value
  if payload.get? "kind" != some (.str "com.ofmcp/interaction-terminal") ||
      payload.get? "preview_only" != some (.bool true) then none
  else
    match payload.get? "version" with
    | some (.int 1) =>
        if hasKeys ["kind", "version", "message", "preview_only"] payload then
          (terminalText isPrintable (payload.get? "message") 240).map (fun message =>
            ⟨none, message, []⟩)
        else none
    | some (.int 2) =>
        if hasKeys ["kind", "version", "title", "message", "fields", "preview_only"] payload then
          match terminalText isPrintable (payload.get? "title") 64,
              terminalText isPrintable (payload.get? "message") 240, payload.get? "fields" with
          | some title, some message, some (.arr items) =>
              if 1 ≤ items.length ∧ items.length ≤ 8 then
                (terminalFields isPrintable [] items).map (fun fields =>
                  ⟨some title, message, fields⟩)
              else none
          | _, _, _ => none
        else none
    | _ => none

def terminalMessage : InteractionState → String
  | .completed => "处理已完成。"
  | .declined => "你已拒绝本次请求。"
  | .cancelled => "本次请求已取消。"
  | .expired => "表单已过期，请重新发起。"
  | .failed => "处理未完成，请稍后重试。"
  | _ => "处理状态已更新。"

def TerminalResult.fieldsJson (result : TerminalResult) : Json :=
  .arr (result.fields.map (fun field => .obj [("label", .str field.1), ("value", .str field.2)]))

def terminalProjection (state : InteractionState) (completedResult : Option TerminalResult) :
    Json :=
  match (if state = .completed then completedResult else none) with
  | none => .obj [("message", .str (terminalMessage state)), ("state", .str state.value)]
  | some result =>
      match result.title with
      | none => .obj [("message", .str result.message), ("state", .str state.value)]
      | some title =>
          .obj [("fields", result.fieldsJson), ("message", .str result.message),
            ("state", .str state.value), ("title", .str title)]

end MultiRag.ChannelExecution
