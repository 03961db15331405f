/-
  **The durable records of an MCP interaction** (`common/mcp_interactions.py`,
  `api/identity/mcp_interactions/contracts.py`, the two tables of `api/db/db_models.py`).

  An interaction is one row that goes through rounds: a remote tool asks for input, a person
  answers, a worker resumes the tool with the answer. Times are microseconds of the database
  clock; a digest is the text SHA-256 gives, and SHA-256 itself is a parameter of the functions
  that use it.
-/
import MultiRag.Table
import MultiRag.Json

namespace MultiRag.McpInteractions

/-! ### Closed value sets -/

inductive InteractionState where
  | awaitingInput | responseReady | resuming
  | completed | declined | cancelled | expired | failed
deriving DecidableEq

def InteractionState.value : InteractionState → String
  | .awaitingInput => "awaiting_input"
  | .responseReady => "response_ready"
  | .resuming => "resuming"
  | .completed => "completed"
  | .declined => "declined"
  | .cancelled => "cancelled"
  | .expired => "expired"
  | .failed => "failed"

inductive JobState where
  | responseReady | leased | succeeded | terminalFailed
deriving DecidableEq

inductive InteractionEffect where
  | read | prepare | sideEffect
deriving DecidableEq

inductive ReplayMode where
  | reusable | singleUse
deriving DecidableEq

inductive InteractionErrorCode where
  | notFound | actorMismatch | revisionConflict | stateConflict | expired | responseInvalid
  | payloadInvalid | sideEffectBlocked | reauthorizationDenied | remoteResultUnknown | roundLimit
deriving DecidableEq

def InteractionErrorCode.value : InteractionErrorCode → String
  | .notFound => "INTERACTION_NOT_FOUND"
  | .actorMismatch => "INTERACTION_ACTOR_MISMATCH"
  | .revisionConflict => "INTERACTION_REVISION_CONFLICT"
  | .stateConflict => "INTERACTION_STATE_CONFLICT"
  | .expired => "INTERACTION_EXPIRED"
  | .responseInvalid => "INTERACTION_RESPONSE_INVALID"
  | .payloadInvalid => "INTERACTION_PAYLOAD_INVALID"
  | .sideEffectBlocked => "INTERACTION_SIDE_EFFECT_BLOCKED"
  | .reauthorizationDenied => "INTERACTION_REAUTHORIZATION_DENIED"
  | .remoteResultUnknown => "INTERACTION_REMOTE_RESULT_UNKNOWN"
  | .roundLimit => "INTERACTION_ROUND_LIMIT"

/-- What a repository function raises.  `state` is `InteractionStateError`,
    `cipher` is `InteractionPayloadCipherError`; the last two are a failed
    uniqueness constraint and an error of the JSON-schema library that is
    neither `SchemaError` nor `ValidationError`. -/
inductive RepositoryError where
  | state (code : InteractionErrorCode)
  | value (message : String)
  | cipher (message : String)
  | type (message : String)
  | integrity (constraint : String)
  | schemaLibrary
deriving DecidableEq

/-! ### Requests -/

def validOpaque (text : String) : Bool :=
  let alphanumeric (c : Char) : Bool :=
    ('A' ≤ c && c ≤ 'Z') || ('a' ≤ c && c ≤ 'z') || ('0' ≤ c && c ≤ '9')
  match text.toList with
  | [] => false
  | first :: rest =>
      alphanumeric first && decide (rest.length ≤ 254) &&
        rest.all (fun c => alphanumeric c || c == '.' || c == '_' || c == ':' || c == '-')

def validText (text : String) : Bool := !isBlank text && decide (text.length ≤ 2048)

structure InteractionLeaseFence where
  jobId : String
  owner : String
  attempt : Nat
deriving DecidableEq

/-- `InteractionLeaseFence.__post_init__` accepts the values. -/
def InteractionLeaseFence.valid (fence : InteractionLeaseFence) : Bool :=
  validOpaque fence.jobId && fence.owner == pyStrip fence.owner && fence.owner != "" &&
    decide (fence.owner.length ≤ 64) && decide (0 < fence.attempt)

structure RequestFields where
  tenantId : String
  platformUserId : String
  externalIdentityId : Option String
  identityRevision : Option Nat
  agentId : String
  agentRevisionId : String
  mcpServerId : String
  resourceName : String
  resourceUri : String
  toolName : String
  originalArguments : List (String × Json)
  inputRequests : List (String × Json)
  outputSchema : Option (List (String × Json))
  requestState : String
  effect : InteractionEffect
  replayMode : ReplayMode
  policyRevision : String
  credentialGeneration : Nat
  expiresAt : Int
  interactionId : Option String
  previousRevision : Option Nat
  leaseFence : Option InteractionLeaseFence

/-- `InteractionRequest.__post_init__` accepts the values; the fence is checked by
    its own constructor. -/
def RequestFields.valid (request : RequestFields) : Bool :=
  [request.tenantId, request.platformUserId, request.agentId, request.agentRevisionId,
      request.mcpServerId, request.resourceName, request.toolName,
      request.policyRevision].all validOpaque &&
    validText request.resourceUri &&
    !request.inputRequests.isEmpty &&
    validText request.requestState &&
    request.effect != .sideEffect &&
    request.externalIdentityId.all validOpaque &&
    request.identityRevision.all (fun revision => decide (0 < revision)) &&
    match request.interactionId, request.previousRevision, request.leaseFence with
    | none, none, none => true
    | some interactionId, some revision, some fence =>
        validOpaque interactionId && decide (0 < revision) && fence.valid
    | _, _, _ => false

structure InteractionRequest extends RequestFields where
  valid : toRequestFields.valid = true

theorem InteractionRequest.effect_ne (request : InteractionRequest) :
    request.effect ≠ .sideEffect := by
  intro heffect
  have hvalid := request.valid
  simp [RequestFields.valid, heffect] at hvalid

variable (sha256 : String → String)

def canonicalCallDigest (mcpServerId resourceName resourceUri toolName : String)
    (arguments : List (String × Json)) : String :=
  sha256 ("multirag.mcp-interaction.call.v1\x00" ++
    (Json.obj [("arguments", .obj arguments), ("mcp_server_id", .str mcpServerId),
      ("resource_name", .str resourceName), ("resource_uri", .str resourceUri),
      ("tool_name", .str toolName)]).dumps)

def RequestFields.callDigest (request : RequestFields) : String :=
  canonicalCallDigest sha256 request.mcpServerId request.resourceName request.resourceUri
    request.toolName request.originalArguments

/-! ### Results -/

structure InteractionReceipt where
  interactionId : String
  revision : Nat

inductive ResponseClaimStatus where
  | accepted | duplicate
deriving DecidableEq

structure ResponseClaim where
  interactionId : String
  revision : Nat
  status : ResponseClaimStatus

structure InteractionResume where
  interactionId : String
  revision : Nat
  request : InteractionRequest
  inputResponses : List (String × Json)

/-- A worker's lease: the fence it has to show and the call to resume. -/
structure InteractionLease extends InteractionLeaseFence where
  resume : InteractionResume

structure InteractionProjection where
  interactionId : String
  revision : Nat
  state : InteractionState
  inputRequests : List (String × Json)
  expiresAt : Int

/-- The part of a `Principal` the interaction functions read. -/
structure Principal where
  tenantId : String
  platformUserId : String
  externalIdentityId : Option String
deriving DecidableEq

/-! ### Rows -/

structure EncryptedInteractionPayload where
  ciphertext : String
  keyId : String

/-- `t_ai_mcp_interactions`.  The nullable ciphertext and key columns of one
    payload are one optional field. -/
structure McpInteraction where
  id : String
  tenantId : String
  platformUserId : String
  externalIdentityId : Option String
  identityRevision : Option Nat
  agentId : String
  agentRevisionId : String
  mcpServerId : String
  resourceName : String
  resourceUri : String
  toolName : String
  callDigest : String
  schemaDigest : String
  outputSchemaDigest : Option String
  outputSchema : Option EncryptedInteractionPayload
  originalArguments : EncryptedInteractionPayload
  inputRequests : EncryptedInteractionPayload
  requestState : EncryptedInteractionPayload
  policyRevision : String
  credentialGeneration : Nat
  effect : InteractionEffect
  replayMode : ReplayMode
  state : InteractionState
  revision : Nat
  roundCount : Nat
  expiresAt : Int
  result : Option EncryptedInteractionPayload
  provider : Option String
  presentationRef : Option String
  createdAt : Int
  updatedAt : Int

structure McpInteractionResumeJob where
  id : String
  interactionId : String
  tenantId : String
  revision : Nat
  responseIdempotencyKey : String
  inputResponse : EncryptedInteractionPayload
  state : JobState
  leaseOwner : Option String
  leaseUntil : Option Int
  attempt : Nat
  nextAttemptAt : Option Int
  safeErrorCode : Option String
  createdAt : Int
  updatedAt : Int

structure InteractionStore where
  interactions : Table McpInteraction McpInteraction.id
  jobs : Table McpInteractionResumeJob McpInteractionResumeJob.id

def InteractionStore.empty : InteractionStore := ⟨Table.empty, Table.empty⟩

end MultiRag.McpInteractions
