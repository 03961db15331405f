/-
  **The durable interaction rounds** (`api/identity/mcp_interactions/repository.py`).

  Every function takes the store and gives what it returned or raised together with the store as
  its session then has it. `newId` is `uuid4().hex`, `entropy` the random bytes of the cipher, each
  `now` one reading of the database clock, and `locked` the job rows other transactions hold
  (`SKIP LOCKED`).
-/
import MultiRag.InteractionValidation
import MultiRag.Run

namespace MultiRag.McpInteractions

/-- `InteractionPayloadCipher`: authenticated encryption bound to the row, the
    round and the purpose. -/
structure InteractionPayloadCipher where
  encrypt (entropy tenantId interactionId : String) (revision : Nat) (purpose : String)
    (value : Json) : Except RepositoryError EncryptedInteractionPayload
  decrypt (tenantId interactionId : String) (revision : Nat) (purpose : String)
    (encrypted : EncryptedInteractionPayload) : Except RepositoryError Json

/-- `InteractionRepository` without its session, with the libraries it calls. -/
structure InteractionRepository where
  cipher : InteractionPayloadCipher
  maxRounds : Nat
  maxPayloadBytes : Nat
  sha256 : String → String
  library : SchemaLibrary

/-! ### Rows -/

namespace InteractionStore

def lockedInteraction (s : InteractionStore) (interactionId tenantId : String) :
    Option McpInteraction :=
  (s.interactions.get? interactionId).filter (fun row => row.tenantId == tenantId)

def jobOfRound (s : InteractionStore) (interactionId : String) (revision : Nat) :
    Option McpInteractionResumeJob :=
  s.jobs.rows.find? (fun job => job.interactionId == interactionId && job.revision == revision)

def putRow (s : InteractionStore) (row : McpInteraction) : InteractionStore :=
  { s with interactions := s.interactions.put row }

def putJob (s : InteractionStore) (job : McpInteractionResumeJob) : InteractionStore :=
  { s with jobs := s.jobs.put job }

def insertJob (s : InteractionStore) (job : McpInteractionResumeJob) :
    Except RepositoryError InteractionStore :=
  if s.jobs.rows.any (fun other =>
      other.interactionId == job.interactionId && other.revision == job.revision) then
    .error (.integrity "uq_mcp_interaction_jobs_round")
  else if s.jobs.rows.any (fun other =>
      other.tenantId == job.tenantId &&
        other.responseIdempotencyKey == job.responseIdempotencyKey) then
    .error (.integrity "uq_mcp_interaction_jobs_tenant_idempotency")
  else
    match s.jobs.insert? job with
    | none => .error (.integrity "t_ai_mcp_interaction_resume_jobs_pkey")
    | some jobs => .ok { s with jobs := jobs }

end InteractionStore

def McpInteraction.withState (row : McpInteraction) (state : InteractionState) (now : Int) :
    McpInteraction :=
  { row with state := state, updatedAt := now }

def McpInteractionResumeJob.terminalJob (job : McpInteractionResumeJob) (now : Int)
    (code : InteractionErrorCode) : McpInteractionResumeJob :=
  { job with
    state := .terminalFailed
    leaseOwner := none
    leaseUntil := none
    safeErrorCode := some code.value
    updatedAt := now }

/-- The writes by which `complete` and `_advance` close a job. -/
def McpInteractionResumeJob.succeededJob (job : McpInteractionResumeJob) (now : Int) :
    McpInteractionResumeJob :=
  { job with state := .succeeded, leaseOwner := none, leaseUntil := none, updatedAt := now }

def raised {σ α : Type} (error : RepositoryError) (s : σ) : Except RepositoryError α × σ :=
  (.error error, s)

namespace InteractionRepository

variable (repository : InteractionRepository)

/-! ### Payloads -/

def decryptMapping (row : McpInteraction) (purpose : String)
    (encrypted : EncryptedInteractionPayload) : Except RepositoryError (List (String × Json)) :=
  match repository.cipher.decrypt row.tenantId row.id row.revision purpose encrypted with
  | .error error => .error error
  | .ok (.obj items) => .ok items
  | .ok _ => .error (.state .payloadInvalid)

structure EncryptedRound where
  originalArguments : EncryptedInteractionPayload
  inputRequests : EncryptedInteractionPayload
  requestState : EncryptedInteractionPayload
  outputSchema : Option EncryptedInteractionPayload

def encryptOutputSchema (entropy tenantId interactionId : String) (revision : Nat)
    (outputSchema : Option (List (String × Json))) :
    Except RepositoryError (Option EncryptedInteractionPayload) :=
  match outputSchema with
  | none => .ok none
  | some schema =>
      (repository.cipher.encrypt entropy tenantId interactionId revision "output_schema"
        (.obj schema)).map some

/-- The `_encrypt` calls that `_create` and `_advance` make, in order. -/
def encryptRound (entropy : String) (request : InteractionRequest) (interactionId : String)
    (revision : Nat) (inputRequests : List (String × Json))
    (outputSchema : Option (List (String × Json))) : Except RepositoryError EncryptedRound := do
  let encrypt := repository.cipher.encrypt entropy request.tenantId interactionId revision
  let original ← encrypt "original_arguments" (.obj request.originalArguments)
  let inputs ← encrypt "input_requests" (.obj inputRequests)
  let state ← encrypt "request_state" (.str request.requestState)
  let schema ←
    repository.encryptOutputSchema entropy request.tenantId interactionId revision outputSchema
  return ⟨original, inputs, state, schema⟩

def decryptOutputSchema (row : McpInteraction) :
    Except RepositoryError (Option (List (String × Json))) :=
  match row.outputSchemaDigest, row.outputSchema with
  | none, none => .ok none
  | some digest, some encrypted =>
      match repository.decryptMapping row "output_schema" encrypted with
      | .error error => .error error
      | .ok schema =>
          if outputSchemaDigest repository.sha256 (some schema) = some digest then .ok (some schema)
          else .error (.state .payloadInvalid)
  | _, _ => .error (.state .payloadInvalid)

def decryptInputRequests (row : McpInteraction) : Except RepositoryError (List (String × Json)) :=
  match repository.decryptMapping row "input_requests" row.inputRequests with
  | .error error => .error error
  | .ok inputRequests =>
      if interactionSchemaDigest repository.sha256 inputRequests = row.schemaDigest then
        .ok inputRequests
      else .error (.state .payloadInvalid)

/-! ### Opening and advancing a round -/

def create (newId entropy : String) (appNow : Int) (request : InteractionRequest)
    (inputRequests : List (String × Json)) (outputSchema : Option (List (String × Json)))
    (s : InteractionStore) : Except RepositoryError InteractionReceipt × InteractionStore :=
  match repository.encryptRound entropy request newId 1 inputRequests outputSchema with
  | .error error => raised error s
  | .ok round =>
      let row : McpInteraction :=
        { id := newId
          tenantId := request.tenantId
          platformUserId := request.platformUserId
          externalIdentityId := request.externalIdentityId
          identityRevision := request.identityRevision
          agentId := request.agentId
          agentRevisionId := request.agentRevisionId
          mcpServerId := request.mcpServerId
          resourceName := request.resourceName
          resourceUri := request.resourceUri
          toolName := request.toolName
          callDigest := request.callDigest repository.sha256
          schemaDigest := interactionSchemaDigest repository.sha256 inputRequests
          outputSchemaDigest := outputSchemaDigest repository.sha256 outputSchema
          outputSchema := round.outputSchema
          originalArguments := round.originalArguments
          inputRequests := round.inputRequests
          requestState := round.requestState
          policyRevision := request.policyRevision
          credentialGeneration := request.credentialGeneration
          effect := request.effect
          replayMode := request.replayMode
          state := .awaitingInput
          revision := 1
          roundCount := 1
          expiresAt := request.expiresAt
          result := none
          provider := none
          presentationRef := none
          createdAt := appNow
          updatedAt := appNow }
      match s.interactions.insert? row with
      | none => raised (.integrity "t_ai_mcp_interactions_pkey") s
      | some interactions => (.ok ⟨newId, 1⟩, { s with interactions := interactions })

def sameBinding (row : McpInteraction) (request : InteractionRequest)
    (outputSchema : Option (List (String × Json))) : Bool :=
  row.platformUserId == request.platformUserId &&
    row.externalIdentityId == request.externalIdentityId &&
    row.agentId == request.agentId &&
    row.agentRevisionId == request.agentRevisionId &&
    row.mcpServerId == request.mcpServerId &&
    row.resourceName == request.resourceName &&
    row.resourceUri == request.resourceUri &&
    row.toolName == request.toolName &&
    row.callDigest == request.callDigest repository.sha256 &&
    row.outputSchemaDigest == outputSchemaDigest repository.sha256 outputSchema &&
    row.effect == request.effect &&
    row.replayMode == request.replayMode

def advancedRow (row : McpInteraction) (round : EncryptedRound) (request : InteractionRequest)
    (inputRequests : List (String × Json)) (outputSchema : Option (List (String × Json)))
    (now : Int) : McpInteraction :=
  { row with
    originalArguments := round.originalArguments
    inputRequests := round.inputRequests
    requestState := round.requestState
    schemaDigest := interactionSchemaDigest repository.sha256 inputRequests
    outputSchemaDigest := outputSchemaDigest repository.sha256 outputSchema
    outputSchema := round.outputSchema
    policyRevision := request.policyRevision
    credentialGeneration := request.credentialGeneration
    identityRevision := request.identityRevision
    state := .awaitingInput
    revision := row.revision + 1
    roundCount := row.roundCount + 1
    expiresAt := request.expiresAt
    updatedAt := now }

/-- `_advance`; the first three arguments are the request's own identifiers,
    which its constructor requires together. -/
def advance (interactionId : String) (previousRevision : Nat) (fence : InteractionLeaseFence)
    (entropy : String) (now : Int) (request : InteractionRequest)
    (inputRequests : List (String × Json)) (outputSchema : Option (List (String × Json)))
    (s : InteractionStore) : Except RepositoryError InteractionReceipt × InteractionStore :=
  match s.jobs.get? fence.jobId with
  | none => raised (.state .stateConflict) s
  | some job =>
      match s.lockedInteraction interactionId request.tenantId with
      | none => raised (.state .notFound) s
      | some row =>
          if job.interactionId ≠ interactionId ∨ job.revision ≠ previousRevision ∨
              job.state ≠ .leased ∨ job.leaseOwner ≠ some fence.owner ∨
              job.attempt ≠ fence.attempt ∨ job.leaseUntil.all (fun until_ => until_ ≤ now) then
            raised (.state .stateConflict) s
          else if row.state ≠ .resuming ∨ row.revision ≠ previousRevision then
            raised (.state .stateConflict) s
          else if row.expiresAt ≤ now then raised (.state .expired) s
          else if repository.maxRounds ≤ row.roundCount then raised (.state .roundLimit) s
          else if !repository.sameBinding row request outputSchema then
            raised (.state .stateConflict) s
          else
            match repository.encryptRound entropy request row.id (row.revision + 1) inputRequests
                outputSchema with
            | .error error => raised error s
            | .ok round =>
                (.ok ⟨row.id, row.revision + 1⟩,
                  (s.putJob (job.succeededJob now)).putRow
                    (repository.advancedRow row round request inputRequests outputSchema now))

def pause (newId entropy : String) (appNow now : Int) (request : InteractionRequest)
    (s : InteractionStore) : Except RepositoryError InteractionReceipt × InteractionStore :=
  match normalizeInputRequests repository.library repository.maxPayloadBytes
      request.inputRequests with
  | .error error => raised error s
  | .ok inputRequests =>
      match normalizeOutputSchema repository.library repository.maxPayloadBytes
          request.outputSchema with
      | .error error => raised error s
      | .ok outputSchema =>
          match request.interactionId, request.previousRevision, request.leaseFence with
          | some interactionId, some previousRevision, some fence =>
              repository.advance interactionId previousRevision fence entropy now request
                inputRequests outputSchema s
          | _, _, _ => repository.create newId entropy appNow request inputRequests outputSchema s

/-! ### Answering a round -/

def idempotencyDigest (tenantId interactionId : String) (revision : Nat) (key : String) :
    Except RepositoryError String :=
  if isBlank key || decide (255 < key.length) then .error (.state .responseInvalid)
  else
    .ok (repository.sha256 ("multirag.mcp-interaction.response.v1\x00" ++ tenantId ++ "\x00" ++
      interactionId ++ "\x00" ++ toString revision ++ "\x00" ++ key))

def responseTerminalState (responses : List (String × Json)) : Option InteractionState :=
  let actions := responses.map (fun response => response.2.get? "action")
  if actions.contains (some (.str "cancel")) then some .cancelled
  else if actions.contains (some (.str "decline")) then some .declined
  else none

def responseJob (newId digest : String) (encrypted : EncryptedInteractionPayload)
    (terminalState : Option InteractionState) (row : McpInteraction) (now : Int) :
    McpInteractionResumeJob where
  id := newId
  interactionId := row.id
  tenantId := row.tenantId
  revision := row.revision
  responseIdempotencyKey := digest
  inputResponse := encrypted
  state := if terminalState.isSome then .succeeded else .responseReady
  leaseOwner := none
  leaseUntil := none
  attempt := 0
  nextAttemptAt := none
  safeErrorCode := none
  createdAt := now
  updatedAt := now

/-- The part of `submit_response` after the idempotency lookup found no job. -/
def submitFirstResponse (newId entropy digest : String) (now : Int) (row : McpInteraction)
    (inputResponses : List (String × Json)) (s : InteractionStore) :
    Except RepositoryError ResponseClaim × InteractionStore :=
  if row.expiresAt ≤ now then
    raised (.state .expired) (s.putRow (row.withState .expired now))
  else if row.state ≠ .awaitingInput then raised (.state .stateConflict) s
  else
    match repository.decryptInputRequests row with
    | .error error => raised error s
    | .ok inputRequests =>
        match normalizeInputResponses repository.library repository.maxPayloadBytes inputRequests
            inputResponses with
        | .error error => raised error s
        | .ok responses =>
            match repository.cipher.encrypt entropy row.tenantId row.id row.revision
                "input_response" (.obj responses) with
            | .error error => raised error s
            | .ok encrypted =>
                let terminalState := responseTerminalState responses
                match s.insertJob (responseJob newId digest encrypted terminalState row now) with
                | .error error => raised error s
                | .ok s' =>
                    (.ok ⟨row.id, row.revision, .accepted⟩,
                      s'.putRow (row.withState (terminalState.getD .responseReady) now))

def submitResponse (newId entropy : String) (now : Int) (principal : Principal)
    (interactionId : String) (revision : Nat) (responseIdempotencyKey : String)
    (inputResponses : List (String × Json)) (s : InteractionStore) :
    Except RepositoryError ResponseClaim × InteractionStore :=
  match repository.idempotencyDigest principal.tenantId interactionId revision
      responseIdempotencyKey with
  | .error error => raised error s
  | .ok digest =>
      match s.lockedInteraction interactionId principal.tenantId with
      | none => raised (.state .notFound) s
      | some row =>
          if row.platformUserId ≠ principal.platformUserId ∨
              row.externalIdentityId ≠ principal.externalIdentityId then
            raised (.state .actorMismatch) s
          else if row.revision ≠ revision then raised (.state .revisionConflict) s
          else
            match s.jobOfRound row.id revision with
            | some existing =>
                if existing.responseIdempotencyKey = digest then
                  (.ok ⟨row.id, revision, .duplicate⟩, s)
                else raised (.state .stateConflict) s
            | none =>
                repository.submitFirstResponse newId entropy digest now row inputResponses s

def projection (tenantId platformUserId interactionId : String) (s : InteractionStore) :
    Except RepositoryError InteractionProjection × InteractionStore :=
  match (s.lockedInteraction interactionId tenantId).filter
      (fun row => row.platformUserId == platformUserId) with
  | none => raised (.state .notFound) s
  | some row =>
      match repository.decryptInputRequests row with
      | .error error => raised error s
      | .ok inputRequests => (.ok ⟨row.id, row.revision, row.state, inputRequests, row.expiresAt⟩, s)

/-! ### Leasing a job -/

def due (candidateNow : Int) (job : McpInteractionResumeJob) : Bool :=
  (job.state == .responseReady && job.nextAttemptAt.all (fun at_ => at_ ≤ candidateNow)) ||
    (job.state == .leased && job.leaseUntil.any (fun until_ => until_ ≤ candidateNow))

def toResume (row : McpInteraction) (job : McpInteractionResumeJob) :
    Except RepositoryError InteractionResume := do
  let original ← repository.decryptMapping row "original_arguments" row.originalArguments
  let inputRequests ← repository.decryptInputRequests row
  let requestState ←
    repository.cipher.decrypt row.tenantId row.id row.revision "request_state" row.requestState
  let responses ← repository.decryptMapping row "input_response" job.inputResponse
  match requestState with
  | .str requestState =>
      let outputSchema ← repository.decryptOutputSchema row
      let fence : InteractionLeaseFence := ⟨job.id, job.leaseOwner.getD "", job.attempt⟩
      if !fence.valid then .error (.value "interaction lease fence is invalid")
      else
        let fields : RequestFields :=
          { tenantId := row.tenantId
            platformUserId := row.platformUserId
            externalIdentityId := row.externalIdentityId
            identityRevision := row.identityRevision
            agentId := row.agentId
            agentRevisionId := row.agentRevisionId
            mcpServerId := row.mcpServerId
            resourceName := row.resourceName
            resourceUri := row.resourceUri
            toolName := row.toolName
            originalArguments := original
            inputRequests := inputRequests
            outputSchema := outputSchema
            requestState := requestState
            effect := row.effect
            replayMode := row.replayMode
            policyRevision := row.policyRevision
            credentialGeneration := row.credentialGeneration
            expiresAt := row.expiresAt
            interactionId := some row.id
            previousRevision := some row.revision
            leaseFence := some fence }
        if hvalid : fields.valid = true then
          if fields.callDigest repository.sha256 ≠ row.callDigest then
            .error (.state .payloadInvalid)
          else if responses.isEmpty then .error (.value "interaction resume is invalid")
          else .ok ⟨row.id, row.revision, ⟨fields, hvalid⟩, responses⟩
        else .error (.value "interaction request is invalid")
  | _ => .error (.state .payloadInvalid)

def leasedJob (job : McpInteractionResumeJob) (owner : String) (leaseSeconds now : Int) :
    McpInteractionResumeJob :=
  { job with
    state := .leased
    leaseOwner := some owner
    leaseUntil := some (now + seconds leaseSeconds)
    attempt := job.attempt + 1
    updatedAt := now }

/-- The body of the loop of `lease_ready` for one selected job. -/
def leaseJob (owner : String) (leaseSeconds now : Int) (job : McpInteractionResumeJob)
    (s : InteractionStore) : Except RepositoryError (Option InteractionLease) × InteractionStore :=
  match (s.lockedInteraction job.interactionId job.tenantId).filter
      (fun row => row.revision == job.revision) with
  | none => (.ok none, s.putJob (job.terminalJob now .stateConflict))
  | some row =>
      if row.expiresAt ≤ now then
        (.ok none, (s.putRow (row.withState .expired now)).putJob (job.terminalJob now .expired))
      else if row.effect = .sideEffect then
        (.ok none,
          (s.putRow (row.withState .failed now)).putJob (job.terminalJob now .sideEffectBlocked))
      else if job.state = .leased ∧ row.replayMode ≠ .reusable then
        (.ok none,
          (s.putRow (row.withState .failed now)).putJob (job.terminalJob now .remoteResultUnknown))
      else
        let job' := leasedJob job owner leaseSeconds now
        let row' := row.withState .resuming now
        let s' := (s.putJob job').putRow row'
        match repository.toResume row' job' with
        | .error error => raised error s'
        | .ok resume => (.ok (some ⟨⟨job.id, owner, job'.attempt⟩, resume⟩), s')

def nextReading (last : Int) : List Int → Int × List Int
  | [] => (last, [])
  | now :: rest => (now, rest)

/-- The loop of `lease_ready`. -/
def leaseJobs (owner : String) (leaseSeconds : Int) :
    Int → List Int → List McpInteractionResumeJob → InteractionStore →
      Except RepositoryError (List InteractionLease) × InteractionStore
  | _, _, [], s => (.ok [], s)
  | last, readings, job :: jobs, s =>
      let (now, readings') := nextReading last readings
      match repository.leaseJob owner leaseSeconds now job s with
      | (.error error, s') => raised error s'
      | (.ok lease, s') =>
          match leaseJobs owner leaseSeconds now readings' jobs s' with
          | (.error error, s'') => raised error s''
          | (.ok leases, s'') => (.ok (lease.toList ++ leases), s'')

def leaseReady (owner : String) (leaseSeconds limit : Int) (locked : List String)
    (candidateNow : Int) (readings : List Int) (s : InteractionStore) :
    Except RepositoryError (List InteractionLease) × InteractionStore :=
  if owner ≠ pyStrip owner ∨ owner = "" ∨ 64 < owner.length then
    raised (.value "interaction lease owner is invalid") s
  else if leaseSeconds ≤ 0 ∨ limit ≤ 0 then
    raised (.value "interaction lease bounds are invalid") s
  else
    repository.leaseJobs owner leaseSeconds candidateNow readings
      (s.jobs.selectOrdered (fun job => due candidateNow job && !locked.contains job.id)
        (fun a b => a.createdAt ≤ b.createdAt) limit.toNat) s

/-! ### Finishing a lease -/

def lockedLease (lease : InteractionLeaseFence) (now : Int) (s : InteractionStore) :
    Except RepositoryError (McpInteraction × McpInteractionResumeJob) :=
  match s.jobs.get? lease.jobId with
  | none => .error (.state .stateConflict)
  | some job =>
      match s.lockedInteraction job.interactionId job.tenantId with
      | none => .error (.state .stateConflict)
      | some row =>
          if job.state ≠ .leased ∨ job.leaseOwner ≠ some lease.owner ∨
              job.attempt ≠ lease.attempt ∨ job.leaseUntil.all (fun until_ => until_ ≤ now) ∨
              row.state ≠ .resuming ∨ row.revision ≠ job.revision then
            .error (.state .stateConflict)
          else if row.expiresAt ≤ now then .error (.state .expired)
          else .ok (row, job)

def complete (lease : InteractionLeaseFence) (entropy : String) (fenceNow now : Int)
    (result : Json) (s : InteractionStore) : Except RepositoryError Unit × InteractionStore :=
  match lockedLease lease fenceNow s with
  | .error error => raised error s
  | .ok (row, job) =>
      match repository.decryptOutputSchema row with
      | .error error => raised error s
      | .ok outputSchema =>
          match normalizeInteractionResult repository.library repository.maxPayloadBytes
              outputSchema result with
          | .error error => raised error s
          | .ok normalizedResult =>
              match repository.cipher.encrypt entropy row.tenantId row.id row.revision "result"
                  normalizedResult with
              | .error error => raised error s
              | .ok encrypted =>
                  (.ok (), (s.putRow { row.withState .completed now with
                    result := some encrypted }).putJob (job.succeededJob now))

def terminalFail (lease : InteractionLeaseFence) (fenceNow now : Int)
    (code : InteractionErrorCode) (s : InteractionStore) :
    Except RepositoryError Unit × InteractionStore :=
  match lockedLease lease fenceNow s with
  | .error error => raised error s
  | .ok (row, job) =>
      (.ok (), (s.putRow (row.withState .failed now)).putJob (job.terminalJob now code))

/-- The job that `retry` puts back. -/
def retriedJob (job : McpInteractionResumeJob) (delaySeconds now : Int)
    (code : InteractionErrorCode) : McpInteractionResumeJob :=
  { job with
    state := .responseReady
    leaseOwner := none
    leaseUntil := none
    nextAttemptAt := some (now + seconds delaySeconds)
    safeErrorCode := some code.value
    updatedAt := now }

def retry (lease : InteractionLeaseFence) (fenceNow now delaySeconds : Int)
    (code : InteractionErrorCode) (s : InteractionStore) :
    Except RepositoryError Unit × InteractionStore :=
  match lockedLease lease fenceNow s with
  | .error error => raised error s
  | .ok (row, job) =>
      if row.effect = .sideEffect ∨ row.replayMode ≠ .reusable then
        (.ok (), (s.putRow (row.withState .failed now)).putJob
          (job.terminalJob now .remoteResultUnknown))
      else
        (.ok (), (s.putRow (row.withState .responseReady now)).putJob
          (retriedJob job delaySeconds now code))

def renew (lease : InteractionLeaseFence) (fenceNow now leaseSeconds : Int)
    (s : InteractionStore) : Except RepositoryError Unit × InteractionStore :=
  if leaseSeconds ≤ 0 then raised (.value "interaction lease duration is invalid") s
  else
    match lockedLease lease fenceNow s with
    | .error error => raised error s
    | .ok (row, job) =>
        (.ok (), s.putJob
          { job with leaseUntil := some (min (now + seconds leaseSeconds) row.expiresAt),
                     updatedAt := now })

end InteractionRepository

end MultiRag.McpInteractions
