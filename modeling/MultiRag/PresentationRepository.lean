/-
  **Presentation, callback and delivery state** (`InteractionPresentationRepository` of
  `api/channel_execution/interaction_presentations.py`).

  As in `InteractionRepository`, a function gives what it returned or raised and the store as its
  session has it. `newId` is `uuid4().hex`, `deliveryToken` and `actionNonce` the two
  `token_urlsafe` texts, `locked` the rows other transactions hold, and every `now` one reading of
  the database clock.
-/
import Mathlib.Algebra.Ring.Int.Defs
import MultiRag.PresentationContracts

namespace MultiRag.ChannelExecution

open McpInteractions

structure InteractionForms where
  build (interactionId : String) (revision : Nat) (inputRequests : List (String × Json)) :
    Except RepositoryError (Json × List (String × Json))
  decode (mapping : List (String × Json)) (action : CallbackAction)
    (formValue : List (String × Json)) : Except RepositoryError (List (String × Json))

structure InteractionPresentationRepository where
  cipher : InteractionPayloadCipher
  sha256 : String → String
  isPrintable : Char → Bool
  forms : InteractionForms

def refuse {α : Type} (code : InteractionPresentationErrorCode) (s : ChannelStore) :
    Except PresentationError α × ChannelStore :=
  (.error (.presentation code), s)

def propagate {α : Type} (error : RepositoryError) (s : ChannelStore) :
    Except PresentationError α × ChannelStore :=
  (.error (.repository error), s)

/-! ### Rows -/

namespace ChannelStore

def putInteraction (s : ChannelStore) (row : McpInteraction) : ChannelStore :=
  { s with interactions := s.interactions.put row }

def putPresentation (s : ChannelStore) (row : McpInteractionPresentation) : ChannelStore :=
  { s with presentations := s.presentations.put row }

def putReceipt (s : ChannelStore) (row : McpInteractionCallbackReceipt) : ChannelStore :=
  { s with receipts := s.receipts.put row }

def presentationOfRound (s : ChannelStore) (interactionId : String) (revision : Nat) :
    Option McpInteractionPresentation :=
  s.presentations.rows.find? (fun row =>
    row.interactionId == interactionId && row.revision == revision)

def receiptOfEvent (s : ChannelStore) (bindingId eventDigest : String) :
    Option McpInteractionCallbackReceipt :=
  s.receipts.rows.find? (fun row => row.bindingId == bindingId && row.eventDigest == eventDigest)

def insertPresentation (s : ChannelStore) (row : McpInteractionPresentation) :
    Except RepositoryError ChannelStore :=
  if (s.presentationOfRound row.interactionId row.revision).isSome then
    .error (.integrity "uq_mcp_interaction_presentations_round")
  else if s.presentations.rows.any (fun other =>
      other.bindingId == row.bindingId && other.sourceEventDigest == row.sourceEventDigest) then
    .error (.integrity "uq_mcp_interaction_presentations_source_event")
  else
    match s.presentations.insert? row with
    | none => .error (.integrity "t_ai_mcp_interaction_presentations_pkey")
    | some presentations => .ok { s with presentations := presentations }

def insertReceipt (s : ChannelStore) (row : McpInteractionCallbackReceipt) :
    Except RepositoryError ChannelStore :=
  if (s.receiptOfEvent row.bindingId row.eventDigest).isSome then
    .error (.integrity "uq_mcp_interaction_callback_receipts_event")
  else
    match s.receipts.insert? row with
    | none => .error (.integrity "t_ai_mcp_interaction_callback_receipts_pkey")
    | some receipts => .ok { s with receipts := receipts }

end ChannelStore

namespace McpInteractionPresentation

def terminalize (row : McpInteractionPresentation) (state : InteractionState) (now : Int)
    (completedResult : Option TerminalResult) : McpInteractionPresentation :=
  { row with
    responseState := .terminal
    deliveryKind := .terminal
    deliveryState := .pending
    deliveryProjection := terminalProjection state completedResult
    deliveryLeaseOwner := none
    deliveryLeaseUntil := none
    deliveryTokenDigest := none
    deliveryNextAttemptAt := none
    nonceDigest := none
    safeErrorCode :=
      if state = .completed ∨ state = .declined ∨ state = .cancelled then none
      else some ("INTERACTION_" ++ state.value.toUpper)
    updatedAt := now }

def reopen (row : McpInteractionPresentation) (code : String) (now : Int) :
    McpInteractionPresentation :=
  { row with
    responseState := .open
    deliveryKind := .form
    deliveryState := .pending
    deliveryLeaseOwner := none
    deliveryLeaseUntil := none
    deliveryTokenDigest := none
    deliveryNextAttemptAt := none
    nonceDigest := none
    safeErrorCode := some code
    updatedAt := now }

/-- The end of the form in `reject_callback`. -/
def rejectedTerminal (row : McpInteractionPresentation) (code : String) (now : Int) :
    McpInteractionPresentation :=
  { row with
    responseState := .terminal
    deliveryKind := .terminal
    deliveryProjection := terminalProjection .failed none
    deliveryState := .pending
    deliveryLeaseOwner := none
    deliveryLeaseUntil := none
    deliveryTokenDigest := none
    deliveryNextAttemptAt := none
    nonceDigest := none
    safeErrorCode := some code
    updatedAt := now }

end McpInteractionPresentation

def McpInteractionCallbackReceipt.reject (receipt : McpInteractionCallbackReceipt) (code : String)
    (now : Int) : McpInteractionCallbackReceipt :=
  { receipt with
    state := .rejected
    leaseOwner := none
    leaseUntil := none
    safeErrorCode := some code
    updatedAt := now }

def McpInteractionCallbackReceipt.claim (receipt : McpInteractionCallbackReceipt) (now : Int) :
    McpInteractionCallbackReceipt :=
  { receipt with state := .claimed, leaseOwner := none, leaseUntil := none, updatedAt := now }

def McpInteractionCallbackReceipt.putBack (receipt : McpInteractionCallbackReceipt) (code : String)
    (delaySeconds now : Int) : McpInteractionCallbackReceipt :=
  { receipt with
    state := .received
    leaseOwner := none
    leaseUntil := none
    safeErrorCode := some code
    nextAttemptAt := some (now + seconds delaySeconds)
    updatedAt := now }

def McpInteractionCallbackReceipt.extend (receipt : McpInteractionCallbackReceipt)
    (leaseSeconds now : Int) : McpInteractionCallbackReceipt :=
  { receipt with leaseUntil := some (now + seconds leaseSeconds), updatedAt := now }

namespace InteractionPresentationRepository

variable (repository : InteractionPresentationRepository)

/-! ### Opening a presentation -/

/-- `_linked_provider_account` on the rows its query found. -/
def linkedProviderAccount (context : TrustedChannelContext) (links : List LinkedChannel) :
    Option String :=
  match links with
  | [link] =>
      if link.bindingGeneration ≠ context.bindingGeneration ∨ link.bindingEnabled = false ∨
          link.channelStatus ≠ 1 ∨ link.channelTenantId ≠ context.tenantId ∨
          link.channelProvider ≠ context.provider ∨ link.linkTenantId ≠ context.tenantId ∨
          link.linkProvider ≠ context.provider then none
      else some link.providerAccountId
  | _ => none

def formPayload (entropy : String) (interaction : McpInteraction) :
    Except PresentationError (Json × EncryptedInteractionPayload) :=
  match repository.cipher.decrypt interaction.tenantId interaction.id interaction.revision
      "input_requests" interaction.inputRequests with
  | .error error => .error (.repository error)
  | .ok (.obj inputRequests) =>
      if interactionSchemaDigest repository.sha256 inputRequests ≠ interaction.schemaDigest then
        .error (.presentation .payloadInvalid)
      else
        match repository.forms.build interaction.id interaction.revision inputRequests with
        | .error (.state _) => .error (.presentation .payloadInvalid)
        | .error error => .error (.repository error)
        | .ok (projection, mapping) =>
            match repository.cipher.encrypt entropy interaction.tenantId interaction.id
                interaction.revision "form_mapping" (.obj mapping) with
            | .error error => .error (.repository error)
            | .ok encrypted => .ok (projection, encrypted)
  | .ok _ => .error (.presentation .payloadInvalid)

def newPresentation (newId bindingId : String) (bindingGeneration : Nat)
    (provider providerAccountId sourceEventDigest conversationRef presentationRef : String)
    (form : Json × EncryptedInteractionPayload) (interaction : McpInteraction) (now : Int) :
    McpInteractionPresentation where
  id := newId
  interactionId := interaction.id
  tenantId := interaction.tenantId
  revision := interaction.revision
  bindingId := bindingId
  bindingGeneration := bindingGeneration
  provider := provider
  providerAccountId := providerAccountId
  sourceEventDigest := sourceEventDigest
  conversationRef := conversationRef
  presentationRef := presentationRef
  expiresAt := interaction.expiresAt
  responseState := .open
  deliveryKind := .form
  deliveryState := .pending
  deliveryProjection := form.1
  formMapping := some form.2
  nonceDigest := none
  deliveryTokenDigest := none
  deliveryLeaseOwner := none
  deliveryLeaseUntil := none
  deliveryAttempt := 0
  deliveryNextAttemptAt := none
  safeErrorCode := none
  createdAt := now
  updatedAt := now

def register (newId entropy : String) (now : Int) (context : TrustedChannelContext)
    (links : List LinkedChannel) (interactionId : String) (revision : Nat)
    (sourceEventId conversationRef presentationRef : String) (s : ChannelStore) :
    Except PresentationError InteractionRequiredNotice × ChannelStore :=
  match context.principal with
  | none => refuse .bindingMismatch s
  | some principal =>
      if context.provider ≠ "feishu" ∨ isBlank sourceEventId ∨ isBlank conversationRef ∨
          isBlank presentationRef then refuse .bindingMismatch s
      else if 255 < sourceEventId.length ∨ 255 < conversationRef.length ∨
          255 < presentationRef.length then refuse .payloadInvalid s
      else
        match s.lockedInteraction interactionId context.tenantId with
        | none => refuse .notFound s
        | some row =>
            if row.revision ≠ revision ∨ row.state ≠ .awaitingInput ∨
                row.platformUserId ≠ principal.platformUserId ∨
                row.externalIdentityId ≠ principal.externalIdentityId then
              refuse .stateConflict s
            else if row.expiresAt ≤ now then
              refuse .expired (s.putInteraction (row.withState .expired now))
            else
              match linkedProviderAccount context links with
              | none => refuse .bindingMismatch s
              | some providerAccountId =>
                  let sourceDigest := digest repository.sha256 "source-event"
                    [.str context.bindingId, .str sourceEventId]
                  match s.presentationOfRound interactionId revision with
                  | some existing =>
                      if existing.bindingId ≠ context.bindingId ∨
                          existing.bindingGeneration ≠ context.bindingGeneration ∨
                          existing.provider ≠ context.provider ∨
                          existing.providerAccountId ≠ providerAccountId ∨
                          existing.sourceEventDigest ≠ sourceDigest ∨
                          existing.conversationRef ≠ conversationRef ∨
                          existing.presentationRef ≠ presentationRef then refuse .stateConflict s
                      else (.ok ⟨existing.interactionId, existing.revision, existing.expiresAt⟩, s)
                  | none =>
                      match repository.formPayload entropy row with
                      | .error error => (.error error, s)
                      | .ok form =>
                          if row.provider.any (fun provider => provider ≠ context.provider) ∨
                              row.presentationRef.any (fun ref => ref ≠ presentationRef) then
                            refuse .stateConflict s
                          else
                            match s.insertPresentation (newPresentation newId context.bindingId
                                context.bindingGeneration context.provider providerAccountId
                                sourceDigest conversationRef presentationRef form row now) with
                            | .error error => propagate error s
                            | .ok s' =>
                                (.ok ⟨row.id, row.revision, row.expiresAt⟩,
                                  s'.putInteraction { row with
                                    provider := some context.provider
                                    presentationRef := some presentationRef
                                    updatedAt := now })

/-! ### Delivering it -/

/-- The `WHERE` clause of `claim_delivery`. -/
def deliverable (bindingId : String) (bindingGeneration : Nat) (candidateNow : Int)
    (actionId : Option String) (revision : Option Nat) (row : McpInteractionPresentation) : Bool :=
  row.bindingId == bindingId && row.bindingGeneration == bindingGeneration &&
    ((row.deliveryState == .pending &&
        row.deliveryNextAttemptAt.all (fun at_ => at_ ≤ candidateNow)) ||
      (row.deliveryState == .leased &&
        row.deliveryLeaseUntil.any (fun until_ => until_ ≤ candidateNow))) &&
    actionId.all (fun id => row.interactionId == id) &&
    revision.all (fun revision => row.revision == revision)

def leasedDelivery (row : McpInteractionPresentation) (owner deliveryToken : String)
    (actionNonce : Option String) (leaseSeconds now : Int) : McpInteractionPresentation :=
  { row with
    nonceDigest := actionNonce.map (tokenDigest repository.sha256 "action-nonce")
    deliveryState := .leased
    deliveryLeaseOwner := some owner
    deliveryLeaseUntil := some (now + seconds leaseSeconds)
    deliveryTokenDigest := some (tokenDigest repository.sha256 "delivery-token" deliveryToken)
    deliveryAttempt := row.deliveryAttempt + 1
    updatedAt := now }

def interactionDelivery (row : McpInteractionPresentation) (deliveryToken : String)
    (actionNonce : Option String) : InteractionDelivery where
  deliveryId := row.id
  deliveryToken := deliveryToken
  actionId := row.interactionId
  revision := row.revision
  kind := row.deliveryKind
  presentationRef := row.presentationRef
  projection := row.deliveryProjection
  actionNonce := actionNonce
  expiresAt := row.expiresAt
  safeErrorCode := row.safeErrorCode

/-- The lease and its envelope, for a presentation that is not expired any more or
    was just terminalised. -/
def issueDelivery (owner deliveryToken actionNonce : String) (leaseSeconds now : Int)
    (row : McpInteractionPresentation) (s : ChannelStore) :
    Except PresentationError (Option InteractionDelivery) × ChannelStore :=
  if row.deliveryKind = .form ∧ row.responseState ≠ .open then refuse .stateConflict s
  else
    let nonce := if row.deliveryKind = .form then some actionNonce else none
    (.ok (some (interactionDelivery row deliveryToken nonce)),
      s.putPresentation (repository.leasedDelivery row owner deliveryToken nonce leaseSeconds now))

def selectDelivery (bindingId : String) (bindingGeneration : Nat) (candidateNow : Int)
    (actionId : Option String) (revision : Option Nat) (locked : List String) (s : ChannelStore) :
    Option McpInteractionPresentation :=
  (s.presentations.selectOrdered (fun row =>
    deliverable bindingId bindingGeneration candidateNow actionId revision row &&
      !locked.contains row.id) (fun a b => a.createdAt ≤ b.createdAt) 1).head?

def claimDelivery (deliveryToken actionNonce bindingId : String) (bindingGeneration : Nat)
    (owner : String) (leaseSeconds : Int) (actionId : Option String) (revision : Option Nat)
    (locked : List String) (candidateNow now : Int) (s : ChannelStore) :
    Except PresentationError (Option InteractionDelivery) × ChannelStore :=
  if isBlank owner ∨ 64 < owner.length ∨ bindingGeneration < 1 ∨ leaseSeconds < 1 then
    propagate (.value "interaction delivery lease is invalid") s
  else
    match selectDelivery bindingId bindingGeneration candidateNow actionId revision locked s with
    | none => (.ok none, s)
    | some row =>
        match s.lockedInteraction row.interactionId row.tenantId with
        | none =>
            -- the lease columns are left set, which the table refuses
            if row.deliveryState = .leased then
              propagate (.integrity "ck_mcp_interaction_presentations_delivery_lease") s
            else
              (.ok none, s.putPresentation { row with
                deliveryState := .failed
                safeErrorCode := some InteractionPresentationErrorCode.notFound.value
                updatedAt := now })
        | some interaction =>
            if row.deliveryKind = .form ∧ row.expiresAt ≤ now then
              repository.issueDelivery owner deliveryToken actionNonce leaseSeconds now
                (row.terminalize .expired now none)
                (s.putInteraction (interaction.withState .expired now))
            else repository.issueDelivery owner deliveryToken actionNonce leaseSeconds now row s

def deliveryConflict (row : McpInteractionPresentation) (owner deliveryToken : String)
    (now : Int) : Bool :=
  row.deliveryState != .leased || row.deliveryLeaseOwner != some owner ||
    row.deliveryLeaseUntil.all (fun until_ => until_ ≤ now) ||
    row.deliveryTokenDigest != some (tokenDigest repository.sha256 "delivery-token" deliveryToken)

def acknowledged (row : McpInteractionPresentation) (success : Bool) (safeErrorCode : Option String)
    (now : Int) : McpInteractionPresentation :=
  let released : McpInteractionPresentation :=
    { row with
      deliveryLeaseOwner := none, deliveryLeaseUntil := none, deliveryTokenDigest := none,
      updatedAt := now }
  if success then
    { released with
      deliveryState := .delivered, deliveryNextAttemptAt := none, safeErrorCode := none }
  else if 5 ≤ row.deliveryAttempt then
    { released with
      deliveryState := .failed
      safeErrorCode := some (safeErrorCode.getD "CHANNEL_INTERACTION_DELIVERY_FAILED") }
  else
    { released with
      deliveryState := .pending
      deliveryNextAttemptAt := some (now + seconds (min 60 (2 ^ row.deliveryAttempt)))
      safeErrorCode := some (safeErrorCode.getD "CHANNEL_INTERACTION_DELIVERY_RETRY") }

def acknowledgeDelivery (bindingId : String) (bindingGeneration : Nat)
    (deliveryId owner deliveryToken : String) (success : Bool) (safeErrorCode : Option String)
    (now : Int) (s : ChannelStore) : Except PresentationError Unit × ChannelStore :=
  if safeErrorCode.any (fun code => !safeCode code) then
    propagate (.value "safe delivery error code is invalid") s
  else
    match (s.presentations.get? deliveryId).filter (fun row =>
        row.bindingId == bindingId && row.bindingGeneration == bindingGeneration) with
    | none => refuse .deliveryConflict s
    | some row =>
        if repository.deliveryConflict row owner deliveryToken now then refuse .deliveryConflict s
        else (.ok (), s.putPresentation (acknowledged row success safeErrorCode now))

def newReceipt (newId eventDigest payloadDigest : String) (encrypted : EncryptedInteractionPayload)
    (row : McpInteractionPresentation) (now : Int) : McpInteractionCallbackReceipt where
  id := newId
  presentationId := row.id
  bindingId := row.bindingId
  eventDigest := eventDigest
  payloadDigest := payloadDigest
  payload := encrypted
  state := .received
  leaseOwner := none
  leaseUntil := none
  attempt := 0
  nextAttemptAt := none
  safeErrorCode := none
  createdAt := now
  updatedAt := now

def receiveNew (newId entropy eventDigest payloadDigest : String) (now : Int)
    (payload : InteractionCallbackPayload) (row : McpInteractionPresentation) (s : ChannelStore) :
    Except PresentationError CallbackReceiptStatus × ChannelStore :=
  if row.expiresAt ≤ now then
    let s' :=
      match s.lockedInteraction row.interactionId row.tenantId with
      | none => s
      | some interaction => s.putInteraction (interaction.withState .expired now)
    refuse .expired (s'.putPresentation (row.terminalize .expired now none))
  else if row.responseState ≠ .open ∨ row.deliveryKind ≠ .form ∨ row.deliveryState ≠ .delivered ∨
      row.nonceDigest ≠ some (tokenDigest repository.sha256 "action-nonce" payload.nonce) then
    refuse .stateConflict s
  else
    match repository.cipher.encrypt entropy row.tenantId row.interactionId row.revision
        "channel_callback" payload.toJson with
    | .error error => propagate error s
    | .ok encrypted =>
        match s.insertReceipt (newReceipt newId eventDigest payloadDigest encrypted row now) with
        | .error error => propagate error s
        | .ok s' =>
            (.ok .accepted, s'.putPresentation { row with
              responseState := .received, nonceDigest := none, updatedAt := now })

def receiveCallback (newId entropy bindingId : String) (bindingGeneration : Nat) (actionId : String)
    (revision : Nat) (payload : InteractionCallbackPayload) (now : Int) (s : ChannelStore) :
    Except PresentationError CallbackReceiptStatus × ChannelStore :=
  match (s.presentationOfRound actionId revision).filter (fun row =>
      row.bindingId == bindingId && row.bindingGeneration == bindingGeneration) with
  | none => refuse .notFound s
  | some row =>
      if payload.actor.provider ≠ row.provider ∨
          payload.actor.conversation ≠ row.conversationRef ∨
          payload.messageId ≠ row.presentationRef then refuse .bindingMismatch s
      else
        let eventDigest := digest repository.sha256 "callback-event"
          [.str bindingId, .str payload.eventId]
        let payloadDigest := digest repository.sha256 "callback-payload" [payload.toJson]
        match s.receiptOfEvent bindingId eventDigest with
        | some existing =>
            if existing.presentationId ≠ row.id ∨ existing.payloadDigest ≠ payloadDigest then
              refuse .stateConflict s
            else (.ok .duplicate, s)
        | none => repository.receiveNew newId entropy eventDigest payloadDigest now payload row s

/-! ### Processing an answer -/

def dueReceipt (candidateNow : Int) (receipt : McpInteractionCallbackReceipt) : Bool :=
  (receipt.state == .received && receipt.nextAttemptAt.all (fun at_ => at_ ≤ candidateNow)) ||
    (receipt.state == .leased && receipt.leaseUntil.any (fun until_ => until_ ≤ candidateNow))

def decryptMapping (row : McpInteractionPresentation) :
    Except PresentationError (List (String × Json)) :=
  match row.formMapping with
  | none => .error (.presentation .payloadInvalid)
  | some encrypted =>
      match repository.cipher.decrypt row.tenantId row.interactionId row.revision "form_mapping"
          encrypted with
      | .error error => .error (.repository error)
      | .ok (.obj mapping) => .ok mapping
      | .ok _ => .error (.presentation .payloadInvalid)

/-- The `try` block of `lease_callback`: the stored callback and its responses. -/
def decodeCallback (row : McpInteractionPresentation) (receipt : McpInteractionCallbackReceipt) :
    Except PresentationError (InteractionCallbackPayload × List (String × Json)) :=
  match repository.cipher.decrypt row.tenantId row.interactionId row.revision "channel_callback"
      receipt.payload with
  | .error error => .error (.repository error)
  | .ok payload =>
      match repository.decryptMapping row with
      | .error error => .error error
      | .ok mapping =>
          match callbackOfJson payload with
          | none => .error (.repository (.value "callback payload is invalid"))
          | some callback =>
              match repository.forms.decode mapping callback.action callback.formValue with
              | .error error => .error (.repository error)
              | .ok responses => .ok (callback, responses)

/-- Is the error one of the two `except` clauses of `lease_callback`? -/
def unreadable : PresentationError → Bool
  | .repository (.state _) | .repository (.cipher _) | .repository (.type _)
  | .repository (.value _) => true
  | _ => false

def leasedReceipt (receipt : McpInteractionCallbackReceipt) (owner : String)
    (leaseSeconds now : Int) : McpInteractionCallbackReceipt :=
  { receipt with
    state := .leased
    leaseOwner := some owner
    leaseUntil := some (now + seconds leaseSeconds)
    attempt := receipt.attempt + 1
    updatedAt := now }

def callbackLease (receipt : McpInteractionCallbackReceipt) (owner : String)
    (row : McpInteractionPresentation) (callback : InteractionCallbackPayload)
    (responses : List (String × Json)) : CallbackLease where
  receiptId := receipt.id
  owner := owner
  attempt := receipt.attempt + 1
  presentationId := row.id
  bindingId := row.bindingId
  bindingGeneration := row.bindingGeneration
  providerAccountId := row.providerAccountId
  interactionId := row.interactionId
  revision := row.revision
  actor := callback.actor
  action := callback.action
  inputResponses := responses
  idempotencyKey := receipt.eventDigest

def failedPayload (row : McpInteractionPresentation) (now : Int) : McpInteractionPresentation :=
  { row.terminalize .failed now none with
    safeErrorCode := some InteractionPresentationErrorCode.payloadInvalid.value }

def leaseReceipt (owner : String) (leaseSeconds now : Int) (receipt : McpInteractionCallbackReceipt)
    (row : McpInteractionPresentation) (s : ChannelStore) :
    Except PresentationError (Option CallbackLease) × ChannelStore :=
  match repository.decodeCallback row receipt with
  | .ok (callback, responses) =>
      (.ok (some (callbackLease receipt owner row callback responses)),
        s.putReceipt (leasedReceipt receipt owner leaseSeconds now))
  | .error (.repository (.state .responseInvalid)) =>
      let code := InteractionErrorCode.responseInvalid.value
      (.ok none, (s.putReceipt { receipt.reject code now with nextAttemptAt := none }).putPresentation
        (row.reopen code now))
  | .error error =>
      if unreadable error then
        (.ok none, (s.putReceipt
          (receipt.reject InteractionPresentationErrorCode.payloadInvalid.value now)).putPresentation
          (failedPayload row now))
      else (.error error, s)

def selectReceipt (locked : List String) (candidateNow : Int) (s : ChannelStore) :
    Option McpInteractionCallbackReceipt :=
  (s.receipts.selectOrdered (fun receipt =>
    dueReceipt candidateNow receipt && !locked.contains receipt.id)
    (fun a b => a.createdAt ≤ b.createdAt) 1).head?

def leaseCallback (owner : String) (leaseSeconds : Int) (locked : List String)
    (candidateNow now : Int) (s : ChannelStore) :
    Except PresentationError (Option CallbackLease) × ChannelStore :=
  if isBlank owner ∨ 64 < owner.length ∨ leaseSeconds < 1 then
    propagate (.value "callback lease is invalid") s
  else
    match selectReceipt locked candidateNow s with
    | none => (.ok none, s)
    | some receipt =>
        match (s.presentations.get? receipt.presentationId).filter (fun row =>
            row.responseState == .received) with
        | none =>
            (.ok none, s.putReceipt
              (receipt.reject InteractionPresentationErrorCode.stateConflict.value now))
        | some row => repository.leaseReceipt owner leaseSeconds now receipt row s

def lockedCallback (lease : CallbackLease) (now : Int) (s : ChannelStore) :
    Option (McpInteractionCallbackReceipt × McpInteractionPresentation) :=
  match s.receipts.get? lease.receiptId with
  | none => none
  | some receipt =>
      if receipt.state ≠ .leased ∨ receipt.presentationId ≠ lease.presentationId ∨
          receipt.leaseOwner ≠ some lease.owner ∨ receipt.attempt ≠ lease.attempt ∨
          receipt.leaseUntil.all (fun until_ => until_ ≤ now) then none
      else
        match (s.presentations.get? lease.presentationId).filter (fun row =>
            row.responseState == .received) with
        | none => none
        | some row => some (receipt, row)

def markCallbackClaimed (lease : CallbackLease) (now : Int) (s : ChannelStore) :
    Except PresentationError Unit × ChannelStore :=
  match lockedCallback lease now s with
  | none => refuse .stateConflict s
  | some (receipt, row) =>
      (.ok (), (s.putReceipt (receipt.claim now)).putPresentation
        { row with responseState := .claimed, updatedAt := now })

def rejectCallback (lease : CallbackLease) (code : String) (terminal : Bool) (now : Int)
    (s : ChannelStore) : Except PresentationError Unit × ChannelStore :=
  if !safeCode code then propagate (.value "callback error code is invalid") s
  else
    match lockedCallback lease now s with
    | none => refuse .stateConflict s
    | some (receipt, row) =>
        (.ok (), (s.putReceipt (receipt.reject code now)).putPresentation
          (if terminal then row.rejectedTerminal code now else row.reopen code now))

def retryCallback (lease : CallbackLease) (code : String) (delaySeconds now : Int)
    (s : ChannelStore) : Except PresentationError Unit × ChannelStore :=
  if safeCode code = false ∨ delaySeconds < 1 then propagate (.value "callback retry is invalid") s
  else
    match lockedCallback lease now s with
    | none => refuse .stateConflict s
    | some (receipt, row) =>
        if 5 ≤ receipt.attempt then
          (.ok (), (s.putReceipt (receipt.reject code now)).putPresentation
            { row.terminalize .failed now none with safeErrorCode := some code })
        else
          (.ok (), s.putReceipt (receipt.putBack code delaySeconds now))

def renewCallback (lease : CallbackLease) (leaseSeconds now : Int) (s : ChannelStore) :
    Except PresentationError Unit × ChannelStore :=
  if leaseSeconds < 1 then propagate (.value "callback lease duration is invalid") s
  else
    match lockedCallback lease now s with
    | none => refuse .stateConflict s
    | some (receipt, _) =>
        (.ok (), s.putReceipt (receipt.extend leaseSeconds now))

/-! ### Reconciliation -/

def completedResult (interaction : McpInteraction) : Option TerminalResult :=
  match interaction.result with
  | none => none
  | some encrypted =>
      match repository.cipher.decrypt interaction.tenantId interaction.id interaction.revision
          "result" encrypted with
      | .error _ => none
      | .ok result => decodeTerminalResult repository.isPrintable result

def terminalInteraction (state : InteractionState) : Bool :=
  decide (state ∈ [InteractionState.completed, .declined, .cancelled, .expired, .failed])

def presentNextRound (newId entropy : String) (now : Int) (row : McpInteractionPresentation)
    (interaction : McpInteraction) (s : ChannelStore) : Except PresentationError ChannelStore :=
  match s.presentationOfRound interaction.id interaction.revision with
  | some _ => .ok s
  | none =>
      match repository.formPayload entropy interaction with
      | .error error => .error error
      | .ok form =>
          match s.insertPresentation (newPresentation newId row.bindingId row.bindingGeneration
              row.provider row.providerAccountId
              (digest repository.sha256 "round"
                [.str interaction.id, .int interaction.revision])
              row.conversationRef row.presentationRef form interaction now) with
          | .error error => .error (.repository error)
          | .ok s' => .ok s'

/-- The body of the loop of `reconcile`: how many rows changed. -/
def reconcileOne (newId entropy : String) (now : Int) (row : McpInteractionPresentation)
    (s : ChannelStore) : Except PresentationError Nat × ChannelStore :=
  match s.lockedInteraction row.interactionId row.tenantId with
  | none =>
      (.ok 1, s.putPresentation { row.terminalize .failed now none with
        safeErrorCode := some InteractionPresentationErrorCode.notFound.value })
  | some interaction =>
      if interaction.state = .awaitingInput ∧ interaction.expiresAt ≤ now ∧
          interaction.revision = row.revision then
        (.ok 1, (s.putInteraction (interaction.withState .expired now)).putPresentation
          (row.terminalize .expired now none))
      else if row.revision < interaction.revision ∧ interaction.state = .awaitingInput ∧
          row.responseState = .claimed then
        match repository.presentNextRound newId entropy now row interaction s with
        | .error error => (.error error, s)
        | .ok s' =>
            (.ok 1, s'.putPresentation { row with responseState := .terminal, updatedAt := now })
      else if interaction.revision = row.revision ∧ terminalInteraction interaction.state then
        (.ok 1, s.putPresentation (row.terminalize interaction.state now
          (if interaction.state = .completed then repository.completedResult interaction
            else none)))
      else (.ok 0, s)

/-- The loop of `reconcile`; the identifiers are used up one a presentation. -/
def reconcileAll (now : Int) :
    List (String × String) → List McpInteractionPresentation → ChannelStore →
      Except PresentationError Nat × ChannelStore
  | _, [], s => (.ok 0, s)
  | ids, row :: rows, s =>
      let (newId, entropy) := ids.headD ("", "")
      match repository.reconcileOne newId entropy now row s with
      | (.error error, s') => (.error error, s')
      | (.ok changed, s') =>
          match reconcileAll now ids.tail rows s' with
          | (.error error, s'') => (.error error, s'')
          | (.ok rest, s'') => (.ok (changed + rest), s'')

def reconcile (ids : List (String × String)) (limit : Nat) (locked : List String) (now : Int)
    (s : ChannelStore) : Except PresentationError Nat × ChannelStore :=
  repository.reconcileAll now ids
    (s.presentations.selectOrdered (fun row => row.responseState != .terminal &&
      !locked.contains row.id) (fun a b => a.updatedAt ≤ b.updatedAt) limit) s

end InteractionPresentationRepository

end MultiRag.ChannelExecution
