/-
  **One transaction for each directory event** (`SqlAlchemyDirectoryEventRepository` of
  `api/identity/directory_event_repository.py`).

  `process` finds the channel of the binding without a lock, and does the rest in one transaction.
  `channelId` is what the first, non-locking read returned, `newId` is `uuid4().hex` and `now` the
  reading of the database clock.
-/
import MultiRag.DirectoryEventContracts
import MultiRag.ReconciliationRepository

namespace MultiRag.DirectoryEvents

open IdentityReconciliation (ExternalIdentityState IdentityProviderHealthState ProviderContext
  Tenant validStatus)

variable (s : DirectoryStore) (command : CommandFields) (channel : ChatChannel)

def lockBinding : Except DirectoryEventErrorCode Unit :=
  match s.authority.bindings.get? command.bindingId with
  | none => .error .bindingNotFound
  | some binding =>
      if binding.channelId ≠ channel.id then .error .bindingNotFound
      else if binding.enabled = false ∨ binding.generation ≠ command.bindingGeneration then
        .error .bindingDisabled
      else .ok ()

def accountLinks : List (IdentityProviderAccount × IdentityProviderChannelLink) :=
  (s.authority.links.select (fun link => link.channelId == channel.id)).flatMap (fun link =>
    (s.accounts.select (fun account =>
      link.providerAccountId == account.id && link.tenantId == account.tenantId &&
        link.provider == account.provider)).map (fun account => (account, link)))

def authorityInvalid (account : IdentityProviderAccount) (link : IdentityProviderChannelLink) :
    Bool :=
  !(s.authority.providerTenants.rows.any (fun item =>
      item.tenantId == channel.tenantId && item.provider == channel.channel &&
        item.providerTenantKey == account.providerTenantKey &&
        item.providerTenantKey == command.observedTenantKey)) ||
    account.tenantId != channel.tenantId || account.provider != channel.channel ||
    account.providerTenantKey != command.observedTenantKey ||
    account.providerAccountKey != command.observedAppId || link.tenantId != channel.tenantId ||
    link.provider != channel.channel || link.channelId != channel.id ||
    link.providerAccountId != account.id || decide (account.identityRevision < 1) ||
    account.identityHealthState == .disabled

def lockAuthority (channelId : String) :
    Except DirectoryEventErrorCode (Option IdentityProviderAccount) :=
  match s.authority.channels.get? channelId with
  | none => .error .bindingNotFound
  | some channel =>
      if channel.status ≠ 1 ∨ channel.channel ≠ "feishu" then .error .authorityInvalid
      else if (s.authority.tenants.get? channel.tenantId).all
          (fun tenant => tenant.status != validStatus) then .error .authorityInvalid
      else
        match accountLinks s channel with
        | [] =>
            if (s.authority.links.select (fun link => link.channelId == channel.id)).isEmpty then
              (lockBinding s command channel).map (fun _ => none)
            else .error .authorityInvalid
        | [(account, link)] =>
            match lockBinding s command channel with
            | .error error => .error error
            | .ok () =>
                if authorityInvalid s command channel account link then .error .authorityInvalid
                else .ok (some account)
        | _ => .error .authorityInvalid

/-! ### Receipts -/

structure ReceiptKey where
  tenantId : String
  provider : String
  providerTenantKey : String
  providerAccountKey : String
  eventType : String
  eventId : String
deriving DecidableEq

def IdentityEventReceipt.key (receipt : IdentityEventReceipt) : ReceiptKey :=
  ⟨receipt.tenantId, receipt.provider, receipt.providerTenantKey, receipt.providerAccountKey,
    receipt.eventType, receipt.eventId⟩

def receiptKey (account : IdentityProviderAccount) (command : CommandFields) : ReceiptKey :=
  ⟨account.tenantId, account.provider, account.providerTenantKey, account.providerAccountKey,
    command.eventType.value, command.eventId⟩

def DirectoryStore.receiptOf (s : DirectoryStore) (key : ReceiptKey) :
    Option IdentityEventReceipt :=
  s.receipts.rows.find? (fun receipt => receipt.key == key)

def newReceipt (newId : String) (account : IdentityProviderAccount) (command : CommandFields)
    (eventHash : String) : IdentityEventReceipt where
  id := newId
  tenantId := account.tenantId
  provider := account.provider
  providerTenantKey := account.providerTenantKey
  providerAccountKey := account.providerAccountKey
  eventType := command.eventType.value
  eventId := command.eventId
  eventHash := eventHash
  processingState := .processing
  eventAt := some command.eventAt
  processedAt := none
  errorCode := none
  externalIdentityId := none

def claimReceipt (s : DirectoryStore) (command : CommandFields) (account : IdentityProviderAccount)
    (newId eventHash : String) :
    Except DirectoryEventErrorCode (IdentityEventReceipt × Bool × DirectoryStore) :=
  match s.receiptOf (receiptKey account command) with
  | some receipt => .ok (receipt, false, s)
  | none =>
      let receipt := newReceipt newId account command eventHash
      match s.receipts.insert? receipt with
      | none => .error .repositoryUnavailable
      | some receipts => .ok (receipt, true, { s with receipts := receipts })

def providerContext (account : IdentityProviderAccount) (revision : Nat)
    (lastScopeChangeAt : Option Int) : ProviderContext where
  tenantId := account.tenantId
  provider := account.provider
  providerTenantKey := account.providerTenantKey
  providerAccountId := account.id
  providerAccountKey := account.providerAccountKey
  providerAccountRevision := revision
  providerAccountLastScopeChangeAt := lastScopeChangeAt

def IdentityProviderAccount.context (account : IdentityProviderAccount) : ProviderContext :=
  providerContext account account.identityRevision account.lastScopeChangeAt

def existingReceiptResult (receipt : IdentityEventReceipt) (eventHash : String)
    (account : IdentityProviderAccount) : DirectoryEventProcessingResult :=
  let failed (code : DirectoryEventErrorCode) : DirectoryEventProcessingResult :=
    ⟨.failed, some account.context, false, some code⟩
  if receipt.eventHash ≠ eventHash then failed .replayConflict
  else
    match receipt.processingState with
    | .succeeded => ⟨.duplicate, some account.context, false, none⟩
    | .failed =>
        failed ((DirectoryEventErrorCode.ofValue (receipt.errorCode.getD "")).getD .receiptFailed)
    | .processing => failed .receiptProcessing

def IdentityEventReceipt.finish (receipt : IdentityEventReceipt) (state : ReceiptState)
    (processedAt : Int) (errorCode : Option DirectoryEventErrorCode) : IdentityEventReceipt :=
  { receipt with
    processingState := state
    processedAt := some processedAt
    errorCode := errorCode.map DirectoryEventErrorCode.value }

/-! ### Identities -/

def CommandFields.userId (command : CommandFields) : Option String :=
  (command.identifiers.find? (fun identifier => identifier.kind == .userId)).map
    DirectoryEventIdentifier.value

def aliasIdentityIds (s : DirectoryStore) (command : CommandFields)
    (account : IdentityProviderAccount) : List String :=
  ((s.authority.aliases.select (fun alias_ =>
    alias_.tenantId == account.tenantId && alias_.provider == account.provider &&
      alias_.providerTenantKey == account.providerTenantKey &&
      alias_.providerAccountKey == account.providerAccountKey &&
      command.identifiers.any (fun identifier =>
        (identifier.kind == .openId || identifier.kind == .unionId) &&
          alias_.aliasType == identifier.kind.value && alias_.aliasValue == identifier.value))).map
    ExternalIdentityAlias.externalIdentityId).dedup

def candidateIdentities (s : DirectoryStore) (command : CommandFields)
    (account : IdentityProviderAccount) : List ExternalIdentity :=
  s.identities.select (fun identity =>
    identity.tenantId == account.tenantId && identity.provider == account.provider &&
      identity.providerTenantKey == account.providerTenantKey &&
      ((aliasIdentityIds s command account).contains identity.id ||
        command.userId.any (fun userId =>
          identity.subjectType == ProviderIdentifierKind.userId.value &&
            identity.subjectValue == userId)))

/-- `_lock_external_identity`: the identity and whether the identifiers conflict. -/
def lockExternalIdentity (s : DirectoryStore) (command : CommandFields)
    (account : IdentityProviderAccount) : Option ExternalIdentity × Bool :=
  let aliasIds := aliasIdentityIds s command account
  if aliasIds.isEmpty && command.userId.isNone then (none, false)
  else
    let identities := candidateIdentities s command account
    let candidateIds := (aliasIds ++ identities.map ExternalIdentity.id).dedup
    if 1 < candidateIds.length then (none, true)
    else if candidateIds.isEmpty then (none, false)
    else
      match identities.find? (fun identity => candidateIds.contains identity.id) with
      | none => (none, true)
      | some identity =>
          if command.userId.any (fun userId => identity.subjectValue != userId) then (none, true)
          else (some identity, false)

def laterOf : Option Int → Option Int → Option Int
  | some a, some b => some (max a b)
  | some a, none => some a
  | none, b => b

def DirectoryStore.acceptedEventTimes (s : DirectoryStore) (identity : ExternalIdentity) :
    List Int :=
  (s.receipts.select (fun receipt =>
    receipt.tenantId == identity.tenantId && receipt.externalIdentityId == some identity.id &&
      receipt.processingState == .succeeded)).filterMap IdentityEventReceipt.eventAt

def latestIdentityEventAt (s : DirectoryStore) (identity : ExternalIdentity) : Option Int :=
  laterOf (laterOf identity.verifiedAt identity.lastSeenAt) (s.acceptedEventTimes identity).max?

def tightenTarget (command : CommandFields) (state : ExternalIdentityState) :
    Option ExternalIdentityState :=
  if command.eventType = .userDeleted then
    if state = .revoked ∨ state = .conflict then none else some .revoked
  else if command.eventType = .userUpdated ∧ command.directoryStatus = some .inactive then
    if state = .inactive ∨ state = .revoked ∨ state = .conflict then none else some .inactive
  else none

def tightenIdentity (command : CommandFields) (identity : ExternalIdentity) (s : DirectoryStore) :
    Except DirectoryEventErrorCode DirectoryStore :=
  match tightenTarget command identity.state with
  | none => .ok s
  | some state =>
      match s.identities.get? identity.id with
      | none => .error .repositoryUnavailable
      | some row =>
          if row.identityRevision = identity.identityRevision ∧ row.state = identity.state then
            .ok { s with identities := s.identities.put { row with
              state := state
              identityRevision := row.identityRevision + 1 } }
          else .error .repositoryUnavailable

def IdentityProviderAccount.bump (account : IdentityProviderAccount) (command : CommandFields) :
    IdentityProviderAccount :=
  { account with
    identityRevision := account.identityRevision + 1
    lastDirectoryEventAt := laterOf (some command.eventAt) account.lastDirectoryEventAt
    lastScopeChangeAt :=
      if command.eventType = .scopeUpdated then
        laterOf account.lastScopeChangeAt (some command.eventAt)
      else account.lastScopeChangeAt }

def casBumpAccount (account : IdentityProviderAccount) (command : CommandFields)
    (s : DirectoryStore) : Except DirectoryEventErrorCode DirectoryStore :=
  match s.accounts.get? account.id with
  | none => .error .repositoryUnavailable
  | some row =>
      if row.identityRevision = account.identityRevision then
        .ok { s with accounts := s.accounts.put { row with
          identityRevision := row.identityRevision + 1
          lastDirectoryEventAt := (account.bump command).lastDirectoryEventAt
          lastScopeChangeAt := (account.bump command).lastScopeChangeAt } }
      else .error .repositoryUnavailable

/-! ### The transaction -/

def DirectoryStore.putReceipt (s : DirectoryStore) (receipt : IdentityEventReceipt) :
    DirectoryStore :=
  { s with receipts := s.receipts.put receipt }

def staleResult (account : IdentityProviderAccount) : DirectoryEventProcessingResult :=
  ⟨.stale, some account.context, false, none⟩

def bumpedResult (account : IdentityProviderAccount) (command : CommandFields)
    (outcome : DirectoryEventOutcome) (errorCode : Option DirectoryEventErrorCode) :
    DirectoryEventProcessingResult :=
  ⟨outcome, some (account.bump command).context, true, errorCode⟩

def processClaimed (command : CommandFields) (account : IdentityProviderAccount) (now : Int)
    (receipt : IdentityEventReceipt) (s : DirectoryStore) :
    Except DirectoryEventErrorCode DirectoryEventProcessingResult × DirectoryStore :=
  if command.eventType = .scopeUpdated ∧
      account.lastScopeChangeAt.any (fun last => decide (command.eventAt < last)) then
    (.ok (staleResult account), s.putReceipt (receipt.finish .succeeded now none))
  else
    match lockExternalIdentity s command account with
    | (_, true) =>
        match casBumpAccount account command s with
        | .error error => (.error error, s)
        | .ok s' =>
            (.ok (bumpedResult account command .failed (some .identityConflict)),
              s'.putReceipt (receipt.finish .failed now (some .identityConflict)))
    | (none, false) =>
        match casBumpAccount account command s with
        | .error error => (.error error, s)
        | .ok s' =>
            (.ok (bumpedResult account command .applied none),
              s'.putReceipt (receipt.finish .succeeded now none))
    | (some identity, false) =>
        let named : IdentityEventReceipt := { receipt with externalIdentityId := some identity.id }
        if (latestIdentityEventAt s identity).any (fun latest => decide (command.eventAt < latest)) then
          (.ok (staleResult account), s.putReceipt (named.finish .succeeded now none))
        else
          match tightenIdentity command identity s with
          | .error error => (.error error, s)
          | .ok s' =>
              match casBumpAccount account command s' with
              | .error error => (.error error, s)
              | .ok s'' =>
                  (.ok (bumpedResult account command .applied none),
                    s''.putReceipt (named.finish .succeeded now none))

def maxEventSkew : Int := seconds 300

def processLocked (sha256 : String → String) (command : CommandFields)
    (channelId newId : String) (now : Int) (s : DirectoryStore) :
    Except DirectoryEventErrorCode DirectoryEventProcessingResult × DirectoryStore :=
  match lockAuthority s command channelId with
  | .error error => (.error error, s)
  | .ok none => (.ok ⟨.noLink, none, false, none⟩, s)
  | .ok (some account) =>
      if now + maxEventSkew < command.eventAt then (.error .invalid, s)
      else
        let eventHash := canonicalDirectoryEventHash sha256 command
        match claimReceipt s command account newId eventHash with
        | .error error => (.error error, s)
        | .ok (receipt, false, _) => (.ok (existingReceiptResult receipt eventHash account), s)
        | .ok (receipt, true, s') => processClaimed command account now receipt s'

def process (sha256 : String → String) (command : CommandFields) (channelId : Option String)
    (newId : String) (now : Int) (s : DirectoryStore) :
    Except DirectoryEventErrorCode DirectoryEventProcessingResult × DirectoryStore :=
  match channelId with
  | none => (.error .bindingNotFound, s)
  | some channelId => inTransaction (processLocked sha256 command channelId newId now) s

end MultiRag.DirectoryEvents
