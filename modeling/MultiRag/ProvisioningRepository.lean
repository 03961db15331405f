/-
  **One transaction for each provisioning use case** (`SqlAlchemyIdentityProvisioningRepository`
  of `api/identity/provisioning_repository.py`).

  A session function returns its value and the store it leaves, or the code of the
  `ProvisioningRepositoryError` it raises; `inSession` commits the one and rolls back the other.
  The transactions of one tenant lock its policy row first, those of one account the account row,
  so a transaction is one step. It still reads the database clock twice, because it may have
  waited for its locks in between: `now₁` is the first reading and `now₂` the second.
-/
import MultiRag.ProvisioningContracts

namespace MultiRag.Provisioning

open IdentityReconciliation (ExternalIdentityState IdentityProviderHealthState ProviderContext
  Tenant validStatus)

def inSession {α : Type} (f : ProvisioningStore → Except IdentityErrorCode (α × ProvisioningStore))
    (s : ProvisioningStore) : Except IdentityErrorCode α × ProvisioningStore :=
  match f s with
  | .ok (value, s') => (.ok value, s')
  | .error error => (.error error, s)

variable (s : ProvisioningStore)

def insertUser (user : User) : Except IdentityErrorCode ProvisioningStore :=
  match s.users.insert? user with
  | none => .error .repositoryUnavailable
  | some users => .ok { s with users := users }

def insertMembership (membership : UserTenant) : Except IdentityErrorCode ProvisioningStore :=
  if s.memberships.rows.any (fun row => row.status == validStatus &&
      row.tenantId == membership.tenantId && row.userId == membership.userId) then
    .error .repositoryUnavailable
  else
    match s.memberships.insert? membership with
    | none => .error .repositoryUnavailable
    | some memberships => .ok { s with memberships := memberships }

def ExternalIdentity.subject (identity : ExternalIdentity) :
    String × String × String × String × String :=
  (identity.tenantId, identity.provider, identity.providerTenantKey, identity.subjectType,
    identity.subjectValue)

def ExternalIdentity.slot (identity : ExternalIdentity) :
    String × String × String × String × String :=
  (identity.tenantId, identity.userId, identity.provider, identity.providerTenantKey,
    identity.subjectType)

def insertIdentity (identity : ExternalIdentity) : Except IdentityErrorCode ProvisioningStore :=
  if s.identities.rows.any (fun row =>
      row.subject == identity.subject || row.slot == identity.slot) then
    .error .repositoryUnavailable
  else
    match s.identities.insert? identity with
    | none => .error .repositoryUnavailable
    | some identities => .ok { s with identities := identities }

def ExternalIdentityAlias.key (row : ExternalIdentityAlias) :
    String × String × String × String × ProviderAliasType × String :=
  (row.tenantId, row.provider, row.providerTenantKey, row.providerAccountKey, row.aliasType,
    row.aliasValue)

def insertAlias (row : ExternalIdentityAlias) : Except IdentityErrorCode ProvisioningStore :=
  match s.aliases.insert? row with
  | none => .error .repositoryUnavailable
  | some aliases => .ok { s with aliases := aliases }

def IdentityLinkCode.digest (code : IdentityLinkCode) : String × String :=
  (code.digestKeyId, code.codeDigest)

def insertLinkCode (code : IdentityLinkCode) : Except IdentityErrorCode ProvisioningStore :=
  if s.linkCodes.rows.any (fun row => row.digest == code.digest) then .error .repositoryUnavailable
  else
    match s.linkCodes.insert? code with
    | none => .error .repositoryUnavailable
    | some linkCodes => .ok { s with linkCodes := linkCodes }

def insertEvent (event : IdentityBindingEvent) : Except IdentityErrorCode ProvisioningStore :=
  if s.events.rows.any (fun row => row.externalIdentityId == event.externalIdentityId ||
      (event.linkCodeId.isSome && row.linkCodeId == event.linkCodeId) ||
      (row.requestDigestKeyId == event.requestDigestKeyId &&
        row.requestDigest == event.requestDigest)) then
    .error .repositoryUnavailable
  else
    match s.events.insert? event with
    | none => .error .repositoryUnavailable
    | some events => .ok { s with events := events }

def activeTenant (tenantId : String) : Bool :=
  (s.tenants.get? tenantId).any (fun tenant => tenant.status == validStatus)

def policyForUpdate (tenantId : String) : Option IdentityTenantPolicy :=
  s.policies.rows.find? (fun policy => policy.tenantId == tenantId)

def accountForUpdate (context : ProviderContext) :
    Except IdentityErrorCode IdentityProviderAccount :=
  match s.accounts.get? context.providerAccountId with
  | none => .error .ownershipConflict
  | some account =>
      if account.tenantId ≠ context.tenantId ∨ activeTenant s account.tenantId = false then
        .error .ownershipConflict
      else if account.provider ≠ context.provider ∨
          account.providerTenantKey ≠ context.providerTenantKey ∨
          account.providerAccountKey ≠ context.providerAccountKey then
        .error .ownershipConflict
      else if account.identityRevision ≠ context.providerAccountRevision ∨
          account.lastScopeChangeAt ≠ context.providerAccountLastScopeChangeAt then
        .error .revisionConflict
      else if account.identityHealthState ≠ .healthy then .error .inactive
      else .ok account

def memberRoles : List UserTenantRole := [.owner, .admin, .normal]

def activeUserAndMembership (tenantId userId : String) :
    Except IdentityErrorCode (User × UserTenant) :=
  match s.users.get? userId with
  | none => .error .inactive
  | some user =>
      if user.status = validStatus ∧ user.isActive = true ∧ user.isAnonymous = false then
        match s.memberships.select (fun row =>
            row.userId == userId && row.tenantId == tenantId && row.status == validStatus) with
        | [membership] =>
            if memberRoles.contains membership.role then .ok (user, membership)
            else .error .inactive
        | _ => .error .inactive
      else .error .inactive

def VerifiedProvisioningCommand.names (command : VerifiedProvisioningCommand)
    (code : IdentityLinkCode) : Bool :=
  code.tenantId == command.context.tenantId && code.provider == command.context.provider &&
    code.providerTenantKey == command.context.providerTenantKey &&
    code.providerAccountKey == command.context.providerAccountKey &&
    command.linkCodeKeyId == some code.digestKeyId && command.linkCodeDigest == some code.codeDigest

def peekLinkTarget (command : VerifiedProvisioningCommand) : Except IdentityErrorCode String :=
  match s.linkCodes.rows.find? command.names with
  | none => .error .linkRequired
  | some code => .ok code.targetUserId

def linkGrantForUpdate (command : VerifiedProvisioningCommand)
    (policy : Option IdentityTenantPolicy) (allowConsumed : Bool) (operationNow : Int) :
    Except IdentityErrorCode IdentityLinkCode :=
  match policy with
  | none => .error .linkRequired
  | some policy =>
      if policy.mode ≠ .linkOnly then .error .linkRequired
      else
        match s.linkCodes.rows.find? command.names with
        | none => .error .linkRequired
        | some grant =>
            if ¬ (grant.state = .pending ∨ (allowConsumed = true ∧ grant.state = .consumed)) ∨
                grant.policyRevision ≠ policy.revision ∨
                grant.providerAccountRevision ≠ command.context.providerAccountRevision ∨
                grant.providerAccountLastScopeChangeAt ≠
                  command.context.providerAccountLastScopeChangeAt ∨
                (grant.state = .pending ∧ grant.expiresAt ≤ operationNow) then
              .error .linkRequired
            else .ok grant

def sameLinkBindingEvent (grant : IdentityLinkCode) (command : VerifiedProvisioningCommand)
    (identityId : String) : Bool :=
  (s.events.rows.find? (fun event => event.linkCodeId == some grant.id)).any (fun event =>
    event.externalIdentityId == identityId &&
      event.requestDigestKeyId == command.requestDigestKeyId &&
      event.requestDigest == command.requestDigest)

def reverseSlot (command : VerifiedProvisioningCommand) (userId : String) :
    Option ExternalIdentity :=
  s.identities.rows.find? (fun identity =>
    identity.tenantId == command.context.tenantId && identity.userId == userId &&
      identity.provider == command.context.provider &&
      identity.providerTenantKey == command.context.providerTenantKey &&
      identity.subjectType == "user_id")

def canonicalIdentity (command : VerifiedProvisioningCommand) : Option ExternalIdentity :=
  s.identities.rows.find? (fun identity =>
    identity.tenantId == command.context.tenantId &&
      identity.provider == command.context.provider &&
      identity.providerTenantKey == command.context.providerTenantKey &&
      identity.subjectType == "user_id" && identity.subjectValue == command.subjectValue)

def requirePolicyForAction (command : VerifiedProvisioningCommand)
    (policy : Option IdentityTenantPolicy) : Except IdentityErrorCode ProvisioningMode :=
  match command.action, command.policyRevision, policy with
  | some action, some revision, some policy =>
      if policy.revision ≠ revision ∨ policy.mode ≠ action.mode then .error .policyUnavailable
      else .ok action.mode
  | _, _, _ => .error .policyUnavailable

def maxProviderProofAge : Int := seconds 300

def recheckWriteTime (command : VerifiedProvisioningCommand) (grant : Option IdentityLinkCode)
    (now₂ : Int) : Except IdentityErrorCode Int :=
  if now₂ < command.verifiedAt ∨ command.verifiedAt < now₂ - maxProviderProofAge then
    .error .assertionInvalid
  else if grant.any (fun grant => grant.state == .pending && decide (grant.expiresAt ≤ now₂)) then
    .error .linkRequired
  else .ok now₂

/-! ### Writes -/

def promoteAccountKind (user : User) : UserAccountKind × User :=
  (user.accountKind,
    if user.accountKind = .local then { user with accountKind := .hybrid } else user)

def consumeLinkGrant (grant : IdentityLinkCode) (identityId : String) (consumedAt : Int)
    (s : ProvisioningStore) : Except IdentityErrorCode ProvisioningStore :=
  if grant.state ≠ .pending ∨ grant.expiresAt ≤ consumedAt then .error .linkRequired
  else .ok { s with linkCodes := s.linkCodes.put { grant with
    state := .consumed
    consumedAt := some consumedAt
    consumedExternalIdentityId := some identityId } }

def consumeLink (link : Option IdentityLinkCode) (identityId : String) (consumedAt : Int)
    (s : ProvisioningStore) : Except IdentityErrorCode ProvisioningStore :=
  match link with
  | none => .ok s
  | some grant => consumeLinkGrant grant identityId consumedAt s

def upsertAlias (command : VerifiedProvisioningCommand) (identityId : String) (newId : AliasKey → String)
    (s : ProvisioningStore) (key : AliasKey) : Except IdentityErrorCode ProvisioningStore :=
  match s.aliases.rows.find? (fun row =>
      row.tenantId == command.context.tenantId && row.provider == command.context.provider &&
        row.providerTenantKey == command.context.providerTenantKey &&
        row.providerAccountKey == command.context.providerAccountKey &&
        row.aliasType == key.aliasType && row.aliasValue == key.aliasValue) with
  | none =>
      insertAlias s
        { id := newId key
          tenantId := command.context.tenantId
          externalIdentityId := identityId
          provider := command.context.provider
          providerTenantKey := command.context.providerTenantKey
          providerAccountKey := command.context.providerAccountKey
          aliasType := key.aliasType
          aliasValue := key.aliasValue
          verifiedAt := command.verifiedAt }
  | some existing =>
      if existing.externalIdentityId ≠ identityId then .error .linkConflict
      else if existing.verifiedAt < command.verifiedAt then
        .ok { s with aliases := s.aliases.put { existing with verifiedAt := command.verifiedAt } }
      else .ok s

def upsertAliases (command : VerifiedProvisioningCommand) (identityId : String)
    (newId : AliasKey → String) (s : ProvisioningStore) :
    Except IdentityErrorCode ProvisioningStore :=
  command.aliases.foldlM (upsertAlias command identityId newId) s

def provisionedAttributes (command : VerifiedProvisioningCommand) : List (String × Option String) :=
  [("display_name", if command.jitNickname = "" then none else some command.jitNickname),
    ("provider_status", some "active")]

def activateIdentity (identity : ExternalIdentity) (command : VerifiedProvisioningCommand) :
    ExternalIdentity :=
  { identity with
    state := .active
    verifiedAt := some command.verifiedAt
    lastSeenAt := some command.verifiedAt
    identityRevision := identity.identityRevision + 1
    attributes := provisionedAttributes command }

def appendBindingEvent (command : VerifiedProvisioningCommand) (eventId identityId : String)
    (targetUserId : String) (method : BindingMethod)
    (previousAccountKind : Option UserAccountKind) (resultAccountKind : UserAccountKind)
    (link : Option IdentityLinkCode) (occurredAt : Int) (s : ProvisioningStore) :
    Except IdentityErrorCode ProvisioningStore :=
  match command.policyRevision with
  | none => .error .policyUnavailable
  | some policyRevision =>
      insertEvent s
        { id := eventId
          tenantId := command.context.tenantId
          provider := command.context.provider
          providerTenantKey := command.context.providerTenantKey
          providerAccountKey := command.context.providerAccountKey
          externalIdentityId := identityId
          targetUserId := targetUserId
          actorUserId := if method = .linkCode then some targetUserId else none
          linkCodeId := link.map IdentityLinkCode.id
          bindingMethod := method
          previousAccountKind := previousAccountKind
          resultAccountKind := resultAccountKind
          policyRevision := policyRevision
          providerVerifiedAt := command.verifiedAt
          occurredAt := occurredAt
          requestDigestKeyId := command.requestDigestKeyId
          requestDigest := command.requestDigest }

def jitNickname (value : String) : String :=
  let normalized := pyStrip value
  if normalized = "" then "Enterprise user" else String.ofList (normalized.toList.take 100)

/-! ### Transactions -/

/-- The `uuid4().hex` one provisioning call draws. -/
structure ProvisionIds where
  userId : String
  membershipId : String
  identityId : String
  aliasId : AliasKey → String
  eventId : String

def seenAgain (identity : ExternalIdentity) (command : VerifiedProvisioningCommand) :
    ExternalIdentity :=
  let seen :=
    if identity.lastSeenAt.all (fun last => decide (last < command.verifiedAt)) then
      { identity with lastSeenAt := some command.verifiedAt }
    else identity
  if identity.verifiedAt.all (fun last => decide (last < command.verifiedAt)) then
    { seen with
      verifiedAt := some command.verifiedAt
      identityRevision := identity.identityRevision + 1 }
  else seen

/-- The replay check of an identity that is bound already: `some code` is a rejection. -/
def replayedGrant (s : ProvisioningStore) (command : VerifiedProvisioningCommand)
    (policy : Option IdentityTenantPolicy) (identity : ExternalIdentity) (now₁ : Int) :
    Except IdentityErrorCode (Option IdentityErrorCode × Option IdentityLinkCode) :=
  if command.linkCodeDigest.isNone then .ok (none, none)
  else
    match linkGrantForUpdate s command policy true now₁ with
    | .error error => .error error
    | .ok grant =>
        if grant.targetUserId ≠ identity.userId then .ok (some .linkConflict, some grant)
        else if grant.state = .consumed then
          if grant.consumedExternalIdentityId ≠ some identity.id then
            .ok (some .linkConflict, some grant)
          else if sameLinkBindingEvent s grant command identity.id then .ok (none, some grant)
          else .error .linkRequired
        -- a canonical identity can have only one initial binding event
        else .error .linkConflict

def provisionActive (command : VerifiedProvisioningCommand) (policy : Option IdentityTenantPolicy)
    (identity : ExternalIdentity) (ids : ProvisionIds) (now₁ now₂ : Int) (s : ProvisioningStore) :
    Except IdentityErrorCode (ProvisioningResult × ProvisioningStore) := do
  let (_, membership) ← activeUserAndMembership s command.context.tenantId identity.userId
  let (rejection, grant) ← replayedGrant s command policy identity now₁
  match rejection with
  | some code => .ok (rejected code, s)
  | none =>
      let _ ← recheckWriteTime command grant now₂
      let s' ← upsertAliases command identity.id ids.aliasId s
      let seen := seenAgain identity command
      .ok (resolved .alreadyBound seen membership, { s' with identities := s'.identities.put seen })

/-- The tail both provisioning paths share: promote or keep the user, upsert the
    aliases, activate the identity, consume the code and append the binding event. -/
def bindIdentity (command : VerifiedProvisioningCommand) (identity : ExternalIdentity)
    (targetUserId : String) (method : BindingMethod)
    (previousAccountKind : Option UserAccountKind) (resultAccountKind : UserAccountKind)
    (link : Option IdentityLinkCode) (ids : ProvisionIds) (occurredAt : Int)
    (s : ProvisioningStore) : Except IdentityErrorCode ProvisioningStore := do
  let s₁ ← upsertAliases command identity.id ids.aliasId s
  let s₂ := { s₁ with identities := s₁.identities.put (activateIdentity identity command) }
  let s₃ ← consumeLink link identity.id occurredAt s₂
  appendBindingEvent command ids.eventId identity.id targetUserId method previousAccountKind
    resultAccountKind link occurredAt s₃

def bindingGrant (s : ProvisioningStore) (command : VerifiedProvisioningCommand)
    (policy : Option IdentityTenantPolicy) (mode : ProvisioningMode) (now₁ : Int) :
    Except IdentityErrorCode (Option IdentityLinkCode) :=
  if mode = .linkOnly then (linkGrantForUpdate s command policy false now₁).map some else .ok none

def provisionPending (command : VerifiedProvisioningCommand) (policy : Option IdentityTenantPolicy)
    (identity : ExternalIdentity) (ids : ProvisionIds) (now₁ now₂ : Int) (s : ProvisioningStore) :
    Except IdentityErrorCode (ProvisioningResult × ProvisioningStore) := do
  let expectedMode ← requirePolicyForAction command policy
  if expectedMode = .jit ∨ (expectedMode = .preprovisioned ∧ command.linkCodeDigest.isSome) then
    .ok (rejected .linkConflict, s)
  else
    let (user, membership) ← activeUserAndMembership s command.context.tenantId identity.userId
    let link ← bindingGrant s command policy expectedMode now₁
    if link.any (fun link => link.targetUserId != identity.userId) then
      .ok (rejected .linkConflict, s)
    else
      let occurredAt ← recheckWriteTime command link now₂
      let (previousKind, promoted) := promoteAccountKind user
      let s' ← bindIdentity command identity user.id
        (if expectedMode = .linkOnly then .linkCode else .preprovisioned) (some previousKind)
        promoted.accountKind link ids occurredAt { s with users := s.users.put promoted }
      .ok (resolved
        (if expectedMode = .linkOnly then .linkCodeBound else .preprovisionedBound)
        (activateIdentity identity command) membership, s')

def provisionExisting (command : VerifiedProvisioningCommand) (policy : Option IdentityTenantPolicy)
    (identity : ExternalIdentity) (ids : ProvisionIds) (now₁ now₂ : Int) (s : ProvisioningStore) :
    Except IdentityErrorCode (ProvisioningResult × ProvisioningStore) :=
  match identity.state with
  | .active => provisionActive command policy identity ids now₁ now₂ s
  | .conflict | .revoked => .ok (rejected .linkConflict, s)
  | .inactive => .ok (rejected .inactive, s)
  | .pendingLink => provisionPending command policy identity ids now₁ now₂ s

def newIdentity (command : VerifiedProvisioningCommand) (identityId userId : String) :
    ExternalIdentity where
  id := identityId
  tenantId := command.context.tenantId
  userId := userId
  provider := command.context.provider
  providerTenantKey := command.context.providerTenantKey
  subjectType := "user_id"
  subjectValue := command.subjectValue
  state := .pendingLink
  verifiedAt := none
  lastSeenAt := none
  identityRevision := 1
  attributes := provisionedAttributes command

def provisionLinked (command : VerifiedProvisioningCommand) (policy : Option IdentityTenantPolicy)
    (ids : ProvisionIds) (now₁ now₂ : Int) (s : ProvisioningStore) :
    Except IdentityErrorCode (ProvisioningResult × ProvisioningStore) := do
  let targetUserId ← peekLinkTarget s command
  let (user, membership) ← activeUserAndMembership s command.context.tenantId targetUserId
  let link ← linkGrantForUpdate s command policy false now₁
  if link.targetUserId ≠ targetUserId then .error .linkRequired
  else if (reverseSlot s command targetUserId).isSome then .ok (rejected .linkConflict, s)
  else
    let occurredAt ← recheckWriteTime command (some link) now₂
    let (previousKind, promoted) := promoteAccountKind user
    let identity := newIdentity command ids.identityId user.id
    let s₁ ← insertIdentity { s with users := s.users.put promoted } identity
    let s' ← bindIdentity command identity user.id .linkCode (some previousKind)
      promoted.accountKind (some link) ids occurredAt s₁
    .ok (resolved .linkCodeBound (activateIdentity identity command) membership, s')

def provisionJit (command : VerifiedProvisioningCommand) (ids : ProvisionIds) (now₂ : Int)
    (s : ProvisioningStore) : Except IdentityErrorCode (ProvisioningResult × ProvisioningStore) :=
  if command.linkCodeDigest.isSome then .ok (rejected .linkConflict, s)
  else do
    let occurredAt ← recheckWriteTime command none now₂
    let user : User :=
      { id := ids.userId
        nickname := jitNickname command.jitNickname
        accountKind := .external
        loginChannel := some command.context.provider
        isActive := true
        isAnonymous := false
        status := validStatus }
    let membership : UserTenant :=
      { id := ids.membershipId
        userId := ids.userId
        tenantId := command.context.tenantId
        role := .normal
        invitedBy := ids.userId
        status := validStatus }
    let s₁ ← insertUser s user
    let s₂ ← insertMembership s₁ membership
    let identity := newIdentity command ids.identityId user.id
    let s₃ ← insertIdentity s₂ identity
    let s' ← bindIdentity command identity user.id .jit none .external none ids occurredAt s₃
    .ok (resolved .jitCreated (activateIdentity identity command) membership, s')

def provisionMissing (command : VerifiedProvisioningCommand) (policy : Option IdentityTenantPolicy)
    (ids : ProvisionIds) (now₁ now₂ : Int) (s : ProvisioningStore) :
    Except IdentityErrorCode (ProvisioningResult × ProvisioningStore) := do
  match ← requirePolicyForAction command policy with
  | .preprovisioned => .ok (rejected .notFound, s)
  | .linkOnly => provisionLinked command policy ids now₁ now₂ s
  | .jit => provisionJit command ids now₂ s

def provisionSession (command : VerifiedProvisioningCommand) (ids : ProvisionIds) (now₁ now₂ : Int)
    (s : ProvisioningStore) : Except IdentityErrorCode (ProvisioningResult × ProvisioningStore) :=
  if now₁ < command.verifiedAt then .error .assertionInvalid
  else do
    let policy := policyForUpdate s command.context.tenantId
    let account ← accountForUpdate s command.context
    if account.lastScopeChangeAt.any (fun last => decide (command.verifiedAt < last)) then
      .ok (rejected .revisionConflict, s)
    else
      match canonicalIdentity s command with
      | some canonical => provisionExisting command policy canonical ids now₁ now₂ s
      | none => provisionMissing command policy ids now₁ now₂ s

def provisionVerifiedIdentity (command : VerifiedProvisioningCommand) (ids : ProvisionIds)
    (now₁ now₂ : Int) (s : ProvisioningStore) :
    Except IdentityErrorCode ProvisioningResult × ProvisioningStore :=
  if command.valid then inSession (provisionSession command ids now₁ now₂) s
  else (.error .assertionInvalid, s)

/-! ### Link codes -/

def LinkCodeIssueCommand.replaces (command : LinkCodeIssueCommand) (code : IdentityLinkCode) : Bool :=
  code.tenantId == command.context.tenantId && code.provider == command.context.provider &&
    code.providerTenantKey == command.context.providerTenantKey &&
    code.providerAccountKey == command.context.providerAccountKey &&
    code.targetUserId == command.targetUserId && code.state == .pending

def IdentityLinkCode.revoke (code : IdentityLinkCode) (now : Int) : IdentityLinkCode :=
  { code with state := .revoked, revokedAt := some (max now code.issuedAt) }

def issuedCode (command : LinkCodeIssueCommand) (codeId : String) : IdentityLinkCode where
  id := codeId
  tenantId := command.context.tenantId
  provider := command.context.provider
  providerTenantKey := command.context.providerTenantKey
  providerAccountKey := command.context.providerAccountKey
  targetUserId := command.targetUserId
  digestKeyId := command.digestKeyId
  codeDigest := command.codeDigest
  policyRevision := command.policyRevision
  providerAccountRevision := command.providerAccountRevision
  providerAccountLastScopeChangeAt := command.providerAccountLastScopeChangeAt
  state := .pending
  issuedAt := command.issuedAt
  expiresAt := command.expiresAt
  consumedAt := none
  consumedExternalIdentityId := none
  revokedAt := none

def issueSession (command : LinkCodeIssueCommand) (codeId : String) (now₁ now₂ : Int)
    (s : ProvisioningStore) : Except IdentityErrorCode (LinkCodeGrantRecord × ProvisioningStore) :=
  if now₁ < command.issuedAt ∨ command.expiresAt ≤ now₁ then .error .assertionInvalid
  else
    match policyForUpdate s command.context.tenantId with
    | none => .error .policyUnavailable
    | some policy =>
        if policy.mode ≠ .linkOnly ∨ policy.revision ≠ command.policyRevision then
          .error .policyUnavailable
        else do
          let account ← accountForUpdate s command.context
          if command.providerAccountRevision ≠ account.identityRevision ∨
              command.providerAccountLastScopeChangeAt ≠ account.lastScopeChangeAt ∨
              command.expiresAt ≠ command.issuedAt + seconds policy.linkCodeTtlSeconds then
            .error .revisionConflict
          else
            let _ ← activeUserAndMembership s command.context.tenantId command.targetUserId
            if now₂ < command.issuedAt ∨ command.expiresAt ≤ now₂ then .error .assertionInvalid
            else
              let revoked := (s.linkCodes.select command.replaces).foldl
                (fun codes code => codes.put (code.revoke now₂)) s.linkCodes
              let code := issuedCode command codeId
              let s' ← insertLinkCode { s with linkCodes := revoked } code
              .ok (code.record, s')

def issueLinkCode (command : LinkCodeIssueCommand) (codeId : String) (now₁ now₂ : Int)
    (s : ProvisioningStore) : Except IdentityErrorCode LinkCodeGrantRecord × ProvisioningStore :=
  if command.valid then inSession (issueSession command codeId now₁ now₂) s
  else (.error .assertionInvalid, s)

def casSession (command : ProvisioningPolicyUpdate) (s : ProvisioningStore) :
    Except IdentityErrorCode (ProvisioningPolicyWriteResult × ProvisioningStore) :=
  if activeTenant s command.tenantId = false then .error .tenantMismatch
  else
    match policyForUpdate s command.tenantId with
    | none => .ok (⟨.notFound, none⟩, s)
    | some policy =>
        if policy.revision ≠ command.expectedRevision then
          .ok (⟨.revisionConflict, some policy.snapshot⟩, s)
        else if command.changedAt < policy.changedAt then .error .revisionConflict
        else
          let policy' := { policy with
            mode := command.mode
            linkCodeTtlSeconds := command.linkCodeTtlSeconds
            changedAt := command.changedAt
            revision := policy.revision + 1 }
          .ok (⟨.applied, some policy'.snapshot⟩, { s with policies := s.policies.put policy' })

def casPolicy (command : ProvisioningPolicyUpdate) (s : ProvisioningStore) :
    Except IdentityErrorCode ProvisioningPolicyWriteResult × ProvisioningStore :=
  if command.valid then inSession (casSession command) s else (.error .assertionInvalid, s)

end MultiRag.Provisioning
