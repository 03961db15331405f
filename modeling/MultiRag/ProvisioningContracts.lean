/-
  **Enterprise identity provisioning: contracts and tables**
  (`api/identity/provisioning_contracts.py`, `api/identity/validation.py`, and the
  tables of `api/db/db_models.py` that `api/identity/provisioning_repository.py`
  reads and writes).

  Times are microseconds since the epoch, in UTC, so `valid_timestamp` always holds.
-/
import Mathlib.Algebra.GroupWithZero.Nat
import MultiRag.ReconciliationRepository

namespace MultiRag.Provisioning

open IdentityReconciliation (ExternalIdentityState IdentityProviderHealthState ProviderContext
  Tenant)

/-! ### Closed value sets -/

inductive ProvisioningMode where
  | preprovisioned | linkOnly | jit
deriving DecidableEq

inductive ProvisioningAction where
  | bindPreprovisioned | requireLink | createNormalMember

def ProvisioningAction.mode : ProvisioningAction → ProvisioningMode
  | .bindPreprovisioned => .preprovisioned
  | .requireLink => .linkOnly
  | .createNormalMember => .jit

inductive ProviderAliasType where
  | openId | unionId
deriving DecidableEq

inductive IdentityErrorCode where
  | assertionInvalid | providerMismatch | tenantMismatch | inactive | linkRequired | linkConflict
  | notFound | revisionConflict | transitionInvalid | ownershipConflict | policyUnavailable
  | repositoryUnavailable

inductive ProvisioningStatus where
  | resolved | rejected

inductive ProvisioningOutcome where
  | preprovisionedBound | linkCodeBound | jitCreated | alreadyBound

inductive ProvisioningPolicyWriteOutcome where
  | created | applied | exists | notFound | revisionConflict

inductive UserAccountKind where
  | local | external | hybrid
deriving DecidableEq

inductive UserTenantRole where
  | owner | admin | normal | invite
deriving DecidableEq

inductive LinkCodeState where
  | pending | consumed | revoked
deriving DecidableEq

inductive BindingMethod where
  | jit | preprovisioned | linkCode
deriving DecidableEq

/-! ### Commands -/

structure AliasKey where
  aliasType : ProviderAliasType
  aliasValue : String
deriving DecidableEq

structure VerifiedProvisioningCommand where
  context : ProviderContext
  assertedAlias : AliasKey
  action : Option ProvisioningAction
  policyRevision : Option Nat
  subjectValue : String
  aliases : List AliasKey
  verifiedAt : Int
  jitNickname : String
  requestDigestKeyId : String
  requestDigest : String
  linkCodeKeyId : Option String
  linkCodeDigest : Option String

structure LinkCodeIssueCommand where
  context : ProviderContext
  targetUserId : String
  digestKeyId : String
  codeDigest : String
  policyRevision : Nat
  providerAccountRevision : Nat
  providerAccountLastScopeChangeAt : Option Int
  issuedAt : Int
  expiresAt : Int

structure ProvisioningPolicyUpdate where
  tenantId : String
  expectedRevision : Nat
  mode : ProvisioningMode
  linkCodeTtlSeconds : Nat
  changedAt : Int

/-! ### Validation -/

def validText (text : String) (maxLength : Nat) : Bool :=
  decide (0 < (pyStrip text).length) && decide (text.length ≤ maxLength)

def validOpaqueId (text : String) : Bool := validText text 32

def validRevision (revision : Nat) : Bool := decide (1 ≤ revision) && decide (revision ≤ 2 ^ 63 - 1)

def validProviderContext (context : ProviderContext) : Bool :=
  validText context.tenantId 32 && validText context.provider 64 &&
    validText context.providerTenantKey 255 && validOpaqueId context.providerAccountId &&
    validText context.providerAccountKey 255 && validRevision context.providerAccountRevision

def validDigest (digest : String) : Bool :=
  decide (digest.length = 64) &&
    digest.toList.all (fun c => ('0' ≤ c && c ≤ '9') || ('a' ≤ c && c ≤ 'f'))

def validTtl (ttl : Nat) : Bool := decide (60 ≤ ttl) && decide (ttl ≤ 900)

def validAliasKey (key : AliasKey) : Bool := validText key.aliasValue 255

def ProvisioningPolicyUpdate.valid (command : ProvisioningPolicyUpdate) : Bool :=
  validOpaqueId command.tenantId && validRevision command.expectedRevision &&
    validTtl command.linkCodeTtlSeconds

def LinkCodeIssueCommand.valid (command : LinkCodeIssueCommand) : Bool :=
  validProviderContext command.context && validOpaqueId command.targetUserId &&
    validText command.digestKeyId 64 && validDigest command.codeDigest &&
    validRevision command.policyRevision && validRevision command.providerAccountRevision &&
    decide (command.issuedAt < command.expiresAt) &&
    decide (command.expiresAt ≤ command.issuedAt + seconds (15 * 60))

def VerifiedProvisioningCommand.valid (command : VerifiedProvisioningCommand) : Bool :=
  let actionPairValid :=
    match command.action, command.policyRevision with
    | none, none => true
    | some _, some revision => validRevision revision
    | _, _ => false
  let linkPairValid :=
    match command.linkCodeKeyId, command.linkCodeDigest with
    | none, none => true
    | some keyId, some digest => validText keyId 64 && validDigest digest
    | _, _ => false
  validProviderContext command.context && validAliasKey command.assertedAlias && actionPairValid &&
    validText command.subjectValue 255 &&
    decide (1 ≤ command.aliases.length) && decide (command.aliases.length ≤ 2) &&
    command.aliases.all validAliasKey && decide command.aliases.Nodup &&
    decide (command.assertedAlias ∈ command.aliases) &&
    decide (command.jitNickname.length ≤ 512) && linkPairValid &&
    validText command.requestDigestKeyId 64 && validDigest command.requestDigest

/-! ### Rows -/

structure IdentityProviderAccount where
  id : String
  tenantId : String
  provider : String
  providerTenantKey : String
  providerAccountKey : String
  identityRevision : Nat
  lastScopeChangeAt : Option Int
  identityHealthState : IdentityProviderHealthState

structure IdentityTenantPolicy where
  id : String
  tenantId : String
  mode : ProvisioningMode
  revision : Nat
  linkCodeTtlSeconds : Nat
  changedAt : Int

structure User where
  id : String
  nickname : String
  accountKind : UserAccountKind
  loginChannel : Option String
  isActive : Bool
  isAnonymous : Bool
  status : Option String

structure UserTenant where
  id : String
  userId : String
  tenantId : String
  role : UserTenantRole
  invitedBy : String
  status : Option String

structure ExternalIdentity where
  id : String
  tenantId : String
  userId : String
  provider : String
  providerTenantKey : String
  subjectType : String
  subjectValue : String
  state : ExternalIdentityState
  verifiedAt : Option Int
  lastSeenAt : Option Int
  identityRevision : Nat
  attributes : List (String × Option String)

structure ExternalIdentityAlias where
  id : String
  tenantId : String
  externalIdentityId : String
  provider : String
  providerTenantKey : String
  providerAccountKey : String
  aliasType : ProviderAliasType
  aliasValue : String
  verifiedAt : Int

/-- One-time, digest-only proof that an authenticated user requested a link. -/
structure IdentityLinkCode where
  id : String
  tenantId : String
  provider : String
  providerTenantKey : String
  providerAccountKey : String
  targetUserId : String
  digestKeyId : String
  codeDigest : String
  policyRevision : Nat
  providerAccountRevision : Nat
  providerAccountLastScopeChangeAt : Option Int
  state : LinkCodeState
  issuedAt : Int
  expiresAt : Int
  consumedAt : Option Int
  consumedExternalIdentityId : Option String
  revokedAt : Option Int

/-- Append-only audit record for the first binding of one external identity. -/
structure IdentityBindingEvent where
  id : String
  tenantId : String
  provider : String
  providerTenantKey : String
  providerAccountKey : String
  externalIdentityId : String
  targetUserId : String
  actorUserId : Option String
  linkCodeId : Option String
  bindingMethod : BindingMethod
  previousAccountKind : Option UserAccountKind
  resultAccountKind : UserAccountKind
  policyRevision : Nat
  providerVerifiedAt : Int
  occurredAt : Int
  requestDigestKeyId : String
  requestDigest : String

/-! ### Results -/

structure LinkCodeGrantRecord where
  id : String
  issuedAt : Int
  expiresAt : Int
  policyRevision : Nat
  providerAccountRevision : Nat
  providerAccountLastScopeChangeAt : Option Int

def IdentityLinkCode.record (code : IdentityLinkCode) : LinkCodeGrantRecord :=
  ⟨code.id, code.issuedAt, code.expiresAt, code.policyRevision, code.providerAccountRevision,
    code.providerAccountLastScopeChangeAt⟩

structure ExternalIdentityRecord where
  id : String
  tenantId : String
  userId : String
  provider : String
  providerTenantKey : String
  subjectType : String
  subjectValue : String
  state : ExternalIdentityState
  verifiedAt : Option Int
  lastSeenAt : Option Int
  identityRevision : Nat
  attributes : List (String × Option String)

def ExternalIdentity.record (identity : ExternalIdentity) : ExternalIdentityRecord where
  id := identity.id
  tenantId := identity.tenantId
  userId := identity.userId
  provider := identity.provider
  providerTenantKey := identity.providerTenantKey
  subjectType := identity.subjectType
  subjectValue := identity.subjectValue
  state := identity.state
  verifiedAt := identity.verifiedAt
  lastSeenAt := identity.lastSeenAt
  identityRevision := identity.identityRevision
  attributes := identity.attributes.insertionSort (fun a b => a.1 ≤ b.1)

structure UserMembershipRecord where
  userId : String
  tenantId : String
  role : UserTenantRole

def UserTenant.record (membership : UserTenant) : UserMembershipRecord :=
  ⟨membership.userId, membership.tenantId, membership.role⟩

structure ProvisioningResult where
  status : ProvisioningStatus
  outcome : Option ProvisioningOutcome
  errorCode : Option IdentityErrorCode
  identity : Option ExternalIdentityRecord
  membership : Option UserMembershipRecord

def rejected (code : IdentityErrorCode) : ProvisioningResult := ⟨.rejected, none, some code, none, none⟩

def resolved (outcome : ProvisioningOutcome) (identity : ExternalIdentity) (membership : UserTenant) :
    ProvisioningResult :=
  ⟨.resolved, some outcome, none, some identity.record, some membership.record⟩

structure ProvisioningPolicySnapshot where
  tenantId : String
  mode : ProvisioningMode
  revision : Nat
  linkCodeTtlSeconds : Nat
  changedAt : Int

def IdentityTenantPolicy.snapshot (policy : IdentityTenantPolicy) : ProvisioningPolicySnapshot :=
  ⟨policy.tenantId, policy.mode, policy.revision, policy.linkCodeTtlSeconds, policy.changedAt⟩

structure ProvisioningPolicyWriteResult where
  outcome : ProvisioningPolicyWriteOutcome
  snapshot : Option ProvisioningPolicySnapshot

structure ProvisioningStore where
  tenants : Table Tenant Tenant.id
  accounts : Table IdentityProviderAccount IdentityProviderAccount.id
  policies : Table IdentityTenantPolicy IdentityTenantPolicy.id
  users : Table User User.id
  memberships : Table UserTenant UserTenant.id
  identities : Table ExternalIdentity ExternalIdentity.id
  aliases : Table ExternalIdentityAlias ExternalIdentityAlias.id
  linkCodes : Table IdentityLinkCode IdentityLinkCode.id
  events : Table IdentityBindingEvent IdentityBindingEvent.id

end MultiRag.Provisioning
