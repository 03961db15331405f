/-
  **The durable records of the identity reconciliation**
  (`api/identity/reconciliation/contracts.py` and the tables of `api/db/db_models.py` that its
  repository reads and writes).

  A checkpoint is one row for each provider account: the schedule of its probes, the lease of the
  worker that probes now, and the cursor of the scan over its identities. A target is what is
  known of one identity of that account. Times are microseconds of the database clock.
-/
import MultiRag.Table
import MultiRag.Json

namespace MultiRag.IdentityReconciliation

/-! ### Closed value sets -/

inductive ReconciliationProviderStatus where
  | resolved | inactive | notFound | notInScope | unavailable | conflict | invalid
deriving DecidableEq

inductive ReconciliationErrorCode where
  | repositoryUnavailable | leaseConflict | fenceConflict | providerUnavailable
  | providerResultInvalid | providerConflict | tightenCircuitOpen

def ReconciliationErrorCode.value : ReconciliationErrorCode → String
  | .repositoryUnavailable => "IDENTITY_RECONCILIATION_REPOSITORY_UNAVAILABLE"
  | .leaseConflict => "IDENTITY_RECONCILIATION_LEASE_CONFLICT"
  | .fenceConflict => "IDENTITY_RECONCILIATION_FENCE_CONFLICT"
  | .providerUnavailable => "IDENTITY_RECONCILIATION_PROVIDER_UNAVAILABLE"
  | .providerResultInvalid => "IDENTITY_RECONCILIATION_PROVIDER_RESULT_INVALID"
  | .providerConflict => "IDENTITY_RECONCILIATION_PROVIDER_CONFLICT"
  | .tightenCircuitOpen => "IDENTITY_RECONCILIATION_TIGHTEN_CIRCUIT_OPEN"

inductive ReconciliationApplyOutcome where
  | applied | confirmationPending | retryScheduled | targetRejected | circuitOpen | fenceRejected
deriving DecidableEq

inductive TargetState where
  | pending | completed | failed
deriving DecidableEq

inductive ExternalIdentityState where
  | pendingLink | active | inactive | revoked | conflict
deriving DecidableEq

inductive IdentityProviderHealthState where
  | pending | healthy | degraded | error | disabled
deriving DecidableEq

def reconcilableHealth : List IdentityProviderHealthState := [.healthy, .degraded]

def tighteningStatuses : List ReconciliationProviderStatus := [.inactive, .conflict]

inductive ReconciliationError where
  | repository (code : ReconciliationErrorCode)
  | value (message : String)

/-! ### Observations -/

def safeCode (code : String) : Bool :=
  let upper (c : Char) : Bool := 'A' ≤ c && c ≤ 'Z'
  match code.toList with
  | [] => false
  | first :: rest =>
      upper first && decide (2 ≤ rest.length) && decide (rest.length ≤ 63) &&
        rest.all (fun c => upper c || ('0' ≤ c && c ≤ '9') || c == '_')

structure ObservationFields where
  status : ReconciliationProviderStatus
  observedAt : Int
  verifiedAt : Option Int
  safeErrorCode : Option String

def ObservationFields.proofError (fields : ObservationFields) : Option String :=
  match fields.status, fields.verifiedAt with
  | .resolved, none => some "resolved reconciliation requires verified_at"
  | .resolved, some verifiedAt =>
      if fields.observedAt < verifiedAt then some "verified_at cannot be later than observed_at"
      else none
  | _, some _ => some "only resolved reconciliation may carry verified_at"
  | _, none => none

def ObservationFields.codeError (fields : ObservationFields) : Option String :=
  if fields.status = .unavailable ∨ fields.status = .invalid then
    if fields.safeErrorCode.any safeCode then none
    else some "provider failure requires a safe error code"
  else if fields.safeErrorCode.isSome then
    some "successful provider observation cannot carry an error code"
  else none

/-- The `ValueError` of the constructor. -/
def ObservationFields.error (fields : ObservationFields) : Option String :=
  fields.proofError.or fields.codeError

structure ReconciliationObservation extends ObservationFields where
  accepted : toObservationFields.error = none

/-! ### Leases -/

/-- Server-built scope for one verified provider installation. -/
structure ProviderContext where
  tenantId : String
  provider : String
  providerTenantKey : String
  providerAccountId : String
  providerAccountKey : String
  providerAccountRevision : Nat
  providerAccountLastScopeChangeAt : Option Int
deriving DecidableEq

/-- The arguments of the `ReconciliationLease` constructor. -/
structure LeaseFields where
  checkpointId : String
  targetId : String
  owner : String
  attempt : Nat
  context : ProviderContext
  externalIdentityId : String
  subjectValue : String
  identityRevision : Nat
  consecutiveFailures : Nat
  leaseUntil : Int

def stripped (text : String) : Bool := text != "" && text == pyStrip text

def LeaseFields.error (fields : LeaseFields) : Option String :=
  if fields.attempt < 1 ∨ fields.identityRevision < 1 then
    some "reconciliation lease revisions are invalid"
  else if [fields.checkpointId, fields.targetId, fields.owner, fields.externalIdentityId,
      fields.subjectValue].all stripped then none
  else some "reconciliation lease identifiers are invalid"

/-- Fenced work item returned after a short claim transaction. -/
structure ReconciliationLease extends LeaseFields where
  accepted : toLeaseFields.error = none

structure ReconciliationApplyResult where
  outcome : ReconciliationApplyOutcome
  identityChanged : Bool
  accountRevision : Nat
  nextAttemptAt : Option Int
  safeErrorCode : Option String

/-! ### Rows -/

structure Tenant where
  id : String
  status : Option String

structure User where
  id : String
  status : Option String
  isActive : Bool
  isAnonymous : Bool

structure UserTenant where
  id : String
  userId : String
  tenantId : String
  role : String
  status : Option String

structure IdentityProviderAccount where
  id : String
  tenantId : String
  provider : String
  providerTenantKey : String
  providerAccountKey : String
  identityRevision : Nat
  lastScopeChangeAt : Option Int
  identityHealthState : IdentityProviderHealthState
  identityHealthErrorCode : Option String

structure ExternalIdentity where
  id : String
  tenantId : String
  userId : String
  provider : String
  providerTenantKey : String
  subjectType : String
  subjectValue : String
  state : ExternalIdentityState
  verifiedAt : Option Int
  lastSeenAt : Option Int
  identityRevision : Nat
deriving DecidableEq

structure ExternalIdentityAlias where
  id : String
  tenantId : String
  externalIdentityId : String
  provider : String
  providerTenantKey : String
  providerAccountKey : String

/-- Durable per-account cursor, lease, and bounded-cycle counters. -/
structure IdentityReconciliationCheckpoint where
  id : String
  providerAccountId : String
  tenantId : String
  provider : String
  cursorIdentityId : Option String
  cycleStartedAt : Option Int
  lastCompletedAt : Option Int
  lastSuccessAt : Option Int
  nextRunAt : Int
  leaseOwner : Option String
  leaseUntil : Option Int
  leaseAttempt : Nat
  processedCount : Nat
  tightenedCount : Nat
  errorCount : Nat
  consecutiveFailures : Nat
  safeErrorCode : Option String

/-- Latest fenced observation state for one account/identity pair. -/
structure IdentityReconciliationTarget where
  id : String
  checkpointId : String
  providerAccountId : String
  tenantId : String
  provider : String
  providerTenantKey : String
  externalIdentityId : String
  accountRevision : Nat
  accountScopeChangeAt : Option Int
  identityRevision : Nat
  state : TargetState
  nextAttemptAt : Int
  lastOutcome : Option ReconciliationProviderStatus
  notFoundCount : Nat
  firstNotFoundAt : Option Int
  lastNotFoundAt : Option Int
  lastObservedAt : Option Int
  lastSuccessAt : Option Int
  lastActivityAt : Option Int
  verifiedAt : Option Int
  proofAccountRevision : Option Nat
  proofScopeChangeAt : Option Int
  proofIdentityRevision : Option Nat
  safeErrorCode : Option String

/-! ### The store -/

structure IdentityDirectory where
  tenants : Table Tenant Tenant.id
  users : Table User User.id
  memberships : Table UserTenant UserTenant.id
  accounts : Table IdentityProviderAccount IdentityProviderAccount.id
  identities : Table ExternalIdentity ExternalIdentity.id
  aliases : Table ExternalIdentityAlias ExternalIdentityAlias.id

structure ReconciliationStore where
  directory : IdentityDirectory
  checkpoints : Table IdentityReconciliationCheckpoint IdentityReconciliationCheckpoint.id
  targets : Table IdentityReconciliationTarget IdentityReconciliationTarget.id

namespace ReconciliationStore

def putAccount (s : ReconciliationStore) (row : IdentityProviderAccount) : ReconciliationStore :=
  { s with directory := { s.directory with accounts := s.directory.accounts.put row } }

def putIdentity (s : ReconciliationStore) (row : ExternalIdentity) : ReconciliationStore :=
  { s with directory := { s.directory with identities := s.directory.identities.put row } }

def putCheckpoint (s : ReconciliationStore) (row : IdentityReconciliationCheckpoint) :
    ReconciliationStore :=
  { s with checkpoints := s.checkpoints.put row }

def putTarget (s : ReconciliationStore) (row : IdentityReconciliationTarget) :
    ReconciliationStore :=
  { s with targets := s.targets.put row }

end ReconciliationStore

end MultiRag.IdentityReconciliation
