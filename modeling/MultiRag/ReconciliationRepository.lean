/-
  **Claiming and applying a reconciliation probe** (`SqlAlchemyIdentityReconciliationRepository`
  of `api/identity/reconciliation/repository.py`).

  `claim_next` runs one transaction, `_claim_checkpoint`, for each candidate checkpoint; `apply` is
  one transaction. `newId` is `uuid4().hex`, `eligibilityNow`, `leaseNow` and `now` are readings of
  the database clock, and the three `Locked` flags say whether another transaction holds the row
  (`SKIP LOCKED`).
-/
import MultiRag.ReconciliationContracts
import MultiRag.Run

namespace MultiRag.IdentityReconciliation

def validStatus : Option String := some "1"

def maxFutureSkew : Int := seconds 300

def minProbeInterval : Int := 100000

def maxProbeInterval : Int := seconds 60

def validateOwner (owner : String) : Except ReconciliationError Unit :=
  if stripped owner ∧ owner.length ≤ 64 then .ok ()
  else .error (.value "reconciliation lease owner is invalid")

def requirePositive (value : Int) (name : String) : Except ReconciliationError Unit :=
  if 0 < value then .ok () else .error (.value (name ++ " must be a positive integer"))

def requireProbeInterval (interval : Int) : Except ReconciliationError Unit :=
  if minProbeInterval ≤ interval ∧ interval ≤ maxProbeInterval then .ok ()
  else .error (.value "probe_interval_seconds must be between 0.1 and 60 seconds")

/-! ### Row updates -/

def maxCursor (current : Option String) (candidate : String) : String :=
  match current with
  | none => candidate
  | some cursor => if cursor < candidate then candidate else cursor

def IdentityProviderAccount.setHealth (account : IdentityProviderAccount)
    (desired : IdentityProviderHealthState) : IdentityProviderAccount :=
  if account.identityHealthState = desired then account
  else
    { account with
      identityHealthState := desired
      identityHealthErrorCode := none
      identityRevision := account.identityRevision + 1 }

def IdentityProviderAccount.context (account : IdentityProviderAccount) : ProviderContext where
  tenantId := account.tenantId
  provider := account.provider
  providerTenantKey := account.providerTenantKey
  providerAccountId := account.id
  providerAccountKey := account.providerAccountKey
  providerAccountRevision := account.identityRevision
  providerAccountLastScopeChangeAt := account.lastScopeChangeAt

namespace IdentityReconciliationCheckpoint

def advanceNextRun (checkpoint : IdentityReconciliationCheckpoint) (candidate : Int) :
    IdentityReconciliationCheckpoint :=
  if checkpoint.nextRunAt < candidate then { checkpoint with nextRunAt := candidate }
  else checkpoint

def clearLease (checkpoint : IdentityReconciliationCheckpoint) :
    IdentityReconciliationCheckpoint :=
  { checkpoint with leaseOwner := none, leaseUntil := none }

def advancePastPendingTarget (checkpoint : IdentityReconciliationCheckpoint) (identityId : String)
    (now : Int) : IdentityReconciliationCheckpoint :=
  let passed : IdentityReconciliationCheckpoint :=
    { checkpoint with
      cursorIdentityId := some (maxCursor checkpoint.cursorIdentityId identityId)
      processedCount := checkpoint.processedCount + 1 }
  (passed.advanceNextRun now).clearLease

def finishTarget (checkpoint : IdentityReconciliationCheckpoint) (identityId : String)
    (now : Int) : IdentityReconciliationCheckpoint :=
  checkpoint.advancePastPendingTarget identityId now

def rejectFence (checkpoint : IdentityReconciliationCheckpoint) (now : Int) :
    IdentityReconciliationCheckpoint :=
  let rejected : IdentityReconciliationCheckpoint :=
    { checkpoint with
      errorCount := checkpoint.errorCount + 1
      safeErrorCode := some ReconciliationErrorCode.fenceConflict.value
      cycleStartedAt := none
      cursorIdentityId := none }
  (rejected.advanceNextRun now).clearLease

/-- `_complete_cycle`, the checkpoint.  Every caller passes or keeps the default
    `preserve_counts=True`. -/
def completeCycle (checkpoint : IdentityReconciliationCheckpoint) (now : Int)
    (cycleIntervalSeconds : Int) (pendingAttemptAt : Option Int) :
    IdentityReconciliationCheckpoint :=
  let completed : IdentityReconciliationCheckpoint :=
    { checkpoint with
      cycleStartedAt := none
      cursorIdentityId := none
      lastCompletedAt := some now }
  let cycleDueAt := now + seconds cycleIntervalSeconds
  (completed.advanceNextRun ((pendingAttemptAt.map (min cycleDueAt)).getD cycleDueAt)).clearLease

/-- The condition under which `_complete_cycle` declares the account healthy. -/
def recovered (checkpoint : IdentityReconciliationCheckpoint) : Bool :=
  decide (0 < checkpoint.processedCount) && checkpoint.errorCount == 0 &&
    checkpoint.consecutiveFailures == 0

def startCycle (checkpoint : IdentityReconciliationCheckpoint) (now : Int) :
    IdentityReconciliationCheckpoint :=
  if checkpoint.cycleStartedAt = none then
    { checkpoint with
      cycleStartedAt := some now
      cursorIdentityId := none
      processedCount := 0
      tightenedCount := 0
      errorCount := 0
      safeErrorCode := none }
  else checkpoint

def grant (checkpoint : IdentityReconciliationCheckpoint) (owner : String)
    (leaseSeconds probeInterval leaseNow : Int) : IdentityReconciliationCheckpoint :=
  let leased : IdentityReconciliationCheckpoint :=
    { checkpoint with
      leaseOwner := some owner
      leaseAttempt := checkpoint.leaseAttempt + 1
      leaseUntil := some (leaseNow + seconds leaseSeconds) }
  leased.advanceNextRun (leaseNow + probeInterval)

end IdentityReconciliationCheckpoint

def IdentityReconciliationTarget.finish (target : IdentityReconciliationTarget) (now : Int)
    (failed : Bool) (errorCode : Option String) : IdentityReconciliationTarget :=
  { target with
    state := if failed then .failed else .completed
    nextAttemptAt := now
    safeErrorCode := errorCode }

def IdentityReconciliationTarget.resetAbsence (target : IdentityReconciliationTarget) :
    IdentityReconciliationTarget :=
  { target with
    notFoundCount := 0
    firstNotFoundAt := none
    lastNotFoundAt := none
    lastObservedAt := none }

def ExternalIdentity.negativeIsCurrent (identity : ExternalIdentity) (observedAt : Int) : Bool :=
  identity.verifiedAt.all (fun verifiedAt => verifiedAt ≤ observedAt)

def leaseMatches (checkpoint : IdentityReconciliationCheckpoint) (lease : ReconciliationLease)
    (now : Int) : Bool :=
  checkpoint.leaseOwner == some lease.owner && checkpoint.leaseAttempt == lease.attempt &&
    checkpoint.leaseUntil.any (fun until_ => until_ == lease.leaseUntil && decide (now < until_))

def accountFenceMatches (account : IdentityProviderAccount) (context : ProviderContext) : Bool :=
  account.context == context

def targetFenceMatches (target : IdentityReconciliationTarget) (lease : ReconciliationLease) :
    Bool :=
  target.id == lease.targetId && target.state == .pending &&
    target.externalIdentityId == lease.externalIdentityId &&
    target.accountRevision == lease.context.providerAccountRevision &&
    target.accountScopeChangeAt == lease.context.providerAccountLastScopeChangeAt &&
    target.identityRevision == lease.identityRevision

/-! ### Seeding -/

def newCheckpoint (newId : String) (dueAt : Int) (account : IdentityProviderAccount) :
    IdentityReconciliationCheckpoint where
  id := newId
  providerAccountId := account.id
  tenantId := account.tenantId
  provider := account.provider
  cursorIdentityId := none
  cycleStartedAt := none
  lastCompletedAt := none
  lastSuccessAt := none
  nextRunAt := dueAt
  leaseOwner := none
  leaseUntil := none
  leaseAttempt := 0
  processedCount := 0
  tightenedCount := 0
  errorCount := 0
  consecutiveFailures := 0
  safeErrorCode := none

def seedCheckpoint (newId : String → String) (dueAt : Int) (account : IdentityProviderAccount)
    (inserted : Nat) (s : ReconciliationStore) :
    Except ReconciliationError Nat × ReconciliationStore :=
  if s.checkpoints.rows.any (fun row => row.providerAccountId == account.id) then (.ok inserted, s)
  else
    match s.checkpoints.insert? (newCheckpoint (newId account.id) dueAt account) with
    | none => (.error (.repository .repositoryUnavailable), s)
    | some checkpoints => (.ok (inserted + 1), { s with checkpoints := checkpoints })

/-- The loop of `seed_checkpoints` over the accounts its query returned. -/
def seedAccounts (newId : String → String) (dueAt : Int) :
    List IdentityProviderAccount → Nat → ReconciliationStore →
      Except ReconciliationError Nat × ReconciliationStore
  | [], inserted, s => (.ok inserted, s)
  | account :: accounts, inserted, s =>
      match seedCheckpoint newId dueAt account inserted s with
      | (.ok inserted, s') => seedAccounts newId dueAt accounts inserted s'
      | (.error error, s') => (.error error, s')

/-- `newId` gives the `uuid4().hex` drawn for the checkpoint of an account. -/
def seedCheckpoints (newId : String → String) (dueAt : Int) (s : ReconciliationStore) :
    Except ReconciliationError Nat × ReconciliationStore :=
  let accounts := (s.directory.accounts.select (fun account =>
    (s.directory.tenants.get? account.tenantId).any (fun tenant => tenant.status == validStatus) &&
      reconcilableHealth.contains account.identityHealthState)).insertionSort
        (fun a b => a.id ≤ b.id)
  inTransaction (seedAccounts newId dueAt accounts 0) s

/-! ### Claiming -/

/-- The arguments of `claim_next`. -/
structure ClaimRequest where
  owner : String
  leaseSeconds : Int
  probeInterval : Int
  activeSince : Int
  cycleIntervalSeconds : Int

structure ClaimSession where
  newId : String
  tenantLocked : Bool
  accountLocked : Bool
  checkpointLocked : Bool
  eligibilityNow : Int
  leaseNow : Int

def ClaimRequest.validate (request : ClaimRequest) : Except ReconciliationError Unit := do
  validateOwner request.owner
  requirePositive request.leaseSeconds "lease_seconds"
  requireProbeInterval request.probeInterval
  requirePositive request.cycleIntervalSeconds "cycle_interval_seconds"

namespace ReconciliationStore

def hasAccountAlias (s : ReconciliationStore) (identity : ExternalIdentity)
    (account : IdentityProviderAccount) : Bool :=
  s.directory.aliases.rows.any (fun alias_ =>
    alias_.externalIdentityId == identity.id && alias_.tenantId == account.tenantId &&
      alias_.provider == account.provider &&
      alias_.providerTenantKey == account.providerTenantKey &&
      alias_.providerAccountKey == account.providerAccountKey)

def hasActiveMembership (s : ReconciliationStore) (identity : ExternalIdentity) : Bool :=
  s.directory.users.rows.any (fun user =>
    user.id == identity.userId && user.status == validStatus && user.isActive &&
      !user.isAnonymous &&
      s.directory.memberships.rows.any (fun membership =>
        membership.userId == user.id && membership.tenantId == identity.tenantId &&
          membership.status == validStatus &&
          ["owner", "admin", "normal"].contains membership.role))

def dueTarget (s : ReconciliationStore) (checkpointId : String) (eligibilityNow : Int) :
    Option IdentityReconciliationTarget :=
  (s.targets.selectOrdered (fun target =>
      target.checkpointId == checkpointId && target.state == .pending &&
        decide (target.nextAttemptAt ≤ eligibilityNow))
    (fun a b => decide (a.nextAttemptAt < b.nextAttemptAt) ||
      (a.nextAttemptAt == b.nextAttemptAt && decide (a.id ≤ b.id))) 1).head?

def nextPendingAttemptAt (s : ReconciliationStore) (checkpointId : String) : Option Int :=
  ((s.targets.select (fun target =>
    target.checkpointId == checkpointId && target.state == .pending)).map
      IdentityReconciliationTarget.nextAttemptAt).min?

def targetOf (s : ReconciliationStore) (providerAccountId externalIdentityId : String) :
    Option IdentityReconciliationTarget :=
  s.targets.rows.find? (fun target =>
    target.providerAccountId == providerAccountId && target.externalIdentityId == externalIdentityId)

end ReconciliationStore

def ExternalIdentity.belongsToAccount (identity : ExternalIdentity)
    (account : IdentityProviderAccount) : Bool :=
  identity.tenantId == account.tenantId && identity.provider == account.provider &&
    identity.providerTenantKey == account.providerTenantKey

def ExternalIdentity.seenSince (identity : ExternalIdentity) (activeSince : Int) : Bool :=
  identity.lastSeenAt.any (fun lastSeenAt => decide (activeSince ≤ lastSeenAt))

def ReconciliationStore.scannedIdentity (s : ReconciliationStore)
    (account : IdentityProviderAccount) (cursor : Option String) (activeSince : Int) :
    Option ExternalIdentity :=
  (s.directory.identities.selectOrdered (fun identity =>
      identity.belongsToAccount account && identity.subjectType == "user_id" &&
        identity.state == .active && identity.seenSince activeSince &&
        cursor.all (fun cursor => decide (cursor < identity.id)) &&
        s.hasAccountAlias identity account && s.hasActiveMembership identity &&
        !s.targets.rows.any (fun target =>
          target.providerAccountId == account.id && target.externalIdentityId == identity.id &&
            target.state == .pending))
    (fun a b => decide (a.id ≤ b.id)) 1).head?

def ReconciliationStore.completeCycle (s : ReconciliationStore) (account : IdentityProviderAccount)
    (checkpoint : IdentityReconciliationCheckpoint) (now cycleIntervalSeconds : Int)
    (pendingAttemptAt : Option Int) (allowHealthRecovery : Bool) : ReconciliationStore :=
  let account' :=
    if allowHealthRecovery && checkpoint.recovered then account.setHealth .healthy else account
  (s.putAccount account').putCheckpoint
    (checkpoint.completeCycle now cycleIntervalSeconds pendingAttemptAt)

def leaseFields (account : IdentityProviderAccount) (checkpoint : IdentityReconciliationCheckpoint)
    (target : IdentityReconciliationTarget) (identity : ExternalIdentity) (owner : String)
    (leaseUntil : Int) : LeaseFields where
  checkpointId := checkpoint.id
  targetId := target.id
  owner := owner
  attempt := checkpoint.leaseAttempt
  context := account.context
  externalIdentityId := identity.id
  subjectValue := identity.subjectValue
  identityRevision := identity.identityRevision
  consecutiveFailures := checkpoint.consecutiveFailures
  leaseUntil := leaseUntil

/-- The end of `_claim_checkpoint`: the lease is taken for `target`.  `save` is the
    flush of the target, which is new or not. -/
def grantLease (request : ClaimRequest) (session : ClaimSession)
    (account : IdentityProviderAccount) (checkpoint : IdentityReconciliationCheckpoint)
    (target : IdentityReconciliationTarget) (identity : ExternalIdentity)
    (save : IdentityReconciliationTarget → Option ReconciliationStore) (s : ReconciliationStore) :
    Except ReconciliationError (Option ReconciliationLease) × ReconciliationStore :=
  let fenced : IdentityReconciliationTarget :=
    { target with
      accountRevision := account.identityRevision
      accountScopeChangeAt := account.lastScopeChangeAt
      identityRevision := identity.identityRevision
      nextAttemptAt := session.leaseNow }
  let leased := checkpoint.grant request.owner request.leaseSeconds request.probeInterval
    session.leaseNow
  let fields := leaseFields account leased fenced identity request.owner
    (session.leaseNow + seconds request.leaseSeconds)
  match save fenced with
  | none => (.error (.repository .repositoryUnavailable), s)
  | some s' =>
      if h : fields.error = none then (.ok (some ⟨fields, h⟩), s'.putCheckpoint leased)
      else (.error (.value (fields.error.getD "")), s')

def probeable (s : ReconciliationStore) (account : IdentityProviderAccount)
    (identity : ExternalIdentity) : Bool :=
  identity.belongsToAccount account && s.hasAccountAlias identity account &&
    s.hasActiveMembership identity && identity.state == .active &&
    identity.subjectType == "user_id"

def failPending (session : ClaimSession) (checkpoint : IdentityReconciliationCheckpoint)
    (target : IdentityReconciliationTarget) (identity : Option ExternalIdentity)
    (s : ReconciliationStore) : ReconciliationStore :=
  -- the cursor goes to the identity of the target here, also backwards
  let failed : IdentityReconciliationCheckpoint :=
    { checkpoint with
      cursorIdentityId := (identity.map ExternalIdentity.id).or checkpoint.cursorIdentityId
      errorCount := checkpoint.errorCount + 1 }
  (s.putTarget { target with
      state := .failed
      safeErrorCode := some ReconciliationErrorCode.fenceConflict.value }).putCheckpoint
    (failed.advanceNextRun session.eligibilityNow).clearLease

def completeInactive (session : ClaimSession) (checkpoint : IdentityReconciliationCheckpoint)
    (target : IdentityReconciliationTarget) (identity : ExternalIdentity)
    (s : ReconciliationStore) : ReconciliationStore :=
  let passed : IdentityReconciliationCheckpoint :=
    { checkpoint with cursorIdentityId := some (maxCursor checkpoint.cursorIdentityId identity.id) }
  (s.putTarget { target with
      state := .completed
      nextAttemptAt := session.eligibilityNow
      safeErrorCode := none }).putCheckpoint
    (passed.advanceNextRun session.eligibilityNow).clearLease

def claimPending (request : ClaimRequest) (session : ClaimSession)
    (account : IdentityProviderAccount) (checkpoint : IdentityReconciliationCheckpoint)
    (target : IdentityReconciliationTarget) (s : ReconciliationStore) :
    Except ReconciliationError (Option ReconciliationLease) × ReconciliationStore :=
  match s.directory.identities.get? target.externalIdentityId with
  | none => (.ok none, failPending session checkpoint target none s)
  | some identity =>
      if identity.seenSince request.activeSince = false then
        (.ok none, completeInactive session checkpoint target identity s)
      else if probeable s account identity = false then
        (.ok none, failPending session checkpoint target (some identity) s)
      else
        let current :=
          if target.accountRevision ≠ account.identityRevision ∨
              target.accountScopeChangeAt ≠ account.lastScopeChangeAt ∨
              target.identityRevision ≠ identity.identityRevision then target.resetAbsence
          else target
        grantLease request session account checkpoint current identity
          (fun row => some (s.putTarget row)) s

def newTarget (session : ClaimSession) (account : IdentityProviderAccount)
    (checkpoint : IdentityReconciliationCheckpoint) (identity : ExternalIdentity) :
    IdentityReconciliationTarget where
  id := session.newId
  checkpointId := checkpoint.id
  providerAccountId := account.id
  tenantId := account.tenantId
  provider := account.provider
  providerTenantKey := account.providerTenantKey
  externalIdentityId := identity.id
  accountRevision := account.identityRevision
  accountScopeChangeAt := account.lastScopeChangeAt
  identityRevision := identity.identityRevision
  state := .pending
  nextAttemptAt := session.eligibilityNow
  lastOutcome := none
  notFoundCount := 0
  firstNotFoundAt := none
  lastNotFoundAt := none
  lastObservedAt := none
  lastSuccessAt := none
  lastActivityAt := identity.lastSeenAt
  verifiedAt := none
  proofAccountRevision := none
  proofScopeChangeAt := none
  proofIdentityRevision := none
  safeErrorCode := none

def renewTarget (session : ClaimSession) (identity : ExternalIdentity)
    (target : IdentityReconciliationTarget) : IdentityReconciliationTarget :=
  { target.resetAbsence with
    state := .pending
    nextAttemptAt := session.eligibilityNow
    lastOutcome := none
    safeErrorCode := none
    lastActivityAt := identity.lastSeenAt }

def claimScanned (request : ClaimRequest) (session : ClaimSession)
    (account : IdentityProviderAccount) (checkpoint : IdentityReconciliationCheckpoint)
    (s : ReconciliationStore) :
    Except ReconciliationError (Option ReconciliationLease) × ReconciliationStore :=
  match s.scannedIdentity account checkpoint.cursorIdentityId request.activeSince with
  | none =>
      (.ok none, s.completeCycle account checkpoint session.eligibilityNow
        request.cycleIntervalSeconds (s.nextPendingAttemptAt checkpoint.id) true)
  | some identity =>
      match s.targetOf account.id identity.id with
      | none =>
          grantLease request session account checkpoint
            (newTarget session account checkpoint identity) identity
            (fun row => (s.targets.insert? row).map (fun targets => { s with targets := targets })) s
      | some target =>
          grantLease request session account checkpoint (renewTarget session identity target)
            identity (fun row => some (s.putTarget row)) s

def leaseRuns (checkpoint : IdentityReconciliationCheckpoint) (now : Int) : Bool :=
  checkpoint.leaseOwner.isSome && checkpoint.leaseUntil.all (fun until_ => now < until_)

def claimLocked (request : ClaimRequest) (session : ClaimSession) (tenant : Tenant)
    (account : IdentityProviderAccount) (checkpoint : IdentityReconciliationCheckpoint)
    (s : ReconciliationStore) :
    Except ReconciliationError (Option ReconciliationLease) × ReconciliationStore :=
  if tenant.status ≠ validStatus then
    (.ok none, s.completeCycle account checkpoint session.eligibilityNow
      request.cycleIntervalSeconds none false)
  else if leaseRuns checkpoint session.eligibilityNow then (.ok none, s)
  else if session.eligibilityNow < checkpoint.nextRunAt then (.ok none, s)
  else if reconcilableHealth.contains account.identityHealthState = false then
    (.ok none, s.completeCycle account checkpoint session.eligibilityNow
      request.cycleIntervalSeconds none false)
  else
    let running := checkpoint.startCycle session.eligibilityNow
    match s.dueTarget running.id session.eligibilityNow with
    | some target => claimPending request session account running target s
    | none => claimScanned request session account running s

def claimCheckpoint (checkpointId : String) (request : ClaimRequest) (session : ClaimSession)
    (s : ReconciliationStore) :
    Except ReconciliationError (Option ReconciliationLease) × ReconciliationStore :=
  match s.checkpoints.get? checkpointId with
  | none => (.ok none, s)
  | some checkpoint =>
      match s.directory.tenants.get? checkpoint.tenantId,
          s.directory.accounts.get? checkpoint.providerAccountId with
      | some tenant, some account =>
          if session.tenantLocked || session.accountLocked || session.checkpointLocked then
            (.ok none, s)
          else claimLocked request session tenant account checkpoint s
      | _, _ => (.ok none, s)

def claimNext (checkpointId : String) (request : ClaimRequest) (session : ClaimSession)
    (s : ReconciliationStore) :
    Except ReconciliationError (Option ReconciliationLease) × ReconciliationStore :=
  match request.validate with
  | .error error => (.error error, s)
  | .ok () => inTransaction (claimCheckpoint checkpointId request session) s

/-! ### Applying -/

structure ApplyRequest where
  lease : ReconciliationLease
  observation : ReconciliationObservation
  probeInterval : Int
  unavailableDelaySeconds : Int
  notFoundConfirmationSeconds : Int
  cycleIntervalSeconds : Int
  degradeAfterFailures : Nat
  maxTightenPerCycle : Nat

def ApplyRequest.validate (request : ApplyRequest) : Except ReconciliationError Unit := do
  requireProbeInterval request.probeInterval
  requirePositive request.unavailableDelaySeconds "unavailable_delay_seconds"
  requirePositive request.notFoundConfirmationSeconds "not_found_confirmation_seconds"
  requirePositive request.cycleIntervalSeconds "cycle_interval_seconds"
  requirePositive request.degradeAfterFailures "degrade_after_failures"
  requirePositive request.maxTightenPerCycle "max_tighten_per_cycle"

/-- The four row objects `_apply_observation` changes in place. -/
structure ObservedRows where
  account : IdentityProviderAccount
  checkpoint : IdentityReconciliationCheckpoint
  target : IdentityReconciliationTarget
  identity : ExternalIdentity

def ReconciliationStore.putObserved (s : ReconciliationStore) (rows : ObservedRows) :
    ReconciliationStore :=
  (((s.putAccount rows.account).putIdentity rows.identity).putTarget rows.target).putCheckpoint
    rows.checkpoint

namespace ObservedRows

/-- `_set_account_health` once the failures have reached the limit. -/
def degrade (rows : ObservedRows) (degradeAfterFailures : Nat) : IdentityProviderAccount :=
  if degradeAfterFailures ≤ rows.checkpoint.consecutiveFailures then
    rows.account.setHealth .degraded
  else rows.account

def recordFailure (rows : ObservedRows) (code : String) (degradeAfterFailures : Nat) :
    ObservedRows :=
  let failed : ObservedRows :=
    { rows with
      checkpoint := { rows.checkpoint with
        errorCount := rows.checkpoint.errorCount + 1
        consecutiveFailures := rows.checkpoint.consecutiveFailures + 1
        safeErrorCode := some code } }
  let account := failed.degrade degradeAfterFailures
  { failed with
    account := account
    target := { rows.target with
      safeErrorCode := some code
      accountRevision := account.identityRevision } }

def recordSuccess (rows : ObservedRows) : ObservedRows :=
  { rows with
    checkpoint := { rows.checkpoint with consecutiveFailures := 0, safeErrorCode := none }
    target := { rows.target with
      safeErrorCode := none
      accountRevision := rows.account.identityRevision } }

def finish (rows : ObservedRows) (now : Int) (failed : Bool) (errorCode : Option String) :
    ObservedRows :=
  { rows with
    checkpoint := rows.checkpoint.finishTarget rows.identity.id now
    target := rows.target.finish now failed errorCode }

def tighten (rows : ObservedRows) (state : ExternalIdentityState) : ObservedRows :=
  { rows with
    identity := { rows.identity with
      state := state
      identityRevision := rows.identity.identityRevision + 1 }
    checkpoint := { rows.checkpoint with
      tightenedCount := rows.checkpoint.tightenedCount + 1 } }

/-- An absence that is not confirmed yet: the target stays pending until `retryAt`. -/
def awaitConfirmation (rows : ObservedRows) (retryAt now : Int) :
    ReconciliationApplyResult × ObservedRows :=
  (⟨.confirmationPending, false, rows.account.identityRevision, some retryAt, none⟩,
    { rows with
      checkpoint := rows.checkpoint.advancePastPendingTarget rows.identity.id now
      target := { rows.target with state := .pending, nextAttemptAt := retryAt } })

end ObservedRows

variable (request : ApplyRequest) (observation : ReconciliationObservation) (now : Int)

def applyUnavailable (rows : ObservedRows) : ReconciliationApplyResult × ObservedRows :=
  let code := observation.safeErrorCode.getD ReconciliationErrorCode.providerUnavailable.value
  let failed := rows.recordFailure code request.degradeAfterFailures
  let retryAt := max failed.checkpoint.nextRunAt (now + seconds request.unavailableDelaySeconds)
  (⟨.retryScheduled, false, failed.account.identityRevision, some retryAt, some code⟩,
    { failed with
      checkpoint := (failed.checkpoint.advanceNextRun retryAt).clearLease
      target := { failed.target with state := .pending, nextAttemptAt := retryAt } })

def applyInvalid (rows : ObservedRows) : ReconciliationApplyResult × ObservedRows :=
  let code := observation.safeErrorCode.getD ReconciliationErrorCode.providerResultInvalid.value
  let failed := (rows.recordFailure code request.degradeAfterFailures).finish now true (some code)
  let retryAt := max failed.checkpoint.nextRunAt (now + seconds request.unavailableDelaySeconds)
  (⟨.targetRejected, false, failed.account.identityRevision, some retryAt, some code⟩,
    { failed with checkpoint := failed.checkpoint.advanceNextRun retryAt })

/-- The target's absence was seen before and the window has passed, or the answer
    is another one: `none` when a confirmation is still awaited. -/
def confirmAbsence (rows : ObservedRows) :
    Except (ReconciliationApplyResult × ObservedRows) ObservedRows :=
  let window := seconds request.notFoundConfirmationSeconds
  if observation.status ≠ .notFound then .ok rows
  else if rows.target.notFoundCount = 0 then
    let first := rows.recordSuccess
    let retryAt := max first.checkpoint.nextRunAt (now + window)
    .error (ObservedRows.awaitConfirmation
      { first with target := { first.target with
          notFoundCount := 1
          firstNotFoundAt := some now
          lastNotFoundAt := some now } } retryAt now)
  else if rows.target.lastNotFoundAt.all (fun last => decide (now < last + window)) then
    let again := rows.recordSuccess
    let retryAt := max again.checkpoint.nextRunAt (rows.target.lastNotFoundAt.getD now + window)
    .error (again.awaitConfirmation retryAt now)
  else
    .ok { rows with target := { rows.target with
      notFoundCount := rows.target.notFoundCount + 1
      lastNotFoundAt := some now } }

def wouldTighten (rows : ObservedRows) : Bool :=
  tighteningStatuses.contains observation.status ||
    (observation.status == .notFound && rows.identity.negativeIsCurrent now)

def openCircuit (rows : ObservedRows) : ReconciliationApplyResult × ObservedRows :=
  let code := ReconciliationErrorCode.tightenCircuitOpen.value
  let account := rows.account.setHealth .degraded
  let counted : IdentityReconciliationCheckpoint :=
    { rows.checkpoint with
      errorCount := rows.checkpoint.errorCount + 1
      processedCount := rows.checkpoint.processedCount + 1
      consecutiveFailures := rows.checkpoint.consecutiveFailures + 1
      safeErrorCode := some code }
  -- the counted failure rules out the recovery `_complete_cycle` allows
  let checkpoint := counted.completeCycle now request.cycleIntervalSeconds none
  (⟨.circuitOpen, false, account.identityRevision, some checkpoint.nextRunAt, some code⟩,
    { rows with
      account := account
      checkpoint := checkpoint
      target := { rows.target with
        state := .failed
        safeErrorCode := some code
        nextAttemptAt := now
        accountRevision := account.identityRevision } })

def applyProof (proofAt : Int) (rows : ObservedRows) : Bool × ObservedRows :=
  let updatesTargetProof := rows.target.verifiedAt.all (fun verifiedAt => verifiedAt ≤ proofAt)
  let newer := rows.identity.verifiedAt.all (fun verifiedAt => verifiedAt < proofAt)
  let identity :=
    if newer then
      { rows.identity with
        verifiedAt := some proofAt
        identityRevision := rows.identity.identityRevision + 1 }
    else rows.identity
  let proved :=
    if updatesTargetProof then
      { rows.target with
        verifiedAt := some proofAt
        proofAccountRevision := some rows.account.identityRevision
        proofScopeChangeAt := rows.account.lastScopeChangeAt
        proofIdentityRevision := some identity.identityRevision }
    else rows.target
  (newer, { rows with
    identity := identity
    target := { proved with
      notFoundCount := 0, firstNotFoundAt := none, lastNotFoundAt := none } })

/-- The branches of the provider's answer: whether the identity changed, the error
    code that fails the target, and the rows. -/
def applyAnswer (rows : ObservedRows) :
    Except ReconciliationError (Bool × Option String × ObservedRows) :=
  match observation.status with
  | .resolved =>
      match observation.verifiedAt with
      | none => .error (.repository .providerResultInvalid)
      | some proofAt =>
          let proved := applyProof proofAt rows
          .ok (proved.1, none, proved.2)
  | .inactive | .notFound =>
      if rows.identity.negativeIsCurrent now then .ok (true, none, rows.tighten .inactive)
      else .ok (false, none, rows)
  | .conflict =>
      let code := ReconciliationErrorCode.providerConflict.value
      let tightened := rows.tighten .conflict
      let failed : ObservedRows :=
        { tightened with
          checkpoint := { tightened.checkpoint with
            errorCount := tightened.checkpoint.errorCount + 1
            consecutiveFailures := tightened.checkpoint.consecutiveFailures + 1
            safeErrorCode := some code }
          target := { tightened.target with safeErrorCode := some code } }
      .ok (true, some code, { failed with account := failed.degrade request.degradeAfterFailures })
  | _ => .ok (false, none, rows)

def applyDecided (rows : ObservedRows) :
    Except ReconciliationError ReconciliationApplyResult × ObservedRows :=
  let counted := if observation.status = .conflict then rows else rows.recordSuccess
  match applyAnswer request observation now counted with
  | .error error => (.error error, counted)
  | .ok (identityChanged, errorCode, answered) =>
      let fenced : ObservedRows :=
        { answered with target := { answered.target with
            identityRevision := answered.identity.identityRevision
            accountRevision := answered.account.identityRevision } }
      let finished := fenced.finish now errorCode.isSome errorCode
      (.ok ⟨.applied, identityChanged, finished.account.identityRevision,
        some finished.checkpoint.nextRunAt, errorCode⟩, finished)

def applyObservation (rows : ObservedRows) :
    Except ReconciliationError ReconciliationApplyResult × ObservedRows :=
  let observed : ObservedRows :=
    { rows with target := { rows.target with
        lastObservedAt := some now
        lastOutcome := some observation.status } }
  match observation.status with
  | .unavailable =>
      let r := applyUnavailable request observation now observed
      (.ok r.1, r.2)
  | .invalid =>
      let r := applyInvalid request observation now observed
      (.ok r.1, r.2)
  | _ =>
      let answered : ObservedRows :=
        { observed with
          target := { observed.target with lastSuccessAt := some now }
          checkpoint := { observed.checkpoint with lastSuccessAt := some now } }
      match confirmAbsence request observation now answered with
      | .error r => (.ok r.1, r.2)
      | .ok confirmed =>
          if wouldTighten observation now confirmed &&
              decide (request.maxTightenPerCycle ≤ confirmed.checkpoint.tightenedCount) then
            let r := openCircuit request now confirmed
            (.ok r.1, r.2)
          else applyDecided request observation now confirmed

def fenceResult (accountRevision : Nat) : ReconciliationApplyResult :=
  ⟨.fenceRejected, false, accountRevision, none,
    some ReconciliationErrorCode.fenceConflict.value⟩

theorem invalidFields_accepted (observedAt : Int) :
    (ObservationFields.mk .invalid observedAt none
      (some ReconciliationErrorCode.providerResultInvalid.value)).error = none := by
  have hcode : safeCode ReconciliationErrorCode.providerResultInvalid.value = true := by decide
  simp [ObservationFields.error, ObservationFields.proofError, ObservationFields.codeError, hcode]

def effectiveObservation (observation : ReconciliationObservation) (now : Int) :
    ReconciliationObservation :=
  if now + maxFutureSkew < observation.observedAt then
    ⟨⟨.invalid, min observation.observedAt now, none,
        some ReconciliationErrorCode.providerResultInvalid.value⟩, invalidFields_accepted _⟩
  else observation

def ReconciliationStore.rejectFence (s : ReconciliationStore)
    (checkpoint : IdentityReconciliationCheckpoint) (target : Option IdentityReconciliationTarget)
    (now : Int) : ReconciliationStore :=
  let s' := s.putCheckpoint (checkpoint.rejectFence now)
  match target with
  | none => s'
  | some target =>
      s'.putTarget (target.finish now true (some ReconciliationErrorCode.fenceConflict.value))

def identityMoved (identity : ExternalIdentity) (lease : ReconciliationLease) : Bool :=
  identity.identityRevision != lease.identityRevision || identity.state != .active ||
    identity.subjectType != "user_id" || identity.subjectValue != lease.subjectValue

/-- `apply` under a lease that matches.  `checkpoint` has the new floor already. -/
def applyFenced (request : ApplyRequest) (now : Int) (tenant : Tenant)
    (account : IdentityProviderAccount) (checkpoint : IdentityReconciliationCheckpoint)
    (identity : Option ExternalIdentity) (target : Option IdentityReconciliationTarget)
    (s : ReconciliationStore) :
    Except ReconciliationError ReconciliationApplyResult × ReconciliationStore :=
  if tenant.status ≠ validStatus then
    (.ok (fenceResult account.identityRevision),
      s.completeCycle account checkpoint now request.cycleIntervalSeconds none false)
  else
    match identity, target with
    | some identity, some target =>
        if accountFenceMatches account request.lease.context = false ∨
            targetFenceMatches target request.lease = false then
          (.ok (fenceResult account.identityRevision), s.rejectFence checkpoint (some target) now)
        else if identityMoved identity request.lease then
          (.ok (fenceResult account.identityRevision),
            (s.putTarget (target.finish now true
              (some ReconciliationErrorCode.fenceConflict.value))).putCheckpoint
                (checkpoint.finishTarget identity.id now))
        else
          let r := applyObservation request (effectiveObservation request.observation now) now
            ⟨account, checkpoint, target, identity⟩
          (r.1, s.putObserved r.2)
    | _, _ => (.ok (fenceResult account.identityRevision), s.rejectFence checkpoint target now)

def applyLocked (request : ApplyRequest) (now : Int) (s : ReconciliationStore) :
    Except ReconciliationError ReconciliationApplyResult × ReconciliationStore :=
  let refused : ReconciliationApplyResult :=
    fenceResult request.lease.context.providerAccountRevision
  match s.checkpoints.get? request.lease.checkpointId with
  | none => (.ok refused, s)
  | some checkpoint =>
      match s.directory.tenants.get? checkpoint.tenantId,
          s.directory.accounts.get? checkpoint.providerAccountId with
      | some tenant, some account =>
          if leaseMatches checkpoint request.lease now = false then
            (.ok (fenceResult account.identityRevision), s)
          else
            applyFenced request now tenant account
              (checkpoint.advanceNextRun (now + request.probeInterval))
              ((s.directory.identities.get? request.lease.externalIdentityId).filter
                (fun identity => identity.belongsToAccount account))
              ((s.targets.get? request.lease.targetId).filter
                (fun target => target.checkpointId == checkpoint.id)) s
      | _, _ => (.ok refused, s)

def apply (request : ApplyRequest) (now : Int) (s : ReconciliationStore) :
    Except ReconciliationError ReconciliationApplyResult × ReconciliationStore :=
  match request.validate with
  | .error error => (.error error, s)
  | .ok () => inTransaction (applyLocked request now) s

end MultiRag.IdentityReconciliation
