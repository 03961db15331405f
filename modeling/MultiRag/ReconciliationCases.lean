/-
  **What a reconciliation transaction can do to the rows it locks.**

  `ClaimCase`, `ApplyCase` and `ObservedCase` list the branches of a claim, of an apply and of an
  accepted observation; nothing after this file unfolds the transactions again.
-/
import MultiRag.ReconciliationSchedule

namespace MultiRag.IdentityReconciliation

open IdentityReconciliationCheckpoint

/-! ### Claims -/

structure Reached (checkpointId : String) (request : ClaimRequest) (session : ClaimSession)
    (s : ReconciliationStore) (old : IdentityReconciliationCheckpoint)
    (account : IdentityProviderAccount) : Prop where
  valid : request.validate = .ok ()
  checkpoint : s.checkpoints.get? checkpointId = some old
  tenant : ∃ tenant, s.directory.tenants.get? old.tenantId = some tenant ∧
    tenant.status = validStatus
  health : reconcilableHealth.contains account.identityHealthState = true
  account : s.directory.accounts.get? old.providerAccountId = some account
  unlocked : (session.tenantLocked || session.accountLocked || session.checkpointLocked) = false
  free : leaseRuns old session.eligibilityNow = false
  due : old.nextRunAt ≤ session.eligibilityNow

def IdentityReconciliationTarget.fenced (target : IdentityReconciliationTarget)
    (account : IdentityProviderAccount) (identity : ExternalIdentity) (leaseNow : Int) :
    IdentityReconciliationTarget :=
  { target with
    accountRevision := account.identityRevision
    accountScopeChangeAt := account.lastScopeChangeAt
    identityRevision := identity.identityRevision
    nextAttemptAt := leaseNow }

/-- The fence a pending target carries is that of the rows it is about. -/
def fenceCurrent (target : IdentityReconciliationTarget) (account : IdentityProviderAccount)
    (identity : ExternalIdentity) : Prop :=
  target.accountRevision = account.identityRevision ∧
    target.accountScopeChangeAt = account.lastScopeChangeAt ∧
      target.identityRevision = identity.identityRevision

instance (target : IdentityReconciliationTarget) (account : IdentityProviderAccount)
    (identity : ExternalIdentity) : Decidable (fenceCurrent target account identity) :=
  inferInstanceAs (Decidable (_ ∧ _))

def IdentityReconciliationTarget.refresh (target : IdentityReconciliationTarget)
    (account : IdentityProviderAccount) (identity : ExternalIdentity) :
    IdentityReconciliationTarget :=
  if fenceCurrent target account identity then target else target.resetAbsence

def leasedCheckpoint (request : ClaimRequest) (session : ClaimSession)
    (old : IdentityReconciliationCheckpoint) : IdentityReconciliationCheckpoint :=
  (old.startCycle session.eligibilityNow).grant request.owner request.leaseSeconds
    request.probeInterval session.leaseNow

structure LeaseOf (request : ClaimRequest) (session : ClaimSession)
    (old : IdentityReconciliationCheckpoint) (account : IdentityProviderAccount)
    (target : IdentityReconciliationTarget) (identity : ExternalIdentity)
    (lease : ReconciliationLease) : Prop where
  fields : lease.toLeaseFields = leaseFields account (leasedCheckpoint request session old)
    (target.fenced account identity session.leaseNow) identity request.owner
      (session.leaseNow + seconds request.leaseSeconds)

inductive ClaimCase (checkpointId : String) (request : ClaimRequest) (session : ClaimSession)
    (s : ReconciliationStore) : Option ReconciliationLease → ReconciliationStore → Prop
  | idle : ClaimCase checkpointId request session s none s
  | closed {old : IdentityReconciliationCheckpoint} {account : IdentityProviderAccount}
      (checkpoint : s.checkpoints.get? checkpointId = some old)
      (account_eq : s.directory.accounts.get? old.providerAccountId = some account) :
      ClaimCase checkpointId request session s none
        (s.completeCycle account old session.eligibilityNow request.cycleIntervalSeconds none false)
  | exhausted {old : IdentityReconciliationCheckpoint} {account : IdentityProviderAccount}
      (reached : Reached checkpointId request session s old account) :
      ClaimCase checkpointId request session s none
        (s.completeCycle account (old.startCycle session.eligibilityNow) session.eligibilityNow
          request.cycleIntervalSeconds (s.nextPendingAttemptAt old.id) true)
  | failed {old : IdentityReconciliationCheckpoint} {account : IdentityProviderAccount}
      {target : IdentityReconciliationTarget} {found : Option ExternalIdentity}
      (reached : Reached checkpointId request session s old account)
      (due : s.dueTarget old.id session.eligibilityNow = some target)
      (identity : s.directory.identities.get? target.externalIdentityId = found)
      (unprobeable : ∀ identity, found = some identity →
        identity.seenSince request.activeSince = true ∧ probeable s account identity = false) :
      ClaimCase checkpointId request session s none
        (failPending session (old.startCycle session.eligibilityNow) target found s)
  | unseen {old : IdentityReconciliationCheckpoint} {account : IdentityProviderAccount}
      {target : IdentityReconciliationTarget} {identity : ExternalIdentity}
      (reached : Reached checkpointId request session s old account)
      (due : s.dueTarget old.id session.eligibilityNow = some target)
      (identity_eq : s.directory.identities.get? target.externalIdentityId = some identity) :
      ClaimCase checkpointId request session s none
        (completeInactive session (old.startCycle session.eligibilityNow) target identity s)
  | pending {old : IdentityReconciliationCheckpoint} {account : IdentityProviderAccount}
      {target : IdentityReconciliationTarget} {identity : ExternalIdentity}
      {lease : ReconciliationLease} (reached : Reached checkpointId request session s old account)
      (due : s.dueTarget old.id session.eligibilityNow = some target)
      (identity_eq : s.directory.identities.get? target.externalIdentityId = some identity)
      (leased : LeaseOf request session old account target identity lease) :
      ClaimCase checkpointId request session s (some lease)
        ((s.putTarget ((target.refresh account identity).fenced account identity
          session.leaseNow)).putCheckpoint (leasedCheckpoint request session old))
  | scanned {old : IdentityReconciliationCheckpoint} {account : IdentityProviderAccount}
      {identity : ExternalIdentity} {lease : ReconciliationLease}
      {targets : Table IdentityReconciliationTarget IdentityReconciliationTarget.id}
      (reached : Reached checkpointId request session s old account)
      (nodue : s.dueTarget old.id session.eligibilityNow = none)
      (scan : s.scannedIdentity account (old.startCycle session.eligibilityNow).cursorIdentityId
        request.activeSince = some identity)
      (untargeted : s.targetOf account.id identity.id = none)
      (insert : s.targets.insert? ((newTarget session account old identity).fenced account identity
        session.leaseNow) = some targets)
      (leased : LeaseOf request session old account (newTarget session account old identity)
        identity lease) :
      ClaimCase checkpointId request session s (some lease)
        (ReconciliationStore.putCheckpoint { s with targets := targets }
          (leasedCheckpoint request session old))
  | renewed {old : IdentityReconciliationCheckpoint} {account : IdentityProviderAccount}
      {target : IdentityReconciliationTarget} {identity : ExternalIdentity}
      {lease : ReconciliationLease} (reached : Reached checkpointId request session s old account)
      (nodue : s.dueTarget old.id session.eligibilityNow = none)
      (scan : s.scannedIdentity account (old.startCycle session.eligibilityNow).cursorIdentityId
        request.activeSince = some identity)
      (targeted : s.targetOf account.id identity.id = some target)
      (leased : LeaseOf request session old account (renewTarget session identity target) identity
        lease) :
      ClaimCase checkpointId request session s (some lease)
        ((s.putTarget ((renewTarget session identity target).fenced account identity
          session.leaseNow)).putCheckpoint (leasedCheckpoint request session old))

section

variable {checkpointId : String} {request : ClaimRequest} {session : ClaimSession}
  {account : IdentityProviderAccount} {old : IdentityReconciliationCheckpoint}
  {target : IdentityReconciliationTarget} {identity : ExternalIdentity}
  {s s' : ReconciliationStore} {reply : Option ReconciliationLease}

@[simp] theorem startCycle_id (checkpoint : IdentityReconciliationCheckpoint) (now : Int) :
    (checkpoint.startCycle now).id = checkpoint.id :=
  (startCycle_follows checkpoint now).id_eq

theorem grantLease_ok {save : IdentityReconciliationTarget → Option ReconciliationStore}
    (h : grantLease request session account (old.startCycle session.eligibilityNow) target identity
      save s = (.ok reply, s')) :
    ∃ lease saved, reply = some lease ∧ LeaseOf request session old account target identity lease ∧
      save (target.fenced account identity session.leaseNow) = some saved ∧
      s' = saved.putCheckpoint (leasedCheckpoint request session old) := by
  unfold grantLease at h
  simp only at h
  split at h
  · cases h
  · next saved hsaved =>
    split at h
    · next hfields =>
      cases h
      exact ⟨_, saved, rfl, ⟨rfl⟩, hsaved, rfl⟩
    · cases h

theorem claimPending_case (hreached : Reached checkpointId request session s old account)
    (hdue : s.dueTarget old.id session.eligibilityNow = some target)
    (h : claimPending request session account (old.startCycle session.eligibilityNow) target s =
      (.ok reply, s')) : ClaimCase checkpointId request session s reply s' := by
  unfold claimPending at h
  split at h
  · next hnone =>
    cases h
    exact ClaimCase.failed hreached hdue hnone (fun identity hident => by cases hident)
  · next identity hident =>
    split at h
    · cases h
      exact ClaimCase.unseen hreached hdue hident
    · next hseen =>
      rw [Bool.not_eq_false] at hseen
      split at h
      · next hprobe =>
        cases h
        refine ClaimCase.failed hreached hdue hident ?_
        intro x hx
        cases hx
        exact ⟨hseen, hprobe⟩
      · have hrefresh : (if target.accountRevision ≠ account.identityRevision ∨
            target.accountScopeChangeAt ≠ account.lastScopeChangeAt ∨
            target.identityRevision ≠ identity.identityRevision then target.resetAbsence
              else target) = target.refresh account identity := by
          have hiff : fenceCurrent target account identity ↔
              ¬ (target.accountRevision ≠ account.identityRevision ∨
                target.accountScopeChangeAt ≠ account.lastScopeChangeAt ∨
                target.identityRevision ≠ identity.identityRevision) := by
            unfold fenceCurrent
            tauto
          split
          · next hstale => exact (if_neg (fun hcur => hiff.mp hcur hstale)).symm
          · next hcur => exact (if_pos (hiff.mpr hcur)).symm
        simp only [hrefresh] at h
        obtain ⟨lease, saved, rfl, hlease, hsaved, rfl⟩ := grantLease_ok h
        cases hsaved
        have hfenced : LeaseOf request session old account target identity lease := by
          refine ⟨hlease.fields.trans ?_⟩
          unfold leaseFields IdentityReconciliationTarget.fenced IdentityReconciliationTarget.refresh
          split <;> rfl
        exact ClaimCase.pending hreached hdue hident hfenced

theorem claimScanned_case (hreached : Reached checkpointId request session s old account)
    (hnodue : s.dueTarget old.id session.eligibilityNow = none)
    (h : claimScanned request session account (old.startCycle session.eligibilityNow) s =
      (.ok reply, s')) : ClaimCase checkpointId request session s reply s' := by
  unfold claimScanned at h
  split at h
  · cases h
    rw [startCycle_id]
    exact ClaimCase.exhausted hreached
  · next identity hscan =>
    split at h
    · next hnone =>
      have hnew : newTarget session account (old.startCycle session.eligibilityNow) identity =
          newTarget session account old identity := by
        unfold newTarget
        rw [startCycle_id]
      rw [hnew] at h
      obtain ⟨lease, saved, rfl, hlease, hsaved, rfl⟩ := grantLease_ok h
      rw [Option.map_eq_some_iff] at hsaved
      obtain ⟨targets, hinsert, rfl⟩ := hsaved
      exact ClaimCase.scanned hreached hnodue hscan hnone hinsert hlease
    · next target htarget =>
      obtain ⟨lease, saved, rfl, hlease, hsaved, rfl⟩ := grantLease_ok h
      cases hsaved
      exact ClaimCase.renewed hreached hnodue hscan htarget hlease

variable {r : Except ReconciliationError (Option ReconciliationLease)}

theorem claimNext_case
    (h : claimNext checkpointId request session s = (r, s')) :
    (∃ error, r = .error error ∧ s' = s) ∨
      ∃ reply, r = .ok reply ∧ ClaimCase checkpointId request session s reply s' := by
  unfold claimNext at h
  split at h
  · next error _ =>
    cases h
    exact .inl ⟨error, rfl, rfl⟩
  next hvalid =>
  rcases inTransaction_cases h with ⟨reply, rfl, hclaim⟩ | ⟨error, rfl, rfl⟩
  · refine .inr ⟨reply, rfl, ?_⟩
    unfold claimCheckpoint at hclaim
    split at hclaim
    · cases hclaim
      exact ClaimCase.idle
    next old hold =>
    split at hclaim
    · next tenant account htenant hacct =>
      split at hclaim
      · cases hclaim
        exact ClaimCase.idle
      next hunlocked =>
      unfold claimLocked at hclaim
      split at hclaim
      · cases hclaim
        exact ClaimCase.closed hold hacct
      next hstatus =>
      split at hclaim
      · cases hclaim
        exact ClaimCase.idle
      next hfree =>
      split at hclaim
      · cases hclaim
        exact ClaimCase.idle
      next hdue =>
      split at hclaim
      · cases hclaim
        exact ClaimCase.closed hold hacct
      next hhealth =>
      have hreached : Reached checkpointId request session s old account := by
        constructor
        · exact hvalid
        · exact hold
        · exact ⟨tenant, htenant, not_not.mp hstatus⟩
        · rwa [Bool.not_eq_false] at hhealth
        · exact hacct
        · rwa [Bool.not_eq_true] at hunlocked
        · rwa [Bool.not_eq_true] at hfree
        · exact not_lt.mp hdue
      simp only [startCycle_id] at hclaim
      split at hclaim
      · next target htarget => exact claimPending_case hreached htarget hclaim
      · next hnone => exact claimScanned_case hreached hnone hclaim
    · cases hclaim
      exact ClaimCase.idle
  · exact .inl ⟨error, rfl, rfl⟩

/-! What a claim leaves of the schedule. -/

theorem granted_leased {lease : ReconciliationLease} (hreached : Reached checkpointId request session s old account)
    (hleased : LeaseOf request session old account target identity lease) :
    Granted request session old (leasedCheckpoint request session old) lease := by
  have hrunning := startCycle_follows old session.eligibilityNow
  have hfields := hleased.fields
  constructor
  · exact hreached.due
  · exact hreached.free
  · exact (advanceNextRun_follows _ _).id_eq.trans hrunning.id_eq
  · exact (advanceNextRun_follows _ _).account_eq.trans hrunning.account_eq
  · simp [leasedCheckpoint, grant, leaseFields, hfields]
  · exact hrunning.attempt_eq ▸ (advanceNextRun_follows _ _).attempt_eq
  · simp [leasedCheckpoint, grant, leaseFields, hfields]
  · exact le_trans hrunning.nextRunAt_le (advanceNextRun_follows _ _).nextRunAt_le
  · exact le_nextRunAt_advanceNextRun _ _
  · rw [hfields]
    exact (advanceNextRun_follows _ _).id_eq.trans hrunning.id_eq
  · rw [hfields]
    rfl
  · have hacct : account.id = old.providerAccountId := Table.key_of_get? hreached.account
    rw [hfields]
    exact hacct

theorem claimNext_cases
    (h : claimNext checkpointId request session s = (r, s')) :
    (s' = s ∧ ∀ lease, r ≠ .ok (some lease)) ∨
      ∃ old reply, s.checkpoints.get? checkpointId = some old ∧ r = .ok reply ∧
        ClaimOutcome request session old s reply s' := by
  rcases claimNext_case h with ⟨error, rfl, rfl⟩ | ⟨reply, rfl, hcase⟩
  · exact .inl ⟨rfl, fun lease hlease => by cases hlease⟩
  cases hcase with
  | idle => exact .inl ⟨rfl, fun lease hlease => by cases hlease⟩
  | closed hold _ =>
    obtain ⟨new, hnew, hput⟩ := completeCycle_checkpoints (Follows.refl _) _ _ _ _
    exact .inr ⟨_, _, hold, rfl, ClaimOutcome.aside hnew hput⟩
  | exhausted hreached =>
    obtain ⟨new, hnew, hput⟩ := completeCycle_checkpoints (startCycle_follows _ _) _ _ _ _
    exact .inr ⟨_, _, hreached.checkpoint, rfl, ClaimOutcome.aside hnew hput⟩
  | failed hreached _ _ _ =>
    obtain ⟨new, hnew, hput⟩ := failPending_checkpoints (startCycle_follows _ _) _
    exact .inr ⟨_, _, hreached.checkpoint, rfl, ClaimOutcome.aside hnew hput⟩
  | unseen hreached _ _ =>
    obtain ⟨new, hnew, hput⟩ := completeInactive_checkpoints (startCycle_follows _ _)
    exact .inr ⟨_, _, hreached.checkpoint, rfl, ClaimOutcome.aside hnew hput⟩
  | pending hreached _ _ hleased | scanned hreached _ _ _ _ hleased | renewed hreached _ _ _ hleased =>
    exact .inr ⟨_, _, hreached.checkpoint, rfl, ClaimOutcome.leased (granted_leased hreached hleased) rfl⟩

end

/-! ### Applies -/

structure Matched (request : ApplyRequest) (now : Int) (s : ReconciliationStore)
    (old : IdentityReconciliationCheckpoint) (account : IdentityProviderAccount) : Prop where
  checkpoint : s.checkpoints.get? request.lease.checkpointId = some old
  account : s.directory.accounts.get? old.providerAccountId = some account
  lease : leaseMatches old request.lease now = true

def ApplyRequest.floor (request : ApplyRequest) (now : Int)
    (old : IdentityReconciliationCheckpoint) : IdentityReconciliationCheckpoint :=
  old.advanceNextRun (now + request.probeInterval)

def ReconciliationStore.leasedTarget (s : ReconciliationStore) (request : ApplyRequest)
    (old : IdentityReconciliationCheckpoint) : Option IdentityReconciliationTarget :=
  (s.targets.get? request.lease.targetId).filter (fun target => target.checkpointId == old.id)

structure Fenced (request : ApplyRequest) (s : ReconciliationStore)
    (old : IdentityReconciliationCheckpoint) (account : IdentityProviderAccount)
    (target : IdentityReconciliationTarget) (identity : ExternalIdentity) : Prop where
  target_eq : s.targets.get? request.lease.targetId = some target
  checkpoint : target.checkpointId = old.id
  pending : target.state = .pending
  identity_eq : s.directory.identities.get? target.externalIdentityId = some identity
  revision : target.accountRevision = account.identityRevision
  scope : target.accountScopeChangeAt = account.lastScopeChangeAt

inductive ApplyCase (request : ApplyRequest) (now : Int) (s : ReconciliationStore) :
    ReconciliationApplyResult → ReconciliationStore → Prop
  | idle {result : ReconciliationApplyResult} (outcome : result.outcome = .fenceRejected) :
      ApplyCase request now s result s
  | closed {old : IdentityReconciliationCheckpoint} {account : IdentityProviderAccount}
      (matched : Matched request now s old account) :
      ApplyCase request now s (fenceResult account.identityRevision)
        (s.completeCycle account (request.floor now old) now request.cycleIntervalSeconds none
          false)
  | rejected {old : IdentityReconciliationCheckpoint} {account : IdentityProviderAccount}
      (matched : Matched request now s old account) :
      ApplyCase request now s (fenceResult account.identityRevision)
        (s.rejectFence (request.floor now old) (s.leasedTarget request old) now)
  | moved {old : IdentityReconciliationCheckpoint} {account : IdentityProviderAccount}
      {target : IdentityReconciliationTarget} {identity : ExternalIdentity}
      (matched : Matched request now s old account)
      (fenced : Fenced request s old account target identity) :
      ApplyCase request now s (fenceResult account.identityRevision)
        ((s.putTarget (target.finish now true
          (some ReconciliationErrorCode.fenceConflict.value))).putCheckpoint
            ((request.floor now old).finishTarget identity.id now))
  | observed {old : IdentityReconciliationCheckpoint} {account : IdentityProviderAccount}
      {target : IdentityReconciliationTarget} {identity : ExternalIdentity}
      {result : ReconciliationApplyResult} {rows : ObservedRows}
      (matched : Matched request now s old account)
      (fenced : Fenced request s old account target identity)
      (current : target.identityRevision = identity.identityRevision)
      (active : identity.state = .active)
      (observation : applyObservation request (effectiveObservation request.observation now) now
        ⟨account, request.floor now old, target, identity⟩ = (.ok result, rows)) :
      ApplyCase request now s result (s.putObserved rows)

variable {request : ApplyRequest} {now : Int} {s s' : ReconciliationStore}
  {result : ReconciliationApplyResult} {old : IdentityReconciliationCheckpoint}
  {account : IdentityProviderAccount} {tenant : Tenant}

theorem fenced_of_matches {target : IdentityReconciliationTarget} {identity : ExternalIdentity}
    (htarget : s.leasedTarget request old = some target)
    (hident : s.directory.identities.get? request.lease.externalIdentityId = some identity)
    (hacct : accountFenceMatches account request.lease.context = true)
    (hfence : targetFenceMatches target request.lease = true) :
    Fenced request s old account target identity ∧
      target.identityRevision = request.lease.identityRevision := by
  unfold ReconciliationStore.leasedTarget at htarget
  simp only [Option.filter_eq_some_iff, beq_iff_eq] at htarget
  simp only [targetFenceMatches, Bool.and_eq_true, beq_iff_eq] at hfence
  rw [accountFenceMatches, beq_iff_eq] at hacct
  obtain ⟨⟨⟨⟨⟨-, hpend⟩, hexternal⟩, hrev⟩, hscope⟩, hcur⟩ := hfence
  refine ⟨⟨htarget.1, htarget.2, hpend, ?_, ?_, ?_⟩, hcur⟩
  · rw [hexternal]
    exact hident
  · rw [hrev, ← hacct]
    rfl
  · rw [hscope, ← hacct]
    rfl

theorem applyFenced_case (hmatched : Matched request now s old account)
    (h : applyFenced request now tenant account (request.floor now old)
      ((s.directory.identities.get? request.lease.externalIdentityId).filter
        (fun identity => identity.belongsToAccount account))
      (s.leasedTarget request old) s = (.ok result, s')) :
    ApplyCase request now s result s' ∧ (result.outcome ≠ .fenceRejected →
      request.lease.context.providerAccountId = account.id) := by
  unfold applyFenced at h
  split at h
  · cases h
    exact ⟨ApplyCase.closed hmatched, absurd rfl⟩
  split at h
  · next identity target hident htarget =>
    rw [Option.filter_eq_some_iff] at hident
    split at h
    · cases h
      rw [← htarget]
      exact ⟨ApplyCase.rejected hmatched, absurd rfl⟩
    next hfence =>
    rw [not_or, Bool.not_eq_false, Bool.not_eq_false] at hfence
    obtain ⟨hfenced, hcur⟩ := fenced_of_matches htarget hident.1 hfence.1 hfence.2
    split at h
    · cases h
      exact ⟨ApplyCase.moved hmatched hfenced, absurd rfl⟩
    next hmoved =>
    simp only [identityMoved, Bool.or_eq_true, bne_iff_ne, not_or, not_not] at hmoved
    simp only [Prod.mk.injEq] at h
    obtain ⟨hresult, rfl⟩ := h
    refine ⟨ApplyCase.observed hmatched hfenced (hcur.trans hmoved.1.1.1.symm) hmoved.1.1.2
      (Prod.ext hresult rfl), fun _ => ?_⟩
    rw [← eq_of_beq hfence.1]
    rfl
  · cases h
    exact ⟨ApplyCase.rejected hmatched, absurd rfl⟩

theorem apply_case {r : Except ReconciliationError ReconciliationApplyResult}
    (h : apply request now s = (r, s')) :
    (∃ error, r = .error error ∧ s' = s) ∨
      ∃ result, r = .ok result ∧ ApplyCase request now s result s' ∧ (result.outcome ≠ .fenceRejected →
        ∀ old, s.checkpoints.get? request.lease.checkpointId = some old →
          request.lease.context.providerAccountId = old.providerAccountId) := by
  unfold apply at h
  split at h
  · next error _ =>
    cases h
    exact .inl ⟨error, rfl, rfl⟩
  rcases inTransaction_cases h with ⟨result, rfl, happly⟩ | ⟨error, rfl, rfl⟩
  · refine .inr ⟨result, rfl, ?_⟩
    unfold applyLocked at happly
    split at happly
    · cases happly
      exact ⟨ApplyCase.idle rfl, absurd rfl⟩
    next old hold =>
    split at happly
    · next tenant account _ hacct =>
      split at happly
      · cases happly
        exact ⟨ApplyCase.idle rfl, absurd rfl⟩
      next hlease =>
      rw [Bool.not_eq_false] at hlease
      obtain ⟨hcase, haccount⟩ := applyFenced_case ⟨hold, hacct, hlease⟩ happly
      refine ⟨hcase, fun hout old' hold' => ?_⟩
      cases hold.symm.trans hold'
      exact (haccount hout).trans (Table.key_of_get? hacct)
    · cases happly
      exact ⟨ApplyCase.idle rfl, absurd rfl⟩
  · exact .inl ⟨error, rfl, rfl⟩

theorem Matched.applied {new : IdentityReconciliationCheckpoint} (hmatched : Matched request now s old account)
    (hnew : (request.floor now old).Follows new) (haccount : result.outcome ≠ .fenceRejected →
      request.lease.context.providerAccountId = old.providerAccountId) :
    Applied request now old new result where
  lease_eq := hmatched.lease
  follows := (advanceNextRun_follows old _).trans hnew
  reserved := le_trans (le_nextRunAt_advanceNextRun old _) hnew.nextRunAt_le
  account_eq := haccount

theorem apply_cases {r : Except ReconciliationError ReconciliationApplyResult}
    (h : apply request now s = (r, s')) :
    (s' = s ∧ ∀ result, r = .ok result → result.outcome = .fenceRejected) ∨
      ∃ old new result, s.checkpoints.get? request.lease.checkpointId = some old ∧
        r = .ok result ∧ Applied request now old new result ∧
          s'.checkpoints = s.checkpoints.put new := by
  rcases apply_case h with ⟨error, rfl, rfl⟩ | ⟨result, rfl, hcase, haccount⟩
  · exact .inl ⟨rfl, fun result hresult => by cases hresult⟩
  cases hcase with
  | idle hout =>
    refine .inl ⟨rfl, ?_⟩
    rintro _ ⟨⟩
    exact hout
  | closed hmatched =>
    obtain ⟨new, hnew, hput⟩ := completeCycle_checkpoints (Follows.refl _) _ _ _ _
    exact .inr ⟨_, new, _, hmatched.checkpoint, rfl, hmatched.applied hnew (absurd rfl), hput⟩
  | rejected hmatched =>
    exact .inr ⟨_, _, _, hmatched.checkpoint, rfl, hmatched.applied (rejectFence_follows _ _) (absurd rfl),
      rejectFence_checkpoints⟩
  | moved hmatched _ =>
    exact .inr ⟨_, _, _, hmatched.checkpoint, rfl, hmatched.applied (finishTarget_follows _ _ _) (absurd rfl), rfl⟩
  | observed hmatched _ _ _ hobservation =>
    exact .inr ⟨_, _, _, hmatched.checkpoint, rfl, hmatched.applied
      (applyObservation_follows request _ now _ hobservation)
        (fun hout => haccount hout _ hmatched.checkpoint), rfl⟩

/-! ### Observations -/

/-- The part of a checkpoint that belongs to the running cycle is as before. -/
structure SameCycle (old new : IdentityReconciliationCheckpoint) : Prop where
  started : new.cycleStartedAt = old.cycleStartedAt
  cursor : new.cursorIdentityId = old.cursorIdentityId
  tightened : new.tightenedCount = old.tightenedCount

structure Passed (old new : IdentityReconciliationCheckpoint) (identityId : String) : Prop where
  started : new.cycleStartedAt = old.cycleStartedAt
  cursor : new.cursorIdentityId = some (maxCursor old.cursorIdentityId identityId)

/-- What every observation keeps. -/
structure ObservedRows.Kept (rows rows' : ObservedRows) : Prop where
  account : rows'.account = rows.account ∨ ∃ desired, rows'.account = rows.account.setHealth desired
  checkpoint_id : rows'.checkpoint.id = rows.checkpoint.id
  checkpoint_account : rows'.checkpoint.providerAccountId = rows.checkpoint.providerAccountId
  identity_id : rows'.identity.id = rows.identity.id
  target_id : rows'.target.id = rows.target.id
  target_checkpoint : rows'.target.checkpointId = rows.target.checkpointId
  target_account : rows'.target.providerAccountId = rows.target.providerAccountId
  target_identity : rows'.target.externalIdentityId = rows.target.externalIdentityId
  revision : rows'.target.accountRevision = rows'.account.identityRevision
  scope : rows'.target.accountScopeChangeAt = rows.target.accountScopeChangeAt
  identity_fence : rows.target.identityRevision = rows.identity.identityRevision →
    rows'.target.identityRevision = rows'.identity.identityRevision
  identity_revision : rows.identity.identityRevision ≤ rows'.identity.identityRevision

/-- The absence seen by the observation at `now` is the confirmation of an earlier one. -/
def Confirms (request : ApplyRequest) (now : Int) (target : IdentityReconciliationTarget) : Prop :=
  target.notFoundCount ≠ 0 ∧ ∃ last, target.lastNotFoundAt = some last ∧
    last + seconds request.notFoundConfirmationSeconds ≤ now

structure Tightened (request : ApplyRequest) (observation : ReconciliationObservation) (now : Int)
    (rows rows' : ObservedRows) : Prop where
  state : rows'.identity.state = .inactive ∨ rows'.identity.state = .conflict
  absence : rows'.identity.state = .inactive → observation.status = .notFound →
    Confirms request now rows.target
  budget : rows.checkpoint.tightenedCount < request.maxTightenPerCycle
  count : rows'.checkpoint.tightenedCount = rows.checkpoint.tightenedCount + 1

inductive ObservedCase (request : ApplyRequest) (observation : ReconciliationObservation)
    (now : Int) (rows rows' : ObservedRows) : ReconciliationApplyOutcome → Prop
  | retried (status : observation.status = .unavailable) (pending : rows'.target.state = .pending)
      (identity : rows'.identity = rows.identity)
      (fence : rows'.target.identityRevision = rows.target.identityRevision)
      (count : rows'.target.notFoundCount = rows.target.notFoundCount)
      (last : rows'.target.lastNotFoundAt = rows.target.lastNotFoundAt)
      (cycle : SameCycle rows.checkpoint rows'.checkpoint) :
      ObservedCase request observation now rows rows' .retryScheduled
  | awaited (status : observation.status = .notFound) (pending : rows'.target.state = .pending)
      (account : rows'.account = rows.account) (identity : rows'.identity = rows.identity)
      (fence : rows'.target.identityRevision = rows.target.identityRevision)
      (absence : rows'.target.lastNotFoundAt = some now ∨
        (rows.target.notFoundCount ≠ 0 ∧
          rows'.target.lastNotFoundAt = rows.target.lastNotFoundAt))
      (passed : Passed rows.checkpoint rows'.checkpoint rows.identity.id)
      (tightened : rows'.checkpoint.tightenedCount = rows.checkpoint.tightenedCount) :
      ObservedCase request observation now rows rows' .confirmationPending
  | rejected (status : observation.status = .invalid) (state : rows'.target.state = .failed)
      (identity : rows'.identity = rows.identity)
      (passed : Passed rows.checkpoint rows'.checkpoint rows.identity.id)
      (tightened : rows'.checkpoint.tightenedCount = rows.checkpoint.tightenedCount) :
      ObservedCase request observation now rows rows' .targetRejected
  | opened (state : rows'.target.state = .failed) (identity : rows'.identity = rows.identity)
      (stopped : rows'.checkpoint.cycleStartedAt = none)
      (cursor : rows'.checkpoint.cursorIdentityId = none)
      (tightened : rows'.checkpoint.tightenedCount = rows.checkpoint.tightenedCount)
      (released : rows'.checkpoint.leaseOwner = none) :
      ObservedCase request observation now rows rows' .circuitOpen
  | applied (state : rows'.target.state ≠ .pending)
      (passed : Passed rows.checkpoint rows'.checkpoint rows.identity.id)
      (change : (rows'.identity.state = rows.identity.state ∧
          rows'.checkpoint.tightenedCount = rows.checkpoint.tightenedCount) ∨
        Tightened request observation now rows rows') :
      ObservedCase request observation now rows rows' .applied

variable {observation : ReconciliationObservation} {rows rows' : ObservedRows}

theorem advanceNextRun_cycle (checkpoint : IdentityReconciliationCheckpoint) (candidate : Int) :
    SameCycle checkpoint (checkpoint.advanceNextRun candidate) := by
  unfold advanceNextRun
  split
  · exact ⟨rfl, rfl, rfl⟩
  · exact ⟨rfl, rfl, rfl⟩

theorem SameCycle.trans {a b c : IdentityReconciliationCheckpoint} (hab : SameCycle a b)
    (hbc : SameCycle b c) : SameCycle a c :=
  ⟨hbc.started.trans hab.started, hbc.cursor.trans hab.cursor, hbc.tightened.trans hab.tightened⟩

section

variable (checkpoint : IdentityReconciliationCheckpoint)
include checkpoint

theorem release_cycle (candidate : Int) :
    SameCycle checkpoint (checkpoint.advanceNextRun candidate).clearLease :=
  (advanceNextRun_cycle checkpoint candidate).trans ⟨rfl, rfl, rfl⟩

theorem advancePastPendingTarget_passed
    (identityId : String) (now : Int) :
    Passed checkpoint (checkpoint.advancePastPendingTarget identityId now) identityId ∧
      (checkpoint.advancePastPendingTarget identityId now).tightenedCount =
        checkpoint.tightenedCount := by
  have hcycle := release_cycle
    { checkpoint with
      cursorIdentityId := some (maxCursor checkpoint.cursorIdentityId identityId)
      processedCount := checkpoint.processedCount + 1 } now
  exact ⟨⟨hcycle.started, hcycle.cursor⟩, hcycle.tightened⟩

theorem rejectFence_stops (now : Int) : (checkpoint.rejectFence now).cycleStartedAt = none :=
  (release_cycle _ now).started

theorem completeCycle_stops
    (now cycleIntervalSeconds : Int) (pendingAttemptAt : Option Int) :
    (checkpoint.completeCycle now cycleIntervalSeconds pendingAttemptAt).cycleStartedAt = none ∧
      (checkpoint.completeCycle now cycleIntervalSeconds pendingAttemptAt).cursorIdentityId = none ∧
      (checkpoint.completeCycle now cycleIntervalSeconds pendingAttemptAt).tightenedCount =
        checkpoint.tightenedCount := by
  have hcycle := release_cycle
    { checkpoint with
      cycleStartedAt := none, cursorIdentityId := none, lastCompletedAt := some now }
    ((pendingAttemptAt.map (min (now + seconds cycleIntervalSeconds))).getD
      (now + seconds cycleIntervalSeconds))
  exact ⟨hcycle.started, hcycle.cursor, hcycle.tightened⟩

end

theorem degrade_health (degradeAfterFailures : Nat) :
    rows.degrade degradeAfterFailures = rows.account ∨
      ∃ desired, rows.degrade degradeAfterFailures = rows.account.setHealth desired := by
  unfold ObservedRows.degrade
  split
  · exact .inr ⟨_, rfl⟩
  · exact .inl rfl

theorem applyUnavailable_case (hstatus : observation.status = .unavailable)
    (h : applyUnavailable request observation now { rows with target := { rows.target with
      lastObservedAt := some now, lastOutcome := some observation.status } } = (result, rows')) :
    rows.Kept rows' ∧ ObservedCase request observation now rows rows' result.outcome := by
  unfold applyUnavailable at h
  cases h
  refine ⟨⟨degrade_health _, ?_, ?_, rfl, rfl, rfl, rfl, rfl, rfl, rfl, id, le_rfl⟩, ?_⟩
  · exact (advanceNextRun_follows _ _).id_eq
  · exact (advanceNextRun_follows _ _).account_eq
  · exact ObservedCase.retried hstatus rfl rfl rfl rfl rfl
      ⟨(release_cycle _ _).started, (release_cycle _ _).cursor, (release_cycle _ _).tightened⟩

theorem applyInvalid_case (hstatus : observation.status = .invalid)
    (h : applyInvalid request observation now { rows with target := { rows.target with
      lastObservedAt := some now, lastOutcome := some observation.status } } = (result, rows')) :
    rows.Kept rows' ∧ ObservedCase request observation now rows rows' result.outcome := by
  unfold applyInvalid at h
  cases h
  refine ⟨⟨degrade_health _, ?_, ?_, rfl, rfl, rfl, rfl, rfl, rfl, rfl, id, le_rfl⟩, ?_⟩
  · exact (advanceNextRun_follows _ _).id_eq.trans (finishTarget_follows _ _ _).id_eq
  · exact (advanceNextRun_follows _ _).account_eq.trans (finishTarget_follows _ _ _).account_eq
  · refine ObservedCase.rejected hstatus rfl rfl ⟨?_, ?_⟩ ?_
    · exact (advanceNextRun_cycle _ _).started.trans (advancePastPendingTarget_passed _ _ _).1.started
    · exact (advanceNextRun_cycle _ _).cursor.trans (advancePastPendingTarget_passed _ _ _).1.cursor
    · exact (advanceNextRun_cycle _ _).tightened.trans (advancePastPendingTarget_passed _ _ _).2

def ObservedRows.answered (rows : ObservedRows) (observation : ReconciliationObservation)
    (now : Int) : ObservedRows :=
  { rows with
    target := { rows.target with
      lastObservedAt := some now
      lastOutcome := some observation.status
      lastSuccessAt := some now }
    checkpoint := { rows.checkpoint with lastSuccessAt := some now } }

theorem awaitConfirmation_case (target : IdentityReconciliationTarget) (retryAt : Int)
    (hstatus : observation.status = .notFound) (hid : target.id = rows.target.id)
    (hchk : target.checkpointId = rows.target.checkpointId)
    (hacct : target.providerAccountId = rows.target.providerAccountId)
    (hident : target.externalIdentityId = rows.target.externalIdentityId)
    (hrev : target.accountRevision = rows.account.identityRevision)
    (hscope : target.accountScopeChangeAt = rows.target.accountScopeChangeAt)
    (hfence : target.identityRevision = rows.target.identityRevision)
    (habsence : target.lastNotFoundAt = some now ∨ (rows.target.notFoundCount ≠ 0 ∧
      target.lastNotFoundAt = rows.target.lastNotFoundAt)) :
    let awaited := ObservedRows.awaitConfirmation
      { (rows.answered observation now).recordSuccess with target := target } retryAt now
    rows.Kept awaited.2 ∧ ObservedCase request observation now rows awaited.2 awaited.1.outcome := by
  have hfollows := advancePastPendingTarget_follows
    (rows.answered observation now).recordSuccess.checkpoint rows.identity.id now
  refine ⟨⟨.inl rfl, hfollows.id_eq, hfollows.account_eq, rfl, hid, hchk, hacct,
    hident, hrev, hscope, hfence.trans, le_rfl⟩, ?_⟩
  have hpassed := advancePastPendingTarget_passed
    (rows.answered observation now).recordSuccess.checkpoint rows.identity.id now
  exact ObservedCase.awaited hstatus rfl rfl rfl hfence habsence
    ⟨hpassed.1.started, hpassed.1.cursor⟩ hpassed.2

theorem confirmAbsence_error {r : ReconciliationApplyResult × ObservedRows}
    (h : confirmAbsence request observation now (rows.answered observation now) = .error r) :
    rows.Kept r.2 ∧ ObservedCase request observation now rows r.2 r.1.outcome := by
  unfold confirmAbsence at h
  simp only at h
  split at h
  · cases h
  next hstatus =>
  rw [not_not] at hstatus
  split at h
  · cases h
    exact awaitConfirmation_case _ _ hstatus rfl rfl rfl rfl rfl rfl rfl (.inl rfl)
  next hcount =>
  split at h
  · cases h
    exact awaitConfirmation_case _ _ hstatus rfl rfl rfl rfl rfl rfl rfl (.inr ⟨hcount, rfl⟩)
  · cases h

theorem confirmAbsence_ok {confirmed : ObservedRows}
    (h : confirmAbsence request observation now (rows.answered observation now) = .ok confirmed) :
    (observation.status = .notFound → Confirms request now rows.target) ∧
      ∃ count last, confirmed = { rows.answered observation now with
        target := { (rows.answered observation now).target with
          notFoundCount := count, lastNotFoundAt := last } } := by
  unfold confirmAbsence at h
  simp only at h
  split at h
  · next hstatus =>
    cases h
    exact ⟨fun hnotFound => absurd hnotFound hstatus, _, _, rfl⟩
  split at h
  · cases h
  next hcount =>
  split at h
  · cases h
  next hlast =>
  cases h
  refine ⟨fun _ => ⟨hcount, ?_⟩, _, _, rfl⟩
  rw [Bool.not_eq_true, Option.all_eq_false] at hlast
  obtain ⟨last, hsome, hpassed⟩ := hlast
  rw [decide_eq_false_iff_not, not_lt] at hpassed
  exact ⟨last, hsome, hpassed⟩

theorem openCircuit_case (count : Nat) (last : Option Int) :
    let opened := openCircuit request now { rows.answered observation now with
      target := { (rows.answered observation now).target with
        notFoundCount := count, lastNotFoundAt := last } }
    rows.Kept opened.2 ∧ ObservedCase request observation now rows opened.2 opened.1.outcome := by
  refine ⟨⟨.inr ⟨_, rfl⟩, ?_, ?_, rfl, rfl, rfl, rfl, rfl, rfl, rfl, id, le_rfl⟩, ?_⟩
  · exact (completeCycle_follows _ _ _ _).id_eq
  · exact (completeCycle_follows _ _ _ _).account_eq
  · exact ObservedCase.opened rfl rfl (completeCycle_stops _ _ _ _).1 (completeCycle_stops _ _ _ _).2.1
      (completeCycle_stops _ _ _ _).2.2 rfl

structure Answered (now : Int) (observation : ReconciliationObservation)
    (rows answered : ObservedRows) : Prop where
  account : answered.account = rows.account ∨
    ∃ desired, answered.account = rows.account.setHealth desired
  identity_id : answered.identity.id = rows.identity.id
  identity_revision : rows.identity.identityRevision ≤ answered.identity.identityRevision
  target_id : answered.target.id = rows.target.id
  target_checkpoint : answered.target.checkpointId = rows.target.checkpointId
  target_account : answered.target.providerAccountId = rows.target.providerAccountId
  target_identity : answered.target.externalIdentityId = rows.target.externalIdentityId
  scope : answered.target.accountScopeChangeAt = rows.target.accountScopeChangeAt
  started : answered.checkpoint.cycleStartedAt = rows.checkpoint.cycleStartedAt
  cursor : answered.checkpoint.cursorIdentityId = rows.checkpoint.cursorIdentityId
  change : (answered.identity.state = rows.identity.state ∧
      answered.checkpoint.tightenedCount = rows.checkpoint.tightenedCount) ∨
    ((answered.identity.state = .inactive ∨ answered.identity.state = .conflict) ∧
      wouldTighten observation now rows = true ∧
      answered.checkpoint.tightenedCount = rows.checkpoint.tightenedCount + 1)

theorem applyProof_target (rows : ObservedRows) (proofAt : Int) :
    let proved := (applyProof proofAt rows).2.target
    proved.id = rows.target.id ∧ proved.checkpointId = rows.target.checkpointId ∧
      proved.providerAccountId = rows.target.providerAccountId ∧
        proved.externalIdentityId = rows.target.externalIdentityId ∧
          proved.accountScopeChangeAt = rows.target.accountScopeChangeAt := by
  unfold applyProof
  simp only
  split
  · exact ⟨rfl, rfl, rfl, rfl, rfl⟩
  · exact ⟨rfl, rfl, rfl, rfl, rfl⟩

theorem applyProof_identity (rows : ObservedRows) (proofAt : Int) :
    (applyProof proofAt rows).2.identity.id = rows.identity.id ∧
      (applyProof proofAt rows).2.identity.state = rows.identity.state ∧
        rows.identity.identityRevision ≤ (applyProof proofAt rows).2.identity.identityRevision := by
  unfold applyProof
  simp only
  split
  · exact ⟨rfl, rfl, Nat.le_succ _⟩
  · exact ⟨rfl, rfl, le_rfl⟩

theorem applyAnswer_answered {identityChanged : Bool} {errorCode : Option String}
    {answered : ObservedRows}
    (h : applyAnswer request observation now rows = .ok (identityChanged, errorCode, answered)) :
    Answered now observation rows answered := by
  unfold applyAnswer at h
  split at h
  · next hstatus =>
    split at h
    · cases h
    next proofAt _ =>
    cases h
    obtain ⟨hid, hchk, hacct, hexternal, hscope⟩ := applyProof_target rows proofAt
    obtain ⟨hident, hstate, hrev⟩ := applyProof_identity rows proofAt
    exact ⟨.inl rfl, hident, hrev, hid, hchk, hacct, hexternal, hscope, rfl, rfl,
      .inl ⟨hstate, rfl⟩⟩
  iterate 2
    · next hstatus =>
      split at h
      · next hcur =>
        cases h
        refine ⟨.inl rfl, rfl, Nat.le_succ _, rfl, rfl, rfl, rfl, rfl, rfl, rfl,
          .inr ⟨.inl rfl, ?_, rfl⟩⟩
        simp [wouldTighten, tighteningStatuses, hstatus, hcur]
      · cases h
        exact ⟨.inl rfl, rfl, le_rfl, rfl, rfl, rfl, rfl, rfl, rfl, rfl, .inl ⟨rfl, rfl⟩⟩
  · next hstatus =>
    cases h
    refine ⟨degrade_health _, rfl, Nat.le_succ _, rfl, rfl, rfl, rfl, rfl, rfl, rfl,
      .inr ⟨.inr rfl, ?_, rfl⟩⟩
    simp [wouldTighten, tighteningStatuses, hstatus]
  · cases h
    exact ⟨.inl rfl, rfl, le_rfl, rfl, rfl, rfl, rfl, rfl, rfl, rfl, .inl ⟨rfl, rfl⟩⟩

theorem applyDecided_case {count : Nat} {last : Option Int}
    (habsence : observation.status = .notFound → Confirms request now rows.target)
    (hbudget : wouldTighten observation now (rows.answered observation now) = true →
      rows.checkpoint.tightenedCount < request.maxTightenPerCycle)
    (h : applyDecided request observation now { rows.answered observation now with
      target := { (rows.answered observation now).target with
        notFoundCount := count, lastNotFoundAt := last } } = (.ok result, rows')) :
    rows.Kept rows' ∧ ObservedCase request observation now rows rows' result.outcome := by
  unfold applyDecided at h
  simp only at h
  split at h
  · cases h
  next identityChanged errorCode answered hanswer =>
  cases h
  have hanswered := applyAnswer_answered hanswer
  have hfollows := applyAnswer_follows request observation now _ hanswer
  have hfin := finishTarget_follows answered.checkpoint answered.identity.id now
  have hpassed := advancePastPendingTarget_passed answered.checkpoint answered.identity.id now
  -- counting the success leaves the identifiers, the cycle and the identity alone
  have hcounted : ∀ counted, (counted = { rows.answered observation now with
        target := { (rows.answered observation now).target with
          notFoundCount := count, lastNotFoundAt := last } } ∨
      counted = ObservedRows.recordSuccess { rows.answered observation now with
        target := { (rows.answered observation now).target with
          notFoundCount := count, lastNotFoundAt := last } }) →
      Answered now observation counted answered →
      counted.checkpoint.Follows answered.checkpoint →
      Answered now observation (rows.answered observation now) answered ∧
        rows.checkpoint.Follows answered.checkpoint := by
    rintro counted (rfl | rfl) ⟨h₁, h₂, h₃, h₄, h₅, h₆, h₇, h₈, h₉, h₁₀, h₁₁⟩
      ⟨f₁, f₂, f₃, f₄, f₅⟩
    · exact ⟨⟨h₁, h₂, h₃, h₄, h₅, h₆, h₇, h₈, h₉, h₁₀, h₁₁⟩, ⟨f₁, f₂, f₃, f₄, f₅⟩⟩
    · exact ⟨⟨h₁, h₂, h₃, h₄, h₅, h₆, h₇, h₈, h₉, h₁₀, h₁₁⟩, ⟨f₁, f₂, f₃, f₄, f₅⟩⟩
  have hboth := hcounted _ (by split <;> simp) hanswered hfollows
  obtain ⟨hall, hchk⟩ := hboth
  refine ⟨⟨hall.account, hfin.id_eq.trans hchk.id_eq,
    hfin.account_eq.trans hchk.account_eq, hall.identity_id, hall.target_id,
    hall.target_checkpoint, hall.target_account, hall.target_identity, rfl, hall.scope,
    fun _ => rfl, hall.identity_revision⟩, ?_⟩
  refine ObservedCase.applied ?_ ⟨hpassed.1.started.trans hall.started, ?_⟩ ?_
  · simp only [ObservedRows.finish, IdentityReconciliationTarget.finish]
    split <;> simp
  · have hcursor := hpassed.1.cursor
    rw [hall.cursor] at hcursor
    exact hcursor.trans (congrArg (fun identityId =>
      some (maxCursor rows.checkpoint.cursorIdentityId identityId)) hall.identity_id)
  · rcases hall.change with ⟨hstate, htightened⟩ | ⟨hstate, hwould, htightened⟩
    · exact .inl ⟨hstate, hpassed.2.trans htightened⟩
    · exact .inr ⟨hstate, fun _ hnotFound => habsence hnotFound, hbudget hwould,
        hpassed.2.trans htightened⟩

theorem applyObservation_case
    (h : applyObservation request observation now rows = (.ok result, rows')) :
    rows.Kept rows' ∧ ObservedCase request observation now rows rows' result.outcome := by
  unfold applyObservation at h
  simp only at h
  split at h
  · next hstatus =>
    cases h
    exact applyUnavailable_case hstatus rfl
  · next hstatus =>
    cases h
    exact applyInvalid_case hstatus rfl
  split at h
  · next r hconfirm =>
    cases h
    exact confirmAbsence_error hconfirm
  next confirmed hconfirm =>
  obtain ⟨habsence, count, last, rfl⟩ := confirmAbsence_ok hconfirm
  split at h
  · cases h
    exact openCircuit_case count last
  next hcircuit =>
  refine applyDecided_case habsence ?_ h
  intro hwould
  rw [Bool.and_eq_true, not_and, decide_eq_true_eq, not_le] at hcircuit
  exact hcircuit hwould

end MultiRag.IdentityReconciliation
