/-
  **What a reconciliation transaction does to a checkpoint.**

  Many paths write a checkpoint, and all of them but one do the same to its schedule
  and its lease: `nextRunAt` does not go back, and the lease is kept or cleared
  (`Follows`). The one exception is a claim that grants a lease (`Granted`).
-/
import MultiRag.ReconciliationRepository

namespace MultiRag.IdentityReconciliation

namespace IdentityReconciliationCheckpoint

/-- A later version of a checkpoint that no claim has leased in between. -/
structure Follows (old new : IdentityReconciliationCheckpoint) : Prop where
  id_eq : new.id = old.id
  account_eq : new.providerAccountId = old.providerAccountId
  nextRunAt_le : old.nextRunAt ≤ new.nextRunAt
  attempt_eq : new.leaseAttempt = old.leaseAttempt
  lease : (new.leaseOwner = old.leaseOwner ∧ new.leaseUntil = old.leaseUntil) ∨
    (new.leaseOwner = none ∧ new.leaseUntil = none)

variable {a b c checkpoint old new : IdentityReconciliationCheckpoint}

theorem Follows.refl (checkpoint : IdentityReconciliationCheckpoint) :
    checkpoint.Follows checkpoint :=
  ⟨rfl, rfl, le_rfl, rfl, .inl ⟨rfl, rfl⟩⟩

theorem Follows.trans (h₁ : a.Follows b) (h₂ : b.Follows c) : a.Follows c := by
  refine ⟨h₂.id_eq.trans h₁.id_eq, h₂.account_eq.trans h₁.account_eq,
    le_trans h₁.nextRunAt_le h₂.nextRunAt_le, h₂.attempt_eq.trans h₁.attempt_eq, ?_⟩
  rcases h₂.lease with ⟨howner, huntil⟩ | hcleared
  · rw [howner, huntil]
    exact h₁.lease
  · exact .inr hcleared

/-! ### The monotone helper -/

theorem advanceNextRun_follows (checkpoint : IdentityReconciliationCheckpoint) (candidate : Int) :
    checkpoint.Follows (checkpoint.advanceNextRun candidate) := by
  unfold advanceNextRun
  split
  · next h => exact ⟨rfl, rfl, le_of_lt h, rfl, .inl ⟨rfl, rfl⟩⟩
  · exact Follows.refl _

theorem le_nextRunAt_advanceNextRun (checkpoint : IdentityReconciliationCheckpoint)
    (candidate : Int) : candidate ≤ (checkpoint.advanceNextRun candidate).nextRunAt := by
  unfold advanceNextRun
  split
  · exact le_rfl
  · next h => exact le_of_not_gt h

@[simp] theorem advanceNextRun_leaseOwner (checkpoint : IdentityReconciliationCheckpoint)
    (candidate : Int) : (checkpoint.advanceNextRun candidate).leaseOwner = checkpoint.leaseOwner := by
  unfold advanceNextRun
  split <;> rfl

@[simp] theorem advanceNextRun_leaseUntil (checkpoint : IdentityReconciliationCheckpoint)
    (candidate : Int) : (checkpoint.advanceNextRun candidate).leaseUntil = checkpoint.leaseUntil := by
  unfold advanceNextRun
  split <;> rfl

theorem clearLease_follows (checkpoint : IdentityReconciliationCheckpoint) :
    checkpoint.Follows checkpoint.clearLease :=
  ⟨rfl, rfl, le_rfl, rfl, .inr ⟨rfl, rfl⟩⟩

theorem Follows.release (h : old.Follows new) (candidate : Int) :
    old.Follows (new.advanceNextRun candidate).clearLease :=
  h.trans ((advanceNextRun_follows new candidate).trans (clearLease_follows _))

/-! ### The paths -/

theorem advancePastPendingTarget_follows (checkpoint : IdentityReconciliationCheckpoint)
    (identityId : String) (now : Int) :
    checkpoint.Follows (checkpoint.advancePastPendingTarget identityId now) := by
  unfold advancePastPendingTarget
  apply Follows.release
  exact ⟨rfl, rfl, le_rfl, rfl, .inl ⟨rfl, rfl⟩⟩

theorem finishTarget_follows (checkpoint : IdentityReconciliationCheckpoint) (identityId : String)
    (now : Int) : checkpoint.Follows (checkpoint.finishTarget identityId now) :=
  advancePastPendingTarget_follows checkpoint identityId now

theorem rejectFence_follows (checkpoint : IdentityReconciliationCheckpoint) (now : Int) :
    checkpoint.Follows (checkpoint.rejectFence now) := by
  unfold rejectFence
  apply Follows.release
  exact ⟨rfl, rfl, le_rfl, rfl, .inl ⟨rfl, rfl⟩⟩

theorem completeCycle_follows (checkpoint : IdentityReconciliationCheckpoint)
    (now cycleIntervalSeconds : Int) (pendingAttemptAt : Option Int) :
    checkpoint.Follows (checkpoint.completeCycle now cycleIntervalSeconds pendingAttemptAt) := by
  unfold completeCycle
  apply Follows.release
  exact ⟨rfl, rfl, le_rfl, rfl, .inl ⟨rfl, rfl⟩⟩

theorem startCycle_follows (checkpoint : IdentityReconciliationCheckpoint) (now : Int) :
    checkpoint.Follows (checkpoint.startCycle now) := by
  unfold startCycle
  split
  · exact ⟨rfl, rfl, le_rfl, rfl, .inl ⟨rfl, rfl⟩⟩
  · exact Follows.refl _

end IdentityReconciliationCheckpoint

open IdentityReconciliationCheckpoint

section

variable (request : ApplyRequest) (observation : ReconciliationObservation) (now : Int) (rows : ObservedRows)

theorem applyUnavailable_follows :
    rows.checkpoint.Follows (applyUnavailable request observation now rows).2.checkpoint := by
  unfold applyUnavailable
  apply Follows.release
  exact ⟨rfl, rfl, le_rfl, rfl, .inl ⟨rfl, rfl⟩⟩

theorem applyInvalid_follows :
    rows.checkpoint.Follows (applyInvalid request observation now rows).2.checkpoint := by
  have hcounted : rows.checkpoint.Follows
      (rows.recordFailure (observation.safeErrorCode.getD
        ReconciliationErrorCode.providerResultInvalid.value)
          request.degradeAfterFailures).checkpoint :=
    ⟨rfl, rfl, le_rfl, rfl, .inl ⟨rfl, rfl⟩⟩
  exact hcounted.trans ((finishTarget_follows _ _ _).trans (advanceNextRun_follows _ _))

theorem recordSuccess_follows : rows.checkpoint.Follows rows.recordSuccess.checkpoint :=
  ⟨rfl, rfl, le_rfl, rfl, .inl ⟨rfl, rfl⟩⟩

theorem confirmAbsence_follows :
    match confirmAbsence request observation now rows with
    | .error r => rows.checkpoint.Follows r.2.checkpoint
    | .ok confirmed => confirmed.checkpoint = rows.checkpoint := by
  unfold confirmAbsence
  by_cases hstatus : observation.status ≠ .notFound
  · simp [hstatus]
  · by_cases hfirst : rows.target.notFoundCount = 0
    · simp only [hstatus, hfirst, if_false, if_true]
      exact (recordSuccess_follows rows).trans (advancePastPendingTarget_follows _ _ _)
    · simp only [hstatus, hfirst, if_false]
      by_cases hearly : rows.target.lastNotFoundAt.all
          (fun last => decide (now < last + seconds request.notFoundConfirmationSeconds)) = true
      · rw [if_pos hearly]
        exact (recordSuccess_follows rows).trans (advancePastPendingTarget_follows _ _ _)
      · rw [if_neg hearly]

theorem openCircuit_follows :
    rows.checkpoint.Follows (openCircuit request now rows).2.checkpoint := by
  unfold openCircuit
  refine Follows.trans ?_ (completeCycle_follows _ _ _ _)
  exact ⟨rfl, rfl, le_rfl, rfl, .inl ⟨rfl, rfl⟩⟩

theorem applyAnswer_follows {identityChanged : Bool} {errorCode : Option String}
    {answered : ObservedRows}
    (h : applyAnswer request observation now rows = .ok (identityChanged, errorCode, answered)) :
    rows.checkpoint.Follows answered.checkpoint := by
  unfold applyAnswer at h
  split at h
  · split at h
    · cases h
    · cases h
      exact Follows.refl _
  · split at h <;> cases h <;> exact ⟨rfl, rfl, le_rfl, rfl, .inl ⟨rfl, rfl⟩⟩
  · split at h <;> cases h <;> exact ⟨rfl, rfl, le_rfl, rfl, .inl ⟨rfl, rfl⟩⟩
  · cases h
    exact ⟨rfl, rfl, le_rfl, rfl, .inl ⟨rfl, rfl⟩⟩
  · cases h
    exact Follows.refl _

variable {finished : ObservedRows}

theorem applyDecided_follows {result : ReconciliationApplyResult}
    (h : applyDecided request observation now rows = (.ok result, finished)) :
    rows.checkpoint.Follows finished.checkpoint := by
  have hcounted : rows.checkpoint.Follows
      (if observation.status = .conflict then rows else rows.recordSuccess).checkpoint := by
    split
    · exact Follows.refl _
    · exact recordSuccess_follows rows
  unfold applyDecided at h
  simp only at h
  split at h
  · cases h
  · next identityChanged errorCode answered hanswer =>
    cases h
    have hanswered := applyAnswer_follows request observation now _ hanswer
    exact hcounted.trans (hanswered.trans (finishTarget_follows _ _ _))

theorem applyObservation_follows {result : ReconciliationApplyResult}
    (h : applyObservation request observation now rows = (.ok result, finished)) :
    rows.checkpoint.Follows finished.checkpoint := by
  unfold applyObservation at h
  simp only at h
  split at h
  · cases h
    exact applyUnavailable_follows request observation now _
  · cases h
    exact applyInvalid_follows request observation now _
  · have hconfirm := confirmAbsence_follows request observation now
      { rows with
        target := { rows.target with
          lastObservedAt := some now
          lastOutcome := some observation.status
          lastSuccessAt := some now }
        checkpoint := { rows.checkpoint with lastSuccessAt := some now } }
    have hanswered : rows.checkpoint.Follows
        { rows.checkpoint with lastSuccessAt := some now } :=
      ⟨rfl, rfl, le_rfl, rfl, .inl ⟨rfl, rfl⟩⟩
    split at h
    · next r hwait =>
      rw [hwait] at hconfirm
      cases h
      exact hanswered.trans hconfirm
    · next confirmed hconfirmed =>
      rw [hconfirmed] at hconfirm
      dsimp only at hconfirm
      rw [← hconfirm] at hanswered
      split at h
      · cases h
        exact hanswered.trans (openCircuit_follows request now _)
      · exact hanswered.trans (applyDecided_follows request observation now _ h)

end

/-! ### A claim -/

structure Granted (request : ClaimRequest) (session : ClaimSession)
    (old new : IdentityReconciliationCheckpoint) (lease : ReconciliationLease) : Prop where
  due : old.nextRunAt ≤ session.eligibilityNow
  free : leaseRuns old session.eligibilityNow = false
  id_eq : new.id = old.id
  account_eq : new.providerAccountId = old.providerAccountId
  owner_eq : new.leaseOwner = some lease.owner
  attempt_eq : new.leaseAttempt = old.leaseAttempt + 1
  until_eq : new.leaseUntil = some lease.leaseUntil
  nextRunAt_le : old.nextRunAt ≤ new.nextRunAt
  reserved : session.leaseNow + request.probeInterval ≤ new.nextRunAt
  lease_checkpoint : lease.checkpointId = old.id
  lease_attempt : lease.attempt = new.leaseAttempt
  lease_account : lease.context.providerAccountId = old.providerAccountId

inductive ClaimOutcome (request : ClaimRequest) (session : ClaimSession)
    (old : IdentityReconciliationCheckpoint) (s : ReconciliationStore) :
    Option ReconciliationLease → ReconciliationStore → Prop
  | aside {new : IdentityReconciliationCheckpoint} {s' : ReconciliationStore}
      (follows : old.Follows new) (put : s'.checkpoints = s.checkpoints.put new) :
      ClaimOutcome request session old s none s'
  | leased {new : IdentityReconciliationCheckpoint} {lease : ReconciliationLease}
      {s' : ReconciliationStore} (granted : Granted request session old new lease)
      (put : s'.checkpoints = s.checkpoints.put new) :
      ClaimOutcome request session old s (some lease) s'

section

variable {request : ClaimRequest} {session : ClaimSession} {account : IdentityProviderAccount}
  {old running : IdentityReconciliationCheckpoint} {s s' : ReconciliationStore}
  {reply : Option ReconciliationLease} {target : IdentityReconciliationTarget} {identity : ExternalIdentity}

theorem failPending_checkpoints (hrunning : old.Follows running) (found : Option ExternalIdentity) :
    ∃ new, old.Follows new ∧
      (failPending session running target found s).checkpoints = s.checkpoints.put new := by
  refine ⟨_, ?_, rfl⟩
  apply Follows.release
  exact hrunning.trans ⟨rfl, rfl, le_rfl, rfl, .inl ⟨rfl, rfl⟩⟩

theorem completeInactive_checkpoints (hrunning : old.Follows running) :
    ∃ new, old.Follows new ∧
      (completeInactive session running target identity s).checkpoints = s.checkpoints.put new := by
  refine ⟨_, ?_, rfl⟩
  apply Follows.release
  exact hrunning.trans ⟨rfl, rfl, le_rfl, rfl, .inl ⟨rfl, rfl⟩⟩

theorem completeCycle_checkpoints (hrunning : old.Follows running) (now cycleIntervalSeconds : Int)
    (pendingAttemptAt : Option Int) (allowHealthRecovery : Bool) :
    ∃ new, old.Follows new ∧
      (s.completeCycle account running now cycleIntervalSeconds pendingAttemptAt
        allowHealthRecovery).checkpoints = s.checkpoints.put new :=
  ⟨_, hrunning.trans (completeCycle_follows _ _ _ _), rfl⟩

end

/-! ### An apply -/

/-- What an `apply` that passed the lease check found in the checkpoint and left
    there. -/
structure Applied (request : ApplyRequest) (now : Int)
    (old new : IdentityReconciliationCheckpoint) (result : ReconciliationApplyResult) : Prop where
  lease_eq : leaseMatches old request.lease now = true
  follows : old.Follows new
  reserved : now + request.probeInterval ≤ new.nextRunAt
  account_eq : result.outcome ≠ .fenceRejected →
    request.lease.context.providerAccountId = old.providerAccountId

variable {request : ApplyRequest} {now : Int} {tenant : Tenant} {account : IdentityProviderAccount}
  {checkpoint : IdentityReconciliationCheckpoint} {s s' : ReconciliationStore}
  {identity : Option ExternalIdentity} {target : Option IdentityReconciliationTarget}
  {result : ReconciliationApplyResult}

theorem rejectFence_checkpoints :
    (s.rejectFence checkpoint target now).checkpoints = s.checkpoints.put
      (checkpoint.rejectFence now) := by
  unfold ReconciliationStore.rejectFence
  cases target <;> rfl

end MultiRag.IdentityReconciliation
