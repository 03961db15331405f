/-
  **The tightening budget of a cycle, and what it says about a window of time.**

  A cycle moves at most `max_tighten_per_cycle` identities out of ACTIVE, and the
  next cycle may start a full interval after it ended.  Two paths end a cycle
  without that pause: a fence conflict, and a scan that is exhausted while a
  confirmation is pending.  Either way the next cycle counts from zero, so a window
  of one interval holds one budget and one more for each cycle that ended early
  in it (`BreakerLedger`).
-/
import Mathlib.Algebra.GroupWithZero.Nat
import MultiRag.ReconciliationCursor

namespace MultiRag.IdentityReconciliation

open IdentityReconciliationCheckpoint List Table

/-! ### Labelled steps -/

def ReconciliationCall.readings : ReconciliationCall → List Int
  | .claimNext _ _ session => [session.eligibilityNow, session.leaseNow]
  | .apply _ now => [now]
  | _ => []

def ReconciliationCall.time : ReconciliationCall → Option Int
  | .claimNext _ _ session => some session.eligibilityNow
  | .apply _ now => some now
  | _ => none

def ReconciliationCall.configured (interval : Int) (budget : Nat) : ReconciliationCall → Bool
  | .claimNext _ request _ => request.cycleIntervalSeconds == interval
  | .apply request _ =>
      request.cycleIntervalSeconds == interval && request.maxTightenPerCycle == budget
  | _ => true

def movedOut (s' : ReconciliationStore) (identity : ExternalIdentity) : Bool :=
  identity.state == .active &&
    (s'.directory.identities.get? identity.id).any
      (fun after => after.state == .inactive || after.state == .conflict)

def tightenedBy (checkpointId : String) (s : ReconciliationStore) (call : ReconciliationCall)
    (s' : ReconciliationStore) : List String :=
  match call with
  | .apply request _ =>
      if request.lease.checkpointId = checkpointId then
        (s.directory.identities.select (movedOut s')).map ExternalIdentity.id
      else []
  | _ => []

def endsEarly (checkpointId : String) (interval : Int) (s : ReconciliationStore)
    (call : ReconciliationCall) (s' : ReconciliationStore) : Bool :=
  match call.time, s.checkpoints.get? checkpointId, s'.checkpoints.get? checkpointId with
  | some t, some before, some after =>
      before.cycleStartedAt.isSome && after.cycleStartedAt.isNone &&
        decide (after.nextRunAt < t + seconds interval)
  | _, _, _ => false

structure BreakerEvent where
  event : ReconciliationEvent
  moved : List String
  early : Bool

def breakerStep (checkpointId : String) (interval : Int) (budget : Nat) (s : ReconciliationStore)
    (e : BreakerEvent) (s' : ReconciliationStore) : Prop :=
  reconciliationStep s e.event s' ∧ e.event.call.configured interval budget = true ∧
    e.moved = tightenedBy checkpointId s e.event.call s' ∧
      e.early = endsEarly checkpointId interval s e.event.call s'

def BreakerEvent.readings (e : BreakerEvent) : List Int := e.event.call.readings

def BreakerRun (checkpointId : String) (interval : Int) (budget : Nat)
    (w : Clocked ReconciliationStore Int) (hist : List BreakerEvent)
    (w' : Clocked ReconciliationStore Int) : Prop :=
  Run (clocked BreakerEvent.readings (breakerStep checkpointId interval budget)) w hist w'

/-! ### Windows -/

def inWindow (start interval : Int) (e : BreakerEvent) : Bool :=
  e.event.call.time.any (fun t => decide (start ≤ t) && decide (t < start + seconds interval))

def movedIn (start interval : Int) (hist : List BreakerEvent) : Nat :=
  ((hist.filter (inWindow start interval)).map (fun e => e.moved.length)).sum

def earlyIn (start interval : Int) (hist : List BreakerEvent) : Nat :=
  (hist.filter (fun e => inWindow start interval e && e.early)).length

variable {start interval : Int} {e : BreakerEvent} {hist : List BreakerEvent}

theorem movedIn_of_inside (h : inWindow start interval e = true) :
    movedIn start interval (e :: hist) = e.moved.length + movedIn start interval hist := by
  simp [movedIn, h]

theorem movedIn_of_outside (h : inWindow start interval e = false) :
    movedIn start interval (e :: hist) = movedIn start interval hist := by
  simp [movedIn, h]

theorem movedIn_of_unmoved (h : e.moved = []) :
    movedIn start interval (e :: hist) = movedIn start interval hist := by
  by_cases hwindow : inWindow start interval e = true
  · rw [movedIn_of_inside hwindow, h, length_nil, Nat.zero_add]
  · exact movedIn_of_outside (by rwa [Bool.not_eq_true] at hwindow)

theorem earlyIn_le : earlyIn start interval hist ≤ earlyIn start interval (e :: hist) := by
  simp only [earlyIn, filter_cons]
  split
  · exact Nat.le_succ _
  · exact le_rfl

theorem earlyIn_of_early (h : inWindow start interval e = true) (hearly : e.early = true) :
    earlyIn start interval (e :: hist) = earlyIn start interval hist + 1 := by
  simp [earlyIn, h, hearly]

/-! ### What a transaction does to the budget -/

inductive BudgetCase (budget : Nat) (t : Int) (moved : List String)
    (old new : IdentityReconciliationCheckpoint) : Prop
  | running (before : old.cycleStartedAt ≠ none) (after : new.cycleStartedAt ≠ none)
      (count : old.tightenedCount + moved.length ≤ new.tightenedCount)
      (bounded : old.tightenedCount ≤ budget → new.tightenedCount ≤ budget)
  | stopped (after : new.cycleStartedAt = none) (unmoved : moved = [])
      (later : old.nextRunAt ≤ new.nextRunAt)
  | started (before : old.cycleStartedAt = none) (due : old.nextRunAt ≤ t) (unmoved : moved = [])
      (count : new.tightenedCount = 0)

def LeasedInCycle (k : IdentityReconciliationCheckpoint) : Prop :=
  k.leaseOwner ≠ none → k.cycleStartedAt ≠ none

variable {s s' : ReconciliationStore} {old new : IdentityReconciliationCheckpoint}
  {checkpointId : String} {budget : Nat} {now : Int}

theorem startCycle_count (hstopped : old.cycleStartedAt = none) (now : Int) :
    (old.startCycle now).tightenedCount = 0 := by
  unfold startCycle
  rw [if_pos hstopped]

variable {moved : List String}

theorem budget_of_claim {t : Int} (hdue : old.nextRunAt ≤ t) (hunmoved : moved = [])
    (hcount : new.tightenedCount = (old.startCycle t).tightenedCount)
    (hlater : old.nextRunAt ≤ new.nextRunAt)
    (hrunning : new.cycleStartedAt = (old.startCycle t).cycleStartedAt ∨ new.cycleStartedAt = none)
      :
    BudgetCase budget t moved old new := by
  rcases hrunning with hkept | hstopped
  · by_cases hbefore : old.cycleStartedAt = none
    · exact BudgetCase.started hbefore hdue hunmoved (hcount.trans (startCycle_count hbefore t))
    · have hsame : old.startCycle t = old := if_neg hbefore
      rw [hsame] at hcount hkept
      refine BudgetCase.running hbefore (by rw [hkept]; exact hbefore) ?_ ?_
      · rw [hunmoved, hcount, length_nil, Nat.add_zero]
      · rw [hcount]
        exact id
  · exact BudgetCase.stopped hstopped hunmoved hlater

theorem leasedInCycle_of_free (hfree : new.leaseOwner = none) : LeasedInCycle new :=
  fun howner => absurd hfree howner

theorem startCycle_runs (k : IdentityReconciliationCheckpoint) (now : Int) :
    (k.startCycle now).cycleStartedAt ≠ none := by
  unfold startCycle
  split
  · simp
  · next hrunning => exact hrunning

theorem budget_of_same {t : Int} (hunmoved : moved = []) :
    BudgetCase budget t moved old old := by
  by_cases hrunning : old.cycleStartedAt = none
  · exact BudgetCase.stopped hrunning hunmoved le_rfl
  · refine BudgetCase.running hrunning hrunning ?_ id
    rw [hunmoved, length_nil, Nat.add_zero]

theorem claim_budget {request : ClaimRequest} {session : ClaimSession}
    {reply : Option ReconciliationLease}
    (hclaim : ClaimCase checkpointId request session s reply s')
    (hold : s.checkpoints.get? checkpointId = some old)
    (hnew : s'.checkpoints.get? checkpointId = some new) (hleased : LeasedInCycle old) :
    BudgetCase budget session.eligibilityNow [] old new ∧ LeasedInCycle new := by
  have hgranted : old.nextRunAt ≤ session.eligibilityNow →
      new = leasedCheckpoint request session old →
        BudgetCase budget session.eligibilityNow [] old new ∧ LeasedInCycle new := by
    rintro hdue rfl
    have hcycle := leasedCheckpoint_cycle request session old
    refine ⟨budget_of_claim hdue rfl hcycle.tightened ?_ (.inl hcycle.started), ?_⟩
    · exact le_trans (startCycle_follows old _).nextRunAt_le (advanceNextRun_follows _ _).nextRunAt_le
    · intro _
      rw [hcycle.started]
      exact startCycle_runs old _
  have hreleased : ∀ passed : IdentityReconciliationCheckpoint, old.nextRunAt ≤ session.eligibilityNow →
      old.Follows passed → SameCycle (old.startCycle session.eligibilityNow) { passed with
        cursorIdentityId := (old.startCycle session.eligibilityNow).cursorIdentityId } →
      new = (passed.advanceNextRun session.eligibilityNow).clearLease →
        BudgetCase budget session.eligibilityNow [] old new ∧ LeasedInCycle new := by
    rintro passed hdue hfollows hsame rfl
    have hcycle := release_cycle passed session.eligibilityNow
    refine ⟨budget_of_claim hdue rfl (hcycle.tightened.trans hsame.tightened)
      (Follows.release hfollows _).nextRunAt_le (.inl (hcycle.started.trans hsame.started)), ?_⟩
    exact leasedInCycle_of_free rfl
  cases hclaim with
  | idle =>
    rw [hold] at hnew
    cases hnew
    exact ⟨budget_of_same rfl, hleased⟩
  | @closed k account hchk hacct =>
    rw [hold] at hchk
    cases hchk
    have hfollows := completeCycle_follows old session.eligibilityNow request.cycleIntervalSeconds
      none
    obtain rfl := checkpoint_of_put hold hfollows.id_eq rfl hnew
    exact ⟨BudgetCase.stopped (completeCycle_stops _ _ _ _).1 rfl hfollows.nextRunAt_le,
      leasedInCycle_of_free rfl⟩
  | @exhausted k account hreached =>
    obtain rfl := hreached.same hold
    have hfollows := (startCycle_follows old session.eligibilityNow).trans
      (completeCycle_follows _ session.eligibilityNow request.cycleIntervalSeconds
        (s.nextPendingAttemptAt old.id))
    obtain rfl := checkpoint_of_put hold hfollows.id_eq rfl hnew
    exact ⟨BudgetCase.stopped (completeCycle_stops _ _ _ _).1 rfl hfollows.nextRunAt_le,
      leasedInCycle_of_free rfl⟩
  | @failed k account target found hreached _ _ _ | @unseen k account target identity hreached _ _ =>
    obtain rfl := hreached.same hold
    have hfollows := startCycle_follows old session.eligibilityNow
    refine hreleased _ hreached.due ?_ ?_ (checkpoint_of_put hold ?_ rfl hnew)
    · exact hfollows.trans ⟨rfl, rfl, le_rfl, rfl, .inl ⟨rfl, rfl⟩⟩
    · exact ⟨rfl, rfl, rfl⟩
    · exact (advanceNextRun_follows _ _).id_eq.trans hfollows.id_eq
  | @pending k account target identity lease hreached _ _ _
  | @scanned k account identity lease targets hreached _ _ _ _ _
  | @renewed k account target identity lease hreached _ _ _ _ =>
    obtain rfl := hreached.same hold
    exact hgranted hreached.due
      (checkpoint_of_put hold (leasedCheckpoint_keys request session old).1 rfl hnew)

variable {identity after : ExternalIdentity} {call : ReconciliationCall} {x : ExternalIdentity}

theorem movedOut_of_same (h : s'.directory.identities.get? x.id = some x) :
    movedOut s' x = false := by
  unfold movedOut
  rw [h]
  cases hstate : x.state <;> simp [hstate]

theorem tightenedBy_of_same (h : s'.directory.identities = s.directory.identities) :
    tightenedBy checkpointId s call s' = [] := by
  have hnone : s.directory.identities.select (movedOut s') = [] := by
    rw [eq_nil_iff_forall_not_mem]
    intro x hx
    obtain ⟨hmem, hmoved⟩ := mem_select.mp hx
    rw [movedOut_of_same (by rw [h]; exact get?_of_mem hmem)] at hmoved
    exact Bool.false_ne_true hmoved
  unfold tightenedBy
  split
  · rw [hnone, map_nil, ite_self]
  · rfl

section

variable (hident : identity ∈ s.directory.identities)
  (hid : after.id = identity.id)
  (hput : s'.directory.identities = s.directory.identities.put after)
include hident hid hput

theorem eq_of_movedOut
    (hx : x ∈ s.directory.identities.select (movedOut s')) :
    x.id = identity.id ∧ (after.state = .inactive ∨ after.state = .conflict) := by
  obtain ⟨hmem, hmoved⟩ := mem_select.mp hx
  by_cases hsame : x.id = identity.id
  · refine ⟨hsame, ?_⟩
    have hself := get?_put_self hident hid
    rw [hid, ← hsame, ← hput] at hself
    simp only [movedOut, hself, Option.any_some, Bool.and_eq_true, Bool.or_eq_true, beq_iff_eq]
      at hmoved
    exact hmoved.2
  · have hother : s'.directory.identities.get? x.id = some x := by
      rw [hput, get?_put_of_ne (by rw [hid]; exact hsame)]
      exact get?_of_mem hmem
    rw [movedOut_of_same hother] at hmoved
    exact absurd hmoved Bool.false_ne_true

theorem tightenedBy_of_put :
    (tightenedBy checkpointId s call s').length ≤ 1 ∧
      (after.state = .active → tightenedBy checkpointId s call s' = []) := by
  have hone : ((s.directory.identities.select (movedOut s')).map ExternalIdentity.id).length ≤ 1 := by
    have hnodup : ((s.directory.identities.select (movedOut s')).map ExternalIdentity.id).Nodup :=
      Sublist.nodup (Sublist.map _ filter_sublist) s.directory.identities.nodup
    have hsubset : (s.directory.identities.select (movedOut s')).map ExternalIdentity.id ⊆
        [identity.id] := by
      intro y hy
      obtain ⟨x, hx, rfl⟩ := mem_map.mp hy
      exact mem_singleton.mpr (eq_of_movedOut hident hid hput hx).1
    exact (subperm_of_subset hnodup hsubset).length_le
  have hactive : after.state = .active → s.directory.identities.select (movedOut s') = [] := by
    intro hstate
    rw [eq_nil_iff_forall_not_mem]
    intro x hx
    have hout := (eq_of_movedOut hident hid hput hx).2
    rw [hstate] at hout
    rcases hout with hout | hout <;> cases hout
  unfold tightenedBy
  split
  · split
    · exact ⟨hone, fun hstate => by rw [hactive hstate, map_nil]⟩
    · exact ⟨Nat.zero_le _, fun _ => rfl⟩
  · exact ⟨Nat.zero_le _, fun _ => rfl⟩

end

variable {request : ApplyRequest} {result : ReconciliationApplyResult}

theorem running_of_matches (hleased : LeasedInCycle old)
    (hmatches : leaseMatches old request.lease now = true) : old.cycleStartedAt ≠ none := by
  apply hleased
  simp only [leaseMatches, Bool.and_eq_true, beq_iff_eq] at hmatches
  rw [hmatches.1.1]
  simp

theorem apply_budget (happly : ApplyCase request now s result s')
    (hbudget : request.maxTightenPerCycle = budget)
    (hold : s.checkpoints.get? request.lease.checkpointId = some old)
    (hnew : s'.checkpoints.get? request.lease.checkpointId = some new)
    (hleased : LeasedInCycle old) :
    BudgetCase budget now
        (tightenedBy request.lease.checkpointId s (.apply request now) s') old new ∧
      LeasedInCycle new := by
  have hfloor := advanceNextRun_cycle old (now + request.probeInterval)
  cases happly with
  | idle _ =>
    rw [hold] at hnew
    cases hnew
    exact ⟨budget_of_same (tightenedBy_of_same rfl), hleased⟩
  | @closed k account hmatched =>
    obtain rfl := hmatched.same hold
    have hfollows := (floor_follows request now old).trans
      (completeCycle_follows _ now request.cycleIntervalSeconds none)
    obtain rfl := checkpoint_of_put hold hfollows.id_eq rfl hnew
    exact ⟨BudgetCase.stopped (completeCycle_stops _ _ _ _).1 (tightenedBy_of_same rfl)
      hfollows.nextRunAt_le, leasedInCycle_of_free rfl⟩
  | @rejected k account hmatched =>
    obtain rfl := hmatched.same hold
    have hfollows := (floor_follows request now old).trans (rejectFence_follows _ now)
    obtain rfl := checkpoint_of_put hold hfollows.id_eq rejectFence_checkpoints hnew
    refine ⟨BudgetCase.stopped (rejectFence_stops _ now) (tightenedBy_of_same ?_) hfollows.nextRunAt_le,
      leasedInCycle_of_free rfl⟩
    unfold ReconciliationStore.rejectFence
    cases s.leasedTarget request old <;> rfl
  | @moved k account target identity hmatched hfenced =>
    obtain rfl := hmatched.same hold
    have hrunning := running_of_matches hleased hmatched.lease
    have hfollows := (floor_follows request now old).trans (finishTarget_follows _ identity.id now)
    have hwritten := checkpoint_of_put hold hfollows.id_eq rfl hnew
    have hpassed : Passed (request.floor now old)
          ((request.floor now old).finishTarget identity.id now) identity.id ∧
        ((request.floor now old).finishTarget identity.id now).tightenedCount =
          (request.floor now old).tightenedCount :=
      advancePastPendingTarget_passed (request.floor now old) identity.id now
    subst hwritten
    have hruns : ((request.floor now old).finishTarget identity.id now).cycleStartedAt ≠ none := by
      rw [hpassed.1.started.trans hfloor.started]
      exact hrunning
    refine ⟨BudgetCase.running hrunning hruns ?_ ?_, fun _ => hruns⟩
    · have hunmoved : tightenedBy request.lease.checkpointId s (.apply request now)
          ((s.putTarget (target.finish now true
            (some ReconciliationErrorCode.fenceConflict.value))).putCheckpoint
              ((request.floor now old).finishTarget identity.id now)) = [] :=
        tightenedBy_of_same rfl
      rw [hunmoved]
      exact le_of_eq (hpassed.2.trans hfloor.tightened).symm
    · intro hbounded
      exact le_trans (le_of_eq (hpassed.2.trans hfloor.tightened)) hbounded
  | @observed k account target identity result rows hmatched hfenced _ hactive hobs =>
    obtain rfl := hmatched.same hold
    have hrunning := running_of_matches hleased hmatched.lease
    obtain ⟨hkept, hcase⟩ := applyObservation_case hobs
    have hfollows := (floor_follows request now old).trans
      (applyObservation_follows request _ now _ hobs)
    obtain rfl := checkpoint_of_put hold hfollows.id_eq rfl hnew
    have hmoved : (tightenedBy request.lease.checkpointId s (.apply request now)
          (s.putObserved rows)).length ≤ 1 ∧
        (rows.identity.state = .active → tightenedBy request.lease.checkpointId s
          (.apply request now) (s.putObserved rows) = []) :=
      tightenedBy_of_put (mem_of_get? hfenced.identity_eq) hkept.identity_id rfl
    obtain ⟨hone, hunmoved⟩ := hmoved
    have hsame : rows.identity.state = identity.state →
        tightenedBy request.lease.checkpointId s (.apply request now) (s.putObserved rows) = [] :=
      fun hstate => hunmoved (hstate.trans hactive)
    have hgoes : rows.checkpoint.cycleStartedAt = (request.floor now old).cycleStartedAt →
        rows.checkpoint.cycleStartedAt ≠ none := by
      intro hstart
      rw [hstart.trans hfloor.started]
      exact hrunning
    -- an observation that moves nothing leaves the counter alone
    have hquiet : rows.identity.state = identity.state →
        rows.checkpoint.cycleStartedAt = (request.floor now old).cycleStartedAt →
        rows.checkpoint.tightenedCount = (request.floor now old).tightenedCount →
        BudgetCase budget now (tightenedBy request.lease.checkpointId s (.apply request now)
          (s.putObserved rows)) old rows.checkpoint ∧ LeasedInCycle rows.checkpoint := by
      intro hstate hstart hcount
      refine ⟨BudgetCase.running hrunning (hgoes hstart) ?_ ?_, fun _ => hgoes hstart⟩
      · rw [hsame hstate, hcount.trans hfloor.tightened, length_nil, Nat.add_zero]
      · rw [hcount.trans hfloor.tightened]
        exact id
    generalize result.outcome = outcome at hcase
    cases hcase with
    | retried _ _ hrow _ _ _ hcycle =>
      exact hquiet (by rw [hrow]) hcycle.started hcycle.tightened
    | awaited _ _ _ hrow _ _ hpassed hcount | rejected _ _ hrow hpassed hcount =>
      exact hquiet (by rw [hrow]) hpassed.started hcount
    | opened _ hrow hstopped _ _ hreleased =>
      exact ⟨BudgetCase.stopped hstopped (hsame (by rw [hrow])) hfollows.nextRunAt_le,
        leasedInCycle_of_free hreleased⟩
    | applied _ hpassed hchange =>
      rcases hchange with ⟨hstate, hcount⟩ | htightened
      · exact hquiet hstate hpassed.started hcount
      · have hbefore : (request.floor now old).tightenedCount = old.tightenedCount :=
          hfloor.tightened
        have hcount := htightened.count
        have hroom := htightened.budget
        refine ⟨BudgetCase.running hrunning (hgoes hpassed.started) ?_ ?_,
          fun _ => hgoes hpassed.started⟩
        · simp only at hcount
          omega
        · intro _
          omega

/-! ### A step, seen from one checkpoint -/

/-- What a step does to the checkpoint. -/
inductive CheckpointFate (checkpointId : String) (interval : Int) (budget : Nat)
    (s : ReconciliationStore) (e : BreakerEvent) (s' : ReconciliationStore) : Prop
  | aside (unmoved : e.moved = [])
      (same : s'.checkpoints.get? checkpointId = s.checkpoints.get? checkpointId)
  | seeded (unmoved : e.moved = []) (absent : s.checkpoints.get? checkpointId = none)
      (new : ∀ k, s'.checkpoints.get? checkpointId = some k →
        k.cycleStartedAt = none ∧ k.leaseOwner = none)
  | changed {old new : IdentityReconciliationCheckpoint} {t : Int}
      (before : s.checkpoints.get? checkpointId = some old)
      (after : s'.checkpoints.get? checkpointId = some new) (time : e.event.call.time = some t)
      (reading : t ∈ e.readings) (budget_case : BudgetCase budget t e.moved old new)
      (leased : LeasedInCycle old → LeasedInCycle new)

variable {newId : String → String} {r : Except ReconciliationError Nat}

theorem seedAccounts_new {dueAt : Int} {accounts : List IdentityProviderAccount} {inserted : Nat}
    (h : seedAccounts newId dueAt accounts inserted s = (r, s')) :
    ∀ k ∈ s'.checkpoints, k ∈ s.checkpoints ∨ (k.cycleStartedAt = none ∧ k.leaseOwner = none) := by
  induction accounts generalizing inserted s with
  | nil =>
    cases h
    exact fun k hk => .inl hk
  | cons account accounts ih =>
    have hone : ∀ k ∈ (seedCheckpoint newId dueAt account inserted s).2.checkpoints,
        k ∈ s.checkpoints ∨ (k.cycleStartedAt = none ∧ k.leaseOwner = none) := by
      unfold seedCheckpoint
      split
      · exact fun k hk => .inl hk
      · split
        · exact fun k hk => .inl hk
        · next checkpoints hinsert =>
          intro k hk
          rcases (mem_insert? hinsert).mp hk with rfl | hold
          · exact .inr ⟨rfl, rfl⟩
          · exact .inl hold
    unfold seedAccounts at h
    split at h
    · next next_ s₁ hfirst =>
      rw [hfirst] at hone
      intro k hk
      rcases ih h k hk with hold | hnew
      · exact hone k hold
      · exact .inr hnew
    · next error s₁ hfirst =>
      rw [hfirst] at hone
      cases h
      exact hone

theorem seedCheckpoints_new {dueAt : Int} (h : seedCheckpoints newId dueAt s = (r, s')) :
    ∀ k ∈ s'.checkpoints, k ∈ s.checkpoints ∨ (k.cycleStartedAt = none ∧ k.leaseOwner = none) := by
  unfold seedCheckpoints at h
  rcases inTransaction_cases h with ⟨count, rfl, hseeds⟩ | ⟨error, rfl, rfl⟩
  · exact seedAccounts_new hseeds
  · exact fun k hk => .inl hk

theorem touched_other (h : Touched old new s s') (hother : old.id ≠ checkpointId) :
    s'.checkpoints.get? checkpointId = s.checkpoints.get? checkpointId := by
  rw [h.put]
  apply get?_put_of_ne
  rw [h.id_eq]
  exact hother.symm

theorem touched_self (h : Touched old new s s') (hold : s.checkpoints.get? checkpointId = some old) :
    s'.checkpoints.get? checkpointId = some new := by
  have hself := get?_put_self h.mem h.id_eq
  rw [h.id_eq, key_of_get? hold, ← h.put] at hself
  exact hself

theorem checkpoint_fate (hone : ∀ k, s.checkpoints.get? checkpointId = some k → LeasedInCycle k)
    (h : breakerStep checkpointId interval budget s e s') :
    CheckpointFate checkpointId interval budget s e s' := by
  obtain ⟨hstep, hconfigured, hmoved, -⟩ := h
  cases reconciliationStep_case hstep with
  | seeded newId dueAt hcall hseeds honly =>
    have hunmoved : e.moved = [] := by
      rw [hmoved, hcall]
      rfl
    have hnew : ∀ k ∈ s'.checkpoints,
        k ∈ s.checkpoints ∨ (k.cycleStartedAt = none ∧ k.leaseOwner = none) := by
      have hstore : (runReconciliationCall e.event.call s).2 = s' := congrArg Prod.snd hstep
      rw [hcall] at hstore
      subst hstore
      exact seedCheckpoints_new rfl
    have hkept : ∀ k ∈ s.checkpoints, k ∈ s'.checkpoints := by
      clear hnew hmoved hstep honly
      induction hseeds with
      | refl => exact fun k hk => hk
      | tail _ hseed ih =>
        obtain ⟨row, -, -, hinsert⟩ := hseed
        exact fun k hk => (mem_insert? hinsert).mpr (.inr (ih k hk))
    cases hget : s.checkpoints.get? checkpointId with
    | none =>
      refine CheckpointFate.seeded hunmoved hget (fun k hk => ?_)
      rcases hnew k (mem_of_get? hk) with hold | hfresh
      · exact absurd (key_of_get? hk) (get?_eq_none.mp hget k hold)
      · exact hfresh
    | some k =>
      refine CheckpointFate.aside hunmoved ?_
      rw [hget]
      exact get?_eq_some.mpr ⟨hkept k (mem_of_get? hget), key_of_get? hget⟩
  | refused _ _ hsame =>
    refine CheckpointFate.aside ?_ (by rw [hsame])
    rw [hmoved]
    exact tightenedBy_of_same (by rw [hsame])
  | claimed claimedId request session reply hcall _ hclaim =>
    have hunmoved : e.moved = [] := by
      rw [hmoved, hcall]
      rfl
    rcases hclaim.touched with rfl | ⟨old, new, hold, htouched⟩
    · exact CheckpointFate.aside hunmoved rfl
    · by_cases hid : claimedId = checkpointId
      · subst hid
        have hnew := touched_self htouched hold
        obtain ⟨hcase, hleased⟩ := claim_budget hclaim hold hnew (hone old hold)
        refine CheckpointFate.changed hold hnew (by rw [hcall]; rfl) ?_ ?_ (fun _ => hleased)
        · rw [BreakerEvent.readings, hcall]
          exact mem_cons_self
        · rw [hunmoved]
          exact hcase
      · refine CheckpointFate.aside hunmoved (touched_other htouched ?_)
        rw [key_of_get? hold]
        exact hid
  | applied request now result hcall _ happly =>
    rw [hcall] at hmoved hconfigured
    rcases happly.touched with rfl | ⟨old, new, hold, htouched⟩
    · exact CheckpointFate.aside (hmoved.trans (tightenedBy_of_same rfl)) rfl
    · by_cases hid : request.lease.checkpointId = checkpointId
      · subst hid
        simp only [ReconciliationCall.configured, Bool.and_eq_true, beq_iff_eq] at hconfigured
        have hnew := touched_self htouched hold
        obtain ⟨hcase, hleased⟩ := apply_budget happly hconfigured.2 hold hnew (hone old hold)
        refine CheckpointFate.changed hold hnew (by rw [hcall]; rfl) ?_ ?_ (fun _ => hleased)
        · rw [BreakerEvent.readings, hcall]
          exact mem_cons_self
        · rw [hmoved]
          exact hcase
      · refine CheckpointFate.aside ?_ (touched_other htouched ?_)
        · rw [hmoved]
          unfold tightenedBy
          simp only [if_neg hid]
        · rw [key_of_get? hold]
          exact hid
  | written tables hcall hsame =>
    refine CheckpointFate.aside ?_ (by rw [hsame])
    rw [hmoved, hcall]
    rfl

/-! ### Every window -/

/-- What holds of one window after every history. -/
structure BreakerLedger (checkpointId : String) (interval : Int) (budget : Nat) (start : Int)
    (hist : List BreakerEvent) (w : Clocked ReconciliationStore Int) : Prop where
  leased : ∀ k, w.store.checkpoints.get? checkpointId = some k → LeasedInCycle k
  total : movedIn start interval hist ≤ budget + budget * earlyIn start interval hist
  fresh : w.now < start ∨ w.store.checkpoints.get? checkpointId = none →
    movedIn start interval hist = 0
  running : w.now < start + seconds interval →
    ∀ k, w.store.checkpoints.get? checkpointId = some k → k.cycleStartedAt ≠ none →
      k.tightenedCount ≤ budget ∧
        movedIn start interval hist ≤ budget * earlyIn start interval hist + k.tightenedCount
  stopped : w.now < start + seconds interval →
    ∀ k, w.store.checkpoints.get? checkpointId = some k → k.cycleStartedAt = none →
      movedIn start interval hist ≤ budget * earlyIn start interval hist ∨
        start + seconds interval ≤ k.nextRunAt

def Idle (s : ReconciliationStore) : Prop :=
  ∀ k ∈ s.checkpoints, k.cycleStartedAt = none ∧ k.leaseOwner = none

variable {w w' : Clocked ReconciliationStore Int}

theorem Idle.ledger (h : Idle w.store) :
    BreakerLedger checkpointId interval budget start [] w := by
  constructor
  · intro k hk
    exact leasedInCycle_of_free (h k (mem_of_get? hk)).2
  · exact Nat.zero_le _
  · exact fun _ => rfl
  · intro _ k hk hrunning
    exact absurd (h k (mem_of_get? hk)).1 hrunning
  · exact fun _ k hk _ => .inl (Nat.zero_le _)

theorem BreakerLedger.aside (h : BreakerLedger checkpointId interval budget start hist w)
    (hnow : w.now ≤ w'.now) (hunmoved : e.moved = [])
    (hsame : w'.store.checkpoints.get? checkpointId = w.store.checkpoints.get? checkpointId) :
    BreakerLedger checkpointId interval budget start (e :: hist) w' := by
  have hmoved : movedIn start interval (e :: hist) = movedIn start interval hist :=
    movedIn_of_unmoved hunmoved
  have hearly : budget * earlyIn start interval hist ≤
      budget * earlyIn start interval (e :: hist) := Nat.mul_le_mul_left budget earlyIn_le
  constructor
  · rw [hsame]
    exact h.leased
  · rw [hmoved]
    exact le_trans h.total (Nat.add_le_add_left hearly budget)
  · rw [hmoved, hsame]
    rintro (hbefore | habsent)
    · exact h.fresh (.inl (lt_of_le_of_lt hnow hbefore))
    · exact h.fresh (.inr habsent)
  · rw [hsame, hmoved]
    intro hinside k hk hrunning
    obtain ⟨hbounded, hcount⟩ := h.running (lt_of_le_of_lt hnow hinside) k hk hrunning
    exact ⟨hbounded, le_trans hcount (Nat.add_le_add_right hearly _)⟩
  · rw [hsame, hmoved]
    intro hinside k hk hstopped
    rcases h.stopped (lt_of_le_of_lt hnow hinside) k hk hstopped with hcount | hlater
    · exact .inl (le_trans hcount hearly)
    · exact .inr hlater

theorem BreakerLedger.seeded (h : BreakerLedger checkpointId interval budget start hist w)
    (hunmoved : e.moved = []) (habsent : w.store.checkpoints.get? checkpointId = none)
    (hnew : ∀ k, w'.store.checkpoints.get? checkpointId = some k →
      k.cycleStartedAt = none ∧ k.leaseOwner = none) :
    BreakerLedger checkpointId interval budget start (e :: hist) w' := by
  have hmoved : movedIn start interval (e :: hist) = 0 :=
    (movedIn_of_unmoved hunmoved).trans (h.fresh (.inr habsent))
  constructor
  · exact fun k hk => leasedInCycle_of_free (hnew k hk).2
  · rw [hmoved]
    exact Nat.zero_le _
  · exact fun _ => hmoved
  · exact fun _ k hk hrunning => absurd (hnew k hk).1 hrunning
  · intro _ k _ _
    rw [hmoved]
    exact .inl (Nat.zero_le _)

variable {t : Int}

theorem movedIn_le (start interval : Int) (hist : List BreakerEvent)
    (htime : e.event.call.time = some t) :
    movedIn start interval (e :: hist) ≤ movedIn start interval hist + e.moved.length ∧
      (t < start → movedIn start interval (e :: hist) = movedIn start interval hist) ∧
      (start + seconds interval ≤ t →
        movedIn start interval (e :: hist) = movedIn start interval hist) := by
  have hwindow : inWindow start interval e =
      (decide (start ≤ t) && decide (t < start + seconds interval)) := by
    rw [inWindow, htime, Option.any_some]
  by_cases hinside : inWindow start interval e = true
  · have hmoved : movedIn start interval (e :: hist) =
        e.moved.length + movedIn start interval hist := movedIn_of_inside hinside
    rw [hwindow, Bool.and_eq_true, decide_eq_true_eq, decide_eq_true_eq] at hinside
    refine ⟨by omega, fun hbefore => ?_, fun hafter => ?_⟩
    · omega
    · omega
  · have hmoved : movedIn start interval (e :: hist) = movedIn start interval hist :=
      movedIn_of_outside (by rwa [Bool.not_eq_true] at hinside)
    exact ⟨by omega, fun _ => hmoved, fun _ => hmoved⟩

theorem early_of_stopped (hist : List BreakerEvent)
    (hearly : e.early = endsEarly checkpointId interval w.store e.event.call w'.store)
    (htime : e.event.call.time = some t) (hold : w.store.checkpoints.get? checkpointId = some old)
    (hnew : w'.store.checkpoints.get? checkpointId = some new)
    (hrunning : old.cycleStartedAt ≠ none) (hstopped : new.cycleStartedAt = none)
    (hstart : start ≤ t) (hinside : t < start + seconds interval) :
    earlyIn start interval (e :: hist) = earlyIn start interval hist + 1 ∨
      start + seconds interval ≤ new.nextRunAt := by
  by_cases hnext : new.nextRunAt < t + seconds interval
  · left
    apply earlyIn_of_early
    · rw [inWindow, htime, Option.any_some, Bool.and_eq_true, decide_eq_true_eq, decide_eq_true_eq]
      exact ⟨hstart, hinside⟩
    · rw [hearly, endsEarly, htime, hold, hnew]
      simp [hstopped, hnext, Option.isSome_iff_ne_none, hrunning]
  · right
    omega

theorem BreakerLedger.changed (h : BreakerLedger checkpointId interval budget start hist w)
    (hearly : e.early = endsEarly checkpointId interval w.store e.event.call w'.store)
    (hold : w.store.checkpoints.get? checkpointId = some old)
    (hnew : w'.store.checkpoints.get? checkpointId = some new) (htime : e.event.call.time = some t)
    (hbefore : w.now ≤ t) (hafter : t ≤ w'.now) (hcase : BudgetCase budget t e.moved old new)
    (hleased : LeasedInCycle old → LeasedInCycle new) :
    BreakerLedger checkpointId interval budget start (e :: hist) w' := by
  have hgrows : budget * earlyIn start interval hist ≤
      budget * earlyIn start interval (e :: hist) := Nat.mul_le_mul_left budget earlyIn_le
  have htotal := h.total
  obtain ⟨hcounted, hearlier, hlater⟩ := movedIn_le start interval hist htime
  have hnewOnly : ∀ k, w'.store.checkpoints.get? checkpointId = some k → k = new := by
    intro k hk
    rw [hnew] at hk
    exact (Option.some.inj hk).symm
  have hfresh : w'.now < start ∨ w'.store.checkpoints.get? checkpointId = none →
      movedIn start interval (e :: hist) = 0 := by
    rintro (hyoung | habsent)
    · rw [hearlier (by omega)]
      exact h.fresh (.inl (by omega))
    · rw [hnew] at habsent
      cases habsent
  have hlease : ∀ k, w'.store.checkpoints.get? checkpointId = some k → LeasedInCycle k := by
    intro k hk
    rw [hnewOnly k hk]
    exact hleased (h.leased old hold)
  cases hcase with
  | running hrunning hruns hcount hbounded =>
    refine ⟨hlease, ?_, hfresh, ?_, ?_⟩
    · by_cases hinside : t < start + seconds interval
      · obtain ⟨hbudget, hphase⟩ := h.running (by omega) old hold hrunning
        omega
      · rw [hlater (by omega)]
        omega
    · intro hinside k hk _
      rw [hnewOnly k hk]
      obtain ⟨hbudget, hphase⟩ := h.running (by omega) old hold hrunning
      exact ⟨hbounded hbudget, by omega⟩
    · intro _ k hk hstopped
      rw [hnewOnly k hk] at hstopped
      exact absurd hstopped hruns
  | stopped hstopped hunmoved hnext =>
    have hmoved : movedIn start interval (e :: hist) = movedIn start interval hist :=
      movedIn_of_unmoved hunmoved
    refine ⟨hlease, by omega, hfresh, ?_, ?_⟩
    · intro _ k hk hrunning
      rw [hnewOnly k hk] at hrunning
      exact absurd hstopped hrunning
    · intro hinside k hk _
      rw [hnewOnly k hk, hmoved]
      by_cases hstart : t < start
      · rw [h.fresh (.inl (by omega))]
        exact .inl (Nat.zero_le _)
      · by_cases hrunning : old.cycleStartedAt = none
        · rcases h.stopped (by omega) old hold hrunning with hcount | hfar
          · exact .inl (le_trans hcount hgrows)
          · exact .inr (le_trans hfar hnext)
        · obtain ⟨hbudget, hphase⟩ := h.running (by omega) old hold hrunning
          rcases early_of_stopped hist hearly htime hold hnew hrunning hstopped
            (not_lt.mp hstart) (by omega) with hended | hfar
          · left
            rw [hended, Nat.mul_add, Nat.mul_one]
            omega
          · exact .inr hfar
  | started hstopped hdue hunmoved hcount =>
    have hmoved : movedIn start interval (e :: hist) = movedIn start interval hist :=
      movedIn_of_unmoved hunmoved
    -- the schedule has passed, so an earlier cycle of the window has ended early
    have hphase : w'.now < start + seconds interval →
        movedIn start interval hist ≤ budget * earlyIn start interval hist := by
      intro hinside
      rcases h.stopped (by omega) old hold hstopped with hcounted | hfar
      · exact hcounted
      · omega
    refine ⟨hlease, by omega, hfresh, ?_, ?_⟩
    · intro hinside k hk _
      rw [hnewOnly k hk, hcount, hmoved]
      exact ⟨Nat.zero_le _, le_trans (hphase hinside) (Nat.le_add_right_of_le hgrows)⟩
    · intro hinside k hk _
      rw [hmoved]
      exact .inl (le_trans (hphase hinside) hgrows)

theorem BreakerLedger.step (h : BreakerLedger checkpointId interval budget start hist w)
    (hstep : clocked BreakerEvent.readings (breakerStep checkpointId interval budget) w e w') :
    BreakerLedger checkpointId interval budget start (e :: hist) w' := by
  have hstore := hstep.store_step
  cases checkpoint_fate h.leased hstore with
  | aside hunmoved hsame => exact h.aside hstep.now_le hunmoved hsame
  | seeded hunmoved habsent hnew => exact h.seeded hunmoved habsent hnew
  | changed hold hnew htime hreading hcase hleased =>
    exact h.changed hstore.2.2.2 hold hnew htime (hstep.le_reading hreading)
      (hstep.reading_le hreading) hcase hleased

/-- **The tightening budget of a window.**  In every window of one cycle interval, the
    identities moved out of ACTIVE are at most one budget, and one more for each cycle
    that ended early in the window. -/
theorem tightened_in_window {checkpointId : String} {interval : Int} {budget : Nat}
    {w w' : Clocked ReconciliationStore Int} {hist : List BreakerEvent} (hstart : Idle w.store)
    (hrun : BreakerRun checkpointId interval budget w hist w') (start : Int) :
    movedIn start interval hist ≤ budget * (1 + earlyIn start interval hist) := by
  have hledger : BreakerLedger checkpointId interval budget start hist w' := by
    unfold BreakerRun at hrun
    induction hrun with
    | nil => exact hstart.ledger
    | cons _ hstep ih => exact ih.step hstep
  rw [Nat.mul_add, Nat.mul_one]
  exact hledger.total

/-! ### A sample window -/

def inactiveRequest (lease : ReconciliationLease) (now : Int) : ApplyRequest :=
  ⟨lease, ⟨⟨.inactive, now, none, none⟩, by
    simp [ObservationFields.error, ObservationFields.proofError, ObservationFields.codeError]⟩,
    sampleInterval, 30, 60, 60, 3, 1⟩

def revisedAccount : IdentityProviderAccount := { sampleAccount with identityRevision := 2 }

def revisedDirectory : IdentityDirectory :=
  { pairDirectory with
    accounts := tableOf revisedAccount
    identities :=
      ⟨[⟨"i1", "t", "u1", "feishu", "pt", "user_id", "o1", .inactive, none, some 0, 2⟩,
        ⟨"i2", "t", "u2", "feishu", "pt", "user_id", "o2", .active, none, some 0, 1⟩], by decide⟩ }

def pairLease3 : ReconciliationLease :=
  ⟨⟨"k", "g2", "w", 3, revisedAccount.context, "i2", "o2", 1, 0, 400010 + seconds 1⟩,
    by decide +kernel⟩

/-- A fence conflict ends the first cycle after its only move, and the next cycle moves
    another identity. -/
def restartCalls : List ReconciliationCall :=
  [.seedCheckpoints (fun _ => "k") 0, pairClaim "g1" 10, .apply (inactiveRequest pairLease1 30) 30,
    pairClaim "g2" 200000, .directory revisedDirectory,
    .apply (inactiveRequest pairLease2 200020) 200020, pairClaim "g3" 400000,
    .apply (inactiveRequest pairLease3 400020) 400020]

def runBreaker (checkpointId : String) (interval : Int) (call : ReconciliationCall)
    (s : ReconciliationStore) : BreakerEvent × ReconciliationStore :=
  let r := runReconciliationCall call s
  (⟨r.1, tightenedBy checkpointId s call r.2, endsEarly checkpointId interval s call r.2⟩, r.2)

theorem runBreaker_step
    (h : call.configured interval budget = true) :
    breakerStep checkpointId interval budget s (runBreaker checkpointId interval call s).1
      (runBreaker checkpointId interval call s).2 := by
  simp only [breakerStep, runBreaker, reconciliationStep, runReconciliationCall_call, h, and_self]

def restartRun : List BreakerEvent × ReconciliationStore :=
  execute (runBreaker "k" 60) restartCalls [] pairStart

theorem restartRun_run : BreakerRun "k" 60 1 ⟨0, pairStart⟩ restartRun.1
    ⟨clockAfter ReconciliationCall.readings 0 restartCalls, restartRun.2⟩ := by
  have hordered : inOrder ReconciliationCall.readings 0 restartCalls = true := by decide +kernel
  have hallowed : allowed (runBreaker "k" 60) (fun call _ => call.configured 60 1) restartCalls
      pairStart = true := by decide +kernel
  have hstart : Run (clocked BreakerEvent.readings (breakerStep "k" 60 1)) ⟨0, pairStart⟩ []
      ⟨0, pairStart⟩ := Run.nil
  apply execute_run_allowed hstart hordered hallowed
  · intro call s hcall
    exact runBreaker_step hcall
  · intro call s
    show (runReconciliationCall call s).1.call.readings = call.readings
    rw [runReconciliationCall_call]

theorem idle_pairStart : Idle pairStart := fun k hk => absurd hk (not_mem_empty k)

theorem tightened_in_window_sample :
    movedIn 0 60 restartRun.1 ≤ 1 * (1 + earlyIn 0 60 restartRun.1) ∧
      earlyIn 0 60 restartRun.1 = 1 :=
  ⟨tightened_in_window idle_pairStart restartRun_run 0, by decide +kernel⟩

/-- One budget does not bound the window: two identities are moved with a budget of one. -/
theorem window_over_budget :
    movedIn 0 60 restartRun.1 = 2 ∧
      ¬ ∀ (checkpointId : String) (interval : Int) (budget : Nat)
          (w w' : Clocked ReconciliationStore Int) (hist : List BreakerEvent), Idle w.store →
        BreakerRun checkpointId interval budget w hist w' → ∀ start,
          movedIn start interval hist ≤ budget := by
  have hmoved : movedIn 0 60 restartRun.1 = 2 := by decide +kernel
  refine ⟨hmoved, fun hall => ?_⟩
  have hbound := hall "k" 60 1 _ _ _ idle_pairStart restartRun_run 0
  omega

end MultiRag.IdentityReconciliation
