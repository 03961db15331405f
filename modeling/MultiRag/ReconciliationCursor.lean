/-
  **The cursor of a reconciliation cycle.**

  A cycle scans the identities of an account in the order of their ids. All paths but one write
  the cursor through `maxCursor`; a claim that gives up a pending target sets it to the identity of
  that target, so the cycle can go back (`rewinds`).
-/
import MultiRag.ReconciliationTargets

namespace MultiRag.IdentityReconciliation

open IdentityReconciliationCheckpoint Table Option

/-! ### Cycles -/

def ReconciliationStore.runs (s : ReconciliationStore) (checkpointId : String) : Bool :=
  (s.checkpoints.get? checkpointId).any (fun k => k.cycleStartedAt.isSome)

def ReconciliationStore.cursorOf (s : ReconciliationStore) (checkpointId : String) :
    Option String :=
  (s.checkpoints.get? checkpointId).bind IdentityReconciliationCheckpoint.cursorIdentityId

def cursorLe (old new : Option String) : Prop := ∀ c ∈ old, ∃ c' ∈ new, c ≤ c'

def scanned (checkpointId : String) (s : ReconciliationStore) (e : ReconciliationEvent) :
    Option String :=
  match e.call, e.reply with
  | .claimNext claimedId _ session, .claimed (.ok (some lease)) =>
      if claimedId = checkpointId ∧ (s.dueTarget claimedId session.eligibilityNow).isNone then
        some lease.externalIdentityId
      else none
  | _, _ => none

/-- A step, with the identity its scan chose. -/
structure ScanEvent where
  event : ReconciliationEvent
  selected : Option String

def cycleStep (checkpointId : String) (s : ReconciliationStore) (e : ScanEvent)
    (s' : ReconciliationStore) : Prop :=
  restrictedStep s e.event s' ∧ e.selected = scanned checkpointId s e.event ∧
    s'.runs checkpointId = true

def selections (hist : List ScanEvent) : List String := hist.filterMap ScanEvent.selected

/-- The claim reaches its checkpoint and gives up a pending target whose identity lies
    before the cursor. -/
def claimRewinds (checkpointId : String) (request : ClaimRequest) (session : ClaimSession)
    (s : ReconciliationStore) : Bool :=
  match s.checkpoints.get? checkpointId, s.dueTarget checkpointId session.eligibilityNow with
  | some checkpoint, some target =>
      match s.directory.tenants.get? checkpoint.tenantId,
          s.directory.accounts.get? checkpoint.providerAccountId,
          s.directory.identities.get? target.externalIdentityId with
      | some tenant, some account, some identity =>
          request.validate.isOk &&
            !(session.tenantLocked || session.accountLocked || session.checkpointLocked) &&
            tenant.status == validStatus && !leaseRuns checkpoint session.eligibilityNow &&
            decide (checkpoint.nextRunAt ≤ session.eligibilityNow) &&
            reconcilableHealth.contains account.identityHealthState &&
            identity.seenSince request.activeSince && !probeable s account identity &&
            (checkpoint.startCycle session.eligibilityNow).cursorIdentityId.any
              (fun cursor => decide (identity.id < cursor))
      | _, _, _ => false
  | _, _ => false

def ReconciliationCall.rewinds (checkpointId : String) (s : ReconciliationStore) :
    ReconciliationCall → Bool
  | .claimNext claimedId request session =>
      decide (claimedId = checkpointId) && claimRewinds checkpointId request session s
  | _ => false

/-- A step in a cycle that does not take the cursor back. -/
def forwardStep (checkpointId : String) (s : ReconciliationStore) (e : ScanEvent)
    (s' : ReconciliationStore) : Prop :=
  cycleStep checkpointId s e s' ∧ e.event.call.rewinds checkpointId s = false

/-! ### What a transaction does to the cycle -/

theorem cursorLe_refl (cursor : Option String) : cursorLe cursor cursor :=
  fun c hc => ⟨c, hc, String.le_refl c⟩

theorem cursorLe_trans {a b c : Option String} (hab : cursorLe a b) (hbc : cursorLe b c) :
    cursorLe a c := by
  intro x hx
  obtain ⟨y, hy, hxy⟩ := hab x hx
  obtain ⟨z, hz, hyz⟩ := hbc y hy
  exact ⟨z, hz, String.le_trans hxy hyz⟩

theorem cursorLe_maxCursor (cursor : Option String) (candidate : String) :
    cursorLe cursor (some (maxCursor cursor candidate)) := by
  intro c hc
  rw [Option.mem_def] at hc
  subst hc
  refine ⟨_, rfl, ?_⟩
  unfold maxCursor
  simp only
  split
  · next hlt => exact String.not_lt.mp (String.lt_asymm hlt)
  · exact String.le_refl c

theorem le_maxCursor (cursor : Option String) (candidate : String) :
    candidate ≤ maxCursor cursor candidate := by
  unfold maxCursor
  split
  · exact String.le_refl candidate
  · split
    · exact String.le_refl candidate
    · next hge => exact String.not_lt.mp hge

def Covered (s : ReconciliationStore) (k : IdentityReconciliationCheckpoint) (identityId : String) :
    Prop :=
  (∃ c ∈ k.cursorIdentityId, identityId ≤ c) ∨
    ∃ t ∈ s.targets, t.providerAccountId = k.providerAccountId ∧
      t.externalIdentityId = identityId ∧ t.state = .pending

/-- What a transaction on the checkpoint does to a cycle that runs before and after. -/
structure CycleLaw (s s' : ReconciliationStore) (old new : IdentityReconciliationCheckpoint) :
    Prop where
  started : new.cycleStartedAt = old.cycleStartedAt
  cursor : cursorLe old.cursorIdentityId new.cursorIdentityId
  targets : ∀ t ∈ s.targets, t.checkpointId = old.id → t.state = .pending →
    (∃ t' ∈ s'.targets, SameTarget t t' ∧ t'.state = .pending) ∨
      ∃ c ∈ new.cursorIdentityId, t.externalIdentityId ≤ c

/-- What the choice of a scan says about the store before and after. -/
structure ScanLaw (s s' : ReconciliationStore) (old : IdentityReconciliationCheckpoint)
    (identityId : String) : Prop where
  ahead : old.cycleStartedAt ≠ none → ∀ c ∈ old.cursorIdentityId, c < identityId
  unpending : ∀ t ∈ s.targets, t.providerAccountId = old.providerAccountId →
    t.externalIdentityId = identityId → t.state ≠ .pending
  pending : ∃ t ∈ s'.targets, t.providerAccountId = old.providerAccountId ∧
    t.externalIdentityId = identityId ∧ t.state = .pending

variable {s s' : ReconciliationStore} {old new : IdentityReconciliationCheckpoint}
  {checkpointId : String} {t : IdentityReconciliationTarget}

theorem CycleLaw.kept (htargets : s'.targets = s.targets) (hsame : SameCycle old new) :
    CycleLaw s s' old new := by
  constructor
  · exact hsame.started
  · rw [hsame.cursor]
    exact cursorLe_refl _
  · intro t ht _ hpend
    exact .inl ⟨t, by rwa [htargets], ⟨rfl, rfl, rfl, rfl⟩, hpend⟩

variable {before : IdentityReconciliationTarget}

section

variable (after : IdentityReconciliationTarget)
  (hbefore : before ∈ s.targets)
  (hsame : SameTarget before after)
  (hput : s'.targets = s.targets.put after)
include after hbefore hsame hput

theorem CycleLaw.put
    (hstart : new.cycleStartedAt = old.cycleStartedAt)
    (hcursor : cursorLe old.cursorIdentityId new.cursorIdentityId)
    (hwritten : after.state = .pending ∨ ∃ c ∈ new.cursorIdentityId, before.externalIdentityId ≤ c)
      :
    CycleLaw s s' old new := by
  refine ⟨hstart, hcursor, ?_⟩
  intro t ht _ hpend
  by_cases hid : t.id = before.id
  · rw [eq_of_key ht hbefore hid]
    rcases hwritten with hafter | hreached
    · refine .inl ⟨after, ?_, hsame, hafter⟩
      rw [hput, mem_put_of_mem hbefore hsame.id_eq]
      exact .inl rfl
    · exact .inr hreached
  · refine .inl ⟨t, ?_, ⟨rfl, rfl, rfl, rfl⟩, hpend⟩
    rw [hput, mem_put_of_mem hbefore hsame.id_eq]
    exact .inr ⟨ht, hid⟩

theorem CycleLaw.passed
    (hpassed : Passed old new before.externalIdentityId) : CycleLaw s s' old new := by
  refine CycleLaw.put after hbefore hsame hput hpassed.started ?_ (.inr ?_)
  · rw [hpassed.cursor]
    exact cursorLe_maxCursor _ _
  · exact ⟨_, hpassed.cursor, le_maxCursor _ _⟩

end

theorem leasedCheckpoint_running (request : ClaimRequest) (session : ClaimSession)
    (hrunning : old.cycleStartedAt ≠ none) :
    SameCycle old (leasedCheckpoint request session old) := by
  have hcycle := leasedCheckpoint_cycle request session old
  rwa [startCycle_of_running hrunning] at hcycle

variable {request : ClaimRequest} {session : ClaimSession}

theorem cursorLe_of_failed {account : IdentityProviderAccount}
    {target : IdentityReconciliationTarget} {identity : ExternalIdentity}
    (hreached : Reached checkpointId request session s old account)
    (hdue : s.dueTarget old.id session.eligibilityNow = some target)
    (hident : s.directory.identities.get? target.externalIdentityId = some identity)
    (hseen : identity.seenSince request.activeSince = true)
    (hprobe : probeable s account identity = false) (hrunning : old.cycleStartedAt ≠ none) :
    claimRewinds checkpointId request session s = false ↔
      cursorLe old.cursorIdentityId (some identity.id) := by
  obtain ⟨tenant, htenant, hstatus⟩ := hreached.tenant
  have hrewinds : claimRewinds checkpointId request session s =
      old.cursorIdentityId.any (fun cursor => decide (identity.id < cursor)) := by
    unfold claimRewinds
    rw [key_of_get? hreached.checkpoint] at hdue
    simp only [hreached.checkpoint, hdue, htenant, hreached.account, hident, hreached.valid,
      hreached.unlocked, hstatus, hreached.free, hreached.due, hreached.health, hseen, hprobe,
      startCycle_of_running hrunning, beq_self_eq_true, decide_true, Bool.not_false, Bool.and_true,
      Except.isOk, Except.toBool, Bool.true_and]
  rw [hrewinds, any_eq_false]
  constructor
  · intro hahead c hc
    refine ⟨identity.id, rfl, String.not_lt.mp ?_⟩
    have hnot := hahead c hc
    rwa [decide_eq_false_iff_not] at hnot
  · intro hle c hc
    obtain ⟨c', hc', hcle⟩ := hle c hc
    cases hc'
    rw [decide_eq_false_iff_not]
    exact String.not_lt.mpr hcle

theorem claim_law {reply : Option ReconciliationLease} (hplaced : Placed s)
    (hclaim : ClaimCase checkpointId request session s reply s')
    (hforward : claimRewinds checkpointId request session s = false)
    (hold : s.checkpoints.get? checkpointId = some old)
    (hnew : s'.checkpoints.get? checkpointId = some new) (hrunning : old.cycleStartedAt ≠ none)
    (hruns : new.cycleStartedAt ≠ none) : CycleLaw s s' old new := by
  have hcycle := leasedCheckpoint_running request session hrunning
  have hgranted := (checkpoint_of_put hold (leasedCheckpoint_keys request session old).1 · hnew)
  cases hclaim with
  | idle =>
    rw [hold] at hnew
    cases hnew
    exact CycleLaw.kept rfl ⟨rfl, rfl, rfl⟩
  | @closed k account hchk hacct =>
    rw [hold] at hchk
    cases hchk
    have hwritten := checkpoint_of_put hold (completeCycle_follows old _ _ _).id_eq rfl hnew
    rw [hwritten] at hruns
    exact absurd (completeCycle_stops old _ _ _).1 hruns
  | @exhausted k account hreached =>
    obtain rfl := hreached.same hold
    have hwritten := checkpoint_of_put hold
      ((startCycle_follows old _).trans (completeCycle_follows _ _ _ _)).id_eq rfl hnew
    rw [hwritten] at hruns
    exact absurd (completeCycle_stops _ _ _ _).1 hruns
  | @failed k account target found hreached hdue hident hunprobeable =>
    obtain rfl := hreached.same hold
    have htarget := dueTarget_spec hdue
    have hwritten : new = _ := checkpoint_of_put hold
      (by exact (advanceNextRun_follows _ _).id_eq.trans (startCycle_follows old _).id_eq) rfl hnew
    rw [startCycle_of_running hrunning] at hwritten
    -- the identity of a target is always there
    obtain ⟨identity, hfound⟩ := isSome_iff_exists.mp (hplaced.identity target htarget.mem)
    rw [hident] at hfound
    subst hfound
    obtain ⟨hseen, hprobe⟩ := hunprobeable identity rfl
    have hcursor := (cursorLe_of_failed hreached hdue hident hseen hprobe hrunning).mp hforward
    have hnewCursor : new.cursorIdentityId = some identity.id := by
      rw [hwritten]
      exact (release_cycle _ _).cursor
    refine CycleLaw.put
      { target with
        state := .failed
        safeErrorCode := some ReconciliationErrorCode.fenceConflict.value }
      htarget.mem ⟨rfl, rfl, rfl, rfl⟩ rfl ?_ ?_ (.inr ?_)
    · rw [hwritten]
      exact (release_cycle _ _).started
    · rw [hnewCursor]
      exact hcursor
    · rw [hnewCursor, key_of_get? hident]
      exact ⟨_, rfl, String.le_refl _⟩
  | @unseen k account target identity hreached hdue hident =>
    obtain rfl := hreached.same hold
    have htarget := dueTarget_spec hdue
    have hwritten : new = _ := checkpoint_of_put hold
      (by exact (advanceNextRun_follows _ _).id_eq.trans (startCycle_follows old _).id_eq) rfl hnew
    rw [startCycle_of_running hrunning] at hwritten
    refine CycleLaw.passed
      { target with
        state := .completed
        nextAttemptAt := session.eligibilityNow
        safeErrorCode := none }
      htarget.mem ⟨rfl, rfl, rfl, rfl⟩ rfl ?_
    rw [hwritten, ← key_of_get? hident]
    exact ⟨(release_cycle _ _).started, (release_cycle _ _).cursor⟩
  | @pending k account target identity lease hreached hdue hident _ =>
    obtain rfl := hreached.same hold
    have htarget := dueTarget_spec hdue
    obtain rfl := hgranted rfl
    refine CycleLaw.put _ htarget.mem ?_ rfl hcycle.started ?_ (.inl ?_)
    · unfold IdentityReconciliationTarget.fenced IdentityReconciliationTarget.refresh
      split <;> exact ⟨rfl, rfl, rfl, rfl⟩
    · rw [hcycle.cursor]
      exact cursorLe_refl _
    · unfold IdentityReconciliationTarget.fenced IdentityReconciliationTarget.refresh
      split <;> exact htarget.pending
  | @scanned k account identity lease targets hreached _ hscan _ hinsert _ =>
    obtain rfl := hreached.same hold
    obtain rfl := hgranted rfl
    refine ⟨hcycle.started, ?_, ?_⟩
    · rw [hcycle.cursor]
      exact cursorLe_refl _
    · intro t ht _ hpend
      exact .inl ⟨t, (mem_insert? hinsert).mpr (.inr ht), ⟨rfl, rfl, rfl, rfl⟩, hpend⟩
  | @renewed k account target identity lease hreached _ hscan htargeted _ =>
    obtain rfl := hreached.same hold
    obtain ⟨hmem, -, -⟩ := targetOf_spec htargeted
    obtain rfl := hgranted rfl
    refine CycleLaw.put ((renewTarget session identity target).fenced account identity
      session.leaseNow) hmem ⟨rfl, rfl, rfl, rfl⟩ rfl hcycle.started ?_ (.inl rfl)
    rw [hcycle.cursor]
    exact cursorLe_refl _

theorem apply_law {request : ApplyRequest} {now : Int} {result : ReconciliationApplyResult}
    (happly : ApplyCase request now s result s')
    (hold : s.checkpoints.get? request.lease.checkpointId = some old)
    (hnew : s'.checkpoints.get? request.lease.checkpointId = some new)
    (hruns : new.cycleStartedAt ≠ none) : CycleLaw s s' old new := by
  have hfloor := advanceNextRun_cycle old (now + request.probeInterval)
  cases happly with
  | idle _ =>
    rw [hold] at hnew
    cases hnew
    exact CycleLaw.kept rfl ⟨rfl, rfl, rfl⟩
  | @closed k account hmatched =>
    obtain rfl := hmatched.same hold
    have hfollows := (floor_follows request now old).trans (completeCycle_follows _ now request.cycleIntervalSeconds none)
    have hwritten := checkpoint_of_put hold hfollows.id_eq rfl hnew
    rw [hwritten] at hruns
    exact absurd (completeCycle_stops _ _ _ _).1 hruns
  | @rejected k account hmatched =>
    obtain rfl := hmatched.same hold
    have hfollows := (floor_follows request now old).trans (rejectFence_follows _ now)
    have hwritten := checkpoint_of_put hold hfollows.id_eq rejectFence_checkpoints hnew
    rw [hwritten] at hruns
    exact absurd (rejectFence_stops _ now) hruns
  | @moved k account target identity hmatched hfenced =>
    obtain rfl := hmatched.same hold
    have hfollows := (floor_follows request now old).trans (finishTarget_follows _ identity.id now)
    have hwritten := checkpoint_of_put hold hfollows.id_eq rfl hnew
    have hpassed := advancePastPendingTarget_passed (request.floor now old) identity.id now
    subst hwritten
    refine CycleLaw.passed (target.finish now true
      (some ReconciliationErrorCode.fenceConflict.value)) (mem_of_get? hfenced.target_eq)
      ⟨rfl, rfl, rfl, rfl⟩ rfl ?_
    rw [← key_of_get? hfenced.identity_eq]
    refine ⟨hpassed.1.started.trans hfloor.started, ?_⟩
    rw [← hfloor.cursor]
    exact hpassed.1.cursor
  | @observed k account target identity result rows hmatched hfenced _ _ hobs =>
    obtain rfl := hmatched.same hold
    obtain ⟨hkept, hcase⟩ := applyObservation_case hobs
    have hwritten := checkpoint_of_put hold
      (hkept.checkpoint_id.trans (floor_follows request now old).id_eq) rfl hnew
    subst hwritten
    have hmem := mem_of_get? hfenced.target_eq
    have hsame : SameTarget target rows.target :=
      ⟨hkept.target_id, hkept.target_checkpoint, hkept.target_account, hkept.target_identity⟩
    have hbehind : ∀ {after : IdentityReconciliationCheckpoint},
        Passed (request.floor now old) after identity.id →
          Passed old after target.externalIdentityId := by
      intro after hpassed
      rw [← key_of_get? hfenced.identity_eq]
      refine ⟨hpassed.started.trans hfloor.started, ?_⟩
      rw [← hfloor.cursor]
      exact hpassed.cursor
    generalize result.outcome = outcome at hcase
    cases hcase with
    | retried _ hpend _ _ _ _ hcycle =>
      have hall := hfloor.trans hcycle
      refine CycleLaw.put _ hmem hsame rfl hall.started ?_ (.inl hpend)
      rw [hall.cursor]
      exact cursorLe_refl _
    | awaited _ _ _ _ _ _ hpassed _ | rejected _ _ _ hpassed _ | applied _ hpassed _ =>
      exact CycleLaw.passed _ hmem hsame rfl (hbehind hpassed)
    | opened _ _ hstopped _ _ _ => exact absurd hstopped hruns

theorem scan_law {lease : ReconciliationLease}
    (hclaim : ClaimCase checkpointId request session s (some lease) s')
    (hnodue : s.dueTarget checkpointId session.eligibilityNow = none)
    (hold : s.checkpoints.get? checkpointId = some old) :
    ScanLaw s s' old lease.externalIdentityId := by
  cases hclaim with
  | @pending k account target identity lease hreached hdue _ _ =>
    obtain rfl := hreached.same hold
    rw [key_of_get? hold, hnodue] at hdue
    cases hdue
  | @scanned k account identity lease targets hreached _ hscan _ hinsert hleased =>
    obtain rfl := hreached.same hold
    have hscanned := scannedIdentity_spec hscan
    have hacct : account.id = old.providerAccountId := key_of_get? hreached.account
    have hident : lease.externalIdentityId = identity.id := by rw [hleased.fields]; rfl
    rw [hident]
    constructor
    · intro hrunning
      rw [startCycle_of_running hrunning] at hscanned
      exact hscanned.ahead
    · rw [← hacct]
      exact hscanned.unpending
    · exact ⟨_, (mem_insert? hinsert).mpr (.inl rfl), hacct, rfl, rfl⟩
  | @renewed k account target identity lease hreached _ hscan htargeted hleased =>
    obtain rfl := hreached.same hold
    have hscanned := scannedIdentity_spec hscan
    have hacct : account.id = old.providerAccountId := key_of_get? hreached.account
    have hident : lease.externalIdentityId = identity.id := by rw [hleased.fields]; rfl
    obtain ⟨hmem, htarget, hexternal⟩ := targetOf_spec htargeted
    rw [hident]
    constructor
    · intro hrunning
      rw [startCycle_of_running hrunning] at hscanned
      exact hscanned.ahead
    · rw [← hacct]
      exact hscanned.unpending
    · have hkey : ((renewTarget session identity target).fenced account identity
          session.leaseNow).id = target.id := rfl
      exact ⟨_, (mem_put_of_mem hmem hkey).mpr (.inl rfl), htarget.trans hacct,
        hexternal, rfl⟩

/-! ### A step of the cycle -/

structure CycleStep (s s' : ReconciliationStore) (k k' : IdentityReconciliationCheckpoint) :
    Prop where
  account_eq : k'.providerAccountId = k.providerAccountId
  started : k'.cycleStartedAt = k.cycleStartedAt
  cursor : cursorLe k.cursorIdentityId k'.cursorIdentityId
  covered : ∀ identityId, Covered s k identityId → Covered s' k' identityId

variable {k k' : IdentityReconciliationCheckpoint} {e : ScanEvent}

theorem CycleStep.aside (htargets : ∀ t ∈ s.targets, t.providerAccountId = k.providerAccountId →
    t ∈ s'.targets) : CycleStep s s' k k := by
  refine ⟨rfl, rfl, cursorLe_refl _, ?_⟩
  rintro identityId (hreached | ⟨t, ht, hacct, hident, hpend⟩)
  · exact .inl hreached
  · exact .inr ⟨t, htargets t ht hacct, hacct, hident, hpend⟩

theorem CycleStep.of_law (hplaced : Placed s) (hk : k ∈ s.checkpoints)
    (hacct : k'.providerAccountId = k.providerAccountId) (hlaw : CycleLaw s s' k k') :
    CycleStep s s' k k' := by
  refine ⟨hacct, hlaw.started, hlaw.cursor, ?_⟩
  rintro identityId (⟨c, hc, hle⟩ | ⟨t, ht, htarget, rfl, hpend⟩)
  · obtain ⟨c', hc', hle'⟩ := hlaw.cursor c hc
    exact .inl ⟨c', hc', String.le_trans hle hle'⟩
  · have hown := (hplaced.own_iff hk ht).mpr htarget
    rcases hlaw.targets t ht hown hpend with ⟨t', ht', hsame, hpend'⟩ | hreached
    · refine .inr ⟨t', ht', ?_, hsame.identity_eq, hpend'⟩
      rw [hsame.account_eq, htarget, hacct]
    · exact .inl hreached

theorem CycleStep.of_other (hplaced : Placed s) (htouched : Touched old new s s')
    (hk : s.checkpoints.get? checkpointId = some k) (hother : old.id ≠ checkpointId)
    (hk' : s'.checkpoints.get? checkpointId = some k') :
    CycleStep s s' k k' := by
  obtain ⟨hmem, rfl⟩ := get?_eq_some.mp hk
  rcases htouched.get? hk with ⟨rfl, -⟩ | ⟨-, hkept⟩
  · exact absurd rfl hother
  · rw [hkept] at hk'
    cases hk'
    refine CycleStep.aside (fun t ht hacct => htouched.keeps_target hplaced ht ?_)
    rw [(hplaced.own_iff hmem ht).mpr hacct]
    exact hother.symm

theorem CycleStep.of_touched {writtenId : String} (hplaced : Placed s)
    (hk : s.checkpoints.get? checkpointId = some k) (hk' : s'.checkpoints.get? checkpointId = some k')
    (htouched : s' = s ∨ ∃ old new, s.checkpoints.get? writtenId = some old ∧ Touched old new s s')
    (hlaw : writtenId = checkpointId → CycleLaw s s' k k') : CycleStep s s' k k' := by
  rcases htouched with rfl | ⟨old, new, hold, htouched⟩
  · obtain rfl := some.inj (hk.symm.trans hk')
    exact CycleStep.aside (fun t ht _ => ht)
  · by_cases hid : writtenId = checkpointId
    · subst hid
      obtain rfl := some.inj (hk.symm.trans hold)
      have hwritten := checkpoint_of_put hk htouched.id_eq htouched.put hk'
      rw [← hwritten] at htouched
      exact CycleStep.of_law hplaced htouched.mem htouched.account_eq (hlaw rfl)
    · exact CycleStep.of_other hplaced htouched hk (by rwa [key_of_get? hold]) hk'

theorem forwardStep_cycle (hplaced : Placed s) (h : forwardStep checkpointId s e s')
    (hk : s.checkpoints.get? checkpointId = some k) (hk' : s'.checkpoints.get? checkpointId = some k')
    (hrunning : k.cycleStartedAt ≠ none) (hruns : k'.cycleStartedAt ≠ none) :
    CycleStep s s' k k' := by
  obtain ⟨⟨⟨-, hstep⟩, -, -⟩, hforward⟩ := h
  have hsame : s'.checkpoints = s.checkpoints → k' = k := by
    intro hcheckpoints
    rw [hcheckpoints, hk] at hk'
    exact (some.inj hk').symm
  cases reconciliationStep_case hstep with
  | seeded _ _ _ hseeds honly =>
    have hkept := (seeds_checkpoints hseeds hplaced.one_checkpoint).2 k (mem_of_get? hk)
    have hget := get?_of_mem hkept
    rw [key_of_get? hk, hk'] at hget
    obtain rfl := some.inj hget
    exact CycleStep.aside (fun t ht _ => by rwa [honly.targets])
  | refused _ _ hstore | written directory _ hstore =>
    obtain rfl := hsame (by rw [hstore])
    exact CycleStep.aside (fun t ht _ => by rwa [hstore])
  | claimed claimedId request session reply hcall _ hclaim =>
    refine CycleStep.of_touched hplaced hk hk' hclaim.touched ?_
    rintro rfl
    have hnorewind : claimRewinds claimedId request session s = false := by
      rw [hcall] at hforward
      simpa [ReconciliationCall.rewinds] using hforward
    exact claim_law hplaced hclaim hnorewind hk hk' hrunning hruns
  | applied request now result hcall _ happly =>
    refine CycleStep.of_touched hplaced hk hk' happly.touched ?_
    rintro rfl
    exact apply_law happly hk hk' hruns

theorem Touched.account_of (htouched : Touched old new s s')
    (hk : s.checkpoints.get? checkpointId = some k)
    (hk' : s'.checkpoints.get? checkpointId = some k') :
    k'.providerAccountId = k.providerAccountId := by
  obtain ⟨-, rfl⟩ := get?_eq_some.mp hk
  rcases htouched.get? hk with ⟨rfl, hwritten⟩ | ⟨-, hkept⟩
  · rw [hwritten] at hk'
    cases hk'
    exact htouched.account_eq
  · rw [hkept] at hk'
    cases hk'
    rfl

theorem checkpoint_account {event : ReconciliationEvent} (hplaced : Placed s)
    (h : restrictedStep s event s') (hk : s.checkpoints.get? checkpointId = some k)
    (hk' : s'.checkpoints.get? checkpointId = some k') :
    k'.providerAccountId = k.providerAccountId := by
  have hsame : s'.checkpoints = s.checkpoints → k'.providerAccountId = k.providerAccountId := by
    intro hcheckpoints
    rw [hcheckpoints, hk] at hk'
    rw [some.inj hk']
  cases reconciliationStep_case h.2 with
  | seeded _ _ _ hseeds _ =>
    have hkept := (seeds_checkpoints hseeds hplaced.one_checkpoint).2 k (mem_of_get? hk)
    have hget := get?_of_mem hkept
    rw [key_of_get? hk, hk'] at hget
    rw [some.inj hget]
  | refused _ _ hstore => exact hsame (by rw [hstore])
  | claimed _ _ _ _ _ _ hclaim =>
    rcases hclaim.touched with rfl | ⟨old, new, -, htouched⟩
    · exact hsame rfl
    · exact htouched.account_of hk hk'
  | applied _ _ _ _ _ happly =>
    rcases happly.touched with rfl | ⟨old, new, -, htouched⟩
    · exact hsame rfl
    · exact htouched.account_of hk hk'
  | written _ _ hstore => exact hsame (by rw [hstore])

theorem forwardStep_scan (h : cycleStep checkpointId s e s') {identityId : String}
    (hsel : e.selected = some identityId) :
    ∃ old, s.checkpoints.get? checkpointId = some old ∧ ScanLaw s s' old identityId := by
  obtain ⟨⟨-, hstep⟩, hscan, hruns⟩ := h
  rw [hscan] at hsel
  unfold scanned at hsel
  split at hsel
  · next claimedId request session lease hcall hreply =>
    split at hsel
    · next hscanned =>
      cases hsel
      obtain ⟨rfl, hnodue⟩ := hscanned
      cases reconciliationStep_case hstep with
      | seeded _ _ hcall' _ _ | applied _ _ _ hcall' _ _ | written _ hcall' _ =>
        rw [hcall] at hcall'
        cases hcall'
      | refused hgrant _ _ =>
        simp [ReconciliationEvent.grant, hcall, hreply] at hgrant
      | claimed _ _ _ reply hcall' hreply' hclaim =>
        rw [hcall] at hcall'
        rw [hreply] at hreply'
        cases hcall'
        cases hreply'
        rcases hclaim.touched with rfl | ⟨old, new, hold, -⟩
        · -- a claim that grants a lease is not idle
          cases hget : s'.checkpoints.get? claimedId with
          | none => simp [ReconciliationStore.runs, hget] at hruns
          | some old => exact ⟨old, rfl, scan_law hclaim (isNone_iff_eq_none.mp hnodue) hget⟩
        · exact ⟨old, hold, scan_law hclaim (isNone_iff_eq_none.mp hnodue) hold⟩
    · cases hsel
  · cases hsel

/-! ### Every cycle -/

structure ScanLedger (checkpointId : String) (hist : List ScanEvent) (s : ReconciliationStore) :
    Prop where
  placed : Placed s
  covered : ∀ identityId ∈ selections hist, ∃ k, s.checkpoints.get? checkpointId = some k ∧
    k.cycleStartedAt ≠ none ∧ Covered s k identityId
  once : (selections hist).Nodup

/-- What holds of a piece of a cycle, whose steps are `step`. -/
structure CycleDiscipline (step : ReconciliationStore → ScanEvent → ReconciliationStore → Prop)
    (checkpointId : String) (s : ReconciliationStore) (hist : List ScanEvent)
    (s' : ReconciliationStore) : Prop where
  /-- From any state of the cycle on, the cursor has not gone back. -/
  cursor : ∀ later earlier m, hist = later ++ earlier → Run step s earlier m → Run step m later s' →
    m.runs checkpointId = true → cursorLe (m.cursorOf checkpointId) (s'.cursorOf checkpointId)
  /-- The scan has chosen no identity twice. -/
  once : (selections hist).Nodup

variable {hist : List ScanEvent}

theorem runs_iff : s.runs checkpointId = true ↔
    ∃ k, s.checkpoints.get? checkpointId = some k ∧ k.cycleStartedAt ≠ none := by
  unfold ReconciliationStore.runs
  simp [any_eq_true, isSome_iff_ne_none]

theorem ScanLedger.step (h : ScanLedger checkpointId hist s)
    (hstep : forwardStep checkpointId s e s') : ScanLedger checkpointId (e :: hist) s' := by
  have hplaced := restrictedStep_placed h.placed hstep.1.1
  obtain ⟨k', hk', hruns⟩ := runs_iff.mp hstep.1.2.2
  have hearlier : ∀ identityId ∈ selections hist, ∃ k, s'.checkpoints.get? checkpointId = some k ∧
      k.cycleStartedAt ≠ none ∧ Covered s' k identityId := by
    intro identityId hident
    obtain ⟨k, hk, hrunning, hcov⟩ := h.covered identityId hident
    have hcycle := forwardStep_cycle h.placed hstep hk hk' hrunning hruns
    exact ⟨k', hk', hruns, hcycle.covered identityId hcov⟩
  cases hsel : e.selected with
  | none =>
    have hselections : selections (e :: hist) = selections hist := by
      simp [selections, hsel]
    rw [← hselections] at hearlier
    exact ⟨hplaced, hearlier, by rw [hselections]; exact h.once⟩
  | some identityId =>
    have hselections : selections (e :: hist) = identityId :: selections hist := by
      simp [selections, hsel]
    obtain ⟨old, hold, hscan⟩ := forwardStep_scan hstep.1 hsel
    constructor
    · exact hplaced
    · intro x hx
      rw [hselections] at hx
      rcases List.mem_cons.mp hx with rfl | hx
      · obtain ⟨t, ht, hacct, hident, hpend⟩ := hscan.pending
        refine ⟨k', hk', hruns, .inr ⟨t, ht, ?_, hident, hpend⟩⟩
        rw [hacct]
        exact (checkpoint_account h.placed hstep.1.1 hold hk').symm
      · exact hearlier x hx
    · rw [hselections, List.nodup_cons]
      refine ⟨fun hagain => ?_, h.once⟩
      -- an identity chosen before is not ahead of the cursor, or it has a pending target
      obtain ⟨k, hk, hrunning, hcov⟩ := h.covered identityId hagain
      rw [hold] at hk
      obtain rfl := some.inj hk
      rcases hcov with ⟨c, hc, hle⟩ | ⟨t, ht, hacct, hident, hpend⟩
      · exact String.not_lt.mpr hle (hscan.ahead hrunning c hc)
      · exact hscan.unpending t ht hacct hident hpend

theorem forwardRun_ledger (hplaced : Placed s) (hrun : Run (forwardStep checkpointId) s hist s') :
    ScanLedger checkpointId hist s' := by
  have hstart : ScanLedger checkpointId [] s := by
    constructor
    · exact hplaced
    · simp [selections]
    · simp [selections]
  exact Run.history hstart (fun _ _ _ _ h hstep => h.step hstep) hrun

theorem forwardRun_cursor (hplaced : Placed s) (hrunning : s.runs checkpointId = true)
    (hrun : Run (forwardStep checkpointId) s hist s') :
    s'.runs checkpointId = true ∧ cursorLe (s.cursorOf checkpointId) (s'.cursorOf checkpointId) := by
  induction hrun with
  | nil => exact ⟨hrunning, cursorLe_refl _⟩
  | @cons hist m s' e hprev hstep ih =>
    obtain ⟨hruns, hcursor⟩ := ih
    have hruns' := hstep.1.2.2
    refine ⟨hruns', cursorLe_trans hcursor ?_⟩
    obtain ⟨k, hk, hk₀⟩ := runs_iff.mp hruns
    obtain ⟨k', hk', hk₁⟩ := runs_iff.mp hruns'
    have hcycle := forwardStep_cycle (forwardRun_ledger hplaced hprev).placed hstep hk hk' hk₀ hk₁
    simp only [ReconciliationStore.cursorOf, hk, hk', bind_some]
    exact hcycle.cursor

/-- **The cursor of a cycle.**  In a piece of a cycle of any run, when no claim of it
    rewinds, the cursor goes forward and the scan chooses no identity twice. -/
theorem cycle_discipline {start : ReconciliationStore} {earlier : List ReconciliationEvent}
    (hstart : Untouched start) (hearlier : Run restrictedStep start earlier s)
    (hcycle : Run (forwardStep checkpointId) s hist s') :
    CycleDiscipline (forwardStep checkpointId) checkpointId s hist s' := by
  have hplaced := restrictedRun_placed hstart.placed hearlier
  constructor
  · intro later earlier m _ hbefore hlater hrunning
    have hmiddle := (forwardRun_ledger hplaced hbefore).placed
    exact (forwardRun_cursor hmiddle hrunning hlater).2
  · exact (forwardRun_ledger hplaced hcycle).once

/-! ### A sample cycle -/

def pairDirectory : IdentityDirectory where
  tenants := tableOf ⟨"t", validStatus⟩
  users := ⟨[⟨"u1", validStatus, true, false⟩, ⟨"u2", validStatus, true, false⟩], by decide⟩
  memberships := ⟨[⟨"m1", "u1", "t", "normal", validStatus⟩, ⟨"m2", "u2", "t", "normal", validStatus⟩],
    by decide⟩
  accounts := tableOf sampleAccount
  identities :=
    ⟨[⟨"i1", "t", "u1", "feishu", "pt", "user_id", "o1", .active, none, some 0, 1⟩,
      ⟨"i2", "t", "u2", "feishu", "pt", "user_id", "o2", .active, none, some 0, 1⟩], by decide⟩
  aliases :=
    ⟨[⟨"l1", "t", "i1", "feishu", "pt", "pa"⟩, ⟨"l2", "t", "i2", "feishu", "pt", "pa"⟩], by decide⟩

def leftDirectory : IdentityDirectory :=
  { pairDirectory with memberships := tableOf ⟨"m2", "u2", "t", "normal", validStatus⟩ }

def pairStart : ReconciliationStore := ⟨pairDirectory, Table.empty, Table.empty⟩

def pairSeeded : ReconciliationStore :=
  (runReconciliationCall (.seedCheckpoints (fun _ => "k") 0) pairStart).2

def pairClaim (newId : String) (now : Int) : ReconciliationCall :=
  .claimNext "k" ⟨"w", 1, sampleInterval, 0, 60⟩ ⟨newId, false, false, false, now, now + 10⟩

def pairLease1 : ReconciliationLease :=
  ⟨⟨"k", "g1", "w", 1, sampleAccount.context, "i1", "o1", 1, 0, 20 + seconds 1⟩, by decide +kernel⟩

def pairLease2 : ReconciliationLease :=
  ⟨⟨"k", "g2", "w", 2, sampleAccount.context, "i2", "o2", 1, 0, 200010 + seconds 1⟩,
    by decide +kernel⟩

def pairObservation (status : ReconciliationProviderStatus) (verifiedAt : Option Int) (now : Int)
    (h : (ObservationFields.mk status now verifiedAt none).error = none) :
    ReconciliationObservation := ⟨⟨status, now, verifiedAt, none⟩, h⟩

def pairCalls : List ReconciliationCall :=
  [pairClaim "g1" 10,
    .apply ⟨pairLease1, pairObservation .notFound none 30 (by decide +kernel), sampleInterval, 30,
      60, 60, 3, 5⟩ 30,
    pairClaim "g2" 200000,
    .apply ⟨pairLease2, pairObservation .resolved (some 200020) 200020 (by decide +kernel),
      sampleInterval, 30, 60, 60, 3, 5⟩ 200020]

def leaveCalls : List ReconciliationCall :=
  [.directory leftDirectory, pairClaim "g3" (seconds 70), pairClaim "g4" (seconds 71)]

def runScan (checkpointId : String) (call : ReconciliationCall) (s : ReconciliationStore) :
    ScanEvent × ReconciliationStore :=
  let r := runReconciliationCall call s
  (⟨r.1, scanned checkpointId s r.1⟩, r.2)

def cycles (call : ReconciliationCall) (s : ReconciliationStore) : Bool :=
  call.restricted s && (runReconciliationCall call s).2.runs "k"

theorem cycles_step {call : ReconciliationCall}
    (h : cycles call s = true) : cycleStep "k" s (runScan "k" call s).1 (runScan "k" call s).2 := by
  simp only [cycles, Bool.and_eq_true] at h
  refine ⟨⟨?_, ?_⟩, rfl, h.2⟩
  · show (runReconciliationCall call s).1.call.restricted s = true
    rw [runReconciliationCall_call]
    exact h.1
  · show runReconciliationCall (runReconciliationCall call s).1.call s = _
    rw [runReconciliationCall_call]
    rfl

theorem pairSeeded_run : Run restrictedStep pairStart
    [(runReconciliationCall (.seedCheckpoints (fun _ => "k") 0) pairStart).1] pairSeeded :=
  Run.cons Run.nil ⟨rfl, rfl⟩

theorem cycle_discipline_sample :
    let run := execute (runScan "k") pairCalls [] pairSeeded
    selections run.1 = ["i2", "i1"] ∧
      CycleDiscipline (forwardStep "k") "k" pairSeeded run.1 run.2 := by
  have hallowed : allowed (runScan "k")
      (fun call s => cycles call s && !call.rewinds "k" s) pairCalls pairSeeded = true := by
    decide +kernel
  have hrun : Run (forwardStep "k") pairSeeded (execute (runScan "k") pairCalls [] pairSeeded).1
      (execute (runScan "k") pairCalls [] pairSeeded).2 := by
    apply execute_steps Run.nil hallowed
    intro call s hcall
    simp only [Bool.and_eq_true, Bool.not_eq_true'] at hcall
    refine ⟨cycles_step hcall.1, ?_⟩
    show (runReconciliationCall call s).1.call.rewinds "k" s = false
    rw [runReconciliationCall_call]
    exact hcall.2
  exact ⟨by decide +kernel, cycle_discipline (untouched_empty pairDirectory) pairSeeded_run hrun⟩

/-- The claim that gives up the first member takes the cursor back to it, and the scan
    chooses the second one again. -/
theorem cycle_goes_back :
    let run := execute (runScan "k") (pairCalls ++ leaveCalls) [] pairSeeded
    selections run.1 = ["i2", "i2", "i1"] ∧
      Run (cycleStep "k") pairSeeded run.1 run.2 ∧
      ¬ ∀ (start : ReconciliationStore) (earlier : List ReconciliationEvent)
          (s : ReconciliationStore) (hist : List ScanEvent) (s' : ReconciliationStore),
        Untouched start → Run restrictedStep start earlier s → Run (cycleStep "k") s hist s' →
          CycleDiscipline (cycleStep "k") "k" s hist s' := by
  have hallowed : allowed (runScan "k") cycles (pairCalls ++ leaveCalls) pairSeeded = true := by
    decide +kernel
  have hrun : Run (cycleStep "k") pairSeeded
      (execute (runScan "k") (pairCalls ++ leaveCalls) [] pairSeeded).1
      (execute (runScan "k") (pairCalls ++ leaveCalls) [] pairSeeded).2 := by
    apply execute_steps Run.nil hallowed
    intro call s hcall
    exact cycles_step hcall
  have hselections : selections (execute (runScan "k") (pairCalls ++ leaveCalls) [] pairSeeded).1
      = ["i2", "i2", "i1"] := by decide +kernel
  refine ⟨hselections, hrun, ?_⟩
  intro hall
  have honce := (hall _ _ _ _ _ (untouched_empty pairDirectory) pairSeeded_run hrun).once
  rw [hselections] at honce
  exact absurd honce (by decide)

end MultiRag.IdentityReconciliation
