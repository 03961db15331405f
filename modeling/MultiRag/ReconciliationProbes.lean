/-
  **Probe rate and fencing of the reconciliation.**

  The system is any number of workers that claim and apply, the seeding of new checkpoints, and
  the rest of the program, which may replace every tenant, account, identity and membership at any
  time.
-/
import MultiRag.ReconciliationCases

namespace MultiRag.IdentityReconciliation

open IdentityReconciliationCheckpoint Table List

/-! ### Calls -/

inductive ReconciliationCall where
  | seedCheckpoints (newId : String → String) (dueAt : Int)
  | claimNext (checkpointId : String) (request : ClaimRequest) (session : ClaimSession)
  | apply (request : ApplyRequest) (now : Int)
  /-- The rest of the program writes its tables. -/
  | directory (directory : IdentityDirectory)

inductive ReconciliationReply where
  | seeded (r : Except ReconciliationError Nat)
  | claimed (r : Except ReconciliationError (Option ReconciliationLease))
  | applied (r : Except ReconciliationError ReconciliationApplyResult)
  | done

structure ReconciliationEvent where
  call : ReconciliationCall
  reply : ReconciliationReply

def runReconciliationCall (call : ReconciliationCall) (s : ReconciliationStore) :
    ReconciliationEvent × ReconciliationStore :=
  match call with
  | .seedCheckpoints newId dueAt =>
      let r := seedCheckpoints newId dueAt s
      (⟨call, .seeded r.1⟩, r.2)
  | .claimNext checkpointId request session =>
      let r := claimNext checkpointId request session s
      (⟨call, .claimed r.1⟩, r.2)
  | .apply request now =>
      let r := apply request now s
      (⟨call, .applied r.1⟩, r.2)
  | .directory directory => (⟨call, .done⟩, { s with directory := directory })

def reconciliationStep (s : ReconciliationStore) (e : ReconciliationEvent)
    (s' : ReconciliationStore) : Prop :=
  runReconciliationCall e.call s = (e, s')

/-- The call uses the interval `probe`, and a claim reads a clock that does not go
    back. -/
def ReconciliationCall.probesAt (probe : Int) : ReconciliationCall → Bool
  | .claimNext _ request session =>
      request.probeInterval == probe && decide (session.eligibilityNow ≤ session.leaseNow)
  | .apply request _ => request.probeInterval == probe
  | _ => true

def probeStep (probe : Int) (s : ReconciliationStore) (e : ReconciliationEvent)
    (s' : ReconciliationStore) : Prop :=
  e.call.probesAt probe = true ∧ reconciliationStep s e s'

/-- A run of workers that are configured with one probe interval. -/
def ProbeRun (probe : Int) (s : ReconciliationStore) (hist : List ReconciliationEvent)
    (s' : ReconciliationStore) : Prop :=
  Run (probeStep probe) s hist s'

/-! ### What a history says -/

def ReconciliationEvent.grant (e : ReconciliationEvent) : Option (ReconciliationLease × Int) :=
  match e.call, e.reply with
  | .claimNext _ _ session, .claimed (.ok (some lease)) => some (lease, session.leaseNow)
  | _, _ => none

/-- The account and the time from which an event keeps the next probe away: a granted
    lease, or an accepted apply. -/
def ReconciliationEvent.reservation (e : ReconciliationEvent) : Option (String × Int) :=
  match e.call, e.reply with
  | .claimNext _ _ session, .claimed (.ok (some lease)) =>
      some (lease.context.providerAccountId, session.leaseNow)
  | .apply request now, .applied (.ok result) =>
      if result.outcome = .fenceRejected then none
      else some (request.lease.context.providerAccountId, now)
  | _, _ => none

def leases (hist : List ReconciliationEvent) : List ReconciliationLease :=
  hist.filterMap (fun e => e.grant.map Prod.fst)

def latestLease (checkpointId : String) (hist : List ReconciliationEvent) :
    Option ReconciliationLease :=
  (leases hist).find? (fun lease => lease.checkpointId == checkpointId)

def ReconciliationLease.fence (lease : ReconciliationLease) : String × Nat × Int :=
  (lease.owner, lease.attempt, lease.leaseUntil)

variable {e : ReconciliationEvent} {hist : List ReconciliationEvent} {lease : ReconciliationLease}
  {t : Int} {checkpointId : String}

theorem leases_cons_of_none (h : e.grant = none) : leases (e :: hist) = leases hist := by
  simp [leases, h]

theorem leases_cons_of_grant (h : e.grant = some (lease, t)) :
    leases (e :: hist) = lease :: leases hist := by
  simp [leases, h]

theorem latestLease_cons_of_none (h : e.grant = none) :
    latestLease checkpointId (e :: hist) = latestLease checkpointId hist := by
  rw [latestLease, leases_cons_of_none h, latestLease]

theorem latestLease_cons_self (h : e.grant = some (lease, t)) :
    latestLease lease.checkpointId (e :: hist) = some lease := by
  rw [latestLease, leases_cons_of_grant h]
  simp

theorem latestLease_cons_of_ne (h : e.grant = some (lease, t))
    (hne : lease.checkpointId ≠ checkpointId) :
    latestLease checkpointId (e :: hist) = latestLease checkpointId hist := by
  rw [latestLease, leases_cons_of_grant h, latestLease]
  simp [hne]

/-! ### Checkpoints last -/

structure Later (old new : IdentityReconciliationCheckpoint) : Prop where
  id_eq : new.id = old.id
  account_eq : new.providerAccountId = old.providerAccountId
  attempt_le : old.leaseAttempt ≤ new.leaseAttempt
  nextRunAt_le : old.nextRunAt ≤ new.nextRunAt

theorem Later.refl (checkpoint : IdentityReconciliationCheckpoint) : Later checkpoint checkpoint :=
  ⟨rfl, rfl, le_rfl, le_rfl⟩

theorem Later.trans {a b c : IdentityReconciliationCheckpoint} (h₁ : Later a b) (h₂ : Later b c) :
    Later a c :=
  ⟨h₂.id_eq.trans h₁.id_eq, h₂.account_eq.trans h₁.account_eq, le_trans h₁.attempt_le h₂.attempt_le,
    le_trans h₁.nextRunAt_le h₂.nextRunAt_le⟩

variable {old new : IdentityReconciliationCheckpoint}

theorem IdentityReconciliationCheckpoint.Follows.later (h : old.Follows new) : Later old new :=
  ⟨h.id_eq, h.account_eq, le_of_eq h.attempt_eq.symm, h.nextRunAt_le⟩

variable {request : ClaimRequest} {session : ClaimSession}

theorem Granted.later (h : Granted request session old new lease) :
    Later old new :=
  ⟨h.id_eq, h.account_eq, by rw [h.attempt_eq]; exact Nat.le_succ _, h.nextRunAt_le⟩

def Survives (s s' : ReconciliationStore) : Prop :=
  ∀ k ∈ s.checkpoints, ∃ k' ∈ s'.checkpoints, Later k k'

variable {s s' : ReconciliationStore}

theorem Survives.refl (s : ReconciliationStore) : Survives s s := fun k hk => ⟨k, hk, Later.refl k⟩

theorem Survives.trans {a b c : ReconciliationStore} (h₁ : Survives a b) (h₂ : Survives b c) :
    Survives a c := by
  intro k hk
  obtain ⟨k', hk', hlater⟩ := h₁ k hk
  obtain ⟨k'', hk'', hlater'⟩ := h₂ k' hk'
  exact ⟨k'', hk'', hlater.trans hlater'⟩

theorem survives_put (hold : old ∈ s.checkpoints) (hput : s'.checkpoints = s.checkpoints.put new)
    (hlater : Later old new) : Survives s s' := by
  intro k hk
  by_cases hkey : k.id = old.id
  · rw [eq_of_key hk hold hkey]
    refine ⟨new, ?_, hlater⟩
    rw [hput]
    exact (mem_put_of_mem hold hlater.id_eq).mpr (.inl rfl)
  · refine ⟨k, ?_, Later.refl k⟩
    rw [hput]
    exact (mem_put_of_mem hold hlater.id_eq).mpr (.inr ⟨hk, hkey⟩)

/-! ### Seeding -/

def Seeds (s s' : ReconciliationStore) : Prop :=
  ∃ row, row.leaseOwner = none ∧
    (∀ k ∈ s.checkpoints, k.providerAccountId ≠ row.providerAccountId) ∧
      s.checkpoints.insert? row = some s'.checkpoints

theorem Seeds.survives (h : Seeds s s') : Survives s s' := by
  obtain ⟨row, -, -, hinsert⟩ := h
  exact fun k hk => ⟨k, (mem_insert? hinsert).mpr (.inr hk), Later.refl k⟩

variable {newId : String → String} {dueAt : Int} {inserted : Nat} {r : Except ReconciliationError Nat}

theorem seedCheckpoint_seeds {account : IdentityProviderAccount}
    (h : seedCheckpoint newId dueAt account inserted s = (r, s')) :
    Relation.ReflTransGen Seeds s s' := by
  unfold seedCheckpoint at h
  split at h
  · cases h
    exact Relation.ReflTransGen.refl
  · next hnone =>
    split at h
    · cases h
      exact Relation.ReflTransGen.refl
    · next checkpoints hinsert =>
      cases h
      apply Relation.ReflTransGen.single
      refine ⟨newCheckpoint (newId account.id) dueAt account, rfl, ?_, hinsert⟩
      intro k hk hacct
      apply hnone
      rw [any_eq_true]
      exact ⟨k, hk, beq_iff_eq.mpr hacct⟩

theorem seedAccounts_seeds {accounts : List IdentityProviderAccount}
    (h : seedAccounts newId dueAt accounts inserted s = (r, s')) :
    Relation.ReflTransGen Seeds s s' := by
  induction accounts generalizing inserted s with
  | nil =>
    cases h
    exact Relation.ReflTransGen.refl
  | cons account accounts ih =>
    unfold seedAccounts at h
    split at h
    · next next_ s₁ hfirst => exact (seedCheckpoint_seeds hfirst).trans (ih h)
    · next error s₁ hfirst =>
      cases h
      exact seedCheckpoint_seeds hfirst

theorem seedCheckpoints_seeds (h : seedCheckpoints newId dueAt s = (r, s')) :
    Relation.ReflTransGen Seeds s s' := by
  unfold seedCheckpoints at h
  rcases inTransaction_cases h with ⟨count, rfl, hseeds⟩ | ⟨error, rfl, rfl⟩
  · exact seedAccounts_seeds hseeds
  · exact Relation.ReflTransGen.refl

/-! ### What a step does to the checkpoints -/

inductive ProbeEffect (probe : Int) (s : ReconciliationStore) (e : ReconciliationEvent)
    (s' : ReconciliationStore) : Prop
  | kept (grant : e.grant = none) (reservation : e.reservation = none)
      (checkpoints : s'.checkpoints = s.checkpoints)
  | seeded (grant : e.grant = none) (reservation : e.reservation = none)
      (seeds : Relation.ReflTransGen Seeds s s')
  | followed {old new : IdentityReconciliationCheckpoint} (grant : e.grant = none)
      (reservation : ∀ account t, e.reservation = some (account, t) →
        account = old.providerAccountId ∧ t + probe ≤ new.nextRunAt)
      (mem : old ∈ s.checkpoints) (follows : old.Follows new)
      (put : s'.checkpoints = s.checkpoints.put new)
  | granted {request : ClaimRequest} {session : ClaimSession}
      {old new : IdentityReconciliationCheckpoint} {lease : ReconciliationLease}
      (grant : e.grant = some (lease, session.leaseNow))
      (reservation : e.reservation = some (old.providerAccountId, session.leaseNow))
      (clock : session.eligibilityNow ≤ session.leaseNow) (interval : request.probeInterval = probe)
      (mem : old ∈ s.checkpoints) (granted : Granted request session old new lease)
      (put : s'.checkpoints = s.checkpoints.put new)

theorem grant_of_no_lease
    {r : Except ReconciliationError (Option ReconciliationLease)}
    (h : ∀ lease, r ≠ .ok (some lease)) :
    (ReconciliationEvent.mk (.claimNext checkpointId request session) (.claimed r)).grant = none ∧
      (ReconciliationEvent.mk (.claimNext checkpointId request session) (.claimed r)).reservation
        = none := by
  match r with
  | .error error => exact ⟨rfl, rfl⟩
  | .ok none => exact ⟨rfl, rfl⟩
  | .ok (some lease) => exact absurd rfl (h lease)

variable {probe : Int}

theorem probeStep_effect (h : probeStep probe s e s') : ProbeEffect probe s e s' := by
  obtain ⟨hprobe, hstep⟩ := h
  obtain ⟨call, reply⟩ := e
  cases call with
  | seedCheckpoints newId dueAt =>
    cases hstep
    exact ProbeEffect.seeded rfl rfl (seedCheckpoints_seeds rfl)
  | claimNext checkpointId request session =>
    cases hstep
    simp only [ReconciliationCall.probesAt, Bool.and_eq_true, beq_iff_eq, decide_eq_true_eq]
      at hprobe
    have hclaim : claimNext checkpointId request session s
        = ((claimNext checkpointId request session s).1,
          (claimNext checkpointId request session s).2) := rfl
    rcases claimNext_cases hclaim with
      ⟨hsame, hnone⟩ | ⟨old, reply, hold, hreply, hout⟩
    · obtain ⟨hgrant, hresv⟩ := grant_of_no_lease hnone
      exact ProbeEffect.kept hgrant hresv (by rw [hsame])
    · rw [hreply]
      cases hout with
      | aside follows put =>
        exact ProbeEffect.followed rfl (fun account t ht => by cases ht) (mem_of_get? hold)
          follows put
      | leased granted put =>
        have hresv := granted.lease_account
        exact ProbeEffect.granted rfl (by rw [← hresv]; rfl) hprobe.2 hprobe.1
          (mem_of_get? hold) granted put
  | apply request now =>
    cases hstep
    simp only [ReconciliationCall.probesAt, beq_iff_eq] at hprobe
    have happly : apply request now s = ((apply request now s).1, (apply request now s).2) := rfl
    rcases apply_cases happly with
      ⟨hsame, hrejected⟩ | ⟨old, new, result, hold, hreply, happlied, hput⟩
    · refine ProbeEffect.kept rfl ?_ (by rw [hsame])
      unfold ReconciliationEvent.reservation
      split
      · next hreply => cases hreply
      · next hcall hreply =>
        cases hcall
        simp only [ReconciliationReply.applied.injEq] at hreply
        rw [if_pos (hrejected _ hreply)]
      · rfl
    · rw [hreply]
      refine ProbeEffect.followed rfl ?_ (mem_of_get? hold) happlied.follows hput
      intro account t ht
      simp only [ReconciliationEvent.reservation] at ht
      split at ht
      · cases ht
      · next hout =>
        cases ht
        rw [← hprobe]
        exact ⟨happlied.account_eq hout, happlied.reserved⟩
  | directory directory =>
    cases hstep
    exact ProbeEffect.kept rfl rfl rfl

theorem ProbeEffect.survives (h : ProbeEffect probe s e s') : Survives s s' := by
  cases h with
  | kept _ _ hsame => exact fun k hk => ⟨k, by rw [hsame]; exact hk, Later.refl k⟩
  | seeded _ _ hseeds =>
    induction hseeds with
    | refl => exact Survives.refl s
    | tail _ hseed ih => exact ih.trans hseed.survives
  | followed _ _ hold hfollows hput => exact survives_put hold hput hfollows.later
  | granted _ _ _ _ hold hgranted hput => exact survives_put hold hput hgranted.later

theorem probeRun_survives (hrun : ProbeRun probe s hist s') :
    Survives s s' := by
  induction hrun with
  | nil => exact Survives.refl s
  | cons _ hstep ih => exact ih.trans (probeStep_effect hstep).survives

/-! ### The ledger -/

structure Holds (checkpoint : IdentityReconciliationCheckpoint) (lease : ReconciliationLease) :
    Prop where
  owner_eq : checkpoint.leaseOwner = some lease.owner
  attempt_eq : checkpoint.leaseAttempt = lease.attempt
  until_eq : checkpoint.leaseUntil = some lease.leaseUntil

structure ProbeLedger (probe : Int) (hist : List ReconciliationEvent) (s : ReconciliationStore) :
    Prop where
  one_checkpoint : s.checkpoints.Unique IdentityReconciliationCheckpoint.providerAccountId
  held : ∀ k ∈ s.checkpoints, k.leaseOwner ≠ none →
    ∃ lease, latestLease k.id hist = some lease ∧ Holds k lease
  attempts : ∀ lease ∈ leases hist, ∃ k ∈ s.checkpoints,
    k.id = lease.checkpointId ∧ lease.attempt ≤ k.leaseAttempt
  newest : ∀ lease ∈ leases hist, ∀ latest, latestLease lease.checkpointId hist = some latest →
    lease ≠ latest → lease.attempt < latest.attempt
  reserved : ∀ e ∈ hist, ∀ account t, e.reservation = some (account, t) →
    ∃ k ∈ s.checkpoints, k.providerAccountId = account ∧ t + probe ≤ k.nextRunAt

structure Unleased (s : ReconciliationStore) : Prop where
  one_checkpoint : s.checkpoints.Unique IdentityReconciliationCheckpoint.providerAccountId
  free : ∀ k ∈ s.checkpoints, k.leaseOwner = none

theorem Unleased.ledger (h : Unleased s) (probe : Int) :
    ProbeLedger probe [] s := by
  constructor
  · exact h.one_checkpoint
  · intro k hk howner
    exact absurd (h.free k hk) howner
  · simp [leases]
  · simp [leases]
  · simp

section

variable (h : ProbeLedger probe hist s)
include h

theorem ProbeLedger.attempts_survive (hsurvives : Survives s s')
    (hlease : lease ∈ leases hist) :
    ∃ k ∈ s'.checkpoints, k.id = lease.checkpointId ∧ lease.attempt ≤ k.leaseAttempt := by
  obtain ⟨k, hk, hid, hatt⟩ := h.attempts lease hlease
  obtain ⟨k', hk', hlater⟩ := hsurvives k hk
  exact ⟨k', hk', hlater.id_eq.trans hid, le_trans hatt hlater.attempt_le⟩

theorem ProbeLedger.reserved_survive (hsurvives : Survives s s')
    (he : e ∈ hist) {account : String} (ht : e.reservation = some (account, t)) :
    ∃ k ∈ s'.checkpoints, k.providerAccountId = account ∧ t + probe ≤ k.nextRunAt := by
  obtain ⟨k, hk, hacct, hfloor⟩ := h.reserved e he account t ht
  obtain ⟨k', hk', hlater⟩ := hsurvives k hk
  exact ⟨k', hk', hlater.account_eq.trans hacct, le_trans hfloor hlater.nextRunAt_le⟩

theorem ProbeLedger.seeds (hseed : Seeds s s') :
    ProbeLedger probe hist s' := by
  have hsurvives := hseed.survives
  obtain ⟨row, hfree, hnew, hinsert⟩ := hseed
  constructor
  · exact h.one_checkpoint.insert? hinsert hnew
  · intro k hk howner
    rcases (mem_insert? hinsert).mp hk with rfl | hold
    · exact absurd hfree howner
    · exact h.held k hold howner
  · intro lease hlease
    exact h.attempts_survive hsurvives hlease
  · exact h.newest
  · intro e he account t ht
    exact h.reserved_survive hsurvives he ht

theorem ProbeLedger.quiet (hgrant : e.grant = none)
    (hresv : e.reservation = none) (hsame : s'.checkpoints = s.checkpoints) :
    ProbeLedger probe (e :: hist) s' := by
  constructor
  · rw [hsame]
    exact h.one_checkpoint
  · intro k hk howner
    rw [hsame] at hk
    rw [latestLease_cons_of_none hgrant]
    exact h.held k hk howner
  · rw [leases_cons_of_none hgrant, hsame]
    exact h.attempts
  · intro lease hlease latest hlatest
    rw [leases_cons_of_none hgrant] at hlease
    rw [latestLease_cons_of_none hgrant] at hlatest
    exact h.newest lease hlease latest hlatest
  · intro e' he' account t ht
    rw [hsame]
    rcases mem_cons.mp he' with rfl | hmem
    · rw [hresv] at ht
      cases ht
    · exact h.reserved e' hmem account t ht

theorem ProbeLedger.followed (hgrant : e.grant = none)
    (hresv : ∀ account t, e.reservation = some (account, t) →
      account = old.providerAccountId ∧ t + probe ≤ new.nextRunAt)
    (hold : old ∈ s.checkpoints) (hfollows : old.Follows new)
    (hput : s'.checkpoints = s.checkpoints.put new) : ProbeLedger probe (e :: hist) s' := by
  have hsurvives := survives_put hold hput hfollows.later
  have hmem : ∀ k, k ∈ s'.checkpoints ↔ k = new ∨ (k ∈ s.checkpoints ∧ k.id ≠ old.id) := by
    intro k
    rw [hput]
    exact mem_put_of_mem hold hfollows.id_eq
  constructor
  · rw [hput]
    exact h.one_checkpoint.put hold hfollows.id_eq hfollows.account_eq
  · intro k hk howner
    rw [latestLease_cons_of_none hgrant]
    rcases (hmem k).mp hk with rfl | ⟨hk, -⟩
    · rcases hfollows.lease with ⟨hkept, huntil⟩ | ⟨hcleared, -⟩
      · obtain ⟨lease, hlatest, hholds⟩ := h.held old hold (hkept ▸ howner)
        refine ⟨lease, by rw [hfollows.id_eq]; exact hlatest, ?_⟩
        exact ⟨hkept.trans hholds.owner_eq, hfollows.attempt_eq.trans hholds.attempt_eq,
          huntil.trans hholds.until_eq⟩
      · exact absurd hcleared howner
    · exact h.held k hk howner
  · intro lease hlease
    rw [leases_cons_of_none hgrant] at hlease
    exact h.attempts_survive hsurvives hlease
  · intro lease hlease latest hlatest
    rw [leases_cons_of_none hgrant] at hlease
    rw [latestLease_cons_of_none hgrant] at hlatest
    exact h.newest lease hlease latest hlatest
  · intro e' he' account t ht
    rcases mem_cons.mp he' with rfl | he'
    · obtain ⟨rfl, hfloor⟩ := hresv account t ht
      exact ⟨new, (hmem new).mpr (.inl rfl), hfollows.account_eq, hfloor⟩
    · exact h.reserved_survive hsurvives he' ht

theorem ProbeLedger.granted (hgrant : e.grant = some (lease, session.leaseNow))
    (hresv : e.reservation = some (old.providerAccountId, session.leaseNow))
    (hinterval : request.probeInterval = probe) (hold : old ∈ s.checkpoints)
    (hgranted : Granted request session old new lease)
    (hput : s'.checkpoints = s.checkpoints.put new) : ProbeLedger probe (e :: hist) s' := by
  have hsurvives := survives_put hold hput hgranted.later
  have hmem : ∀ k, k ∈ s'.checkpoints ↔ k = new ∨ (k ∈ s.checkpoints ∧ k.id ≠ old.id) := by
    intro k
    rw [hput]
    exact mem_put_of_mem hold hgranted.id_eq
  -- the attempt of the new lease is above all earlier ones of its checkpoint
  have habove : ∀ earlier ∈ leases hist, earlier.checkpointId = lease.checkpointId →
      earlier.attempt < lease.attempt := by
    intro earlier hearlier hid
    obtain ⟨k, hk, hkid, hatt⟩ := h.attempts earlier hearlier
    have hkold : k = old := by
      apply eq_of_key hk hold
      rw [hkid, hid, hgranted.lease_checkpoint]
    rw [hgranted.lease_attempt, hgranted.attempt_eq, ← hkold]
    exact Nat.lt_succ_of_le hatt
  have hnew : new.id = lease.checkpointId := hgranted.id_eq.trans hgranted.lease_checkpoint.symm
  constructor
  · rw [hput]
    exact h.one_checkpoint.put hold hgranted.id_eq hgranted.account_eq
  · intro k hk howner
    rcases (hmem k).mp hk with rfl | ⟨hk, hne⟩
    · rw [hnew]
      exact ⟨lease, latestLease_cons_self hgrant, hgranted.owner_eq, hgranted.lease_attempt.symm,
        hgranted.until_eq⟩
    · have hother : lease.checkpointId ≠ k.id := by
        rw [hgranted.lease_checkpoint]
        exact hne.symm
      rw [latestLease_cons_of_ne hgrant hother]
      exact h.held k hk howner
  · intro earlier hearlier
    rw [leases_cons_of_grant hgrant] at hearlier
    rcases mem_cons.mp hearlier with rfl | hearlier
    · exact ⟨new, (hmem new).mpr (.inl rfl), hnew, le_of_eq hgranted.lease_attempt⟩
    · exact h.attempts_survive hsurvives hearlier
  · intro earlier hearlier latest hlatest hne
    rw [leases_cons_of_grant hgrant] at hearlier
    by_cases hid : lease.checkpointId = earlier.checkpointId
    · rw [← hid, latestLease_cons_self hgrant] at hlatest
      cases hlatest
      rcases mem_cons.mp hearlier with rfl | hearlier
      · exact absurd rfl hne
      · exact habove earlier hearlier hid.symm
    · rw [latestLease_cons_of_ne hgrant hid] at hlatest
      rcases mem_cons.mp hearlier with rfl | hearlier
      · exact absurd rfl hid
      · exact h.newest earlier hearlier latest hlatest hne
  · intro e' he' account t ht
    rcases mem_cons.mp he' with rfl | he'
    · rw [hresv] at ht
      cases ht
      refine ⟨new, (hmem new).mpr (.inl rfl), hgranted.account_eq, ?_⟩
      rw [← hinterval]
      exact hgranted.reserved
    · exact h.reserved_survive hsurvives he' ht

theorem ProbeLedger.step (heffect : ProbeEffect probe s e s') :
    ProbeLedger probe (e :: hist) s' := by
  cases heffect with
  | kept hgrant hresv hsame => exact h.quiet hgrant hresv hsame
  | seeded hgrant hresv hseeds =>
    have hseeded : ProbeLedger probe hist s' := by
      induction hseeds with
      | refl => exact h
      | tail _ hseed ih => exact ih.seeds hseed
    exact hseeded.quiet hgrant hresv rfl
  | followed hgrant hresv hold hfollows hput =>
    exact h.followed hgrant hresv hold hfollows hput
  | granted hgrant hresv _ hinterval hold hgranted hput =>
    exact h.granted hgrant hresv hinterval hold hgranted hput

theorem ProbeLedger.spaced (heffect : ProbeEffect probe s e s') (hgrant : e.grant = some (lease, t)) {e' : ReconciliationEvent} (he' : e' ∈ hist)
    {t' : Int} (ht' : e'.reservation = some (lease.context.providerAccountId, t')) :
    t' + probe ≤ t := by
  cases heffect with
  | kept hnone _ _ => simp [hnone] at hgrant
  | seeded hnone _ _ => simp [hnone] at hgrant
  | followed hnone _ _ _ _ => simp [hnone] at hgrant
  | @granted request session old new lease' hgrant' _ hclock _ hold hgranted _ =>
    rw [hgrant', Option.some.injEq, Prod.mk.injEq] at hgrant
    obtain ⟨rfl, rfl⟩ := hgrant
    obtain ⟨k, hk, hacct, hfloor⟩ := h.reserved e' he' _ _ ht'
    have hkold : k = old :=
      h.one_checkpoint k hk old hold (hacct.trans hgranted.lease_account)
    rw [hkold] at hfloor
    exact le_trans hfloor (le_trans hgranted.due hclock)

theorem ProbeLedger.latest_of_apply {request : ApplyRequest}
    {now : Int} (hchange : (apply request now s).2 ≠ s) :
    ∃ latest, latestLease request.lease.checkpointId hist = some latest ∧
      latest.fence = request.lease.fence ∧ now < request.lease.leaseUntil := by
  have happly : apply request now s = ((apply request now s).1, (apply request now s).2) := rfl
  rcases apply_cases happly with ⟨hsame, -⟩ | ⟨old, new, result, hget, -, happlied, -⟩
  · exact absurd hsame hchange
  · obtain ⟨hold, hid⟩ := get?_eq_some.mp hget
    have hmatches := happlied.lease_eq
    simp only [leaseMatches, Bool.and_eq_true, beq_iff_eq, Option.any_eq_true, decide_eq_true_eq]
      at hmatches
    obtain ⟨⟨howner, hatt⟩, until_, huntil, rfl, hnow⟩ := hmatches
    obtain ⟨latest, hlatest, hholds⟩ := h.held old hold (by simp [howner])
    refine ⟨latest, by rw [← hid]; exact hlatest, ?_, hnow⟩
    simp only [ReconciliationLease.fence, Prod.mk.injEq]
    refine ⟨?_, hholds.attempt_eq.symm.trans hatt, ?_⟩
    · exact Option.some.inj (hholds.owner_eq.symm.trans howner)
    · exact Option.some.inj (hholds.until_eq.symm.trans huntil)

end

/-! ### Every run -/

structure ProbeDiscipline (probe : Int) (s : ReconciliationStore)
    (hist : List ReconciliationEvent) (s' : ReconciliationStore) : Prop where
  /-- From any state of the run on, no checkpoint's `nextRunAt` has decreased. -/
  schedule : ∀ later earlier m, hist = later ++ earlier → ProbeRun probe s earlier m →
    ProbeRun probe m later s' → ∀ k ∈ m.checkpoints,
      ∃ k' ∈ s'.checkpoints, k'.id = k.id ∧ k.nextRunAt ≤ k'.nextRunAt
  /-- A lease comes `probe` after every earlier lease and accepted apply of its account. -/
  spaced : hist.Pairwise (fun later earlier => ∀ lease t, later.grant = some (lease, t) →
    ∀ t', earlier.reservation = some (lease.context.providerAccountId, t') → t' + probe ≤ t)
  /-- An apply under a granted lease that is not the latest one changes no row. -/
  superseded : ∀ (request : ApplyRequest) (now : Int), request.lease ∈ leases hist →
    latestLease request.lease.checkpointId hist ≠ some request.lease →
      (apply request now s').2 = s'
  /-- Nor does one whose owner, attempt and deadline are not those of the latest lease. -/
  foreign : ∀ (request : ApplyRequest) (now : Int),
    (latestLease request.lease.checkpointId hist).map ReconciliationLease.fence
      ≠ some request.lease.fence → (apply request now s').2 = s'
  /-- Nor does one whose deadline has passed. -/
  lapsed : ∀ (request : ApplyRequest) (now : Int), request.lease.leaseUntil ≤ now →
    (apply request now s').2 = s'

variable {probe : Int} {hist : List ReconciliationEvent} {s s' : ReconciliationStore}

theorem probeRun_ledger (hstart : Unleased s) (hrun : ProbeRun probe s hist s') :
    ProbeLedger probe hist s' := by
  induction hrun with
  | nil => exact hstart.ledger probe
  | cons _ hstep ih => exact ih.step (probeStep_effect hstep)

theorem probeRun_spaced (hstart : Unleased s) (hrun : ProbeRun probe s hist s') :
    hist.Pairwise (fun later earlier => ∀ lease t, later.grant = some (lease, t) →
      ∀ t', earlier.reservation = some (lease.context.providerAccountId, t') → t' + probe ≤ t) := by
  induction hrun with
  | nil => exact List.Pairwise.nil
  | cons hprev hstep ih =>
    apply List.Pairwise.cons _ ih
    intro earlier hearlier lease t hgrant t' ht'
    exact (probeRun_ledger hstart hprev).spaced (probeStep_effect hstep) hgrant hearlier ht'

/-- **Probe rate and fencing.** -/
theorem probeRun_discipline (hstart : Unleased s) (hrun : ProbeRun probe s hist s') :
    ProbeDiscipline probe s hist s' := by
  have hledger := probeRun_ledger hstart hrun
  constructor
  · intro later earlier m _ _ hlater k hk
    obtain ⟨k', hk', hkept⟩ := probeRun_survives hlater k hk
    exact ⟨k', hk', hkept.id_eq, hkept.nextRunAt_le⟩
  · exact probeRun_spaced hstart hrun
  · intro request now hlease hnotLatest
    by_contra hchange
    obtain ⟨latest, hlatest, hfence, -⟩ := hledger.latest_of_apply hchange
    have hne : request.lease ≠ latest := by
      intro heq
      exact hnotLatest (by rw [hlatest, heq])
    have hattempt := hledger.newest request.lease hlease latest hlatest hne
    simp only [ReconciliationLease.fence, Prod.mk.injEq] at hfence
    omega
  · intro request now hforeign
    by_contra hchange
    obtain ⟨latest, hlatest, hfence, -⟩ := hledger.latest_of_apply hchange
    exact hforeign (by rw [hlatest, Option.map_some, hfence])
  · intro request now hlapsed
    by_contra hchange
    obtain ⟨latest, -, -, hnow⟩ := hledger.latest_of_apply hchange
    omega

/-! ### A sample run -/

def tableOf {ρ : Type} {key : ρ → String} (row : ρ) : Table ρ key :=
  ⟨[row], nodup_singleton _⟩

def sampleAccount : IdentityProviderAccount where
  id := "a"
  tenantId := "t"
  provider := "feishu"
  providerTenantKey := "pt"
  providerAccountKey := "pa"
  identityRevision := 1
  lastScopeChangeAt := none
  identityHealthState := .healthy
  identityHealthErrorCode := none

def sampleDirectory : IdentityDirectory where
  tenants := tableOf ⟨"t", validStatus⟩
  users := tableOf ⟨"u", validStatus, true, false⟩
  memberships := tableOf ⟨"m", "u", "t", "normal", validStatus⟩
  accounts := tableOf sampleAccount
  identities := tableOf ⟨"i", "t", "u", "feishu", "pt", "user_id", "ou", .active, none, some 0, 1⟩
  aliases := tableOf ⟨"l", "t", "i", "feishu", "pt", "pa"⟩

def sampleStart : ReconciliationStore := ⟨sampleDirectory, Table.empty, Table.empty⟩

def sampleInterval : Int := 100000

def sampleClaim (owner : String) (now : Int) : ReconciliationCall :=
  .claimNext "k" ⟨owner, 1, sampleInterval, 0, 60⟩ ⟨"g", false, false, false, now, now + 10⟩

def sampleLeaseFields (owner : String) (attempt : Nat) (start : Int) : LeaseFields :=
  ⟨"k", "g", owner, attempt, sampleAccount.context, "i", "ou", 1, 0, start + seconds 1⟩

def sampleApply (lease : ReconciliationLease) (now : Int) : ReconciliationCall :=
  .apply ⟨lease, ⟨⟨.resolved, now, some now, none⟩, by
    simp [ObservationFields.error, ObservationFields.proofError, ObservationFields.codeError]⟩,
    sampleInterval, 30, 60, 60, 3, 5⟩ now

def firstLease : ReconciliationLease := ⟨sampleLeaseFields "w1" 1 20, by decide +kernel⟩

def secondLease : ReconciliationLease := ⟨sampleLeaseFields "w2" 2 2000010, by decide +kernel⟩

/-- The first worker is late: its lease runs out, a second worker takes over, and
    only the second answer counts. -/
def sampleCalls : List ReconciliationCall :=
  [.seedCheckpoints (fun _ => "k") 0, sampleClaim "w1" 10, sampleClaim "w2" 2000000,
    sampleApply firstLease 2000020, sampleApply secondLease 2000030]

theorem probeRun_discipline_sample :
    let run := execute runReconciliationCall sampleCalls [] sampleStart
    run.1.map ReconciliationEvent.reservation
        = [some ("a", 2000030), none, some ("a", 2000010), some ("a", 20), none] ∧
      ProbeDiscipline sampleInterval sampleStart run.1 run.2 := by
  have hstart : Unleased sampleStart :=
    ⟨unique_of_forall_not_mem not_mem_empty,
      fun k hk => absurd hk (not_mem_empty k)⟩
  have hrun : ProbeRun sampleInterval sampleStart
      (execute runReconciliationCall sampleCalls [] sampleStart).1
      (execute runReconciliationCall sampleCalls [] sampleStart).2 := by
    have hallowed : allowed runReconciliationCall (fun call _ => call.probesAt sampleInterval)
        sampleCalls sampleStart = true := by decide +kernel
    apply execute_steps Run.nil hallowed
    intro call s hcall
    cases call <;> exact ⟨hcall, rfl⟩
  exact ⟨by decide +kernel, probeRun_discipline hstart hrun⟩

end MultiRag.IdentityReconciliation
