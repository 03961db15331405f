/-
  **An absence is confirmed before it counts.**

  A provider that does not find an identity is asked again; only a second answer, a window later,
  makes the identity inactive.
-/
import MultiRag.ReconciliationTargets

namespace MultiRag.IdentityReconciliation

open IdentityReconciliationCheckpoint Table Option

/-! ### Steps -/

def ReconciliationEvent.observed (e : ReconciliationEvent) :
    Option (String × ReconciliationProviderStatus × Int) :=
  match e.call, e.reply with
  | .apply request now, .applied (.ok result) =>
      if result.outcome = .fenceRejected then none
      else some (request.lease.targetId, (effectiveObservation request.observation now).status, now)
  | _, _ => none

/-- `tables` keeps the rows the targets refer to.  Directory events, provisioning and
    the administration of the accounts change them only together with their revision,
    which they increase. -/
def ReconciliationStore.admits (s : ReconciliationStore) (tables : IdentityDirectory) : Bool :=
  s.targets.rows.all (fun target =>
    match s.directory.accounts.get? target.providerAccountId,
        tables.accounts.get? target.providerAccountId,
        s.directory.identities.get? target.externalIdentityId,
        tables.identities.get? target.externalIdentityId with
    | some account, some account', some identity, some identity' =>
        decide (account.identityRevision ≤ account'.identityRevision) &&
          (account'.identityRevision != account.identityRevision ||
            account'.lastScopeChangeAt == account.lastScopeChangeAt) &&
          decide (identity.identityRevision ≤ identity'.identityRevision)
    | _, _, _, _ => false)

def ReconciliationCall.admitted (s : ReconciliationStore) : ReconciliationCall → Bool
  | .directory tables => s.admits tables
  | _ => true

def admittedStep (s : ReconciliationStore) (e : ReconciliationEvent) (s' : ReconciliationStore) :
    Prop :=
  e.call.admitted s = true ∧ reconciliationStep s e s'

def ReconciliationCall.external : ReconciliationCall → Bool
  | .directory _ => true
  | _ => false

namespace ReconciliationStore

def accountRevision (s : ReconciliationStore) (accountId : String) : Option Nat :=
  (s.directory.accounts.get? accountId).map IdentityProviderAccount.identityRevision

def accountScope (s : ReconciliationStore) (accountId : String) : Option (Option Int) :=
  (s.directory.accounts.get? accountId).map IdentityProviderAccount.lastScopeChangeAt

def identityRevision (s : ReconciliationStore) (identityId : String) : Option Nat :=
  (s.directory.identities.get? identityId).map ExternalIdentity.identityRevision

end ReconciliationStore

/-- A step that leaves the scope of the account and the revisions of the account and
    the identity alone, but for the health a reconciliation sets, and in which the
    target is not resolved. -/
structure Undisturbed (targetId accountId identityId : String) (s : ReconciliationStore)
    (e : ReconciliationEvent) (s' : ReconciliationStore) : Prop where
  step : admittedStep s e s'
  scope : s'.accountScope accountId = s.accountScope accountId
  account : s'.accountRevision accountId = s.accountRevision accountId ∨
    (e.call.external = false ∧ ∃ account desired, s.directory.accounts.get? accountId = some account ∧
      s'.directory.accounts.get? accountId = some (account.setHealth desired))
  identity : s'.identityRevision identityId = s.identityRevision identityId
  unresolved : ∀ now, e.observed ≠ some (targetId, .resolved, now)

/-! ### Revisions -/

/-- The rows a step leaves are not older, and a changed scope has a new revision. -/
structure Advances (s s' : ReconciliationStore) (accountId identityId : String) : Prop where
  account : ∀ a a', s.directory.accounts.get? accountId = some a →
    s'.directory.accounts.get? accountId = some a' → a.identityRevision ≤ a'.identityRevision ∧
      (a'.identityRevision = a.identityRevision → a'.lastScopeChangeAt = a.lastScopeChangeAt)
  identity : ∀ i i', s.directory.identities.get? identityId = some i →
    s'.directory.identities.get? identityId = some i' → i.identityRevision ≤ i'.identityRevision

/-- What the reconciliation itself does to the rows of others. -/
structure Flips (s s' : ReconciliationStore) : Prop where
  account : ∀ id a', s'.directory.accounts.get? id = some a' →
    ∃ a, s.directory.accounts.get? id = some a ∧ (a' = a ∨ ∃ desired, a' = a.setHealth desired)
  identity : ∀ id i', s'.directory.identities.get? id = some i' →
    ∃ i, s.directory.identities.get? id = some i ∧ i.identityRevision ≤ i'.identityRevision

variable {s s' : ReconciliationStore} {account : IdentityProviderAccount}
  {identity : ExternalIdentity} {checkpointId accountId identityId : String} {now : Int}

theorem setHealth_revision (account : IdentityProviderAccount)
    (desired : IdentityProviderHealthState) :
    account.identityRevision ≤ (account.setHealth desired).identityRevision ∧
      (account.setHealth desired).lastScopeChangeAt = account.lastScopeChangeAt := by
  unfold IdentityProviderAccount.setHealth
  split
  · exact ⟨le_rfl, rfl⟩
  · exact ⟨Nat.le_succ _, rfl⟩

theorem Flips.same (h : s'.directory = s.directory) : Flips s s' := by
  constructor
  · intro id a' ha'
    rw [h] at ha'
    exact ⟨a', ha', .inl rfl⟩
  · intro id i' hi'
    rw [h] at hi'
    exact ⟨i', hi', le_rfl⟩

theorem Flips.advances (h : Flips s s') (accountId identityId : String) :
    Advances s s' accountId identityId := by
  constructor
  · intro a a' ha ha'
    obtain ⟨a₀, ha₀, hchange⟩ := h.account accountId a' ha'
    obtain rfl := some.inj (ha.symm.trans ha₀)
    rcases hchange with rfl | ⟨desired, rfl⟩
    · exact ⟨le_rfl, fun _ => rfl⟩
    · obtain ⟨hrev, hscope⟩ := setHealth_revision a desired
      exact ⟨hrev, fun _ => hscope⟩
  · intro i i' hi hi'
    obtain ⟨i₀, hi₀, hrev⟩ := h.identity identityId i' hi'
    obtain rfl := some.inj (hi.symm.trans hi₀)
    exact hrev

theorem get?_put_cases {ρ : Type} {key : ρ → String} {t : Table ρ key} {before after row : ρ}
    {id : String} (hbefore : before ∈ t) (hkey : key after = key before)
    (h : (t.put after).get? id = some row) :
    (id = key before ∧ row = after) ∨ (id ≠ key before ∧ t.get? id = some row) := by
  by_cases hid : id = key before
  · have hself := get?_put_self hbefore hkey
    rw [hkey, ← hid, h] at hself
    exact .inl ⟨hid, some.inj hself⟩
  · rw [get?_put_of_ne (by rw [hkey]; exact hid)] at h
    exact .inr ⟨hid, h⟩

theorem flips_putAccount (hacct : account ∈ s.directory.accounts)
    {after : IdentityProviderAccount}
    (hafter : after = account ∨ ∃ desired, after = account.setHealth desired) :
    Flips s (s.putAccount after) := by
  have hid : after.id = account.id := by
    rcases hafter with rfl | ⟨desired, rfl⟩
    · rfl
    · exact setHealth_id account desired
  constructor
  · intro id a' ha'
    rcases get?_put_cases hacct hid ha' with ⟨rfl, rfl⟩ | ⟨-, hother⟩
    · exact ⟨account, get?_of_mem hacct, hafter⟩
    · exact ⟨a', hother, .inl rfl⟩
  · exact fun id i' hi' => ⟨i', hi', le_rfl⟩

theorem flips_completeCycle (hacct : account ∈ s.directory.accounts)
    (checkpoint : IdentityReconciliationCheckpoint) (now cycleIntervalSeconds : Int)
    (pendingAttemptAt : Option Int) (allowHealthRecovery : Bool) :
    Flips s (s.completeCycle account checkpoint now cycleIntervalSeconds pendingAttemptAt
      allowHealthRecovery) := by
  unfold ReconciliationStore.completeCycle
  by_cases hrecovered : (allowHealthRecovery && checkpoint.recovered) = true
  · have hflips := flips_putAccount hacct (.inr ⟨.healthy, rfl⟩)
    simp only [if_pos hrecovered]
    exact ⟨hflips.account, hflips.identity⟩
  · have hflips := flips_putAccount hacct (.inl rfl)
    simp only [if_neg hrecovered]
    exact ⟨hflips.account, hflips.identity⟩

variable {reply : Option ReconciliationLease} {session : ClaimSession}

theorem ClaimCase.flips {request : ClaimRequest} (h : ClaimCase checkpointId request session s reply s') :
    Flips s s' := by
  cases h with
  | closed _ hacct => exact flips_completeCycle (mem_of_get? hacct) _ _ _ _ _
  | exhausted hreached => exact flips_completeCycle (mem_of_get? hreached.account) _ _ _ _ _
  | idle => exact Flips.same rfl
  | failed _ _ _ _ => exact Flips.same rfl
  | unseen _ _ _ => exact Flips.same rfl
  | pending _ _ _ _ => exact Flips.same rfl
  | scanned _ _ _ _ _ _ => exact Flips.same rfl
  | renewed _ _ _ _ _ => exact Flips.same rfl

theorem rejectFence_directory {checkpoint : IdentityReconciliationCheckpoint}
    {target : Option IdentityReconciliationTarget} :
    (s.rejectFence checkpoint target now).directory = s.directory := by
  unfold ReconciliationStore.rejectFence
  cases target <;> rfl

variable {rows rows' : ObservedRows}

theorem putObserved_flips (hacct : rows.account ∈ s.directory.accounts)
    (hident : rows.identity ∈ s.directory.identities) (hkept : rows.Kept rows') :
    Flips s (s.putObserved rows') := by
  have hflips := flips_putAccount hacct hkept.account
  constructor
  · exact hflips.account
  · intro id i' hi'
    rcases get?_put_cases hident hkept.identity_id hi' with ⟨rfl, rfl⟩ | ⟨-, hother⟩
    · exact ⟨rows.identity, get?_of_mem hident, hkept.identity_revision⟩
    · exact ⟨i', hother, le_rfl⟩

theorem putObserved_rows (hacct : s.directory.accounts.get? accountId = some rows.account)
    (hident : s.directory.identities.get? identityId = some rows.identity)
    (hkept : rows.Kept rows') :
    (s.putObserved rows').directory.accounts.get? accountId = some rows'.account ∧
      (s.putObserved rows').directory.identities.get? identityId = some rows'.identity := by
  have hid : rows'.account.id = rows.account.id := by
    rcases hkept.account with hunchanged | ⟨desired, hset⟩
    · rw [hunchanged]
    · rw [hset, setHealth_id]
  have haccounts := get?_put_self (mem_of_get? hacct) hid
  have hidents := get?_put_self (mem_of_get? hident) hkept.identity_id
  rw [hid, key_of_get? hacct] at haccounts
  rw [hkept.identity_id, key_of_get? hident] at hidents
  exact ⟨haccounts, hidents⟩

theorem ApplyCase.flips {request : ApplyRequest} {result : ReconciliationApplyResult}
    (h : ApplyCase request now s result s') : Flips s s' := by
  cases h with
  | idle _ => exact Flips.same rfl
  | closed hmatched => exact flips_completeCycle (mem_of_get? hmatched.account) _ _ _ _ _
  | rejected _ => exact Flips.same rejectFence_directory
  | moved _ _ => exact Flips.same rfl
  | observed hmatched hfenced _ _ hobs =>
    exact putObserved_flips (mem_of_get? hmatched.account)
      (mem_of_get? hfenced.identity_eq) (applyObservation_case hobs).1

variable {e : ReconciliationEvent}

theorem admittedStep_restricted (h : admittedStep s e s') :
    restrictedStep s e s' := by
  refine ⟨?_, h.2⟩
  obtain ⟨hadmitted, -⟩ := h
  obtain ⟨call, reply⟩ := e
  cases call with
  | directory tables =>
    simp only [ReconciliationCall.admitted, ReconciliationStore.admits, List.all_eq_true]
      at hadmitted
    simp only [ReconciliationCall.restricted, ReconciliationStore.restricts, List.all_eq_true]
    intro target htarget
    have hrows := hadmitted target htarget
    split at hrows
    · next hacct _ hident => simp [hacct, hident]
    · cases hrows
  | seedCheckpoints _ _ => rfl
  | claimNext _ _ _ => rfl
  | apply _ _ => rfl

theorem admittedStep_advances {t : IdentityReconciliationTarget} (h : admittedStep s e s')
    (ht : t ∈ s.targets) :
    Advances s s' t.providerAccountId t.externalIdentityId := by
  cases reconciliationStep_case h.2 with
  | seeded _ _ _ _ honly => exact (Flips.same honly.directory).advances _ _
  | refused _ _ hsame =>
    subst hsame
    exact (Flips.same rfl).advances _ _
  | claimed _ _ _ _ _ _ hclaim => exact hclaim.flips.advances _ _
  | applied _ _ _ _ _ happly => exact happly.flips.advances _ _
  | written tables hcall hsame =>
    subst hsame
    have hadmitted := h.1
    rw [hcall] at hadmitted
    simp only [ReconciliationCall.admitted, ReconciliationStore.admits, List.all_eq_true]
      at hadmitted
    have hrows := hadmitted t ht
    split at hrows
    · next a a' i i' ha ha' hi hi' =>
      simp only [Bool.and_eq_true, Bool.or_eq_true, bne_iff_ne, beq_iff_eq, decide_eq_true_eq]
        at hrows
      constructor
      · intro b b' hb hb'
        obtain rfl := some.inj (ha.symm.trans hb)
        obtain rfl := some.inj (ha'.symm.trans hb')
        refine ⟨hrows.1.1, fun hrev => ?_⟩
        exact hrows.1.2.resolve_left (fun hne => hne hrev)
      · intro j j' hj hj'
        obtain rfl := some.inj (hi.symm.trans hj)
        obtain rfl := some.inj (hi'.symm.trans hj')
        exact hrows.2
    · cases hrows

/-! ### Fences -/

def CurrentIn (s : ReconciliationStore) (t : IdentityReconciliationTarget) : Prop :=
  ∃ account identity, s.directory.accounts.get? t.providerAccountId = some account ∧
    s.directory.identities.get? t.externalIdentityId = some identity ∧
      fenceCurrent t account identity

/-- The fence of the target is not ahead of the rows it is about. -/
structure Behind (s : ReconciliationStore) (t : IdentityReconciliationTarget) : Prop where
  account : ∀ a, s.directory.accounts.get? t.providerAccountId = some a →
    t.accountRevision ≤ a.identityRevision
  identity : ∀ i, s.directory.identities.get? t.externalIdentityId = some i →
    t.identityRevision ≤ i.identityRevision

/-- What a step made of the target that `t` is afterwards. -/
inductive TargetFate (s : ReconciliationStore) (e : ReconciliationEvent) (s' : ReconciliationStore)
    (t : IdentityReconciliationTarget) : Prop
  | kept (mem : t ∈ s.targets) (unresolved : ∀ now, e.observed ≠ some (t.id, .resolved, now))
  | cleared (uncounted : t.state = .pending → t.notFoundCount = 0)
  | continued {before : IdentityReconciliationTarget} (mem : before ∈ s.targets)
      (same : SameTarget before t) (pending : before.state = .pending)
      (count : before.notFoundCount ≠ 0) (current : CurrentIn s before)
      (last : t.lastNotFoundAt = before.lastNotFoundAt)
      (undisturbed : Undisturbed t.id t.providerAccountId t.externalIdentityId s e s')
  | absent (now : Int) (observed : e.observed = some (t.id, .notFound, now))
      (last : t.lastNotFoundAt = some now)

variable {t before : IdentityReconciliationTarget}

theorem undisturbed_of_current (hplaced : Placed s) (hbehind : Behind s t) (ht : t ∈ s.targets)
    (hstep : admittedStep s e s') (hcur : CurrentIn s' t)
    (hunresolved : ∀ now, e.observed ≠ some (t.id, .resolved, now)) :
    CurrentIn s t ∧ Undisturbed t.id t.providerAccountId t.externalIdentityId s e s' := by
  obtain ⟨a', i', ha', hi', hacct, hscope, hident⟩ := hcur
  obtain ⟨a, ha⟩ := isSome_iff_exists.mp (hplaced.account t ht)
  obtain ⟨i, hi⟩ := isSome_iff_exists.mp (hplaced.identity t ht)
  have hadvances := admittedStep_advances hstep ht
  obtain ⟨hle, hscopes⟩ := hadvances.account a a' ha ha'
  have hrev : a'.identityRevision = a.identityRevision := by
    have hnotAhead := hbehind.account a ha
    omega
  have hidents : i'.identityRevision = i.identityRevision := by
    have hnotAhead := hbehind.identity i hi
    have hgrows := hadvances.identity i i' hi hi'
    omega
  refine ⟨⟨a, i, ha, hi, hacct.trans hrev, ?_, hident.trans hidents⟩, ?_⟩
  · rw [hscope, hscopes hrev]
  · constructor
    · exact hstep
    · simp only [ReconciliationStore.accountScope, ha, ha', map_some, hscopes hrev]
    · left
      simp only [ReconciliationStore.accountRevision, ha, ha', map_some, hrev]
    · simp only [ReconciliationStore.identityRevision, hi, hi', map_some, hidents]
    · exact hunresolved

theorem undisturbed_of_directory {targetId : String}
    (hstep : admittedStep s e s') (hdirectory : s'.directory = s.directory)
    (hunresolved : ∀ now, e.observed ≠ some (targetId, .resolved, now)) :
    Undisturbed targetId accountId identityId s e s' := by
  constructor
  · exact hstep
  · rw [ReconciliationStore.accountScope, hdirectory, ReconciliationStore.accountScope]
  · left
    rw [ReconciliationStore.accountRevision, hdirectory, ReconciliationStore.accountRevision]
  · rw [ReconciliationStore.identityRevision, hdirectory, ReconciliationStore.identityRevision]
  · exact hunresolved

theorem fate_of_put {after : IdentityReconciliationTarget} (hbefore : before ∈ s.targets)
    (hput : s'.targets = s.targets.put after) (hid : after.id = before.id)
    (hothers : ∀ t ∈ s.targets, t.id ≠ before.id →
      ∀ now, e.observed ≠ some (t.id, .resolved, now))
    (hwritten : TargetFate s e s' after) : ∀ t ∈ s'.targets, TargetFate s e s' t := by
  intro t ht
  rw [hput, mem_put_of_mem hbefore hid] at ht
  rcases ht with rfl | ⟨ht, hne⟩
  · exact hwritten
  · exact TargetFate.kept ht (hothers t ht hne)

theorem fate_of_same (htargets : s'.targets = s.targets) (hobserved : e.observed = none) :
    ∀ t ∈ s'.targets, TargetFate s e s' t := by
  intro t ht
  rw [htargets] at ht
  refine TargetFate.kept ht (fun now hnow => ?_)
  rw [hobserved] at hnow
  cases hnow

variable {old : IdentityReconciliationCheckpoint} (hplaced : Placed s)
include hplaced

theorem currentIn_of_fence (hold : old ∈ s.checkpoints) (ht : t ∈ s.targets)
    (hown : t.checkpointId = old.id)
    (hacct : s.directory.accounts.get? old.providerAccountId = some account)
    (hident : s.directory.identities.get? t.externalIdentityId = some identity)
    (hfence : fenceCurrent t account identity) : CurrentIn s t := by
  refine ⟨account, identity, ?_, hident, hfence⟩
  rw [(hplaced.own_iff hold ht).mp hown]
  exact hacct

theorem claim_fate {request : ClaimRequest} (hobserved : e.observed = none)
    (hstep : admittedStep s e s') (h : ClaimCase checkpointId request session s reply s') :
    ∀ t ∈ s'.targets, TargetFate s e s' t := by
  have hothers : ∀ t : IdentityReconciliationTarget,
      ∀ now, e.observed ≠ some (t.id, .resolved, now) := by
    intro t now hnow
    rw [hobserved] at hnow
    cases hnow
  cases h with
  | idle => exact fate_of_same rfl hobserved
  | closed _ _ => exact fate_of_same rfl hobserved
  | exhausted _ => exact fate_of_same rfl hobserved
  | failed _ hdue _ _ | unseen _ hdue _ =>
    refine fate_of_put (dueTarget_spec hdue).mem rfl rfl (fun t _ _ => hothers t) ?_
    exact TargetFate.cleared (fun hpend => by cases hpend)
  | @pending old account target identity lease hreached hdue hident _ =>
    have htarget := dueTarget_spec hdue
    by_cases hfence : fenceCurrent target account identity
    · have hrefresh : target.refresh account identity = target := if_pos hfence
      rw [hrefresh] at hstep ⊢
      refine fate_of_put htarget.mem rfl rfl (fun t _ _ => hothers t) ?_
      by_cases hcount : target.notFoundCount = 0
      · exact TargetFate.cleared (fun _ => hcount)
      · refine TargetFate.continued htarget.mem ⟨rfl, rfl, rfl, rfl⟩ htarget.pending hcount ?_ rfl ?_
        · exact currentIn_of_fence hplaced (mem_of_get? hreached.checkpoint) htarget.mem
            htarget.checkpoint hreached.account hident hfence
        · exact undisturbed_of_directory hstep rfl (hothers target)
    · have hrefresh : target.refresh account identity = target.resetAbsence := if_neg hfence
      rw [hrefresh]
      refine fate_of_put htarget.mem rfl rfl (fun t _ _ => hothers t) ?_
      exact TargetFate.cleared (fun _ => rfl)
  | scanned _ _ _ _ hinsert _ =>
    intro t ht
    rcases (mem_insert? hinsert).mp ht with rfl | hold
    · exact TargetFate.cleared (fun _ => rfl)
    · exact TargetFate.kept hold (hothers t)
  | renewed _ _ _ htargeted _ =>
    refine fate_of_put (targetOf_spec htargeted).1 rfl rfl (fun t _ _ => hothers t) ?_
    exact TargetFate.cleared (fun _ => rfl)

variable {request : ApplyRequest} {result : ReconciliationApplyResult}

theorem observed_fate
    (hstep : admittedStep s e (s.putObserved rows)) (hexternal : e.call.external = false)
    (hobserved : e.observed =
      some (before.id, (effectiveObservation request.observation now).status, now))
    (hmatched : Matched request now s old account)
    (hfenced : Fenced request s old account before identity)
    (hcur : before.identityRevision = identity.identityRevision)
    (hkept : ObservedRows.Kept ⟨account, request.floor now old, before, identity⟩ rows)
    (hcase : ObservedCase request (effectiveObservation request.observation now) now
      ⟨account, request.floor now old, before, identity⟩ rows result.outcome) :
    TargetFate s e (s.putObserved rows) rows.target := by
  have hmem := mem_of_get? hfenced.target_eq
  have hsame : SameTarget before rows.target :=
    ⟨hkept.target_id, hkept.target_checkpoint, hkept.target_account, hkept.target_identity⟩
  have hfence : CurrentIn s before := currentIn_of_fence hplaced
    (mem_of_get? hmatched.checkpoint) hmem hfenced.checkpoint hmatched.account
    hfenced.identity_eq ⟨hfenced.revision, hfenced.scope, hcur⟩
  -- an observation that leaves the identity alone changes the account by its health only
  have hundisturbed : rows.identity = identity →
      (∀ now', e.observed ≠ some (before.id, .resolved, now')) →
        Undisturbed rows.target.id rows.target.providerAccountId rows.target.externalIdentityId s e
          (s.putObserved rows) := by
    intro hident hunresolved
    rw [hsame.id_eq, hsame.account_eq, hsame.identity_eq]
    have hown := (hplaced.own_iff (mem_of_get? hmatched.checkpoint) hmem).mp
      hfenced.checkpoint
    have hacct : s.directory.accounts.get? before.providerAccountId = some account := by
      rw [hown]
      exact hmatched.account
    obtain ⟨hacct', hident'⟩ := putObserved_rows hacct hfenced.identity_eq hkept
    rw [hident] at hident'
    constructor
    · exact hstep
    · rw [ReconciliationStore.accountScope, hacct', ReconciliationStore.accountScope, hacct]
      rcases hkept.account with hunchanged | ⟨desired, hset⟩
      · rw [hunchanged]
      · rw [hset, map_some, (setHealth_revision account desired).2, map_some]
    · rcases hkept.account with hunchanged | ⟨desired, hset⟩
      · left
        rw [ReconciliationStore.accountRevision, hacct', ReconciliationStore.accountRevision,
          hacct, hunchanged]
      · exact .inr ⟨hexternal, account, desired, hacct, by rw [hacct', hset]⟩
    · rw [ReconciliationStore.identityRevision, hident', ReconciliationStore.identityRevision,
        hfenced.identity_eq]
    · exact hunresolved
  generalize result.outcome = outcome at hcase
  cases hcase with
  | retried hstatus hpend hident _ hcount hlast _ =>
    by_cases hzero : before.notFoundCount = 0
    · exact TargetFate.cleared (fun _ => hcount.trans hzero)
    · refine TargetFate.continued hmem hsame hfenced.pending hzero hfence hlast
        (hundisturbed hident ?_)
      intro now' hnow
      rw [hobserved, hstatus] at hnow
      cases hnow
  | awaited hstatus hpend _ hident _ habsence _ _ =>
    rcases habsence with hfirst | ⟨hcount, hlast⟩
    · refine TargetFate.absent now ?_ hfirst
      rw [hobserved, hstatus, hsame.id_eq]
    · refine TargetFate.continued hmem hsame hfenced.pending hcount hfence hlast
        (hundisturbed hident ?_)
      intro now' hnow
      rw [hobserved, hstatus] at hnow
      cases hnow
  | rejected _ hstate _ _ _ | opened hstate _ _ _ _ _ =>
    exact TargetFate.cleared (fun hpend => by rw [hstate] at hpend; cases hpend)
  | applied hstate _ _ => exact TargetFate.cleared (fun hpend => absurd hpend hstate)

theorem apply_fate (hcall : e.call = .apply request now)
    (hreply : e.reply = .applied (.ok result)) (hstep : admittedStep s e s')
    (h : ApplyCase request now s result s') : ∀ t ∈ s'.targets, TargetFate s e s' t := by
  have hrejected : result.outcome = .fenceRejected → e.observed = none := by
    intro hout
    unfold ReconciliationEvent.observed
    rw [hcall, hreply]
    simp only [hout, if_true]
  have hothers : e.observed = none → ∀ t : IdentityReconciliationTarget,
      ∀ now, e.observed ≠ some (t.id, .resolved, now) := by
    intro hobserved t now hnow
    rw [hobserved] at hnow
    cases hnow
  cases h with
  | idle hout => exact fate_of_same rfl (hrejected hout)
  | closed _ => exact fate_of_same rfl (hrejected rfl)
  | @rejected old account hmatched =>
    have hobserved := hrejected rfl
    unfold ReconciliationStore.rejectFence
    cases htarget : s.leasedTarget request old with
    | none => exact fate_of_same rfl hobserved
    | some target =>
      refine fate_of_put (leasedTarget_spec htarget).1 rfl rfl (fun t _ _ => hothers hobserved t) ?_
      exact TargetFate.cleared (fun hpend => by cases hpend)
  | moved _ hfenced =>
    have hobserved := hrejected rfl
    refine fate_of_put (mem_of_get? hfenced.target_eq) rfl rfl
      (fun t _ _ => hothers hobserved t) ?_
    exact TargetFate.cleared (fun hpend => by cases hpend)
  | @observed old account target identity result rows hmatched hfenced hcur _ hobs =>
    obtain ⟨hkept, hcase⟩ := applyObservation_case hobs
    have hid := key_of_get? hfenced.target_eq
    have hacc : e.observed = some (target.id,
        (effectiveObservation request.observation now).status, now) := by
      have hacc : result.outcome ≠ .fenceRejected := by
        intro hout
        rw [hout] at hcase
        cases hcase
      unfold ReconciliationEvent.observed
      rw [hcall, hreply, hid]
      simp only [if_neg hacc]
    refine fate_of_put (mem_of_get? hfenced.target_eq) rfl hkept.target_id ?_ ?_
    · intro t _ hne now' hnow
      rw [hacc, some.injEq, Prod.mk.injEq] at hnow
      exact hne hnow.1.symm
    · have hexternal : e.call.external = false := by rw [hcall]; rfl
      exact observed_fate hplaced hstep hexternal hacc hmatched hfenced hcur hkept hcase

theorem step_fate (hstep : admittedStep s e s') :
    ∀ t ∈ s'.targets, TargetFate s e s' t := by
  have hunobserved : (∀ result, e.reply ≠ .applied (.ok result)) → e.observed = none := by
    intro hreply
    unfold ReconciliationEvent.observed
    split
    · next hanswer => exact absurd hanswer (hreply _)
    · rfl
  cases reconciliationStep_case hstep.2 with
  | seeded newId dueAt hcall _ honly =>
    refine fate_of_same honly.targets ?_
    unfold ReconciliationEvent.observed
    rw [hcall]
  | refused _ hreply hsame => exact fate_of_same (by rw [hsame]) (hunobserved hreply)
  | claimed _ _ _ _ hcall _ hclaim =>
    refine claim_fate hplaced ?_ hstep hclaim
    unfold ReconciliationEvent.observed
    rw [hcall]
  | applied _ _ _ hcall hreply happly => exact apply_fate hplaced hcall hreply hstep happly
  | written _ hcall hsame =>
    refine fate_of_same (by rw [hsame]) ?_
    unfold ReconciliationEvent.observed
    rw [hcall]

variable {after : IdentityReconciliationTarget}

theorem Behind.advance (ht : t ∈ s.targets) (h : Behind s t)
    (hadvances : Advances s s' t.providerAccountId t.externalIdentityId) (hsame : SameTarget t after)
    (hacct : after.accountRevision = t.accountRevision)
    (hident : after.identityRevision = t.identityRevision) : Behind s' after := by
  constructor
  · intro a' ha'
    obtain ⟨a, ha⟩ := isSome_iff_exists.mp (hplaced.account t ht)
    rw [hsame.account_eq] at ha'
    rw [hacct]
    exact le_trans (h.account a ha) (hadvances.account a a' ha ha').1
  · intro i' hi'
    obtain ⟨i, hi⟩ := isSome_iff_exists.mp (hplaced.identity t ht)
    rw [hsame.identity_eq] at hi'
    rw [hident]
    exact le_trans (h.identity i hi) (hadvances.identity i i' hi hi')

omit hplaced

theorem behind_of_rows (account : IdentityProviderAccount) (identity : ExternalIdentity)
    (hacct : s.directory.accounts.get? t.providerAccountId = some account)
    (hident : s.directory.identities.get? t.externalIdentityId = some identity)
    (hrev : t.accountRevision = account.identityRevision)
    (hcur : t.identityRevision = identity.identityRevision) : Behind s t := by
  constructor
  · intro a ha
    rw [some.inj (ha.symm.trans hacct), hrev]
  · intro i hi
    rw [some.inj (hi.symm.trans hident), hcur]

section

variable (hplaced : Placed s) (hstep : admittedStep s e s') (hbehind : ∀ t ∈ s.targets, Behind s t)
include hplaced hstep hbehind

theorem claim_behind {request : ClaimRequest}
    (h : ClaimCase checkpointId request session s reply s') : ∀ t ∈ s'.targets, Behind s' t := by
  have hkept : ∀ t ∈ s.targets, Behind s' t := fun t ht => (hbehind t ht).advance hplaced ht
    (admittedStep_advances hstep ht) ⟨rfl, rfl, rfl, rfl⟩ rfl rfl
  cases h with
  | idle => exact hbehind
  | closed _ _ => exact hkept
  | exhausted _ => exact hkept
  | failed _ hdue _ _ | unseen _ hdue _ =>
    intro t ht
    rcases mem_or_eq_of_mem_put ht with rfl | hold
    · have hmem := (dueTarget_spec hdue).mem
      exact (hbehind _ hmem).advance hplaced hmem (admittedStep_advances hstep hmem)
        ⟨rfl, rfl, rfl, rfl⟩ rfl rfl
    · exact hkept t hold
  | @pending old account target identity lease hreached hdue hident _ =>
    intro t ht
    rcases mem_or_eq_of_mem_put ht with rfl | hold
    · have htarget := dueTarget_spec hdue
      have hown := (hplaced.own_iff (mem_of_get? hreached.checkpoint) htarget.mem).mp
        htarget.checkpoint
      have hrefresh : SameTarget target (target.refresh account identity) := by
        unfold IdentityReconciliationTarget.refresh
        split <;> exact ⟨rfl, rfl, rfl, rfl⟩
      refine behind_of_rows account identity ?_ ?_ rfl rfl
      · show s.directory.accounts.get? (target.refresh account identity).providerAccountId = _
        rw [hrefresh.account_eq, hown]
        exact hreached.account
      · show s.directory.identities.get? (target.refresh account identity).externalIdentityId = _
        rw [hrefresh.identity_eq]
        exact hident
    · exact hkept t hold
  | @scanned old account identity lease targets hreached _ hscan _ hinsert _ =>
    intro t ht
    rcases (mem_insert? hinsert).mp ht with rfl | hold
    · exact behind_of_rows account identity (get?_of_mem (mem_of_get? hreached.account))
        (get?_of_mem (scannedIdentity_spec hscan).mem) rfl rfl
    · exact hkept t hold
  | @renewed old account target identity lease hreached _ hscan htargeted _ =>
    intro t ht
    obtain ⟨-, hacct, hexternal⟩ := targetOf_spec htargeted
    rcases mem_or_eq_of_mem_put ht with rfl | hold
    · refine behind_of_rows account identity ?_ ?_ rfl rfl
      · show s.directory.accounts.get? target.providerAccountId = _
        rw [hacct]
        exact get?_of_mem (mem_of_get? hreached.account)
      · show s.directory.identities.get? target.externalIdentityId = _
        rw [hexternal]
        exact get?_of_mem (scannedIdentity_spec hscan).mem
    · exact hkept t hold

theorem apply_behind
    (h : ApplyCase request now s result s') : ∀ t ∈ s'.targets, Behind s' t := by
  have hfin : ∀ t ∈ s.targets, ∀ failed errorCode,
      Behind s' (t.finish now failed errorCode) := fun t ht failed errorCode =>
    (hbehind t ht).advance hplaced ht (admittedStep_advances hstep ht) ⟨rfl, rfl, rfl, rfl⟩ rfl rfl
  have hkept : ∀ t ∈ s.targets, Behind s' t := fun t ht => (hbehind t ht).advance hplaced ht
    (admittedStep_advances hstep ht) ⟨rfl, rfl, rfl, rfl⟩ rfl rfl
  cases h with
  | idle _ => exact hbehind
  | closed _ => exact hkept
  | @rejected old account hmatched =>
    unfold ReconciliationStore.rejectFence at hkept hfin ⊢
    cases htarget : s.leasedTarget request old with
    | none =>
      rw [htarget] at hkept
      exact hkept
    | some target =>
      rw [htarget] at hkept hfin
      intro t ht
      rcases mem_or_eq_of_mem_put ht with rfl | hold
      · exact hfin target (leasedTarget_spec htarget).1 _ _
      · exact hkept t hold
  | moved _ hfenced =>
    intro t ht
    rcases mem_or_eq_of_mem_put ht with rfl | hold
    · exact hfin _ (mem_of_get? hfenced.target_eq) _ _
    · exact hkept t hold
  | @observed old account target identity result rows hmatched hfenced hcur _ hobs =>
    obtain ⟨hrows, -⟩ := applyObservation_case hobs
    have hmem := mem_of_get? hfenced.target_eq
    have hown := (hplaced.own_iff (mem_of_get? hmatched.checkpoint) hmem).mp
      hfenced.checkpoint
    have hacct : s.directory.accounts.get? target.providerAccountId = some account := by
      rw [hown]
      exact hmatched.account
    obtain ⟨hacct', hident'⟩ := putObserved_rows hacct hfenced.identity_eq hrows
    intro t ht
    rcases mem_or_eq_of_mem_put ht with rfl | hold
    · refine behind_of_rows rows.account rows.identity ?_ ?_ hrows.revision
        (hrows.identity_fence hcur)
      · rw [hrows.target_account]
        exact hacct'
      · rw [hrows.target_identity]
        exact hident'
    · exact hkept t hold

theorem step_behind : ∀ t ∈ s'.targets, Behind s' t := by
  have hkept : s'.targets = s.targets → ∀ t ∈ s'.targets, Behind s' t := by
    intro htargets t ht
    rw [htargets] at ht
    exact (hbehind t ht).advance hplaced ht (admittedStep_advances hstep ht) ⟨rfl, rfl, rfl, rfl⟩
      rfl rfl
  cases reconciliationStep_case hstep.2 with
  | seeded _ _ _ _ honly => exact hkept honly.targets
  | refused _ _ hsame => exact hkept (by rw [hsame])
  | claimed _ _ _ _ _ _ hclaim => exact claim_behind hplaced hstep hbehind hclaim
  | applied _ _ _ _ _ happly => exact apply_behind hplaced hstep hbehind happly
  | written _ _ hsame => exact hkept (by rw [hsame])

end

/-! ### The evidence of a count -/

structure NotFoundSince (start : ReconciliationStore) (hist : List ReconciliationEvent)
    (s : ReconciliationStore) (targetId accountId identityId : String) (at_ : Int) : Prop where
  answered : ∃ later earlier e a b, hist = later ++ e :: earlier ∧ Run admittedStep start earlier a ∧
    admittedStep a e b ∧ e.observed = some (targetId, .notFound, at_) ∧
      (∃ t ∈ b.targets, t.id = targetId ∧ t.externalIdentityId = identityId) ∧
        Run (Undisturbed targetId accountId identityId) b later s

/-- A pending target that counts an absence under a current fence has the answer. -/
def Evidence (start : ReconciliationStore) (hist : List ReconciliationEvent)
    (s : ReconciliationStore) (t : IdentityReconciliationTarget) : Prop :=
  t.state = .pending → t.notFoundCount ≠ 0 → CurrentIn s t →
    ∃ at_, t.lastNotFoundAt = some at_ ∧
      NotFoundSince start hist s t.id t.providerAccountId t.externalIdentityId at_

/-- What holds of the targets after every history. -/
structure AbsenceLedger (start : ReconciliationStore) (hist : List ReconciliationEvent)
    (s : ReconciliationStore) : Prop where
  run : Run admittedStep start hist s
  placed : Placed s
  behind : ∀ t ∈ s.targets, Behind s t
  evidence : ∀ t ∈ s.targets, Evidence start hist s t

variable {start : ReconciliationStore} {hist : List ReconciliationEvent} {targetId : String} {at_ : Int}

theorem NotFoundSince.extend (h : NotFoundSince start hist s targetId accountId identityId at_)
    (hstep : Undisturbed targetId accountId identityId s e s') :
    NotFoundSince start (e :: hist) s' targetId accountId identityId at_ := by
  obtain ⟨later, earlier, e₁, a, b, rfl, hearlier, hanswer, hobserved, htarget, hlater⟩ := h.answered
  exact ⟨⟨e :: later, earlier, e₁, a, b, rfl, hearlier, hanswer, hobserved, htarget,
    Run.cons hlater hstep⟩⟩

theorem AbsenceLedger.step (h : AbsenceLedger start hist s) (hstep : admittedStep s e s') :
    AbsenceLedger start (e :: hist) s' := by
  refine ⟨Run.cons h.run hstep, restrictedStep_placed h.placed (admittedStep_restricted hstep),
    step_behind h.placed hstep h.behind, ?_⟩
  intro t ht hpend hcount hcur
  cases step_fate h.placed hstep t ht with
  | kept hmem hunresolved =>
    obtain ⟨hbefore, hundisturbed⟩ :=
      undisturbed_of_current h.placed (h.behind t hmem) hmem hstep hcur hunresolved
    obtain ⟨at_, hlast, hanswer⟩ := h.evidence t hmem hpend hcount hbefore
    exact ⟨at_, hlast, hanswer.extend hundisturbed⟩
  | cleared hover => exact absurd (hover hpend) hcount
  | @continued before hmem hsame hpend' hcount' hcur' hlast' hundisturbed =>
    obtain ⟨at_, hlast, hanswer⟩ := h.evidence before hmem hpend' hcount' hcur'
    rw [← hsame.id_eq, ← hsame.account_eq, ← hsame.identity_eq] at hanswer
    exact ⟨at_, hlast'.trans hlast, hanswer.extend hundisturbed⟩
  | absent now hobserved hlast =>
    exact ⟨now, hlast, ⟨[], hist, e, s, s', rfl, h.run, hstep, hobserved, ⟨t, ht, rfl, rfl⟩,
      Run.nil⟩⟩

theorem admittedRun_ledger (hstart : Untouched start) (hrun : Run admittedStep start hist s) :
    AbsenceLedger start hist s := by
  have hempty : AbsenceLedger start [] start := by
    constructor
    · exact Run.nil
    · exact hstart.placed
    · exact fun t ht => absurd ht (hstart.no_target t)
    · exact fun t ht => absurd ht (hstart.no_target t)
  exact Run.history hempty (fun _ _ _ _ h hstep => h.step hstep) hrun

theorem absence_confirmed
    (happly : ApplyCase request now s result s')
    (hstatus : (effectiveObservation request.observation now).status = .notFound)
    {before after : ExternalIdentity}
    (hbefore : s.directory.identities.get? identityId = some before)
    (hafter : s'.directory.identities.get? identityId = some after)
    (hactive : before.state ≠ .inactive) (hinact : after.state = .inactive)
    (hplaced : Placed s) :
    result.outcome = .applied ∧ ∃ t, s.targets.get? request.lease.targetId = some t ∧
      t.externalIdentityId = identityId ∧ t.state = .pending ∧ CurrentIn s t ∧
        Confirms request now t := by
  have hsame : s'.directory.identities = s.directory.identities → False := by
    intro hidents
    rw [hidents, hbefore] at hafter
    cases hafter
    exact hactive hinact
  cases happly with
  | idle _ => exact (hsame rfl).elim
  | closed _ => exact (hsame rfl).elim
  | rejected _ => exact (hsame (by rw [rejectFence_directory])).elim
  | moved _ _ => exact (hsame rfl).elim
  | @observed old account target identity result rows hmatched hfenced hcur _ hobs =>
    obtain ⟨hkept, hcase⟩ := applyObservation_case hobs
    have hident := mem_of_get? hfenced.identity_eq
    rcases get?_put_cases hident hkept.identity_id hafter with ⟨rfl, rfl⟩ | ⟨-, hother⟩
    · obtain rfl := some.inj (hbefore.symm.trans (get?_of_mem hident))
      have hmem := mem_of_get? hfenced.target_eq
      have hfence : CurrentIn s target := currentIn_of_fence hplaced
        (mem_of_get? hmatched.checkpoint) hmem hfenced.checkpoint hmatched.account
        hfenced.identity_eq ⟨hfenced.revision, hfenced.scope, hcur⟩
      have hunchanged : rows.identity = before → False := by
        intro hrow
        rw [hrow] at hinact
        exact hactive hinact
      generalize hout : result.outcome = outcome at hcase
      cases hcase with
      | retried _ _ hrow _ _ _ _ => exact (hunchanged hrow).elim
      | awaited _ _ _ hrow _ _ _ _ => exact (hunchanged hrow).elim
      | rejected _ _ hrow _ _ => exact (hunchanged hrow).elim
      | opened _ hrow _ _ _ _ => exact (hunchanged hrow).elim
      | applied _ _ hchange =>
        rcases hchange with ⟨hstate, -⟩ | htightened
        · rw [hstate] at hinact
          exact absurd hinact hactive
        · exact ⟨rfl, target, hfenced.target_eq, (key_of_get? hfenced.identity_eq).symm,
            hfenced.pending, hfence, htightened.absence hinact hstatus⟩
    · rw [hbefore] at hother
      cases hother
      exact absurd hinact hactive

/-- **Confirmed absence.**  When an apply makes an identity inactive because it was not
    found, an earlier observation of the same target was accepted with that answer, at
    least the confirmation window before, and nothing has disturbed it in between. -/
theorem confirmed_absence {start s s' : ReconciliationStore} {hist : List ReconciliationEvent}
    {e : ReconciliationEvent} {request : ApplyRequest} {now : Int} {identityId : String}
    {before after : ExternalIdentity} (hstart : Untouched start)
    (hrun : Run admittedStep start hist s) (hstep : admittedStep s e s')
    (hcall : e.call = .apply request now)
    (hstatus : (effectiveObservation request.observation now).status = .notFound)
    (hbefore : s.directory.identities.get? identityId = some before)
    (hafter : s'.directory.identities.get? identityId = some after)
    (hactive : before.state ≠ .inactive) (hinactive : after.state = .inactive) :
    ∃ t, t ∈ s.targets ∧ t.externalIdentityId = identityId ∧
      e.observed = some (t.id, .notFound, now) ∧
        ∃ at_, at_ + seconds request.notFoundConfirmationSeconds ≤ now ∧
          NotFoundSince start hist s t.id t.providerAccountId identityId at_ := by
  have hledger := admittedRun_ledger hstart hrun
  cases reconciliationStep_case hstep.2 with
  | applied request' now' result hcall' hreply happly =>
    rw [hcall] at hcall'
    cases hcall'
    obtain ⟨houtcome, t, htarget, rfl, hpending, hcurrent, hcount, last, hlast, hwindow⟩ :=
      absence_confirmed happly hstatus hbefore hafter hactive hinactive hledger.placed
    obtain ⟨ht, hid⟩ := get?_eq_some.mp htarget
    obtain ⟨at_, hat, hanswer⟩ := hledger.evidence t ht hpending hcount hcurrent
    obtain rfl := some.inj (hlast.symm.trans hat)
    refine ⟨t, ht, rfl, ?_, last, hwindow, hanswer⟩
    unfold ReconciliationEvent.observed
    rw [hcall, hreply]
    simp only [houtcome, hstatus, hid, reduceCtorEq, if_false]
  | seeded _ _ hcall' _ _ =>
    rw [hcall] at hcall'
    cases hcall'
  | refused _ _ hsame =>
    rw [hsame, hbefore] at hafter
    cases hafter
    exact absurd hinactive hactive
  | claimed _ _ _ _ hcall' _ _ =>
    rw [hcall] at hcall'
    cases hcall'
  | written _ hcall' _ =>
    rw [hcall] at hcall'
    cases hcall'

/-! ### A sample run -/

def sampleAbsence (attempt : Nat) (start now : Int)
    (h : (sampleLeaseFields "w" attempt start).error = none) : ApplyRequest :=
  ⟨⟨sampleLeaseFields "w" attempt start, h⟩,
    ⟨⟨.notFound, now, none, none⟩, by
      simp [ObservationFields.error, ObservationFields.proofError, ObservationFields.codeError]⟩,
    sampleInterval, 30, 60, 60, 3, 5⟩

def absenceRequest : ApplyRequest :=
  sampleAbsence 2 (seconds 70 + 10) (seconds 70 + 20) (by decide +kernel)

def absenceCalls : List ReconciliationCall :=
  [.seedCheckpoints (fun _ => "k") 0, sampleClaim "w" 10,
    .apply (sampleAbsence 1 20 30 (by decide +kernel)) 30, sampleClaim "w" (seconds 70)]

def absentIdentity : ExternalIdentity :=
  ⟨"i", "t", "u", "feishu", "pt", "user_id", "ou", .inactive, none, some 0, 2⟩

theorem admittedStep_run {call : ReconciliationCall}
    (h : call.admitted s = true) :
    admittedStep s (runReconciliationCall call s).1 (runReconciliationCall call s).2 := by
  unfold admittedStep reconciliationStep
  rw [runReconciliationCall_call]
  exact ⟨h, rfl⟩

theorem confirmed_absence_sample :
    let run := execute runReconciliationCall absenceCalls [] sampleStart
    ∃ t, t ∈ run.2.targets ∧ t.externalIdentityId = "i" ∧
      (runReconciliationCall (.apply absenceRequest (seconds 70 + 20)) run.2).1.observed =
        some (t.id, .notFound, seconds 70 + 20) ∧
        ∃ at_, at_ + seconds 60 ≤ seconds 70 + 20 ∧
          NotFoundSince sampleStart run.1 run.2 t.id t.providerAccountId "i" at_ := by
  have hallowed : allowed runReconciliationCall (fun call s => call.admitted s) absenceCalls
      sampleStart = true := by decide +kernel
  have hrun : Run admittedStep sampleStart
      (execute runReconciliationCall absenceCalls [] sampleStart).1
      (execute runReconciliationCall absenceCalls [] sampleStart).2 := by
    apply execute_steps Run.nil hallowed
    intro call s hcall
    exact admittedStep_run hcall
  have hbefore : Table.get?
      (execute runReconciliationCall absenceCalls [] sampleStart).2.directory.identities "i" =
        some { absentIdentity with state := .active, identityRevision := 1 } := by
    decide +kernel
  have hafter : Table.get?
      (runReconciliationCall (.apply absenceRequest (seconds 70 + 20))
        (execute runReconciliationCall absenceCalls [] sampleStart).2).2.directory.identities "i" =
          some absentIdentity := by decide +kernel
  exact confirmed_absence (untouched_empty sampleDirectory) hrun (admittedStep_run rfl) rfl (by decide +kernel) hbefore hafter
    (by decide) rfl

end MultiRag.IdentityReconciliation
