/-
  **Every target belongs to the checkpoint of its account.**

  A reconciliation transaction locks one checkpoint and writes at most one target, and that target
  is the checkpoint's own: `Touched` is the write of one transaction, `Placed` the invariant of
  the two tables. The rest of the program cannot delete a row a target refers to: the foreign keys
  of `identity_reconciliation_targets` are `ON DELETE RESTRICT`.
-/
import MultiRag.ReconciliationProbes

namespace MultiRag.IdentityReconciliation

open IdentityReconciliationCheckpoint Table List

def ReconciliationStore.restricts (s : ReconciliationStore) (directory : IdentityDirectory) :
    Bool :=
  s.targets.rows.all (fun target =>
    (directory.accounts.get? target.providerAccountId).isSome &&
      (directory.identities.get? target.externalIdentityId).isSome)

def ReconciliationCall.restricted (s : ReconciliationStore) : ReconciliationCall → Bool
  | .directory tables => s.restricts tables
  | _ => true

/-- A step of the reconciliation, or one of the rest of the program that the foreign
    keys allow. -/
def restrictedStep (s : ReconciliationStore) (e : ReconciliationEvent) (s' : ReconciliationStore) :
    Prop :=
  e.call.restricted s = true ∧ reconciliationStep s e s'

/-! ### The write of one transaction -/

/-- What a target keeps for good. -/
structure SameTarget (before after : IdentityReconciliationTarget) : Prop where
  id_eq : after.id = before.id
  checkpoint_eq : after.checkpointId = before.checkpointId
  account_eq : after.providerAccountId = before.providerAccountId
  identity_eq : after.externalIdentityId = before.externalIdentityId

/-- What a transaction that locked `checkpoint` does to the targets. -/
inductive TargetWrite (checkpoint : IdentityReconciliationCheckpoint) (s s' : ReconciliationStore) :
    Prop
  | kept (targets : s'.targets = s.targets)
  | updated {before after : IdentityReconciliationTarget} (mem : before ∈ s.targets)
      (own : before.checkpointId = checkpoint.id ∨
        before.providerAccountId = checkpoint.providerAccountId)
      (same : SameTarget before after) (put : s'.targets = s.targets.put after)
  | created {new : IdentityReconciliationTarget} (checkpoint_eq : new.checkpointId = checkpoint.id)
      (account_eq : new.providerAccountId = checkpoint.providerAccountId)
      (identity : (s.directory.identities.get? new.externalIdentityId).isSome = true)
      (account : (s.directory.accounts.get? new.providerAccountId).isSome = true)
      (insert : s.targets.insert? new = some s'.targets)

def SameRows (s s' : ReconciliationStore) : Prop :=
  (∀ id, (s'.directory.accounts.get? id).isSome = (s.directory.accounts.get? id).isSome) ∧
    ∀ id, (s'.directory.identities.get? id).isSome = (s.directory.identities.get? id).isSome

structure Touched (old new : IdentityReconciliationCheckpoint) (s s' : ReconciliationStore) :
    Prop where
  mem : old ∈ s.checkpoints
  id_eq : new.id = old.id
  account_eq : new.providerAccountId = old.providerAccountId
  put : s'.checkpoints = s.checkpoints.put new
  write : TargetWrite old s s'
  rows : SameRows s s'

variable {s s' : ReconciliationStore} {old new k : IdentityReconciliationCheckpoint}
  {account : IdentityProviderAccount} {identity : ExternalIdentity}

theorem SameRows.refl (s : ReconciliationStore) : SameRows s s := ⟨fun _ => rfl, fun _ => rfl⟩

theorem get?_put_isSome {ρ : Type} {key : ρ → String} {t : Table ρ key} {before after : ρ}
    (hbefore : before ∈ t) (hkey : key after = key before) (id : String) :
    ((t.put after).get? id).isSome = (t.get? id).isSome := by
  by_cases hid : id = key after
  · subst hid
    rw [get?_put_self hbefore hkey, hkey, get?_of_mem hbefore]
    rfl
  · rw [get?_put_of_ne hid]

theorem sameRows_putIdentity (hident : identity ∈ s.directory.identities)
    {after : ExternalIdentity} (hid : after.id = identity.id) : SameRows s (s.putIdentity after) :=
  ⟨fun _ => rfl, fun id => get?_put_isSome hident hid id⟩

theorem sameRows_putAccount (hacct : account ∈ s.directory.accounts)
    {after : IdentityProviderAccount} (hid : after.id = account.id) :
    SameRows s (s.putAccount after) :=
  ⟨fun id => get?_put_isSome hacct hid id, fun _ => rfl⟩

theorem Touched.get? (h : Touched old new s s') (hk : s.checkpoints.get? k.id = some k) :
    (k = old ∧ s'.checkpoints.get? k.id = some new) ∨
      (k.id ≠ old.id ∧ s'.checkpoints.get? k.id = some k) := by
  by_cases hid : k.id = old.id
  · have hkold := eq_of_key (mem_of_get? hk) h.mem hid
    subst hkold
    refine .inl ⟨rfl, ?_⟩
    rw [h.put, ← h.id_eq]
    exact get?_put_self h.mem h.id_eq
  · refine .inr ⟨hid, ?_⟩
    rw [h.put, get?_put_of_ne (by rw [h.id_eq]; exact hid)]
    exact hk

/-! ### The invariant -/

structure Placed (s : ReconciliationStore) : Prop where
  one_checkpoint : s.checkpoints.Unique IdentityReconciliationCheckpoint.providerAccountId
  checkpoint : ∀ t ∈ s.targets, ∃ k ∈ s.checkpoints,
    k.id = t.checkpointId ∧ k.providerAccountId = t.providerAccountId
  account : ∀ t ∈ s.targets, (s.directory.accounts.get? t.providerAccountId).isSome = true
  identity : ∀ t ∈ s.targets, (s.directory.identities.get? t.externalIdentityId).isSome = true

/-- No target exists yet and no lease is out. -/
structure Untouched (s : ReconciliationStore) : Prop where
  unleased : Unleased s
  no_target : ∀ t, t ∉ s.targets

theorem Untouched.placed (h : Untouched s) : Placed s := by
  constructor
  · exact h.unleased.one_checkpoint
  · exact fun t ht => absurd ht (h.no_target t)
  · exact fun t ht => absurd ht (h.no_target t)
  · exact fun t ht => absurd ht (h.no_target t)

theorem untouched_empty (directory : IdentityDirectory) :
    Untouched ⟨directory, Table.empty, Table.empty⟩ := by
  refine ⟨⟨unique_of_forall_not_mem not_mem_empty, ?_⟩, not_mem_empty⟩
  exact fun k hk => absurd hk (not_mem_empty k)

variable {t : IdentityReconciliationTarget}

theorem Placed.own_iff (h : Placed s) (hk : k ∈ s.checkpoints) (ht : t ∈ s.targets) :
    t.checkpointId = k.id ↔ t.providerAccountId = k.providerAccountId := by
  obtain ⟨k', hk', hid, hacct⟩ := h.checkpoint t ht
  constructor
  · intro hown
    have hsame := eq_of_key hk' hk (hid.trans hown)
    rw [← hacct, hsame]
  · intro hown
    have hsame := h.one_checkpoint k' hk' k hk (hacct.trans hown)
    rw [← hid, hsame]

theorem Touched.keeps_target (h : Touched old new s s') (hplaced : Placed s) (ht : t ∈ s.targets)
    (hother : t.checkpointId ≠ old.id) : t ∈ s'.targets := by
  cases h.write with
  | kept htargets => rwa [htargets]
  | @updated before after hbefore hown hsame hput =>
    rw [hput, mem_put_of_mem hbefore hsame.id_eq]
    refine .inr ⟨ht, fun hid => hother ?_⟩
    rw [eq_of_key ht hbefore hid]
    rcases hown with hown | hown
    · exact hown
    · exact (hplaced.own_iff h.mem hbefore).mpr hown
  | created _ _ _ _ hinsert => exact (mem_insert? hinsert).mpr (.inr ht)

theorem TargetWrite.origin (h : TargetWrite old s s') (ht : t ∈ s'.targets) :
    (∃ t₀ ∈ s.targets, SameTarget t₀ t) ∨
      (t.checkpointId = old.id ∧ t.providerAccountId = old.providerAccountId ∧
        (s.directory.identities.get? t.externalIdentityId).isSome = true ∧
        (s.directory.accounts.get? t.providerAccountId).isSome = true) := by
  cases h with
  | kept htargets =>
    rw [htargets] at ht
    exact .inl ⟨t, ht, rfl, rfl, rfl, rfl⟩
  | @updated before after hbefore _ hsame hput =>
    rw [hput, mem_put_of_mem hbefore hsame.id_eq] at ht
    rcases ht with rfl | ⟨hold, -⟩
    · exact .inl ⟨before, hbefore, hsame⟩
    · exact .inl ⟨t, hold, rfl, rfl, rfl, rfl⟩
  | created hchk hacct hident hrow hinsert =>
    rcases (mem_insert? hinsert).mp ht with rfl | hold
    · exact .inr ⟨hchk, hacct, hident, hrow⟩
    · exact .inl ⟨t, hold, rfl, rfl, rfl, rfl⟩

theorem Touched.checkpoint_kept (h : Touched old new s s') (hk : k ∈ s.checkpoints) :
    ∃ k' ∈ s'.checkpoints, k'.id = k.id ∧ k'.providerAccountId = k.providerAccountId := by
  rcases h.get? (get?_of_mem hk) with ⟨rfl, hget⟩ | ⟨-, hget⟩
  · exact ⟨new, mem_of_get? hget, h.id_eq, h.account_eq⟩
  · exact ⟨k, mem_of_get? hget, rfl, rfl⟩

theorem Placed.touched (hplaced : Placed s) (h : Touched old new s s') : Placed s' := by
  constructor
  · rw [h.put]
    exact hplaced.one_checkpoint.put h.mem h.id_eq h.account_eq
  · intro t ht
    rcases h.write.origin ht with ⟨t₀, ht₀, hsame⟩ | ⟨hid, hacct, -, -⟩
    · obtain ⟨k, hk, hkid, hkaccount⟩ := hplaced.checkpoint t₀ ht₀
      obtain ⟨k', hk', hid', hacct'⟩ := h.checkpoint_kept hk
      refine ⟨k', hk', ?_, ?_⟩
      · rw [hid', hkid, hsame.checkpoint_eq]
      · rw [hacct', hkaccount, hsame.account_eq]
    · obtain ⟨k', hk', hid', hacct'⟩ := h.checkpoint_kept h.mem
      exact ⟨k', hk', hid'.trans hid.symm, hacct'.trans hacct.symm⟩
  · intro t ht
    rw [h.rows.1]
    rcases h.write.origin ht with ⟨t₀, ht₀, hsame⟩ | ⟨-, -, -, hacct⟩
    · rw [hsame.account_eq]
      exact hplaced.account t₀ ht₀
    · exact hacct
  · intro t ht
    rw [h.rows.2]
    rcases h.write.origin ht with ⟨t₀, ht₀, hsame⟩ | ⟨-, -, hident, -⟩
    · rw [hsame.identity_eq]
      exact hplaced.identity t₀ ht₀
    · exact hident

/-- Seeding writes no target and nothing of the directory. -/
structure OnlyCheckpoints (s s' : ReconciliationStore) : Prop where
  targets : s'.targets = s.targets
  directory : s'.directory = s.directory

variable {newId : String → String} {r : Except ReconciliationError Nat}

theorem seedAccounts_only {dueAt : Int} {accounts : List IdentityProviderAccount} {inserted : Nat}
    (h : seedAccounts newId dueAt accounts inserted s = (r, s')) : OnlyCheckpoints s s' := by
  induction accounts generalizing inserted s with
  | nil =>
    cases h
    exact ⟨rfl, rfl⟩
  | cons account accounts ih =>
    have hone : OnlyCheckpoints s (seedCheckpoint newId dueAt account inserted s).2 := by
      unfold seedCheckpoint
      split
      · exact ⟨rfl, rfl⟩
      · split <;> exact ⟨rfl, rfl⟩
    unfold seedAccounts at h
    split at h
    · next next_ s₁ hfirst =>
      rw [hfirst] at hone
      have hrest := ih h
      exact ⟨hrest.targets.trans hone.targets, hrest.directory.trans hone.directory⟩
    · next error s₁ hfirst =>
      rw [hfirst] at hone
      cases h
      exact hone

theorem seedCheckpoints_only {dueAt : Int} (h : seedCheckpoints newId dueAt s = (r, s')) :
    OnlyCheckpoints s s' := by
  unfold seedCheckpoints at h
  rcases inTransaction_cases h with ⟨count, rfl, hseeds⟩ | ⟨error, rfl, rfl⟩
  · exact seedAccounts_only hseeds
  · exact ⟨rfl, rfl⟩

theorem seeds_checkpoints (h : Relation.ReflTransGen Seeds s s')
    (hone : s.checkpoints.Unique IdentityReconciliationCheckpoint.providerAccountId) :
    s'.checkpoints.Unique IdentityReconciliationCheckpoint.providerAccountId ∧
      ∀ k ∈ s.checkpoints, k ∈ s'.checkpoints := by
  induction h with
  | refl => exact ⟨hone, fun k hk => hk⟩
  | tail _ hseed ih =>
    obtain ⟨row, -, hnew, hinsert⟩ := hseed
    refine ⟨ih.1.insert? hinsert hnew, fun k hk => ?_⟩
    exact (mem_insert? hinsert).mpr (.inr (ih.2 k hk))

theorem Placed.seeds (hplaced : Placed s) (h : Relation.ReflTransGen Seeds s s')
    (honly : OnlyCheckpoints s s') : Placed s' := by
  obtain ⟨hone, hkept⟩ := seeds_checkpoints h hplaced.one_checkpoint
  constructor
  · exact hone
  · intro t ht
    rw [honly.targets] at ht
    obtain ⟨k, hk, hkeys⟩ := hplaced.checkpoint t ht
    exact ⟨k, hkept k hk, hkeys⟩
  · rw [honly.targets, honly.directory]
    exact hplaced.account
  · rw [honly.targets, honly.directory]
    exact hplaced.identity

variable {checkpointId accountId identityId : String} {now : Int} {target : IdentityReconciliationTarget}
  {cursor : Option String} {activeSince : Int}

theorem mem_of_head?_selectOrdered {ρ : Type} {key : ρ → String} {t : Table ρ key} {p : ρ → Bool}
    {le : ρ → ρ → Bool} {limit : Nat} {r : ρ} (h : (t.selectOrdered p le limit).head? = some r) :
    r ∈ t ∧ p r = true :=
  mem_of_mem_selectOrdered (mem_of_mem_head? h)

structure DueTarget (s : ReconciliationStore) (checkpointId : String) (now : Int)
    (target : IdentityReconciliationTarget) : Prop where
  mem : target ∈ s.targets
  checkpoint : target.checkpointId = checkpointId
  pending : target.state = .pending
  due : target.nextAttemptAt ≤ now

theorem dueTarget_spec (h : s.dueTarget checkpointId now = some target) :
    DueTarget s checkpointId now target := by
  obtain ⟨hmem, hsel⟩ := mem_of_head?_selectOrdered h
  simp only [Bool.and_eq_true, beq_iff_eq, decide_eq_true_eq] at hsel
  exact ⟨hmem, hsel.1.1, hsel.1.2, hsel.2⟩

theorem targetOf_spec (h : s.targetOf accountId identityId = some target) :
    target ∈ s.targets ∧ target.providerAccountId = accountId ∧
      target.externalIdentityId = identityId := by
  have hfound := find?_some h
  simp only [Bool.and_eq_true, beq_iff_eq] at hfound
  exact ⟨mem_of_find?_eq_some h, hfound.1, hfound.2⟩

structure ScannedIdentity (s : ReconciliationStore) (account : IdentityProviderAccount)
    (cursor : Option String) (identity : ExternalIdentity) : Prop where
  mem : identity ∈ s.directory.identities
  ahead : ∀ c ∈ cursor, c < identity.id
  unpending : ∀ t ∈ s.targets, t.providerAccountId = account.id →
    t.externalIdentityId = identity.id → t.state ≠ .pending

theorem scannedIdentity_spec (h : s.scannedIdentity account cursor activeSince = some identity) :
    ScannedIdentity s account cursor identity := by
  obtain ⟨hmem, hsel⟩ := mem_of_head?_selectOrdered h
  simp only [Bool.and_eq_true, Bool.not_eq_true', Option.all_eq_true, decide_eq_true_eq]
    at hsel
  obtain ⟨⟨⟨⟨-, hahead⟩, -⟩, -⟩, hunpending⟩ := hsel
  refine ⟨hmem, hahead, ?_⟩
  intro t ht hacct hident hpend
  rw [any_eq_false] at hunpending
  apply hunpending t ht
  simp [hacct, hident, hpend]

variable {running : IdentityReconciliationCheckpoint}

@[simp] theorem setHealth_id (account : IdentityProviderAccount)
    (desired : IdentityProviderHealthState) : (account.setHealth desired).id = account.id := by
  unfold IdentityProviderAccount.setHealth
  split <;> rfl

theorem completeCycle_touched (hold : old ∈ s.checkpoints)
    (hacct : account ∈ s.directory.accounts) (hrunning : old.Follows running)
    (now cycleIntervalSeconds : Int) (pendingAttemptAt : Option Int) (allowHealthRecovery : Bool) :
    Touched old (running.completeCycle now cycleIntervalSeconds pendingAttemptAt) s
      (s.completeCycle account running now cycleIntervalSeconds pendingAttemptAt
        allowHealthRecovery) := by
  have hfollows := hrunning.trans
    (completeCycle_follows running now cycleIntervalSeconds pendingAttemptAt)
  constructor
  · exact hold
  · exact hfollows.id_eq
  · exact hfollows.account_eq
  · rfl
  · exact TargetWrite.kept rfl
  · apply sameRows_putAccount hacct
    split
    · exact setHealth_id account .healthy
    · rfl

theorem putTarget_touched {before after : IdentityReconciliationTarget} (hold : old ∈ s.checkpoints)
    (hkeys : new.id = old.id ∧ new.providerAccountId = old.providerAccountId)
    (hbefore : before ∈ s.targets)
    (hown : before.checkpointId = old.id ∨ before.providerAccountId = old.providerAccountId)
    (hsame : SameTarget before after) :
    Touched old new s ((s.putTarget after).putCheckpoint new) :=
  ⟨hold, hkeys.1, hkeys.2, rfl, TargetWrite.updated hbefore hown hsame rfl, SameRows.refl s⟩

theorem IdentityReconciliationCheckpoint.Follows.keys (h : old.Follows new) :
    new.id = old.id ∧ new.providerAccountId = old.providerAccountId :=
  ⟨h.id_eq, h.account_eq⟩

theorem leasedCheckpoint_keys (request : ClaimRequest) (session : ClaimSession)
    (old : IdentityReconciliationCheckpoint) :
    (leasedCheckpoint request session old).id = old.id ∧
      (leasedCheckpoint request session old).providerAccountId = old.providerAccountId := by
  have hstart := startCycle_follows old session.eligibilityNow
  exact ⟨(advanceNextRun_follows _ _).id_eq.trans hstart.id_eq,
    (advanceNextRun_follows _ _).account_eq.trans hstart.account_eq⟩

variable {session : ClaimSession}

theorem ClaimCase.touched {request : ClaimRequest}
    {reply : Option ReconciliationLease} (h : ClaimCase checkpointId request session s reply s') :
    s' = s ∨ ∃ old new, s.checkpoints.get? checkpointId = some old ∧ Touched old new s s' := by
  cases h with
  | idle => exact .inl rfl
  | @closed old account hold hacct =>
    exact .inr ⟨old, _, hold, completeCycle_touched (mem_of_get? hold)
      (mem_of_get? hacct) (Follows.refl old) _ _ _ _⟩
  | @exhausted old account hreached =>
    exact .inr ⟨old, _, hreached.checkpoint,
      completeCycle_touched (mem_of_get? hreached.checkpoint)
        (mem_of_get? hreached.account) (startCycle_follows old _) _ _ _ _⟩
  | @failed old _ _ _ hreached hdue | @unseen old _ _ _ hreached hdue =>
    have htarget := dueTarget_spec hdue
    refine .inr ⟨old, _, hreached.checkpoint,
      putTarget_touched (mem_of_get? hreached.checkpoint) ?_ htarget.mem
        (.inl htarget.checkpoint) ⟨rfl, rfl, rfl, rfl⟩⟩
    apply IdentityReconciliationCheckpoint.Follows.keys
    apply Follows.release
    exact (startCycle_follows old _).trans ⟨rfl, rfl, le_rfl, rfl, .inl ⟨rfl, rfl⟩⟩
  | @pending old account target identity lease hreached hdue hident _ =>
    have htarget := dueTarget_spec hdue
    refine .inr ⟨old, _, hreached.checkpoint,
      putTarget_touched (mem_of_get? hreached.checkpoint)
        (leasedCheckpoint_keys request session old) htarget.mem (.inl htarget.checkpoint) ?_⟩
    unfold IdentityReconciliationTarget.fenced IdentityReconciliationTarget.refresh
    split <;> exact ⟨rfl, rfl, rfl, rfl⟩
  | @scanned old account identity lease targets hreached _ hscan _ hinsert _ =>
    refine .inr ⟨old, _, hreached.checkpoint, mem_of_get? hreached.checkpoint,
      (leasedCheckpoint_keys request session old).1,
      (leasedCheckpoint_keys request session old).2, rfl, ?_, SameRows.refl s⟩
    have hacct : account.id = old.providerAccountId := key_of_get? hreached.account
    refine TargetWrite.created rfl hacct ?_ ?_ hinsert
    · show (s.directory.identities.get? identity.id).isSome = true
      rw [get?_of_mem (scannedIdentity_spec hscan).mem]
      rfl
    · show (s.directory.accounts.get? account.id).isSome = true
      rw [get?_of_mem (mem_of_get? hreached.account)]
      rfl
  | @renewed old account target identity lease hreached _ hscan htargeted _ =>
    obtain ⟨hmem, hacct, -⟩ := targetOf_spec htargeted
    exact .inr ⟨old, _, hreached.checkpoint,
      putTarget_touched (mem_of_get? hreached.checkpoint)
        (leasedCheckpoint_keys request session old) hmem
        (.inr (hacct.trans (key_of_get? hreached.account))) ⟨rfl, rfl, rfl, rfl⟩⟩

variable {request : ApplyRequest}

theorem leasedTarget_spec
    (h : s.leasedTarget request old = some target) :
    target ∈ s.targets ∧ target.checkpointId = old.id := by
  unfold ReconciliationStore.leasedTarget at h
  rw [Option.filter_eq_some_iff, beq_iff_eq] at h
  exact ⟨mem_of_get? h.1, h.2⟩

theorem floor_follows (request : ApplyRequest) (now : Int) (old : IdentityReconciliationCheckpoint) :
    old.Follows (request.floor now old) :=
  advanceNextRun_follows old (now + request.probeInterval)

theorem rejectFence_touched (hold : old ∈ s.checkpoints) :
    Touched old ((request.floor now old).rejectFence now) s
      (s.rejectFence (request.floor now old) (s.leasedTarget request old) now) := by
  have hkeys := ((floor_follows request now old).trans (rejectFence_follows _ now)).keys
  unfold ReconciliationStore.rejectFence
  cases htarget : s.leasedTarget request old with
  | none => exact ⟨hold, hkeys.1, hkeys.2, rfl, TargetWrite.kept rfl, SameRows.refl s⟩
  | some target =>
    obtain ⟨hmem, hown⟩ := leasedTarget_spec htarget
    have hsame : SameTarget target (target.finish now true
        (some ReconciliationErrorCode.fenceConflict.value)) := ⟨rfl, rfl, rfl, rfl⟩
    exact ⟨hold, hkeys.1, hkeys.2, rfl, TargetWrite.updated hmem (.inl hown) hsame rfl,
      SameRows.refl s⟩

theorem putObserved_touched {rows rows' : ObservedRows} (hold : old ∈ s.checkpoints)
    (hacct : rows.account ∈ s.directory.accounts)
    (hident : rows.identity ∈ s.directory.identities) (htarget : rows.target ∈ s.targets)
    (hown : rows.target.checkpointId = old.id) (hrunning : old.Follows rows.checkpoint)
    (hkept : rows.Kept rows') : Touched old rows'.checkpoint s (s.putObserved rows') := by
  have haccountId : rows'.account.id = rows.account.id := by
    rcases hkept.account with hsame | ⟨desired, hset⟩
    · rw [hsame]
    · rw [hset, setHealth_id]
  constructor
  · exact hold
  · exact hkept.checkpoint_id.trans hrunning.id_eq
  · exact hkept.checkpoint_account.trans hrunning.account_eq
  · rfl
  · exact TargetWrite.updated htarget (.inl hown) ⟨hkept.target_id, hkept.target_checkpoint,
      hkept.target_account, hkept.target_identity⟩ rfl
  · have haccounts := sameRows_putAccount hacct haccountId
    have hidents := sameRows_putIdentity hident hkept.identity_id
    exact ⟨haccounts.1, hidents.2⟩

theorem ApplyCase.touched {result : ReconciliationApplyResult}
    (h : ApplyCase request now s result s') :
    s' = s ∨ ∃ old new, s.checkpoints.get? request.lease.checkpointId = some old ∧
      Touched old new s s' := by
  cases h with
  | idle _ => exact .inl rfl
  | @closed old account hmatched =>
    exact .inr ⟨old, _, hmatched.checkpoint,
      completeCycle_touched (mem_of_get? hmatched.checkpoint)
        (mem_of_get? hmatched.account) (floor_follows request now old) _ _ _ _⟩
  | @rejected old account hmatched =>
    exact .inr ⟨old, _, hmatched.checkpoint,
      rejectFence_touched (mem_of_get? hmatched.checkpoint)⟩
  | @moved old account target identity hmatched hfenced =>
    have hkeys := ((floor_follows request now old).trans
      (finishTarget_follows _ identity.id now)).keys
    exact .inr ⟨old, _, hmatched.checkpoint,
      putTarget_touched (mem_of_get? hmatched.checkpoint) hkeys
        (mem_of_get? hfenced.target_eq) (.inl hfenced.checkpoint) ⟨rfl, rfl, rfl, rfl⟩⟩
  | @observed old account target identity result rows hmatched hfenced _ _ hobs =>
    obtain ⟨hkept, -⟩ := applyObservation_case hobs
    exact .inr ⟨old, _, hmatched.checkpoint,
      putObserved_touched (mem_of_get? hmatched.checkpoint) (mem_of_get? hmatched.account)
        (mem_of_get? hfenced.identity_eq) (mem_of_get? hfenced.target_eq)
        hfenced.checkpoint (floor_follows request now old) hkept⟩

theorem checkpoint_of_put {written : IdentityReconciliationCheckpoint}
    (hold : s.checkpoints.get? checkpointId = some old) (hid : written.id = old.id)
    (hput : s'.checkpoints = s.checkpoints.put written)
    (hnew : s'.checkpoints.get? checkpointId = some new) : new = written := by
  have hwritten := get?_put_self (mem_of_get? hold) hid
  rw [hput] at hnew
  rw [hid, key_of_get? hold, hnew] at hwritten
  exact Option.some.inj hwritten

theorem Reached.same {request : ClaimRequest}
    (h : Reached checkpointId request session s k account)
    (hold : s.checkpoints.get? checkpointId = some old) : old = k :=
  Option.some.inj (hold.symm.trans h.checkpoint)

theorem Matched.same (h : Matched request now s k account)
    (hold : s.checkpoints.get? request.lease.checkpointId = some old) : old = k :=
  Option.some.inj (hold.symm.trans h.checkpoint)

theorem startCycle_of_running (hrunning : old.cycleStartedAt ≠ none) (now : Int) :
    old.startCycle now = old :=
  if_neg hrunning

theorem leasedCheckpoint_cycle (request : ClaimRequest) (session : ClaimSession)
    (old : IdentityReconciliationCheckpoint) :
    SameCycle (old.startCycle session.eligibilityNow) (leasedCheckpoint request session old) :=
  ⟨(advanceNextRun_cycle _ _).started, (advanceNextRun_cycle _ _).cursor, (advanceNextRun_cycle _ _).tightened⟩

/-! ### Every run -/

inductive StepCase (s : ReconciliationStore) (e : ReconciliationEvent) (s' : ReconciliationStore) :
    Prop
  | seeded (newId : String → String) (dueAt : Int) (call : e.call = .seedCheckpoints newId dueAt)
      (seeds : Relation.ReflTransGen Seeds s s') (only : OnlyCheckpoints s s')
  | refused (grant : e.grant = none) (answer : ∀ result, e.reply ≠ .applied (.ok result))
      (same : s' = s)
  | claimed (checkpointId : String) (request : ClaimRequest) (session : ClaimSession)
      (reply : Option ReconciliationLease) (call : e.call = .claimNext checkpointId request session)
      (reply_eq : e.reply = .claimed (.ok reply))
      (claim : ClaimCase checkpointId request session s reply s')
  | applied (request : ApplyRequest) (now : Int) (result : ReconciliationApplyResult)
      (call : e.call = .apply request now) (reply_eq : e.reply = .applied (.ok result))
      (apply_ : ApplyCase request now s result s')
  | written (directory : IdentityDirectory) (call : e.call = .directory directory)
      (same : s' = { s with directory := directory })

variable {e : ReconciliationEvent}

@[simp] theorem runReconciliationCall_call (call : ReconciliationCall) (s : ReconciliationStore) :
    (runReconciliationCall call s).1.call = call := by
  cases call <;> rfl

theorem reconciliationStep_case (h : reconciliationStep s e s') : StepCase s e s' := by
  obtain ⟨call, reply⟩ := e
  cases call with
  | seedCheckpoints newId dueAt =>
    cases h
    exact StepCase.seeded newId dueAt rfl (seedCheckpoints_seeds rfl) (seedCheckpoints_only rfl)
  | claimNext checkpointId request session =>
    cases h
    have hclaim : claimNext checkpointId request session s
        = ((claimNext checkpointId request session s).1,
          (claimNext checkpointId request session s).2) := rfl
    rcases claimNext_case hclaim with ⟨error, hreply, hsame⟩ | ⟨reply, hreply, hcase⟩
    · rw [hreply]
      exact StepCase.refused rfl (fun result hresult => by cases hresult) hsame
    · rw [hreply]
      exact StepCase.claimed checkpointId request session reply rfl rfl hcase
  | apply request now =>
    cases h
    have happly : apply request now s = ((apply request now s).1, (apply request now s).2) := rfl
    rcases apply_case happly with ⟨error, hreply, hsame⟩ | ⟨result, hreply, hcase, -⟩
    · rw [hreply]
      exact StepCase.refused rfl (fun result hresult => by cases hresult) hsame
    · rw [hreply]
      exact StepCase.applied request now result rfl rfl hcase
  | directory directory =>
    cases h
    exact StepCase.written directory rfl rfl

theorem restrictedStep_placed (hplaced : Placed s) (h : restrictedStep s e s') : Placed s' := by
  obtain ⟨hrestricted, hstep⟩ := h
  cases reconciliationStep_case hstep with
  | seeded _ _ _ hseeds honly => exact hplaced.seeds hseeds honly
  | refused _ _ hsame => rwa [hsame]
  | claimed _ _ _ _ _ _ hclaim =>
    rcases hclaim.touched with rfl | ⟨old, new, -, htouched⟩
    · exact hplaced
    · exact hplaced.touched htouched
  | applied _ _ _ _ _ happly =>
    rcases happly.touched with rfl | ⟨old, new, -, htouched⟩
    · exact hplaced
    · exact hplaced.touched htouched
  | written directory hcall hsame =>
    subst hsame
    rw [hcall] at hrestricted
    simp only [ReconciliationCall.restricted, ReconciliationStore.restricts, all_eq_true,
      Bool.and_eq_true] at hrestricted
    constructor
    · exact hplaced.one_checkpoint
    · exact hplaced.checkpoint
    · exact fun t ht => (hrestricted t ht).1
    · exact fun t ht => (hrestricted t ht).2

theorem restrictedRun_placed {hist : List ReconciliationEvent} (hplaced : Placed s)
    (hrun : Run restrictedStep s hist s') : Placed s' :=
  Run.invariant hplaced (fun _ _ _ h hstep => restrictedStep_placed h hstep) hrun

end MultiRag.IdentityReconciliation
