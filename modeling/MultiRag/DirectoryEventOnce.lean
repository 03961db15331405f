/-
  **Directory events take effect once, and only in one direction.**

  The receipt of an event is claimed and finished in the transaction that applies the
  event, and no transaction removes or rewrites it.
-/
import MultiRag.DirectoryEventProgress

namespace MultiRag.DirectoryEvents

open IdentityReconciliation (ExternalIdentityState)

/-! ### Deliveries and receipts -/

def Delivery.locked (d : Delivery) : Option IdentityProviderAccount :=
  d.channelId.bind (fun channelId =>
    match lockAuthority d.before d.command channelId with
    | .ok account => account
    | .error _ => none)

def Delivery.event (d : Delivery) : Option (String × DirectoryEventType × String) :=
  d.locked.map (fun account => (account.id, d.command.eventType, d.command.eventId))

def Delivery.hash (sha256 : String → String) (d : Delivery) : String :=
  canonicalDirectoryEventHash sha256 d.command

/-- Between transactions no event has two receipts, and none is being processed. -/
structure Settled (s : DirectoryStore) : Prop where
  unique : s.receipts.Unique IdentityEventReceipt.key
  finished : ∀ receipt ∈ s.receipts, receipt.processingState ≠ .processing

def IdentityEventReceipt.storedFailure (receipt : IdentityEventReceipt) : DirectoryEventErrorCode :=
  (DirectoryEventErrorCode.ofValue (receipt.errorCode.getD "")).getD .receiptFailed

def Reports (receipt : IdentityEventReceipt) (hash : String) (r : DirectoryEventProcessingResult) :
    Prop :=
  (receipt.eventHash ≠ hash → r.outcome = .failed ∧ r.errorCode = some .replayConflict) ∧
  (receipt.eventHash = hash → receipt.processingState = .succeeded →
    r.outcome = .duplicate ∧ r.errorCode = none) ∧
  (receipt.eventHash = hash → receipt.processingState = .failed →
    r.outcome = .failed ∧ r.errorCode = some receipt.storedFailure)

/-- A receipt that keeps the result of the delivery that claimed it. -/
def Records (receipt : IdentityEventReceipt) (r : DirectoryEventProcessingResult) : Prop :=
  (receipt.processingState = .succeeded ∧ (r.outcome = .applied ∨ r.outcome = .stale)) ∨
  (receipt.processingState = .failed ∧ r.outcome = .failed ∧
    r.errorCode = some receipt.storedFailure)

/-- The delivery applied its event to the account, or found a conflict that no
    receipt had recorded. -/
def Delivery.Bumps (d : Delivery) (account : IdentityProviderAccount) : Prop :=
  d.locked = some account ∧ ∃ r, d.result = .ok r ∧
    (r.outcome = .applied ∨
      (r.outcome = .failed ∧ r.errorCode = some .identityConflict ∧
        d.before.receiptOf (receiptKey account d.command) = none))

variable {sha256 : String → String} {s s' : DirectoryStore} {d : Delivery}
  {account : IdentityProviderAccount} {receipt : IdentityEventReceipt}

theorem existingReceiptResult_reports (hfin : receipt.processingState ≠ .processing)
    (hash : String) (account : IdentityProviderAccount) :
    Reports receipt hash (existingReceiptResult receipt hash account) := by
  unfold Reports existingReceiptResult
  by_cases hhash : receipt.eventHash = hash
  · cases hstate : receipt.processingState with
    | processing => exact absurd hstate hfin
    | succeeded => simp [hhash]
    | failed => simp [hhash, IdentityEventReceipt.storedFailure]
  · simp [hhash]

theorem receiptOf_of_mem (hsettled : Settled s) (hmem : receipt ∈ s.receipts) :
    s.receiptOf receipt.key = some receipt := by
  cases hfound : s.receiptOf receipt.key with
  | none => exact absurd rfl (receiptOf_eq_none.mp hfound receipt hmem)
  | some found =>
    obtain ⟨hmem', hkey⟩ := mem_of_receiptOf hfound
    rw [hsettled.unique found hmem' receipt hmem hkey]

variable {channelId : String}

theorem locked_eq_some (hchan : d.channelId = some channelId) :
    d.locked = some account ↔ lockAuthority d.before d.command channelId = .ok (some account) := by
  unfold Delivery.locked
  rw [hchan, Option.bind_some]
  cases lockAuthority d.before d.command channelId with
  | error error => simp
  | ok found => simp

theorem process_known (hlocked : lockAuthority s d.command channelId = .ok (some account))
    (hpresent : d.command.eventAt ≤ d.now + maxEventSkew)
    (hfound : s.receiptOf (receiptKey account d.command) = some receipt) :
    process sha256 d.command (some channelId) d.newId d.now s =
      (.ok (existingReceiptResult receipt (d.hash sha256) account), s) := by
  unfold process inTransaction processLocked claimReceipt Delivery.hash
  simp only [hlocked, hfound, if_neg (not_lt.mpr hpresent)]

/-! ### The receipt of a delivery that writes -/

structure Recorded (sha256 : String → String) (d : Delivery) (account : IdentityProviderAccount)
    (receipt : IdentityEventReceipt) (r : DirectoryEventProcessingResult) : Prop where
  locked : d.locked = some account
  fresh : d.before.receiptOf (receiptKey account d.command) = none
  key : receipt.key = receiptKey account d.command
  hash : receipt.eventHash = d.hash sha256
  result : d.result = .ok r
  records : Records receipt r
  receipts : ∀ x, x ∈ d.after.receipts ↔ x = receipt ∨ x ∈ d.before.receipts

variable {r : DirectoryEventProcessingResult}

theorem Claimed.recorded {receipts} {identityId : Option String} {state : ReceiptState}
    {error : Option DirectoryEventErrorCode}
    (h : Claimed sha256 d.command channelId d.newId d.now d.before account receipts)
    (hchan : d.channelId = some channelId) (hresult : d.result = .ok r)
    (hafter : d.after.receipts =
      receipts.put (finished sha256 d.command d.newId d.now account identityId state error))
    (hrecords : Records (finished sha256 d.command d.newId d.now account identityId state error) r) :
    Recorded sha256 d account
      (finished sha256 d.command d.newId d.now account identityId state error) r where
  locked := (locked_eq_some hchan).mpr h.locked
  fresh := h.fresh
  key := rfl
  hash := rfl
  result := hresult
  records := hrecords
  receipts := by
    intro x
    rw [hafter]
    exact h.mem_put

theorem Delivered.recorded (h : Delivered sha256 s d s') :
    d.after = d.before ∨ ∃ account receipt r, Recorded sha256 d account receipt r := by
  have hcases := h.cases
  obtain ⟨rfl, rfl, -⟩ := h
  rcases hcases with ⟨-, -, hsame⟩ | ⟨channelId, hchan, hcase⟩
  · exact .inl hsame
  · generalize hresult : d.result = result at hcase
    generalize hafter : d.after = after at hcase
    cases hcase with
    | raised error => exact .inl rfl
    | noLink locked => exact .inl rfl
    | known locked present found => exact .inl rfl
    | staleScope claimed scope older | staleIdentity claimed resolved older =>
      exact .inr ⟨_, _, _, claimed.recorded hchan hresult (by rw [hafter])
        (.inl ⟨rfl, .inr rfl⟩)⟩
    | conflict claimed recent resolved =>
      exact .inr ⟨_, _, _, claimed.recorded hchan hresult (by rw [hafter])
        (.inr ⟨rfl, rfl, rfl⟩)⟩
    | unknown claimed recent resolved | applied claimed recent resolved newest =>
      exact .inr ⟨_, _, _, claimed.recorded hchan hresult (by rw [hafter])
        (.inl ⟨rfl, .inl rfl⟩)⟩

theorem Records.finished (h : Records receipt r) :
    receipt.processingState ≠ .processing := by
  rcases h with ⟨hstate, -⟩ | ⟨hstate, -⟩
  · simp [hstate]
  · simp [hstate]

theorem Settled.step (hsettled : Settled s) (h : Delivered sha256 s d s') : Settled s' := by
  have hrec := h.recorded
  obtain ⟨rfl, rfl, -⟩ := h
  rcases hrec with hsame | ⟨account, receipt, r, hrec⟩
  · rw [hsame]
    exact hsettled
  · have hnew : ∀ x ∈ d.before.receipts, x.key ≠ receipt.key := by
      rw [hrec.key]
      exact receiptOf_eq_none.mp hrec.fresh
    constructor
    · intro a ha b hb heq
      rcases (hrec.receipts a).mp ha with rfl | hold
      · rcases (hrec.receipts b).mp hb with rfl | hold'
        · rfl
        · exact absurd heq.symm (hnew b hold')
      · rcases (hrec.receipts b).mp hb with rfl | hold'
        · exact absurd heq (hnew a hold)
        · exact hsettled.unique a hold b hold' heq
    · intro x hx
      rcases (hrec.receipts x).mp hx with rfl | hold
      · exact hrec.records.finished
      · exact hsettled.finished x hold

variable {s₀ : DirectoryStore} {hist : List Delivery}

theorem settled_of_run (hstart : Settled s₀)
    (hrun : Run (Delivered sha256) s₀ hist s) : Settled s :=
  Run.invariant hstart (fun _ _ _ => Settled.step) hrun

theorem Delivered.known (hsettled : Settled s) (h : Delivered sha256 s d s')
    (hlocked : d.locked = some account) (hmem : receipt ∈ s.receipts)
    (hkey : receipt.key = receiptKey account d.command) :
    s' = s ∧ ∀ r, d.result = .ok r → Reports receipt (d.hash sha256) r := by
  have hcases := h.cases
  obtain ⟨rfl, rfl, -⟩ := h
  have hfound : d.before.receiptOf (receiptKey account d.command) = some receipt := by
    rw [← hkey]
    exact receiptOf_of_mem hsettled hmem
  rcases hcases with ⟨hresult, hchan, -⟩ | ⟨channelId, hchan, hcase⟩
  · simp [Delivery.locked, hchan] at hlocked
  · rw [locked_eq_some hchan] at hlocked
    generalize hresult : d.result = result at hcase
    -- a claim would need an event without a receipt
    have hclaimed : ∀ {account' receipts},
        ¬ Claimed sha256 d.command channelId d.newId d.now d.before account' receipts := by
      intro account' receipts hclaimed
      have hacct : account' = account := by simpa [hlocked, eq_comm] using hclaimed.locked
      rw [hacct] at hclaimed
      simp [hclaimed.fresh] at hfound
    generalize hafter : d.after = after at hcase
    cases hcase with
    | raised error => exact ⟨rfl, fun r hr => by cases hr⟩
    | noLink locked => rw [hlocked] at locked; cases locked
    | known locked present found =>
      refine ⟨rfl, fun r hr => ?_⟩
      rw [hlocked] at locked
      cases locked
      rw [hfound] at found
      cases found
      cases hr
      exact existingReceiptResult_reports (hsettled.finished receipt hmem) _ _
    | staleScope claimed scope older => exact absurd claimed hclaimed
    | conflict claimed recent resolved => exact absurd claimed hclaimed
    | unknown claimed recent resolved => exact absurd claimed hclaimed
    | staleIdentity claimed resolved older => exact absurd claimed hclaimed
    | applied claimed recent resolved newest => exact absurd claimed hclaimed

theorem Claimed.revision {receipts} {locked : IdentityProviderAccount}
    (hclaimed : Claimed sha256 d.command channelId d.newId d.now d.before locked receipts)
    (hbumps : d.Bumps locked) (hmem : account ∈ d.before.accounts) :
    ∃ account' ∈ d.before.accounts.put (locked.bump d.command), account'.id = account.id ∧
      (d.Bumps account → account'.identityRevision = account.identityRevision + 1) ∧
      (¬ d.Bumps account → account' = account) := by
  have hlocked : locked ∈ d.before.accounts := mem_of_lockAuthority hclaimed.locked
  have hput : ∀ x, x ∈ d.before.accounts.put (locked.bump d.command) ↔
      x = locked.bump d.command ∨ (x ∈ d.before.accounts ∧ x.id ≠ locked.id) :=
    fun x => Table.mem_put_of_mem hlocked rfl
  by_cases hid : account.id = locked.id
  · obtain rfl := Table.eq_of_key hmem hlocked hid
    exact ⟨account.bump d.command, (hput _).mpr (.inl rfl), rfl, fun _ => rfl,
      fun hnot => absurd hbumps hnot⟩
  · refine ⟨account, (hput _).mpr (.inr ⟨hmem, hid⟩), rfl, ?_, fun _ => rfl⟩
    rintro ⟨hother, -⟩
    have heq : some account = some locked := hother.symm.trans hbumps.1
    cases heq
    exact absurd rfl hid

theorem Delivered.revision (h : Delivered sha256 s d s') (hmem : account ∈ s.accounts) :
    ∃ account' ∈ s'.accounts, account'.id = account.id ∧
      (d.Bumps account → account'.identityRevision = account.identityRevision + 1) ∧
      (¬ d.Bumps account → account' = account) := by
  have hcases := h.cases
  obtain ⟨rfl, rfl, -⟩ := h
  have hsame (hquiet : ¬ d.Bumps account) :
      ∃ account' ∈ d.before.accounts, account'.id = account.id ∧
        (d.Bumps account → account'.identityRevision = account.identityRevision + 1) ∧
        (¬ d.Bumps account → account' = account) :=
    ⟨account, hmem, rfl, fun hbumps => absurd hbumps hquiet, fun _ => rfl⟩
  rcases hcases with ⟨hresult, -, hafter⟩ | ⟨channelId, hchan, hcase⟩
  · rw [hafter]
    apply hsame
    rintro ⟨-, r, hr, -⟩
    rw [hresult] at hr
    cases hr
  · generalize hresult : d.result = result at hcase
    generalize hafter : d.after = after at hcase
    cases hcase with
    | raised error =>
      apply hsame
      rintro ⟨-, r, hr, -⟩
      rw [hresult] at hr
      cases hr
    | noLink locked =>
      apply hsame
      rintro ⟨-, r, hr, hout⟩
      rw [hresult] at hr
      cases hr
      simp at hout
    | @known locked receipt hlocked present found =>
      apply hsame
      rintro ⟨hother, r, hr, hout⟩
      rw [(locked_eq_some hchan).mpr hlocked] at hother
      cases hother
      rw [hresult] at hr
      cases hr
      rw [found] at hout
      unfold existingReceiptResult at hout
      split at hout
      · simp at hout
      · split at hout <;> simp at hout
    | staleScope claimed scope older | staleIdentity claimed resolved older =>
      apply hsame
      rintro ⟨-, r, hr, hout⟩
      rw [hresult] at hr
      cases hr
      simp [staleResult] at hout
    | conflict claimed recent resolved =>
      exact claimed.revision ⟨(locked_eq_some hchan).mpr claimed.locked, _, hresult,
        .inr ⟨rfl, rfl, claimed.fresh⟩⟩ hmem
    | unknown claimed recent resolved | applied claimed recent resolved newest =>
      exact claimed.revision ⟨(locked_eq_some hchan).mpr claimed.locked, _, hresult,
        .inl rfl⟩ hmem

/-! ### Two deliveries of one event -/

/-- What a later delivery of an event does after one that changed the store. -/
structure Redelivered (sha256 : String → String) (earlier later : Delivery) : Prop where
  unchanged : later.after = later.before
  reported : ∀ r, later.result = .ok r → ∃ e, earlier.result = .ok e ∧
    (later.hash sha256 ≠ earlier.hash sha256 →
      r.outcome = .failed ∧ r.errorCode = some .replayConflict) ∧
    (later.hash sha256 = earlier.hash sha256 →
      ((e.outcome = .applied ∨ e.outcome = .stale) ∧ r.outcome = .duplicate ∧ r.errorCode = none) ∨
      (e.outcome = .failed ∧ r.outcome = .failed ∧ r.errorCode = e.errorCode))
  answered : later.command = earlier.command → earlier.now ≤ later.now →
    ∃ r, later.result = .ok r

theorem Delivered.present (h : Delivered sha256 s d s') (hchanged : d.after ≠ d.before) :
    d.command.eventAt ≤ d.now + maxEventSkew := by
  have hcases := h.cases
  obtain ⟨rfl, rfl, -⟩ := h
  rcases hcases with ⟨-, -, hsame⟩ | ⟨channelId, -, hcase⟩
  · exact absurd hsame hchanged
  · generalize d.after = after at hcase hchanged
    generalize d.result = result at hcase
    cases hcase with
    | raised error => exact absurd rfl hchanged
    | noLink locked => exact absurd rfl hchanged
    | known locked present found => exact present
    | staleScope claimed scope older => exact claimed.present
    | conflict claimed recent resolved => exact claimed.present
    | unknown claimed recent resolved => exact claimed.present
    | staleIdentity claimed resolved older => exact claimed.present
    | applied claimed recent resolved newest => exact claimed.present

theorem exists_channelId_of_locked (h : d.locked = some account) :
    ∃ channelId, d.channelId = some channelId ∧
      lockAuthority d.before d.command channelId = .ok (some account) := by
  cases hchan : d.channelId with
  | none => simp [Delivery.locked, hchan] at h
  | some channelId => exact ⟨channelId, rfl, (locked_eq_some hchan).mp h⟩

theorem redelivered_of_recorded {earlier later : Delivery} {a b : DirectoryStore}
    (hearlier : Delivered sha256 a earlier b)
    (hrec : Recorded sha256 earlier account receipt r)
    (hchanged : earlier.after ≠ earlier.before) (hprog : Progress b s) (hsettled : Settled s)
    (hlater : Delivered sha256 s later s') (hevent : later.event = earlier.event) :
    Redelivered sha256 earlier later := by
  have hpresent := hearlier.present hchanged
  have hbefore : later.before = s := hlater.1
  have hbetween : Progress earlier.before s := by
    have hstep := hearlier.progress
    obtain ⟨rfl, rfl, -⟩ := hearlier
    exact hstep.trans hprog
  have hmem : receipt ∈ s.receipts := by
    apply hprog.receipts
    rw [← hearlier.2.1]
    exact (hrec.receipts receipt).mpr (.inl rfl)
  -- the later delivery locks the same account, so its event has the receipt
  obtain ⟨account', hlocked', hids⟩ : ∃ account', later.locked = some account' ∧
      (account'.id, later.command.eventType, later.command.eventId) =
        (account.id, earlier.command.eventType, earlier.command.eventId) := by
    unfold Delivery.event at hevent
    rw [hrec.locked] at hevent
    exact Option.map_eq_some_iff.mp hevent
  simp only [Prod.mk.injEq] at hids
  obtain ⟨channelId, hchan, hauthority⟩ := exists_channelId_of_locked hrec.locked
  obtain ⟨advanced, hadvanced, hadvance⟩ :=
    hbetween.accounts.exists_of_mem (mem_of_lockAuthority hauthority)
  obtain ⟨channelId', hchan', hauthority'⟩ := exists_channelId_of_locked hlocked'
  have hacct' : account' ∈ s.accounts := by
    rw [← hbefore]
    exact mem_of_lockAuthority hauthority'
  obtain rfl := Table.eq_of_key hacct' hadvanced (hids.1.trans hadvance.id_eq.symm)
  have hkey : receipt.key = receiptKey account' later.command := by
    rw [hrec.key, hadvance.receiptKey_eq]
    simp [receiptKey, hids.2.1, hids.2.2]
  obtain ⟨hsame, hreports⟩ := hlater.known hsettled hlocked' hmem hkey
  refine ⟨?_, ?_, ?_⟩
  · rw [hlater.2.1, hbefore, hsame]
  · intro answer hanswer
    obtain ⟨hconfl, hduplicate, hfailed⟩ := hreports answer hanswer
    rw [hrec.hash] at hconfl hduplicate hfailed
    refine ⟨r, hrec.result, fun hne => hconfl (Ne.symm hne), fun heq => ?_⟩
    rcases hrec.records with ⟨hstate, hout⟩ | ⟨hstate, hout, herror⟩
    · exact .inl ⟨hout, hduplicate heq.symm hstate⟩
    · rw [herror]
      exact .inr ⟨hout, hfailed heq.symm hstate⟩
  · intro hcmd hnow
    have hfound : s.receiptOf (receiptKey account' later.command) = some receipt := by
      rw [← hkey]
      exact receiptOf_of_mem hsettled hmem
    have hknown := @process_known sha256 s later account' receipt channelId'
      (by rw [← hbefore]; exact hauthority')
      (by rw [hcmd]; exact le_trans hpresent (by omega)) hfound
    have hran := hlater.2.2
    rw [hchan', hknown] at hran
    exact ⟨_, (Prod.mk.inj hran).1.symm⟩

theorem event_of_repeated {earlier later : Delivery} (hlocked : earlier.locked = some account)
    (hprog : Progress earlier.before later.before) (hcmd : later.command = earlier.command)
    (hchan : later.channelId = earlier.channelId) : later.event = earlier.event := by
  obtain ⟨channelId, hsome, hauthority⟩ := exists_channelId_of_locked hlocked
  obtain ⟨account', hauthority', hadvance⟩ := lockAuthority_progress hprog hauthority
  rw [← hcmd] at hauthority'
  have hlocked' := (locked_eq_some (hchan.trans hsome)).mpr hauthority'
  unfold Delivery.event
  rw [hlocked, hlocked', hcmd]
  simp [hadvance.id_eq]

theorem once_of_run
    (hstart : Settled s₀) (hrun : Run (Delivered sha256) s₀ hist s) :
    hist.Pairwise (fun later earlier => earlier.after ≠ earlier.before →
      later.event = earlier.event ∨
        (later.command = earlier.command ∧ later.channelId = earlier.channelId) →
      Redelivered sha256 earlier later) := by
  induction hrun with
  | nil => exact List.Pairwise.nil
  | @cons hist b c later hprev hlater ih =>
    refine List.pairwise_cons.mpr ⟨?_, ih⟩
    intro earlier hmem hchanged hsame
    obtain ⟨newer, older, rfl⟩ := List.append_of_mem hmem
    obtain ⟨a, a', hbefore, hearlier, hbetween⟩ := hprev.split
    rcases hearlier.recorded with hquiet | ⟨account, receipt, r, hrec⟩
    · exact absurd hquiet hchanged
    have hevent : later.event = earlier.event := by
      rcases hsame with hevent | ⟨hcmd, hchan⟩
      · exact hevent
      · have hprog : Progress earlier.before later.before := by
          rw [hearlier.1, hlater.1]
          exact hearlier.progress.trans (progress_of_run hbetween)
        exact event_of_repeated hrec.locked hprog hcmd hchan
    exact redelivered_of_recorded hearlier hrec hchanged (progress_of_run hbetween)
      (settled_of_run hstart hprev) hlater hevent

def sampleStore : DirectoryStore where
  authority :=
    { channels := ⟨[⟨"channel", "tenant", "feishu", 1⟩], by decide⟩
      tenants := ⟨[⟨"tenant", "1"⟩], by decide⟩
      providerTenants := ⟨[⟨"scope", "tenant", "feishu", "org"⟩], by decide⟩
      links := ⟨[⟨"link", "tenant", "feishu", "account", "channel"⟩], by decide⟩
      bindings := ⟨[⟨"binding", "channel", true, 1⟩], by decide⟩
      aliases := ⟨[⟨"alias", "tenant", "user", "feishu", "org", "app", "open_id", "ou"⟩], by decide⟩ }
  accounts := ⟨[⟨"account", "tenant", "feishu", "org", "app", 1, .healthy, none, none⟩], by decide⟩
  identities := ⟨[⟨"user", "tenant", "feishu", "org", "user_id", "u", .active, none, none, 1⟩],
    by decide⟩
  receipts := Table.empty

def sampleCommand (eventType : DirectoryEventType) (eventId : String) (eventAt : Int)
    (status : DirectoryStatus) : CommandFields :=
  ⟨"binding", 1, eventType, eventId, eventAt, "app", "org", [⟨.openId, "ou"⟩], some status⟩

def sampleCall (command : CommandFields) (newId : String) : DeliveryCall :=
  ⟨command, some "channel", newId, 10⟩

def sampleCalls : List DeliveryCall :=
  [sampleCall (sampleCommand .userDeleted "e" 1 .inactive) "r",
    sampleCall (sampleCommand .userDeleted "e" 1 .inactive) "r'"]

theorem settled_sampleStore : Settled sampleStore :=
  ⟨Table.unique_of_forall_not_mem Table.not_mem_empty, fun _ h => absurd h (Table.not_mem_empty _)⟩

end MultiRag.DirectoryEvents
