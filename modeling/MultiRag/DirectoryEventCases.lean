/-
  **What the delivery of a directory event can do.**

  `EventCase` lists the ends of `process`. A delivery is a call with what it returned and the
  stores around it.
-/
import MultiRag.DirectoryEventRepository

namespace MultiRag.DirectoryEvents

open List Table

open IdentityReconciliation (ExternalIdentityState)

/-! ### The writes -/

def tightened (command : CommandFields) (identity : ExternalIdentity) : ExternalIdentity :=
  match tightenTarget command identity.state with
  | none => identity
  | some state =>
      { identity with state := state, identityRevision := identity.identityRevision + 1 }

@[simp] theorem tightened_id (command : CommandFields) (identity : ExternalIdentity) :
    (tightened command identity).id = identity.id := by
  unfold tightened
  split <;> rfl

variable {sha256 : String → String} {command : CommandFields} {channelId newId : String} {now : Int}
  {s s' : DirectoryStore} {account : IdentityProviderAccount} {identity : ExternalIdentity}

theorem casBumpAccount_of_mem (hmem : account ∈ s.accounts) :
    casBumpAccount account command s =
      .ok { s with accounts := s.accounts.put (account.bump command) } := by
  unfold casBumpAccount
  rw [get?_of_mem hmem]
  simp [IdentityProviderAccount.bump]

theorem tightenIdentity_of_mem (hmem : identity ∈ s.identities) :
    tightenIdentity command identity s =
      .ok { s with identities := s.identities.put (tightened command identity) } := by
  unfold tightenIdentity tightened
  cases tightenTarget command identity.state with
  | none =>
    rw [put_self hmem]
  | some state =>
    rw [get?_of_mem hmem]
    simp

/-! ### What is locked -/

theorem mem_of_accountLinks {channel : ChatChannel} {link : IdentityProviderChannelLink}
    (h : (account, link) ∈ accountLinks s channel) : account ∈ s.accounts := by
  simp only [accountLinks, mem_flatMap, mem_map] at h
  obtain ⟨link', -, account', hacct, hpair⟩ := h
  cases hpair
  exact (mem_select.mp hacct).1

theorem mem_of_lockAuthority (h : lockAuthority s command channelId = .ok (some account)) :
    account ∈ s.accounts := by
  unfold lockAuthority at h
  split at h
  · cases h
  · next channel hchan =>
    split at h
    · cases h
    · split at h
      · cases h
      · split at h
        · split at h
          · cases hbind : lockBinding s command channel with
            | error error => rw [hbind] at h; cases h
            | ok found => rw [hbind] at h; cases h
          · cases h
        · next found link hlinks =>
          split at h
          · cases h
          · split at h
            · cases h
            · cases h
              have hmem : (account, link) ∈ accountLinks s channel := by
                rw [hlinks]; exact mem_cons_self
              exact mem_of_accountLinks hmem
        · cases h

theorem mem_of_lockExternalIdentity {conflict : Bool}
    (h : lockExternalIdentity s command account = (some identity, conflict)) :
    identity ∈ s.identities ∧ conflict = false ∧ identity.tenantId = account.tenantId := by
  unfold lockExternalIdentity at h
  dsimp only at h
  split at h
  · cases h
  · split at h
    · cases h
    · split at h
      · cases h
      · split at h
        · cases h
        · next found hfound =>
          split at h
          · cases h
          · cases h
            obtain ⟨hmem, hscope⟩ := mem_select.mp (mem_of_find?_eq_some hfound)
            simp only [Bool.and_eq_true, beq_iff_eq] at hscope
            exact ⟨hmem, rfl, hscope.1.1.1⟩

variable {key : ReceiptKey} {receipt : IdentityEventReceipt}

theorem mem_of_receiptOf (h : s.receiptOf key = some receipt) :
    receipt ∈ s.receipts ∧ receipt.key = key :=
  ⟨mem_of_find?_eq_some h, by simpa using find?_some h⟩

theorem receiptOf_eq_none :
    s.receiptOf key = none ↔ ∀ receipt ∈ s.receipts, receipt.key ≠ key := by
  unfold DirectoryStore.receiptOf
  rw [find?_eq_none]
  simp [mem_def]

/-- The locks of a delivery found the account, the event is not in the future, and its
    receipt is new. -/
structure Claimed (sha256 : String → String) (command : CommandFields) (channelId newId : String)
    (now : Int) (s : DirectoryStore) (account : IdentityProviderAccount)
    (receipts : Table IdentityEventReceipt IdentityEventReceipt.id) : Prop where
  locked : lockAuthority s command channelId = .ok (some account)
  present : command.eventAt ≤ now + maxEventSkew
  fresh : s.receiptOf (receiptKey account command) = none
  inserted : s.receipts.insert? (newReceipt newId account command
    (canonicalDirectoryEventHash sha256 command)) = some receipts

section

variable (sha256 : String → String) (command : CommandFields) (channelId newId : String) (now : Int)
  (s : DirectoryStore)

def finished (account : IdentityProviderAccount) (identityId : Option String)
    (state : ReceiptState) (error : Option DirectoryEventErrorCode) : IdentityEventReceipt :=
  { (newReceipt newId account command (canonicalDirectoryEventHash sha256 command)).finish state now
      error with externalIdentityId := identityId }

/-- The ends of `process` when the channel hint is there. -/
inductive EventCase :
    Except DirectoryEventErrorCode DirectoryEventProcessingResult → DirectoryStore → Prop
  | raised (error : DirectoryEventErrorCode) : EventCase (.error error) s
  | noLink (locked : lockAuthority s command channelId = .ok none) :
      EventCase (.ok ⟨.noLink, none, false, none⟩) s
  | known {account : IdentityProviderAccount} {receipt : IdentityEventReceipt}
      (locked : lockAuthority s command channelId = .ok (some account))
      (present : command.eventAt ≤ now + maxEventSkew)
      (found : s.receiptOf (receiptKey account command) = some receipt) :
      EventCase (.ok (existingReceiptResult receipt (canonicalDirectoryEventHash sha256 command)
        account)) s
  | staleScope {account : IdentityProviderAccount} {receipts}
      (claimed : Claimed sha256 command channelId newId now s account receipts)
      (scope : command.eventType = .scopeUpdated)
      (older : ∃ last, account.lastScopeChangeAt = some last ∧ command.eventAt < last) :
      EventCase (.ok (staleResult account))
        { s with
          receipts := receipts.put (finished sha256 command newId now account none .succeeded none) }
  | conflict {account : IdentityProviderAccount} {receipts}
      (claimed : Claimed sha256 command channelId newId now s account receipts)
      (recent : command.eventType = .scopeUpdated →
        ∀ last, account.lastScopeChangeAt = some last → last ≤ command.eventAt)
      (resolved : (lockExternalIdentity s command account).2 = true) :
      EventCase (.ok (bumpedResult account command .failed (some .identityConflict)))
        { s with
          accounts := s.accounts.put (account.bump command)
          receipts := receipts.put (finished sha256 command newId now account none .failed
            (some .identityConflict)) }
  | unknown {account : IdentityProviderAccount} {receipts}
      (claimed : Claimed sha256 command channelId newId now s account receipts)
      (recent : command.eventType = .scopeUpdated →
        ∀ last, account.lastScopeChangeAt = some last → last ≤ command.eventAt)
      (resolved : lockExternalIdentity s command account = (none, false)) :
      EventCase (.ok (bumpedResult account command .applied none))
        { s with
          accounts := s.accounts.put (account.bump command)
          receipts := receipts.put (finished sha256 command newId now account none .succeeded none) }
  | staleIdentity {account : IdentityProviderAccount} {receipts} {identity : ExternalIdentity}
      (claimed : Claimed sha256 command channelId newId now s account receipts)
      (resolved : lockExternalIdentity s command account = (some identity, false))
      (older : ∃ latest, latestIdentityEventAt s identity = some latest ∧
        command.eventAt < latest) :
      EventCase (.ok (staleResult account))
        { s with
          receipts := receipts.put (finished sha256 command newId now account (some identity.id)
            .succeeded none) }
  | applied {account : IdentityProviderAccount} {receipts} {identity : ExternalIdentity}
      (claimed : Claimed sha256 command channelId newId now s account receipts)
      (recent : command.eventType = .scopeUpdated →
        ∀ last, account.lastScopeChangeAt = some last → last ≤ command.eventAt)
      (resolved : lockExternalIdentity s command account = (some identity, false))
      (newest : ∀ latest, latestIdentityEventAt s identity = some latest →
        latest ≤ command.eventAt) :
      EventCase (.ok (bumpedResult account command .applied none))
        { s with
          accounts := s.accounts.put (account.bump command)
          identities := s.identities.put (tightened command identity)
          receipts := receipts.put (finished sha256 command newId now account (some identity.id)
            .succeeded none) }

end

/-! ### The cases of a transaction -/

variable {receipts : Table IdentityEventReceipt IdentityEventReceipt.id}

theorem latestIdentityEventAt_insert (hinsert : s.receipts.insert? receipt = some receipts)
    (hstate : receipt.processingState = .processing) (identity : ExternalIdentity) :
    latestIdentityEventAt { s with receipts := receipts } identity =
      latestIdentityEventAt s identity := by
  unfold Table.insert? at hinsert
  split at hinsert
  · cases hinsert
  · cases hinsert
    unfold latestIdentityEventAt DirectoryStore.acceptedEventTimes Table.select
    simp [filter_append, hstate]

variable {last : Option Int}

theorem not_lt_of_any_eq_false {time : Int}
    (h : last.any (fun last => decide (time < last)) = false) :
    ∀ t, last = some t → t ≤ time := by
  rintro t rfl
  simpa using h

theorem exists_lt_of_any {time : Int} (h : last.any (fun last => decide (time < last)) = true) :
    ∃ t, last = some t ∧ time < t := by
  simpa [Option.any_eq_true] using h

variable {r : DirectoryEventProcessingResult}

theorem processClaimed_cases
    (hclaimed : Claimed sha256 command channelId newId now s account receipts)
    (h : processClaimed command account now (newReceipt newId account command
      (canonicalDirectoryEventHash sha256 command)) { s with receipts := receipts } = (.ok r, s')) :
    EventCase sha256 command channelId newId now s (.ok r) s' := by
  have hacct : account ∈ ({ s with receipts := receipts } : DirectoryStore).accounts :=
    mem_of_lockAuthority hclaimed.locked
  -- the claimed receipt changes nothing that the locks and the staleness check read
  have hlocks : lockExternalIdentity { s with receipts := receipts } command account =
      lockExternalIdentity s command account := rfl
  unfold processClaimed at h
  rw [hlocks] at h
  split at h
  · next hscope =>
    cases h
    exact EventCase.staleScope hclaimed hscope.1 (exists_lt_of_any hscope.2)
  · next hscope =>
    have hrecent : command.eventType = .scopeUpdated →
        ∀ last, account.lastScopeChangeAt = some last → last ≤ command.eventAt := by
      intro htype
      apply not_lt_of_any_eq_false
      simpa using fun hany => hscope ⟨htype, hany⟩
    split at h
    · next found hfound =>
      rw [casBumpAccount_of_mem hacct] at h
      cases h
      exact EventCase.conflict hclaimed hrecent (by rw [hfound])
    · next hfound =>
      rw [casBumpAccount_of_mem hacct] at h
      cases h
      exact EventCase.unknown hclaimed hrecent hfound
    · next identity hfound =>
      rw [latestIdentityEventAt_insert hclaimed.inserted rfl] at h
      have hident : identity ∈ ({ s with receipts := receipts } : DirectoryStore).identities :=
        (mem_of_lockExternalIdentity hfound).1
      split at h
      · next hstale =>
        cases h
        exact EventCase.staleIdentity hclaimed hfound (exists_lt_of_any hstale)
      · next hstale =>
        have hafter : account ∈ ({ s with
            receipts := receipts
            identities := s.identities.put (tightened command identity) } : DirectoryStore).accounts :=
          hacct
        simp only [tightenIdentity_of_mem hident, casBumpAccount_of_mem hafter] at h
        cases h
        exact EventCase.applied hclaimed hrecent hfound
          (not_lt_of_any_eq_false (by simpa using hstale))

theorem claimReceipt_cases {eventHash : String} {claimed : Bool}
    (h : claimReceipt s command account newId eventHash = .ok (receipt, claimed, s')) :
    (claimed = false ∧ s.receiptOf (receiptKey account command) = some receipt) ∨
    (claimed = true ∧ s.receiptOf (receiptKey account command) = none ∧
      receipt = newReceipt newId account command eventHash ∧
      ∃ receipts, s.receipts.insert? receipt = some receipts ∧
        s' = { s with receipts := receipts }) := by
  unfold claimReceipt at h
  split at h
  · next found hfound =>
    cases h
    exact .inl ⟨rfl, hfound⟩
  · next hfresh =>
    dsimp only at h
    split at h
    · cases h
    · next receipts hinsert =>
      cases h
      exact .inr ⟨rfl, hfresh, rfl, receipts, hinsert, rfl⟩

theorem processLocked_cases (h : processLocked sha256 command channelId newId now s = (.ok r, s')) :
    EventCase sha256 command channelId newId now s (.ok r) s' := by
  unfold processLocked at h
  split at h
  · cases h
  · next hlocked =>
    cases h
    exact EventCase.noLink hlocked
  · next account hlocked =>
    split at h
    · cases h
    · next hpresent =>
      rw [not_lt] at hpresent
      dsimp only at h
      split at h
      · cases h
      · next receipt unchanged hclaim =>
        rcases claimReceipt_cases hclaim with ⟨-, hfound⟩ | ⟨htrue, -⟩
        · cases h
          exact EventCase.known hlocked hpresent hfound
        · cases htrue
      · next receipt session hclaim =>
        rcases claimReceipt_cases hclaim with
          ⟨hfalse, -⟩ | ⟨-, hfresh, rfl, receipts, hinsert, rfl⟩
        · cases hfalse
        · exact processClaimed_cases ⟨hlocked, hpresent, hfresh, hinsert⟩ h

/-! ### Deliveries -/

/-- A call of `process` with what it returned and the stores around it. -/
structure Delivery where
  command : CommandFields
  channelId : Option String
  newId : String
  now : Int
  result : Except DirectoryEventErrorCode DirectoryEventProcessingResult
  before : DirectoryStore
  after : DirectoryStore

def Delivered (sha256 : String → String) (s : DirectoryStore) (d : Delivery) (s' : DirectoryStore) :
    Prop :=
  d.before = s ∧ d.after = s' ∧
    process sha256 d.command d.channelId d.newId d.now s = (d.result, s')

theorem Delivered.cases {d : Delivery} (h : Delivered sha256 s d s') :
    (d.result = .error .bindingNotFound ∧ d.channelId = none ∧ s' = s) ∨
    ∃ channelId, d.channelId = some channelId ∧
      EventCase sha256 d.command channelId d.newId d.now s d.result s' := by
  obtain ⟨-, -, hproc⟩ := h
  unfold process at hproc
  split at hproc
  · next hnone =>
    obtain ⟨hresult, hstore⟩ := Prod.mk.inj hproc
    exact .inl ⟨hresult.symm, hnone, hstore.symm⟩
  · next channelId hsome =>
    refine .inr ⟨channelId, hsome, ?_⟩
    rcases inTransaction_cases hproc with ⟨r, hr, hlocked⟩ | ⟨error, hr, rfl⟩
    · rw [hr]
      exact processLocked_cases hlocked
    · rw [hr]
      exact EventCase.raised error

structure DeliveryCall where
  command : CommandFields
  channelId : Option String
  newId : String
  now : Int

def deliver (sha256 : String → String) (call : DeliveryCall) (s : DirectoryStore) :
    Delivery × DirectoryStore :=
  let outcome := process sha256 call.command call.channelId call.newId call.now s
  (⟨call.command, call.channelId, call.newId, call.now, outcome.1, s, outcome.2⟩, outcome.2)

def Delivery.outcome (d : Delivery) : Option DirectoryEventOutcome :=
  d.result.toOption.map DirectoryEventProcessingResult.outcome

theorem delivered_deliver (sha256 : String → String) (call : DeliveryCall) (s : DirectoryStore) :
    Delivered sha256 s (deliver sha256 call s).1 (deliver sha256 call s).2 := ⟨rfl, rfl, rfl⟩

theorem deliveries_run (sha256 : String → String) (calls : List DeliveryCall) (s : DirectoryStore) :
    Run (Delivered sha256) s (execute (deliver sha256) calls [] s).1
      (execute (deliver sha256) calls [] s).2 :=
  execute_steps Run.nil (allowed_true (deliver sha256) calls s)
    (fun call s _ => delivered_deliver sha256 call s)

end MultiRag.DirectoryEvents
