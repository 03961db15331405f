/-
  **What the order of delivery decides.**

  An event that is older than the newest accepted event of its identity is stale. So a deletion
  that arrives after a newer update is not applied (`late_deletion`).
-/
import Mathlib.Order.ConditionallyCompleteLattice.Basic
import Mathlib.Data.Int.ConditionallyCompleteOrder
import Mathlib.Data.Fintype.EquivFin
import MultiRag.DirectoryEventOnce
import MultiRag.Staleness

namespace MultiRag.DirectoryEvents

open List Table

open IdentityReconciliation (ExternalIdentityState)
open Staleness

/-! ### Effects -/

inductive Tightening where
  | nothing | inactivate | revoke

namespace Tightening

def rank : Tightening → Nat
  | .nothing => 0
  | .inactivate => 1
  | .revoke => 2

theorem rank_injective : Function.Injective rank := by
  intro a b h
  cases a <;> cases b <;> simp_all [rank]

instance : LinearOrder Tightening := LinearOrder.lift' rank rank_injective

instance : OrderBot Tightening where
  bot := .nothing
  bot_le := fun _ => Nat.zero_le _

def apply : Tightening → ExternalIdentityState → ExternalIdentityState
  | .nothing, state => state
  | .inactivate, state => if state = .revoked ∨ state = .conflict then state else .inactive
  | .revoke, state => if state = .conflict then state else .revoked

theorem apply_sup (a b : Tightening) (state : ExternalIdentityState) :
    (a ⊔ b).apply state = b.apply (a.apply state) := by
  cases a <;> cases b <;> cases state <;> rfl

theorem tightens_apply (a : Tightening) (state : ExternalIdentityState) :
    Tightens state (a.apply state) := by
  cases a <;> cases state <;> decide

theorem apply_mono {a b : Tightening} (h : a ≤ b) (state : ExternalIdentityState) :
    Tightens (a.apply state) (b.apply state) := by
  rw [← sup_eq_right.mpr h, apply_sup]
  exact tightens_apply b _

end Tightening

theorem Tightens.antisymm {a b : ExternalIdentityState} (h : Tightens a b) (h' : Tightens b a) :
    a = b := by
  rcases h with rfl | ⟨rfl, hrevoked, hconfl⟩ | ⟨rfl, hconfl⟩
  · rfl
  · simpa [Tightens, hrevoked, eq_comm] using h'
  · simpa [Tightens, hconfl, eq_comm] using h'

def CommandFields.tightening (command : CommandFields) : Tightening :=
  if command.eventType = .userDeleted then .revoke
  else if command.eventType = .userUpdated ∧ command.directoryStatus = some .inactive then
    .inactivate
  else .nothing

def CommandFields.timed (command : CommandFields) : Int × Tightening :=
  (command.eventAt, command.tightening)

theorem tightened_state (command : CommandFields) (identity : ExternalIdentity) :
    (tightened command identity).state = command.tightening.apply identity.state := by
  unfold tightened tightenTarget CommandFields.tightening
  by_cases hdeleted : command.eventType = .userDeleted
  · cases hstate : identity.state <;> simp [hdeleted, hstate, Tightening.apply]
  · by_cases hinact : command.eventType = .userUpdated ∧ command.directoryStatus = some .inactive
    · cases hstate : identity.state <;> simp [hinact, hstate, Tightening.apply]
    · simp [hdeleted, hinact, Tightening.apply]

/-! ### Floors -/

def floorOf : Option Int → WithBot Int
  | none => ⊥
  | some t => t

theorem floorOf_laterOf (a b : Option Int) : floorOf (laterOf a b) = max (floorOf a) (floorOf b) := by
  cases a <;> cases b <;> simp [laterOf, floorOf]

theorem floorOf_max?_concat (times : List Int) (t : Int) :
    floorOf (times ++ [t]).max? = max (floorOf times.max?) t := by
  cases times with
  | nil => simp [floorOf]
  | cons first times =>
    simp only [cons_append, max?_cons', foldl_append, foldl_cons,
      foldl_nil, floorOf]
    exact WithBot.coe_max _ _

def identityFloor (s : DirectoryStore) (identity : ExternalIdentity) : WithBot Int :=
  floorOf (latestIdentityEventAt s identity)

section

variable {sha256 : String → String} {command : CommandFields} {channelId newId : String} {now : Int}
  {s : DirectoryStore} {account : IdentityProviderAccount} {receipts}

section

variable (h : Claimed sha256 command channelId newId now s account receipts)
include h

theorem Claimed.rows
    (identityId : Option String) (state : ReceiptState) (error : Option DirectoryEventErrorCode) :
    (receipts.put (finished sha256 command newId now account identityId state error)).rows =
      s.receipts.rows ++ [finished sha256 command newId now account identityId state error] :=
  rows_put_insert? h.inserted rfl

theorem Claimed.identityFloor
    {s' : DirectoryStore} {identity identity' : ExternalIdentity} (hsame : identity'.fixed = identity.fixed)
    (htenant : identity.tenantId = account.tenantId)
    (hreceipts : s'.receipts = receipts.put
      (finished sha256 command newId now account (some identity.id) .succeeded none)) :
    identityFloor s' identity' = max (identityFloor s identity) command.eventAt := by
  have hid : identity'.id = identity.id := (congrArg ExternalIdentity.id hsame :)
  have htenant' : identity'.tenantId = identity.tenantId := (congrArg ExternalIdentity.tenantId hsame :)
  have hverified : identity'.verifiedAt = identity.verifiedAt :=
    (congrArg ExternalIdentity.verifiedAt hsame :)
  have hseen : identity'.lastSeenAt = identity.lastSeenAt :=
    (congrArg ExternalIdentity.lastSeenAt hsame :)
  have htimes : s'.acceptedEventTimes identity' = s.acceptedEventTimes identity ++ [command.eventAt] := by
    unfold DirectoryStore.acceptedEventTimes Table.select
    rw [hreceipts, h.rows, hid, htenant', filter_append, filterMap_append]
    congr 1
    simp [finished, newReceipt, IdentityEventReceipt.finish, htenant]
  unfold DirectoryEvents.identityFloor latestIdentityEventAt
  simp only [htimes, hverified, hseen, floorOf_laterOf, floorOf_max?_concat, max_assoc]

end

end

/-! ### The deliveries refine the filter -/

/-- The event is admitted for the account and names the identity. -/
structure Concerns (s : DirectoryStore) (command : CommandFields) (channelId : String)
    (account : IdentityProviderAccount) (identity : ExternalIdentity) : Prop where
  locked : lockAuthority s command channelId = .ok (some account)
  resolved : lockExternalIdentity s command account = (some identity, false)

def Filtered (x : ExternalIdentity) (a : Accepted Int Tightening) (s : DirectoryStore) : Prop :=
  ∃ identity ∈ s.identities, identity.id = x.id ∧ identity.state = a.effect.apply x.state ∧
    identityFloor s identity = a.floor

variable {sha256 : String → String} {command : CommandFields} {channelId : String}
  {s s' : DirectoryStore} {account : IdentityProviderAccount} {x : ExternalIdentity}

theorem Concerns.later (h : Concerns s command channelId account x) (hprog : Progress s s') :
    ∃ account' identity, Concerns s' command channelId account' identity ∧
      AccountAdvances account account' ∧ IdentityAdvances x identity := by
  obtain ⟨account', hlocked, hadvance⟩ := lockAuthority_progress hprog h.locked
  obtain ⟨identity, hreso, hident⟩ :=
    lockExternalIdentity_progress hprog hadvance h.resolved
  exact ⟨account', identity, ⟨hlocked, hreso⟩, hadvance, hident⟩

variable {found : Option IdentityProviderAccount}

theorem channelId_of_lockAuthority (h : lockAuthority s command channelId = .ok found) :
    (s.authority.bindings.get? command.bindingId).map ChannelBinding.channelId = some channelId := by
  have hbind : ∀ channel : ChatChannel, lockBinding s command channel = .ok () →
      (s.authority.bindings.get? command.bindingId).map ChannelBinding.channelId =
        some channel.id := by
    intro channel hfound
    unfold lockBinding at hfound
    split at hfound
    · cases hfound
    · next binding hget =>
      split at hfound
      · cases hfound
      · next hsame =>
        rw [hget, ← not_not.mp hsame]
        rfl
  unfold lockAuthority at h
  split at h
  · cases h
  · next channel hchan =>
    rw [← key_of_get? hchan]
    apply hbind
    split at h
    · cases h
    · split at h
      · cases h
      · split at h
        · split at h
          · cases hfound : lockBinding s command channel with
            | error error => rw [hfound] at h; cases h
            | ok found => rfl
          · cases h
        · split at h
          · cases h
          · next hfound => exact hfound
        · cases h

theorem Concerns.account_eq (h : Concerns s command channelId account x) {channelId' : String}
    (hfound : lockAuthority s command channelId' = .ok found) : found = some account := by
  have hchannels := (channelId_of_lockAuthority hfound).symm.trans
    (channelId_of_lockAuthority h.locked)
  cases hchannels
  simpa [h.locked, eq_comm] using hfound

variable {d : Delivery} {a : Accepted Int Tightening}

theorem Filtered.deliver {identity : ExternalIdentity}
    (hfiltered : Filtered x a s) (hconcerns : Concerns s d.command channelId account identity)
    (hid : identity.id = x.id) (huser : d.command.eventType ≠ .scopeUpdated)
    (h : Delivered sha256 s d s') : s' = s ∨ Filtered x (a.deliver d.command.timed) s' := by
  obtain ⟨hident, -, htenant⟩ := mem_of_lockExternalIdentity hconcerns.resolved
  obtain ⟨row, hrow, hrowId, hstate, hfloor⟩ := hfiltered
  obtain rfl := eq_of_key hrow hident (hrowId.trans hid.symm)
  have hcases := h.cases
  obtain ⟨rfl, rfl, -⟩ := h
  rcases hcases with ⟨-, -, hsame⟩ | ⟨channelId', hchan, hcase⟩
  · exact .inl hsame
  · generalize d.result = result at hcase
    -- whatever is claimed is claimed for the account the event is admitted for
    have hclaimed : ∀ {account' receipts},
        Claimed sha256 d.command channelId' d.newId d.now d.before account' receipts →
          account' = account := by
      intro account' receipts hclaimed
      simpa using hconcerns.account_eq hclaimed.locked
    generalize hafter : d.after = after at hcase
    cases hcase with
    | raised error => exact .inl rfl
    | noLink locked => exact .inl rfl
    | known locked present found => exact .inl rfl
    | staleScope claimed scope older => exact absurd scope huser
    | conflict claimed recent resolved | unknown claimed recent resolved =>
      obtain rfl := hclaimed claimed
      rw [hconcerns.resolved] at resolved
      cases resolved
    | staleIdentity claimed resolved older =>
      obtain rfl := hclaimed claimed
      rw [hconcerns.resolved] at resolved
      cases resolved
      obtain ⟨latest, hlatest, hlt⟩ := older
      have hstale : (d.command.timed.1 : WithBot Int) < a.floor := by
        rw [← hfloor, identityFloor, hlatest]
        exact WithBot.coe_lt_coe.mpr hlt
      rw [Accepted.deliver_of_lt hstale]
      refine .inr ⟨row, hident, hid, hstate, ?_⟩
      rw [claimed.identityFloor rfl htenant rfl, hfloor]
      exact max_eq_left (le_of_lt hstale)
    | applied claimed recent resolved newest =>
      obtain rfl := hclaimed claimed
      rw [hconcerns.resolved] at resolved
      cases resolved
      have hrecent : a.floor ≤ d.command.timed.1 := by
        rw [← hfloor, identityFloor]
        cases hlatest : latestIdentityEventAt d.before row with
        | none => exact bot_le
        | some latest => exact WithBot.coe_le_coe.mpr (newest latest hlatest)
      rw [Accepted.deliver_of_le hrecent]
      refine .inr ⟨tightened d.command row,
        (mem_put_of_mem hident (tightened_id _ _)).mpr (.inl rfl),
        (tightened_id _ _).trans hid, ?_, ?_⟩
      · rw [tightened_state, hstate, Tightening.apply_sup]
        rfl
      · rw [claimed.identityFloor (IdentityAdvances.of_tightened _ _).fixed htenant rfl, hfloor]
        exact max_eq_right hrecent

theorem Delivered.exists_receipt {r : DirectoryEventProcessingResult}
    (hconcerns : Concerns s d.command channelId account x) (h : Delivered sha256 s d s')
    (hresult : d.result = .ok r) :
    ∃ receipt ∈ s'.receipts, receipt.key = receiptKey account d.command := by
  have hcases := h.cases
  obtain ⟨rfl, rfl, -⟩ := h
  rcases hcases with ⟨herror, -, -⟩ | ⟨channelId', hchan, hcase⟩
  · simp [herror] at hresult
  · rw [hresult] at hcase
    have hclaimed : ∀ {account' receipts} (identityId : Option String) (state : ReceiptState)
        (error : Option DirectoryEventErrorCode),
        Claimed sha256 d.command channelId' d.newId d.now d.before account' receipts →
          ∃ receipt ∈ receipts.put
            (finished sha256 d.command d.newId d.now account' identityId state error),
            receipt.key = receiptKey account d.command := by
      intro account' receipts identityId state error hclaimed
      cases hconcerns.account_eq hclaimed.locked
      exact ⟨_, hclaimed.mem_put.mpr (.inl rfl), rfl⟩
    generalize d.after = after at hcase
    cases hcase with
    | noLink locked => cases hconcerns.account_eq locked
    | known locked present found =>
      cases hconcerns.account_eq locked
      exact ⟨_, mem_of_receiptOf found⟩
    | staleScope claimed scope older => exact hclaimed _ _ _ claimed
    | conflict claimed recent resolved => exact hclaimed _ _ _ claimed
    | unknown claimed recent resolved => exact hclaimed _ _ _ claimed
    | staleIdentity claimed resolved older => exact hclaimed _ _ _ claimed
    | applied claimed recent resolved newest => exact hclaimed _ _ _ claimed

/-! ### Deliveries that succeed -/

theorem exists_processClaimed {now : Int} (receipt : IdentityEventReceipt)
    (hmem : account ∈ s.accounts) :
    ∃ r s', processClaimed command account now receipt s = (.ok r, s') := by
  unfold processClaimed
  split
  · exact ⟨_, _, rfl⟩
  · split
    · rw [casBumpAccount_of_mem hmem]
      exact ⟨_, _, rfl⟩
    · rw [casBumpAccount_of_mem hmem]
      exact ⟨_, _, rfl⟩
    · next identity hfound =>
      split
      · exact ⟨_, _, rfl⟩
      · have hafter : account ∈ ({ s with
            identities := s.identities.put (tightened command identity) } : DirectoryStore).accounts :=
          hmem
        rw [tightenIdentity_of_mem (mem_of_lockExternalIdentity hfound).1]
        dsimp only
        rw [casBumpAccount_of_mem hafter]
        exact ⟨_, _, rfl⟩

theorem exists_delivery (sha256 : String → String)
    (hlocked : lockAuthority s command channelId = .ok (some account))
    (hfresh : s.receiptOf (receiptKey account command) = none) :
    ∃ d s', Delivered sha256 s d s' ∧ d.command = command ∧ ∃ r, d.result = .ok r := by
  obtain ⟨newId, hnewId⟩ := Infinite.exists_notMem_finset
    (s.receipts.rows.map IdentityEventReceipt.id).toFinset
  have hid : ∀ receipt ∈ s.receipts, receipt.id ≠ newId := by
    intro receipt hmem heq
    apply hnewId
    rw [mem_toFinset]
    exact mem_map.mpr ⟨receipt, hmem, heq⟩
  obtain ⟨receipts, hinsert⟩ : ∃ receipts, s.receipts.insert? (newReceipt newId account command
      (canonicalDirectoryEventHash sha256 command)) = some receipts := exists_insert? hid
  have hacct : account ∈ ({ s with receipts := receipts } : DirectoryStore).accounts :=
    mem_of_lockAuthority hlocked
  obtain ⟨r, s', hclaimed⟩ : ∃ r s', processClaimed command account command.eventAt
      (newReceipt newId account command (canonicalDirectoryEventHash sha256 command))
      { s with receipts := receipts } = (.ok r, s') := exists_processClaimed _ hacct
  have hpresent : ¬ command.eventAt + maxEventSkew < command.eventAt := by
    have hskew : 0 ≤ maxEventSkew := by decide
    omega
  have hproc : process sha256 command (some channelId) newId command.eventAt s = (.ok r, s') := by
    unfold process inTransaction processLocked claimReceipt
    simp only [hlocked, hfresh, hinsert, hclaimed, if_neg hpresent]
  exact ⟨⟨command, some channelId, newId, command.eventAt, .ok r, s, s'⟩, s', ⟨rfl, rfl, hproc⟩,
    rfl, r, rfl⟩

variable {isPrintable : Char → Bool} {event : DirectoryEventCommand isPrintable}

theorem eq_of_fields {other : DirectoryEventCommand isPrintable}
    (h : event.toCommandFields = other.toCommandFields) : event = other := by
  cases event
  cases other
  cases h
  rfl

/-- Distinct valid events about one identity, none of which has been delivered. -/
structure EventsAbout (s : DirectoryStore) (x : ExternalIdentity)
    (events : List (DirectoryEventCommand isPrintable)) : Prop where
  nodup : events.Nodup
  concerns : ∀ event ∈ events, ∃ channelId account,
    Concerns s event.toCommandFields channelId account x
  distinct : ∀ event ∈ events, ∀ other ∈ events, ∀ channelId account channelId' account',
    Concerns s event.toCommandFields channelId account x →
    Concerns s other.toCommandFields channelId' account' x →
    receiptKey account event.toCommandFields = receiptKey account' other.toCommandFields →
    event = other
  new : ∀ event ∈ events, ∀ channelId account,
    Concerns s event.toCommandFields channelId account x →
    s.receiptOf (receiptKey account event.toCommandFields) = none

/-- A run that delivers nothing but the events, and each of them successfully at least
    once. -/
structure Delivers (sha256 : String → String) (s₀ : DirectoryStore)
    (events : List (DirectoryEventCommand isPrintable)) (hist : List Delivery) (s : DirectoryStore) :
    Prop where
  run : Run (Delivered sha256) s₀ hist s
  only : ∀ d ∈ hist, ∃ event ∈ events, d.command = event.toCommandFields
  every : ∀ event ∈ events, ∃ d ∈ hist, d.command = event.toCommandFields ∧ ∃ r, d.result = .ok r

def timedEvents (events : List (DirectoryEventCommand isPrintable)) : List (Int × Tightening) :=
  events.map (fun event => event.toCommandFields.timed)

def startFilter (s : DirectoryStore) (x : ExternalIdentity) : Accepted Int Tightening :=
  ⟨identityFloor s x, ⊥⟩

/-- What a run has done: `trace` are the events it has accepted or found stale, in the
    order of their first delivery. -/
structure Traced (s₀ : DirectoryStore) (x : ExternalIdentity)
    (trace : List (DirectoryEventCommand isPrintable)) (hist : List Delivery) (s : DirectoryStore) :
    Prop where
  filtered : Filtered x ((startFilter s₀ x).deliverAll (timedEvents trace)) s
  receipts : ∀ receipt ∈ s.receipts, receipt ∈ s₀.receipts ∨
    ∃ event ∈ trace, ∃ channelId account,
      Concerns s₀ event.toCommandFields channelId account x ∧
      receipt.key = receiptKey account event.toCommandFields
  answered : ∀ d ∈ hist, ∀ r, d.result = .ok r →
    ∃ event ∈ trace, d.command = event.toCommandFields

theorem Concerns.user (h : Concerns s event.toCommandFields channelId account x) :
    event.eventType ≠ .scopeUpdated := by
  intro hscope
  have hvalid := event.valid
  have hnobody : event.identifiers = [] := by
    simp only [CommandFields.accepted, hscope, Bool.and_eq_true, if_true] at hvalid
    simpa using hvalid.2.1
  have hreso := h.resolved
  unfold lockExternalIdentity aliasIdentityIds CommandFields.userId Table.select at hreso
  simp [hnobody] at hreso

variable {sha256 : String → String} {s₀ s s' : DirectoryStore} {x : ExternalIdentity}
  {events trace : List (DirectoryEventCommand isPrintable)} {hist : List Delivery}

theorem traced_nil (hx : x ∈ s₀.identities) :
    Traced s₀ x ([] : List (DirectoryEventCommand isPrintable)) [] s₀ where
  filtered := ⟨x, hx, rfl, rfl, rfl⟩
  receipts := fun _ h => .inl h
  answered := fun _ h => absurd h not_mem_nil

theorem Traced.deliver (htraced : Traced s₀ x trace hist s) (hevents : EventsAbout s₀ x events)
    (htrace : ∀ event ∈ trace, event ∈ events) (hprog : Progress s₀ s)
    (hevent : event ∈ events) (hcmd : d.command = event.toCommandFields)
    (h : Delivered sha256 s d s') :
    (s' = s ∧ Traced s₀ x trace (d :: hist) s') ∨
    (d.after ≠ d.before ∧ Traced s₀ x (trace ++ [event]) (d :: hist) s') := by
  obtain ⟨channelId, account, hstart⟩ := hevents.concerns event hevent
  rw [← hcmd] at hstart
  obtain ⟨account', identity, hconcerns, hadvance, hident⟩ := hstart.later hprog
  have hkey : receiptKey account' d.command = receiptKey account d.command :=
    hadvance.receiptKey_eq d.command
  have hstep := htraced.filtered.deliver hconcerns hident.id_eq
    (by rw [hcmd]; exact (hcmd ▸ hstart).user) h
  have hanswer : ∀ r, d.result = .ok r →
      ∃ receipt ∈ s'.receipts, receipt.key = receiptKey account d.command := by
    intro r hr
    rw [← hkey]
    exact h.exists_receipt hconcerns hr
  rcases h.recorded with hsame | ⟨account'', receipt, r, hrec⟩
  · -- the store is the old one, so the receipt of the event was there before
    have hstore : s' = s := by rw [← h.1, ← h.2.1, hsame]
    subst hstore
    refine .inl ⟨rfl, htraced.filtered, htraced.receipts, ?_⟩
    intro other hother r hr
    rcases mem_cons.mp hother with rfl | hearlier
    · obtain ⟨receipt, hmem, hreceipt⟩ := hanswer r hr
      rcases htraced.receipts receipt hmem with hold | ⟨first, hfirst, channelId', found, hfound, hfoundKey⟩
      · have hnew := hevents.new event hevent channelId account (hcmd ▸ hstart)
        rw [hcmd] at hreceipt
        exact absurd hreceipt (receiptOf_eq_none.mp hnew receipt hold)
      · have heq : event = first := by
          apply hevents.distinct event hevent first (htrace first hfirst) channelId account channelId'
            found (hcmd ▸ hstart) hfound
          rw [← hfoundKey, hreceipt, hcmd]
        rw [hcmd, heq]
        exact ⟨first, hfirst, rfl⟩
    · exact htraced.answered other hearlier r hr
  · have hchanged : d.after ≠ d.before := by
      intro hsame
      have hmem : receipt ∈ d.before.receipts := by
        rw [← hsame]
        exact (hrec.receipts receipt).mpr (.inl rfl)
      exact receiptOf_eq_none.mp hrec.fresh receipt hmem hrec.key
    have hfiltered := hstep.resolve_left (fun hsame => hchanged (by rw [h.1, h.2.1, hsame]))
    refine .inr ⟨hchanged, ?_, ?_, ?_⟩
    · rw [timedEvents, map_append, map_singleton, Accepted.deliverAll_concat, ← hcmd]
      exact hfiltered
    · intro other hother
      rw [← h.2.1] at hother
      rcases (hrec.receipts other).mp hother with rfl | hold
      · obtain ⟨channelId', -, hlocked⟩ := exists_channelId_of_locked hrec.locked
        rw [h.1] at hlocked
        cases hconcerns.account_eq hlocked
        refine .inr ⟨event, by simp, channelId, account, hcmd ▸ hstart, ?_⟩
        rw [hrec.key, hkey, hcmd]
      · rw [h.1] at hold
        rcases htraced.receipts other hold with hstored | ⟨first, hfirst, hrest⟩
        · exact .inl hstored
        · exact .inr ⟨first, mem_append_left _ hfirst, hrest⟩
    · intro other hother r hr
      rcases mem_cons.mp hother with rfl | hearlier
      · exact ⟨event, by simp, hcmd⟩
      · obtain ⟨first, hfirst, hfirstCommand⟩ := htraced.answered other hearlier r hr
        exact ⟨first, mem_append_left _ hfirst, hfirstCommand⟩

theorem exists_traced (hevents : EventsAbout s₀ x events) (hx : x ∈ s₀.identities)
    (hrun : Run (Delivered sha256) s₀ hist s)
    (honly : ∀ d ∈ hist, ∃ event ∈ events, d.command = event.toCommandFields) :
    ∃ trace : List (DirectoryEventCommand isPrintable),
      (∀ event ∈ trace, event ∈ events) ∧ Traced s₀ x trace hist s := by
  induction hrun with
  | nil => exact ⟨[], fun _ h => absurd h not_mem_nil, traced_nil hx⟩
  | @cons hist s s' d hprev hstep ih =>
    obtain ⟨trace, htrace, htraced⟩ := ih (fun d hd => honly d (mem_cons_of_mem _ hd))
    obtain ⟨event, hevent, hcmd⟩ := honly d mem_cons_self
    rcases htraced.deliver hevents htrace (progress_of_run hprev) hevent hcmd hstep with
      ⟨-, hnext⟩ | ⟨-, hnext⟩
    · exact ⟨trace, htrace, hnext⟩
    · refine ⟨trace ++ [event], ?_, hnext⟩
      intro other hother
      rcases mem_append.mp hother with hold | hnew
      · exact htrace other hold
      · rw [mem_singleton.mp hnew]
        exact hevent

theorem exists_run (sha256 : String → String) (hevents : EventsAbout s₀ x events)
    (hx : x ∈ s₀.identities) (order : List (DirectoryEventCommand isPrintable))
    (horder : ∀ event ∈ order, event ∈ events) (hnodup : order.Nodup) :
    ∃ hist s, Run (Delivered sha256) s₀ hist s ∧ Traced s₀ x order hist s ∧
      (∀ d ∈ hist, ∃ event ∈ events, d.command = event.toCommandFields) ∧
      ∀ event ∈ order, ∃ d ∈ hist, d.command = event.toCommandFields ∧ ∃ r, d.result = .ok r := by
  induction order using reverseRecOn with
  | nil =>
    exact ⟨[], s₀, Run.nil, traced_nil hx, fun _ h => absurd h not_mem_nil,
      fun _ h => absurd h not_mem_nil⟩
  | append_singleton order event ih =>
    rw [nodup_append] at hnodup
    obtain ⟨hist, s, hrun, htraced, honly, hevery⟩ :=
      ih (fun other h => horder other (mem_append_left _ h)) hnodup.1
    have hevent : event ∈ events := horder event (by simp)
    have hearlier : ∀ other ∈ order, other ∈ events :=
      fun other h => horder other (mem_append_left _ h)
    obtain ⟨channelId, account, hstart⟩ := hevents.concerns event hevent
    obtain ⟨account', identity, hconcerns, hadvance, -⟩ := hstart.later (progress_of_run hrun)
    have hfresh : s.receiptOf (receiptKey account' event.toCommandFields) = none := by
      rw [receiptOf_eq_none, hadvance.receiptKey_eq]
      intro receipt hmem hkey
      rcases htraced.receipts receipt hmem with hold | ⟨first, hfirst, channelId', found, hfound, hfoundKey⟩
      · exact receiptOf_eq_none.mp (hevents.new event hevent channelId account hstart) receipt hold hkey
      · have heq : event = first := hevents.distinct event hevent first (hearlier first hfirst)
          channelId account channelId' found hstart hfound (hkey.symm.trans hfoundKey)
        exact hnodup.2.2 first hfirst event (by simp) heq.symm
    obtain ⟨d, s', hstep, hcmd, r, hresult⟩ := exists_delivery sha256 hconcerns.locked hfresh
    have hanswered : ∀ other ∈ order ++ [event],
        ∃ d' ∈ d :: hist, d'.command = other.toCommandFields ∧ ∃ r, d'.result = .ok r := by
      intro other hother
      rcases mem_append.mp hother with hold | hnew
      · obtain ⟨d', hd', hrest⟩ := hevery other hold
        exact ⟨d', mem_cons_of_mem _ hd', hrest⟩
      · rw [mem_singleton.mp hnew]
        exact ⟨d, mem_cons_self, hcmd, r, hresult⟩
    refine ⟨d :: hist, s', Run.cons hrun hstep, ?_, ?_, hanswered⟩
    · rcases htraced.deliver hevents hearlier (progress_of_run hrun) hevent hcmd hstep with
        ⟨-, hquiet⟩ | ⟨-, hnext⟩
      · -- the event would have been answered without being in the trace
        obtain ⟨first, hfirst, hsame⟩ := hquiet.answered d mem_cons_self r hresult
        obtain rfl := eq_of_fields (hcmd.symm.trans hsame)
        exact absurd rfl (hnodup.2.2 event hfirst event (by simp))
      · exact hnext
    · intro d' hd'
      rcases mem_cons.mp hd' with rfl | hold
      · exact ⟨event, hevent, hcmd⟩
      · exact honly d' hold

/-! ### The final state -/

def newestState (s : DirectoryStore) (x : ExternalIdentity)
    (events : List (DirectoryEventCommand isPrintable)) : ExternalIdentityState :=
  (joined (Newest (identityFloor s x) (timedEvents events)) (timedEvents events)).apply x.state

def recentState (s : DirectoryStore) (x : ExternalIdentity)
    (events : List (DirectoryEventCommand isPrintable)) : ExternalIdentityState :=
  (joined (Recent (identityFloor s x)) (timedEvents events)).apply x.state

def DirectoryStore.identityState (s : DirectoryStore) (id : String) :
    Option ExternalIdentityState :=
  (s.identities.get? id).map ExternalIdentity.state

theorem Filtered.identityState (h : Filtered x a s) :
    s.identityState x.id = some (a.effect.apply x.state) := by
  obtain ⟨identity, hmem, hid, hstate, -⟩ := h
  unfold DirectoryStore.identityState
  rw [← hid, get?_of_mem hmem, Option.map_some, hstate]

theorem mem_timedEvents {event : Int × Tightening} :
    event ∈ timedEvents events ↔ ∃ e ∈ events, e.toCommandFields.timed = event := mem_map

theorem Delivers.exists_traced (hevents : EventsAbout s₀ x events) (hx : x ∈ s₀.identities)
    (h : Delivers sha256 s₀ events hist s) :
    ∃ trace : List (DirectoryEventCommand isPrintable),
      (∀ event, event ∈ trace ↔ event ∈ events) ∧ Traced s₀ x trace hist s := by
  obtain ⟨trace, htrace, htraced⟩ := DirectoryEvents.exists_traced hevents hx h.run h.only
  refine ⟨trace, fun event => ⟨htrace event, fun hevent => ?_⟩, htraced⟩
  obtain ⟨d, hd, hcmd, r, hresult⟩ := h.every event hevent
  obtain ⟨first, hfirst, hsame⟩ := htraced.answered d hd r hresult
  rw [eq_of_fields (hcmd.symm.trans hsame)]
  exact hfirst

theorem timedEvents_congr (h : ∀ event, event ∈ trace ↔ event ∈ events) (event : Int × Tightening) :
    event ∈ timedEvents trace ↔ event ∈ timedEvents events := by
  simp only [mem_timedEvents, h]

theorem newestState_congr (h : ∀ event, event ∈ trace ↔ event ∈ events) :
    newestState s₀ x trace = newestState s₀ x events := by
  have hnewest : ∀ event, Newest (identityFloor s₀ x) (timedEvents trace) event ↔
      Newest (identityFloor s₀ x) (timedEvents events) event := by
    intro event
    unfold Newest
    simp only [timedEvents_congr h]
  unfold newestState
  rw [joined_congr (timedEvents_congr h) hnewest]

theorem recentState_congr (h : ∀ event, event ∈ trace ↔ event ∈ events) :
    recentState s₀ x trace = recentState s₀ x events := by
  have hrecent : ∀ event : Int × Tightening, Recent (identityFloor s₀ x) event ↔
      Recent (identityFloor s₀ x) event := fun event => Iff.rfl
  unfold recentState
  rw [joined_congr (timedEvents_congr h) hrecent]

theorem Delivers.bounds (hevents : EventsAbout s₀ x events) (hx : x ∈ s₀.identities)
    (h : Delivers sha256 s₀ events hist s) :
    ∃ state, s.identityState x.id = some state ∧ Tightens (newestState s₀ x events) state ∧
      Tightens state (recentState s₀ x events) := by
  obtain ⟨trace, htrace, htraced⟩ := h.exists_traced hevents hx
  rw [← newestState_congr htrace, ← recentState_congr htrace]
  refine ⟨_, htraced.filtered.identityState, ?_, ?_⟩
  · apply Tightening.apply_mono
    exact le_trans le_sup_right (Accepted.le_effect (startFilter s₀ x) (timedEvents trace))
  · apply Tightening.apply_mono
    exact le_trans (Accepted.effect_le (startFilter s₀ x) (timedEvents trace))
      (sup_le bot_le le_rfl)

theorem exists_delivers (sha256 : String → String) (hevents : EventsAbout s₀ x events)
    (hx : x ∈ s₀.identities) {order : List (DirectoryEventCommand isPrintable)}
    (hperm : order.Perm events) :
    ∃ hist s, Delivers sha256 s₀ events hist s ∧ Traced s₀ x order hist s := by
  obtain ⟨hist, s, hrun, htraced, honly, hevery⟩ := exists_run sha256 hevents hx order
    (fun event hmem => hperm.mem_iff.mp hmem) (hperm.nodup_iff.mpr hevents.nodup)
  exact ⟨hist, s, ⟨hrun, honly, fun event hmem => hevery event (hperm.mem_iff.mpr hmem)⟩, htraced⟩

theorem exists_delivers_recent (sha256 : String → String) (hevents : EventsAbout s₀ x events)
    (hx : x ∈ s₀.identities) :
    ∃ hist s, Delivers sha256 s₀ events hist s ∧
      s.identityState x.id = some (recentState s₀ x events) := by
  let older : DirectoryEventCommand isPrintable → DirectoryEventCommand isPrintable → Prop :=
    fun a b => a.eventAt ≤ b.eventAt
  have hperm := perm_insertionSort older events
  have hsorted : (timedEvents (events.insertionSort older)).Pairwise (fun a b => a.1 ≤ b.1) :=
    pairwise_map.mpr (pairwise_insertionSort older events)
  obtain ⟨hist, s, hdelivers, htraced⟩ := exists_delivers sha256 hevents hx hperm
  refine ⟨hist, s, hdelivers, ?_⟩
  rw [htraced.filtered.identityState, Accepted.effect_of_ascending hsorted,
    ← recentState_congr (fun event => hperm.mem_iff)]
  unfold startFilter recentState
  rw [bot_sup_eq]

theorem exists_delivers_newest (sha256 : String → String) (hevents : EventsAbout s₀ x events)
    (hx : x ∈ s₀.identities) :
    ∃ hist s, Delivers sha256 s₀ events hist s ∧
      s.identityState x.id = some (newestState s₀ x events) := by
  let newer : DirectoryEventCommand isPrintable → DirectoryEventCommand isPrintable → Prop :=
    fun a b => b.eventAt ≤ a.eventAt
  have hperm := perm_insertionSort newer events
  have hsorted : (timedEvents (events.insertionSort newer)).Pairwise (fun a b => b.1 ≤ a.1) :=
    pairwise_map.mpr (pairwise_insertionSort newer events)
  obtain ⟨hist, s, hdelivers, htraced⟩ := exists_delivers sha256 hevents hx hperm
  refine ⟨hist, s, hdelivers, ?_⟩
  rw [htraced.filtered.identityState, Accepted.effect_of_descending hsorted,
    ← newestState_congr (fun event => hperm.mem_iff)]
  unfold startFilter newestState
  rw [bot_sup_eq]

/-- **What the order decides.**  In every order and with any repetition, the events
    about an identity leave it between the state after the newest events alone and the
    state after all the events that were not stale at the start.  Both are reached, so
    the final state is the same for all orders exactly when the two agree; and a
    deletion that is as new as anything else leaves it revoked or in conflict. -/
theorem final_state_bounds (sha256 : String → String) (hevents : EventsAbout s₀ x events)
    (hx : x ∈ s₀.identities) :
    (∀ hist s, Delivers sha256 s₀ events hist s → ∃ state, s.identityState x.id = some state ∧
      Tightens (newestState s₀ x events) state ∧ Tightens state (recentState s₀ x events)) ∧
    ((∀ hist s hist' s', Delivers sha256 s₀ events hist s → Delivers sha256 s₀ events hist' s' →
      s.identityState x.id = s'.identityState x.id) ↔
        newestState s₀ x events = recentState s₀ x events) ∧
    (∀ event ∈ events, event.eventType = .userDeleted → identityFloor s₀ x ≤ event.eventAt →
      (∀ other ∈ events, other.eventAt ≤ event.eventAt) →
      ∀ hist s, Delivers sha256 s₀ events hist s →
        s.identityState x.id = some .revoked ∨ s.identityState x.id = some .conflict) := by
  refine ⟨fun hist s h => h.bounds hevents hx, ⟨?_, ?_⟩, ?_⟩
  · intro hall
    obtain ⟨hist, s, h, hnewest⟩ := exists_delivers_newest sha256 hevents hx
    obtain ⟨hist', s', h', hrecent⟩ := exists_delivers_recent sha256 hevents hx
    have hsame := hall hist s hist' s' h h'
    rw [hnewest, hrecent] at hsame
    exact Option.some.inj hsame
  · intro heq hist s hist' s' h h'
    obtain ⟨state, hstate, hlow, hhigh⟩ := h.bounds hevents hx
    obtain ⟨state', hstate', hlow', hhigh'⟩ := h'.bounds hevents hx
    rw [← heq] at hhigh hhigh'
    rw [hstate, hstate', ← hlow.antisymm hhigh, ← hlow'.antisymm hhigh']
  · intro event hmem hdeleted hfloor hnewest hist s h
    obtain ⟨state, hstate, hlow, -⟩ := h.bounds hevents hx
    have hrevoke : Tightening.revoke ≤
        joined (Newest (identityFloor s₀ x) (timedEvents events)) (timedEvents events) := by
      have htimed : event.toCommandFields.timed ∈ timedEvents events := mem_timedEvents.mpr ⟨event, hmem, rfl⟩
      have hle := @le_joined Int Tightening _ _ (Newest (identityFloor s₀ x) (timedEvents events)) _
        _ _ htimed ⟨hfloor, by
          intro other hother
          obtain ⟨e, he, rfl⟩ := mem_timedEvents.mp hother
          exact hnewest e he⟩
      simpa [CommandFields.timed, CommandFields.tightening, hdeleted] using hle
    have hstrict := (Tightening.apply_mono hrevoke x.state).trans hlow
    rw [hstate]
    by_cases hconflict : x.state = .conflict
    · right
      rw [Tightening.apply, if_pos hconflict] at hstrict
      rw [hstrict.eq_of_closed (.inr hconflict), hconflict]
    · left
      rw [Tightening.apply, if_neg hconflict] at hstrict
      rw [hstrict.eq_of_closed (.inl rfl)]

/-! ### A late deletion -/

def sampleEvent (eventType : DirectoryEventType) (eventId : String) (eventAt : Int)
    (status : DirectoryStatus)
    (h : (sampleCommand eventType eventId eventAt status).accepted (fun _ => true) = true) :
    DirectoryEventCommand (fun _ => true) :=
  ⟨sampleCommand eventType eventId eventAt status, h⟩

def sampleUpdate : DirectoryEventCommand (fun _ => true) :=
  sampleEvent .userUpdated "update" 2 .active (by decide +kernel)

def sampleDeletion : DirectoryEventCommand (fun _ => true) :=
  sampleEvent .userDeleted "deletion" 1 .inactive (by decide +kernel)

def sampleUser : ExternalIdentity :=
  ⟨"user", "tenant", "feishu", "org", "user_id", "u", .active, none, none, 1⟩

def sampleAccount : IdentityProviderAccount :=
  ⟨"account", "tenant", "feishu", "org", "app", 1, .healthy, none, none⟩

def deliveredOnce (first second : DirectoryEventCommand (fun _ => true)) : List DeliveryCall :=
  [sampleCall first.toCommandFields "r", sampleCall second.toCommandFields "r'"]

theorem sample_concerns : ∀ event ∈ [sampleUpdate, sampleDeletion],
    Concerns sampleStore event.toCommandFields "channel" sampleAccount sampleUser := by
  intro event hmem
  simp only [mem_cons, not_mem_nil, or_false] at hmem
  rcases hmem with rfl | rfl
  · exact ⟨by decide +kernel, by decide +kernel⟩
  · exact ⟨by decide +kernel, by decide +kernel⟩

theorem sample_events : EventsAbout sampleStore sampleUser [sampleUpdate, sampleDeletion] where
  nodup := by
    have hne : sampleUpdate ≠ sampleDeletion := by
      intro h
      exact absurd (congrArg (fun e => e.toCommandFields.eventAt) h) (by decide)
    simp [hne]
  concerns := fun event hmem => ⟨"channel", sampleAccount, sample_concerns event hmem⟩
  distinct := by
    intro event hmem other hother channelId account channelId' account' h h' hkey
    have hids : event.eventId = other.eventId := congrArg ReceiptKey.eventId hkey
    simp only [mem_cons, not_mem_nil, or_false] at hmem hother
    rcases hmem with rfl | rfl <;> rcases hother with rfl | rfl
    · rfl
    · exact absurd hids (by decide)
    · exact absurd hids (by decide)
    · rfl
  new := fun _ _ _ _ _ => rfl

theorem exists_ok_of_outcome (h : d.outcome.isSome = true) :
    ∃ r, d.result = .ok r := by
  cases hresult : d.result with
  | ok r => exact ⟨r, rfl⟩
  | error error => simp [Delivery.outcome, hresult, Except.toOption] at h

theorem delivers_of_calls {calls : List DeliveryCall}
    (honly : ∀ d ∈ (execute (deliver id) calls [] sampleStore).1,
      ∃ event ∈ [sampleUpdate, sampleDeletion], d.command = event.toCommandFields)
    (hevery : ∀ event ∈ [sampleUpdate, sampleDeletion],
      ∃ d ∈ (execute (deliver id) calls [] sampleStore).1,
        d.command = event.toCommandFields ∧ d.outcome.isSome = true) :
    Delivers id sampleStore [sampleUpdate, sampleDeletion]
      (execute (deliver id) calls [] sampleStore).1
      (execute (deliver id) calls [] sampleStore).2 where
  run := deliveries_run id calls sampleStore
  only := honly
  every := by
    intro event hmem
    obtain ⟨d, hd, hcmd, hout⟩ := hevery event hmem
    exact ⟨d, hd, hcmd, exists_ok_of_outcome hout⟩

/-- The same two events leave the identity active in one order and revoked in the
    other: the deletion is stale once the update is accepted. -/
theorem late_deletion :
    EventsAbout sampleStore sampleUser [sampleUpdate, sampleDeletion] ∧
    ∃ hist s hist' s', Delivers id sampleStore [sampleUpdate, sampleDeletion] hist s ∧
      Delivers id sampleStore [sampleUpdate, sampleDeletion] hist' s' ∧
      s.identityState "user" = some .active ∧ s'.identityState "user" = some .revoked :=
  ⟨sample_events, _, _, _, _,
    delivers_of_calls (by decide +kernel : ∀ d ∈ (execute (deliver id)
      (deliveredOnce sampleUpdate sampleDeletion) [] sampleStore).1, _) (by decide +kernel),
    delivers_of_calls (by decide +kernel : ∀ d ∈ (execute (deliver id)
      (deliveredOnce sampleDeletion sampleUpdate) [] sampleStore).1, _) (by decide +kernel),
    by decide +kernel, by decide +kernel⟩

/-- The bounds for these two events. -/
theorem final_state_bounds_sample :
    ∃ state, (execute (deliver id) (deliveredOnce sampleUpdate sampleDeletion) []
        sampleStore).2.identityState "user" = some state ∧
      Tightens (newestState sampleStore sampleUser [sampleUpdate, sampleDeletion]) state ∧
      Tightens state (recentState sampleStore sampleUser [sampleUpdate, sampleDeletion]) :=
  (final_state_bounds id sample_events mem_cons_self).1 _ _
    (delivers_of_calls (by decide +kernel : ∀ d ∈ (execute (deliver id)
      (deliveredOnce sampleUpdate sampleDeletion) [] sampleStore).1, _) (by decide +kernel))

end MultiRag.DirectoryEvents
