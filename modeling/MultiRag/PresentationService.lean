/-
  **Runs of the two stores** (`InteractionPresentationService` beside
  `PersistentInteractionService`).

  Any number of workers call either store, each call in a transaction of its own.
  Every error of the presentation store rolls its transaction back, so what
  `register` and `receive_callback` write before they raise is lost.
-/
import MultiRag.PresentationWrites

namespace MultiRag.ChannelExecution

open McpInteractions InteractionPresentationRepository List Table

/-! ### Calls -/

/-- A call with the readings of the clock its transaction takes. -/
inductive PresentationCall where
  | register (newId entropy : String) (now : Int) (context : TrustedChannelContext)
      (links : List LinkedChannel) (interactionId : String) (revision : Nat)
      (sourceEventId conversationRef presentationRef : String)
  | claimDelivery (deliveryToken actionNonce bindingId : String) (bindingGeneration : Nat)
      (owner : String) (leaseSeconds : Int) (actionId : Option String) (revision : Option Nat)
      (locked : List String) (candidateNow now : Int)
  | acknowledgeDelivery (bindingId : String) (bindingGeneration : Nat)
      (deliveryId owner deliveryToken : String) (success : Bool) (safeErrorCode : Option String)
      (now : Int)
  | receiveCallback (newId entropy bindingId : String) (bindingGeneration : Nat)
      (actionId : String) (revision : Nat) (payload : InteractionCallbackPayload) (now : Int)
  | leaseCallback (owner : String) (leaseSeconds : Int) (locked : List String)
      (candidateNow now : Int)
  | markCallbackClaimed (lease : CallbackLease) (now : Int)
  | rejectCallback (lease : CallbackLease) (code : String) (terminal : Bool) (now : Int)
  | retryCallback (lease : CallbackLease) (code : String) (delaySeconds now : Int)
  | renewCallback (lease : CallbackLease) (leaseSeconds now : Int)
  | reconcile (ids : List (String × String)) (limit : Nat) (locked : List String) (now : Int)

inductive PresentationReply where
  | notice (notice : InteractionRequiredNotice)
  | delivery (delivery : Option InteractionDelivery)
  | received (status : CallbackReceiptStatus)
  | lease (lease : Option CallbackLease)
  | changed (count : Nat)
  | done

abbrev PresentationOutcome := Except PresentationError PresentationReply

def committing {α : Type} (reply : α → PresentationReply)
    (f : ChannelStore → Except PresentationError α × ChannelStore) (s : ChannelStore) :
    PresentationOutcome × ChannelStore :=
  let r := inTransaction f s
  (r.1.map reply, r.2)

def runPresentationCall (repository : InteractionPresentationRepository) :
    PresentationCall → ChannelStore → PresentationOutcome × ChannelStore
  | .register newId entropy now context links interactionId revision sourceEventId conversationRef
      presentationRef =>
      committing .notice (repository.register newId entropy now context links interactionId revision
        sourceEventId conversationRef presentationRef)
  | .claimDelivery deliveryToken actionNonce bindingId bindingGeneration owner leaseSeconds actionId
      revision locked candidateNow now =>
      committing .delivery (repository.claimDelivery deliveryToken actionNonce bindingId
        bindingGeneration owner leaseSeconds actionId revision locked candidateNow now)
  | .acknowledgeDelivery bindingId bindingGeneration deliveryId owner deliveryToken success
      safeErrorCode now =>
      committing (fun _ => .done) (repository.acknowledgeDelivery bindingId bindingGeneration
        deliveryId owner deliveryToken success safeErrorCode now)
  | .receiveCallback newId entropy bindingId bindingGeneration actionId revision payload now =>
      committing .received (repository.receiveCallback newId entropy bindingId bindingGeneration
        actionId revision payload now)
  | .leaseCallback owner leaseSeconds locked candidateNow now =>
      committing .lease (repository.leaseCallback owner leaseSeconds locked candidateNow now)
  | .markCallbackClaimed lease now =>
      committing (fun _ => .done)
        (markCallbackClaimed lease now)
  | .rejectCallback lease code terminal now =>
      committing (fun _ => .done)
        (rejectCallback lease code terminal now)
  | .retryCallback lease code delaySeconds now =>
      committing (fun _ => .done)
        (retryCallback lease code delaySeconds now)
  | .renewCallback lease leaseSeconds now =>
      committing (fun _ => .done)
        (renewCallback lease leaseSeconds now)
  | .reconcile ids limit locked now =>
      committing .changed (repository.reconcile ids limit locked now)

def PresentationCall.readings : PresentationCall → List Int
  | .register _ _ now _ _ _ _ _ _ _ => [now]
  | .claimDelivery _ _ _ _ _ _ _ _ _ candidateNow now => [candidateNow, now]
  | .acknowledgeDelivery _ _ _ _ _ _ _ now => [now]
  | .receiveCallback _ _ _ _ _ _ _ now => [now]
  | .leaseCallback _ _ _ candidateNow now => [candidateNow, now]
  | .markCallbackClaimed _ now => [now]
  | .rejectCallback _ _ _ now => [now]
  | .retryCallback _ _ _ now => [now]
  | .renewCallback _ _ now => [now]
  | .reconcile _ _ _ now => [now]

structure PresentationEvent where
  call : PresentationCall
  outcome : PresentationOutcome

/-- A call of either store together with what it returned or raised. -/
inductive ChannelEvent where
  | interaction (event : InteractionEvent)
  | presentation (event : PresentationEvent)

def ChannelEvent.readings : ChannelEvent → List Int
  | .interaction event => event.call.readings
  | .presentation event => event.call.readings

/-- The repositories of the two stores over one database. -/
structure ChannelRepositories where
  interactions : InteractionRepository
  presentations : InteractionPresentationRepository

def presentationStep (repository : InteractionPresentationRepository) (s : ChannelStore)
    (e : PresentationEvent) (s' : ChannelStore) : Prop :=
  runPresentationCall repository e.call s = (e.outcome, s')

def interactionCallStep (repository : InteractionRepository) (s : ChannelStore)
    (e : InteractionEvent) (s' : ChannelStore) : Prop :=
  interactionStep repository s.toInteractionStore e s'.toInteractionStore ∧
    s'.presentations = s.presentations ∧ s'.receipts = s.receipts

def channelStep (repositories : ChannelRepositories) (s : ChannelStore) :
    ChannelEvent → ChannelStore → Prop
  | .interaction event, s' => interactionCallStep repositories.interactions s event s'
  | .presentation event, s' => presentationStep repositories.presentations s event s'

abbrev ChannelRun (repositories : ChannelRepositories) :=
  Run (clocked ChannelEvent.readings (channelStep repositories))

inductive ChannelCall where
  | interaction (call : InteractionCall)
  | presentation (call : PresentationCall)

def ChannelCall.readings : ChannelCall → List Int
  | .interaction call => call.readings
  | .presentation call => call.readings

def ChannelEvent.call : ChannelEvent → ChannelCall
  | .interaction event => .interaction event.call
  | .presentation event => .presentation event.call

def channelEvent (repositories : ChannelRepositories) :
    ChannelCall → ChannelStore → ChannelEvent × ChannelStore
  | .interaction call, s =>
      let r := runCall repositories.interactions call s.toInteractionStore
      (.interaction ⟨call, r.1⟩, { s with toInteractionStore := r.2 })
  | .presentation call, s =>
      let r := runPresentationCall repositories.presentations call s
      (.presentation ⟨call, r.1⟩, r.2)

theorem execute_channelRun {repositories : ChannelRepositories} {calls : List ChannelCall}
    (hordered : inOrder ChannelCall.readings 0 calls = true) :
    ChannelRun repositories ⟨0, ChannelStore.empty⟩
      (execute (channelEvent repositories) calls [] ChannelStore.empty).1
      ⟨clockAfter ChannelCall.readings 0 calls,
        (execute (channelEvent repositories) calls [] ChannelStore.empty).2⟩ := by
  have hstart : ChannelRun repositories ⟨0, ChannelStore.empty⟩ [] ⟨0, ChannelStore.empty⟩ :=
    Run.nil
  refine execute_run hstart hordered ?_ ?_
  · intro call s
    cases call with
    | interaction call => exact ⟨rfl, rfl, rfl⟩
    | presentation call => exact rfl
  · intro call s
    cases call <;> rfl

def PresentationEvent.record (e : PresentationEvent) : Option FormRecord :=
  match e.call, e.outcome with
  | _, .ok (.delivery (some delivery)) => some (.issued delivery)
  | .acknowledgeDelivery _ _ deliveryId _ deliveryToken true _ _, .ok .done =>
      some (.acknowledged deliveryId deliveryToken)
  | .receiveCallback _ _ bindingId _ actionId revision payload _, .ok (.received .accepted) =>
      some (.accepted actionId revision payload.nonce bindingId payload.eventId)
  | _, _ => none

def ChannelEvent.record : ChannelEvent → Option FormRecord
  | .interaction _ => none
  | .presentation event => event.record

/-! ### Each operation is a sequence of writes -/

def Writes (sha256 : String → String)
    (overdue : McpInteractionPresentation → McpInteraction → Prop) (s : ChannelStore)
    (record : Option FormRecord) (s' : ChannelStore) : Prop :=
  ∃ events, Run (FormStep sha256 overdue) s events s' ∧
    events.filterMap FormEvent.record = record.toList

/-- The writes of an operation, and what they leave of the deliveries. -/
structure Effects (sha256 : String → String)
    (overdue : McpInteractionPresentation → McpInteraction → Prop) (s : ChannelStore)
    (record : Option FormRecord) (s' : ChannelStore) : Prop where
  writes : Writes sha256 overdue s record s'
  changed : ∃ ids, Changed ids s.presentations s'.presentations

variable {sha256 : String → String} {overdue : McpInteractionPresentation → McpInteraction → Prop}
  {s s' s'' : ChannelStore} {record : Option FormRecord}

theorem Writes.refl : Writes sha256 overdue s none s := ⟨[], Run.nil, rfl⟩

theorem Writes.single {event : FormEvent} (step : FormStep sha256 overdue s event s') :
    Writes sha256 overdue s event.record s' :=
  ⟨[event], Run.cons Run.nil step, by cases h : event.record <;> simp [h]⟩

theorem Writes.trans (hab : Writes sha256 overdue s none s')
    (hbc : Writes sha256 overdue s' record s'') : Writes sha256 overdue s record s'' := by
  obtain ⟨before, hbefore, hnone⟩ := hab
  obtain ⟨after, hafter, hrecord⟩ := hbc
  refine ⟨after ++ before, hbefore.append hafter, ?_⟩
  rw [filterMap_append, hnone, hrecord]
  exact append_nil _

theorem Effects.refl : Effects sha256 overdue s none s := ⟨Writes.refl, [], Changed.refl _⟩

section

variable {row : McpInteractionPresentation} {code : String} {now : Int}

theorem fades_terminalize (state : InteractionState) (result : Option TerminalResult) :
    Fades row (row.terminalize state now result) :=
  ⟨⟨rfl, rfl, rfl, rfl, rfl, rfl⟩, .inr rfl, .inr rfl, fun h => nomatch h⟩

theorem fades_reopen : Fades row (row.reopen code now) :=
  ⟨⟨rfl, rfl, rfl, rfl, rfl, rfl⟩, .inr rfl, .inr rfl, fun h => nomatch h⟩

theorem fades_rejectedTerminal : Fades row (row.rejectedTerminal code now) :=
  ⟨⟨rfl, rfl, rfl, rfl, rfl, rfl⟩, .inr rfl, .inr rfl, fun h => nomatch h⟩

theorem fades_terminalize_code (state : InteractionState) (code : Option String) :
    Fades row { row.terminalize state now none with safeErrorCode := code } :=
  ⟨⟨rfl, rfl, rfl, rfl, rfl, rfl⟩, .inr rfl, .inr rfl, fun h => nomatch h⟩

theorem fades_response (state : ResponseState) :
    Fades row { row with responseState := state, updatedAt := now } :=
  ⟨⟨rfl, rfl, rfl, rfl, rfl, rfl⟩, .inl rfl, .inl rfl, id⟩

variable (receipt : McpInteractionCallbackReceipt)

theorem sameReceipt_reject :
    SameReceipt receipt (receipt.reject code now) :=
  ⟨rfl, rfl, rfl, rfl, rfl⟩

theorem sameReceipt_claim :
    SameReceipt receipt (receipt.claim now) :=
  ⟨rfl, rfl, rfl, rfl, rfl⟩

theorem sameReceipt_putBack {delaySeconds : Int} :
    SameReceipt receipt (receipt.putBack code delaySeconds now) :=
  ⟨rfl, rfl, rfl, rfl, rfl⟩

theorem sameReceipt_extend {leaseSeconds : Int} :
    SameReceipt receipt (receipt.extend leaseSeconds now) :=
  ⟨rfl, rfl, rfl, rfl, rfl⟩

end

variable {repository : InteractionPresentationRepository}

theorem changed_insertPresentation {row : McpInteractionPresentation} (hinsert : s.insertPresentation row = .ok s')
    (hstate : row.deliveryState = .pending) (hatt : row.deliveryAttempt = 0) :
    Changed [] s.presentations s'.presentations := by
  obtain ⟨-, presentations, hins, rfl⟩ := ChannelStore.insertPresentation_eq_ok hinsert
  exact Changed.insert hins hstate hatt

variable {newId entropy : String} {now : Int}

theorem register_effects {context : TrustedChannelContext} {links : List LinkedChannel}
    {interactionId : String} {revision : Nat}
    {sourceEventId conversationRef presentationRef : String} {notice : InteractionRequiredNotice}
    (h : repository.register newId entropy now context links interactionId revision sourceEventId
      conversationRef presentationRef s = (.ok notice, s')) :
    Effects repository.sha256 overdue s none s' := by
  simp only [register] at h
  split at h
  · cases h
  split at h
  · cases h
  split at h
  · cases h
  split at h
  · cases h
  next row hrow =>
  split at h
  · cases h
  split at h
  · cases h
  split at h
  · cases h
  split at h
  · split at h
    · cases h
    · cases h
      exact Effects.refl
  split at h
  · cases h
  split at h
  · cases h
  split at h
  · cases h
  next s₁ hinsert =>
  cases h
  have hmem : row ∈ s₁.interactions := by
    obtain ⟨-, presentations, -, rfl⟩ := ChannelStore.insertPresentation_eq_ok hinsert
    exact (lockedInteraction_eq_some hrow).1
  refine ⟨Writes.trans (Writes.single (FormStep.opened hinsert rfl rfl rfl rfl))
    (Writes.single (FormStep.touched hmem)), [], ?_⟩
  have hchanged : Changed [] s.presentations s₁.presentations := changed_insertPresentation hinsert rfl rfl
  exact hchanged

variable {row : McpInteractionPresentation} {owner deliveryToken : String} {leaseSeconds : Int}

theorem issues_leasedDelivery (nonce : Option String) :
    Issues repository.sha256 (interactionDelivery row deliveryToken nonce) row
      (repository.leasedDelivery row owner deliveryToken nonce leaseSeconds now) :=
  ⟨⟨rfl, rfl, rfl, rfl, rfl, rfl⟩, rfl, rfl, rfl, rfl, rfl, rfl, rfl⟩

variable {actionNonce : String} {delivery : Option InteractionDelivery}

theorem issueDelivery_writes (hmem : row ∈ s.presentations)
    (hundelivered : row.deliveryState ≠ .delivered)
    (h : repository.issueDelivery owner deliveryToken actionNonce leaseSeconds now row s =
      (.ok delivery, s')) :
    Writes repository.sha256 overdue s (delivery.map FormRecord.issued) s' := by
  simp only [issueDelivery] at h
  split at h
  · cases h
  · cases h
    exact Writes.single (FormStep.issued hmem hundelivered (issues_leasedDelivery _))

theorem issueDelivery_changed (shown : McpInteractionPresentation) (hmem : row ∈ s.presentations)
    (hid : shown.id = row.id) (hatt : shown.deliveryAttempt = row.deliveryAttempt)
    (hdue : row.deliveryState = .pending ∨ row.deliveryState = .leased)
    (h : repository.issueDelivery owner deliveryToken actionNonce leaseSeconds now shown s = (.ok delivery, s')) :
    Changed [row.id] s.presentations s'.presentations := by
  simp only [issueDelivery] at h
  split at h
  · cases h
  · cases h
    refine Changed.put hmem ?_ (.claimed hdue rfl (congrArg (· + 1) hatt))
    exact hid

variable {revision : Option Nat} {bindingId : String} {bindingGeneration : Nat}
  {candidateNow : Int} {actionId : Option String} {locked : List String}

theorem selectDelivery_due
    (h : selectDelivery bindingId bindingGeneration candidateNow actionId revision locked s =
      some row) :
    row ∈ s.presentations ∧ (row.deliveryState = .pending ∨ row.deliveryState = .leased) := by
  obtain ⟨hmem, hdue⟩ := mem_of_mem_selectOrdered (mem_of_head? h)
  simp only [deliverable, Bool.and_eq_true, Bool.or_eq_true,
    beq_iff_eq] at hdue
  obtain ⟨⟨⟨⟨-, hstate⟩, -⟩, -⟩, -⟩ := hdue
  exact ⟨hmem, hstate.imp And.left And.left⟩

theorem claimDelivery_effects
    (hover : ∀ row interaction,
      selectDelivery bindingId bindingGeneration candidateNow actionId revision locked s =
      some row → row.deliveryKind = .form → row.expiresAt ≤ now →
      s.lockedInteraction row.interactionId row.tenantId = some interaction →
      overdue row interaction)
    (h : repository.claimDelivery deliveryToken actionNonce bindingId bindingGeneration owner
      leaseSeconds actionId revision locked candidateNow now s = (.ok delivery, s')) :
    Effects repository.sha256 overdue s (delivery.map FormRecord.issued) s' := by
  simp only [claimDelivery] at h
  split at h
  · cases h
  split at h
  · cases h
    exact Effects.refl
  next row hselect =>
  obtain ⟨hmem, hdue⟩ := selectDelivery_due hselect
  have hundelivered : row.deliveryState ≠ .delivered := by rcases hdue with hdue | hdue <;> simp [hdue]
  split at h
  · split at h
    · cases h
    next hleased =>
    cases h
    have hfades : Fades row { row with
        deliveryState := .failed
        safeErrorCode := some InteractionPresentationErrorCode.notFound.value
        updatedAt := now } :=
      ⟨⟨rfl, rfl, rfl, rfl, rfl, rfl⟩, .inl rfl, .inl rfl, fun hstate => nomatch hstate⟩
    exact ⟨Writes.single (FormStep.faded hmem hfades hundelivered rfl), _,
      Changed.put hmem rfl (.failed rfl hdue rfl rfl)⟩
  next interaction hinter =>
  obtain ⟨hinteractionMem, hid, -⟩ := lockedInteraction_eq_some hinter
  split at h
  · next hexp =>
    have hlapsed : FormStep repository.sha256 overdue s (.lapsed row.id)
        ((s.putInteraction (interaction.withState .expired now)).putPresentation
          (row.terminalize .expired now none)) :=
      FormStep.lapsed hmem hinteractionMem hid
        (hover row interaction hselect hexp.1 hexp.2 hinter) (.inl hundelivered)
    -- the flush writes the row once, with the columns of both changes
    have hissue : repository.issueDelivery owner deliveryToken actionNonce leaseSeconds now
        (row.terminalize .expired now none) ((s.putInteraction
          (interaction.withState .expired now)).putPresentation
            (row.terminalize .expired now none)) = (.ok delivery, s') := by
      rw [← h]
      simp [issueDelivery, ChannelStore.putPresentation,
        McpInteractionPresentation.terminalize, leasedDelivery,
        put_put]
    have hid' : (row.terminalize .expired now none).id = row.id := rfl
    have hpend : (row.terminalize .expired now none).deliveryState ≠ .delivered := by
      simp [McpInteractionPresentation.terminalize]
    exact ⟨Writes.trans (Writes.single hlapsed)
      (issueDelivery_writes (ChannelStore.mem_putPresentation_self hmem hid') hpend hissue), _,
      issueDelivery_changed (s := s.putInteraction (interaction.withState .expired now))
        (row.terminalize .expired now none) hmem rfl rfl hdue h⟩
  · exact ⟨issueDelivery_writes hmem hundelivered h, _, issueDelivery_changed _ hmem rfl rfl hdue h⟩

theorem acknowledged_change (row : McpInteractionPresentation) (success : Bool)
    (safeErrorCode : Option String) (now : Int) :
    let row' := acknowledged row success safeErrorCode now
    SameForm row row' ∧ row'.nonceDigest = row.nonceDigest ∧ row'.deliveryTokenDigest = none ∧
      row'.responseState = row.responseState ∧
      (row'.deliveryState = .delivered → success = true) := by
  simp only [acknowledged]
  split
  · next hsuccess =>
    exact ⟨⟨rfl, rfl, rfl, rfl, rfl, rfl⟩, rfl, rfl, rfl, fun _ => hsuccess⟩
  split
  · exact ⟨⟨rfl, rfl, rfl, rfl, rfl, rfl⟩, rfl, rfl, rfl, fun hstate => nomatch hstate⟩
  · exact ⟨⟨rfl, rfl, rfl, rfl, rfl, rfl⟩, rfl, rfl, rfl, fun hstate => nomatch hstate⟩

theorem delivers_acknowledged (hleased : row.deliveryState = .leased) (success : Bool)
    (safeErrorCode : Option String) :
    Delivers row (acknowledged row success safeErrorCode now) := by
  rw [acknowledged]
  split
  · exact .delivered rfl hleased rfl rfl
  split
  · exact .failed rfl (.inr hleased) rfl rfl
  · exact .retried rfl hleased rfl (by simp) rfl

variable {value : Unit}

theorem acknowledgeDelivery_effects {deliveryId : String} {success : Bool}
    {safeErrorCode : Option String}
    (h : repository.acknowledgeDelivery bindingId bindingGeneration deliveryId owner deliveryToken
      success safeErrorCode now s = (.ok value, s')) :
    Effects repository.sha256 overdue s
      (if success then some (.acknowledged deliveryId deliveryToken) else none) s' := by
  simp only [acknowledgeDelivery] at h
  split at h
  · cases h
  split at h
  · cases h
  next row hrow =>
  split at h
  · cases h
  next hconfl =>
  cases h
  simp only [Option.filter_eq_some_iff] at hrow
  have hmem := mem_of_get? hrow.1
  have hid : row.id = deliveryId := key_of_get? hrow.1
  simp only [deliveryConflict, Bool.or_eq_true, bne_iff_ne,
    not_or, not_not] at hconfl
  obtain ⟨⟨⟨hleased, -⟩, -⟩, hshown⟩ := hconfl
  obtain ⟨hsame, hnonce, htoken, hresp, hdelivered⟩ :=
    acknowledged_change row success safeErrorCode now
  refine ⟨?_, _, Changed.put hmem hsame.id (delivers_acknowledged hleased success safeErrorCode)⟩
  cases success with
  | true =>
    rw [← hid]
    exact Writes.single (FormStep.acknowledged hmem hleased hshown hsame hnonce htoken hresp)
  | false =>
    have hfades : Fades row
        (acknowledged row false safeErrorCode now) :=
      ⟨hsame, .inl hnonce, .inr htoken,
        fun hstate => absurd (hdelivered hstate) Bool.false_ne_true⟩
    exact Writes.single (FormStep.faded hmem hfades (by simp [hleased]) hresp)

variable {payload : InteractionCallbackPayload} {status : CallbackReceiptStatus}

theorem receiveNew_effects {payloadDigest : String} (hmem : row ∈ s.presentations)
    (h : repository.receiveNew newId entropy
      (digest repository.sha256 "callback-event" [.str row.bindingId, .str payload.eventId])
      payloadDigest now payload row s = (.ok status, s')) :
    status = .accepted ∧ Effects repository.sha256 overdue s
      (some (.accepted row.interactionId row.revision payload.nonce row.bindingId payload.eventId))
      s' := by
  simp only [receiveNew] at h
  split at h
  · cases h
  split at h
  · cases h
  next hguard =>
  split at h
  · cases h
  split at h
  · cases h
  next s₁ hinsert =>
  cases h
  simp only [not_or, not_not] at hguard
  obtain ⟨hopen, -, hdelivered, hshown⟩ := hguard
  have hwrites := Writes.single (@FormStep.received repository.sha256 overdue s _ row _ payload.nonce payload.eventId now hmem hopen hdelivered hshown hinsert
    rfl rfl rfl rfl)
  obtain ⟨-, receipts, -, rfl⟩ := ChannelStore.insertReceipt_eq_ok hinsert
  exact ⟨rfl, hwrites, _, Changed.put hmem rfl (.kept rfl rfl rfl)⟩

theorem receiveCallback_effects {actionId : String} {revision : Nat}
    (h : repository.receiveCallback newId entropy bindingId bindingGeneration actionId revision
      payload now s = (.ok status, s')) :
    Effects repository.sha256 overdue s
      (if status = .accepted then
        some (.accepted actionId revision payload.nonce bindingId payload.eventId) else none) s' := by
  simp only [receiveCallback] at h
  split at h
  · cases h
  next row hrow =>
  simp only [Option.filter_eq_some_iff, Bool.and_eq_true, beq_iff_eq] at hrow
  obtain ⟨hfound, hbind, -⟩ := hrow
  obtain ⟨hmem, hid, hrev⟩ := ChannelStore.presentationOfRound_eq_some hfound
  subst hbind hid hrev
  split at h
  · cases h
  split at h
  · split at h
    · cases h
    · cases h
      exact Effects.refl
  · obtain ⟨rfl, heffects⟩ := receiveNew_effects hmem h
    exact heffects

variable {receipt : McpInteractionCallbackReceipt}

theorem selectReceipt_eq_some
    (h : selectReceipt locked candidateNow s = some receipt) :
    receipt ∈ s.receipts ∧ receipt.live := by
  obtain ⟨hmem, hdue⟩ := mem_of_mem_selectOrdered (mem_of_head? h)
  simp only [dueReceipt, Bool.and_eq_true, Bool.or_eq_true,
    beq_iff_eq] at hdue
  rcases hdue.1 with ⟨hstate, -⟩ | ⟨hstate, -⟩
  · exact ⟨hmem, .inl hstate⟩
  · exact ⟨hmem, .inr hstate⟩

theorem leaseReceipt_effects {lease : Option CallbackLease} (answering : Answering s receipt row)
    (h : repository.leaseReceipt owner leaseSeconds now receipt row s = (.ok lease, s')) :
    Effects repository.sha256 overdue s none s' := by
  simp only [leaseReceipt] at h
  split at h
  · cases h
    have hsame : SameReceipt receipt
        (leasedReceipt receipt owner leaseSeconds now) :=
      ⟨rfl, rfl, rfl, rfl, rfl⟩
    exact ⟨Writes.single (FormStep.kept answering hsame (.inr rfl) (Nat.le_succ _)), _, Changed.refl _⟩
  · cases h
    have hsame : SameReceipt receipt
        { receipt.reject InteractionErrorCode.responseInvalid.value now with
          nextAttemptAt := none } := ⟨rfl, rfl, rfl, rfl, rfl⟩
    exact ⟨Writes.single (FormStep.answered answering hsame rfl fades_reopen
      (.inr ⟨rfl, .inl rfl⟩)), _, Changed.put answering.row_mem rfl (.restarted rfl rfl rfl)⟩
  split at h
  · cases h
    exact ⟨Writes.single (FormStep.answered answering (sameReceipt_reject receipt) rfl
      (fades_terminalize_code .failed _) (.inr ⟨rfl, .inr rfl⟩)), _,
      Changed.put answering.row_mem rfl (.restarted rfl rfl rfl)⟩
  · cases h

theorem leaseCallback_effects {lease : Option CallbackLease}
    (h : repository.leaseCallback owner leaseSeconds locked candidateNow now s = (.ok lease, s')) :
    Effects repository.sha256 overdue s none s' := by
  simp only [leaseCallback] at h
  split at h
  · cases h
  split at h
  · cases h
    exact Effects.refl
  next receipt hselect =>
  obtain ⟨hmem, hlive⟩ := selectReceipt_eq_some hselect
  split at h
  · next hnone =>
    cases h
    refine ⟨Writes.single (FormStep.dropped hmem hlive (sameReceipt_reject receipt) rfl rfl ?_), _,
      Changed.refl _⟩
    intro row hrow hid hrecv
    have hget : s.presentations.get? receipt.presentationId = some row :=
      hid ▸ get?_of_mem hrow
    simp [hget, hrecv] at hnone
  · next row hrow =>
    simp only [Option.filter_eq_some_iff, beq_iff_eq] at hrow
    exact leaseReceipt_effects ⟨hmem, hlive, mem_of_get? hrow.1,
      (key_of_get? hrow.1).symm, hrow.2⟩ h

variable {lease : CallbackLease}

theorem lockedCallback_eq_some
    (h : lockedCallback lease now s = some (receipt, row)) :
    Answering s receipt row ∧ receipt.id = lease.receiptId ∧ row.id = lease.presentationId ∧
      receipt.attempt = lease.attempt := by
  simp only [lockedCallback] at h
  split at h
  · cases h
  next receipt' hreceipt =>
  split at h
  · cases h
  next hfence =>
  split at h
  · cases h
  next row' hrow =>
  cases h
  simp only [not_or, not_not] at hfence
  obtain ⟨hleased, hpres, -, hatt, -⟩ := hfence
  simp only [Option.filter_eq_some_iff, beq_iff_eq] at hrow
  have hid : row.id = lease.presentationId := key_of_get? hrow.1
  exact ⟨⟨mem_of_get? hreceipt, .inr hleased, mem_of_get? hrow.1,
    hpres.trans hid.symm, hrow.2⟩, key_of_get? hreceipt, hid, hatt⟩

theorem markCallbackClaimed_effects
    (h : markCallbackClaimed lease now s = (.ok value, s')) :
    Effects repository.sha256 overdue s none s' := by
  simp only [markCallbackClaimed] at h
  split at h
  · cases h
  next receipt row hlocked =>
  cases h
  obtain ⟨hanswering, -⟩ := lockedCallback_eq_some hlocked
  exact ⟨Writes.single (FormStep.answered hanswering (sameReceipt_claim receipt) rfl
    (fades_response .claimed) (.inl ⟨rfl, rfl, rfl⟩)), _, Changed.put hanswering.row_mem rfl (.kept rfl rfl rfl)⟩

theorem rejectCallback_effects {code : String} {terminal : Bool}
    (h : rejectCallback lease code terminal now s = (.ok value, s')) :
    Effects repository.sha256 overdue s none s' := by
  simp only [rejectCallback] at h
  split at h
  · cases h
  split at h
  · cases h
  next receipt row hlocked =>
  obtain ⟨hanswering, -⟩ := lockedCallback_eq_some hlocked
  cases h
  cases terminal with
  | true =>
    exact ⟨Writes.single (FormStep.answered hanswering (sameReceipt_reject receipt) rfl
      fades_rejectedTerminal (.inr ⟨rfl, .inr rfl⟩)), _,
      Changed.put hanswering.row_mem rfl (.restarted rfl rfl rfl)⟩
  | false =>
    exact ⟨Writes.single (FormStep.answered hanswering (sameReceipt_reject receipt) rfl fades_reopen
      (.inr ⟨rfl, .inl rfl⟩)), _, Changed.put hanswering.row_mem rfl (.restarted rfl rfl rfl)⟩

theorem retryCallback_effects {code : String} {delaySeconds : Int}
    (h : retryCallback lease code delaySeconds now s = (.ok value, s')) :
    Effects repository.sha256 overdue s none s' := by
  simp only [retryCallback] at h
  split at h
  · cases h
  split at h
  · cases h
  next receipt row hlocked =>
  obtain ⟨hanswering, -⟩ := lockedCallback_eq_some hlocked
  split at h
  · cases h
    exact ⟨Writes.single (FormStep.answered hanswering (sameReceipt_reject receipt) rfl
      (fades_terminalize_code .failed _) (.inr ⟨rfl, .inr rfl⟩)), _,
      Changed.put hanswering.row_mem rfl (.restarted rfl rfl rfl)⟩
  · cases h
    exact ⟨Writes.single (FormStep.kept hanswering (sameReceipt_putBack receipt) (.inl rfl)
      le_rfl), _, Changed.refl _⟩

theorem renewCallback_effects
    (h : renewCallback lease leaseSeconds now s = (.ok value, s')) :
    Effects repository.sha256 overdue s none s' := by
  simp only [renewCallback] at h
  split at h
  · cases h
  split at h
  · cases h
  next receipt row hlocked =>
  obtain ⟨hanswering, -⟩ := lockedCallback_eq_some hlocked
  cases h
  exact ⟨Writes.single (FormStep.kept hanswering (sameReceipt_extend receipt) hanswering.live
    le_rfl), _, Changed.refl _⟩

theorem presentNextRound_effects {interaction : McpInteraction}
    (h : repository.presentNextRound newId entropy now row interaction s = .ok s') :
    Writes repository.sha256 overdue s none s' ∧ Changed [] s.presentations s'.presentations ∧
      (∀ x ∈ s.presentations, x ∈ s'.presentations) ∧
      s'.toInteractionStore = s.toInteractionStore ∧
      ∃ x ∈ s'.presentations, x.interactionId = interaction.id ∧
        x.revision = interaction.revision := by
  simp only [presentNextRound] at h
  split at h
  · next existing hexisting =>
    cases h
    obtain ⟨hmem, hid, hrev⟩ := ChannelStore.presentationOfRound_eq_some hexisting
    exact ⟨Writes.refl, Changed.refl _, fun x hx => hx, rfl, existing, hmem, hid, hrev⟩
  split at h
  · cases h
  split at h
  · cases h
  next s₁ hinsert =>
  cases h
  have hopened : FormStep repository.sha256 overdue s _ s' :=
    FormStep.opened hinsert rfl rfl rfl rfl
  have hchanged := changed_insertPresentation hinsert rfl rfl
  obtain ⟨-, presentations, hins, rfl⟩ := ChannelStore.insertPresentation_eq_ok hinsert
  refine ⟨Writes.single hopened, hchanged, ?_, rfl, _, (mem_insert? hins).mpr (.inl rfl), rfl, rfl⟩
  intro x hx
  exact (mem_insert? hins).mpr (.inr hx)

variable {changed : Nat}
  (hover : ∀ row interaction, interaction.state = .awaitingInput → interaction.revision = row.revision → overdue row interaction)
include hover

theorem reconcileOne_effects
    (hmem : row ∈ s.presentations)
    (h : repository.reconcileOne newId entropy now row s = (.ok changed, s')) :
    Writes repository.sha256 overdue s none s' ∧ Changed [row.id] s.presentations s'.presentations ∧
      ∀ x ∈ s.presentations, x.id ≠ row.id → x ∈ s'.presentations := by
  have hothers : ∀ (s₁ : ChannelStore) (row' : McpInteractionPresentation), row'.id = row.id →
      row ∈ s₁.presentations → ∀ x ∈ s₁.presentations, x.id ≠ row.id →
        x ∈ (s₁.putPresentation row').presentations := fun s₁ row' hid hrow x hx hne =>
    (ChannelStore.mem_putPresentation hrow hid).mpr (.inr ⟨hx, hne⟩)
  simp only [reconcileOne] at h
  split at h
  · next hgone =>
    cases h
    exact ⟨Writes.single (FormStep.ended hmem (fades_terminalize_code .failed _)
      (RoundOver.gone (lockedInteraction_eq_none hgone)) rfl),
      Changed.put hmem rfl (.restarted rfl rfl rfl), hothers s _ rfl hmem⟩
  next interaction hinter =>
  obtain ⟨hinteractionMem, hid, -⟩ := lockedInteraction_eq_some hinter
  split at h
  · next hexp =>
    cases h
    exact ⟨Writes.single (FormStep.lapsed hmem hinteractionMem hid
        (hover row interaction hexp.1 hexp.2.2) (.inr hexp.2.2)),
      Changed.put hmem rfl (.restarted rfl rfl rfl), hothers (s.putInteraction _) _ rfl hmem⟩
  split at h
  · next hlater =>
    split at h
    · cases h
    next s₁ hnext =>
    cases h
    obtain ⟨hwrites, hchanged, hkept, hsame, form, hform, hformId, hformRevision⟩ :=
      presentNextRound_effects hnext
    have hover : RoundOver s₁ row :=
      RoundOver.next (hsame ▸ hinteractionMem) hid hlater.1 hform hformId hformRevision
    refine ⟨Writes.trans hwrites (Writes.single
      (FormStep.ended (hkept row hmem) (fades_response .terminal) hover rfl)),
      hchanged.trans (Changed.put (hkept row hmem) rfl (.kept rfl rfl rfl)) ?_ (by simp), ?_⟩
    · intro id hid
      exact ⟨row, hmem, (mem_singleton.mp hid).symm⟩
    intro x hx hne
    refine hothers s₁ _ ?_ (hkept row hmem) x (hkept x hx) hne
    rfl
  split at h
  · next hended =>
    cases h
    exact ⟨Writes.single (FormStep.ended hmem (fades_terminalize _ _)
      (RoundOver.ended hinteractionMem hid hended.1 hended.2) rfl),
      Changed.put hmem rfl (.restarted rfl rfl rfl), hothers s _ rfl hmem⟩
  · cases h
    exact ⟨Writes.refl, ⟨(Changed.refl _).kept, fun x hx => .inl ⟨x, hx, rfl, .inl rfl⟩⟩, fun x hx _ => hx⟩

variable {ids : List (String × String)}

theorem reconcileAll_effects
    {rows : List McpInteractionPresentation} (hrows : ∀ row ∈ rows, row ∈ s.presentations)
    (hnodup : (rows.map McpInteractionPresentation.id).Nodup)
    (h : repository.reconcileAll now ids rows s = (.ok changed, s')) :
    Writes repository.sha256 overdue s none s' ∧
      Changed (rows.map McpInteractionPresentation.id) s.presentations s'.presentations := by
  induction rows generalizing s ids changed with
  | nil =>
    cases h
    exact ⟨Writes.refl, Changed.refl _⟩
  | cons row rows ih =>
    simp only [reconcileAll] at h
    split at h
    · cases h
    next s₁ hone =>
    split at h
    · cases h
    next s₂ hrest =>
    cases h
    rw [map_cons, nodup_cons] at hnodup
    obtain ⟨hfirst, hchanged, hkept⟩ := reconcileOne_effects hover (hrows row mem_cons_self) hone
    have hremaining : ∀ x ∈ rows, x ∈ s₁.presentations := by
      intro x hx
      refine hkept x (hrows x (mem_cons_of_mem _ hx)) ?_
      intro hid
      exact hnodup.1 (hid ▸ mem_map_of_mem hx)
    obtain ⟨hothers, hchanged'⟩ := ih hremaining hnodup.2 hrest
    refine ⟨Writes.trans hfirst hothers, hchanged.trans hchanged' ?_ ?_⟩
    · intro id hid
      obtain ⟨x, hx, rfl⟩ := mem_map.mp hid
      exact ⟨x, hrows x (mem_cons_of_mem _ hx), rfl⟩
    · intro id hid hsame
      exact hnodup.1 (mem_singleton.mp hsame ▸ hid)

theorem reconcile_effects {limit : Nat}
    (h : repository.reconcile ids limit locked now s = (.ok changed, s')) :
    Effects repository.sha256 overdue s none s' := by
  obtain ⟨hwrites, hchanged⟩ := reconcileAll_effects hover (fun _ hrow => (mem_of_mem_selectOrdered hrow).1)
    (nodup_selectOrdered _ _ _ _) h
  exact ⟨hwrites, _, hchanged⟩

omit hover

/-- The form `claim_delivery` picks up after its time, with the interaction it locks. -/
def PresentationCall.lapsing (call : PresentationCall) (s : ChannelStore) :
    Option (McpInteractionPresentation × McpInteraction) :=
  match call with
  | .claimDelivery _ _ bindingId bindingGeneration _ _ actionId revision locked candidateNow now =>
      match selectDelivery bindingId bindingGeneration
          candidateNow actionId revision locked s with
      | none => none
      | some row =>
          if row.deliveryKind = .form ∧ row.expiresAt ≤ now then
            (s.lockedInteraction row.interactionId row.tenantId).map (fun found => (row, found))
          else none
  | _ => none

theorem committing_cases {α : Type} {reply : α → PresentationReply}
    {f : ChannelStore → Except PresentationError α × ChannelStore} {outcome : PresentationOutcome}
    (h : committing reply f s = (outcome, s')) :
    (∃ value, outcome = .ok (reply value) ∧ f s = (.ok value, s')) ∨
      ∃ error, outcome = .error error ∧ s' = s := by
  unfold committing at h
  rcases hf : inTransaction f s with ⟨r, t⟩
  rw [hf] at h
  cases h
  rcases inTransaction_cases hf with ⟨value, rfl, hvalue⟩ | ⟨error, rfl, hstore⟩
  · exact .inl ⟨value, rfl, hvalue⟩
  · exact .inr ⟨error, rfl, hstore⟩

theorem Effects.of_committing {α : Type} {call : PresentationCall} {reply : α → PresentationReply}
    {f : ChannelStore → Except PresentationError α × ChannelStore} {outcome : PresentationOutcome}
    (h : committing reply f s = (outcome, s'))
    (hok : ∀ value, f s = (.ok value, s') →
      Effects repository.sha256 overdue s (PresentationEvent.record ⟨call, .ok (reply value)⟩) s') :
    Effects repository.sha256 overdue s (PresentationEvent.record ⟨call, outcome⟩) s' := by
  rcases committing_cases h with ⟨value, rfl, hf⟩ | ⟨error, rfl, rfl⟩
  · exact hok value hf
  · cases call <;> exact Effects.refl

theorem presentationStep_effects {e : PresentationEvent}
    (hover : ∀ row interaction, interaction.state = .awaitingInput →
      interaction.revision = row.revision → overdue row interaction)
    (hclaim : ∀ row interaction, e.call.lapsing s = some (row, interaction) →
      overdue row interaction)
    (h : presentationStep repository s e s') :
    Effects repository.sha256 overdue s e.record s' := by
  obtain ⟨call, outcome⟩ := e
  cases call with
  | register newId entropy now context links interactionId revision sourceEventId conversationRef
      presentationRef =>
    exact Effects.of_committing h fun value hf => register_effects hf
  | claimDelivery deliveryToken actionNonce bindingId bindingGeneration owner leaseSeconds actionId
      revision locked candidateNow now =>
    apply Effects.of_committing h
    intro value hf
    have heffects := claimDelivery_effects (fun row interaction hselect hform hexp hlocked =>
      hclaim row interaction (by simp [PresentationCall.lapsing, hselect, hform, hexp, hlocked])) hf
    cases value <;> exact heffects
  | acknowledgeDelivery bindingId bindingGeneration deliveryId owner deliveryToken success
      safeErrorCode now =>
    apply Effects.of_committing h
    intro value hf
    cases success <;> exact acknowledgeDelivery_effects hf
  | receiveCallback newId entropy bindingId bindingGeneration actionId revision payload now =>
    apply Effects.of_committing h
    intro value hf
    cases value <;> exact receiveCallback_effects hf
  | leaseCallback owner leaseSeconds locked candidateNow now =>
    exact Effects.of_committing h fun value hf => leaseCallback_effects hf
  | markCallbackClaimed lease now =>
    exact Effects.of_committing h fun value hf => markCallbackClaimed_effects hf
  | rejectCallback lease code terminal now =>
    exact Effects.of_committing h fun value hf => rejectCallback_effects hf
  | retryCallback lease code delaySeconds now =>
    exact Effects.of_committing h fun value hf => retryCallback_effects hf
  | renewCallback lease leaseSeconds now =>
    exact Effects.of_committing h fun value hf => renewCallback_effects hf
  | reconcile ids limit locked now =>
    exact Effects.of_committing h fun value hf => reconcile_effects hover hf

end MultiRag.ChannelExecution
