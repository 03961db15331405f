/-
  **What one write can do to presentations and receipts.**

  `FormStep` says what one write of the presentation repository can do to both, with the guard
  it was made under; `PresentationService` shows that every operation is a sequence of these writes.
  `overdue` is the condition under which an interaction may be expired together with its form; it
  is a parameter, since the operations differ in it.
-/
import MultiRag.PresentationRepository
import MultiRag.InteractionService

namespace MultiRag.ChannelExecution

open McpInteractions Table List

/-- What a run keeps of its deliveries, acknowledgements and answers. -/
inductive FormRecord where
  | issued (delivery : InteractionDelivery)
  | acknowledged (deliveryId deliveryToken : String)
  | accepted (interactionId : String) (revision : Nat) (nonce bindingId eventId : String)

inductive FormEvent where
  | opened (presentationId : String)
  | touched (interactionId : String)
  | faded (presentationId : String)
  | ended (presentationId : String)
  | lapsed (presentationId : String)
  | issued (delivery : InteractionDelivery)
  | acknowledged (deliveryId deliveryToken : String)
  | received (receiptId interactionId : String) (revision : Nat) (nonce bindingId eventId : String)
  | kept (receiptId : String)
  | answered (receiptId : String) (state : ReceiptState)
  | dropped (receiptId : String)

def FormEvent.record : FormEvent → Option FormRecord
  | .issued delivery => some (.issued delivery)
  | .acknowledged deliveryId deliveryToken => some (.acknowledged deliveryId deliveryToken)
  | .received _ interactionId revision nonce bindingId eventId =>
      some (.accepted interactionId revision nonce bindingId eventId)
  | _ => none

/-! ### Guards -/

/-- What no write changes of a presentation. -/
structure SameForm (row row' : McpInteractionPresentation) : Prop where
  id : row'.id = row.id
  interactionId : row'.interactionId = row.interactionId
  tenantId : row'.tenantId = row.tenantId
  revision : row'.revision = row.revision
  bindingId : row'.bindingId = row.bindingId
  formMapping : row'.formMapping = row.formMapping

def McpInteractionPresentation.round (row : McpInteractionPresentation) : String × Nat :=
  (row.interactionId, row.revision)

def McpInteractionCallbackReceipt.event (receipt : McpInteractionCallbackReceipt) :
    String × String :=
  (receipt.bindingId, receipt.eventDigest)

theorem SameForm.round {row row' : McpInteractionPresentation} (same : SameForm row row') :
    row'.round = row.round :=
  Prod.ext same.interactionId same.revision

/-- A change that issues nothing: nonce, token and delivery stay or are void. -/
structure Fades (row row' : McpInteractionPresentation) : Prop extends SameForm row row' where
  nonce : row'.nonceDigest = row.nonceDigest ∨ row'.nonceDigest = none
  token : row'.deliveryTokenDigest = row.deliveryTokenDigest ∨ row'.deliveryTokenDigest = none
  delivered : row'.deliveryState = .delivered → row.deliveryState = .delivered

structure Issues (sha256 : String → String) (delivery : InteractionDelivery)
    (row row' : McpInteractionPresentation) : Prop extends SameForm row row' where
  deliveryId : delivery.deliveryId = row.id
  actionId : delivery.actionId = row.interactionId
  revised : delivery.revision = row.revision
  nonce : row'.nonceDigest = delivery.actionNonce.map (tokenDigest sha256 "action-nonce")
  token : row'.deliveryTokenDigest = some (tokenDigest sha256 "delivery-token" delivery.deliveryToken)
  leased : row'.deliveryState = .leased
  response : row'.responseState = row.responseState

/-- What no write changes of a receipt. -/
structure SameReceipt (receipt receipt' : McpInteractionCallbackReceipt) : Prop where
  id : receipt'.id = receipt.id
  presentationId : receipt'.presentationId = receipt.presentationId
  bindingId : receipt'.bindingId = receipt.bindingId
  eventDigest : receipt'.eventDigest = receipt.eventDigest
  payload : receipt'.payload = receipt.payload

theorem SameReceipt.event {receipt receipt' : McpInteractionCallbackReceipt}
    (same : SameReceipt receipt receipt') : receipt'.event = receipt.event :=
  Prod.ext same.bindingId same.eventDigest

/-- Waiting for a worker or in the hands of one. -/
def McpInteractionCallbackReceipt.live (receipt : McpInteractionCallbackReceipt) : Prop :=
  receipt.state = .received ∨ receipt.state = .leased

structure Answering (s : ChannelStore) (receipt : McpInteractionCallbackReceipt)
    (row : McpInteractionPresentation) : Prop where
  receipt_mem : receipt ∈ s.receipts
  live : receipt.live
  row_mem : row ∈ s.presentations
  presentation : receipt.presentationId = row.id
  received : row.responseState = .received

/-- Why `reconcile` ends a presentation: its interaction is gone, or ended in the
    round of the presentation, or is in a later round that is presented. -/
inductive RoundOver (s : ChannelStore) (row : McpInteractionPresentation) : Prop
  | gone (gone : ∀ interaction ∈ s.interactions, interaction.id = row.interactionId →
      interaction.tenantId ≠ row.tenantId)
  | ended {interaction : McpInteraction} (mem : interaction ∈ s.interactions)
      (interactionId : interaction.id = row.interactionId)
      (revision : interaction.revision = row.revision)
      (terminal : InteractionPresentationRepository.terminalInteraction interaction.state = true)
  | next {interaction : McpInteraction} {form : McpInteractionPresentation}
      (mem : interaction ∈ s.interactions) (interactionId : interaction.id = row.interactionId)
      (later : row.revision < interaction.revision) (form_mem : form ∈ s.presentations)
      (form_interaction : form.interactionId = interaction.id)
      (form_revision : form.revision = interaction.revision)

inductive FormStep (sha256 : String → String)
    (overdue : McpInteractionPresentation → McpInteraction → Prop) :
    ChannelStore → FormEvent → ChannelStore → Prop
  | opened {s s' : ChannelStore} {row : McpInteractionPresentation}
      (insert : s.insertPresentation row = .ok s') (state : row.responseState = .open)
      (delivery : row.deliveryState = .pending) (nonce : row.nonceDigest = none)
      (token : row.deliveryTokenDigest = none) :
      FormStep sha256 overdue s (.opened row.id) s'
  | touched {s : ChannelStore} {row : McpInteraction} {provider ref : Option String} {now : Int}
      (mem : row ∈ s.interactions) :
      FormStep sha256 overdue s (.touched row.id) (s.putInteraction
        { row with provider := provider, presentationRef := ref, updatedAt := now })
  | faded {s : ChannelStore} {row row' : McpInteractionPresentation}
      (mem : row ∈ s.presentations) (fades : Fades row row')
      (undelivered : row.deliveryState ≠ .delivered)
      (response : row'.responseState = row.responseState) :
      FormStep sha256 overdue s (.faded row.id) (s.putPresentation row')
  | ended {s : ChannelStore} {row row' : McpInteractionPresentation}
      (mem : row ∈ s.presentations) (fades : Fades row row') (ended_round : RoundOver s row)
      (response : row'.responseState = .terminal) :
      FormStep sha256 overdue s (.ended row.id) (s.putPresentation row')
  | lapsed {s : ChannelStore} {row : McpInteractionPresentation} {interaction : McpInteraction}
      {now : Int} (mem : row ∈ s.presentations) (interaction_mem : interaction ∈ s.interactions)
      (interactionId : interaction.id = row.interactionId) (late : overdue row interaction)
      (unanswered : row.deliveryState ≠ .delivered ∨ interaction.revision = row.revision) :
      FormStep sha256 overdue s (.lapsed row.id)
        ((s.putInteraction (interaction.withState .expired now)).putPresentation
          (row.terminalize .expired now none))
  | issued {s : ChannelStore} {row row' : McpInteractionPresentation}
      {delivery : InteractionDelivery} (mem : row ∈ s.presentations)
      (undelivered : row.deliveryState ≠ .delivered) (issues : Issues sha256 delivery row row') :
      FormStep sha256 overdue s (.issued delivery) (s.putPresentation row')
  | acknowledged {s : ChannelStore} {row row' : McpInteractionPresentation} {token : String}
      (mem : row ∈ s.presentations) (leased : row.deliveryState = .leased)
      (shown : row.deliveryTokenDigest = some (tokenDigest sha256 "delivery-token" token))
      (same : SameForm row row') (nonce : row'.nonceDigest = row.nonceDigest)
      (released : row'.deliveryTokenDigest = none)
      (response : row'.responseState = row.responseState) :
      FormStep sha256 overdue s (.acknowledged row.id token) (s.putPresentation row')
  | received {s s' : ChannelStore} {row : McpInteractionPresentation}
      {receipt : McpInteractionCallbackReceipt} {nonce eventId : String} {now : Int}
      (mem : row ∈ s.presentations) (waiting : row.responseState = .open)
      (delivered : row.deliveryState = .delivered)
      (shown : row.nonceDigest = some (tokenDigest sha256 "action-nonce" nonce))
      (insert : s.insertReceipt receipt = .ok s') (presentation : receipt.presentationId = row.id)
      (binding : receipt.bindingId = row.bindingId)
      (event : receipt.eventDigest =
        digest sha256 "callback-event" [.str row.bindingId, .str eventId])
      (state : receipt.state = .received) :
      FormStep sha256 overdue s
        (.received receipt.id row.interactionId row.revision nonce row.bindingId eventId)
        (s'.putPresentation { row with
          responseState := .received, nonceDigest := none, updatedAt := now })
  | kept {s : ChannelStore} {receipt receipt' : McpInteractionCallbackReceipt}
      {row : McpInteractionPresentation} (answering : Answering s receipt row)
      (same : SameReceipt receipt receipt') (live : receipt'.live)
      (attempt : receipt.attempt ≤ receipt'.attempt) :
      FormStep sha256 overdue s (.kept receipt.id) (s.putReceipt receipt')
  | answered {s : ChannelStore} {receipt receipt' : McpInteractionCallbackReceipt}
      {row row' : McpInteractionPresentation} (answering : Answering s receipt row)
      (same : SameReceipt receipt receipt') (attempt : receipt'.attempt = receipt.attempt)
      (fades : Fades row row')
      (outcome : (receipt'.state = .claimed ∧ row'.responseState = .claimed ∧
          row'.deliveryState = row.deliveryState) ∨
        (receipt'.state = .rejected ∧
          (row'.responseState = .open ∨ row'.responseState = .terminal))) :
      FormStep sha256 overdue s (.answered receipt.id receipt'.state)
        ((s.putReceipt receipt').putPresentation row')
  | dropped {s : ChannelStore} {receipt receipt' : McpInteractionCallbackReceipt}
      (mem : receipt ∈ s.receipts) (live : receipt.live) (same : SameReceipt receipt receipt')
      (attempt : receipt'.attempt = receipt.attempt) (state : receipt'.state = .rejected)
      (gone : ∀ row ∈ s.presentations, row.id = receipt.presentationId →
        row.responseState ≠ .received) :
      FormStep sha256 overdue s (.dropped receipt.id) (s.putReceipt receipt')

/-! ### The tables after a write -/

namespace ChannelStore

variable {s s' : ChannelStore} {row row' : McpInteractionPresentation}

theorem mem_putPresentation {x : McpInteractionPresentation} (hrow : row ∈ s.presentations)
    (hid : row'.id = row.id) :
    x ∈ (s.putPresentation row').presentations ↔
      x = row' ∨ (x ∈ s.presentations ∧ x.id ≠ row.id) :=
  mem_put_of_mem hrow hid

theorem mem_putPresentation_self (hrow : row ∈ s.presentations) (hid : row'.id = row.id) :
    row' ∈ (s.putPresentation row').presentations :=
  (mem_putPresentation hrow hid).mpr (.inl rfl)

variable {interactionId : String} {revision : Nat}

theorem presentationOfRound_eq_some (h : s.presentationOfRound interactionId revision = some row) :
    row ∈ s.presentations ∧ row.interactionId = interactionId ∧ row.revision = revision := by
  have hprop := find?_some h
  simp only [Bool.and_eq_true, beq_iff_eq] at hprop
  exact ⟨mem_of_find?_eq_some h, hprop.1, hprop.2⟩

theorem presentationOfRound_eq_none (h : s.presentationOfRound interactionId revision = none) :
    ∀ row ∈ s.presentations, row.interactionId = interactionId → row.revision ≠ revision := by
  intro row hrow hid hrev
  have hnot := find?_eq_none.mp h row hrow
  simp [hid, hrev] at hnot

theorem insertPresentation_eq_ok (h : s.insertPresentation row = .ok s') :
    s.presentationOfRound row.interactionId row.revision = none ∧
      ∃ presentations, s.presentations.insert? row = some presentations ∧
        s' = { s with presentations := presentations } := by
  simp only [insertPresentation] at h
  split at h
  · cases h
  next hround =>
  split at h
  · cases h
  split at h
  · cases h
  next presentations hinsert =>
  cases h
  exact ⟨by simpa using hround, presentations, hinsert, rfl⟩

theorem insertReceipt_eq_ok {receipt : McpInteractionCallbackReceipt}
    (h : s.insertReceipt receipt = .ok s') :
    (∀ other ∈ s.receipts, other.bindingId = receipt.bindingId →
        other.eventDigest ≠ receipt.eventDigest) ∧
      ∃ receipts, s.receipts.insert? receipt = some receipts ∧
        s' = { s with receipts := receipts } := by
  simp only [insertReceipt] at h
  split at h
  · cases h
  next hevent =>
  split at h
  · cases h
  next receipts hinsert =>
  cases h
  refine ⟨?_, receipts, hinsert, rfl⟩
  intro other hother hbind hdigest
  have hnone : s.receiptOfEvent receipt.bindingId receipt.eventDigest = none := by
    simpa using hevent
  have hnot := find?_eq_none.mp hnone other hother
  simp [hbind, hdigest] at hnot

end ChannelStore

/-! ### Presentations are never taken back -/

/-- Every presentation is still there, for the same round, and ended if it was. -/
def FormsKept (s s' : ChannelStore) : Prop :=
  ∀ form ∈ s.presentations, ∃ form' ∈ s'.presentations, SameForm form form' ∧
    (form.responseState = .terminal → form'.responseState = .terminal)

variable {sha256 : String → String} {s s' : ChannelStore} {row row' : McpInteractionPresentation}
  {overdue : McpInteractionPresentation → McpInteraction → Prop} {event : FormEvent}

theorem SameForm.refl (row : McpInteractionPresentation) : SameForm row row :=
  ⟨rfl, rfl, rfl, rfl, rfl, rfl⟩

theorem FormsKept.of_presentations (h : s'.presentations = s.presentations) : FormsKept s s' := by
  intro form hform
  exact ⟨form, h ▸ hform, SameForm.refl form, id⟩

theorem formsKept_put {interactions : InteractionStore}
    {receipts : Table McpInteractionCallbackReceipt McpInteractionCallbackReceipt.id}
    (mem : row ∈ s.presentations) (same : SameForm row row')
    (ended : row.responseState = .terminal → row'.responseState = .terminal) :
    FormsKept s ⟨interactions, s.presentations.put row', receipts⟩ := by
  intro form hform
  by_cases hid : form.id = row.id
  · have heq : form = row := eq_of_key hform mem hid
    subst heq
    exact ⟨row', (mem_put_of_mem mem same.id).mpr (.inl rfl), same, ended⟩
  · exact ⟨form, (mem_put_of_mem mem same.id).mpr (.inr ⟨hform, hid⟩), SameForm.refl form,
      id⟩

theorem formsKept_step (step : FormStep sha256 overdue s event s') : FormsKept s s' := by
  cases step with
  | opened insert state delivery nonce token =>
    obtain ⟨-, presentations, hins, rfl⟩ := ChannelStore.insertPresentation_eq_ok insert
    intro form hform
    exact ⟨form, (mem_insert? hins).mpr (.inr hform), SameForm.refl form, id⟩
  | faded mem fades _ response =>
    exact formsKept_put mem fades.toSameForm (fun hended => response.trans hended)
  | ended mem fades _ response => exact formsKept_put mem fades.toSameForm (fun _ => response)
  | lapsed mem _ _ _ _ => exact formsKept_put mem ⟨rfl, rfl, rfl, rfl, rfl, rfl⟩ (fun _ => rfl)
  | issued mem _ issues =>
    exact formsKept_put mem issues.toSameForm (fun hended => issues.response.trans hended)
  | acknowledged mem _ _ same _ _ response =>
    exact formsKept_put mem same (fun hended => response.trans hended)
  | @received s₁ row receipt nonce eventId now mem waiting delivered shown insert presentation
      binding event state =>
    obtain ⟨-, receipts, -, rfl⟩ := ChannelStore.insertReceipt_eq_ok insert
    refine formsKept_put mem ⟨rfl, rfl, rfl, rfl, rfl, rfl⟩ ?_
    intro hended
    rw [waiting] at hended
    cases hended
  | answered answering _ _ fades _ =>
    refine formsKept_put answering.row_mem fades.toSameForm ?_
    intro hended
    rw [answering.received] at hended
    cases hended
  | _ => exact FormsKept.of_presentations rfl

/-! ### Deliveries -/

inductive Delivers (row row' : McpInteractionPresentation) : Prop
  | kept (kind : row'.deliveryKind = row.deliveryKind) (state : row'.deliveryState = row.deliveryState)
      (attempt : row'.deliveryAttempt = row.deliveryAttempt)
  | restarted (state : row'.deliveryState = .pending) (next : row'.deliveryNextAttemptAt = none)
      (attempt : row'.deliveryAttempt = row.deliveryAttempt)
  | claimed (due : row.deliveryState = .pending ∨ row.deliveryState = .leased)
      (state : row'.deliveryState = .leased) (attempt : row'.deliveryAttempt = row.deliveryAttempt + 1)
  | delivered (kind : row'.deliveryKind = row.deliveryKind) (leased : row.deliveryState = .leased)
      (state : row'.deliveryState = .delivered) (attempt : row'.deliveryAttempt = row.deliveryAttempt)
  | retried (kind : row'.deliveryKind = row.deliveryKind) (leased : row.deliveryState = .leased)
      (state : row'.deliveryState = .pending) (next : row'.deliveryNextAttemptAt ≠ none)
      (attempt : row'.deliveryAttempt = row.deliveryAttempt)
  | failed (kind : row'.deliveryKind = row.deliveryKind)
      (open_ : row.deliveryState = .pending ∨ row.deliveryState = .leased)
      (state : row'.deliveryState = .failed) (attempt : row'.deliveryAttempt = row.deliveryAttempt)

abbrev Presentations := Table McpInteractionPresentation McpInteractionPresentation.id

/-- Presentations with one of the ids may have a new delivery, and new ones may be pending. -/
structure Changed (ids : List String) (t t' : Presentations) : Prop where
  kept : ∀ row ∈ t, ∃ row' ∈ t', row'.id = row.id
  origin : ∀ row' ∈ t', (∃ row ∈ t, row.id = row'.id ∧ (row' = row ∨ row.id ∈ ids ∧ Delivers row row')) ∨
    row'.deliveryState = .pending ∧ row'.deliveryAttempt = 0 ∧ ∀ row ∈ t, row.id ≠ row'.id

theorem Changed.refl (t : Presentations) : Changed [] t t :=
  ⟨fun row hrow => ⟨row, hrow, rfl⟩, fun row' hrow' => .inl ⟨row', hrow', rfl, .inl rfl⟩⟩

variable {t : Presentations}

theorem Changed.put (hmem : row ∈ t) (hid : row'.id = row.id) (hdelivers : Delivers row row') :
    Changed [row.id] t (t.put row') where
  kept := by
    intro x hx
    by_cases hxid : x.id = row.id
    · exact ⟨row', (mem_put_of_mem hmem hid).mpr (.inl rfl), hid.trans hxid.symm⟩
    · exact ⟨x, (mem_put_of_mem hmem hid).mpr (.inr ⟨hx, hxid⟩), rfl⟩
  origin := by
    intro x hx
    rcases (mem_put_of_mem hmem hid).mp hx with rfl | ⟨hold, -⟩
    · exact .inl ⟨row, hmem, hid.symm, .inr ⟨mem_singleton.mpr rfl, hdelivers⟩⟩
    · exact .inl ⟨x, hold, rfl, .inl rfl⟩

variable {t' : Presentations}

theorem Changed.insert (h : t.insert? row = some t') (hstate : row.deliveryState = .pending)
    (hatt : row.deliveryAttempt = 0) :
    Changed [] t t' where
  kept := fun x hx => ⟨x, (mem_insert? h).mpr (.inr hx), rfl⟩
  origin := by
    intro x hx
    rcases (mem_insert? h).mp hx with rfl | hold
    · exact .inr ⟨hstate, hatt, fresh_of_insert? h⟩
    · exact .inl ⟨x, hold, rfl, .inl rfl⟩

theorem Changed.trans {ids ids' : List String} {t'' : Presentations} (h : Changed ids t t')
    (h' : Changed ids' t' t'') (hnew : ∀ id ∈ ids', ∃ row ∈ t, row.id = id)
    (hapart : ∀ id ∈ ids', id ∉ ids) :
    Changed (ids ++ ids') t t'' where
  kept := by
    intro row hrow
    obtain ⟨row', hrow', hid⟩ := h.kept row hrow
    obtain ⟨row'', hrow'', hid'⟩ := h'.kept row' hrow'
    exact ⟨row'', hrow'', hid'.trans hid⟩
  origin := by
    intro row'' hrow''
    rcases h'.origin row'' hrow'' with ⟨row', hrow', hid', hchange'⟩ | ⟨hstate, hatt, hfresh⟩
    · rcases h.origin row' hrow' with ⟨row, hrow, hid, hchange⟩ | ⟨hstate, hatt, hfresh⟩
      · refine .inl ⟨row, hrow, hid.trans hid', ?_⟩
        rcases hchange' with rfl | ⟨hin', hdelivers'⟩
        · rcases hchange with rfl | ⟨hin, hdelivers⟩
          · exact .inl rfl
          · exact .inr ⟨mem_append_left _ hin, hdelivers⟩
        · rcases hchange with rfl | ⟨hin, -⟩
          · exact .inr ⟨mem_append_right _ hin', hdelivers'⟩
          · exact absurd (hid ▸ hin) (hapart _ hin')
      · rcases hchange' with rfl | ⟨hin', -⟩
        · exact .inr ⟨hstate, hatt, hfresh⟩
        · obtain ⟨row, hrow, hid⟩ := hnew _ hin'
          exact absurd hid (hfresh row hrow)
    · refine .inr ⟨hstate, hatt, ?_⟩
      intro row hrow hid
      obtain ⟨row', hrow', hid'⟩ := h.kept row hrow
      exact hfresh row' hrow' (hid'.trans hid)

end MultiRag.ChannelExecution
