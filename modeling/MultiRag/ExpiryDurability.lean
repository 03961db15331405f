/-
  **Which calls leave an expiry in the store.**

  `submit_response`, `register` and `receive_callback` write the expired state and
  then raise.  The service commits what the first one wrote; the other two raise
  through their transaction, which takes the write back.
-/
import MultiRag.PresentationLedger

namespace MultiRag.ChannelExecution

open McpInteractions

/-- Has the row that the call is about expired when the call reads the clock? -/
def ChannelCall.lapsed (call : ChannelCall) (s : ChannelStore) : Prop :=
  match call with
  | .interaction (.submitResponse _ _ now principal interactionId _ _ _) =>
      ∃ row, s.lockedInteraction interactionId principal.tenantId = some row ∧ row.expiresAt ≤ now
  | .presentation (.register _ _ now context _ interactionId _ _ _ _) =>
      ∃ row, s.lockedInteraction interactionId context.tenantId = some row ∧ row.expiresAt ≤ now
  | .presentation (.receiveCallback _ _ _ _ actionId revision _ now) =>
      ∃ row, s.presentationOfRound actionId revision = some row ∧ row.expiresAt ≤ now
  | _ => False

def ChannelEvent.expired : ChannelEvent → Bool
  | .interaction ⟨_, .error (.state .expired)⟩ => true
  | .presentation ⟨_, .error (.presentation .expired)⟩ => true
  | _ => false

def ExpiredInteraction (s : ChannelStore) (interactionId tenantId : String) : Prop :=
  ∃ row, s.lockedInteraction interactionId tenantId = some row ∧ row.state = .expired

/-- The presentation of a round is over, its interaction expired, and the notice of
    it waits to be delivered. -/
def ExpiredPresentation (s : ChannelStore) (actionId : String) (revision : Nat) : Prop :=
  ∃ row, s.presentationOfRound actionId revision = some row ∧ row.responseState = .terminal ∧
    row.deliveryKind = .terminal ∧ row.deliveryState = .pending ∧
    ExpiredInteraction s row.interactionId row.tenantId

def ChannelCall.expiryRecorded (call : ChannelCall) (s : ChannelStore) : Prop :=
  match call with
  | .interaction (.submitResponse _ _ _ principal interactionId _ _ _) =>
      ExpiredInteraction s interactionId principal.tenantId
  | .presentation (.register _ _ _ context _ interactionId _ _ _ _) =>
      ExpiredInteraction s interactionId context.tenantId
  | .presentation (.receiveCallback _ _ _ _ actionId revision _ _) =>
      ExpiredPresentation s actionId revision
  | _ => True

def ChannelCall.submits : ChannelCall → Bool
  | .interaction (.submitResponse _ _ _ _ _ _ _ _) => true
  | _ => false

variable {repositories : ChannelRepositories} {s s' : ChannelStore} {call : ChannelCall}
  {e : ChannelEvent} {store : InteractionStore}

theorem lockedInteraction_putRow {row row' : McpInteraction}
    {interactionId tenantId : String}
    (h : store.lockedInteraction interactionId tenantId = some row) (hid : row'.id = row.id)
    (htenant : row'.tenantId = row.tenantId) :
    (store.putRow row').lockedInteraction interactionId tenantId = some row' := by
  obtain ⟨hmem, rfl, rfl⟩ := lockedInteraction_eq_some h
  have hput : row' ∈ (store.putRow row').interactions := by
    apply Table.mem_put.mpr
    exact .inl ⟨rfl, row, hmem, hid.symm⟩
  rw [← hid, ← htenant]
  exact lockedInteraction_of_mem hput

theorem submitResponse_expired {repository : InteractionRepository} {store' : InteractionStore}
    {newId entropy interactionId key : String} {now : Int} {principal : Principal} {revision : Nat}
    {inputResponses : List (String × Json)} {row : McpInteraction}
    (hrow : store.lockedInteraction interactionId principal.tenantId = some row)
    (hlapsed : row.expiresAt ≤ now)
    (h : repository.submitResponse newId entropy now principal interactionId revision key
      inputResponses store = (.error (.state .expired), store')) :
    store' = store.putRow (row.withState .expired now) := by
  simp only [InteractionRepository.submitResponse, hrow] at h
  split at h
  next error hdigest =>
    -- a key that is refused is refused as an invalid response
    cases h
    simp only [InteractionRepository.idempotencyDigest] at hdigest
    split at hdigest <;> simp at hdigest
  split_ifs at h with hactor hrev
  · simp [raised] at h
  · simp [raised] at h
  split at h
  · split_ifs at h
    · simp at h
    · simp [raised] at h
  · simp only [InteractionRepository.submitFirstResponse, if_pos hlapsed, raised,
      Prod.mk.injEq, true_and] at h
    exact h.symm

variable {error : PresentationError}

theorem committing_raised {α : Type} {reply : α → PresentationReply}
    {f : ChannelStore → Except PresentationError α × ChannelStore}
    (h : committing reply f s = (.error error, s')) : s' = s := by
  rcases committing_cases h with ⟨value, hok, -⟩ | ⟨error', -, hstore⟩
  · cases hok
  · exact hstore

theorem presentation_raised {repository : InteractionPresentationRepository}
    {call : PresentationCall}
    (h : runPresentationCall repository call s = (.error error, s')) : s' = s := by
  cases call <;> exact committing_raised h

theorem outcome_of_expired {outcome : Outcome} {call : InteractionCall}
    (h : ChannelEvent.expired (.interaction ⟨call, outcome⟩) = true) :
    outcome = .error (.state .expired) := by
  unfold ChannelEvent.expired at h
  split at h
  next heq =>
    cases heq
    rfl
  next heq => cases heq
  next => cases h

theorem error_of_expired {outcome : PresentationOutcome} {call : PresentationCall}
    (h : ChannelEvent.expired (.presentation ⟨call, outcome⟩) = true) :
    outcome = .error (.presentation .expired) := by
  unfold ChannelEvent.expired at h
  split at h
  next heq => cases heq
  next heq =>
    cases heq
    rfl
  next => cases h

/-- **The store records an expiry exactly when `submit_response` met it**, or when it
    was on record already. -/
theorem expiry_recorded_iff (h : channelEvent repositories call s = (e, s'))
    (hlapsed : call.lapsed s) (hexpired : e.expired = true) :
    call.expiryRecorded s' ↔ call.submits = true ∨ call.expiryRecorded s := by
  cases call with
  | presentation call =>
    obtain ⟨rfl, rfl⟩ := h
    have herror := error_of_expired hexpired
    have hstore : (runPresentationCall repositories.presentations call s).2 = s :=
      presentation_raised (Prod.ext herror rfl)
    rw [hstore]
    simp [ChannelCall.submits]
  | interaction call =>
    obtain ⟨rfl, rfl⟩ := h
    cases call with
    | submitResponse newId entropy now principal interactionId revision key inputResponses =>
      obtain ⟨row, hrow, htime⟩ := hlapsed
      have houtcome := outcome_of_expired hexpired
      simp only [runCall, replying, inTransactionCatching] at houtcome ⊢
      generalize hresult : repositories.interactions.submitResponse newId entropy now principal
        interactionId revision key inputResponses s.toInteractionStore = result at houtcome ⊢
      obtain ⟨outcome, store⟩ := result
      cases outcome with
      | ok claim => cases houtcome
      | error error =>
        have herror : error = .state .expired := by simpa [Except.map] using houtcome
        subst herror
        have hstore := submitResponse_expired hrow htime hresult
        simp only [ChannelCall.submits, true_or, iff_true]
        refine ⟨row.withState .expired now, ?_, rfl⟩
        simp only [isExpired, if_true, hstore]
        exact lockedInteraction_putRow hrow rfl rfl
    | pause | projection | leaseReady | complete | terminalFail | retry | renew =>
      exact absurd hlapsed id

/-! ### Samples -/

/-- The sample form, answered by `call` when its interaction has expired. -/
def formShown : ChannelStore :=
  (execute (channelEvent sampleRepositories) (sampleChannelCalls.take 4) [] ChannelStore.empty).2

def lateAnswer : ChannelCall :=
  .interaction (.submitResponse "j" "e" 1000000001 sampleActor "i" 1 "k" sampleResponses)

def lateCallback : ChannelCall :=
  .presentation (.receiveCallback "r" "e" "b" 1 "i" 1 samplePayload 1000000001)

theorem expiry_recorded_iff_sample :
    (channelEvent sampleRepositories lateAnswer formShown).1.expired = true ∧
      lateAnswer.expiryRecorded (channelEvent sampleRepositories lateAnswer formShown).2 := by
  have hlapsed : lateAnswer.lapsed formShown := by
    refine ⟨(formShown.lockedInteraction "i" "t").get (by decide +kernel), ?_, by decide +kernel⟩
    exact (Option.some_get _).symm
  have hexpired : (channelEvent sampleRepositories lateAnswer formShown).1.expired = true := by
    decide +kernel
  exact ⟨hexpired, (expiry_recorded_iff rfl hlapsed hexpired).mpr (.inl (by decide))⟩

/-- The presentation store forgets the expiry that it reports. -/
theorem callback_expiry_lost :
    let late := channelEvent sampleRepositories lateCallback formShown
    lateCallback.lapsed formShown ∧ late.1.expired = true ∧
      ¬ lateCallback.expiryRecorded late.2 := by
  have hstates : ((channelEvent sampleRepositories lateCallback formShown).2.presentationOfRound
      "i" 1).map McpInteractionPresentation.responseState = some .open := by decide +kernel
  refine ⟨?_, by decide +kernel, ?_⟩
  · refine ⟨(formShown.presentationOfRound "i" 1).get (by decide +kernel), ?_, by decide +kernel⟩
    exact (Option.some_get _).symm
  · rintro ⟨row, hrow, hterminal, -⟩
    rw [hrow, Option.map_some, hterminal] at hstates
    cases hstates

end MultiRag.ChannelExecution
