/-
  **The five attempts of a delivery.**

  `delivery_attempt` counts the claims of a presentation, whatever its content: a
  claim adds one, and neither a re-opened form nor a terminal message starts again.
  `Budget` keeps beside it what the limit is meant to count, the claims of the present
  content that failed, and the attempts there were before that content.
-/
import MultiRag.PresentationExpiry

namespace MultiRag.ChannelExecution

open McpInteractions InteractionPresentationRepository Table

/-! ### Budgets -/

/-- The attempts before the present content, and its claims that failed or timed out. -/
structure Budget where
  start : Nat
  failed : Nat
deriving DecidableEq

/-- The delivery enters `pending` for new content: a form that is opened again, or a terminal
    message. -/
def renewed (row row' : McpInteractionPresentation) : Bool :=
  row'.deliveryKind ≠ row.deliveryKind ||
    (row.deliveryState ≠ .pending && row'.deliveryState = .pending && row'.deliveryNextAttemptAt = none)

def claimFailed (row row' : McpInteractionPresentation) : Bool :=
  row.deliveryState = .leased && (row'.deliveryState = .pending || row'.deliveryState = .failed ||
    row'.deliveryAttempt ≠ row.deliveryAttempt)

def Budget.after (b : Budget) (row row' : McpInteractionPresentation) : Budget :=
  if renewed row row' then ⟨row.deliveryAttempt, 0⟩
  else if claimFailed row row' then ⟨b.start, b.failed + 1⟩
  else b

def McpInteractionPresentation.outstanding (row : McpInteractionPresentation) : Nat :=
  if row.deliveryState = .leased ∨ row.deliveryState = .delivered then 1 else 0

/-- The attempts are those before the content and its own claims. -/
def Budget.Counts (b : Budget) (row : McpInteractionPresentation) : Prop :=
  row.deliveryAttempt = b.start + b.failed + row.outstanding

theorem Budget.after_self (b : Budget) (row : McpInteractionPresentation) : b.after row row = b := by
  have hrenewed : renewed row row = false := by
    cases hstate : row.deliveryState <;> simp [renewed, hstate]
  have hfailed : claimFailed row row = false := by
    cases hstate : row.deliveryState <;> simp [claimFailed, hstate]
  rw [Budget.after, hrenewed, hfailed]
  rfl

variable {row row' : McpInteractionPresentation}

theorem Budget.after_renewed {b : Budget} (h : renewed row row' = true) :
    b.after row row' = ⟨row.deliveryAttempt, 0⟩ := by
  rw [Budget.after, if_pos h]

theorem Delivers.counts {b : Budget} (h : Delivers row row') (hcounts : b.Counts row) :
    (b.after row row').Counts row' := by
  by_cases hrenewed : renewed row row' = true
  · -- a new content is pending, or was claimed at once
    rw [Budget.after_renewed hrenewed]
    simp only [renewed, ne_eq, decide_not, Bool.or_eq_true, Bool.not_eq_true', decide_eq_false_iff_not,
      Bool.and_eq_true, decide_eq_true_eq] at hrenewed
    simp only [Budget.Counts, McpInteractionPresentation.outstanding]
    cases h with
    | kept kind state => simp_all
    | restarted state next attempt => simp [state, attempt]
    | claimed due state attempt => simp [state, attempt]
    | delivered kind leased state => simp_all
    | retried kind leased state next => simp_all
    | failed kind open_ state => simp_all
  · rw [Budget.after, if_neg hrenewed]
    simp only [renewed, ne_eq, decide_not, Bool.or_eq_true, Bool.not_eq_true', decide_eq_false_iff_not,
      Bool.and_eq_true, decide_eq_true_eq, not_or, not_not, not_and] at hrenewed
    simp only [Budget.Counts, McpInteractionPresentation.outstanding] at hcounts ⊢
    cases h with
    | kept kind state attempt =>
      cases hstate : row.deliveryState <;> simp_all [claimFailed]
    | restarted state next attempt =>
      cases hstate : row.deliveryState <;> simp_all [claimFailed]
    | claimed due state attempt =>
      rcases due with hpend | hleased
      · simp_all [claimFailed]
      · simp_all [claimFailed]
        omega
    | delivered kind leased state attempt => simp_all [claimFailed]
    | retried kind leased state next attempt =>
      simp_all [claimFailed]
      omega
    | failed kind open_ state attempt =>
      rcases open_ with hpend | hleased
      · simp_all [claimFailed]
      · simp_all [claimFailed]
        omega

section

variable {repository : InteractionPresentationRepository} {s s' : ChannelStore} {now : Int}

def PresentationCall.failing (repository : InteractionPresentationRepository) (call : PresentationCall)
    (s : ChannelStore) : Option McpInteractionPresentation :=
  match call with
  | .acknowledgeDelivery bindingId bindingGeneration deliveryId owner deliveryToken false safeErrorCode now =>
    if safeErrorCode.any (fun code => !safeCode code) then none
    else (s.presentations.get? deliveryId).filter fun row =>
      row.bindingId == bindingId && row.bindingGeneration == bindingGeneration &&
        !repository.deliveryConflict row owner deliveryToken now
  | _ => none

variable {bindingId owner deliveryToken deliveryId : String} {bindingGeneration : Nat} {success : Bool}
  {safeErrorCode : Option String} {value : Unit}

theorem acknowledgeDelivery_eq_ok
    (h : repository.acknowledgeDelivery bindingId bindingGeneration deliveryId owner deliveryToken
      success safeErrorCode now s = (.ok value, s')) :
    ∃ row ∈ s.presentations, row.deliveryState = .leased ∧
      s' = s.putPresentation (acknowledged row success safeErrorCode now) ∧
      (success = false → (PresentationCall.acknowledgeDelivery bindingId bindingGeneration
      deliveryId owner
        deliveryToken success safeErrorCode now).failing repository s = some row) := by
  simp only [acknowledgeDelivery] at h
  split at h
  · cases h
  next hcode =>
  split at h
  · cases h
  next row hrow =>
  split at h
  · cases h
  next hconfl =>
  cases h
  rw [Option.filter_eq_some_iff] at hrow
  have hleased : row.deliveryState = .leased := by
    simp only [deliveryConflict, Bool.or_eq_true, bne_iff_ne, not_or,
      not_not] at hconfl
    exact hconfl.1.1.1
  refine ⟨row, mem_of_get? hrow.1, hleased, rfl, ?_⟩
  rintro rfl
  rw [PresentationCall.failing, if_neg hcode, Option.filter_eq_some_iff]
  refine ⟨hrow.1, ?_⟩
  rw [hrow.2, Bool.true_and, Bool.not_eq_true']
  simpa using hconfl

theorem acknowledgeDelivery_of_failing
    (h : (PresentationCall.acknowledgeDelivery bindingId bindingGeneration deliveryId owner
      deliveryToken false safeErrorCode now).failing repository s = some row) :
    repository.acknowledgeDelivery bindingId bindingGeneration deliveryId owner deliveryToken false
      safeErrorCode now s =
      (.ok (), s.putPresentation (acknowledged row false safeErrorCode now)) := by
  rw [PresentationCall.failing] at h
  split at h
  · cases h
  next hcode =>
  simp only [Option.filter_eq_some_iff, Bool.and_eq_true, Bool.not_eq_true'] at h
  obtain ⟨hget, hbind, hconfl⟩ := h
  have hfound : (s.presentations.get? deliveryId).filter (fun row =>
      row.bindingId == bindingId && row.bindingGeneration == bindingGeneration) = some row := by
    rw [Option.filter_eq_some_iff, Bool.and_eq_true]
    exact ⟨hget, hbind⟩
  rw [acknowledgeDelivery, if_neg hcode, hfound]
  simp only [hconfl, Bool.false_eq_true, if_false]

theorem id_acknowledged (row : McpInteractionPresentation) (success : Bool) (safeErrorCode : Option String)
    (now : Int) : (acknowledged row success safeErrorCode now).id = row.id :=
  (acknowledged_change row success safeErrorCode now).1.id

end

/-! ### Runs with their budgets -/

structure Outbox where
  store : ChannelStore
  budget : String → Budget

/-- The budget of a presentation after a step; a new one starts with its own attempts. -/
def nextBudget (b : Budget) : Option McpInteractionPresentation → Option McpInteractionPresentation → Budget
  | some row, some row' => b.after row row'
  | none, some row' => ⟨row'.deliveryAttempt, 0⟩
  | _, none => b

def outboxStep (repositories : ChannelRepositories) (s : Outbox) (e : ChannelEvent) (s' : Outbox) : Prop :=
  channelStep repositories s.store e s'.store ∧
    ∀ id, s'.budget id =
      nextBudget (s.budget id) (s.store.presentations.get? id) (s'.store.presentations.get? id)

def ChannelCall.acknowledges : ChannelCall → Bool
  | .presentation (.acknowledgeDelivery ..) => true
  | _ => false

/-- An acknowledgement abandons a delivery only after five failed claims of its content. -/
def Patient (s : Outbox) (e : ChannelEvent) (s' : Outbox) : Prop :=
  e.call.acknowledges = true → ∀ row ∈ s.store.presentations, ∀ row' ∈ s'.store.presentations,
    row'.id = row.id → row.deliveryState ≠ .failed → row'.deliveryState = .failed →
    5 ≤ (s'.budget row.id).failed

def ChannelCall.failing (repositories : ChannelRepositories) (call : ChannelCall) (s : ChannelStore) :
    Option McpInteractionPresentation :=
  match call with
  | .presentation call => call.failing repositories.presentations s
  | .interaction _ => none

/-- A failed acknowledgement comes before the fifth attempt of the presentation, or after five
    attempts of its present content. -/
def InBudget (repositories : ChannelRepositories) (s : Outbox) (e : ChannelEvent) : Prop :=
  ∀ row ∈ e.call.failing repositories s.store,
    row.deliveryAttempt < 5 ∨ (s.budget row.id).start + 5 ≤ row.deliveryAttempt

def Budgeted (s : Outbox) : Prop := ∀ row ∈ s.store.presentations, (s.budget row.id).Counts row

variable {repositories : ChannelRepositories} {e : ChannelEvent}

theorem channelStep_changed {s s' : ChannelStore} (h : channelStep repositories s e s') :
    ∃ ids, Changed ids s.presentations s'.presentations := by
  cases e with
  | interaction event =>
    obtain ⟨-, hsame, -⟩ := h
    rw [hsame]
    exact ⟨[], Changed.refl _⟩
  | presentation event =>
    exact (@presentationStep_effects (fun _ _ => True) _ _ repositories.presentations _
      (fun _ _ _ _ => trivial) (fun _ _ _ => trivial) h).changed

variable {s s' : Outbox}

theorem budgeted_step (hbudgeted : Budgeted s) (h : outboxStep repositories s e s') :
    Budgeted s' := by
  obtain ⟨hstep, hbudget⟩ := h
  obtain ⟨ids, hchanged⟩ := channelStep_changed hstep
  intro row' hrow'
  have hget' := get?_of_mem hrow'
  rw [hbudget]
  rcases hchanged.origin row' hrow' with ⟨row, hrow, hid, hchange⟩ | ⟨hpend, hatt, hfresh⟩
  · have hget : s.store.presentations.get? row'.id = some row := hid ▸ get?_of_mem hrow
    have hcounts : (s.budget row'.id).Counts row := hid ▸ hbudgeted row hrow
    rw [hget, hget', nextBudget]
    rcases hchange with rfl | ⟨-, hdelivers⟩
    · rw [Budget.after_self]
      exact hcounts
    · exact hdelivers.counts hcounts
  · have hget : s.store.presentations.get? row'.id = none := get?_eq_none.mpr hfresh
    rw [hget, hget', nextBudget]
    simp [Budget.Counts, McpInteractionPresentation.outstanding, hpend, hatt]

theorem patient_iff_of_failing {safeErrorCode : Option String}
    {now : Int} (hbudgeted : Budgeted s)
    (hbudget : ∀ id, s'.budget id =
      nextBudget (s.budget id) (s.store.presentations.get? id) (s'.store.presentations.get? id))
    (hcall : e.call.acknowledges = true) (hmem : row ∈ s.store.presentations)
    (hleased : row.deliveryState = .leased)
    (hstore : s'.store = s.store.putPresentation (acknowledged row false safeErrorCode now))
    (hfailing : e.call.failing repositories s.store = some row) :
    Patient s e s' ↔ InBudget repositories s e := by
  have hcounts := hbudgeted row hmem
  simp only [Budget.Counts, McpInteractionPresentation.outstanding, hleased, true_or, if_true] at hcounts
  have hid := id_acknowledged row false safeErrorCode now
  have hmem' : acknowledged row false safeErrorCode now ∈
      s'.store.presentations := by
    rw [hstore]
    exact ChannelStore.mem_putPresentation_self hmem hid
  have hget' := get?_of_mem hmem'
  rw [hid] at hget'
  have hinBudget : InBudget repositories s e ↔
      row.deliveryAttempt < 5 ∨ (s.budget row.id).start + 5 ≤ row.deliveryAttempt := by
    simp [InBudget, hfailing]
  rw [hinBudget]
  by_cases hfive : 5 ≤ row.deliveryAttempt
  · -- the delivery is abandoned, and this claim counts
    have hstate : (acknowledged row false safeErrorCode now).deliveryState =
        .failed := by
      simp [acknowledged, hfive]
    have hkind : (acknowledged row false safeErrorCode now).deliveryKind =
        row.deliveryKind := by
      simp [acknowledged, hfive]
    have hcounted : (s'.budget row.id).failed = (s.budget row.id).failed + 1 := by
      rw [hbudget, get?_of_mem hmem, hget', nextBudget]
      simp [Budget.after, renewed, claimFailed, hstate, hkind, hleased]
    constructor
    · intro hpatient
      have hlate := hpatient hcall row hmem _ hmem' hid (by simp [hleased]) hstate
      omega
    · intro hin _ x hx x' hx' hxid hxstate hxfailed
      by_cases hsame : x.id = row.id
      · rw [hsame]
        omega
      · rw [hstore] at hx'
        rcases (ChannelStore.mem_putPresentation hmem hid).mp hx' with rfl | ⟨hold, -⟩
        · exact absurd (hxid.symm.trans hid) hsame
        · rw [eq_of_key hold hx hxid] at hxfailed
          exact absurd hxfailed hxstate
  · apply iff_of_true _ (.inl (Nat.not_le.mp hfive))
    intro _ x hx x' hx' hxid hxstate hxfailed
    rw [hstore] at hx'
    rcases (ChannelStore.mem_putPresentation hmem hid).mp hx' with rfl | ⟨hold, -⟩
    · simp [acknowledged, hfive] at hxfailed
    · rw [eq_of_key hold hx hxid] at hxfailed
      exact absurd hxfailed hxstate

theorem patient_of_unchanged (h : s'.store.presentations = s.store.presentations) :
    Patient s e s' := by
  intro _ row hrow row' hrow' hid hstate hfailed
  rw [h] at hrow'
  rw [eq_of_key hrow' hrow hid] at hfailed
  exact absurd hfailed hstate

theorem patient_iff_of_not_acknowledges (hcall : e.call.acknowledges = false)
    (hfailing : e.call.failing repositories s.store = none) :
    Patient s e s' ↔ InBudget repositories s e := by
  apply iff_of_true
  · intro hacknowledges
    rw [hcall] at hacknowledges
    cases hacknowledges
  · intro row hrow
    rw [hfailing] at hrow
    cases hrow

theorem patient_iff (hbudgeted : Budgeted s) (h : outboxStep repositories s e s') :
    Patient s e s' ↔ InBudget repositories s e := by
  obtain ⟨hstep, hbudget⟩ := h
  cases e with
  | interaction event => exact patient_iff_of_not_acknowledges rfl rfl
  | presentation event =>
    obtain ⟨call, outcome⟩ := event
    cases call with
    | acknowledgeDelivery bindingId bindingGeneration deliveryId owner deliveryToken success safeErrorCode now =>
      rcases committing_cases hstep with ⟨value, -, hf⟩ | ⟨error, hout, hsame⟩
      · obtain ⟨row, hmem, hleased, hstore, hfailing⟩ := acknowledgeDelivery_eq_ok hf
        cases success with
        | false => exact patient_iff_of_failing hbudgeted hbudget rfl hmem hleased hstore (hfailing rfl)
        | true =>
          apply iff_of_true
          · intro _ x hx x' hx' hxid hxstate hxfailed
            rw [hstore] at hx'
            rcases (ChannelStore.mem_putPresentation hmem (id_acknowledged ..)).mp hx' with rfl | ⟨hold, -⟩
            · simp [acknowledged] at hxfailed
            · rw [eq_of_key hold hx hxid] at hxfailed
              exact absurd hxfailed hxstate
          · intro row hrow
            cases hrow
      · -- a refused acknowledgement changes nothing, and is of no failure
        refine iff_of_true (patient_of_unchanged (congrArg ChannelStore.presentations hsame)) ?_
        intro row hrow
        cases success with
        | true => cases hrow
        | false =>
          have hok := acknowledgeDelivery_of_failing hrow
          have hcall : runPresentationCall repositories.presentations (.acknowledgeDelivery bindingId
              bindingGeneration deliveryId owner deliveryToken false safeErrorCode now) s.store =
              (outcome, s'.store) := hstep
          simp only [runPresentationCall, committing, inTransaction, hok, Prod.mk.injEq] at hcall
          rw [← hcall.1] at hout
          cases hout
    | register | claimDelivery | receiveCallback | leaseCallback | markCallbackClaimed | rejectCallback
    | retryCallback | renewCallback | reconcile => exact patient_iff_of_not_acknowledges rfl rfl

/-- A run from an empty outbox abandons no delivery before five claims of its content have failed
    exactly when none of its failed acknowledgements fills up five attempts with those that were
    made before the content. -/
theorem delivery_budget_iff {repositories : ChannelRepositories} {s₀ s : Outbox} {hist : List ChannelEvent}
    (hstart : Unpresented s₀.store) :
    Run (fun s e s' => outboxStep repositories s e s' ∧ Patient s e s') s₀ hist s ↔
      Run (fun s e s' => outboxStep repositories s e s' ∧ InBudget repositories s e) s₀ hist s := by
  have hbudgeted : Budgeted s₀ := fun row hrow => absurd hrow (hstart.presentations row)
  constructor
  · apply Run.mono hbudgeted
    · intro s e s' hs hstep
      exact budgeted_step hs hstep.1
    · intro s e s' hs hstep
      exact ⟨hstep.1, (patient_iff hs hstep.1).mp hstep.2⟩
  · apply Run.mono hbudgeted
    · intro s e s' hs hstep
      exact budgeted_step hs hstep.1
    · intro s e s' hs hstep
      exact ⟨hstep.1, (patient_iff hs hstep.1).mpr hstep.2⟩

/-! ### Samples -/

def outboxEvent (repositories : ChannelRepositories) (call : ChannelCall) (s : Outbox) : ChannelEvent × Outbox :=
  let r := channelEvent repositories call s.store
  (r.1, ⟨r.2, fun id =>
    nextBudget (s.budget id) (s.store.presentations.get? id) (r.2.presentations.get? id)⟩)

theorem outboxStep_event (repositories : ChannelRepositories) (call : ChannelCall) (s : Outbox) :
    outboxStep repositories s (outboxEvent repositories call s).1 (outboxEvent repositories call s).2 := by
  refine ⟨?_, fun id => rfl⟩
  cases call with
  | interaction call => exact ⟨rfl, rfl, rfl⟩
  | presentation call => exact rfl

def Outbox.empty : Outbox := ⟨ChannelStore.empty, fun _ => ⟨0, 0⟩⟩

def failedClaim (now : Int) : List ChannelCall :=
  [.presentation (.claimDelivery "token" "nonce-1-nonce-1-" "b" 1 "w" 30 none none [] now now),
    .presentation (.acknowledgeDelivery "b" 1 "p" "w" "token" false none (now + 1))]

instance (repositories : ChannelRepositories) (s : Outbox) (e : ChannelEvent) :
    Decidable (InBudget repositories s e) :=
  inferInstanceAs (Decidable (∀ row ∈ e.call.failing repositories s.store,
    row.deliveryAttempt < 5 ∨ (s.budget row.id).start + 5 ≤ row.deliveryAttempt))

def failedCalls : List ChannelCall :=
  sampleChannelCalls.take 2 ++ [10, 10000000, 20000000, 40000000, 80000000].flatMap failedClaim

theorem delivery_budget_sample :
    let run := execute (outboxEvent sampleRepositories) failedCalls [] Outbox.empty
    run.2.budget "p" = ⟨0, 5⟩ ∧
      run.2.store.presentations.rows.map McpInteractionPresentation.deliveryState = [.failed] ∧
      Run (fun s e s' => outboxStep sampleRepositories s e s' ∧ Patient s e s') Outbox.empty run.1 run.2 := by
  have hchecked : (execute (outboxEvent sampleRepositories) failedCalls [] Outbox.empty).2.budget "p" = ⟨0, 5⟩ ∧
      (execute (outboxEvent sampleRepositories) failedCalls [] Outbox.empty).2.store.presentations.rows.map
        McpInteractionPresentation.deliveryState = [.failed] ∧
      allowed (outboxEvent sampleRepositories) (fun call s =>
        InBudget sampleRepositories s (outboxEvent sampleRepositories call s).1) failedCalls Outbox.empty = true := by
    decide +kernel
  refine ⟨hchecked.1, hchecked.2.1, (delivery_budget_iff unpresented_empty).mpr ?_⟩
  apply execute_steps Run.nil hchecked.2.2
  intro call s hcall
  exact ⟨outboxStep_event sampleRepositories call s, of_decide_eq_true hcall⟩

/-- A form that was delivered and answered, and is opened again because the answer is rejected. -/
def reopenedForm : List ChannelCall :=
  sampleChannelCalls ++
    [.presentation (.leaseCallback "callbacks" 30 [] 6 7),
      .presentation (.rejectCallback (sampleLease 1) "IDENTITY_UNLINKED" false 8)]

def reopenedClaims : List ChannelCall :=
  (reopenedForm ++ [10, 10000000, 20000000, 40000000].flatMap failedClaim).dropLast

def fourthFailure : ChannelCall :=
  .presentation (.acknowledgeDelivery "b" 1 "p" "w" "token" false none 40000001)

/-- The opened form is abandoned after four failed claims: its earlier delivery was the fifth. -/
theorem reopened_abandoned_early :
    let run := execute (outboxEvent sampleRepositories) reopenedClaims [] Outbox.empty
    let last := outboxEvent sampleRepositories fourthFailure run.2
    inOrder ChannelCall.readings 0 (reopenedClaims ++ [fourthFailure]) = true ∧
      Run (outboxStep sampleRepositories) Outbox.empty run.1 run.2 ∧
      outboxStep sampleRepositories run.2 last.1 last.2 ∧
      last.2.budget "p" = ⟨1, 4⟩ ∧ ¬ Patient run.2 last.1 last.2 := by
  intro run last
  have hchecked : last.2.budget "p" = ⟨1, 4⟩ ∧
      (run.2.store.presentations.get? "p").map McpInteractionPresentation.deliveryState = some .leased ∧
      (last.2.store.presentations.get? "p").map McpInteractionPresentation.deliveryState = some .failed := by
    decide +kernel
  obtain ⟨hbudget, hleased, hfailed⟩ := hchecked
  refine ⟨by decide, ?_, outboxStep_event _ _ _, hbudget, ?_⟩
  · apply execute_steps Run.nil (allowed_true _ _ _)
    intro call s _
    exact outboxStep_event sampleRepositories call s
  · intro hpatient
    obtain ⟨row, hrow, hstate⟩ := Option.map_eq_some_iff.mp hleased
    obtain ⟨row', hrow', hstate'⟩ := Option.map_eq_some_iff.mp hfailed
    have hid := key_of_get? hrow
    have hlate := hpatient rfl row (mem_of_get? hrow) row' (mem_of_get? hrow')
      ((key_of_get? hrow').trans hid.symm) (by simp [hstate]) hstate'
    rw [hid, hbudget] at hlate
    exact absurd hlate (by decide)

end MultiRag.ChannelExecution
