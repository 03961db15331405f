/-
  **Runs of the interaction store** (`api/identity/mcp_interactions/service.py`).

  Any number of workers call the repository, each call in a transaction of its own:
  `PersistentInteractionService` commits what returns and rolls back what raises, except that
  `submit_response` commits the expiry it found.
-/
import MultiRag.InteractionInvariant

namespace MultiRag.McpInteractions

open List Table

/-! ### Calls -/

/-- A call with the readings of the clock its transaction takes. -/
inductive InteractionCall where
  | pause (newId entropy : String) (appNow now : Int) (request : InteractionRequest)
  | submitResponse (newId entropy : String) (now : Int) (principal : Principal)
      (interactionId : String) (revision : Nat) (responseIdempotencyKey : String)
      (inputResponses : List (String × Json))
  | projection (tenantId platformUserId interactionId : String)
  | leaseReady (owner : String) (leaseSeconds limit : Int) (locked : List String)
      (candidateNow : Int) (readings : List Int)
  | complete (lease : InteractionLeaseFence) (entropy : String) (fenceNow now : Int)
      (result : Json)
  | terminalFail (lease : InteractionLeaseFence) (fenceNow now : Int)
      (code : InteractionErrorCode)
  | retry (lease : InteractionLeaseFence) (fenceNow now delaySeconds : Int)
      (code : InteractionErrorCode)
  | renew (lease : InteractionLeaseFence) (fenceNow now leaseSeconds : Int)

inductive InteractionReply where
  | receipt (receipt : InteractionReceipt)
  | claim (claim : ResponseClaim)
  | projection (projection : InteractionProjection)
  | leases (leases : List InteractionLease)
  | done

abbrev Outcome := Except RepositoryError InteractionReply

def replying {α : Type} (reply : α → InteractionReply)
    (r : Except RepositoryError α × InteractionStore) : Outcome × InteractionStore :=
  (r.1.map reply, r.2)

def isExpired : RepositoryError → Bool
  | .state .expired => true
  | _ => false

def runCall (repository : InteractionRepository) :
    InteractionCall → InteractionStore → Outcome × InteractionStore
  | .pause newId entropy appNow now request, s =>
      replying .receipt (inTransaction (repository.pause newId entropy appNow now request) s)
  | .submitResponse newId entropy now principal interactionId revision key inputResponses, s =>
      replying .claim (inTransactionCatching isExpired
        (repository.submitResponse newId entropy now principal interactionId revision key
          inputResponses) s)
  | .projection tenantId platformUserId interactionId, s =>
      replying .projection
        (inTransaction (repository.projection tenantId platformUserId interactionId) s)
  | .leaseReady owner leaseSeconds limit locked candidateNow readings, s =>
      replying .leases (inTransaction
        (repository.leaseReady owner leaseSeconds limit locked candidateNow readings) s)
  | .complete lease entropy fenceNow now result, s =>
      replying (fun _ => .done)
        (inTransaction (repository.complete lease entropy fenceNow now result) s)
  | .terminalFail lease fenceNow now code, s =>
      replying (fun _ => .done)
        (inTransaction (InteractionRepository.terminalFail lease fenceNow now code) s)
  | .retry lease fenceNow now delaySeconds code, s =>
      replying (fun _ => .done)
        (inTransaction (InteractionRepository.retry lease fenceNow now delaySeconds code) s)
  | .renew lease fenceNow now leaseSeconds, s =>
      replying (fun _ => .done)
        (inTransaction (InteractionRepository.renew lease fenceNow now leaseSeconds) s)

def InteractionCall.readings : InteractionCall → List Int
  | .pause _ _ _ now _ => [now]
  | .submitResponse _ _ now _ _ _ _ _ => [now]
  | .projection _ _ _ => []
  | .leaseReady _ _ _ _ candidateNow readings => candidateNow :: readings
  | .complete _ _ fenceNow now _ => [fenceNow, now]
  | .terminalFail _ fenceNow now _ => [fenceNow, now]
  | .retry _ fenceNow now _ _ => [fenceNow, now]
  | .renew _ fenceNow now _ => [fenceNow, now]

/-- A call together with what it returned or raised. -/
structure InteractionEvent where
  call : InteractionCall
  outcome : Outcome

def interactionStep (repository : InteractionRepository) (s : InteractionStore)
    (e : InteractionEvent) (s' : InteractionStore) : Prop :=
  runCall repository e.call s = (e.outcome, s')

abbrev InteractionRun (repository : InteractionRepository) :=
  Run (clocked (fun e : InteractionEvent => e.call.readings) (interactionStep repository))

variable {s : InteractionStore} {interactionId tenantId : String} {row : McpInteraction}

theorem lockedInteraction_eq_some (h : s.lockedInteraction interactionId tenantId = some row) :
    row ∈ s.interactions ∧ row.id = interactionId ∧ row.tenantId = tenantId := by
  simp only [InteractionStore.lockedInteraction, Option.filter_eq_some_iff, beq_iff_eq] at h
  exact ⟨mem_of_get? h.1, key_of_get? h.1, h.2⟩

theorem lockedInteraction_eq_none (h : s.lockedInteraction interactionId tenantId = none) :
    ∀ row ∈ s.interactions, row.id = interactionId → row.tenantId ≠ tenantId := by
  rintro row hrow rfl htenant
  simp [InteractionStore.lockedInteraction, get?_of_mem hrow, htenant] at h

theorem lockedInteraction_of_mem (h : row ∈ s.interactions) :
    s.lockedInteraction row.id row.tenantId = some row := by
  simp only [InteractionStore.lockedInteraction, Option.filter_eq_some_iff, beq_iff_eq, and_true]
  exact get?_of_mem h

variable {job : McpInteractionResumeJob}

theorem jobOfRound_eq_some {revision : Nat} (h : s.jobOfRound interactionId revision = some job) :
    job ∈ s.jobs ∧ job.interactionId = interactionId ∧ job.revision = revision := by
  have hprop := find?_some h
  simp only [Bool.and_eq_true, beq_iff_eq] at hprop
  exact ⟨mem_of_find?_eq_some h, hprop.1, hprop.2⟩

theorem jobOfRound_eq_none :
    s.jobOfRound row.id row.revision = none ↔ Unanswered s row := by
  simp only [InteractionStore.jobOfRound, find?_eq_none, Bool.and_eq_true, beq_iff_eq,
    not_and]
  rfl

theorem insertJob_eq_ok {s' : InteractionStore} (h : s.insertJob job = .ok s') :
    ∃ jobs, s.jobs.insert? job = some jobs ∧ s' = { s with jobs := jobs } := by
  simp only [InteractionStore.insertJob] at h
  split_ifs at h
  split at h
  · cases h
  · next jobs hinsert =>
    cases h
    exact ⟨jobs, hinsert, rfl⟩

theorem lockedLease_eq_ok {lease : InteractionLeaseFence} {now : Int}
    (h : InteractionRepository.lockedLease lease now s = .ok (row, job)) :
    Fenced s lease now row job := by
  simp only [InteractionRepository.lockedLease] at h
  split at h
  · cases h
  next job' hjob =>
  split at h
  · cases h
  next row' hrow =>
  split_ifs at h with hconfl hexp
  cases h
  simp only [not_or, not_not] at hconfl
  obtain ⟨hstate, howner, hatt, huntil, hresuming, hrev⟩ := hconfl
  obtain ⟨hmem, hid, -⟩ := lockedInteraction_eq_some hrow
  refine ⟨⟨hmem, mem_of_get? hjob, hid.symm, hrev.symm⟩, key_of_get? hjob, hstate,
    howner, hatt, ?_, hresuming, not_le.mp hexp⟩
  cases hlease : job.leaseUntil with
  | none => simp [hlease] at huntil
  | some until_ => exact ⟨until_, rfl, by simpa [hlease] using huntil⟩

/-! ### Each function is a sequence of writes of the protocol -/

def InteractionEvent.issued (e : InteractionEvent) : List InteractionLeaseFence :=
  match e.outcome with
  | .ok (.leases leases) => leases.map InteractionLease.toInteractionLeaseFence
  | _ => []

/-- The lease with which a committed `complete`, `terminal_fail` or `_advance`
    ended its round. -/
def InteractionEvent.closing (e : InteractionEvent) : Option InteractionLeaseFence :=
  match e.outcome with
  | .error _ => none
  | .ok _ =>
      match e.call with
      | .pause _ _ _ _ request => request.leaseFence
      | .complete lease _ _ _ _ => some lease
      | .terminalFail lease _ _ _ => some lease
      | _ => none

/-- A run of the round protocol that hands out `leases` and closes with `closing`. -/
def Rounds (maxRounds : Nat) (s : InteractionStore) (leases : List InteractionLeaseFence)
    (closing : Option InteractionLeaseFence) (s' : InteractionStore) : Prop :=
  ∃ events, Run (RoundStep maxRounds) s events s' ∧
    events.filterMap RoundEvent.issued = leases.reverse ∧
    closing.toList.Sublist (events.filterMap RoundEvent.closing)

variable {repository : InteractionRepository} {maxRounds : Nat} {s' : InteractionStore}

theorem Rounds.refl : Rounds maxRounds s [] none s :=
  ⟨[], Run.nil, rfl, Sublist.refl _⟩

theorem Rounds.anyClosing {leases : List InteractionLeaseFence}
    {closing : Option InteractionLeaseFence} (h : Rounds maxRounds s leases closing s') :
    Rounds maxRounds s leases none s' := by
  obtain ⟨events, hrun, hissued, -⟩ := h
  exact ⟨events, hrun, hissued, nil_sublist _⟩

theorem Rounds.single {event : RoundEvent} (step : RoundStep maxRounds s event s') :
    Rounds maxRounds s event.issued.toList event.closing s' := by
  refine ⟨[event], Run.cons Run.nil step, ?_, ?_⟩
  · cases event <;> rfl
  · cases event <;> exact Sublist.refl _

variable {newId entropy : String} {request : InteractionRequest}
  {inputRequests : List (String × Json)} {outputSchema : Option (List (String × Json))} {receipt : InteractionReceipt}

theorem create_rounds {appNow : Int}
    (h : repository.create newId entropy appNow request inputRequests outputSchema s =
      (.ok receipt, s')) :
    Rounds repository.maxRounds s [] none s' := by
  simp only [InteractionRepository.create] at h
  split at h
  · cases h
  next round hround =>
  split at h
  · cases h
  next interactions hinsert =>
  cases h
  exact Rounds.single (RoundStep.opened hinsert rfl rfl rfl request.effect_ne)

variable {now : Int}

theorem advance_rounds {previousRevision : Nat} {fence : InteractionLeaseFence}
    (h : repository.advance interactionId previousRevision fence entropy now request inputRequests
      outputSchema s = (.ok receipt, s')) :
    ∃ row job, Fenced s fence now row job ∧
      Rounds repository.maxRounds s [] (some fence) s' := by
  simp only [InteractionRepository.advance] at h
  split at h
  · cases h
  next job hjob =>
  split at h
  · cases h
  next row hrow =>
  split at h
  · cases h
  next hfence =>
  split at h
  · cases h
  next hstate =>
  split at h
  · cases h
  next hexp =>
  split at h
  · cases h
  next hlimit =>
  split at h
  · cases h
  split at h
  · cases h
  next round _ =>
  cases h
  simp only [not_or, not_not] at hfence hstate
  obtain ⟨hinter, hprev, hleased, howner, hatt, huntil⟩ := hfence
  obtain ⟨hmem, hid, -⟩ := lockedInteraction_eq_some hrow
  have hfenced : Fenced s fence now row job := by
    refine ⟨⟨hmem, mem_of_get? hjob, hinter.trans hid.symm,
      hprev.trans hstate.2.symm⟩, key_of_get? hjob, hleased, howner, hatt, ?_,
      hstate.1, not_le.mp hexp⟩
    cases hlease : job.leaseUntil with
    | none => simp [hlease] at huntil
    | some until_ => exact ⟨until_, rfl, by simpa [hlease] using huntil⟩
  have hnext : NextRound row
      (repository.advancedRow row round request inputRequests outputSchema now) :=
    ⟨rfl, rfl, rfl, rfl, rfl, rfl, rfl, rfl, rfl⟩
  refine ⟨row, job, hfenced, ?_⟩
  exact Rounds.single (RoundStep.paired hfenced.toCurrentRound
    (PairChange.advanced hfenced (not_le.mp hlimit) hnext))

theorem InteractionRequest.advancing (request : InteractionRequest) :
    (request.interactionId = none ∧ request.leaseFence = none) ∨
      ∃ interactionId revision fence, request.interactionId = some interactionId ∧
        request.previousRevision = some revision ∧ request.leaseFence = some fence := by
  have hvalid := request.valid
  simp only [RequestFields.valid, Bool.and_eq_true] at hvalid
  obtain ⟨-, hmatch⟩ := hvalid
  split at hmatch
  · next h₁ h₂ h₃ => exact .inl ⟨h₁, h₃⟩
  · next h₁ h₂ h₃ => exact .inr ⟨_, _, _, h₁, h₂, h₃⟩
  · cases hmatch

theorem pause_rounds {appNow : Int}
    (h : repository.pause newId entropy appNow now request s = (.ok receipt, s')) :
    (∀ fence, request.leaseFence = some fence → ∃ row job, Fenced s fence now row job) ∧
      Rounds repository.maxRounds s [] request.leaseFence s' := by
  simp only [InteractionRepository.pause] at h
  split at h
  · cases h
  split at h
  · cases h
  rcases request.advancing with ⟨hnone, hfence⟩ | ⟨interactionId, revision, fence, h₁, h₂, h₃⟩
  · rw [hnone] at h
    rw [hfence]
    refine ⟨?_, create_rounds h⟩
    exact nofun
  · rw [h₁, h₂, h₃] at h
    obtain ⟨row, job, hfenced, hrounds⟩ := advance_rounds h
    rw [h₃]
    refine ⟨?_, hrounds⟩
    intro fence' hsome
    cases hsome
    exact ⟨row, job, hfenced⟩

/-- The row a submission is addressed to: it exists, belongs to the actor and is
    at the round the answer is for. -/
structure Addressed (s : InteractionStore) (principal : Principal) (interactionId : String)
    (revision : Nat) (row : McpInteraction) : Prop where
  mem : row ∈ s.interactions
  id : row.id = interactionId
  tenantId : row.tenantId = principal.tenantId
  platformUserId : row.platformUserId = principal.platformUserId
  externalIdentityId : row.externalIdentityId = principal.externalIdentityId
  revision : row.revision = revision

/-- What `submit_response` can do: refuse and leave the store alone, find the
    interaction expired, recognise the answer, or accept it. -/
inductive Submitted (repository : InteractionRepository) (newId : String) (now : Int)
    (principal : Principal) (interactionId : String) (revision : Nat) (key : String)
    (s : InteractionStore) : Except RepositoryError ResponseClaim → InteractionStore → Prop
  | refused (error : RepositoryError) :
      Submitted repository newId now principal interactionId revision key s (.error error) s
  | lapsed {row : McpInteraction} (addressed : Addressed s principal interactionId revision row)
      (unanswered : Unanswered s row) (late : row.expiresAt ≤ now) :
      Submitted repository newId now principal interactionId revision key s
        (.error (.state .expired)) (s.putRow (row.withState .expired now))
  | duplicate {row : McpInteraction} {job : McpInteractionResumeJob}
      (addressed : Addressed s principal interactionId revision row)
      (round : CurrentRound s row job)
      (digest : repository.idempotencyDigest principal.tenantId interactionId revision key =
        .ok job.responseIdempotencyKey) :
      Submitted repository newId now principal interactionId revision key s
        (.ok ⟨interactionId, revision, .duplicate⟩) s
  | accepted {row : McpInteraction} {job : McpInteractionResumeJob}
      {jobs : Table McpInteractionResumeJob McpInteractionResumeJob.id} {state : InteractionState}
      (addressed : Addressed s principal interactionId revision row)
      (awaiting : row.state = .awaitingInput) (live : now < row.expiresAt)
      (unanswered : Unanswered s row) (insert : s.jobs.insert? job = some jobs)
      (job_id : job.id = newId) (interaction : job.interactionId = row.id)
      (tenant : job.tenantId = row.tenantId) (round : job.revision = row.revision)
      (digest : repository.idempotencyDigest principal.tenantId interactionId revision key =
        .ok job.responseIdempotencyKey)
      (attempt : job.attempt = 0)
      (states : (job.state = .responseReady ∧ state = .responseReady) ∨
        (job.state = .succeeded ∧ (state = .declined ∨ state = .cancelled))) :
      Submitted repository newId now principal interactionId revision key s
        (.ok ⟨interactionId, revision, .accepted⟩)
        (InteractionStore.putRow { s with jobs := jobs } (row.withState state now))

theorem responseTerminalState_cases (responses : List (String × Json)) :
    InteractionRepository.responseTerminalState responses = none ∨
      InteractionRepository.responseTerminalState responses = some .declined ∨
      InteractionRepository.responseTerminalState responses = some .cancelled := by
  unfold InteractionRepository.responseTerminalState
  dsimp only
  split_ifs <;> simp

variable {key : String} {principal : Principal} {revision : Nat}
  {inputResponses : List (String × Json)} {r : Except RepositoryError ResponseClaim}

theorem submitFirstResponse_submitted {digest : String}
    (addressed : Addressed s principal interactionId revision row) (unanswered : Unanswered s row)
    (hdigest : repository.idempotencyDigest principal.tenantId interactionId revision key =
      .ok digest)
    (h : repository.submitFirstResponse newId entropy digest now row inputResponses s = (r, s')) :
    Submitted repository newId now principal interactionId revision key s r s' := by
  simp only [InteractionRepository.submitFirstResponse] at h
  split at h
  · next hover =>
    cases h
    exact Submitted.lapsed addressed unanswered hover
  next hlive =>
  split at h
  · cases h
    exact Submitted.refused _
  next hawaiting =>
  split at h
  · cases h
    exact Submitted.refused _
  split at h
  · cases h
    exact Submitted.refused _
  next responses hresps =>
  split at h
  · cases h
    exact Submitted.refused _
  next encrypted _ =>
  split at h
  · cases h
    exact Submitted.refused _
  next s₁ hinsert =>
  cases h
  obtain ⟨jobs, hjobs, rfl⟩ := insertJob_eq_ok hinsert
  rw [addressed.id, addressed.revision]
  refine Submitted.accepted addressed (not_not.mp hawaiting) (not_le.mp hlive) unanswered hjobs rfl
    rfl rfl rfl hdigest rfl ?_
  rcases responseTerminalState_cases responses with hnone | hsome | hsome
  · simp [InteractionRepository.responseJob, hnone]
  · simp [InteractionRepository.responseJob, hsome]
  · simp [InteractionRepository.responseJob, hsome]

theorem submitResponse_submitted
    (h : repository.submitResponse newId entropy now principal interactionId revision key
      inputResponses s = (r, s')) :
    Submitted repository newId now principal interactionId revision key s r s' := by
  simp only [InteractionRepository.submitResponse] at h
  split at h
  · cases h
    exact Submitted.refused _
  next digest hdigest =>
  split at h
  · cases h
    exact Submitted.refused _
  next row hrow =>
  obtain ⟨hmem, hid, htenant⟩ := lockedInteraction_eq_some hrow
  split at h
  · cases h
    exact Submitted.refused _
  next hactor =>
  split at h
  · cases h
    exact Submitted.refused _
  next hrev =>
  simp only [not_or, not_not] at hactor hrev
  have addressed : Addressed s principal interactionId revision row :=
    ⟨hmem, hid, htenant, hactor.1, hactor.2, hrev⟩
  split at h
  · next existing hexisting =>
    obtain ⟨hjob, hjobId, hjobRevision⟩ := jobOfRound_eq_some hexisting
    split at h
    · next hsame =>
      cases h
      rw [hid]
      exact Submitted.duplicate addressed
        ⟨hmem, hjob, hjobId, hjobRevision.trans hrev.symm⟩ (hsame ▸ hdigest)
    · cases h
      exact Submitted.refused _
  · next hnone =>
    rw [← hrev] at hnone
    exact submitFirstResponse_submitted addressed (jobOfRound_eq_none.mp hnone) hdigest h

theorem Submitted.rounds
    (h : Submitted repository newId now principal interactionId revision key s r s') :
    Rounds repository.maxRounds s [] none s' := by
  cases h with
  | refused error => exact Rounds.refl
  | lapsed addressed unanswered late =>
    exact Rounds.single (RoundStep.lapsed addressed.mem unanswered late)
  | duplicate _ _ _ => exact Rounds.refl
  | accepted addressed awaiting live unanswered insert _ interaction tenant round _ attempt states =>
    exact Rounds.single (RoundStep.answered addressed.mem awaiting live unanswered insert
      interaction tenant round attempt states)

/-! ### Leasing -/

variable {owner : String} {leaseSeconds : Int}

theorem leaseJob_step {lease : Option InteractionLease} (mem : job ∈ s.jobs)
    (due : job.state = .responseReady ∨ job.state = .leased)
    (h : repository.leaseJob owner leaseSeconds now job s = (.ok lease, s')) :
    ∃ event, RoundStep repository.maxRounds s event s' ∧
      event.issued = lease.map InteractionLease.toInteractionLeaseFence ∧
      event.closing = none ∧ ∀ y ∈ s.jobs, y.id ≠ job.id → y ∈ s'.jobs := by
  have hkeep : ∀ (job' : McpInteractionResumeJob), job'.id = job.id →
      ∀ y ∈ s.jobs, y.id ≠ job.id → y ∈ (s.putJob job').jobs :=
    fun job' hid y hy hne => (mem_putJob mem hid).mpr (.inr ⟨hy, hne⟩)
  simp only [InteractionRepository.leaseJob] at h
  split at h
  · next hnone =>
    cases h
    refine ⟨_, RoundStep.orphaned mem due ?_, rfl, rfl, hkeep _ rfl⟩
    intro row hrow hid htenant hrev
    have hlocked := lockedInteraction_of_mem hrow
    rw [hid, htenant] at hlocked
    rw [hlocked] at hnone
    simp [hrev] at hnone
  next row hrow =>
  rw [Option.filter_eq_some_iff, beq_iff_eq] at hrow
  obtain ⟨hmem, hid, -⟩ := lockedInteraction_eq_some hrow.1
  have round : CurrentRound s row job := ⟨hmem, mem, hid.symm, hrow.2.symm⟩
  split at h
  · cases h
    exact ⟨_, RoundStep.paired round (PairChange.dropped due (.inl rfl)), rfl, rfl, hkeep _ rfl⟩
  split at h
  · cases h
    exact ⟨_, RoundStep.paired round (PairChange.dropped due (.inr rfl)), rfl, rfl, hkeep _ rfl⟩
  next heffect =>
  split at h
  · cases h
    exact ⟨_, RoundStep.paired round (PairChange.dropped due (.inr rfl)), rfl, rfl, hkeep _ rfl⟩
  next hunknown =>
  split at h
  · cases h
  next resume _ =>
  cases h
  have hreusable : job.state = .leased → row.replayMode = .reusable := by
    intro hleased
    by_contra hmode
    exact hunknown ⟨hleased, hmode⟩
  exact ⟨_, RoundStep.paired round (PairChange.leased due heffect hreusable), rfl, rfl, hkeep _ rfl⟩

variable {candidateNow : Int}

theorem due_open (h : InteractionRepository.due candidateNow job = true) :
    job.state = .responseReady ∨ job.state = .leased := by
  simp only [InteractionRepository.due, Bool.or_eq_true, Bool.and_eq_true, beq_iff_eq] at h
  rcases h with ⟨hready, -⟩ | ⟨hleased, -⟩
  · exact .inl hready
  · exact .inr hleased

variable {readings : List Int} {leases : List InteractionLease}

theorem leaseJobs_rounds {jobs : List McpInteractionResumeJob} {last : Int}
    (hjobs : ∀ job ∈ jobs, job ∈ s.jobs ∧ (job.state = .responseReady ∨ job.state = .leased))
    (hnodup : (jobs.map McpInteractionResumeJob.id).Nodup)
    (h : repository.leaseJobs owner leaseSeconds last readings jobs s = (.ok leases, s')) :
    Rounds repository.maxRounds s (leases.map InteractionLease.toInteractionLeaseFence) none s' := by
  induction jobs generalizing s last readings leases with
  | nil =>
    cases h
    exact Rounds.refl
  | cons job jobs ih =>
    simp only [InteractionRepository.leaseJobs] at h
    split at h
    · cases h
    next lease s₁ hjob =>
    split at h
    · cases h
    next leases' s₂ hrest =>
    cases h
    obtain ⟨hmem, hdue⟩ := hjobs job mem_cons_self
    obtain ⟨event, hstep, hissued, hclosing, hkeep⟩ := leaseJob_step hmem hdue hjob
    rw [map_cons, nodup_cons] at hnodup
    have hjobs' : ∀ y ∈ jobs, y ∈ s₁.jobs ∧ (y.state = .responseReady ∨ y.state = .leased) := by
      intro y hy
      obtain ⟨hy', hdue'⟩ := hjobs y (mem_cons_of_mem _ hy)
      refine ⟨hkeep y hy' ?_, hdue'⟩
      intro hid
      exact hnodup.1 (mem_map.mpr ⟨y, hy, hid⟩)
    obtain ⟨events, hrun, hissued', hclosing'⟩ := ih hjobs' hnodup.2 hrest
    refine ⟨events ++ [event], Run.append (Run.cons Run.nil hstep) hrun, ?_, ?_⟩
    · rw [filterMap_append, hissued', map_append, reverse_append]
      cases lease <;> simp_all
    · exact nil_sublist _

theorem leaseReady_rounds {limit : Int} {locked : List String}
    (h : repository.leaseReady owner leaseSeconds limit locked candidateNow readings s =
      (.ok leases, s')) :
    Rounds repository.maxRounds s (leases.map InteractionLease.toInteractionLeaseFence) none s' := by
  simp only [InteractionRepository.leaseReady] at h
  split at h
  · cases h
  split at h
  · cases h
  refine leaseJobs_rounds ?_ (nodup_selectOrdered _ _ _ _) h
  intro job hjob
  obtain ⟨hmem, hdue⟩ := mem_of_mem_selectOrdered hjob
  rw [Bool.and_eq_true] at hdue
  exact ⟨hmem, due_open hdue.1⟩

/-! ### Finishing -/

variable {lease : InteractionLeaseFence} {fenceNow : Int}

theorem complete_rounds {result : Json}
    (h : repository.complete lease entropy fenceNow now result s = (.ok (), s')) :
    (∃ row job, Fenced s lease fenceNow row job) ∧
      Rounds repository.maxRounds s [] (some lease) s' := by
  simp only [InteractionRepository.complete] at h
  split at h
  · cases h
  next row job hlease =>
  split at h
  · cases h
  split at h
  · cases h
  split at h
  · cases h
  cases h
  have hfenced := lockedLease_eq_ok hlease
  exact ⟨⟨row, job, hfenced⟩,
    Rounds.single (RoundStep.paired hfenced.toCurrentRound (PairChange.completed hfenced))⟩

variable {code : InteractionErrorCode}

theorem terminalFail_rounds
    (h : InteractionRepository.terminalFail lease fenceNow now code s = (.ok (), s')) :
    (∃ row job, Fenced s lease fenceNow row job) ∧ Rounds maxRounds s [] (some lease) s' := by
  simp only [InteractionRepository.terminalFail] at h
  split at h
  · cases h
  next row job hlease =>
  cases h
  have hfenced := lockedLease_eq_ok hlease
  exact ⟨⟨row, job, hfenced⟩,
    Rounds.single (RoundStep.paired hfenced.toCurrentRound (PairChange.failed hfenced))⟩

theorem retry_rounds {delaySeconds : Int}
    (h : InteractionRepository.retry lease fenceNow now delaySeconds code s = (.ok (), s')) :
    (∃ row job, Fenced s lease fenceNow row job) ∧ Rounds maxRounds s [] none s' := by
  simp only [InteractionRepository.retry] at h
  split at h
  · cases h
  next row job hlease =>
  have hfenced := lockedLease_eq_ok hlease
  refine ⟨⟨row, job, hfenced⟩, ?_⟩
  split at h
  · cases h
    exact (Rounds.single (RoundStep.paired hfenced.toCurrentRound
      (PairChange.failed hfenced))).anyClosing
  · next hreusable =>
    cases h
    rw [not_or, not_not] at hreusable
    exact Rounds.single
      (RoundStep.paired hfenced.toCurrentRound (PairChange.returned hfenced hreusable.2))

theorem renew_rounds
    (h : InteractionRepository.renew lease fenceNow now leaseSeconds s = (.ok (), s')) :
    (∃ row job, Fenced s lease fenceNow row job) ∧ Rounds maxRounds s [] none s' := by
  simp only [InteractionRepository.renew] at h
  split at h
  · cases h
  split at h
  · cases h
  next row job hlease =>
  cases h
  have hfenced := lockedLease_eq_ok hlease
  refine ⟨⟨row, job, hfenced⟩, ?_⟩
  have hrow : s.putRow row = s := by
    simp only [InteractionStore.putRow, put_self hfenced.row_mem]
  have hstep : ∀ job', PairChange s maxRounds row job (.renewed lease) row job' →
      RoundStep maxRounds s (.renewed lease) (s.putJob job') := by
    intro job' change
    have hpaired := RoundStep.paired hfenced.toCurrentRound change
    rwa [hrow] at hpaired
  exact Rounds.single (hstep _ (PairChange.renewed hfenced))

variable {α : Type} {reply : α → InteractionReply} {outcome : Outcome}
  {f : InteractionStore → Except RepositoryError α × InteractionStore}

theorem replying_transaction
    (h : replying reply (inTransaction f s) = (outcome, s')) :
    (∃ value, outcome = .ok (reply value) ∧ f s = (.ok value, s')) ∨
      ∃ error, outcome = .error error ∧ s' = s := by
  rcases hf : inTransaction f s with ⟨r, t⟩
  rw [hf] at h
  cases h
  rcases inTransaction_cases hf with ⟨value, rfl, hvalue⟩ | ⟨error, rfl, rfl⟩
  · exact .inl ⟨value, rfl, hvalue⟩
  · exact .inr ⟨error, rfl, rfl⟩

theorem replying_transactionCatching {caught : RepositoryError → Bool}
    (h : replying reply (inTransactionCatching caught f s) = (outcome, s')) :
    (∃ r, outcome = r.map reply ∧ f s = (r, s')) ∨ ∃ error, outcome = .error error ∧ s' = s := by
  rcases hf : inTransactionCatching caught f s with ⟨r, t⟩
  rw [hf] at h
  cases h
  rcases inTransactionCatching_cases hf with hr | ⟨error, rfl, rfl⟩
  · exact .inl ⟨r, rfl, hr⟩
  · exact .inr ⟨error, rfl, rfl⟩

/-- **Refinement.**  Every call of the service is a run of the round protocol that
    hands out the leases the call returns. -/
theorem interactionStep_rounds {e : InteractionEvent} (h : interactionStep repository s e s') :
    Rounds repository.maxRounds s e.issued e.closing s' := by
  obtain ⟨call, outcome⟩ := e
  cases call with
  | pause newId entropy appNow now request =>
    rcases replying_transaction h with ⟨receipt, rfl, hf⟩ | ⟨error, rfl, rfl⟩
    · exact (pause_rounds hf).2
    · exact Rounds.refl
  | submitResponse newId entropy now principal interactionId revision key inputResponses =>
    rcases replying_transactionCatching h with ⟨r, rfl, hf⟩ | ⟨error, rfl, rfl⟩
    · have hrounds := (submitResponse_submitted hf).rounds
      cases r <;> exact hrounds
    · exact Rounds.refl
  | projection tenantId platformUserId interactionId =>
    rcases replying_transaction h with ⟨value, rfl, hf⟩ | ⟨error, rfl, rfl⟩
    · simp only [InteractionRepository.projection] at hf
      split at hf
      · cases hf
      split at hf
      · cases hf
      cases hf
      exact Rounds.refl
    · exact Rounds.refl
  | leaseReady owner leaseSeconds limit locked candidateNow readings =>
    rcases replying_transaction h with ⟨leases, rfl, hf⟩ | ⟨error, rfl, rfl⟩
    · exact leaseReady_rounds hf
    · exact Rounds.refl
  | complete lease entropy fenceNow now result =>
    rcases replying_transaction h with ⟨value, rfl, hf⟩ | ⟨error, rfl, rfl⟩
    · exact (complete_rounds hf).2
    · exact Rounds.refl
  | terminalFail lease fenceNow now code =>
    rcases replying_transaction h with ⟨value, rfl, hf⟩ | ⟨error, rfl, rfl⟩
    · exact (terminalFail_rounds hf).2
    · exact Rounds.refl
  | retry lease fenceNow now delaySeconds code =>
    rcases replying_transaction h with ⟨value, rfl, hf⟩ | ⟨error, rfl, rfl⟩
    · exact (retry_rounds hf).2
    · exact Rounds.refl
  | renew lease fenceNow now leaseSeconds =>
    rcases replying_transaction h with ⟨value, rfl, hf⟩ | ⟨error, rfl, rfl⟩
    · exact (renew_rounds hf).2
    · exact Rounds.refl

theorem interactionRun_rounds {w w' : Clocked InteractionStore Int} {hist : List InteractionEvent}
    (h : InteractionRun repository w hist w') :
    ∃ events, Run (RoundStep repository.maxRounds) w.store events w'.store ∧
      events.filterMap RoundEvent.issued =
        hist.flatMap (fun e => (InteractionEvent.issued e).reverse) ∧
      (hist.filterMap InteractionEvent.closing).Sublist (events.filterMap RoundEvent.closing) := by
  induction h with
  | nil => exact ⟨[], Run.nil, rfl, Sublist.refl _⟩
  | @cons hist m w' e hrun hstep ih =>
    obtain ⟨events, hevents, hissued, hclosing⟩ := ih
    obtain ⟨events', hevents', hissued', hclosing'⟩ := interactionStep_rounds hstep.store_step
    refine ⟨events' ++ events, Run.append hevents hevents', ?_, ?_⟩
    · rw [filterMap_append, flatMap_cons, hissued, hissued']
    · rw [filterMap_append]
      have hhead : (e :: hist).filterMap InteractionEvent.closing =
          e.closing.toList ++ hist.filterMap InteractionEvent.closing := by
        cases hclose : e.closing <;> simp [hclose]
      rw [hhead]
      exact Sublist.append hclosing' hclosing

end MultiRag.McpInteractions
