/-
  **The round protocol behind the interaction repository.**

  A round is a pair: the interaction row and the resume job that answers it. `RoundStep` says what
  one write of the repository can do to the two tables, with the guards it was made under, and
  which `RoundEvent` it is.
-/
import MultiRag.InteractionRepository

namespace MultiRag.McpInteractions

open InteractionRepository (leasedJob retriedJob)

/-! ### Events -/

inductive Closing where
  | advanced | completed | failed

inductive RoundEvent where
  | opened (interactionId : String)
  | lapsed (interactionId : String) (revision : Nat)
  | answered (interactionId : String) (revision : Nat) (jobId digest : String)
  | leased (lease : InteractionLeaseFence)
  | dropped (jobId : String)
  | closed (how : Closing) (lease : InteractionLeaseFence)
  | returned (lease : InteractionLeaseFence)
  | renewed (lease : InteractionLeaseFence)

def RoundEvent.issued : RoundEvent → Option InteractionLeaseFence
  | .leased lease => some lease
  | _ => none

def RoundEvent.closing : RoundEvent → Option InteractionLeaseFence
  | .closed _ lease => some lease
  | _ => none

/-! ### Guards -/

structure CurrentRound (s : InteractionStore) (row : McpInteraction)
    (job : McpInteractionResumeJob) : Prop where
  row_mem : row ∈ s.interactions
  job_mem : job ∈ s.jobs
  interaction : job.interactionId = row.id
  revision : job.revision = row.revision

/-- What both fence checks of the repository establish at the reading `now`. -/
structure Fenced (s : InteractionStore) (lease : InteractionLeaseFence) (now : Int)
    (row : McpInteraction) (job : McpInteractionResumeJob) : Prop
    extends CurrentRound s row job where
  job_id : job.id = lease.jobId
  leased : job.state = .leased
  owner : job.leaseOwner = some lease.owner
  attempt : job.attempt = lease.attempt
  deadline : ∃ until_, job.leaseUntil = some until_ ∧ now < until_
  resuming : row.state = .resuming
  live : now < row.expiresAt

/-- No job answers the current round of `row`. -/
def Unanswered (s : InteractionStore) (row : McpInteraction) : Prop :=
  ∀ job ∈ s.jobs, job.interactionId = row.id → job.revision ≠ row.revision

structure NextRound (row row' : McpInteraction) : Prop where
  id : row'.id = row.id
  tenantId : row'.tenantId = row.tenantId
  platformUserId : row'.platformUserId = row.platformUserId
  externalIdentityId : row'.externalIdentityId = row.externalIdentityId
  effect : row'.effect = row.effect
  replayMode : row'.replayMode = row.replayMode
  state : row'.state = .awaitingInput
  revision : row'.revision = row.revision + 1
  roundCount : row'.roundCount = row.roundCount + 1

inductive PairChange (s : InteractionStore) (maxRounds : Nat) (row : McpInteraction)
    (job : McpInteractionResumeJob) :
    RoundEvent → McpInteraction → McpInteractionResumeJob → Prop
  | leased {owner : String} {leaseSeconds now : Int}
      (due : job.state = .responseReady ∨ job.state = .leased)
      (effect : row.effect ≠ .sideEffect)
      (reusable : job.state = .leased → row.replayMode = .reusable) :
      PairChange s maxRounds row job (.leased ⟨job.id, owner, job.attempt + 1⟩)
        (row.withState .resuming now) (leasedJob job owner leaseSeconds now)
  | dropped {state : InteractionState} {now : Int} {code : InteractionErrorCode}
      (due : job.state = .responseReady ∨ job.state = .leased)
      (given_up : state = .expired ∨ state = .failed) :
      PairChange s maxRounds row job (.dropped job.id) (row.withState state now)
        (job.terminalJob now code)
  | advanced {lease : InteractionLeaseFence} {now : Int} {row' : McpInteraction}
      (fenced : Fenced s lease now row job) (limit : row.roundCount < maxRounds)
      (next : NextRound row row') :
      PairChange s maxRounds row job (.closed .advanced lease) row' (job.succeededJob now)
  | completed {lease : InteractionLeaseFence} {fenceNow now : Int}
      {result : EncryptedInteractionPayload} (fenced : Fenced s lease fenceNow row job) :
      PairChange s maxRounds row job (.closed .completed lease)
        { row.withState .completed now with result := some result } (job.succeededJob now)
  | failed {lease : InteractionLeaseFence} {fenceNow now : Int} {code : InteractionErrorCode}
      (fenced : Fenced s lease fenceNow row job) :
      PairChange s maxRounds row job (.closed .failed lease) (row.withState .failed now)
        (job.terminalJob now code)
  | returned {lease : InteractionLeaseFence} {fenceNow now delaySeconds : Int}
      {code : InteractionErrorCode} (fenced : Fenced s lease fenceNow row job)
      (reusable : row.replayMode = .reusable) :
      PairChange s maxRounds row job (.returned lease) (row.withState .responseReady now)
        (retriedJob job delaySeconds now code)
  | renewed {lease : InteractionLeaseFence} {fenceNow now until_ : Int}
      (fenced : Fenced s lease fenceNow row job) :
      PairChange s maxRounds row job (.renewed lease) row
        { job with leaseUntil := some until_, updatedAt := now }

inductive RoundStep (maxRounds : Nat) : InteractionStore → RoundEvent → InteractionStore → Prop
  | opened {s : InteractionStore} {row : McpInteraction} {interactions : Table McpInteraction _}
      (insert : s.interactions.insert? row = some interactions) (state : row.state = .awaitingInput)
      (revision : row.revision = 1) (roundCount : row.roundCount = 1)
      (effect : row.effect ≠ .sideEffect) :
      RoundStep maxRounds s (.opened row.id) { s with interactions := interactions }
  | lapsed {s : InteractionStore} {row : McpInteraction} {now : Int}
      (mem : row ∈ s.interactions) (unanswered : Unanswered s row) (late : row.expiresAt ≤ now) :
      RoundStep maxRounds s (.lapsed row.id row.revision) (s.putRow (row.withState .expired now))
  | answered {s : InteractionStore} {row : McpInteraction} {job : McpInteractionResumeJob}
      {jobs : Table McpInteractionResumeJob _} {state : InteractionState} {now : Int}
      (mem : row ∈ s.interactions) (awaiting : row.state = .awaitingInput)
      (live : now < row.expiresAt) (unanswered : Unanswered s row)
      (insert : s.jobs.insert? job = some jobs) (interaction : job.interactionId = row.id)
      (tenant : job.tenantId = row.tenantId) (revision : job.revision = row.revision)
      (attempt : job.attempt = 0)
      (states : (job.state = .responseReady ∧ state = .responseReady) ∨
        (job.state = .succeeded ∧ (state = .declined ∨ state = .cancelled))) :
      RoundStep maxRounds s (.answered row.id row.revision job.id job.responseIdempotencyKey)
        (InteractionStore.putRow { s with jobs := jobs } (row.withState state now))
  | paired {s : InteractionStore} {row row' : McpInteraction} {job job' : McpInteractionResumeJob}
      {event : RoundEvent} (round : CurrentRound s row job)
      (change : PairChange s maxRounds row job event row' job') :
      RoundStep maxRounds s event ((s.putRow row').putJob job')
  /-- A due job without a row of its round; `Consistent` excludes it. -/
  | orphaned {s : InteractionStore} {job : McpInteractionResumeJob} {now : Int}
      (mem : job ∈ s.jobs) (due : job.state = .responseReady ∨ job.state = .leased)
      (none : ∀ row ∈ s.interactions, row.id = job.interactionId → row.tenantId = job.tenantId →
        row.revision ≠ job.revision) :
      RoundStep maxRounds s (.dropped job.id) (s.putJob (job.terminalJob now .stateConflict))

/-! ### Facts about every change of a round -/

namespace PairChange

variable {s : InteractionStore} {maxRounds : Nat} {row row' : McpInteraction}
  {job job' : McpInteractionResumeJob} {event : RoundEvent}

section

variable (change : PairChange s maxRounds row job event row' job')
include change

theorem open_job :
    job.state = .responseReady ∨ job.state = .leased := by
  cases change with
  | leased due _ _ => exact due
  | dropped due _ => exact due
  | advanced fenced _ _ => exact .inr fenced.leased
  | completed fenced => exact .inr fenced.leased
  | failed fenced => exact .inr fenced.leased
  | returned fenced _ => exact .inr fenced.leased
  | renewed fenced => exact .inr fenced.leased

/-- The identity of the row: who may answer it and how it may be replayed. -/
structure SameRow (row row' : McpInteraction) : Prop where
  id : row'.id = row.id
  tenantId : row'.tenantId = row.tenantId
  platformUserId : row'.platformUserId = row.platformUserId
  externalIdentityId : row'.externalIdentityId = row.externalIdentityId
  effect : row'.effect = row.effect
  replayMode : row'.replayMode = row.replayMode

theorem sameRow : SameRow row row' := by
  cases change with
  | advanced _ _ next =>
    exact ⟨next.id, next.tenantId, next.platformUserId, next.externalIdentityId, next.effect,
      next.replayMode⟩
  | _ => exact ⟨rfl, rfl, rfl, rfl, rfl, rfl⟩

/-- The identity of the job: the round and the answer it stands for. -/
structure SameJob (job job' : McpInteractionResumeJob) : Prop where
  id : job'.id = job.id
  interactionId : job'.interactionId = job.interactionId
  tenantId : job'.tenantId = job.tenantId
  revision : job'.revision = job.revision
  responseIdempotencyKey : job'.responseIdempotencyKey = job.responseIdempotencyKey

theorem sameJob : SameJob job job' := by
  cases change <;> exact ⟨rfl, rfl, rfl, rfl, rfl⟩

end

end PairChange

variable {s : InteractionStore} {row row' x : McpInteraction} {job job' y : McpInteractionResumeJob}

theorem mem_putRow (hrow : row ∈ s.interactions) (hid : row'.id = row.id) :
    x ∈ (s.putRow row').interactions ↔ x = row' ∨ (x ∈ s.interactions ∧ x.id ≠ row.id) :=
  Table.mem_put_of_mem hrow hid

theorem mem_withState (hrow : row ∈ s.interactions) (state : InteractionState) (now : Int)
    (x : McpInteraction) : x ∈ (s.putRow (row.withState state now)).interactions ↔
      x = row.withState state now ∨ (x ∈ s.interactions ∧ x.id ≠ row.id) := mem_putRow hrow rfl

theorem mem_putJob (hjob : job ∈ s.jobs) (hid : job'.id = job.id) :
    y ∈ (s.putJob job').jobs ↔ y = job' ∨ (y ∈ s.jobs ∧ y.id ≠ job.id) :=
  Table.mem_put_of_mem hjob hid

end MultiRag.McpInteractions
