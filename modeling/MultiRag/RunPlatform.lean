/-
  **The Run lifecycle and its event projection** (`api/run_platform/domain.py`, `schemas.py`,
  `events.py`).

  A Run is observed as a stream of events. `applyRunEvent` folds one committed event into the
  projection a client keeps. The checks stand in the order of the source, because the order
  decides which replays are tolerated.
-/
import MultiRag.Json

namespace MultiRag.RunPlatform

/-! ### Lifecycle (`domain.py`) -/

inductive RunStatus where
  | accepted | queued | running | waitingInput | cancelRequested
  | completed | failed | cancelled | interrupted
deriving DecidableEq

def RunStatus.value : RunStatus → String
  | .accepted => "accepted"
  | .queued => "queued"
  | .running => "running"
  | .waitingInput => "waiting_input"
  | .cancelRequested => "cancel_requested"
  | .completed => "completed"
  | .failed => "failed"
  | .cancelled => "cancelled"
  | .interrupted => "interrupted"

inductive DesiredRunState where
  | running | cancelled
deriving DecidableEq

def terminalRunStatuses : List RunStatus := [.completed, .failed, .cancelled, .interrupted]

def allowedRunTransitions : RunStatus → List RunStatus
  | .accepted => [.queued, .cancelRequested, .cancelled]
  | .queued => [.running, .cancelRequested, .cancelled]
  | .running => [.waitingInput, .cancelRequested, .completed, .failed, .cancelled, .interrupted]
  | .waitingInput => [.queued, .cancelRequested]
  | .cancelRequested => [.completed, .failed, .cancelled, .interrupted]
  | .completed | .failed | .cancelled | .interrupted => []

def canTransition (current target : RunStatus) : Bool :=
  decide (target ∈ allowedRunTransitions current)

inductive RunTransitionError where
  | versionConflict (expected actual : Nat)
  | notAllowed (current target : RunStatus)
deriving DecidableEq

def RunTransitionError.message : RunTransitionError → String
  | .versionConflict expected actual =>
      "Run version conflict: expected " ++ toString expected ++ ", actual " ++ toString actual ++ "."
  | .notAllowed current target =>
      "Run cannot transition from " ++ current.value ++ " to " ++ target.value ++ "."

structure RunLifecycle where
  status : RunStatus := .accepted
  desiredState : DesiredRunState := .running
  version : Nat := 1
deriving DecidableEq

namespace RunLifecycle

def terminal (lifecycle : RunLifecycle) : Bool :=
  decide (lifecycle.status ∈ terminalRunStatuses)

def transition (lifecycle : RunLifecycle) (target : RunStatus)
    (expectedVersion : Option Nat := none) : Except RunTransitionError RunLifecycle :=
  match expectedVersion.filter (fun expected => expected != lifecycle.version) with
  | some expected => .error (.versionConflict expected lifecycle.version)
  | none =>
      if canTransition lifecycle.status target then
        .ok { status := target
              desiredState :=
                if target = .cancelRequested ∨ target = .cancelled then .cancelled
                else lifecycle.desiredState
              version := lifecycle.version + 1 }
      else .error (.notAllowed lifecycle.status target)

end RunLifecycle

/-! ### Event envelopes (`schemas.py`) -/

/-- A timezone-aware datetime: the instant and the UTC offset it is written with. -/
structure AwareDatetime where
  utcMicroseconds : Int
  offsetMicroseconds : Int
deriving DecidableEq

/-- `RunEventEnvelope`; the constant field `v = 2` is left out. -/
structure RunEventEnvelope where
  eventId : String
  runId : String
  threadId : String
  turnId : String
  seq : Nat
  seq_pos : 1 ≤ seq
  type : String
  createdAt : AwareDatetime
  data : List (String × Json)
deriving DecidableEq

/-- `parse_message_delta` succeeds: the data are exactly the two string fields
    of `MessageDeltaData`. -/
def parsesAsMessageDelta (event : RunEventEnvelope) : Bool :=
  match event.data with
  | [("delta", .str _), ("part_id", .str _)] => event.type == "message.delta"
  | _ => false

/-! ### Projection (`events.py`) -/

def eventTargetStatus : List (String × RunStatus) :=
  [("run.queued", .queued), ("run.started", .running), ("interaction.required", .waitingInput),
    ("interaction.submitted", .queued), ("run.cancel_requested", .cancelRequested),
    ("run.completed", .completed), ("run.failed", .failed), ("run.cancelled", .cancelled),
    ("run.interrupted", .interrupted)]

def initialEventType : String := "run.accepted"

def outputEventTypes : List String := ["message.delta", "message.snapshot"]

def outputEventAllowedStatuses : List RunStatus := [.running, .cancelRequested]

/-- Why an event is refused.  `messageDelta` is the validation error of
    `parse_message_delta`; every other case is a `RunEventProjectionError`. -/
inductive RunEventError where
  | notInitial
  | repeatedContent
  | afterTerminal
  | acceptedAgain
  | identityChanged
  | seqGap (expected got : Nat)
  | outputStatus (type : String) (status : RunStatus)
  | messageDelta
  | transition (error : RunTransitionError)
deriving DecidableEq

/-- The text of a `RunEventProjectionError`; the text of a validation error is
    the schema library's own. -/
def RunEventError.message : RunEventError → Option String
  | .notInitial => some "The first Run event must be run.accepted at seq 1."
  | .repeatedContent => some "A repeated Run event ID and seq must have identical content."
  | .afterTerminal => some "No Run event may follow a terminal event."
  | .acceptedAgain => some "run.accepted may only be the first Run event."
  | .identityChanged =>
      some "Run, thread, and turn identity must remain stable within an event stream."
  | .seqGap expected got =>
      some ("Run event seq must be contiguous: expected " ++ toString expected ++ ", got "
        ++ toString got ++ ".")
  | .outputStatus type status =>
      some (type ++ " is invalid while Run status is " ++ status.value ++ ".")
  | .messageDelta => none
  | .transition error => some error.message

structure RunProjection (δ : Type) where
  runId : String
  threadId : String
  turnId : String
  lifecycle : RunLifecycle
  lastEventSeq : Nat
  lastEventId : String
  lastEventDigest : δ
deriving DecidableEq

def RunProjection.terminal {δ : Type} (projection : RunProjection δ) : Bool :=
  projection.lifecycle.terminal

variable {δ : Type} [DecidableEq δ] (eventDigest : RunEventEnvelope → δ)

def initialProjection (event : RunEventEnvelope) : Except RunEventError (RunProjection δ) :=
  if event.seq ≠ 1 ∨ event.type ≠ initialEventType then .error .notInitial
  else .ok {
    runId := event.runId
    threadId := event.threadId
    turnId := event.turnId
    lifecycle := {}
    lastEventSeq := 1
    lastEventId := event.eventId
    lastEventDigest := eventDigest event }

def checkOutputEvent (status : RunStatus) (event : RunEventEnvelope) : Except RunEventError Unit :=
  if event.type ∈ outputEventTypes then
    if status ∉ outputEventAllowedStatuses then .error (.outputStatus event.type status)
    else if event.type = "message.delta" ∧ parsesAsMessageDelta event = false then
      .error .messageDelta
    else .ok ()
  else .ok ()

def lifecycleAfter (lifecycle : RunLifecycle) (event : RunEventEnvelope) :
    Except RunEventError RunLifecycle :=
  match eventTargetStatus.lookup event.type with
  | none => .ok lifecycle
  | some target =>
      match lifecycle.transition target with
      | .ok lifecycle' => .ok lifecycle'
      | .error error => .error (.transition error)

def applyRunEvent (projection : Option (RunProjection δ)) (event : RunEventEnvelope) :
    Except RunEventError (RunProjection δ) :=
  match projection with
  | none => initialProjection eventDigest event
  | some projection =>
      if event.seq = projection.lastEventSeq ∧ event.eventId = projection.lastEventId then
        if eventDigest event = projection.lastEventDigest then .ok projection
        else .error .repeatedContent
      else if projection.terminal then .error .afterTerminal
      else if event.type = initialEventType then .error .acceptedAgain
      else if event.runId ≠ projection.runId ∨ event.threadId ≠ projection.threadId
          ∨ event.turnId ≠ projection.turnId then .error .identityChanged
      else if event.seq ≠ projection.lastEventSeq + 1 then
        .error (.seqGap (projection.lastEventSeq + 1) event.seq)
      else
        match checkOutputEvent projection.lifecycle.status event with
        | .error error => .error error
        | .ok () =>
            match lifecycleAfter projection.lifecycle event with
            | .error error => .error error
            | .ok lifecycle =>
                .ok { projection with
                  lifecycle := lifecycle
                  lastEventSeq := event.seq
                  lastEventId := event.eventId
                  lastEventDigest := eventDigest event }

/-- Fold a stream, stopping at the first refused event: the projection held at
    the end and the error, if one was raised. -/
def foldRunEvents :
    Option (RunProjection δ) → List RunEventEnvelope →
      Option (RunProjection δ) × Option RunEventError
  | projection, [] => (projection, none)
  | projection, event :: events =>
      match applyRunEvent eventDigest projection event with
      | .ok projection' => foldRunEvents (some projection') events
      | .error error => (projection, some error)

end MultiRag.RunPlatform
