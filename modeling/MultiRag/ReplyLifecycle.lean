/-
  **One execution record of the channel bridge** (`api/channels/binding_bridge.py`).

  A question is answered by cooperative tasks: the worker in `_run_question`, the execution task
  in `_consume_execution`, and every call of `_finalize_cancel`, from the worker, from the
  background task of a stop callback, or from a shutdown. A step is what one of them does from one
  `await` to the next. The reply session is what the bridge sees of it: its state, which
  `complete`, `fail`, `cancel` and `pause_for_interaction` change before they wait for the
  provider. A call that would raise because the session is closed has no step, but for the `fail`
  of a second failure, whose error the source catches.
-/
import MultiRag.FeishuReply

namespace MultiRag.BindingBridge

open Feishu (ReplySessionState ReplyStatus)

/-! ### The record -/

def terminal : ReplyStatus → Bool
  | .awaitingInput | .final | .error | .cancelled => true
  | .queued | .running => false

inductive ChannelResult where
  | ok | failed | cancelled | awaitingInput
deriving DecidableEq

inductive ChannelReason where
  | none | executionFailure | shutdown

structure ChannelMessageOutcome where
  result : ChannelResult
  reason : ChannelReason

/-- The fields of `_ExecutionRecord` that its tasks write.  Of `execution_task` it only
    says that there is one; `finalizationDone` is the event. -/
structure ExecutionRecord where
  status : ReplyStatus := .queued
  executionTask : Bool := false
  cancelRequested : Bool := false
  telemetryOutcome : Option ChannelMessageOutcome := none
  telemetryReason : ChannelReason := .none
  finalizationDone : Bool := false
  finalizationOutcome : Option ChannelMessageOutcome := none
  finalizing : Bool := false

def executionResult : ReplyStatus → ChannelResult
  | .final => .ok
  | .awaitingInput => .awaitingInput
  | .cancelled => .cancelled
  | _ => .failed

def ExecutionRecord.messageOutcome (record : ExecutionRecord) : ChannelMessageOutcome :=
  match record.telemetryOutcome with
  | some outcome => outcome
  | none =>
      if executionResult record.status = .failed then ⟨.failed, .executionFailure⟩
      else ⟨executionResult record.status, record.telemetryReason⟩

/-! ### Where the tasks wait -/

inductive Mark where
  | replied | executed

/-- Where `_finalize_cancel` waits: for the event, for `cancel`, for `mark_replied`.
    `starting` is a background task that has not run yet. -/
inductive FinalizerPc where
  | starting
  | waiting
  | cancelling
  | marking
  | returned (outcome : ChannelMessageOutcome)

/-- Who calls `_finalize_cancel`. -/
inductive Caller where
  | worker
  | stop
  | shutdown (n : Nat)
deriving DecidableEq

/-- Where `_run_question` waits. -/
inductive WorkerPc where
  | ready
  | settingStatus
  | awaitingExecution
  | finalizing
  | ended
deriving DecidableEq

/-- Where the execution task waits.  `streaming` waits for the next event, with
    `terminal_seen`; `inStream` says whether a failure was an event of the stream, after
    which the stream goes on, or ends the task. -/
inductive ConsumerPc where
  | created
  | streaming (terminalSeen : Bool)
  | appending
  | failMarking (inStream : Bool)
  | failing (inStream : Bool)
  | replacing
  | completing
  | completeMarking
  | pausing
  | claiming
  | presenting
  | acknowledging (presented : Bool)
  | pauseMarking (delivered : Bool)
  | pauseFailMarking
  | finished
  | cancelled
deriving DecidableEq

def ConsumerPc.done : ConsumerPc → Bool
  | .finished | .cancelled => true
  | _ => false

def ConsumerPc.mark? : ConsumerPc → Option Mark
  | .failMarking _ => some .executed
  | .completeMarking => some .replied
  | .pauseMarking delivered => some (if delivered then .replied else .executed)
  | .pauseFailMarking => some .executed
  | _ => none

/-- The record and its session when `_release_record` takes it out of the live records. -/
structure Released where
  status : ReplyStatus
  session : ReplySessionState
  marks : List Mark
  pauseFailed : Bool

/-- `ended` lists the calls of `complete`, `fail` and `cancel` that took effect, `marks`
    the tombstones written; `pauseFailed` says that a pause came to its
    `except Exception`, and `released` what the first release found. -/
structure Bridge where
  record : ExecutionRecord := {}
  session : ReplySessionState := .opened
  ended : List ReplySessionState := []
  marks : List Mark := []
  pauseFailed : Bool := false
  released : Option Released := none
  worker : WorkerPc := .ready
  consumer : Option ConsumerPc := none
  /-- The execution task has been cancelled and has not seen it yet. -/
  consumerCancel : Bool := false
  finalizers : Caller → Option FinalizerPc := fun _ => none
  /-- `registered.used` of the cancel action. -/
  stopUsed : Bool := false

namespace Bridge

/-! ### What the tasks share -/

def setStatus (status : ReplyStatus) (b : Bridge) : Bridge :=
  { b with record := { b.record with status := status } }

/-- The execution task waits at `pc`. -/
def consumerAt (pc : ConsumerPc) (b : Bridge) : Bridge := { b with consumer := some pc }

def finalizerAt (c : Caller) (pc : FinalizerPc) (b : Bridge) : Bridge :=
  { b with finalizers := Function.update b.finalizers c (some pc) }

/-- `complete`, `fail` or `cancel` of an open session. -/
def endSession (state : ReplySessionState) (b : Bridge) : Bridge :=
  { b with session := state, ended := state :: b.ended }

def writeMark (mark : Mark) (b : Bridge) : Bridge := { b with marks := mark :: b.marks }

def seen (b : Bridge) : Released := ⟨b.record.status, b.session, b.marks, b.pauseFailed⟩

def releaseRecord (b : Bridge) : Bridge := { b with released := b.released.or (some b.seen) }

/-! ### The execution task -/

/-- What `_consume_execution` does after a failure. -/
def afterFailure (inStream : Bool) (b : Bridge) : Bridge :=
  b.consumerAt (if inStream then .streaming true else .finished)

def failReplySession (inStream : Bool) (b : Bridge) : Bridge :=
  if b.session = .opened then
    ((b.setStatus .error).endSession .failed).consumerAt (.failing inStream)
  else ((b.setStatus .error).releaseRecord).afterFailure inStream

/-- The call of `complete` in `_complete_reply`. -/
def complete (b : Bridge) : Option Bridge :=
  if b.session = .opened then some ((b.endSession .completed).consumerAt .completing) else none

/-- `_complete_reply`; `content` says whether there is an authoritative text. -/
def completeReply (content : Bool) (b : Bridge) : Option Bridge :=
  if content then
    if b.session = .opened then some ((b.setStatus .final).consumerAt .replacing) else none
  else (b.setStatus .final).complete

/-- `_pause_for_interaction`; `interactive` says that the session, the client and the
    presenter are there for it. -/
def pauseForInteraction (interactive : Bool) (b : Bridge) : Option Bridge :=
  if interactive then
    if b.session = .opened then
      some ({ b with session := .awaitingInput }.consumerAt .pausing)
    else none
  else some (b.consumerAt (.failMarking true))

/-- The `except Exception` of `_pause_for_interaction`. -/
def failPause (b : Bridge) : Bridge :=
  { b.setStatus .error with pauseFailed := true }.consumerAt .pauseFailMarking

end Bridge

/-- What the next step of the stream gives: an event, its end, an exception. -/
inductive StreamEvent where
  | messageDelta
  | executionFailed
  | messageCompleted (content : Bool)
  | interactionRequired
  | ended
  | raised
  | cancelled
deriving DecidableEq

/-- What an `await` of the execution task gives.  `failed` is an exception of the
    interaction client or the presenter, or an answer that does not match;
    `interrupted` is the cancellation, `took` says whether the call it interrupts had
    reached the store. -/
inductive Signal where
  | event (event : StreamEvent)
  | returned
  | failed
  | interrupted (took : Bool)
deriving DecidableEq

namespace Bridge

/-- The loop body of `_consume_execution`, and what follows the loop. -/
def onEvent (interactive terminalSeen : Bool) (event : StreamEvent) (b : Bridge) : Option Bridge :=
  match event with
  | .cancelled => some (b.consumerAt .cancelled)
  | .raised => some (b.consumerAt (.failMarking false))
  | .ended => some (b.consumerAt (if terminalSeen then .finished else .failMarking false))
  | .messageDelta =>
      if terminalSeen then some (b.consumerAt (.failMarking false))
      else if b.session = .opened then some (b.consumerAt .appending) else none
  | .executionFailed => some (b.consumerAt (.failMarking (!terminalSeen)))
  | .messageCompleted content =>
      if terminalSeen then some (b.consumerAt (.failMarking false)) else b.completeReply content
  | .interactionRequired =>
      if terminalSeen then some (b.consumerAt (.failMarking false))
      else b.pauseForInteraction interactive

/-- The execution task at `pc`, when what it waits for has come. -/
def consumeExecution (interactive : Bool) (pc : ConsumerPc) (signal : Signal) (b : Bridge) :
    Option Bridge :=
  match pc, signal with
  | .created, .returned => some (b.consumerAt (.streaming false))
  | .streaming terminalSeen, .event event => b.onEvent interactive terminalSeen event
  | .appending, .returned => some (b.consumerAt (.streaming false))
  | .failMarking inStream, .returned => some ((b.writeMark .executed).failReplySession inStream)
  | .failing inStream, .returned => some (b.releaseRecord.afterFailure inStream)
  | .replacing, .returned => b.complete
  | .completing, .returned => some (b.consumerAt .completeMarking)
  | .completeMarking, .returned =>
      let b := b.writeMark .replied
      let b := { b with record := { b.record with telemetryOutcome := some ⟨.ok, .none⟩ } }
      some (b.releaseRecord.consumerAt (.streaming true))
  | .pausing, .returned => some (b.consumerAt .claiming)
  | .pausing, .failed => some b.failPause
  | .claiming, .returned => some (b.consumerAt .presenting)
  | .claiming, .failed => some b.failPause
  -- `_publish_interaction_delivery` acknowledges in either case
  | .presenting, .returned => some (b.consumerAt (.acknowledging true))
  | .presenting, .failed => some (b.consumerAt (.acknowledging false))
  | .acknowledging presented, .returned =>
      some ((b.setStatus .awaitingInput).consumerAt (.pauseMarking presented))
  | .acknowledging _, .failed =>
      some ((b.setStatus .awaitingInput).consumerAt (.pauseMarking false))
  | .pauseMarking delivered, .returned =>
      some (((b.writeMark (if delivered then .replied else .executed)).releaseRecord).consumerAt
        (.streaming true))
  | .pauseFailMarking, .returned =>
      some (((b.writeMark .executed).releaseRecord).consumerAt (.streaming true))
  | _, _ => none

/-- A cancelled task sees `CancelledError` at its next turn, whatever it waited for, and
    no handler of it keeps it. -/
def consumerStep (interactive : Bool) (signal : Signal) (b : Bridge) : Option Bridge :=
  match b.consumer with
  | none => none
  | some pc =>
      match signal with
      | .interrupted took =>
          if b.consumerCancel = true ∧ pc.done = false then
            let marks := if took then pc.mark?.toList ++ b.marks else b.marks
            some ({ b with marks := marks, consumerCancel := false }.consumerAt .cancelled)
          else none
      | signal => if b.consumerCancel then none else b.consumeExecution interactive pc signal

def publishCancelled (c : Caller) (b : Bridge) : Bridge :=
  let outcome : ChannelMessageOutcome := ⟨.cancelled, b.record.telemetryReason⟩
  let b := { b with record := { b.record with
    status := .cancelled
    telemetryOutcome := some outcome
    finalizationOutcome := some outcome } }
  let b := b.releaseRecord
  let b := { b with record := { b.record with finalizing := false, finalizationDone := true } }
  b.finalizerAt c (.returned outcome)

def finalizeCancel (c : Caller) (b : Bridge) : Bridge :=
  if terminal b.record.status then b.finalizerAt c (.returned b.record.messageOutcome)
  else if b.record.finalizing then b.finalizerAt c .waiting
  else
    let b := { b with record := { b.record with finalizing := true, finalizationDone := false } }
    if b.session = .opened then (b.endSession .cancelled).finalizerAt c .cancelling
    else b.publishCancelled c

def finalizerStep (c : Caller) (b : Bridge) : Option Bridge :=
  match b.finalizers c with
  | some .starting => some (b.finalizeCancel c)
  | some .waiting =>
      if b.record.finalizationDone then
        match b.record.finalizationOutcome with
        | some outcome => some (b.finalizerAt c (.returned outcome))
        | none => some (b.finalizeCancel c)
      else none
  | some .cancelling => some (b.finalizerAt c .marking)
  | some .marking => some ((b.writeMark .replied).publishCancelled c)
  | _ => none

/-- The worker waits in `_finalize_cancel`, or has returned from it; then the `finally`
    clears `execution_task`. -/
def settleWorker (b : Bridge) : Bridge :=
  match b.finalizers .worker with
  | some (.returned _) => { b with worker := .ended, record := { b.record with executionTask := false } }
  | _ => { b with worker := .finalizing }

/-- The task of `_consume_execution` is created and awaited.  `cancel_requested` has been
    read since the last `await`. -/
def startExecution (b : Bridge) : Bridge :=
  { b with
    record := { b.record with executionTask := true }
    consumer := some .created
    worker := .awaitingExecution }

def workerStep (b : Bridge) : Option Bridge :=
  match b.worker with
  | .ready =>
      if b.record.cancelRequested then some (b.finalizeCancel .worker).settleWorker
      else if b.session = .opened then some { b with worker := .settingStatus }
      else none
  | .settingStatus =>
      if terminal b.record.status then some { b with worker := .ended }
      else if b.record.cancelRequested then
        some ((b.setStatus .running).finalizeCancel .worker).settleWorker
      else some (b.setStatus .running).startExecution
  | .awaitingExecution =>
      match b.consumer with
      | some .finished =>
          some { b with worker := .ended, record := { b.record with executionTask := false } }
      | some .cancelled =>
          if b.record.cancelRequested then some (b.finalizeCancel .worker).settleWorker
          else some { b with worker := .ended, record := { b.record with executionTask := false } }
      | _ => none
  | .finalizing => (b.finalizerStep .worker).map settleWorker
  | .ended => none

/-! ### Stop and shutdown -/

def executing (b : Bridge) : Bool := b.record.executionTask && b.consumer.any (fun pc => !pc.done)

/-- `cancel_requested`, and the execution task is cancelled if there is one. -/
def requestCancel (b : Bridge) : Bridge :=
  { b with
    record := { b.record with cancelRequested := true }
    consumerCancel := b.consumerCancel || b.executing }

/-- The cancel action of `handle_action`, where the capabilities allow it. -/
def stop (b : Bridge) : Option Bridge :=
  if b.stopUsed = false ∧ (b.record.status = .queued ∨ b.record.status = .running) then
    let next := { b.requestCancel with stopUsed := true }
    some (if b.executing then next else next.finalizerAt .stop .starting)
  else none

/-- `_finalize_on_shutdown`, which changes nothing past its terminal barrier.  Its wait
    for the execution task afterwards is the task's own steps. -/
def finalizeOnShutdown (n : Nat) (b : Bridge) : Option Bridge :=
  if b.finalizers (.shutdown n) = none ∧ (b.record.status = .queued ∨ b.record.status = .running) then
    let next := b.requestCancel
    let next := { next with record := { next.record with telemetryReason := .shutdown } }
    some (next.finalizeCancel (.shutdown n))
  else none

end Bridge

/-! ### The system -/

/-- `finalizer` is a call of `_finalize_cancel` outside the worker's task. -/
inductive Event where
  | worker
  | consumer (signal : Signal)
  | finalizer (c : Caller)
  | stop
  | shutdown (n : Nat)

def Bridge.step (interactive : Bool) (b : Bridge) : Event → Option Bridge
  | .worker => b.workerStep
  | .consumer signal => b.consumerStep interactive signal
  | .finalizer c => if c = .worker then none else b.finalizerStep c
  | .stop => b.stop
  | .shutdown n => b.finalizeOnShutdown n

/-- The record once `begin_reply` has returned. -/
def opening : Bridge := {}

def Step (interactive : Bool) (b : Bridge) (e : Event) (b' : Bridge) : Prop :=
  b.step interactive e = some b'

end MultiRag.BindingBridge
