/-
  **The event contract of a channel execution, and the sanitised target stream.**

  An `ExecutionEvent` carries the proof that it passed the model's validator, so
  an event of another shape cannot be built.  What iterating a generator gives is
  a `Stream`: the events it yields, and the exception that ends it, if any.
-/
import Mathlib.Tactic.Common

namespace MultiRag.Execution

/-! ### Events -/

inductive ExecutionEventType where
  | messageDelta
  | messageCompleted
  | executionFailed
  | interactionRequired
deriving DecidableEq

def ExecutionEventType.ofName : String → Option ExecutionEventType
  | "message_delta" => some .messageDelta
  | "message_completed" => some .messageCompleted
  | "execution_failed" => some .executionFailed
  | "interaction_required" => some .interactionRequired
  | _ => none

def ExecutionEventType.terminal (event : ExecutionEventType) : Bool := event != .messageDelta

/-- A `datetime`, with or without a UTC offset. -/
structure Moment where
  instant : Int
  aware : Bool

structure EventFields where
  event : ExecutionEventType
  content : Option String
  sessionId : Option String
  errorCode : Option String
  actionId : Option String
  revision : Option Int
  expiresAt : Option Moment

/-- The constraints of the fields, then `validate_interaction_shape`. -/
def EventFields.valid (fields : EventFields) : Bool :=
  fields.actionId.all (fun actionId => 1 ≤ actionId.length && actionId.length ≤ 32) &&
  fields.revision.all (fun revision => 0 < revision) &&
  if fields.event = .interactionRequired then
    fields.actionId.isSome && fields.revision.isSome && fields.content.isNone &&
      fields.sessionId.isNone && fields.errorCode.isNone && fields.expiresAt.all Moment.aware
  else fields.actionId.isNone && fields.revision.isNone && fields.expiresAt.isNone

structure ExecutionEvent extends EventFields where
  wellShaped : toEventFields.valid = true

def ExecutionEvent.make (fields : EventFields) : Option ExecutionEvent :=
  if h : fields.valid = true then some ⟨fields, h⟩ else none

def failure (code : String) : ExecutionEvent where
  event := .executionFailed
  content := none
  sessionId := none
  errorCode := some code
  actionId := none
  revision := none
  expiresAt := none
  wellShaped := rfl

def interaction (actionId : String) (revision : Int) (expiresAt : Option Moment) :
    Option ExecutionEvent :=
  ExecutionEvent.make
    { event := .interactionRequired, content := none, sessionId := none, errorCode := none,
      actionId := some actionId, revision := some revision, expiresAt := expiresAt }

theorem interaction_event {actionId : String} {revision : Int} {expiresAt : Option Moment}
    {event : ExecutionEvent} (h : interaction actionId revision expiresAt = some event) :
    event.event = .interactionRequired := by
  unfold interaction ExecutionEvent.make at h
  split at h
  · rw [← Option.some.inj h]
  · cases h

/-! ### Exceptions and streams -/

/-- What a call may raise: `CancelledError`, `MCPInteractionPaused`, a
    `ChannelExecutionError`, another `Exception`, or another `BaseException`. -/
inductive Raised where
  | cancelled
  | paused (interactionId : String) (revision : Int)
  | channel (code : String)
  | error
  | exit

/-- `except Exception` -/
def Raised.caught : Raised → Bool
  | .channel _ | .error => true
  | .cancelled | .paused _ _ | .exit => false

structure Stream where
  events : List ExecutionEvent
  raised : Option Raised

def oneFailure (code : String) : Stream := ⟨[failure code], none⟩

def oneInteraction (interactionId : String) (revision : Int) : Stream :=
  match interaction interactionId revision none with
  | some event => ⟨[event], none⟩
  | none => ⟨[], some .error⟩

/-! ### The target's stream -/

/-- The dictionary that `model_dump` of a target's event gives. -/
structure RawEvent where
  event : String
  content : Option String
  sessionId : Option String
  errorCode : Option String
  actionId : Option String
  revision : Option Int
  expiresAt : Option Moment

/-- What a target yields: something without a dictionary of these types, or one. -/
inductive TargetItem where
  | unreadable
  | dumped (raw : RawEvent)

def TargetItem.validate : TargetItem → Option ExecutionEvent
  | .unreadable => none
  | .dumped raw => (ExecutionEventType.ofName raw.event).bind fun event =>
      ExecutionEvent.make { raw with event := event }

structure TargetStream where
  items : List TargetItem
  raised : Option Raised

def sanitizeRaised : Raised → Stream
  | .cancelled => ⟨[], some .cancelled⟩
  | .paused interactionId revision => oneInteraction interactionId revision
  | .channel code => oneFailure code
  | .error => oneFailure "TARGET_EXECUTION_FAILED"
  | .exit => ⟨[], some .exit⟩

def sanitize (raised : Option Raised) : List TargetItem → Stream
  | [] => match raised with
    | none => ⟨[], none⟩
    | some exc => sanitizeRaised exc
  | item :: rest => match item.validate with
    | none => oneFailure "TARGET_EXECUTION_FAILED"
    | some event =>
      let later := sanitize raised rest
      ⟨event :: later.events, later.raised⟩

/-- `PublishedTargetExecutionService.execute`; `prepare` is what getting the executor or its
    `execute` raises. -/
def targetExecute (prepare : Option Raised) (target : TargetStream) : Except Raised Stream :=
  match prepare with
  | none => .ok (sanitize target.raised target.items)
  | some .cancelled => .error .cancelled
  | some (.paused interactionId revision) => .ok (oneInteraction interactionId revision)
  | some (.channel code) => .ok (oneFailure code)
  | some .error => .ok (oneFailure "TARGET_EXECUTION_FAILED")
  | some .exit => .error .exit

end MultiRag.Execution
