/-
  **The channel worker: intake, consumers and turns.**

  `enqueue` gives a message a ticket of its conversation; any number of `_consume` tasks take
  messages from the queue, wait for the turn of the ticket, call the bridge and pass the turn on.
  A step is what a task does between two awaits; `check` is one evaluation of the predicate of
  `wait_for`. The order objects live on a heap, since a consumer keeps the one it looked up.
-/
import Mathlib.Data.Fintype.Basic
import MultiRag.Run

namespace MultiRag.ChannelWorker

open Function

/-! ### Dispositions -/

inductive ChannelResult where
  | ok | failed | rejected | dropped | duplicate | cancelled | awaitingInput | fallback | disabled

inductive ChannelReason where
  | none
  | privateChatRequired | userSenderRequired | messageIdentityMissing | policyRejected
  | workerStopping | followupQueueFull | globalQueueFull | queueAbandoned | handlerFailure
  | stateFailure | duplicate | executionFailure | deliveryFailure | shutdown | shutdownTimeout
  | cardCreateFailure | cardUpdateFailure | cardFinishFailure | cardControlsFailure
  | cardFailureRenderFailure | cardCancelRenderFailure | typingFailure | postFallbackFailure
  | textFallbackFailure | candidateGcFailure

structure ChannelMessageOutcome where
  result : ChannelResult
  reason : ChannelReason := .none

/-- How `bridge.handle_message` ends: it returns, or it raises an exception. -/
inductive Completion where
  | returned (outcome : Option ChannelMessageOutcome)
  | raised

def Completion.disposition : Completion → ChannelMessageOutcome
  | .returned none => { result := .ok }
  | .returned (some outcome) => outcome
  | .raised => ⟨.failed, .handlerFailure⟩

/-! ### The state of a worker -/

structure Config (μ κ : Type) where
  lifecycle : Bool
  followupQueueSize : Nat
  queueSize : Nat
  messageOrderKey : μ → κ

structure QueuedMessage (μ κ : Type) where
  message : μ
  orderKey : κ
  ticket : Nat
  observation : Nat
deriving DecidableEq

structure ConversationOrder where
  nextTicket : Nat
  nextToRun : Nat
  pending : Int

/-- Where a `_consume` task is; `order` is the object it looked up, and `notified` says that
    the predicate is still to be evaluated.  `dead`: the lookup raised. -/
inductive Phase (μ κ : Type) where
  | idle
  | waiting (queued : QueuedMessage μ κ) (order : Nat) (notified : Bool)
  | running (queued : QueuedMessage μ κ) (order : Nat)
  | finishing (queued : QueuedMessage μ κ) (order : Nat)
  | dead
deriving DecidableEq

structure Worker (μ κ : Type) (n : Nat) where
  acceptingMessages : Bool
  queue : List (QueuedMessage μ κ)
  conversationOrders : κ → Option Nat
  heap : Nat → ConversationOrder
  allocated : Nat
  consumers : Fin n → Phase μ κ
  observations : Nat
  dispositions : List (Nat × ChannelMessageOutcome)
  accepted : List (QueuedMessage μ κ)
  handled : List (QueuedMessage μ κ)

variable {μ κ : Type} [DecidableEq κ] {n : Nat}

/-- `_IngressObservation.finalize`: only the first call counts. -/
def finalize (dispositions : List (Nat × ChannelMessageOutcome)) (observation : Nat)
    (outcome : ChannelMessageOutcome) : List (Nat × ChannelMessageOutcome) :=
  if (dispositions.map Prod.fst).contains observation then dispositions
  else dispositions ++ [(observation, outcome)]

namespace Worker

def initial : Worker μ κ n :=
  ⟨true, [], fun _ => none, fun _ => ⟨0, 0, 0⟩, 0, fun _ => .idle, 0, [], [], []⟩

/-! ### `enqueue` -/

def dispose (s : Worker μ κ n) (result : ChannelResult) (reason : ChannelReason) :
    Worker μ κ n :=
  { s with
    observations := s.observations + 1
    dispositions := finalize s.dispositions s.observations ⟨result, reason⟩ }

def withOrder (s : Worker μ κ n) (key : κ) : Worker μ κ n × Nat :=
  match s.conversationOrders key with
  | some order => (s, order)
  | none =>
    ({ s with
       conversationOrders := update s.conversationOrders key (some s.allocated)
       heap := update s.heap s.allocated ⟨0, 0, 0⟩
       allocated := s.allocated + 1 }, s.allocated)

def discard (s : Worker μ κ n) (key : κ) (order : Nat) : Worker μ κ n :=
  if (s.heap order).pending = 0 then
    { s with conversationOrders := update s.conversationOrders key none }
  else s

def full (config : Config μ κ) (s : Worker μ κ n) : Bool :=
  decide (0 < config.queueSize) && decide (config.queueSize ≤ s.queue.length)

/-- `put_nowait`, then the counters. -/
def accept (s : Worker μ κ n) (message : μ) (key : κ) (order : Nat) : Worker μ κ n :=
  let o := s.heap order
  let queued := ⟨message, key, o.nextTicket, s.observations⟩
  { s with
    observations := s.observations + 1
    queue := s.queue ++ [queued]
    heap := update s.heap order ⟨o.nextTicket + 1, o.nextToRun, o.pending + 1⟩
    accepted := s.accepted ++ [queued] }

/-- `rejection` is the answer of the bridge's policy, which only a lifecycle bridge gives. -/
def enqueue (config : Config μ κ) (s : Worker μ κ n) (message : μ)
    (rejection : Option ChannelReason) : Worker μ κ n :=
  match if config.lifecycle then rejection else none with
  | some reason => s.dispose .dropped reason
  | none =>
    if !s.acceptingMessages then s.dispose .dropped .workerStopping
    else
      let key := config.messageOrderKey message
      let (s, order) := s.withOrder key
      let queuePosition : Int := (s.heap order).nextTicket - (s.heap order).nextToRun
      if config.lifecycle && decide ((config.followupQueueSize : Int) < queuePosition) then
        (s.discard key order).dispose .rejected .followupQueueFull
      else if s.full config then (s.discard key order).dispose .rejected .globalQueueFull
      else s.accept message key order

/-! ### `_consume` -/

def setPhase (s : Worker μ κ n) (i : Fin n) (phase : Phase μ κ) : Worker μ κ n :=
  { s with consumers := update s.consumers i phase }

def dequeue (s : Worker μ κ n) (i : Fin n) : Option (Worker μ κ n) :=
  match s.consumers i, s.queue with
  | .idle, queued :: rest =>
    let s := { s with queue := rest }
    match s.conversationOrders queued.orderKey with
    | none => some (s.setPhase i .dead)
    | some order => some (s.setPhase i (.waiting queued order true))
  | _, _ => none

def check (s : Worker μ κ n) (i : Fin n) : Option (Worker μ κ n) :=
  match s.consumers i with
  | .waiting queued order true =>
    if queued.ticket = (s.heap order).nextToRun then
      some { s.setPhase i (.running queued order) with handled := s.handled ++ [queued] }
    else some (s.setPhase i (.waiting queued order false))
  | _ => none

def complete (s : Worker μ κ n) (i : Fin n) (completion : Completion) : Option (Worker μ κ n) :=
  match s.consumers i with
  | .running queued order =>
    some { s.setPhase i (.finishing queued order) with
      dispositions := finalize s.dispositions queued.observation completion.disposition }
  | _ => none

def notify (order : Nat) : Phase μ κ → Phase μ κ
  | .waiting queued order' notified =>
    .waiting queued order' (notified || decide (order' = order))
  | phase => phase

def finish (s : Worker μ κ n) (i : Fin n) : Option (Worker μ κ n) :=
  match s.consumers i with
  | .finishing queued order =>
    let o := s.heap order
    let s := { s with
      heap := update s.heap order ⟨o.nextTicket, o.nextToRun + 1, o.pending - 1⟩
      consumers := update (notify order ∘ s.consumers) i .idle }
    some (s.discard queued.orderKey order)
  | _ => none

end Worker

inductive Action (μ : Type) (n : Nat) where
  | enqueue (message : μ) (rejection : Option ChannelReason)
  | dequeue (i : Fin n)
  | check (i : Fin n)
  | complete (i : Fin n) (completion : Completion)
  | finish (i : Fin n)

/-- The next state, when the action is possible. -/
def step (config : Config μ κ) (s : Worker μ κ n) : Action μ n → Option (Worker μ κ n)
  | .enqueue message rejection => some (s.enqueue config message rejection)
  | .dequeue i => s.dequeue i
  | .check i => s.check i
  | .complete i completion => s.complete i completion
  | .finish i => s.finish i

def Step (config : Config μ κ) (s : Worker μ κ n) (a : Action μ n) (s' : Worker μ κ n) : Prop :=
  step config s a = some s'

/-! ### What a state shows -/

def Phase.taken? : Phase μ κ → Option (QueuedMessage μ κ)
  | .waiting queued _ _ | .running queued _ | .finishing queued _ => some queued
  | .idle | .dead => none

def Phase.started? : Phase μ κ → Option (QueuedMessage μ κ)
  | .running queued _ | .finishing queued _ => some queued
  | .idle | .dead | .waiting _ _ _ => none

def Phase.order? : Phase μ κ → Option Nat
  | .waiting _ order _ | .running _ order | .finishing _ order => some order
  | .idle | .dead => none

namespace Worker

/-- Accepted, and its turn not passed on. -/
def Unfinished (s : Worker μ κ n) (queued : QueuedMessage μ κ) : Prop :=
  queued ∈ s.queue ∨ ∃ i, (s.consumers i).taken? = some queued

/-- Accepted, and not given to the handler. -/
def Waiting (s : Worker μ κ n) (queued : QueuedMessage μ κ) : Prop :=
  queued ∈ s.queue ∨ ∃ i order notified, s.consumers i = .waiting queued order notified

def Running (s : Worker μ κ n) (queued : QueuedMessage μ κ) : Prop :=
  ∃ i order, s.consumers i = .running queued order

def acceptedOf (s : Worker μ κ n) (key : κ) : List (QueuedMessage μ κ) :=
  s.accepted.filter fun queued => queued.orderKey = key

def handledOf (s : Worker μ κ n) (key : κ) : List (QueuedMessage μ κ) :=
  s.handled.filter fun queued => queued.orderKey = key

end Worker

end MultiRag.ChannelWorker
