/-
  **`ChannelExecutionService.execute`: one outcome for the caller and the stores.**

  Every call of a store may raise, with or without having taken effect; a
  `Surroundings` says what each does. `settle` is the handling of an event that ends
  the stream, `handled` the exception clauses around it.
-/
import MultiRag.ExecutionEvents

namespace MultiRag.Execution

open List

/-! ### The stores -/

inductive ClaimStatus where
  | processing
  | completed
  | executed

/-- The session ids written to the conversation's pointer, latest first, the claim of
    the event, and how often `fail` has been called. -/
structure Stores where
  saved : List String
  claim : Option ClaimStatus
  fails : Nat

/-- What a writing call does: it returns, or raises before or after taking effect. -/
inductive Reply where
  | done
  | raised (exc : Raised) (applied : Bool)

def Reply.run (reply : Reply) (effect : Stores → Stores) (stores : Stores) :
    Except Raised Unit × Stores :=
  match reply with
  | .done => (.ok (), effect stores)
  | .raised exc applied => (.error exc, if applied then effect stores else stores)

inductive Registration where
  | notice (actionId : String) (revision : Int) (expiresAt : Moment)
  | raised (exc : Raised)

/-- `registrar` is `None`, or what `register` does; `principal` and `presentationRef` tell
    whether the context and the command have one. -/
structure Surroundings where
  put : Reply
  complete : Reply
  fail : Nat → Reply
  registrar : Option Registration
  principal : Bool
  presentationRef : Bool

variable (env : Surroundings)

def putSession (sessionId : String) : Stores → Except Raised Unit × Stores :=
  env.put.run fun stores => { stores with saved := sessionId :: stores.saved }

def completeClaim : Stores → Except Raised Unit × Stores :=
  env.complete.run fun stores => { stores with claim := some .completed }

def failClaim (stores : Stores) : Except Raised Unit × Stores :=
  match (env.fail stores.fails).run (fun stores => { stores with claim := some .executed })
      { stores with fails := stores.fails + 1 } with
  | (.ok (), after) => (.ok (), after)
  | (.error exc, after) => if exc.caught then (.ok (), after) else (.error exc, after)

def failWith (event : ExecutionEvent) (stores : Stores) : Except Raised ExecutionEvent × Stores :=
  match failClaim env stores with
  | (.ok (), after) => (.ok event, after)
  | (.error exc, after) => (.error exc, after)

/-! ### `_persist_completed_session` -/

def settleCompleted (event : ExecutionEvent) (stores : Stores) :
    Except Raised ExecutionEvent × Stores :=
  match event.sessionId.filter (· ≠ "") with
  | none => failWith env (failure "TARGET_EXECUTION_FAILED") stores
  | some sessionId =>
    match putSession env sessionId stores with
    | (.error exc, after) => (.error exc, after)
    | (.ok (), after) =>
      match completeClaim env after with
      | (.error exc, last) => (.error exc, last)
      | (.ok (), last) => (.ok event, last)

def settleNotice (event : ExecutionEvent) (actionId : String) (revision : Int)
    (expiresAt : Moment) (stores : Stores) : Except Raised ExecutionEvent × Stores :=
  if event.actionId ≠ some actionId ∨ event.revision ≠ some revision then (.error .error, stores)
  else
    match completeClaim env stores with
    | (.error exc, after) => (.error exc, after)
    | (.ok (), after) =>
      match interaction actionId revision (some expiresAt) with
      | none => (.error .error, after)
      | some passed => (.ok passed, after)

def settleInteraction (event : ExecutionEvent) (stores : Stores) :
    Except Raised ExecutionEvent × Stores :=
  match env.registrar with
  | none => failWith env (failure "CHANNEL_INTERACTION_UNAVAILABLE") stores
  | some registration =>
    if !env.principal || !env.presentationRef || event.actionId.isNone || event.revision.isNone then
      failWith env (failure "CHANNEL_INTERACTION_UNAVAILABLE") stores
    else
      match registration with
      | .raised exc => (.error exc, stores)
      | .notice actionId revision expiresAt =>
        settleNotice env event actionId revision expiresAt stores

def settle (event : ExecutionEvent) (stores : Stores) : Except Raised ExecutionEvent × Stores :=
  match event.event with
  | .messageDelta => (.ok event, stores)
  | .messageCompleted => settleCompleted env event stores
  | .interactionRequired => settleInteraction env event stores
  | .executionFailed => failWith env event stores

def handled : Except Raised ExecutionEvent × Stores → Except Raised ExecutionEvent × Stores
  | (.ok event, stores) => (.ok event, stores)
  | (.error exc, stores) =>
    match exc with
    | .cancelled =>
      match failClaim env stores with
      | (.ok (), after) => (.error .cancelled, after)
      | (.error other, after) => (.error other, after)
    | .channel code => failWith env (failure code) stores
    | .error => failWith env (failure "CHANNEL_STATE_UNAVAILABLE") stores
    | .paused interactionId revision => (.error (.paused interactionId revision), stores)
    | .exit => (.error .exit, stores)

def lastYield : Except Raised ExecutionEvent × Stores → Stream × Stores
  | (.ok event, stores) => (⟨[event], none⟩, stores)
  | (.error exc, stores) => (⟨[], some exc⟩, stores)

def settleEnd (raised : Option Raised) (stores : Stores) : Except Raised ExecutionEvent × Stores :=
  match raised with
  | none => failWith env (failure "TARGET_EXECUTION_FAILED") stores
  | some exc => (.error exc, stores)

def persistCompletedSession (raised : Option Raised) :
    List ExecutionEvent → Stores → Stream × Stores
  | [], stores => lastYield (handled env (settleEnd env raised stores))
  | event :: rest, stores =>
    if event.event = .messageDelta then
      let later := persistCompletedSession raised rest stores
      (⟨event :: later.1.events, later.1.raised⟩, later.2)
    else lastYield (handled env (settle env event stores))

/-! ### `execute` -/

inductive Operation where
  | message
  | regenerate
deriving DecidableEq

/-- The command, and what the collaborators answer or raise.  `resolved` has the binding
    id of the context and whether it is enabled; `capabilities` whether regeneration is
    `always` and whether the target is retryable; `claimRaises` is what `claim` raises. -/
structure Request where
  bindingId : String
  eventId : String
  operationSet : Bool
  operation : Operation
  resolved : Except Raised (Option (String × Bool))
  policyRegenerate : Bool
  policyRetry : Bool
  capabilities : Except Raised (Bool × Bool)
  claimRaises : Option (Raised × Bool)
  principalRaises : Option Raised
  getSessionRaises : Option Raised
  prepareRaises : Option Raised
  target : TargetStream

def Request.isAction (request : Request) : Bool :=
  "action:".toList.isPrefixOf request.eventId.toList

def beforeClaim (code : String) : Raised → Except Raised Stream
  | .channel own => .ok (oneFailure own)
  | .error => .ok (oneFailure code)
  | exc => .error exc

def Request.isRegenerate (request : Request) : Bool := request.operation == .regenerate

def Request.isActionRetry (request : Request) : Bool :=
  request.operation == .message && request.isAction

def policyAllowsOperation (request : Request) : Bool :=
  if request.isRegenerate then request.policyRegenerate else request.policyRetry

def targetAllowsOperation (request : Request) (always retryable : Bool) : Bool :=
  if request.isRegenerate then always else retryable

/-- The gates of an operation that repeats a turn; `none` lets the command through. -/
def operationGate (request : Request) : Option (Except Raised Stream) :=
  if request.isRegenerate || request.isActionRetry then
    if !policyAllowsOperation request then
      some (.ok (oneFailure "CHANNEL_OPERATION_NOT_ALLOWED"))
    else
      match request.capabilities with
      | .error exc => some (beforeClaim "TARGET_EXECUTION_FAILED" exc)
      | .ok (always, retryable) =>
        if !targetAllowsOperation request always retryable then
          some (.ok (oneFailure "CHANNEL_OPERATION_NOT_ALLOWED"))
        else none
  else none

/-- `claim` is an insert if absent; it raises before or after that. -/
def claimEvent (request : Request) (stores : Stores) : Except Raised Bool × Stores :=
  let taken : Stores :=
    if stores.claim = none then { stores with claim := some .processing } else stores
  match request.claimRaises with
  | none => (.ok stores.claim.isNone, taken)
  | some (exc, applied) => (.error exc, if applied then taken else stores)

def prepared (request : Request) : Except Raised Stream :=
  match request.principalRaises, request.getSessionRaises with
  | some exc, _ => .error exc
  | none, some exc => .error exc
  | none, none => targetExecute request.prepareRaises request.target

def executeClaimed (request : Request) (stores : Stores) : Except Raised Stream × Stores :=
  match prepared request with
  | .ok events =>
    let result := persistCompletedSession env events.raised events.events stores
    (.ok result.1, result.2)
  | .error .cancelled =>
    match failClaim env stores with
    | (.ok (), after) => (.error .cancelled, after)
    | (.error other, after) => (.error other, after)
  | .error (.channel code) =>
    match failClaim env stores with
    | (.ok (), after) => (.ok (oneFailure code), after)
    | (.error other, after) => (.error other, after)
  | .error .error =>
    match failClaim env stores with
    | (.ok (), after) => (.ok (oneFailure "CHANNEL_EXECUTION_FAILED"), after)
    | (.error other, after) => (.error other, after)
  | .error exc => (.error exc, stores)

def execute (request : Request) (stores : Stores) : Except Raised Stream × Stores :=
  if request.isAction && !request.operationSet then
    (.ok (oneFailure "CHANNEL_RUNTIME_UPGRADE_REQUIRED"), stores)
  else
    match request.resolved with
    | .error exc => (.error exc, stores)
    | .ok none => (.error (.channel "BINDING_NOT_FOUND"), stores)
    | .ok (some (bindingId, enabled)) =>
      if bindingId ≠ request.bindingId then (.error (.channel "BINDING_NOT_FOUND"), stores)
      else if !enabled then (.error (.channel "BINDING_DISABLED"), stores)
      else
        match operationGate request with
        | some result => (result, stores)
        | none =>
          match claimEvent request stores with
          | (.error exc, after) => (beforeClaim "CHANNEL_STATE_UNAVAILABLE" exc, after)
          | (.ok false, after) => (.error (.channel "EVENT_ALREADY_CLAIMED"), after)
          | (.ok true, after) => executeClaimed env request after

/-! ### What the handling of an event can do -/

variable {env} {initial stores : Stores}

def FailSucceeds (env : Surroundings) : Prop := ∀ n, env.fail n = .done

/-- `put_session` took effect, and it or `complete` behind it raised. -/
def SavedInVain (env : Surroundings) : Prop :=
  (∃ exc, env.put = .raised exc true) ∨
    env.put = .done ∧ ∃ exc applied, env.complete = .raised exc applied

/-- What holds of the event to be yielded, or of the exception, and of the stores. -/
structure Settled (env : Surroundings) (initial : Stores)
    (result : Except Raised ExecutionEvent × Stores) : Prop where
  terminal : ∀ event, result.1 = .ok event → event.event.terminal = true
  saved : ∀ event, result.1 = .ok event → event.event = .messageCompleted →
    ∃ sessionId, event.sessionId = some sessionId ∧ result.2.saved = sessionId :: initial.saved
  savedOnly : result.2.saved ≠ initial.saved →
    (∃ event, result.1 = .ok event ∧ event.event = .messageCompleted) ∨ SavedInVain env
  completed : ∀ event, result.1 = .ok event → event.event ≠ .executionFailed →
    result.2.claim = some .completed
  executed : FailSucceeds env → ∀ event, result.1 = .ok event → event.event = .executionFailed →
    result.2.claim = some .executed

theorem failClaim_saved (env : Surroundings) (stores : Stores) :
    (failClaim env stores).2.saved = stores.saved := by
  unfold failClaim Reply.run
  cases env.fail stores.fails with
  | done => rfl
  | raised exc applied => cases applied <;> cases exc <;> rfl

variable {exc : Raised}

theorem failClaim_escapes (h : (failClaim env stores).1 = .error exc) :
    exc.caught = false := by
  unfold failClaim Reply.run at h
  cases hfail : env.fail stores.fails with
  | done => simp [hfail] at h
  | raised own applied =>
    simp only [hfail] at h
    split at h
    · cases h
    · next hcaught =>
      rw [← Except.error.inj h]
      simpa using hcaught

theorem failClaim_done (hfail : FailSucceeds env) :
    failClaim env stores =
      (.ok (), { stores with claim := some .executed, fails := stores.fails + 1 }) := by
  simp [failClaim, hfail stores.fails, Reply.run]

theorem settled_error (hsaved : stores.saved ≠ initial.saved → SavedInVain env) :
    Settled env initial (.error exc, stores) :=
  ⟨by simp, by simp, fun hne => .inr (hsaved hne), by simp, by simp⟩

variable {event : ExecutionEvent}

theorem failWith_settled (hevent : event.event = .executionFailed)
    (hsaved : stores.saved ≠ initial.saved → SavedInVain env) :
    Settled env initial (failWith env event stores) := by
  have hkept := failClaim_saved env stores
  unfold failWith
  rcases hclaim : failClaim env stores with ⟨exc | _, after⟩
  · rw [hclaim] at hkept
    rw [← hkept] at hsaved
    exact settled_error hsaved
  · rw [hclaim] at hkept
    constructor
    · intro own heq
      rw [← Except.ok.inj heq, hevent]
      rfl
    · intro own heq hcompl
      rw [← Except.ok.inj heq, hevent] at hcompl
      cases hcompl
    · intro hne
      exact .inr (hsaved (by simpa [← hkept] using hne))
    · intro own heq hne
      rw [← Except.ok.inj heq] at hne
      exact absurd hevent hne
    · intro hfail own heq hfailed
      rw [failClaim_done hfail] at hclaim
      rw [← (Prod.mk.inj hclaim).2]

theorem failWith_escapes (h : (failWith env event stores).1 = .error exc) : exc.caught = false := by
  unfold failWith at h
  rcases hclaim : failClaim env stores with ⟨own | _, after⟩
  · rw [hclaim] at h
    rw [← Except.error.inj h]
    exact failClaim_escapes (by rw [hclaim])
  · rw [hclaim] at h
    cases h

theorem settleCompleted_settled (hevent : event.event = .messageCompleted) :
    Settled env stores (settleCompleted env event stores) := by
  unfold settleCompleted
  rcases hsess : event.sessionId.filter (· ≠ "") with _ | sessionId
  · exact failWith_settled rfl fun hne => absurd rfl hne
  · have hid : event.sessionId = some sessionId := (Option.filter_eq_some_iff.mp hsess).1
    simp only [putSession, completeClaim]
    rcases hput : env.put with _ | ⟨exc, applied⟩
    · rcases hcomplete : env.complete with _ | ⟨exc, applied⟩
      · simp only [Reply.run]
        constructor
        · intro own heq
          rw [← Except.ok.inj heq, hevent]
          rfl
        · intro own heq _
          rw [← Except.ok.inj heq]
          exact ⟨sessionId, hid, rfl⟩
        · exact fun _ => .inl ⟨event, rfl, hevent⟩
        · exact fun _ _ _ => rfl
        · intro _ own heq hfailed
          rw [← Except.ok.inj heq, hevent] at hfailed
          cases hfailed
      · exact settled_error fun _ => .inr ⟨hput, exc, applied, hcomplete⟩
    · refine settled_error fun hne => .inl ⟨exc, ?_⟩
      cases applied with
      | true => exact hput
      | false => exact absurd rfl hne

theorem settleNotice_settled {actionId : String} {revision : Int} {expiresAt : Moment} :
    Settled env stores (settleNotice env event actionId revision expiresAt stores) := by
  unfold settleNotice
  split
  · exact settled_error fun hne => absurd rfl hne
  · simp only [completeClaim]
    rcases hcomplete : env.complete with _ | ⟨exc, applied⟩
    · simp only [Reply.run]
      rcases hpassed : interaction actionId revision (some expiresAt) with _ | passed
      · exact settled_error fun hne => absurd rfl hne
      · have hevent := interaction_event hpassed
        constructor
        · intro own heq
          rw [← Except.ok.inj heq, hevent]
          rfl
        · intro own heq hcompl
          rw [← Except.ok.inj heq, hevent] at hcompl
          cases hcompl
        · exact fun hne => absurd rfl hne
        · exact fun _ _ _ => rfl
        · intro _ own heq hfailed
          rw [← Except.ok.inj heq, hevent] at hfailed
          cases hfailed
    · refine settled_error fun hne => absurd ?_ hne
      cases applied <;> rfl

theorem settleInteraction_settled :
    Settled env stores (settleInteraction env event stores) := by
  unfold settleInteraction
  rcases env.registrar with _ | registration
  · exact failWith_settled rfl fun hne => absurd rfl hne
  · dsimp only
    split
    · exact failWith_settled rfl fun hne => absurd rfl hne
    · cases registration with
      | notice actionId revision expiresAt => exact settleNotice_settled
      | raised exc => exact settled_error fun hne => absurd rfl hne

theorem settle_settled (hevent : event.event ≠ .messageDelta) :
    Settled env stores (settle env event stores) := by
  unfold settle
  split
  · next hdelta => exact absurd hdelta hevent
  · next hcompl => exact settleCompleted_settled hcompl
  · exact settleInteraction_settled
  · next hfailed => exact failWith_settled hfailed fun hne => absurd rfl hne

variable {raised : Option Raised}

theorem settleEnd_settled :
    Settled env stores (settleEnd env raised stores) := by
  cases raised with
  | none => exact failWith_settled rfl fun hne => absurd rfl hne
  | some exc => exact settled_error fun hne => absurd rfl hne

/-- Behind the exception clauses, only what no clause swallows is left to raise. -/
structure Handled (env : Surroundings) (initial : Stores)
    (result : Except Raised ExecutionEvent × Stores) : Prop extends Settled env initial result where
  escapes : ∀ exc, result.1 = .error exc → exc.caught = false
  cancelled : FailSucceeds env → result.1 = .error .cancelled → result.2.claim = some .executed

theorem handled_failWith (hevent : event.event = .executionFailed)
    (hsaved : stores.saved ≠ initial.saved → SavedInVain env) :
    Handled env initial (failWith env event stores) where
  toSettled := failWith_settled hevent hsaved
  escapes _ h := failWith_escapes h
  cancelled hfail h := by
    rw [failWith, failClaim_done hfail] at h
    cases h

variable {result : Except Raised ExecutionEvent × Stores}

theorem handled_spec (h : Settled env initial result) :
    Handled env initial (handled env result) := by
  obtain ⟨exc | event, after⟩ := result
  · have hsaved : after.saved ≠ initial.saved → SavedInVain env := by
      intro hne
      rcases h.savedOnly hne with ⟨event, hok, -⟩ | hvain
      · cases hok
      · exact hvain
    cases exc with
    | cancelled =>
      have hkept := failClaim_saved env after
      unfold handled
      dsimp only
      rcases hclaim : failClaim env after with ⟨other | _, last⟩
      · rw [hclaim] at hkept
        rw [← hkept] at hsaved
        refine ⟨settled_error hsaved, fun exc heq => ?_, fun hfail heq => ?_⟩
        · rw [← Except.error.inj heq]
          exact failClaim_escapes (by rw [hclaim])
        · rw [failClaim_done hfail] at hclaim
          cases hclaim
      · rw [hclaim] at hkept
        rw [← hkept] at hsaved
        refine ⟨settled_error hsaved, fun exc heq => ?_, fun hfail _ => ?_⟩
        · rw [← Except.error.inj heq]
          rfl
        · rw [failClaim_done hfail] at hclaim
          rw [← (Prod.mk.inj hclaim).2]
    | channel code => exact handled_failWith rfl hsaved
    | error => exact handled_failWith rfl hsaved
    | paused interactionId revision | exit =>
      refine ⟨settled_error hsaved, fun exc heq => ?_, fun _ heq => ?_⟩
      · rw [← Except.error.inj heq]
        rfl
      · cases Except.error.inj heq
  · exact ⟨h, by simp [handled], by simp [handled]⟩

/-! ### The whole stream -/

def Stream.EndsWith (stream : Stream) (event : ExecutionEventType) : Prop :=
  stream.raised = none ∧ ∃ before last, stream.events = before ++ [last] ∧ last.event = event

structure Outcome (env : Surroundings) (initial : Stores) (stream : Stream) (final : Stores) :
    Prop where
  ends : (∃ before last, stream = ⟨before ++ [last], none⟩ ∧
      (∀ event ∈ before, event.event.terminal = false) ∧ last.event.terminal = true) ∨
    ∃ exc, stream.raised = some exc ∧ exc.caught = false ∧
      ∀ event ∈ stream.events, event.event.terminal = false
  saved : stream.EndsWith .messageCompleted → final.saved ≠ initial.saved
  savedOnly : final.saved ≠ initial.saved → stream.EndsWith .messageCompleted ∨ SavedInVain env
  completed : stream.EndsWith .messageCompleted ∨ stream.EndsWith .interactionRequired →
    final.claim = some .completed
  executed : FailSucceeds env →
    stream.EndsWith .executionFailed ∨ stream.raised = some .cancelled →
      final.claim = some .executed

theorem endsWith_last (before : List ExecutionEvent) (last : ExecutionEvent)
    {event : ExecutionEventType} :
    Stream.EndsWith ⟨before ++ [last], none⟩ event ↔ last.event = event := by
  constructor
  · rintro ⟨-, before', last', heq, hlast⟩
    have hsame := append_inj_right' heq rfl
    rw [singleton_inj.mp hsame, hlast]
  · exact fun hlast => ⟨rfl, before, last, rfl, hlast⟩

theorem not_endsWith_raised {events : List ExecutionEvent} {event : ExecutionEventType} :
    ¬ Stream.EndsWith ⟨events, some exc⟩ event := by
  rintro ⟨hraised, -⟩
  cases hraised

theorem Handled.outcome (h : Handled env initial result) {before : List ExecutionEvent}
    (hbefore : ∀ event ∈ before, event.event.terminal = false) :
    Outcome env initial ⟨before ++ (lastYield result).1.events, (lastYield result).1.raised⟩
      (lastYield result).2 := by
  obtain ⟨exc | event, after⟩ := result
  · simp only [lastYield, append_nil]
    constructor
    · exact .inr ⟨exc, rfl, h.escapes exc rfl, hbefore⟩
    · exact fun hends => absurd hends not_endsWith_raised
    · intro hne
      rcases h.savedOnly hne with ⟨event, hok, -⟩ | hvain
      · cases hok
      · exact .inr hvain
    · rintro (hends | hends)
      · exact absurd hends not_endsWith_raised
      · exact absurd hends not_endsWith_raised
    · rintro hfail (hends | hraised)
      · exact absurd hends not_endsWith_raised
      · rw [Option.some.injEq] at hraised
        exact h.cancelled hfail (by rw [hraised])
  · simp only [lastYield]
    constructor
    · exact .inl ⟨before, event, rfl, hbefore, h.terminal event rfl⟩
    · intro hends
      obtain ⟨sessionId, -, hsaved⟩ := h.saved event rfl ((endsWith_last before event).mp hends)
      rw [hsaved]
      exact cons_ne_self sessionId initial.saved
    · intro hne
      rcases h.savedOnly hne with ⟨own, hok, hcompl⟩ | hvain
      · rw [Except.ok.inj hok]
        exact .inl ((endsWith_last before own).mpr hcompl)
      · exact .inr hvain
    · intro hends
      refine h.completed event rfl ?_
      rcases hends with hends | hends
      · rw [(endsWith_last before event).mp hends]
        decide
      · rw [(endsWith_last before event).mp hends]
        decide
    · rintro hfail (hends | hraised)
      · exact h.executed hfail event rfl ((endsWith_last before event).mp hends)
      · cases hraised

theorem persist_outcome (events before : List ExecutionEvent)
    (hbefore : ∀ event ∈ before, event.event.terminal = false) :
    Outcome env stores
      ⟨before ++ (persistCompletedSession env raised events stores).1.events,
        (persistCompletedSession env raised events stores).1.raised⟩
      (persistCompletedSession env raised events stores).2 := by
  induction events generalizing before with
  | nil => exact (handled_spec settleEnd_settled).outcome hbefore
  | cons event rest ih =>
    unfold persistCompletedSession
    split
    · next hdelta =>
      rw [append_cons]
      refine ih _ fun own hown => ?_
      rcases mem_append.mp hown with hin | hlast
      · exact hbefore own hin
      · rw [mem_singleton.mp hlast, hdelta]
        rfl
    · next hdelta => exact (handled_spec (settle_settled hdelta)).outcome hbefore

/-- The command failed before the event was claimed: one failure, and no call of `fail`. -/
structure Unclaimed (initial : Stores) (stream : Stream) (final : Stores) : Prop where
  failed : ∃ code, stream = oneFailure code
  saved : final.saved = initial.saved
  fails : final.fails = initial.fails
  claim : final.claim = initial.claim ∨ (initial.claim = none ∧ final.claim = some .processing)

theorem Unclaimed.refl (initial : Stores) (code : String) :
    Unclaimed initial (oneFailure code) initial :=
  ⟨⟨code, rfl⟩, rfl, rfl, .inl rfl⟩

variable {stream : Stream}

theorem beforeClaim_ok {code : String} (h : beforeClaim code exc = .ok stream) :
    ∃ own, stream = oneFailure own := by
  unfold beforeClaim at h
  split at h
  · exact ⟨_, (Except.ok.inj h).symm⟩
  · exact ⟨_, (Except.ok.inj h).symm⟩
  · cases h

variable {request : Request}

theorem operationGate_some (h : operationGate request = some (.ok stream)) :
    ∃ code, stream = oneFailure code := by
  unfold operationGate at h
  split at h
  · split at h
    · rw [Option.some.injEq, Except.ok.injEq] at h
      exact ⟨_, h.symm⟩
    split at h
    · exact beforeClaim_ok (Option.some.inj h)
    · split at h
      · rw [Option.some.injEq, Except.ok.injEq] at h
        exact ⟨_, h.symm⟩
      · cases h
  · cases h

theorem claimEvent_spec (request : Request) (initial : Stores) :
    (claimEvent request initial).2.saved = initial.saved ∧
      (claimEvent request initial).2.fails = initial.fails ∧
      ((claimEvent request initial).2.claim = initial.claim ∨
        (initial.claim = none ∧ (claimEvent request initial).2.claim = some .processing)) := by
  have htaken : ∀ applied : Bool, ∀ taken : Stores,
      taken = (if applied then
        (if initial.claim = none then { initial with claim := some .processing } else initial)
        else initial) →
      taken.saved = initial.saved ∧ taken.fails = initial.fails ∧
        (taken.claim = initial.claim ∨
          (initial.claim = none ∧ taken.claim = some .processing)) := by
    rintro applied taken rfl
    by_cases hclaim : initial.claim = none
    · cases applied <;> simp [hclaim]
    · cases applied <;> simp [hclaim]
  unfold claimEvent
  dsimp only
  split
  · exact htaken true _ rfl
  · next exc applied _ => exact htaken applied _ rfl

variable {final : Stores}

theorem failed_outcome {code : String} (hclaim : failClaim env stores = (.ok (), final)) :
    Outcome env stores (oneFailure code) final := by
  have hsaved := failClaim_saved env stores
  rw [hclaim] at hsaved
  have hends : ∀ event, (oneFailure code).EndsWith event → event = .executionFailed :=
    fun event hevent => ((endsWith_last [] (failure code)).mp hevent).symm
  constructor
  · exact .inl ⟨[], failure code, rfl, by simp, rfl⟩
  · exact fun hcompl => by cases hends _ hcompl
  · exact fun hne => absurd hsaved hne
  · rintro (hcompl | hinter)
    · cases hends _ hcompl
    · cases hends _ hinter
  · intro hfail _
    rw [failClaim_done hfail] at hclaim
    rw [← (Prod.mk.inj hclaim).2]

theorem executeClaimed_outcome (h : executeClaimed env request stores = (.ok stream, final)) :
    Outcome env stores stream final := by
  unfold executeClaimed at h
  split at h
  · next events _ =>
    rw [Prod.mk.injEq, Except.ok.injEq] at h
    obtain ⟨rfl, rfl⟩ := h
    exact persist_outcome events.events [] (by simp)
  · split at h <;> cases h
  iterate 2
    · split at h
      · next hclaim =>
        rw [Prod.mk.injEq, Except.ok.injEq] at h
        obtain ⟨rfl, rfl⟩ := h
        exact failed_outcome hclaim
      · cases h
  · cases h

theorem Outcome.of_saved (h : Outcome env stores stream final)
    (hsaved : stores.saved = initial.saved) : Outcome env initial stream final := { h with
  saved := hsaved ▸ h.saved
  savedOnly := hsaved ▸ h.savedOnly }

/-- **A stream that `execute` returns ends in one terminal event, and the pointer and the
    claim agree with it**, unless a cancellation or a base exception cuts it off, a write
    that took effect is followed by an exception, or the event was never claimed. -/
theorem execute_outcome (env : Surroundings) (request : Request) {stream : Stream} {final : Stores}
    (h : execute env request initial = (.ok stream, final)) :
    Unclaimed initial stream final ∨ Outcome env initial stream final := by
  unfold execute at h
  split at h
  · rw [Prod.mk.injEq, Except.ok.injEq] at h
    obtain ⟨rfl, rfl⟩ := h
    exact .inl (.refl _ _)
  split at h
  · cases h
  · cases h
  split at h
  · cases h
  split at h
  · cases h
  have hclaim := claimEvent_spec request initial
  split at h
  · next result hgate =>
    rw [Prod.mk.injEq] at h
    obtain ⟨rfl, rfl⟩ := h
    obtain ⟨code, rfl⟩ := operationGate_some hgate
    exact .inl (.refl _ _)
  · split at h
    · next exc after heq =>
      rw [Prod.mk.injEq] at h
      obtain ⟨hbefore, rfl⟩ := h
      rw [heq] at hclaim
      exact .inl ⟨beforeClaim_ok hbefore, hclaim.1, hclaim.2.1, hclaim.2.2⟩
    · cases h
    · next after heq =>
      rw [heq] at hclaim
      exact .inr ((executeClaimed_outcome h).of_saved hclaim.1)

def sampleRequest : Request where
  bindingId := "binding"
  eventId := "event"
  operationSet := true
  operation := .message
  resolved := .ok (some ("binding", true))
  policyRegenerate := true
  policyRetry := true
  capabilities := .ok (true, true)
  claimRaises := none
  principalRaises := none
  getSessionRaises := none
  prepareRaises := none
  target := ⟨[.dumped ⟨"message_delta", some "text", none, none, none, none, none⟩,
    .dumped ⟨"message_completed", none, some "session", none, none, none, none⟩], none⟩

def sampleSurroundings (complete : Reply) : Surroundings where
  put := .done
  complete := complete
  fail := fun _ => .done
  registrar := none
  principal := false
  presentationRef := false

def freshStores : Stores := ⟨[], none, 0⟩

theorem execute_outcome_sample :
    Unclaimed freshStores ⟨[⟨⟨.messageDelta, some "text", none, none, none, none, none⟩, rfl⟩,
        ⟨⟨.messageCompleted, none, some "session", none, none, none, none⟩, rfl⟩], none⟩
        ⟨["session"], some .completed, 0⟩ ∨
      Outcome (sampleSurroundings .done) freshStores
        ⟨[⟨⟨.messageDelta, some "text", none, none, none, none, none⟩, rfl⟩,
          ⟨⟨.messageCompleted, none, some "session", none, none, none, none⟩, rfl⟩], none⟩
        ⟨["session"], some .completed, 0⟩ :=
  execute_outcome (sampleSurroundings .done) sampleRequest (by rfl)

/-- The pointer is written, then completing the claim fails: the stream ends in a failure. -/
theorem pointer_moved_by_failure :
    ¬ ∀ (env : Surroundings) (request : Request) (initial : Stores) (stream : Stream)
        (final : Stores), execute env request initial = (.ok stream, final) →
      (∃ before last, stream = ⟨before ++ [last], none⟩ ∧
        (∀ event ∈ before, event.event.terminal = false) ∧ last.event.terminal = true) ∧
      (final.saved ≠ initial.saved ↔ stream.EndsWith .messageCompleted) := by
  intro h
  have hmoved := (h (sampleSurroundings (.raised .error false)) sampleRequest freshStores
    ⟨[⟨⟨.messageDelta, some "text", none, none, none, none, none⟩, rfl⟩,
      failure "CHANNEL_STATE_UNAVAILABLE"], none⟩ ⟨["session"], some .executed, 1⟩ (by rfl)).2
  have hcompleted := (endsWith_last [_] _).mp (hmoved.mp (by decide))
  cases hcompleted

end MultiRag.Execution
