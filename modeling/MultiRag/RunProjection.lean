/-
  **What a projected Run event stream looks like.**

  `Represents events p` says what a projection knows: `events` are the accepted
  events without their exact repeats and `p` is the projection after them.

  The digest is assumed injective where the content of an event has to be recovered
  from it.
-/
import MultiRag.RunPlatform
import Mathlib.Data.List.Chain

namespace MultiRag.RunPlatform

open List Function

/-! ### The contract of a stream -/

def targetStatus (event : RunEventEnvelope) : Option RunStatus := eventTargetStatus.lookup event.type

def visitedStatuses (events : List RunEventEnvelope) : List RunStatus :=
  .accepted :: events.filterMap targetStatus

def finalStatus (events : List RunEventEnvelope) : RunStatus :=
  (events.filterMap targetStatus).getLastD .accepted

def dropRepeats (events : List RunEventEnvelope) : List RunEventEnvelope :=
  events.foldl (fun kept event => if kept.getLast? = some event then kept else kept ++ [event]) []

variable {event : RunEventEnvelope}

@[simp] theorem targetStatus_initial (h : event.type = initialEventType) :
    targetStatus event = none := by
  rw [targetStatus, h]; decide

theorem filterMap_snoc (events : List RunEventEnvelope) (event : RunEventEnvelope) :
    (events ++ [event]).filterMap targetStatus =
      events.filterMap targetStatus ++ (targetStatus event).toList := by
  rw [filterMap_append, filterMap_cons, filterMap_nil]
  cases targetStatus event <;> rfl

theorem finalStatus_snoc (events : List RunEventEnvelope) (event : RunEventEnvelope) :
    finalStatus (events ++ [event]) = (targetStatus event).getD (finalStatus events) := by
  rw [finalStatus, filterMap_snoc]
  cases targetStatus event with
  | none => simp [finalStatus]
  | some target => simp [getLastD_eq_getLast?]

/-- The contract between a stream without repeats and its projection. -/
structure StreamContract {δ : Type} (events : List RunEventEnvelope) (p : RunProjection δ) :
    Prop where
  seqs : events.map (·.seq) = List.range' 1 events.length
  identity : ∀ e ∈ events, e.runId = p.runId ∧ e.threadId = p.threadId ∧ e.turnId = p.turnId
  initial : ∀ i e, events[i]? = some e → (e.type = initialEventType ↔ i = 0)
  output : ∀ before e after, events = before ++ e :: after → e.type ∈ outputEventTypes →
    finalStatus before ∈ outputEventAllowedStatuses
  active : ∀ before e after, events = before ++ e :: after →
    finalStatus before ∉ terminalRunStatuses
  status : p.lifecycle.status = finalStatus events
  version : p.lifecycle.version = 1 + (events.filter (fun e => (targetStatus e).isSome)).length
  path : List.IsChain (fun a b => b ∈ allowedRunTransitions a) (visitedStatuses events)
  desired : p.lifecycle.desiredState = .cancelled ↔
    ∃ e ∈ events, e.type = "run.cancel_requested" ∨ e.type = "run.cancelled"

/-- An event that may follow a projection: the Run goes on, the event continues
    its identity and numbering, and its type fits the current status. -/
structure ValidSuccessor {δ : Type} (p : RunProjection δ) (event : RunEventEnvelope) : Prop where
  active : p.lifecycle.status ∉ terminalRunStatuses
  notInitial : event.type ≠ initialEventType
  runId : event.runId = p.runId
  threadId : event.threadId = p.threadId
  turnId : event.turnId = p.turnId
  seq : event.seq = p.lastEventSeq + 1
  output : event.type ∈ outputEventTypes → p.lifecycle.status ∈ outputEventAllowedStatuses
  delta : event.type = "message.delta" → parsesAsMessageDelta event = true
  allowed : ∀ target, targetStatus event = some target →
    target ∈ allowedRunTransitions p.lifecycle.status

theorem split_snoc {α : Type} {events before after : List α} {last e : α}
    (h : events ++ [last] = before ++ e :: after) :
    (events = before ∧ last = e ∧ after = []) ∨
      ∃ after', after = after' ++ [last] ∧ events = before ++ e :: after' := by
  rcases eq_nil_or_concat after with rfl | ⟨front, x, rfl⟩
  · obtain ⟨hfront, hlast⟩ := append_inj' h rfl
    exact .inl ⟨hfront, by simpa using hlast, rfl⟩
  · rw [concat_eq_append, ← cons_append, ← append_assoc] at h
    obtain ⟨hfront, hlast⟩ := append_inj' h rfl
    have hx : last = x := by simpa using hlast
    exact .inr ⟨front, by rw [hx, concat_eq_append], hfront⟩

theorem mem_of_lookup {α β : Type} [DecidableEq α] {l : List (α × β)} {a : α} {b : β}
    (h : l.lookup a = some b) : (a, b) ∈ l := by
  obtain ⟨before, after, rfl, -⟩ := lookup_eq_some_iff.mp h
  exact mem_append_right _ mem_cons_self

theorem targetStatus_cancelRequested :
    targetStatus event = some .cancelRequested ↔ event.type = "run.cancel_requested" := by
  constructor
  · intro h
    simpa [eventTargetStatus] using mem_of_lookup h
  · intro h
    rw [targetStatus, h]; decide

theorem targetStatus_cancelled :
    targetStatus event = some .cancelled ↔ event.type = "run.cancelled" := by
  constructor
  · intro h
    simpa [eventTargetStatus] using mem_of_lookup h
  · intro h
    rw [targetStatus, h]; decide

section

variable {δ : Type} [DecidableEq δ] {eventDigest : RunEventEnvelope → δ} {p p' : RunProjection δ}

/-- An event that repeats the last one exactly, as far as the projection can tell. -/
def IsRepeat (eventDigest : RunEventEnvelope → δ) (p : RunProjection δ)
    (event : RunEventEnvelope) : Prop :=
  event.seq = p.lastEventSeq ∧ event.eventId = p.lastEventId ∧
    eventDigest event = p.lastEventDigest

def successorProjection (eventDigest : RunEventEnvelope → δ) (p : RunProjection δ)
    (event : RunEventEnvelope) : RunProjection δ :=
  { p with
    lifecycle :=
      match targetStatus event with
      | none => p.lifecycle
      | some target =>
          { status := target
            desiredState :=
              if target = .cancelRequested ∨ target = .cancelled then .cancelled
              else p.lifecycle.desiredState
            version := p.lifecycle.version + 1 }
    lastEventSeq := event.seq
    lastEventId := event.eventId
    lastEventDigest := eventDigest event }

theorem checkOutputEvent_eq_ok {status : RunStatus} :
    checkOutputEvent status event = .ok () ↔
      (event.type ∈ outputEventTypes → status ∈ outputEventAllowedStatuses) ∧
        (event.type = "message.delta" → parsesAsMessageDelta event = true) := by
  have hdelta : event.type = "message.delta" → event.type ∈ outputEventTypes := by
    intro h; rw [h]; decide
  unfold checkOutputEvent
  by_cases hout : event.type ∈ outputEventTypes
  · by_cases hstatus : status ∈ outputEventAllowedStatuses
    · by_cases hparse : event.type = "message.delta" ∧ parsesAsMessageDelta event = false
      · simp [hstatus, hparse, show "message.delta" ∈ outputEventTypes by decide]
      · simp only [hout, hstatus, hparse, if_true, if_false, not_true, true_and, forall_const]
        simpa using hparse
    · simp [hout, hstatus]
  · simp only [hout, if_false, false_implies, true_and, true_iff]
    intro h
    exact absurd (hdelta h) hout

theorem lifecycleAfter_eq_ok {lifecycle lifecycle' : RunLifecycle} :
    lifecycleAfter lifecycle event = .ok lifecycle' ↔
      (targetStatus event = none ∧ lifecycle' = lifecycle) ∨
      ∃ target, targetStatus event = some target ∧ target ∈ allowedRunTransitions lifecycle.status ∧
        lifecycle' =
          { status := target
            desiredState :=
              if target = .cancelRequested ∨ target = .cancelled then .cancelled
              else lifecycle.desiredState
            version := lifecycle.version + 1 } := by
  unfold lifecycleAfter
  change (match targetStatus event with | none => _ | some target => _) = _ ↔ _
  cases targetStatus event with
  | none => simp [eq_comm]
  | some target =>
    by_cases hallowed : target ∈ allowedRunTransitions lifecycle.status
    · simp [RunLifecycle.transition, canTransition, hallowed, eq_comm]
    · simp [RunLifecycle.transition, canTransition, hallowed]

/-- **What `apply_run_event` accepts.**  Exactly the repeat of the last event,
    which changes nothing, and the valid successors. -/
theorem apply_eq_ok_iff :
    applyRunEvent eventDigest (some p) event = .ok p' ↔
      (IsRepeat eventDigest p event ∧ p' = p) ∨
      (ValidSuccessor p event ∧ p' = successorProjection eventDigest p event) := by
  constructor
  · intro h
    simp only [applyRunEvent] at h
    by_cases hrepeat : event.seq = p.lastEventSeq ∧ event.eventId = p.lastEventId
    · rw [if_pos hrepeat] at h
      split at h
      · next hdigest =>
        cases h
        exact .inl ⟨⟨hrepeat.1, hrepeat.2, hdigest⟩, rfl⟩
      · cases h
    · rw [if_neg hrepeat] at h
      split_ifs at h with hterm hinitial hident hseq
      split at h
      · cases h
      · next hcheck =>
        split at h
        · cases h
        · next lifecycle hlife =>
          cases h
          simp only [not_or, not_not] at hident
          obtain ⟨houtput, hdelta⟩ := checkOutputEvent_eq_ok.mp hcheck
          have hactive : p.lifecycle.status ∉ terminalRunStatuses := by
            simpa [RunProjection.terminal, RunLifecycle.terminal] using hterm
          right
          refine ⟨⟨hactive, hinitial, hident.1, hident.2.1, hident.2.2, not_not.mp hseq, houtput, hdelta, ?_⟩, ?_⟩
          all_goals rcases lifecycleAfter_eq_ok.mp hlife with ⟨hnone, rfl⟩ | ⟨target, hsome, hmem, rfl⟩
          · simp [hnone]
          · simp [hsome, hmem]
          · simp [successorProjection, hnone]
          · simp [successorProjection, hsome]
  · rintro (⟨⟨hseq, hid, hdigest⟩, rfl⟩ | ⟨hvalid, rfl⟩)
    · simp [applyRunEvent, hseq, hid, hdigest]
    · have hactive : p.terminal = false := by
        simpa [RunProjection.terminal, RunLifecycle.terminal] using hvalid.active
      have hident : ¬ (event.runId ≠ p.runId ∨ event.threadId ≠ p.threadId ∨
          event.turnId ≠ p.turnId) := by
        simp [hvalid.runId, hvalid.threadId, hvalid.turnId]
      have hcheck := checkOutputEvent_eq_ok.mpr ⟨hvalid.output, hvalid.delta⟩
      have hlife : lifecycleAfter p.lifecycle event =
          .ok (successorProjection eventDigest p event).lifecycle := by
        rw [lifecycleAfter_eq_ok]
        cases htarget : targetStatus event with
        | none => simp [successorProjection, htarget]
        | some target => simp [successorProjection, htarget, hvalid.allowed target htarget]
      simp only [applyRunEvent, hactive, Bool.false_eq_true, if_false,
        if_neg hvalid.notInitial, if_neg hident, hvalid.seq, ne_eq, not_true_eq_false, hcheck,
        hlife]
      simp [successorProjection, hvalid.seq]

end

variable {δ : Type} {eventDigest : RunEventEnvelope → δ}

/-- `events` is the accepted stream behind the projection `p`, without repeats. -/
structure Represents (eventDigest : RunEventEnvelope → δ) (events : List RunEventEnvelope)
    (p : RunProjection δ) : Prop extends StreamContract events p where
  lastEventSeq : p.lastEventSeq = events.length
  lastEvent : ∃ last, events.getLast? = some last ∧ IsRepeat eventDigest p last

variable {events : List RunEventEnvelope} {p : RunProjection δ}

theorem Represents.getLast?_of_isRepeat (hinj : Injective eventDigest)
    (hrep : Represents eventDigest events p) (h : IsRepeat eventDigest p event) :
    events.getLast? = some event := by
  obtain ⟨last, hlast, hrepeat⟩ := hrep.lastEvent
  rw [hlast, hinj (hrepeat.2.2.trans h.2.2.symm)]

theorem path_snoc
    (hpath : List.IsChain (fun a b => b ∈ allowedRunTransitions a) (visitedStatuses events))
    (hallowed : ∀ target, targetStatus event = some target →
      target ∈ allowedRunTransitions (finalStatus events)) :
    List.IsChain (fun a b => b ∈ allowedRunTransitions a) (visitedStatuses (events ++ [event])) := by
  cases htarget : targetStatus event with
  | none => simpa [visitedStatuses, filterMap_snoc, htarget] using hpath
  | some target =>
    have hvisited : visitedStatuses (events ++ [event]) = visitedStatuses events ++ [target] := by
      simp [visitedStatuses, htarget]
    rw [hvisited, isChain_append]
    refine ⟨hpath, isChain_singleton _, ?_⟩
    intro a ha b hb
    have hlast : (visitedStatuses events).getLast? = some (finalStatus events) := by
      simp [visitedStatuses, finalStatus, getLast?_cons]
    rw [hlast] at ha
    cases ha
    cases hb
    exact hallowed target htarget

theorem desired_snoc
    (hdesired : p.lifecycle.desiredState = .cancelled ↔
      ∃ e ∈ events, e.type = "run.cancel_requested" ∨ e.type = "run.cancelled") :
    (successorProjection eventDigest p event).lifecycle.desiredState = .cancelled ↔
      ∃ e ∈ events ++ [event], e.type = "run.cancel_requested" ∨ e.type = "run.cancelled" := by
  have hlast : (∃ e ∈ events ++ [event], e.type = "run.cancel_requested" ∨ e.type = "run.cancelled")
      ↔ p.lifecycle.desiredState = .cancelled ∨
        targetStatus event = some .cancelRequested ∨ targetStatus event = some .cancelled := by
    rw [hdesired, targetStatus_cancelRequested, targetStatus_cancelled]
    simp only [mem_append, mem_singleton, or_and_right, exists_or, exists_eq_left]
  rw [hlast]
  cases htarget : targetStatus event with
  | none => simp [successorProjection, htarget]
  | some target =>
    by_cases hcancel : target = .cancelRequested ∨ target = .cancelled
    · simp [successorProjection, htarget, hcancel]
    · simp [successorProjection, htarget, hcancel]

theorem represents_successor (hrep : Represents eventDigest events p)
    (hvalid : ValidSuccessor p event) :
    Represents eventDigest (events ++ [event]) (successorProjection eventDigest p event) := by
  have hnonempty : events ≠ [] := by
    obtain ⟨last, hlast, -⟩ := hrep.lastEvent
    rintro rfl
    simp at hlast
  have hseq : event.seq = events.length + 1 := by rw [hvalid.seq, hrep.lastEventSeq]
  have hstatus := hrep.status
  refine { seqs := ?_, identity := ?_, initial := ?_, output := ?_, active := ?_, status := ?_,
           version := ?_, path := ?_, desired := desired_snoc hrep.desired, lastEventSeq := ?_,
           lastEvent := ?_ }
  · rw [map_append, hrep.seqs, length_append, length_singleton,
      range'_append_1.symm]
    simp [hseq, Nat.add_comm]
  · intro e he
    rcases mem_append.mp he with hold | hnew
    · exact hrep.identity e hold
    · rw [mem_singleton.mp hnew]
      exact ⟨hvalid.runId, hvalid.threadId, hvalid.turnId⟩
  · intro i e he
    rcases Nat.lt_or_ge i events.length with hi | hi
    · rw [getElem?_append_left hi] at he
      exact hrep.initial i e he
    · rw [getElem?_append_right hi] at he
      have heq : e = event := by
        have := mem_of_getElem? he
        simpa using this
      have hi' : i ≠ 0 := by
        have := length_pos_iff.mpr hnonempty
        omega
      simp [heq, hvalid.notInitial, hi']
  · intro before e after heq hout
    rcases split_snoc heq with ⟨rfl, rfl, -⟩ | ⟨after', -, hold⟩
    · rw [← hstatus]; exact hvalid.output hout
    · exact hrep.output before e after' hold hout
  · intro before e after heq
    rcases split_snoc heq with ⟨rfl, rfl, -⟩ | ⟨after', -, hold⟩
    · rw [← hstatus]; exact hvalid.active
    · exact hrep.active before e after' hold
  · rw [finalStatus_snoc, ← hstatus]
    cases htarget : targetStatus event <;> simp [successorProjection, htarget]
  · have hversion := hrep.version
    cases htarget : targetStatus event with
    | none => simp [successorProjection, htarget, hversion]
    | some target => simp [successorProjection, htarget, hversion, Nat.add_assoc]
  · apply path_snoc hrep.path
    rw [← hstatus]
    exact hvalid.allowed
  · simpa [successorProjection] using hseq
  · exact ⟨event, by simp, rfl, rfl, rfl⟩

variable [DecidableEq δ]

theorem represents_initial (h : applyRunEvent eventDigest none event = .ok p) :
    Represents eventDigest [event] p := by
  simp only [applyRunEvent, initialProjection] at h
  split_ifs at h with hinitial
  cases h
  simp only [not_or, not_not] at hinitial
  obtain ⟨hseq, htype⟩ := hinitial
  have hnone : targetStatus event = none := targetStatus_initial htype
  have hsplit : ∀ before e after, [event] = before ++ e :: after → before = [] ∧ e = event := by
    intro before e after heq
    rcases split_snoc (show [] ++ [event] = before ++ e :: after from heq) with ⟨rfl, rfl, -⟩ | ⟨after', -, hnil⟩
    · exact ⟨rfl, rfl⟩
    · simp at hnil
  refine { seqs := ?_, identity := ?_, initial := ?_, output := ?_, active := ?_, status := ?_,
           version := ?_, path := ?_, desired := ?_, lastEventSeq := rfl, lastEvent := ?_ }
  · simp [hseq]
  · intro e he
    rw [mem_singleton.mp he]
    exact ⟨rfl, rfl, rfl⟩
  · intro i e he
    obtain ⟨hi, heq⟩ := List.getElem?_eq_some_iff.mp he
    have hzero : i = 0 := by simpa using hi
    subst hzero
    have : e = event := by simpa using heq.symm
    simp [this, htype]
  · intro before e after heq hout
    obtain ⟨-, rfl⟩ := hsplit before e after heq
    rw [htype] at hout
    exact absurd hout (by decide)
  · intro before e after heq
    obtain ⟨rfl, -⟩ := hsplit before e after heq
    decide
  · simp [finalStatus, hnone]
  · simp [hnone]
  · simp [visitedStatuses, hnone]
  · have hasked : event.type ≠ "run.cancel_requested" := by rw [htype]; decide
    have hcancelled : event.type ≠ "run.cancelled" := by rw [htype]; decide
    simp [hasked, hcancelled]
  · exact ⟨event, rfl, hseq, rfl, rfl⟩

/-- **The two things an accepted event can do**: repeat the last event and
    change nothing, or extend the stream. -/
theorem represents_step (hinj : Injective eventDigest)
    {p' : RunProjection δ} (hrep : Represents eventDigest events p)
    (h : applyRunEvent eventDigest (some p) event = .ok p') :
    (events.getLast? = some event ∧ p' = p) ∨
      (events.getLast? ≠ some event ∧ Represents eventDigest (events ++ [event]) p') := by
  rcases apply_eq_ok_iff.mp h with ⟨hrepeat, rfl⟩ | ⟨hvalid, rfl⟩
  · exact .inl ⟨hrep.getLast?_of_isRepeat hinj hrepeat, rfl⟩
  · refine .inr ⟨?_, represents_successor hrep hvalid⟩
    intro hlast
    obtain ⟨last, hlast', hrepeat⟩ := hrep.lastEvent
    rw [hlast] at hlast'
    cases hlast'
    have := hrepeat.1
    rw [hvalid.seq] at this
    omega

theorem foldRunEvents_represents (hinj : Injective eventDigest)
    {stream : List RunEventEnvelope} {kept : List RunEventEnvelope} {q : Option (RunProjection δ)}
    (hrep : Represents eventDigest kept p)
    (h : foldRunEvents eventDigest (some p) stream = (q, none)) :
    ∃ p', q = some p' ∧ Represents eventDigest
      (stream.foldl (fun kept event => if kept.getLast? = some event then kept else kept ++ [event])
        kept) p' := by
  induction stream generalizing kept p with
  | nil =>
    cases h
    exact ⟨p, rfl, hrep⟩
  | cons event stream ih =>
    simp only [foldRunEvents] at h
    split at h
    · next p' happly =>
      rw [foldl_cons]
      rcases represents_step hinj hrep happly with ⟨hlast, rfl⟩ | ⟨hlast, hrep'⟩
      · rw [if_pos hlast]; exact ih hrep h
      · rw [if_neg hlast]; exact ih hrep' h
    · cases h

/-- **Soundness of the projection.**  A stream that folds without error satisfies
    the stream contract once exact repeats are removed. -/
theorem foldRunEvents_streamContract (hinj : Injective eventDigest)
    {events : List RunEventEnvelope} {q : Option (RunProjection δ)}
    (h : foldRunEvents eventDigest none events = (q, none)) :
    match q with
    | none => events = []
    | some p => StreamContract (dropRepeats events) p := by
  cases events with
  | nil =>
    cases h
    rfl
  | cons event stream =>
    simp only [foldRunEvents] at h
    split at h
    · next p happly =>
      obtain ⟨p', rfl, hrep⟩ := foldRunEvents_represents hinj (represents_initial happly) h
      exact hrep.toStreamContract
    · cases h

/-! ### A stream that satisfies the hypotheses -/

def sampleEvent (seq : Nat) (h : 1 ≤ seq) (eventId type : String) : RunEventEnvelope where
  eventId := eventId
  runId := "run"
  threadId := "thread"
  turnId := "turn"
  seq := seq
  seq_pos := h
  type := type
  createdAt := ⟨0, 0⟩
  data := []

def sampleStream : List RunEventEnvelope :=
  [sampleEvent 1 (by decide) "e1" "run.accepted", sampleEvent 2 (by decide) "e2" "run.queued",
    sampleEvent 2 (by decide) "e2" "run.queued", sampleEvent 3 (by decide) "e3" "run.cancelled"]

def sampleProjection : RunProjection RunEventEnvelope where
  runId := "run"
  threadId := "thread"
  turnId := "turn"
  lifecycle := { status := .cancelled, desiredState := .cancelled, version := 3 }
  lastEventSeq := 3
  lastEventId := "e3"
  lastEventDigest := sampleEvent 3 (by decide) "e3" "run.cancelled"

theorem fold_sampleStream :
    foldRunEvents id none sampleStream = (some sampleProjection, none) := by decide

theorem foldRunEvents_streamContract_sample :
    Injective (id : RunEventEnvelope → RunEventEnvelope) ∧
      foldRunEvents id none sampleStream = (some sampleProjection, none) ∧
      StreamContract (dropRepeats sampleStream) sampleProjection :=
  ⟨Function.injective_id, fold_sampleStream,
    foldRunEvents_streamContract Function.injective_id fold_sampleStream⟩

end MultiRag.RunPlatform
