/-
  **What one step of an execution record's tasks keeps.**

  Every step keeps a terminal status terminal (`Keeps`).
-/
import MultiRag.ReplyLifecycle

namespace MultiRag.BindingBridge

open Feishu (ReplySessionState ReplyStatus)

/-! ### Agreement -/

/-- The status a record is released with tells the state of its session; ERROR also
    stands for a pause whose form could not be delivered. -/
def Matched (status : ReplyStatus) (session : ReplySessionState) (pauseFailed : Bool) : Prop :=
  (status = .final ↔ session = .completed) ∧
  (status = .cancelled ↔ session = .cancelled) ∧
  (status = .error ↔ session = .failed ∨ pauseFailed = true) ∧
  (status = .awaitingInput ↔ session = .awaitingInput ∧ pauseFailed = false)

instance (status : ReplyStatus) (session : ReplySessionState) (pauseFailed : Bool) :
    Decidable (Matched status session pauseFailed) := by
  unfold Matched
  infer_instance

structure Released.Agrees (r : Released) : Prop where
  matched : Matched r.status r.session r.pauseFailed
  marked : r.marks ≠ []

def closed : ReplySessionState → Bool
  | .completed | .failed | .cancelled => true
  | .opened | .awaitingInput => false

/-- The calls that took effect are told by the session. -/
def EndedOnce (b : Bridge) : Prop := b.ended.length = if closed b.session then 1 else 0

/-- What every step keeps: a terminal record, and that one call took effect. -/
structure Keeps (b b' : Bridge) : Prop where
  terminal : terminal b.record.status = true → terminal b'.record.status = true
  once : EndedOnce b → EndedOnce b'

theorem Keeps.trans {b₁ b₂ b₃ : Bridge} (h₁ : Keeps b₁ b₂) (h₂ : Keeps b₂ b₃) : Keeps b₁ b₃ :=
  ⟨fun h => h₂.terminal (h₁.terminal h), fun h => h₂.once (h₁.once h)⟩

/-! ### What the execution task keeps -/

structure Pending (seen : Released) (released : Option Released) (s : ReplySessionState) : Prop where
  session : seen.session = s
  going : terminal seen.status = false
  pauseFailed : seen.pauseFailed = false
  unreleased : released = none

/-- The record is about to be released. -/
structure Holds (seen : Released) (released : Option Released) (s : ReplySessionState)
    (st : ReplyStatus) (failed : Bool) : Prop where
  session : seen.session = s
  status : seen.status = st
  pauseFailed : seen.pauseFailed = failed
  unreleased : released = none

/-- The record has been released, in agreement. -/
structure Settled (seen : Released) (released : Option Released) : Prop where
  session : seen.session ≠ .opened
  status : terminal seen.status = true
  agreed : ∃ r, released = some r ∧ r.Agrees

def Fits (seen : Released) (released : Option Released) : ConsumerPc → Prop
  | .created | .streaming false | .appending => Pending seen released .opened
  | .streaming true | .finished => Settled seen released
  | .failMarking _ | .cancelled => Pending seen released .opened ∨ Settled seen released
  | .failing _ => Holds seen released .failed .error false ∧ seen.marks ≠ []
  | .replacing => Holds seen released .opened .final false
  | .completing | .completeMarking => Holds seen released .completed .final false
  | .pausing | .claiming | .presenting | .acknowledging _ => Pending seen released .awaitingInput
  | .pauseMarking _ => Holds seen released .awaitingInput .awaitingInput false
  | .pauseFailMarking => Holds seen released .awaitingInput .error true

def Bridge.frame (b : Bridge) : WorkerPc × (Caller → Option FinalizerPc) × Bool × Bool × Bool :=
  (b.worker, b.finalizers, b.consumerCancel, b.record.cancelRequested, b.record.executionTask)

/-- One step of the execution task from `pc`. -/
structure Advances (b : Bridge) (pc : ConsumerPc) (b' : Bridge) : Prop where
  frame : b'.frame = b.frame
  keeps : Keeps b b'
  fits : Fits b.seen b.released pc → ∃ pc', b'.consumer = some pc' ∧ Fits b'.seen b'.released pc'

variable {b : Bridge} {s : ReplySessionState} {st : ReplyStatus} {failed : Bool}

theorem Settled.release (h : Settled b.seen b.released) :
    Settled b.releaseRecord.seen b.releaseRecord.released := by
  obtain ⟨r, hreleased, hagrees⟩ := h.agreed
  refine ⟨h.session, h.status, r, ?_, hagrees⟩
  simp only [Bridge.releaseRecord, hreleased, Option.some_or]

theorem Holds.release (h : Holds b.seen b.released s st failed) (hmarked : b.marks ≠ [])
    (hs : s ≠ .opened) (hst : terminal st = true) (hmatched : Matched st s failed) :
    Settled b.releaseRecord.seen b.releaseRecord.released := by
  refine ⟨h.session ▸ hs, h.status ▸ hst, b.seen, ?_, ?_, hmarked⟩
  · simp only [Bridge.releaseRecord, h.unreleased, Option.none_or]
  · rw [h.session, h.status, h.pauseFailed]
    exact hmatched

theorem EndedOnce.end (h : EndedOnce b) (hopen : b.session = .opened) (hs : closed s = true) :
    EndedOnce (b.endSession s) := by
  have hnone : b.ended.length = 0 := by rw [h, hopen]; rfl
  simp only [EndedOnce, Bridge.endSession, List.length_cons, hnone, hs, if_true]

section

variable {b' : Bridge} {pc pc' : ConsumerPc}

theorem advances_move (h : Fits b.seen b.released pc → Fits b.seen b.released pc') :
    Advances b pc (b.consumerAt pc') where
  frame := rfl
  keeps := ⟨id, id⟩
  fits hfits := ⟨pc', rfl, h hfits⟩

variable {inStream : Bool}

theorem fits_afterFailure (h : Settled b.seen b.released) :
    ∃ pc', (b.afterFailure inStream).consumer = some pc' ∧
      Fits (b.afterFailure inStream).seen (b.afterFailure inStream).released pc' := by
  cases inStream with
  | true => exact ⟨.streaming true, rfl, h⟩
  | false => exact ⟨.finished, rfl, h⟩

theorem failReplySession_advances :
    Advances b (.failMarking inStream) ((b.writeMark .executed).failReplySession inStream) := by
  unfold Bridge.failReplySession
  split
  · next hopen =>
    refine ⟨rfl, ⟨fun _ => rfl, fun h => EndedOnce.end h hopen rfl⟩, ?_⟩
    rintro (hpend | hsettled)
    · refine ⟨_, rfl, ⟨rfl, rfl, hpend.pauseFailed, hpend.unreleased⟩, ?_⟩
      exact List.cons_ne_nil _ _
    · exact absurd hopen hsettled.session
  · next hopen =>
    have hrelease : Settled b.seen b.released →
        Settled ((b.writeMark .executed).setStatus .error).releaseRecord.seen
          ((b.writeMark .executed).setStatus .error).releaseRecord.released := by
      intro hsettled
      apply Settled.release
      exact ⟨hsettled.session, rfl, hsettled.agreed⟩
    refine ⟨rfl, ⟨fun _ => rfl, id⟩, ?_⟩
    rintro (hpend | hsettled)
    · exact absurd hpend.session hopen
    · exact fits_afterFailure (hrelease hsettled)

theorem complete_advances (h : b.complete = some b')
    (hfits : Fits b.seen b.released pc → Holds b.seen b.released .opened .final false) :
    Advances b pc b' := by
  unfold Bridge.complete at h
  split at h
  · next hopen =>
    cases h
    refine ⟨rfl, ⟨id, fun honce => EndedOnce.end honce hopen rfl⟩, fun hpc => ⟨_, rfl, ?_⟩⟩
    exact ⟨rfl, (hfits hpc).status, (hfits hpc).pauseFailed, (hfits hpc).unreleased⟩
  · cases h

theorem completeReply_advances {content : Bool} (h : b.completeReply content = some b') :
    Advances b (.streaming false) b' := by
  have hfinal : Pending b.seen b.released .opened →
      Holds (b.setStatus .final).seen b.released .opened .final false := by
    intro hpend
    exact ⟨hpend.session, rfl, hpend.pauseFailed, hpend.unreleased⟩
  unfold Bridge.completeReply at h
  split at h
  · split at h
    · cases h
      exact ⟨rfl, ⟨fun _ => rfl, id⟩, fun hpc => ⟨_, rfl, hfinal hpc⟩⟩
    · cases h
  · unfold Bridge.complete at h
    split at h
    · next hopen =>
      cases h
      refine ⟨rfl, ⟨fun _ => rfl, fun honce => EndedOnce.end honce hopen rfl⟩, fun hpc => ⟨_, rfl, ?_⟩⟩
      exact ⟨rfl, rfl, (hfinal hpc).pauseFailed, (hfinal hpc).unreleased⟩
    · cases h

theorem pauseForInteraction_advances {interactive : Bool}
    (h : b.pauseForInteraction interactive = some b') : Advances b (.streaming false) b' := by
  unfold Bridge.pauseForInteraction at h
  split at h
  · split at h
    · next hopen =>
      cases h
      refine ⟨rfl, ⟨id, fun honce => ?_⟩, fun hpend => ⟨_, rfl, ?_⟩⟩
      · rw [EndedOnce, hopen] at honce
        exact honce
      · exact ⟨rfl, hpend.going, hpend.pauseFailed, hpend.unreleased⟩
    · cases h
  · cases h
    exact advances_move .inl

theorem failPause_advances
    (hfits : Fits b.seen b.released pc → Pending b.seen b.released .awaitingInput) :
    Advances b pc b.failPause := by
  refine ⟨rfl, ⟨fun _ => rfl, id⟩, fun hpc => ⟨_, rfl, ?_⟩⟩
  exact ⟨(hfits hpc).session, rfl, rfl, (hfits hpc).unreleased⟩

theorem onEvent_advances {interactive terminalSeen : Bool} {event : StreamEvent}
    (h : b.onEvent interactive terminalSeen event = some b') :
    Advances b (.streaming terminalSeen) b' := by
  -- with `terminal_seen` the record is settled, before it the reply goes on
  have hfail : Fits b.seen b.released (.streaming terminalSeen) →
      Pending b.seen b.released .opened ∨ Settled b.seen b.released := by
    cases terminalSeen with
    | true => exact .inr
    | false => exact .inl
  unfold Bridge.onEvent at h
  split at h
  · cases h
    exact advances_move hfail
  · cases h
    exact advances_move hfail
  · cases h
    cases terminalSeen with
    | true => exact advances_move id
    | false => exact advances_move hfail
  · split at h
    · cases h
      exact advances_move hfail
    · next hseen =>
      split at h
      · cases h
        rw [Bool.not_eq_true] at hseen
        subst hseen
        exact advances_move id
      · cases h
  · cases h
    exact advances_move hfail
  · split at h
    · cases h
      exact advances_move hfail
    · next hseen =>
      rw [Bool.not_eq_true] at hseen
      subst hseen
      exact completeReply_advances h
  · split at h
    · cases h
      exact advances_move hfail
    · next hseen =>
      rw [Bool.not_eq_true] at hseen
      subst hseen
      exact pauseForInteraction_advances h

theorem release_advances {mark : Mark} {record : ExecutionRecord}
    (hholds : Fits b.seen b.released pc → Holds b.seen b.released s st failed)
    (hrecord : record.status = b.record.status) (hs : s ≠ .opened) (hst : terminal st = true)
    (hmatched : Matched st s failed)
    (hframe : record.cancelRequested = b.record.cancelRequested ∧
      record.executionTask = b.record.executionTask) :
    Advances b pc
      (({ b.writeMark mark with record := record } : Bridge).releaseRecord.consumerAt (.streaming true)) := by
  refine ⟨?_, ⟨fun h => hrecord ▸ h, id⟩, fun hpc => ⟨_, rfl, ?_⟩⟩
  · simp only [Bridge.frame, Bridge.consumerAt, Bridge.releaseRecord, Bridge.writeMark, hframe]
  · have hmarked : Holds ({ b.writeMark mark with record := record } : Bridge).seen b.released s st failed :=
      ⟨(hholds hpc).session, hrecord.trans (hholds hpc).status, (hholds hpc).pauseFailed,
        (hholds hpc).unreleased⟩
    exact Holds.release hmarked (List.cons_ne_nil _ _) hs hst hmatched

variable {signal : Signal}

theorem consumeExecution_advances {interactive : Bool}
    (h : b.consumeExecution interactive pc signal = some b') : Advances b pc b' := by
  have hawaiting : Pending b.seen b.released .awaitingInput →
      Holds (b.setStatus .awaitingInput).seen b.released .awaitingInput .awaitingInput false := by
    intro hpend
    exact ⟨hpend.session, rfl, hpend.pauseFailed, hpend.unreleased⟩
  unfold Bridge.consumeExecution at h
  split at h
  · cases h
    exact advances_move id
  · exact onEvent_advances h
  · cases h
    exact advances_move id
  · cases h
    exact failReplySession_advances
  · next inStream =>
    cases h
    have hrelease : Fits b.seen b.released (.failing inStream) →
        Settled b.releaseRecord.seen b.releaseRecord.released :=
      fun hpc => Holds.release hpc.1 hpc.2 (by decide) rfl (by decide)
    exact ⟨rfl, ⟨id, id⟩, fun hpc => fits_afterFailure (hrelease hpc)⟩
  · exact complete_advances h id
  · cases h
    exact advances_move id
  · cases h
    exact release_advances id rfl (by decide) rfl (by decide) ⟨rfl, rfl⟩
  · cases h
    exact advances_move id
  · cases h
    exact failPause_advances id
  · cases h
    exact advances_move id
  · cases h
    exact failPause_advances id
  · cases h
    exact advances_move id
  · cases h
    exact advances_move id
  iterate 2
    · cases h
      exact ⟨rfl, ⟨fun _ => rfl, id⟩, fun hpc => ⟨_, rfl, hawaiting hpc⟩⟩
  iterate 2
    · cases h
      exact release_advances id rfl (by decide) rfl (by decide) ⟨rfl, rfl⟩
  · cases h

theorem consumeExecution_live {interactive : Bool}
    (h : b.consumeExecution interactive pc signal = some b') : pc.done = false := by
  cases pc with
  | finished => cases h
  | cancelled => cases h
  | _ => rfl

end

/-! ### What `_finalize_cancel` keeps -/

/-- The record and the session once a stop has been asked for: open, being cancelled by
    the call that set `finalizing`, or released. -/
inductive StoppedAt (seen : Released) (released : Option Released) (finalizing : Bool) : Prop
  | going (h : Pending seen released .opened)
  | cancelling (h : Pending seen released .cancelled) (owned : finalizing = true)
  | settled (h : Settled seen released)

abbrev Stopped (b : Bridge) : Prop := StoppedAt b.seen b.released b.record.finalizing

/-- The places of a call that has cancelled the session. -/
def FinalizerPc.owns (pc : FinalizerPc) : Prop := pc = .cancelling ∨ pc = .marking

/-- What `_finalize_cancel` leaves alone. -/
def Bridge.tasks (b : Bridge) : WorkerPc × Option ConsumerPc × Bool × Bool × Bool :=
  (b.worker, b.consumer, b.consumerCancel, b.record.cancelRequested, b.record.executionTask)

/-- One step of the call of `_finalize_cancel` by `c`. -/
structure Finalized (c : Caller) (b b' : Bridge) : Prop where
  tasks : b'.tasks = b.tasks
  keeps : Keeps b b'
  others : ∀ other, other ≠ c → b'.finalizers other = b.finalizers other
  session : b.session = .cancelled → b'.session = .cancelled
  owner : ∀ pc, b'.finalizers c = some pc → pc.owns → b'.session = .cancelled
  stopped : Stopped b → Stopped b'

variable {b' : Bridge} {c : Caller} {pc : FinalizerPc}

theorem finalizerAt_self : (b.finalizerAt c pc).finalizers c = some pc := Function.update_self ..

theorem finalizerAt_other {other : Caller} (h : other ≠ c) :
    (b.finalizerAt c pc).finalizers other = b.finalizers other := Function.update_of_ne h ..

theorem finalized_move (howner : pc.owns → b.session = .cancelled) : Finalized c b (b.finalizerAt c pc) where
  tasks := rfl
  keeps := ⟨id, id⟩
  others _ h := finalizerAt_other h
  session := id
  owner pc' h howns := by
    rw [finalizerAt_self, Option.some.injEq] at h
    subst h
    exact howner howns
  stopped := id

theorem publishCancelled_finalized {start : Bridge} (htasks : b.tasks = start.tasks)
    (hfinalizers : b.finalizers = start.finalizers) (hsess : b.session = start.session)
    (honce : EndedOnce start → EndedOnce b)
    (hstopped : Stopped start → Stopped (b.publishCancelled c)) :
    Finalized c start (b.publishCancelled c) where
  tasks := htasks
  keeps := ⟨fun _ => rfl, honce⟩
  others other h := (finalizerAt_other h).trans (congrFun hfinalizers other)
  session h := hsess.trans h
  owner pc' h howns := by
    rw [Bridge.publishCancelled, finalizerAt_self, Option.some.injEq] at h
    subst h
    rcases howns with h | h <;> cases h
  stopped := hstopped

theorem settled_publishCancelled (h : Settled b.seen b.released) :
    Settled (b.publishCancelled c).seen (b.publishCancelled c).released := by
  have hcancelled : Settled (b.setStatus .cancelled).seen b.released := ⟨h.session, rfl, h.agreed⟩
  exact Settled.release hcancelled

theorem pending_publishCancelled (h : Pending b.seen b.released .cancelled) (hmarked : b.marks ≠ []) :
    Settled (b.publishCancelled c).seen (b.publishCancelled c).released := by
  have hholds : Holds (b.setStatus .cancelled).seen b.released .cancelled .cancelled false :=
    ⟨h.session, rfl, h.pauseFailed, h.unreleased⟩
  exact Holds.release hholds hmarked (by decide) rfl (by decide)

theorem finalizeCancel_finalized : Finalized c b (b.finalizeCancel c) := by
  have hreturned : ∀ outcome, (FinalizerPc.returned outcome).owns → b.session = .cancelled := by
    intro outcome howns
    rcases howns with h | h <;> cases h
  unfold Bridge.finalizeCancel
  split
  · exact finalized_move (hreturned _)
  next hgoing =>
  split
  · apply finalized_move
    rintro (h | h) <;> cases h
  next hfree =>
  rw [Bool.not_eq_true] at hgoing
  dsimp only
  split
  · next hopen =>
    exact {
      tasks := rfl
      keeps := ⟨id, fun honce => EndedOnce.end honce hopen rfl⟩
      others := fun _ h => finalizerAt_other h
      session := fun _ => rfl
      owner := fun _ _ _ => rfl
      stopped := fun h => by
        cases h with
        | going h => exact StoppedAt.cancelling ⟨rfl, h.going, h.pauseFailed, h.unreleased⟩ rfl
        | cancelling h owned => exact absurd owned hfree
        | settled h => exact absurd hopen h.session }
  · next hclosed =>
    -- a session that is not open has an owner, or its record is terminal
    refine publishCancelled_finalized rfl rfl rfl id fun h => ?_
    cases h with
    | going h => exact absurd h.session hclosed
    | cancelling h owned => exact absurd owned hfree
    | settled h =>
      have hterm := h.status
      rw [Bridge.seen, hgoing] at hterm
      cases hterm

theorem finalizerStep_finalized (howner : ∀ pc, b.finalizers c = some pc → pc.owns → b.session = .cancelled)
    (h : b.finalizerStep c = some b') : Finalized c b b' := by
  unfold Bridge.finalizerStep at h
  split at h
  · cases h
    exact finalizeCancel_finalized
  · split at h
    · split at h
      · cases h
        apply finalized_move
        rintro (h | h) <;> cases h
      · cases h
        exact finalizeCancel_finalized
    · cases h
  · next hpc =>
    cases h
    exact finalized_move fun _ => howner _ hpc (.inl rfl)
  · next hpc =>
    cases h
    have hcancelled := howner _ hpc (.inr rfl)
    refine publishCancelled_finalized rfl rfl rfl id fun h => StoppedAt.settled ?_
    cases h with
    | going h => exact absurd (hcancelled.symm.trans h.session) (by decide)
    | cancelling h _ =>
      apply pending_publishCancelled
      · exact ⟨h.session, h.going, h.pauseFailed, h.unreleased⟩
      · exact List.cons_ne_nil _ _
    | settled h =>
      apply settled_publishCancelled
      exact ⟨h.session, h.status, h.agreed⟩
  · cases h

variable {interactive : Bool}

theorem consumerStep_keeps {signal : Signal} (h : b.consumerStep interactive signal = some b') :
    Keeps b b' := by
  unfold Bridge.consumerStep at h
  split at h
  · cases h
  split at h
  · split at h
    · cases h
      exact ⟨id, id⟩
    · cases h
  · split at h
    · cases h
    · exact (consumeExecution_advances h).keeps

theorem finalizerStep_keeps (h : b.finalizerStep c = some b') : Keeps b b' := by
  unfold Bridge.finalizerStep at h
  split at h
  · cases h
    exact finalizeCancel_finalized.keeps
  · split at h
    · split at h
      · cases h
        exact ⟨id, id⟩
      · cases h
        exact finalizeCancel_finalized.keeps
    · cases h
  · cases h
    exact ⟨id, id⟩
  · cases h
    exact ⟨fun _ => rfl, id⟩
  · cases h

theorem settleWorker_keeps : Keeps b b.settleWorker := by
  unfold Bridge.settleWorker
  split
  · exact ⟨id, id⟩
  · exact ⟨id, id⟩

theorem workerStep_keeps (h : b.workerStep = some b') : Keeps b b' := by
  have hfinalize : ∀ {start : Bridge}, Keeps start (start.finalizeCancel .worker).settleWorker :=
    fun {_} => finalizeCancel_finalized.keeps.trans settleWorker_keeps
  unfold Bridge.workerStep at h
  split at h
  · split at h
    · cases h
      exact hfinalize
    split at h
    · cases h
      exact ⟨id, id⟩
    · cases h
  · split at h
    · cases h
      exact ⟨id, id⟩
    next hgoing =>
    -- RUNNING is written over a status that is not terminal
    have hrunning : Keeps b (b.setStatus .running) := ⟨fun h => absurd h hgoing, id⟩
    split at h
    · cases h
      exact hrunning.trans hfinalize
    · cases h
      exact ⟨hrunning.terminal, id⟩
  · split at h
    · cases h
      exact ⟨id, id⟩
    · split at h
      · cases h
        exact hfinalize
      · cases h
        exact ⟨id, id⟩
    · cases h
  · rw [Option.map_eq_some_iff] at h
    obtain ⟨next, hnext, rfl⟩ := h
    exact (finalizerStep_keeps hnext).trans settleWorker_keeps
  · cases h

theorem stop_keeps (h : b.stop = some b') : Keeps b b' := by
  unfold Bridge.stop at h
  split at h
  · cases h
    split
    · exact ⟨id, id⟩
    · exact ⟨id, id⟩
  · cases h

theorem finalizeOnShutdown_keeps {n : Nat} (h : b.finalizeOnShutdown n = some b') : Keeps b b' := by
  unfold Bridge.finalizeOnShutdown at h
  split at h
  · cases h
    have hasked : Keeps b { b.requestCancel with
        record := { b.requestCancel.record with telemetryReason := .shutdown } } := ⟨id, id⟩
    exact hasked.trans finalizeCancel_finalized.keeps
  · cases h

theorem Step.keeps {e : Event} (h : Step interactive b e b') : Keeps b b' := by
  cases e with
  | worker => exact workerStep_keeps h
  | consumer signal => exact consumerStep_keeps h
  | finalizer c =>
    rw [Step, Bridge.step] at h
    split at h
    · cases h
    · exact finalizerStep_keeps h
  | stop => exact stop_keeps h
  | shutdown n => exact finalizeOnShutdown_keeps h

end MultiRag.BindingBridge
