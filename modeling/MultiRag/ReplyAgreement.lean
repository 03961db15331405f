/-
  **The record and the reply session of an execution end in agreement.**

  `Sound` relates the record, the session and the places of the tasks. It splits on
  `cancel_requested`. Until then the place of the execution task says what the record and the
  session are, and nobody finalizes. From then on the execution task does nothing but unwind, and
  the session is open, or being cancelled, or the record has been released.
-/
import MultiRag.ReplySteps

namespace MultiRag.BindingBridge

open Feishu (ReplySessionState ReplyStatus)

/-! ### The invariant -/

/-- The execution task before it is created, and after. -/
def FitsConsumer (seen : Released) (released : Option Released) : Option ConsumerPc → Prop
  | none => Pending seen released .opened
  | some pc => Fits seen released pc

structure Sound (b : Bridge) : Prop where
  callers : ∀ c, b.finalizers c ≠ none → b.record.cancelRequested = true
  owner : ∀ c pc, b.finalizers c = some pc → pc.owns → b.session = .cancelled
  fresh : b.worker = .ready ∨ b.worker = .settingStatus → b.consumer = none
  live : ∀ pc, b.consumer = some pc → pc.done = false →
    b.worker = .awaitingExecution ∧ b.record.executionTask = true
  asked : b.consumerCancel = true → b.record.cancelRequested = true
  unwinds : b.record.cancelRequested = true → ∀ pc, b.consumer = some pc → pc.done = false →
    b.consumerCancel = true
  going : b.record.cancelRequested = false → FitsConsumer b.seen b.released b.consumer
  stopped : b.record.cancelRequested = true → Stopped b

/-- The pause of a record that still runs, between `pause_for_interaction` and its form. -/
def Bridge.pauseInFlight (b : Bridge) : Prop :=
  b.session = .awaitingInput ∧ terminal b.record.status = false

variable {b b' : Bridge} {c : Caller} {interactive : Bool}

theorem sound_opening : Sound opening where
  callers _ h := absurd rfl h
  owner _ _ h := absurd h (by simp [opening])
  fresh _ := rfl
  live _ h := absurd h (by simp [opening])
  asked h := absurd h (by decide)
  unwinds h := absurd h (by decide)
  going _ := ⟨rfl, rfl, rfl, rfl⟩
  stopped h := absurd h (by decide)

variable {released : Option Released} {seen : Released} {pc : ConsumerPc}

theorem Fits.released_cases
    (h : Fits seen released pc) : released = none ∨ Settled seen released := by
  cases pc with
  | streaming terminalSeen =>
    cases terminalSeen with
    | false => exact .inl h.unreleased
    | true => exact .inr h
  | failMarking inStream => exact h.imp Pending.unreleased id
  | cancelled => exact h.imp Pending.unreleased id
  | finished => exact .inr h
  | failing inStream => exact .inl h.1.unreleased
  | _ => exact .inl h.unreleased

theorem Sound.agrees (h : Sound b) {r : Released} (hreleased : b.released = some r) : r.Agrees := by
  have hcases : b.released = none ∨ Settled b.seen b.released := by
    cases hasked : b.record.cancelRequested with
    | true =>
      cases h.stopped hasked with
      | going h => exact .inl h.unreleased
      | cancelling h _ => exact .inl h.unreleased
      | settled h => exact .inr h
    | false =>
      have hfits := h.going hasked
      cases hconsumer : b.consumer with
      | none =>
        rw [hconsumer] at hfits
        exact .inl hfits.unreleased
      | some pc =>
        rw [hconsumer] at hfits
        exact hfits.released_cases
  rcases hcases with hnone | hsettled
  · rw [hnone] at hreleased
    cases hreleased
  · obtain ⟨r', hsome, hagrees⟩ := hsettled.agreed
    rw [hreleased, Option.some.injEq] at hsome
    exact hsome ▸ hagrees

theorem Fits.going
    (h : Fits seen released pc) (hstatus : terminal seen.status = false)
    (hsess : seen.session ≠ .awaitingInput) : Pending seen released .opened := by
  have hsettled : ¬ Settled seen released := by
    intro hsettled
    rw [hsettled.status] at hstatus
    cases hstatus
  have hholds : ∀ {s st failed}, Holds seen released s st failed → terminal st = false := by
    intro s st failed hholds
    exact hholds.status ▸ hstatus
  cases pc with
  | created => exact h
  | appending => exact h
  | streaming terminalSeen =>
    cases terminalSeen with
    | false => exact h
    | true => exact absurd h hsettled
  | failMarking inStream => exact h.resolve_right hsettled
  | cancelled => exact h.resolve_right hsettled
  | finished => exact absurd h hsettled
  | failing inStream => cases hholds h.1
  | replacing => cases hholds h
  | completing => cases hholds h
  | completeMarking => cases hholds h
  | pauseMarking delivered => cases hholds h
  | pauseFailMarking => cases hholds h
  | pausing => exact absurd h.session hsess
  | claiming => exact absurd h.session hsess
  | presenting => exact absurd h.session hsess
  | acknowledging presented => exact absurd h.session hsess

section

variable (h : Sound b)
include h

theorem Sound.stopped_of (hstatus : terminal b.record.status = false)
    (hpause : ¬ b.pauseInFlight) : Stopped b := by
  cases hasked : b.record.cancelRequested with
  | true => exact h.stopped hasked
  | false =>
    apply StoppedAt.going
    have hfits := h.going hasked
    cases hconsumer : b.consumer with
    | none =>
      rw [hconsumer] at hfits
      exact hfits
    | some pc =>
      rw [hconsumer] at hfits
      exact hfits.going hstatus fun hsess => hpause ⟨hsess, hstatus⟩

theorem Sound.finalized (hasked : b.record.cancelRequested = true)
    (hstep : Finalized c b b') : Sound b' := by
  have htasks := hstep.tasks
  simp only [Bridge.tasks, Prod.mk.injEq] at htasks
  obtain ⟨hworker, hconsumer, hcancel, hrequested, htask⟩ := htasks
  rw [← hrequested] at hasked
  exact {
    callers := fun _ _ => hasked
    owner := fun other pc hpc howns => by
      by_cases hother : other = c
      · subst hother
        exact hstep.owner pc hpc howns
      · rw [hstep.others other hother] at hpc
        exact hstep.session (h.owner other pc hpc howns)
    fresh := fun hfresh => by
      rw [hworker] at hfresh
      rw [hconsumer]
      exact h.fresh hfresh
    live := fun pc hpc hdone => by
      rw [hconsumer] at hpc
      rw [hworker, htask]
      exact h.live pc hpc hdone
    asked := fun _ => hasked
    unwinds := fun _ pc hpc hdone => by
      rw [hconsumer] at hpc
      rw [hcancel]
      exact h.unwinds (hrequested ▸ hasked) pc hpc hdone
    going := fun hnot => by
      rw [hasked] at hnot
      cases hnot
    stopped := fun _ => hstep.stopped (h.stopped (hrequested ▸ hasked)) }

theorem Sound.leave (hidle : ∀ pc, b.consumer = some pc → pc.done = true)
    {worker : WorkerPc} (hworker : worker = .ended ∨ worker = .finalizing) {task : Bool} :
    Sound { b with worker := worker, record := { b.record with executionTask := task } } := { h with
  fresh hfresh := by
    rcases hworker with rfl | rfl <;> rcases hfresh with hfresh | hfresh <;> cases hfresh
  live pc hpc hdone := by
    have hidle := hidle pc hpc
    rw [hdone] at hidle
    cases hidle }

theorem Sound.settleWorker (hidle : ∀ pc, b.consumer = some pc → pc.done = true) :
    Sound b.settleWorker := by
  unfold Bridge.settleWorker
  split
  · exact h.leave hidle (.inl rfl)
  · exact h.leave hidle (.inr rfl)

theorem Sound.idle (hworker : b.worker ≠ .awaitingExecution) :
    ∀ pc, b.consumer = some pc → pc.done = true := by
  intro pc hpc
  by_contra hdone
  rw [Bool.not_eq_true] at hdone
  exact hworker (h.live pc hpc hdone).1

theorem Sound.workerFinalizes (hasked : b.record.cancelRequested = true)
    (hidle : ∀ pc, b.consumer = some pc → pc.done = true) (hstep : Finalized .worker b b') :
    Sound b'.settleWorker := by
  have hconsumer : b'.consumer = b.consumer := congrArg (·.2.1) hstep.tasks
  apply (h.finalized hasked hstep).settleWorker
  rw [hconsumer]
  exact hidle

theorem Sound.running (hworker : b.worker = .settingStatus)
    (hgoing : terminal b.record.status = false) : Sound (b.setStatus .running) := { h with
  going hasked := by
    have hnone := h.fresh (.inr hworker)
    have hfits := h.going hasked
    rw [hnone] at hfits
    show FitsConsumer (b.setStatus .running).seen b.released b.consumer
    rw [hnone]
    exact ⟨hfits.session, rfl, hfits.pauseFailed, hfits.unreleased⟩
  stopped hasked := by
    cases h.stopped hasked with
    | going h => exact StoppedAt.going ⟨h.session, rfl, h.pauseFailed, h.unreleased⟩
    | cancelling h owned =>
      exact StoppedAt.cancelling ⟨h.session, rfl, h.pauseFailed, h.unreleased⟩ owned
    | settled h =>
      have hterm := h.status
      rw [Bridge.seen, hgoing] at hterm
      cases hterm }

theorem Sound.startExecution (hnone : b.consumer = none)
    (hasked : b.record.cancelRequested = false) : Sound b.startExecution := { h with
  fresh hfresh := by rcases hfresh with hfresh | hfresh <;> cases hfresh
  live _ _ _ := ⟨rfl, rfl⟩
  unwinds hrequested := by
    rw [Bridge.startExecution] at hrequested
    rw [hasked] at hrequested
    cases hrequested
  going _ := by
    have hfits := h.going hasked
    rw [hnone] at hfits
    exact hfits
  stopped hrequested := by
    rw [Bridge.startExecution] at hrequested
    rw [hasked] at hrequested
    cases hrequested }

theorem Sound.workerStep (hstep : b.workerStep = some b') : Sound b' := by
  unfold Bridge.workerStep at hstep
  split at hstep
  · next hworker =>
    have hidle := h.idle (by rw [hworker]; decide)
    split at hstep
    · next hasked =>
      cases hstep
      exact h.workerFinalizes hasked hidle finalizeCancel_finalized
    split at hstep
    · cases hstep
      exact { h with
        fresh := fun _ => h.fresh (.inl hworker)
        live := fun pc hpc hdone => by
          have hidle := hidle pc hpc
          rw [hdone] at hidle
          cases hidle
        stopped := h.stopped }
    · cases hstep
  · next hworker =>
    have hidle := h.idle (by rw [hworker]; decide)
    split at hstep
    · cases hstep
      exact h.leave hidle (.inl rfl)
    next hgoing =>
    rw [Bool.not_eq_true] at hgoing
    have hrunning := h.running hworker hgoing
    split at hstep
    · next hasked =>
      cases hstep
      exact hrunning.workerFinalizes hasked hidle finalizeCancel_finalized
    · next hasked =>
      rw [Bool.not_eq_true] at hasked
      cases hstep
      exact hrunning.startExecution (h.fresh (.inr hworker)) hasked
  · split at hstep
    · next hconsumer =>
      cases hstep
      refine h.leave ?_ (.inl rfl)
      intro pc hpc
      rw [hconsumer, Option.some.injEq] at hpc
      subst hpc
      rfl
    · next hconsumer =>
      have hidle : ∀ pc, b.consumer = some pc → pc.done = true := by
        intro pc hpc
        rw [hconsumer, Option.some.injEq] at hpc
        subst hpc
        rfl
      split at hstep
      · next hasked =>
        cases hstep
        exact h.workerFinalizes hasked hidle finalizeCancel_finalized
      · cases hstep
        exact h.leave hidle (.inl rfl)
    · cases hstep
  · next hworker =>
    rw [Option.map_eq_some_iff] at hstep
    obtain ⟨next, hnext, rfl⟩ := hstep
    have hcaller : b.finalizers .worker ≠ none := by
      intro hnone
      rw [Bridge.finalizerStep, hnone] at hnext
      cases hnext
    have hidle := h.idle (by rw [hworker]; decide)
    exact h.workerFinalizes (h.callers _ hcaller) hidle
      (finalizerStep_finalized (h.owner .worker) hnext)
  · cases hstep

theorem Sound.finalizerStep (hstep : b.finalizerStep c = some b') : Sound b' := by
  have hcaller : b.finalizers c ≠ none := by
    intro hnone
    rw [Bridge.finalizerStep, hnone] at hstep
    cases hstep
  exact h.finalized (h.callers c hcaller) (finalizerStep_finalized (h.owner c) hstep)

theorem Sound.consumerStep {signal : Signal}
    (hstep : b.consumerStep interactive signal = some b') : Sound b' := by
  unfold Bridge.consumerStep at hstep
  split at hstep
  · cases hstep
  next pc hconsumer =>
  have hworker : pc.done = false → ¬ (b.worker = .ready ∨ b.worker = .settingStatus) := by
    intro hdone hfresh
    have hnone := h.fresh hfresh
    rw [hconsumer] at hnone
    cases hnone
  split at hstep
  · next took =>
    split at hstep
    · next hcancel =>
      cases hstep
      have hasked := h.asked hcancel.1
      exact {
        callers := h.callers
        owner := h.owner
        fresh := fun hfresh => absurd hfresh (hworker hcancel.2)
        live := fun pc hpc hdone => by
          cases hpc
          cases hdone
        asked := fun h => by cases h
        unwinds := fun _ pc hpc hdone => by
          cases hpc
          cases hdone
        going := fun hnot => absurd (hasked.symm.trans hnot) (by decide)
        stopped := fun _ => by
          -- only tombstones are added
          cases h.stopped hasked with
          | going h => exact StoppedAt.going ⟨h.session, h.going, h.pauseFailed, h.unreleased⟩
          | cancelling h owned =>
            exact StoppedAt.cancelling ⟨h.session, h.going, h.pauseFailed, h.unreleased⟩ owned
          | settled h => exact StoppedAt.settled ⟨h.session, h.status, h.agreed⟩ }
    · cases hstep
  · split at hstep
    · cases hstep
    next hcancel =>
    rw [Bool.not_eq_true] at hcancel
    have hdone := consumeExecution_live hstep
    have hasked : b.record.cancelRequested = false := by
      by_contra hasked
      rw [Bool.not_eq_false] at hasked
      have hunwinds := h.unwinds hasked pc hconsumer hdone
      rw [hcancel] at hunwinds
      cases hunwinds
    have hadvances := consumeExecution_advances hstep
    have hframe := hadvances.frame
    simp only [Bridge.frame, Prod.mk.injEq] at hframe
    obtain ⟨hsame, hfinalizers, hcancel', hrequested, htask⟩ := hframe
    have hfits := h.going hasked
    rw [hconsumer] at hfits
    obtain ⟨pc', hconsumer', hfits'⟩ := hadvances.fits hfits
    rw [← hrequested] at hasked
    -- nobody finalizes before a stop is asked for
    have hnobody : ∀ c, b'.finalizers c = none := by
      intro c
      by_contra hcaller
      rw [hfinalizers] at hcaller
      have hcaller := h.callers c hcaller
      rw [← hrequested, hasked] at hcaller
      cases hcaller
    exact {
      callers := fun c hc => absurd (hnobody c) hc
      owner := fun c pc hpc _ => by
        rw [hnobody c] at hpc
        cases hpc
      fresh := fun hfresh => by
        rw [hsame] at hfresh
        exact absurd hfresh (hworker hdone)
      live := fun _ _ _ => by
        rw [hsame, htask]
        exact h.live pc hconsumer hdone
      asked := fun hasks => by
        rw [hcancel', hcancel] at hasks
        cases hasks
      unwinds := fun hnot => absurd (hasked.symm.trans hnot) (by decide)
      going := fun _ => by
        rw [hconsumer']
        exact hfits'
      stopped := fun hnot => absurd (hasked.symm.trans hnot) (by decide) }

theorem Sound.requestCancel (hstatus : terminal b.record.status = false)
    (hpause : ¬ b.pauseInFlight) : Sound b.requestCancel := { h with
  callers _ _ := rfl
  asked _ := rfl
  unwinds _ pc hpc hdone := by
    have hexecuting : b.executing = true := by
      have hconsumer : b.consumer = some pc := hpc
      rw [Bridge.executing, (h.live pc hpc hdone).2, hconsumer, Option.any_some, hdone]
      rfl
    rw [Bridge.requestCancel, hexecuting, Bool.or_true]
  going hnot := by cases hnot
  stopped _ := h.stopped_of hstatus hpause }

end

theorem terminal_of_going {st : ReplyStatus} (h : st = .queued ∨ st = .running) : terminal st = false := by
  rcases h with rfl | rfl <;> rfl

theorem Sound.stop (h : Sound b) (hpause : ¬ b.pauseInFlight) (hstep : b.stop = some b') : Sound b' := by
  unfold Bridge.stop at hstep
  split at hstep
  · next hgoing =>
    have hreq := h.requestCancel (terminal_of_going hgoing.2) hpause
    have hused : Sound { b.requestCancel with stopUsed := true } :=
      { hreq with stopped := hreq.stopped }
    cases hstep
    split
    · exact hused
    · apply hused.finalized rfl
      apply finalized_move
      rintro (h | h) <;> cases h
  · cases hstep

theorem Sound.finalizeOnShutdown {n : Nat} (h : Sound b) (hpause : ¬ b.pauseInFlight)
    (hstep : b.finalizeOnShutdown n = some b') : Sound b' := by
  unfold Bridge.finalizeOnShutdown at hstep
  split at hstep
  · next hgoing =>
    have hreq := h.requestCancel (terminal_of_going hgoing.2) hpause
    cases hstep
    refine Sound.finalized ?_ ?_ finalizeCancel_finalized
    · exact { hreq with stopped := hreq.stopped }
    · rfl
  · cases hstep

/-- A stop or a shutdown comes to the record while no pause is in flight. -/
def Event.Undisturbed (b : Bridge) : Event → Prop
  | .stop => ¬ b.pauseInFlight
  | .shutdown _ => ¬ b.pauseInFlight
  | _ => True

/-- The steps that do not disturb a pause. -/
def UndisturbedStep (interactive : Bool) (b : Bridge) (e : Event) (b' : Bridge) : Prop :=
  e.Undisturbed b ∧ Step interactive b e b'

theorem Sound.step {e : Event} (h : Sound b) (hstep : UndisturbedStep interactive b e b') : Sound b' := by
  obtain ⟨hquiet, hstep⟩ := hstep
  cases e with
  | worker => exact h.workerStep hstep
  | consumer signal => exact h.consumerStep hstep
  | finalizer c =>
    rw [Step, Bridge.step] at hstep
    split at hstep
    · cases hstep
    · exact h.finalizerStep hstep
  | stop => exact h.stop hquiet hstep
  | shutdown n => exact h.finalizeOnShutdown hquiet hstep

variable {hist later : List Event}

theorem terminal_run (hrun : Run (Step interactive) b later b')
    (h : terminal b.record.status = true) : terminal b'.record.status = true := by
  apply Run.invariant (P := fun b => terminal b.record.status = true) h _ hrun
  intro s e s' hterm hstep
  exact (Step.keeps hstep).terminal hterm

theorem endedOnce_run (hrun : Run (Step interactive) opening hist b) : EndedOnce b := by
  apply Run.invariant (P := EndedOnce) _ _ hrun
  · rfl
  · intro s e s' honce hstep
    exact (Step.keeps hstep).once honce

theorem sound_run (hrun : Run (UndisturbedStep interactive) opening hist b) : Sound b := by
  apply Run.invariant sound_opening _ hrun
  intro s e s' hsound hstep
  exact hsound.step hstep

/-- Whatever the order of the steps, one of `complete`, `fail` and `cancel` takes effect at
    most, and a terminal record never runs again.  If no stop or shutdown comes while a
    pause is in flight, the record is released with a tombstone and a status that matches
    its session. -/
theorem reply_agreement (hrun : Run (Step interactive) opening hist b) :
    b.ended.length ≤ 1 ∧
    (∀ later b', Run (Step interactive) b later b' → terminal b.record.status = true →
      b'.record.status ≠ .running) ∧
    (Run (UndisturbedStep interactive) opening hist b →
      ∀ r, b.released = some r → Matched r.status r.session r.pauseFailed ∧ r.marks ≠ []) := by
  refine ⟨?_, ?_, ?_⟩
  · rw [endedOnce_run hrun]
    split
    · exact le_refl 1
    · exact Nat.zero_le 1
  · intro later b' hlater hterminal hrunning
    have hstill := terminal_run hlater hterminal
    rw [hrunning] at hstill
    cases hstill
  · intro hquiet r hreleased
    have hagrees := (sound_run hquiet).agrees hreleased
    exact ⟨hagrees.matched, hagrees.marked⟩

/-- A stop comes while the answer is streamed. -/
theorem reply_agreement_stopped :
    ∃ b : Bridge, b.released = some ⟨.cancelled, .cancelled, [.replied], false⟩ ∧
      b.ended.length ≤ 1 ∧
      ∀ r, b.released = some r → Matched r.status r.session r.pauseFailed ∧ r.marks ≠ [] := by
  have hquiet : ∃ b : Bridge, b.released = some ⟨.cancelled, .cancelled, [.replied], false⟩ ∧
      Run (UndisturbedStep false) opening
        [.worker, .worker, .worker, .consumer (.interrupted false), .stop,
          .consumer (.event .messageDelta), .consumer .returned, .worker, .worker] b := by
    refine ⟨_, ?_, .cons (.cons (.cons (.cons (.cons (.cons (.cons (.cons (.cons .nil
      ⟨trivial, rfl⟩) ⟨trivial, rfl⟩) ⟨trivial, rfl⟩) ⟨trivial, rfl⟩) ⟨?_, rfl⟩) ⟨trivial, rfl⟩)
      ⟨trivial, rfl⟩) ⟨trivial, rfl⟩) ⟨trivial, rfl⟩⟩
    · rfl
    · intro hpause
      cases hpause.1
  obtain ⟨b, hreleased, hrun⟩ := hquiet
  have hsteps : Run (Step false) opening _ b :=
    Run.mono (I := fun _ => True) trivial (fun _ _ _ _ _ => trivial) (fun _ _ _ _ h => h.2) hrun
  obtain ⟨hended, _, hagrees⟩ := reply_agreement hsteps
  exact ⟨b, hreleased, hended, hagrees hrun⟩

/-- A form that cannot be claimed: the record is ERROR, and its session awaits input. -/
theorem pause_failure_awaits_input :
    ¬ ∀ hist b, Run (Step true) opening hist b → ∀ r, b.released = some r →
      (r.status = .error ↔ r.session = .failed) := by
  intro hclaim
  have hrun : ∃ b : Bridge, b.released = some ⟨.error, .awaitingInput, [.executed], true⟩ ∧
      Run (Step true) opening
        [.consumer .returned, .consumer .failed, .consumer .returned,
          .consumer (.event .interactionRequired), .consumer .returned, .worker, .worker] b := by
    refine ⟨_, ?_, .cons (.cons (.cons (.cons (.cons (.cons (.cons .nil rfl) rfl) rfl) rfl) rfl)
      rfl) rfl⟩
    rfl
  obtain ⟨b, hreleased, hrun⟩ := hrun
  have hfailed := (hclaim _ b hrun _ hreleased).mp rfl
  cases hfailed

end MultiRag.BindingBridge
