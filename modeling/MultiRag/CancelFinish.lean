/-
  **Cancel and finish** (`api/db/services/task_cancellation_service.py`,
  `core/utils/task_runtime.py`).

  A run starts with an active binding and no flag. The binding only ever moves from active to
  finished, or to a request of one call and, by that call's compensation, back (`Bound`). The row
  of a task in a call's hands is locked and does not change (`Held`).
-/
import MultiRag.TaskCancellation
import MultiRag.Run
import Mathlib.Data.List.Infix

namespace MultiRag.TaskCancellation

open Function Option

/-! ### Markers -/

theorem matchesAt_append (pattern text : List Char) :
    matchesAt pattern (pattern ++ text) = true := by
  induction pattern with
  | nil => rfl
  | cons p pattern ih =>
    by_cases hp : p = '_'
    · subst hp
      exact ih
    · simp [matchesAt, ih]

theorem likeContains_append (a pattern b : String) :
    likeContains pattern (a ++ pattern ++ b) = true := by
  unfold likeContains
  rw [List.any_eq_true]
  refine ⟨pattern.toList ++ b.toList, ?_, matchesAt_append _ _⟩
  rw [List.mem_tails, String.toList_append, String.toList_append, List.append_assoc]
  exact List.suffix_append _ _

variable {task : TaskRow}

theorem marked_cancelled (h : task.unfinished = true) (stamp : String) :
    (task.cancelled stamp).progress = -1 ∧ (task.cancelled stamp).marked = true := by
  simp only [TaskRow.cancelled, h, if_true, TaskRow.marked, getD_some, true_and]
  have hsplit : task.progressMsg.getD "" ++ cancelMessage stamp =
      task.progressMsg.getD "" ++ ("\n" ++ stamp ++ " ") ++ TASK_CANCEL_MARKER ++
        " Task stopped by user." := by
    simp only [cancelMessage, String.append_assoc]
  rw [hsplit]
  exact likeContains_append _ _ _

theorem received_of_marked (h : task.marked = true) (maxLength retryCount : Nat) (stamp : String)
    (prog : Rat) : task.received maxLength retryCount stamp prog = task := by
  simp only [TaskRow.received, h, if_true]

theorem updated_of_marked (h : task.marked = true) (maxLength : Nat) (msg : Option String)
    (progress : Option Rat) : task.updated maxLength msg progress = task := by
  have hlogged : task.logged maxLength msg = task := by
    unfold TaskRow.logged
    split
    · rfl
    · simp only [h, or_true, if_true]
  unfold TaskRow.updated
  rw [hlogged]
  unfold TaskRow.progressed
  split
  · rfl
  · simp only [h, true_or, if_true]

variable {w w' : World} {t token : String} {phase : Phase}

@[simp] theorem lock_setPhase : (w.setPhase token phase).lock = w.lock := rfl

def Phase.previous : Phase → Option (Option TaskBinding)
  | .authorized previous => some previous
  | .flagged previous => some previous
  | .aborted previous => some previous
  | _ => none

def Phase.asking : Phase → Bool
  | .flagged _ => true
  | .aborted _ => true
  | _ => false

def Phase.holding : Phase → Bool
  | .authorized _ => true
  | .superseded => true
  | .flagged _ => true
  | _ => false

/-! ### What an action can do -/

inductive Stepped (maxLength : Nat) (w : World) : Action → Outcome → World → Prop
  | refused {token : String} {authorized : Bool} {o : Outcome} (fresh : w.phase token = none)
      (told : o = .unchanged ∨ o = .raised) :
      Stepped maxLength w (.lock token authorized) o (w.setPhase token .ended)
  | locked {token : String} {authorized : Bool} (fresh : w.phase token = none)
      (free : w.task.isSome = true → w.lock = none) (going : w.terminal = false) :
      Stepped maxLength w (.lock token authorized) .silent
        ({ w with lock := if w.task.isSome then some token else w.lock }.setPhase token
          (.authorized w.keys.binding))
  /-- A call that has not written the flag gives up. -/
  | gaveUp {action : Action} {token : String} {phase : Phase} {o : Outcome} (phase_eq : w.phase token = some phase)
      (holding : phase.holding = true) (told : o = .unchanged ∨ o = .raised) :
      Stepped maxLength w action o (w.endCall token)
  | lost {token : String} {previous : Option TaskBinding} (phase : w.phase token = some (.authorized previous)) :
      Stepped maxLength w (.request token .lost) .raised
        ({ w with keys := (askCancel previous token w.keys).2 }.endCall token)
  | flagged {token : String} {previous : Option TaskBinding} (phase : w.phase token = some (.authorized previous))
      (asked : (askCancel previous token w.keys).1 = true) :
      Stepped maxLength w (.request token .answered) .silent
        ({ w with keys := (askCancel previous token w.keys).2 }.setPhase token (.flagged previous))
  | superseded {token : String} {previous : Option TaskBinding}
      (phase : w.phase token = some (.authorized previous)) :
      Stepped maxLength w (.request token .answered) .silent
        ({ w with keys := (askCancel previous token w.keys).2 }.setPhase token .superseded)
  | committed {token stamp : String} {previous : Option TaskBinding} {document : Option DocumentRow}
      (phase : w.phase token = some (.flagged previous)) :
      Stepped maxLength w (.commit token stamp) .cancelled
        ({ w with task := w.task.map (TaskRow.cancelled · stamp), document := document }.endCall token)
  | rolledBack {token : String} {previous : Option TaskBinding} (phase : w.phase token = some (.flagged previous)) :
      Stepped maxLength w (.abort token) .silent ((w.release token).setPhase token (.aborted previous))
  | unsent {token : String} {previous : Option TaskBinding} (phase : w.phase token = some (.aborted previous)) :
      Stepped maxLength w (.compensate token .failed) .unconfirmed (w.setPhase token .ended)
  | compensated {token : String} {reply : ScriptReply} {previous : Option TaskBinding} {o : Outcome}
      (phase : w.phase token = some (.aborted previous))
      (told : o = .unconfirmed ∨ (o = .restored ∧ (takeBack previous token w.keys).1 = true)) :
      Stepped maxLength w (.compensate token reply) o
        ({ w with keys := (takeBack previous token w.keys).2 }.setPhase token .ended)
  | received {retryCount : Nat} {stamp : String} {prog : Rat} (free : w.lock = none) :
      Stepped maxLength w (.getTask retryCount stamp prog) .silent
        { w with task := w.task.map (fun task => task.received maxLength retryCount stamp prog) }
  | updated {msg : Option String} {progress : Option Rat} (free : w.lock = none) :
      Stepped maxLength w (.updateProgress msg progress) .silent
        { w with task := w.task.map (fun task => task.updated maxLength msg progress) }
  | finished :
      Stepped maxLength w .finish (.told (finishRuntime w.keys).1) { w with keys := (finishRuntime w.keys).2 }

variable {maxLength : Nat} {action : Action} {o : Outcome} {authorized : Bool}

theorem lockStep_spec (h : w.lockStep token authorized = some (o, w')) :
    Stepped maxLength w (.lock token authorized) o w' := by
  unfold World.lockStep at h
  split at h
  · cases h
  next hfresh =>
  simp only [not_or, not_and, not_not] at hfresh
  split at h
  · cases h
    exact Stepped.refused hfresh.1 (.inl rfl)
  split at h
  · cases h
    exact Stepped.refused hfresh.1 (.inr rfl)
  split at h
  · cases h
    exact Stepped.refused hfresh.1 (.inl rfl)
  · next hgoing =>
    cases h
    exact Stepped.locked hfresh.1 hfresh.2 (by simpa using hgoing)

variable {reply : ScriptReply}

theorem requestStep_spec (h : w.requestStep token reply = some (o, w')) :
    Stepped maxLength w (.request token reply) o w' := by
  unfold World.requestStep at h
  split at h
  swap
  · cases h
  next previous hphase =>
  dsimp only at h
  split at h
  · cases h
    exact Stepped.gaveUp hphase rfl (.inr rfl)
  · cases h
    exact Stepped.lost hphase
  · split at h
    · next hasked =>
      cases h
      exact Stepped.flagged hphase hasked
    · cases h
      exact Stepped.superseded hphase

theorem rereadStep_spec (h : w.rereadStep token authorized = some (o, w')) :
    Stepped maxLength w (.reread token authorized) o w' := by
  unfold World.rereadStep at h
  split at h
  swap
  · cases h
  next hphase =>
  split at h
  · cases h
    exact Stepped.gaveUp hphase rfl (.inl rfl)
  · split at h
    · cases h
      exact Stepped.gaveUp hphase rfl (.inr rfl)
    · cases h
      exact Stepped.gaveUp hphase rfl (.inl rfl)

theorem abortStep_spec (h : w.abortStep token = some (o, w')) : Stepped maxLength w (.abort token) o w' := by
  unfold World.abortStep at h
  split at h
  · next previous hphase =>
    cases h
    exact Stepped.gaveUp hphase rfl (.inr rfl)
  · next hphase =>
    cases h
    exact Stepped.gaveUp hphase rfl (.inr rfl)
  · next previous hphase =>
    cases h
    exact Stepped.rolledBack hphase
  · cases h

theorem compensateStep_spec (h : w.compensateStep token reply = some (o, w')) :
    Stepped maxLength w (.compensate token reply) o w' := by
  unfold World.compensateStep at h
  split at h
  swap
  · cases h
  next previous hphase =>
  split at h
  · cases h
    exact Stepped.unsent hphase
  · cases h
    exact Stepped.compensated hphase (.inl rfl)
  · cases h
    apply Stepped.compensated hphase
    split
    · next hback => exact .inr ⟨rfl, hback⟩
    · exact .inl rfl

theorem step_spec (h : step maxLength w action = some (o, w')) : Stepped maxLength w action o w' := by
  cases action with
  | lock token authorized => exact lockStep_spec h
  | request token reply => exact requestStep_spec h
  | reread token authorized => exact rereadStep_spec h
  | commit token stamp =>
    simp only [step, World.commitStep] at h
    split at h
    · next previous hphase =>
      cases h
      exact Stepped.committed hphase
    · cases h
  | abort token => exact abortStep_spec h
  | compensate token reply => exact compensateStep_spec h
  | getTask retryCount stamp prog =>
    simp only [step] at h
    split at h
    · next hfree =>
      cases h
      exact Stepped.received hfree
    · cases h
  | updateProgress msg progress =>
    simp only [step] at h
    split at h
    · next hfree =>
      cases h
      exact Stepped.updated hfree
    · cases h
  | finish =>
    obtain ⟨rfl, rfl⟩ := h
    exact Stepped.finished

/-! ### The binding -/

/-- A run as it starts: its binding, if it has one, is active, and nothing is asked. -/
structure Registered (registered : Option TaskBinding) (w : World) : Prop where
  keys : w.keys = ⟨registered, none⟩
  active : ∀ b, registered = some b → b.state = .active
  lock : w.lock = none
  phase : ∀ t, w.phase t = none

inductive KeysOf (registered : Option TaskBinding) : Keys → Prop
  | unbound {flag : Option String} : registered = none → KeysOf registered ⟨none, flag⟩
  | active {b : TaskBinding} : registered = some b → KeysOf registered ⟨some b, none⟩
  | finished {b : TaskBinding} : registered = some b → KeysOf registered ⟨some b.finish, none⟩
  | requested {b : TaskBinding} (t : String) : registered = some b →
      KeysOf registered ⟨some (b.requested t), some t⟩

structure Bound (registered : Option TaskBinding) (w : World) : Prop where
  keys : KeysOf registered w.keys
  read : ∀ t phase previous, w.phase t = some phase → phase.previous = some previous →
    previous = registered
  /-- A bound run that is asked for a cancellation is asked by one call only. -/
  asked : ∀ t phase b, w.phase t = some phase → phase.asking = true → registered = some b →
    w.keys = ⟨some (b.requested t), some t⟩

variable {registered : Option TaskBinding} {b : TaskBinding}

theorem Registered.bound (h : Registered registered w) : Bound registered w := by
  refine ⟨?_, ?_, ?_⟩
  · rw [h.keys]
    cases registered with
    | none => exact KeysOf.unbound rfl
    | some b => exact KeysOf.active rfl
  · intro t phase previous hphase
    rw [h.phase t] at hphase
    cases hphase
  · intro t phase b hphase
    rw [h.phase t] at hphase
    cases hphase

theorem Bound.move (h : Bound registered w)
    (hphase : w'.phase = update w.phase token (some phase))
    (hkeys : KeysOf registered w'.keys)
    (hread : ∀ previous, phase.previous = some previous → previous = registered)
    (hasked : ∀ b, phase.asking = true → registered = some b →
      w'.keys = ⟨some (b.requested token), some token⟩)
    (hother : w'.keys = w.keys ∨ ∀ t phase' b, t ≠ token → w.phase t = some phase' →
      phase'.asking = true → registered ≠ some b) : Bound registered w' := by
  refine ⟨hkeys, ?_, ?_⟩
  · intro t phase' previous hphase' hprev
    rw [hphase] at hphase'
    by_cases ht : t = token
    · subst ht
      rw [update_self, some_inj] at hphase'
      exact hread previous (hphase' ▸ hprev)
    · rw [update_of_ne ht] at hphase'
      exact h.read t phase' previous hphase' hprev
  · intro t phase' b hphase' hasking hb
    rw [hphase] at hphase'
    by_cases ht : t = token
    · subst ht
      rw [update_self, some_inj] at hphase'
      exact hasked b (hphase' ▸ hasking) hb
    · rw [update_of_ne ht] at hphase'
      rcases hother with hsame | hother
      · rw [hsame]
        exact h.asked t phase' b hphase' hasking hb
      · exact absurd hb (hother t phase' b ht hphase' hasking)

theorem Bound.ended (h : Bound registered w) (hkeys : w'.keys = w.keys)
    (hphase : w'.phase = update w.phase token (some .ended)) : Bound registered w' := by
  apply h.move hphase (hkeys ▸ h.keys) _ _ (.inl hkeys)
  · exact nofun
  · exact nofun

/-! A bound run's binding tells its states apart. -/

theorem requested_ne (hactive : b.state = .active) (t : String) : b.requested t ≠ b := by
  intro h
  have := congrArg TaskBinding.state h
  rw [hactive] at this
  cases this

theorem finish_ne (hactive : b.state = .active) : b.finish ≠ b := by
  intro h
  have := congrArg TaskBinding.state h
  rw [hactive] at this
  cases this

theorem cancelRuntime_cases (b : TaskBinding) (token : String) (keys : Keys) :
    cancelRuntime b token keys = (false, keys) ∨
      (keys.binding = some b ∧ b.state = .active ∧
        cancelRuntime b token keys = (true, ⟨some (b.requested token), some token⟩)) := by
  unfold cancelRuntime
  by_cases hbind : keys.binding = some b
  · by_cases hstate : b.state = .active
    · apply Or.inr
      exact ⟨hbind, hstate, by simp [hbind, hstate]⟩
    · apply Or.inl
      simp [hbind, hstate]
  · apply Or.inl
    simp [hbind]

variable (h : Bound registered w)
include h

theorem Bound.not_asking (hb : registered = some b)
    (hactive : b.state = .active) (hbind : w.keys.binding = some b) {phase' : Phase}
    (hphase : w.phase t = some phase') : phase'.asking = false := by
  by_contra hasking
  have hkeys := h.asked t phase' b hphase (by simpa using hasking) hb
  rw [hkeys] at hbind
  exact requested_ne hactive t (some_inj.mp hbind)

theorem Bound.going (hgoing : w.terminal = false) : w.keys.binding = registered := by
  simp only [World.terminal, Bool.or_eq_false_iff] at hgoing
  revert hgoing
  generalize hkeys : w.keys = keys
  have hof := h.keys
  rw [hkeys] at hof
  cases hof with
  | unbound hnone => exact fun _ => hnone.symm
  | active hb => exact fun _ => hb.symm
  | finished hb => simp [TaskBinding.finish]
  | requested t hb => simp [TaskBinding.requested]

theorem Bound.ask (hactive : ∀ b, registered = some b → b.state = .active)
    (hkeys : w'.keys = (askCancel registered token w.keys).2)
    (hphase : w'.phase = update w.phase token (some phase))
    (hread : ∀ previous, phase.previous = some previous → previous = registered)
    (hasked : phase.asking = true → (askCancel registered token w.keys).1 = true) :
    Bound registered w' := by
  cases registered with
  | none =>
    have hnone : w.keys.binding = none := by
      generalize hk : w.keys = keys
      have hof := h.keys
      rw [hk] at hof
      cases hof with
      | unbound _ => rfl
      | active hb => cases hb
      | finished hb => cases hb
      | requested t hb => cases hb
    apply h.move hphase _ hread
    · exact nofun
    · apply Or.inr
      exact nofun
    · rw [hkeys]
      simp only [askCancel, hnone]
      exact KeysOf.unbound rfl
  | some b =>
    simp only [askCancel] at hkeys hasked
    rcases cancelRuntime_cases b token w.keys with
      hno | ⟨hbind, -, hyes⟩
    · rw [hno] at hkeys hasked
      apply h.move hphase (hkeys ▸ h.keys) hread _ (Or.inl hkeys)
      intro b' hasking
      cases hasked hasking
    · rw [hyes] at hkeys
      apply h.move hphase (hkeys ▸ KeysOf.requested token rfl) hread
      · intro b' _ hb'
        cases hb'
        exact hkeys
      · apply Or.inr
        intro t phase' b' _ hphase' hasking hb'
        cases hb'
        rw [h.not_asking rfl (hactive b rfl) hbind hphase'] at hasking
        cases hasking

variable {previous : Option TaskBinding}

/-- The compensation of a call that is asking: a bound run has its registered binding
    back, and only a flag that another call has overwritten is left. -/
theorem takeBack_keys (hphase : w.phase token = some (.aborted previous)) :
    (takeBack registered token w.keys = (true, ⟨registered, none⟩)) ∨
      (registered = none ∧ takeBack registered token w.keys = (false, w.keys)) := by
  cases registered with
  | none =>
    generalize hk : w.keys = keys
    have hof := h.keys
    rw [hk] at hof
    cases hof with
    | unbound _ =>
      next flag _ =>
      by_cases hflag : flag = some token
      · apply Or.inl
        simp [takeBack, deleteCancel, hflag]
      · apply Or.inr
        simp [takeBack, deleteCancel, hflag]
    | active hb => cases hb
    | finished hb => cases hb
    | requested t hb => cases hb
  | some b =>
    apply Or.inl
    rw [h.asked token _ b hphase rfl rfl]
    simp [takeBack, restoreRuntime, TaskBinding.requested]

theorem Bound.takenBack
    (hphase : w.phase token = some (.aborted previous))
    (hkeys : w'.keys = (takeBack registered token w.keys).2)
    (hphase' : w'.phase = update w.phase token (some .ended)) : Bound registered w' := by
  have hother : ∀ t phase' b, t ≠ token → w.phase t = some phase' → phase'.asking = true →
      registered ≠ some b := by
    intro t phase' b ht hphase' hasking hb
    have hkeys' := h.asked t phase' b hphase' hasking hb
    rw [h.asked token _ b hphase rfl hb] at hkeys'
    exact ht (some_inj.mp (Keys.mk.inj hkeys').2).symm
  have hrest : KeysOf registered w'.keys := by
    rw [hkeys]
    rcases takeBack_keys h hphase with hyes | ⟨-, hno⟩
    · rw [hyes]
      cases registered with
      | none => exact KeysOf.unbound rfl
      | some b => exact KeysOf.active rfl
    · rw [hno]
      exact h.keys
  apply h.move hphase' hrest _ _ (.inr hother)
  · exact nofun
  · exact nofun

theorem compensate_restored
    (hstep : w.compensateStep token reply = some (.restored, w')) :
    w'.keys = ⟨registered, none⟩ ∧ w'.task = w.task ∧ w'.document = w.document := by
  have hstepped : Stepped 0 w (.compensate token reply) .restored w' := compensateStep_spec hstep
  cases hstepped with
  | gaveUp hphase hholding htold => simp at htold
  | compensated hphase htold =>
    next previous =>
    obtain rfl : previous = registered := h.read token _ previous hphase rfl
    rcases takeBack_keys h hphase with hyes | ⟨-, hno⟩
    · rw [hyes]
      exact ⟨rfl, rfl, rfl⟩
    · simp [hno] at htold

omit h

variable {flag : Option String}

theorem finish_active (hactive : b.state = .active) :
    finishRuntime ⟨some b, flag⟩ = (.finished, ⟨some b.finish, flag⟩) := by
  simp [finishRuntime, hactive]

theorem finish_finished :
    finishRuntime ⟨some b.finish, flag⟩ = (.finished, ⟨some b.finish, flag⟩) := by
  simp [finishRuntime, TaskBinding.finish]

theorem finish_requested :
    finishRuntime ⟨some (b.requested t), flag⟩ = (.cancelRequested, ⟨some (b.requested t), flag⟩) := by
  simp [finishRuntime, TaskBinding.requested]

theorem requested_ne_finish : b.requested t ≠ b.finish := by
  intro h
  have := congrArg TaskBinding.state h
  simp [TaskBinding.requested, TaskBinding.finish] at this

theorem KeysOf.finish {keys : Keys} (h : KeysOf registered keys)
    (hactive : ∀ b, registered = some b → b.state = .active) :
    (registered = none ∧ finishRuntime keys = (.unbound, keys)) ∨
    (∃ b, registered = some b ∧ (∀ t, keys ≠ ⟨some (b.requested t), some t⟩) ∧
      finishRuntime keys = (.finished, ⟨some b.finish, none⟩)) ∨
    (∃ b t, registered = some b ∧ keys = ⟨some (b.requested t), some t⟩ ∧
      finishRuntime keys = (.cancelRequested, keys)) := by
  cases h with
  | unbound hnone => exact .inl ⟨hnone, rfl⟩
  | active hb => exact .inr (.inl ⟨_, hb, by simp, finish_active (hactive _ hb)⟩)
  | finished hb => exact .inr (.inl ⟨_, hb, by simp, finish_finished⟩)
  | requested t hb => exact .inr (.inr ⟨_, t, hb, rfl, finish_requested⟩)

section

variable (h : Bound registered w) (hactive : ∀ b, registered = some b → b.state = .active)
include h hactive

theorem bound_finish :
    Bound registered { w with keys := (finishRuntime w.keys).2 } := by
  rcases h.keys.finish hactive with ⟨-, hsame⟩ | ⟨b, hb, hnone, hfinish⟩ | ⟨b, t, -, -, hsame⟩
  · rw [hsame]
    exact h
  · rw [hfinish]
    refine ⟨KeysOf.finished hb, h.read, ?_⟩
    intro t phase b' hphase hasking hb'
    exact absurd (h.asked t phase b hphase hasking hb) (hnone t)
  · rw [hsame]
    exact h

theorem bound_step
    (hstep : step maxLength w action = some (o, w')) : Bound registered w' := by
  cases step_spec hstep with
  | refused hfresh htold => exact h.ended rfl rfl
  | locked hfresh hfree hgoing =>
    refine h.move rfl h.keys ?_ ?_ (.inl rfl)
    · intro previous hprev
      exact (some_inj.mp hprev).symm.trans (h.going hgoing)
    · exact nofun
  | gaveUp hphase hholding htold => exact h.ended rfl rfl
  | lost hphase | superseded hphase =>
    next token previous =>
    obtain rfl : previous = registered := h.read token _ previous hphase rfl
    apply h.ask hactive rfl rfl
    · exact nofun
    · exact nofun
  | flagged hphase hasked =>
    next token previous =>
    obtain rfl : previous = registered := h.read token _ previous hphase rfl
    apply h.ask hactive rfl rfl
    · intro previous' hprev
      exact (some_inj.mp hprev).symm
    · exact fun _ => hasked
  | committed hphase => exact h.ended rfl rfl
  | rolledBack hphase =>
    next token previous =>
    refine h.move rfl h.keys ?_ ?_ (.inl rfl)
    · intro previous' hprev
      exact h.read token _ previous' hphase hprev
    · intro b _ hb
      exact h.asked token _ b hphase rfl hb
  | unsent hphase => exact h.ended rfl rfl
  | compensated hphase htold =>
    next token reply previous =>
    obtain rfl : previous = registered := h.read token _ previous hphase rfl
    exact h.takenBack hphase rfl rfl
  | received hfree => exact ⟨h.keys, h.read, h.asked⟩
  | updated hfree => exact ⟨h.keys, h.read, h.asked⟩
  | finished => exact bound_finish h hactive

end

/-! ### The row lock -/

/-- The row of a task in a call's hands is locked by it and not finished. -/
def Held (w : World) : Prop :=
  ∀ t phase task, w.phase t = some phase → phase.holding = true → w.task = some task →
    w.lock = some t ∧ task.unfinished = true

theorem Registered.held (h : Registered registered w) :
    Held w := by
  intro t phase task hphase
  rw [h.phase t] at hphase
  cases hphase

theorem Held.moved (h : Held w) (hphase : w'.phase = update w.phase token (some phase))
    (hopen : phase.holding = false) (htask : w'.task = w.task)
    (hlock : ∀ t, t ≠ token → w.lock = some t → w'.lock = some t) : Held w' := by
  intro t phase' task hphase' hholding htask'
  rw [hphase] at hphase'
  rw [htask] at htask'
  by_cases ht : t = token
  · subst ht
    rw [update_self, some_inj] at hphase'
    rw [← hphase', hopen] at hholding
    cases hholding
  · rw [update_of_ne ht] at hphase'
    obtain ⟨hlocked, hunfin⟩ := h t phase' task hphase' hholding htask'
    exact ⟨hlock t ht hlocked, hunfin⟩

theorem Held.stays (h : Held w) {before : Phase} (hbefore : w.phase token = some before)
    (hholds : before.holding = true) (hphase : w'.phase = update w.phase token (some phase))
    (htask : w'.task = w.task) (hlock : w'.lock = w.lock) : Held w' := by
  intro t phase' task hphase' hholding htask'
  rw [htask] at htask'
  rw [hlock]
  by_cases ht : t = token
  · subst ht
    exact h t _ task hbefore hholds htask'
  · rw [hphase, update_of_ne ht] at hphase'
    exact h t phase' task hphase' hholding htask'

theorem lock_endCall (ht : t ≠ token) (hlock : w.lock = some t) :
    (w.endCall token).lock = some t := by
  simp only [World.endCall, World.release, lock_setPhase, hlock, some_inj, if_neg ht]

theorem held_step (h : Held w)
    (hstep : step maxLength w action = some (o, w')) : Held w' := by
  -- while the row is free no call of a task is open
  have hfree : w.lock = none → ∀ t phase task, w.phase t = some phase → phase.holding = true →
      w.task ≠ some task := by
    intro hlock t phase task hphase hholding htask
    have := (h t phase task hphase hholding htask).1
    rw [hlock] at this
    cases this
  cases step_spec hstep with
  | refused hfresh htold | unsent hphase | compensated hphase htold =>
    exact h.moved rfl rfl rfl (fun t _ hlock => hlock)
  | locked hfresh hrow hgoing =>
    next token authorized =>
    intro t phase task hphase hholding htask
    have hsome : w.task = some task := htask
    by_cases ht : t = token
    · subst ht
      refine ⟨by simp [hsome], ?_⟩
      simp only [World.terminal, hsome, any_some, Bool.or_eq_false_iff] at hgoing
      simpa using hgoing.1
    · rw [show World.phase _ t = w.phase t from update_of_ne ht _ _] at hphase
      exact absurd hsome (hfree (hrow (by simp [hsome])) t phase task hphase hholding)
  | gaveUp hphase hholding htold | lost hphase | rolledBack hphase =>
    exact h.moved rfl rfl rfl (fun t ht hlock => lock_endCall ht hlock)
  | flagged hphase hasked => exact h.stays hphase rfl rfl rfl rfl
  | superseded hphase => exact h.stays hphase rfl rfl rfl rfl
  | committed hprev =>
    next token stamp previous document =>
    intro t phase task hphase hholding htask
    by_cases ht : t = token
    · subst ht
      rw [show World.phase _ t = some .ended from update_self _ _ _,
        some_inj] at hphase
      rw [← hphase] at hholding
      cases hholding
    · rw [show World.phase _ t = w.phase t from update_of_ne ht _ _] at hphase
      -- the committing call holds the row
      obtain ⟨row, hrow, -⟩ := map_eq_some_iff.mp htask
      have hmine := (h token _ row hprev rfl hrow).1
      have hother := (h t phase row hphase hholding hrow).1
      rw [hmine, some_inj] at hother
      exact absurd hother.symm ht
  | received hlock | updated hlock =>
    intro t phase task hphase hholding htask
    obtain ⟨row, hrow, -⟩ := map_eq_some_iff.mp htask
    exact absurd hrow (hfree hlock t phase row hphase hholding)
  | finished => exact h

theorem keys_step (h : Bound registered w) (hstep : step maxLength w action = some (o, w')) :
    w'.keys = w.keys ∨
    (∃ t, w.phase t = some (.authorized registered) ∧
      w'.keys = (askCancel registered t w.keys).2) ∨
    (∃ t reply previous, action = .compensate t reply ∧ w.phase t = some (.aborted previous)) ∨
    (action = .finish ∧ w'.keys = (finishRuntime w.keys).2) := by
  -- the call of a request has read the registered binding
  have hreq : ∀ t previous, w.phase t = some (.authorized previous) →
      w'.keys = (askCancel previous t w.keys).2 →
      ∃ t, w.phase t = some (.authorized registered) ∧ w'.keys = (askCancel registered t w.keys).2 := by
    intro t previous hphase hkeys
    obtain rfl : previous = registered := h.read t _ previous hphase rfl
    exact ⟨t, hphase, hkeys⟩
  cases step_spec hstep with
  | refused hfresh htold => exact .inl rfl
  | locked hfresh hfree hgoing => exact .inl rfl
  | gaveUp hphase hholding htold => exact .inl rfl
  | lost hphase => exact .inr (.inl (hreq _ _ hphase rfl))
  | flagged hphase hasked => exact .inr (.inl (hreq _ _ hphase rfl))
  | superseded hphase => exact .inr (.inl (hreq _ _ hphase rfl))
  | committed hphase => exact .inl rfl
  | rolledBack hphase => exact .inl rfl
  | unsent hphase => exact .inl rfl
  | compensated hphase htold => exact .inr (.inr (.inl ⟨_, _, _, rfl, hphase⟩))
  | received hfree => exact .inl rfl
  | updated hfree => exact .inl rfl
  | finished => exact .inr (.inr (.inr ⟨rfl, rfl⟩))

theorem told_step {r : RuntimeFinish} (hstep : step maxLength w action = some (.told r, w')) :
    action = .finish ∧ r = (finishRuntime w.keys).1 := by
  cases step_spec hstep with
  | refused hfresh htold => simp at htold
  | gaveUp hphase hholding htold => simp at htold
  | compensated hphase htold => simp at htold
  | finished => exact ⟨rfl, rfl⟩

end MultiRag.TaskCancellation
