/-
  **What callers of a cancellation and of a finish may rely on**
  (`api/db/services/task_cancellation_service.py`, `core/utils/task_runtime.py`,
  `api/db/services/task_service.py`).

  A row with the marker and progress -1 is kept too (`Frozen`).
-/
import MultiRag.CancelFinish

namespace MultiRag.TaskCancellation

open Option List

variable {registered : Option TaskBinding} {w w' : World} {maxLength : Nat} {action : Action}
  {o : Outcome} {b : TaskBinding} {t : String}

theorem cancelled_step (hstep : step maxLength w action = some (.cancelled, w')) :
    ∃ t stamp previous, action = .commit t stamp ∧ w.phase t = some (.flagged previous) ∧
      w'.keys = w.keys ∧ w'.task = w.task.map (TaskRow.cancelled · stamp) ∧
      w'.phase t = some .ended := by
  cases step_spec hstep with
  | refused hfresh htold => simp at htold
  | gaveUp hphase hholding htold => simp at htold
  | committed hphase => exact ⟨_, _, _, rfl, hphase, rfl, rfl, Function.update_self _ _ _⟩
  | compensated hphase htold => simp at htold

variable {stamp : String}

theorem commit_cancelled
    (hstep : step maxLength w (.commit t stamp) = some (o, w')) : o = .cancelled := by
  simp only [step, World.commitStep] at hstep
  split at hstep
  · cases hstep
    rfl
  · cases hstep

theorem ended_step (hended : w.phase t = some .ended)
    (hstep : step maxLength w action = some (o, w')) : w'.phase t = some .ended := by
  -- a call that moves is not the ended one, so the update is elsewhere
  have hmove : ∀ (token : String) (phase : Phase) (w₁ : World), w.phase token ≠ some .ended →
      w₁.phase = Function.update w.phase token (some phase) → w₁.phase t = some .ended := by
    intro token phase w₁ hne hphase
    have ht : t ≠ token := by
      intro ht
      exact hne (ht ▸ hended)
    rw [hphase, Function.update_of_ne ht, hended]
  cases step_spec hstep with
  | refused hfresh htold => exact hmove _ _ _ (by simp [hfresh]) rfl
  | locked hfresh hfree hgoing => exact hmove _ _ _ (by simp [hfresh]) rfl
  | gaveUp hphase hholding htold =>
    apply hmove _ _ _ _ rfl
    rintro hended
    rw [hphase, some_inj] at hended
    rw [hended] at hholding
    cases hholding
  | lost hphase => exact hmove _ _ _ (by simp [hphase]) rfl
  | flagged hphase hasked => exact hmove _ _ _ (by simp [hphase]) rfl
  | superseded hphase => exact hmove _ _ _ (by simp [hphase]) rfl
  | committed hphase => exact hmove _ _ _ (by simp [hphase]) rfl
  | rolledBack hphase => exact hmove _ _ _ (by simp [hphase]) rfl
  | unsent hphase => exact hmove _ _ _ (by simp [hphase]) rfl
  | compensated hphase htold => exact hmove _ _ _ (by simp [hphase]) rfl
  | received hfree => exact hended
  | updated hfree => exact hended
  | finished => exact hended

/-! ### The keys of a run that has ended -/

def Finished (registered : Option TaskBinding) (w : World) : Prop :=
  ∃ b, registered = some b ∧ w.keys = ⟨some b.finish, none⟩

/-- The keys of a run after the cancellation of a call is committed. -/
def Settled (registered : Option TaskBinding) (t : String) (w : World) : Prop :=
  w.phase t = some .ended ∧ ∀ b, registered = some b → w.keys = ⟨some (b.requested t), some t⟩

theorem askCancel_moved {keys : Keys} (hbind : keys.binding ≠ some b) :
    (askCancel (some b) t keys).2 = keys := by
  rcases cancelRuntime_cases b t keys with hno | ⟨hsame, -, -⟩
  · simp only [askCancel, hno]
  · exact absurd hsame hbind

section

variable (h : Bound registered w) (hactive : ∀ b, registered = some b → b.state = .active)
include h hactive

theorem finished_of_told
    (hstep : step maxLength w action = some (.told .finished, w')) : Finished registered w' := by
  obtain ⟨rfl, htold⟩ := told_step hstep
  simp only [step, some_inj, Prod.mk.injEq] at hstep
  obtain ⟨-, rfl⟩ := hstep
  rcases h.keys.finish hactive with ⟨-, hfinish⟩ | ⟨b, hb, -, hfinish⟩ | ⟨b, t, -, -, hfinish⟩
  · rw [hfinish] at htold
    cases htold
  · exact ⟨b, hb, congrArg Prod.snd hfinish⟩
  · rw [hfinish] at htold
    cases htold

theorem finished_step (hfinished : Finished registered w)
    (hstep : step maxLength w action = some (o, w')) :
    Finished registered w' ∧ o ≠ .cancelled ∧ o ≠ .told .cancelRequested := by
  obtain ⟨b, hb, hkeys⟩ := hfinished
  -- a call that is asking would have its request in the keys
  have hnone : ∀ t phase, w.phase t = some phase → phase.asking ≠ true := by
    intro t phase hphase hasking
    have hasked := h.asked t phase b hphase hasking hb
    rw [hkeys] at hasked
    exact requested_ne_finish (some_inj.mp (Keys.mk.inj hasked).1).symm
  refine ⟨⟨b, hb, ?_⟩, ?_, ?_⟩
  · rw [← hkeys]
    rcases keys_step h hstep with hsame | ⟨t, -, hask⟩ | ⟨t, reply, previous, -, hphase⟩ | ⟨-, hfin⟩
    · exact hsame
    · rw [hask, hb]
      apply askCancel_moved
      rw [hkeys]
      exact fun heq => finish_ne (hactive b hb) (some_inj.mp heq)
    · exact absurd rfl (hnone t _ hphase)
    · rw [hfin, hkeys, finish_finished]
  · rintro rfl
    obtain ⟨t, stamp, previous, -, hphase, -⟩ := cancelled_step hstep
    exact hnone t _ hphase rfl
  · rintro rfl
    obtain ⟨-, htold⟩ := told_step hstep
    rw [hkeys, finish_finished] at htold
    cases htold

theorem asked_step (hb : registered = some b)
    (hkeys : w.keys = ⟨some (b.requested t), some t⟩)
    (hstep : step maxLength w action = some (o, w')) :
    o ≠ .told .finished ∧
      (w'.keys = w.keys ∨ ∃ reply, action = .compensate t reply ∧ w.phase t ≠ some .ended) := by
  refine ⟨?_, ?_⟩
  · rintro rfl
    obtain ⟨-, htold⟩ := told_step hstep
    rw [hkeys, finish_requested] at htold
    cases htold
  · rcases keys_step h hstep with hsame | ⟨t', -, hask⟩ | ⟨t', reply, previous, hact, hphase⟩ |
      ⟨-, hfin⟩
    · exact Or.inl hsame
    · apply Or.inl
      rw [hask, hb]
      apply askCancel_moved
      rw [hkeys]
      exact fun heq => requested_ne (hactive b hb) t (some_inj.mp heq)
    · apply Or.inr
      -- the only call that can compensate is the one whose request stands
      have hasked := h.asked t' _ b hphase rfl hb
      rw [hkeys] at hasked
      obtain rfl : t = t' := some_inj.mp (Keys.mk.inj hasked).2
      exact ⟨reply, hact, by simp [hphase]⟩
    · apply Or.inl
      rw [hfin, hkeys, finish_requested]

end

theorem settled_of_cancelled (h : Bound registered w)
    (hstep : step maxLength w (.commit t stamp) = some (.cancelled, w')) :
    Settled registered t w' := by
  obtain ⟨t', stamp', previous, hact, hphase, hkeys, -, hended⟩ := cancelled_step hstep
  obtain ⟨rfl, rfl⟩ := Action.commit.inj hact
  refine ⟨hended, ?_⟩
  intro b hb
  rw [hkeys]
  exact h.asked t _ b hphase rfl hb

theorem settled_step (h : Bound registered w)
    (hactive : ∀ b, registered = some b → b.state = .active) (hsettled : Settled registered t w)
    (hstep : step maxLength w action = some (o, w')) :
    Settled registered t w' ∧ o ≠ .told .finished := by
  obtain ⟨hended, hkeys⟩ := hsettled
  cases hr : registered with
  | none =>
    refine ⟨⟨ended_step hended hstep, ?_⟩, ?_⟩
    · exact nofun
    · rintro rfl
      obtain ⟨b, hb, -⟩ := finished_of_told h hactive hstep
      rw [hr] at hb
      cases hb
  | some b =>
    obtain ⟨hout, hsame | ⟨reply, -, hopen⟩⟩ := asked_step h hactive hr (hkeys b hr) hstep
    · refine ⟨⟨ended_step hended hstep, ?_⟩, hout⟩
      intro b' hb'
      rw [hsame]
      exact hkeys b' (hr.trans hb')
    · exact absurd hended hopen

/-! ### The row of a cancelled task -/

/-- The row of a committed cancellation. -/
def Frozen (w : World) : Prop :=
  ∀ task, w.task = some task → task.progress = -1 ∧ task.marked = true

theorem frozen_of_cancelled (h : Held w)
    (hstep : step maxLength w action = some (.cancelled, w')) : Frozen w' := by
  obtain ⟨t, stamp, previous, -, hphase, -, htask, -⟩ := cancelled_step hstep
  intro task htask'
  rw [htask] at htask'
  obtain ⟨row, hrow, rfl⟩ := map_eq_some_iff.mp htask'
  exact marked_cancelled (h t _ row hphase rfl hrow).2 stamp

theorem rows_step (hstep : step maxLength w action = some (o, w')) :
    (w'.task = w.task ∧ w'.document = w.document) ∨
    (∃ t stamp, action = .commit t stamp ∧ w'.task = w.task.map (TaskRow.cancelled · stamp)) ∨
    (∃ retryCount stamp prog, action = .getTask retryCount stamp prog ∧
      w'.task = w.task.map (fun task => task.received maxLength retryCount stamp prog)) ∨
    (∃ msg progress, action = .updateProgress msg progress ∧
      w'.task = w.task.map (fun task => task.updated maxLength msg progress)) := by
  cases step_spec hstep with
  | refused hfresh htold => exact .inl ⟨rfl, rfl⟩
  | locked hfresh hfree hgoing => exact .inl ⟨rfl, rfl⟩
  | gaveUp hphase hholding htold => exact .inl ⟨rfl, rfl⟩
  | lost hphase => exact .inl ⟨rfl, rfl⟩
  | flagged hphase hasked => exact .inl ⟨rfl, rfl⟩
  | superseded hphase => exact .inl ⟨rfl, rfl⟩
  | committed hphase => exact .inr (.inl ⟨_, _, rfl, rfl⟩)
  | rolledBack hphase => exact .inl ⟨rfl, rfl⟩
  | unsent hphase => exact .inl ⟨rfl, rfl⟩
  | compensated hphase htold => exact .inl ⟨rfl, rfl⟩
  | received hfree => exact .inr (.inr (.inl ⟨_, _, _, rfl, rfl⟩))
  | updated hfree => exact .inr (.inr (.inr ⟨_, _, rfl, rfl⟩))
  | finished => exact .inl ⟨rfl, rfl⟩

theorem frozen_step (hfrozen : Frozen w) (hstep : step maxLength w action = some (o, w')) :
    w'.task = w.task := by
  have hmap : ∀ write : TaskRow → TaskRow,
      (∀ task, task.progress = -1 → task.marked = true → write task = task) →
      w.task.map write = w.task := by
    intro write hwrite
    cases hrow : w.task with
    | none => rfl
    | some task =>
      obtain ⟨hprog, hmarked⟩ := hfrozen task hrow
      rw [map_some, hwrite task hprog hmarked]
  rcases rows_step hstep with ⟨hsame, -⟩ | ⟨t, stamp, -, hrow⟩ | ⟨retryCount, stamp, prog, -, hrow⟩ |
    ⟨msg, progress, -, hrow⟩
  · exact hsame
  · rw [hrow]
    apply hmap
    intro task hprog _
    simp [TaskRow.cancelled, TaskRow.unfinished, hprog]
  · rw [hrow]
    apply hmap
    intro task _ hmarked
    exact received_of_marked hmarked _ _ _ _
  · rw [hrow]
    apply hmap
    intro task _ hmarked
    exact updated_of_marked hmarked _ _ _

variable {registered : Option TaskBinding} {w₀ w w' : World} {maxLength : Nat} {hist : List Event}

theorem bound_run (hactive : ∀ b, registered = some b → b.state = .active)
    (hbound : Bound registered w) (hrun : Run (cancelStep maxLength) w hist w') :
    Bound registered w' := by
  apply Run.invariant hbound _ hrun
  intro s e s' h hstep
  exact bound_step h hactive hstep

theorem held_run (hheld : Held w) (hrun : Run (cancelStep maxLength) w hist w') : Held w' := by
  apply Run.invariant hheld _ hrun
  intro s e s' h hstep
  exact held_step h hstep

section

variable (hactive : ∀ b, registered = some b → b.state = .active) (hbound : Bound registered w)
include hactive hbound

theorem finished_run (hfin : Finished registered w)
    (hrun : Run (cancelStep maxLength) w hist w') :
    ∀ e ∈ hist, e.2 ≠ .cancelled ∧ e.2 ≠ .told .cancelRequested := by
  refine hrun.labels (I := fun w => Bound registered w ∧ Finished registered w)
    (Q := fun e => e.2 ≠ .cancelled ∧ e.2 ≠ .told .cancelRequested) ⟨hbound, hfin⟩ ?_
  rintro s e s' ⟨hb, hf⟩ hstep
  obtain ⟨hf', hout⟩ := finished_step hb hactive hf hstep
  exact ⟨⟨bound_step hb hactive hstep, hf'⟩, hout⟩

theorem settled_run (hsettled : Settled registered t w)
    (hrun : Run (cancelStep maxLength) w hist w') : ∀ e ∈ hist, e.2 ≠ .told .finished := by
  refine hrun.labels (I := fun w => Bound registered w ∧ Settled registered t w)
    (Q := fun e => e.2 ≠ .told .finished) ⟨hbound, hsettled⟩ ?_
  rintro s e s' ⟨hb, hs⟩ hstep
  obtain ⟨hs', hout⟩ := settled_step hb hactive hs hstep
  exact ⟨⟨bound_step hb hactive hstep, hs'⟩, hout⟩

end

theorem frozen_run (hfrozen : Frozen w) (hrun : Run (cancelStep maxLength) w hist w') :
    w'.task = w.task := by
  apply Run.invariant (P := fun s => s.task = w.task) rfl _ hrun
  intro s e s' hsame hstep
  rw [frozen_step (fun task htask => hfrozen task (hsame ▸ htask)) hstep, hsame]

theorem asked_run (hactive : ∀ b, registered = some b → b.state = .active)
    (hbound : Bound registered w) (hb : registered = some b)
    (hkeys : w.keys = ⟨some (b.requested t), some t⟩)
    (hrun : Run (cancelStep maxLength) w hist w') :
    w'.keys = w.keys ∨ ∃ t reply o, (Action.compensate t reply, o) ∈ hist := by
  have hall : Bound registered w' ∧
      (w'.keys = w.keys ∨ ∃ t reply o, (Action.compensate t reply, o) ∈ hist) := by
    apply Run.history (P := fun hist w' => Bound registered w' ∧
      (w'.keys = w.keys ∨ ∃ t reply o, (Action.compensate t reply, o) ∈ hist)) _ _ hrun
    · exact ⟨hbound, .inl rfl⟩
    · intro hist s e s' h hstep
      obtain ⟨hbs, hpast⟩ := h
      refine ⟨bound_step hbs hactive hstep, ?_⟩
      rcases hpast with hsame | ⟨t', reply, o, hmem⟩
      · obtain ⟨-, hnext | ⟨reply, hact, -⟩⟩ :=
          asked_step hbs hactive hb (hsame.trans hkeys) hstep
        · exact Or.inl (hnext.trans hsame)
        · apply Or.inr
          exact ⟨t, reply, e.2, by rw [← hact]; exact mem_cons_self⟩
      · exact .inr ⟨t', reply, o, mem_cons_of_mem _ hmem⟩
  exact hall.2

theorem committed_ended (hrun : Run (cancelStep maxLength) w₀ hist w)
    (hmem : (Action.commit t stamp, o) ∈ hist) : w.phase t = some .ended := by
  revert hmem
  apply Run.history (P := fun hist w => (Action.commit t stamp, o) ∈ hist →
    w.phase t = some .ended) _ _ hrun
  · exact nofun
  · intro hist s e s' hpast hstep hmem
    rcases mem_cons.mp hmem with rfl | hmem
    · obtain rfl : o = .cancelled := commit_cancelled hstep
      obtain ⟨t', stamp', -, hact, -, -, -, hended⟩ := cancelled_step hstep
      obtain ⟨rfl, -⟩ := Action.commit.inj hact
      exact hended
    · exact ended_step (hpast hmem) hstep

/-- The call of `cancel_task` an action belongs to. -/
def Action.caller : Action → Option String
  | .lock token _ => some token
  | .request token _ => some token
  | .reread token _ => some token
  | .commit token _ => some token
  | .abort token => some token
  | .compensate token _ => some token
  | .getTask .. => none
  | .updateProgress .. => none
  | .finish => none

theorem rows_of_caller (hcaller : action.caller = some t)
    (hcommit : ∀ stamp, action ≠ .commit t stamp)
    (hstep : step maxLength w action = some (o, w')) :
    w'.task = w.task ∧ w'.document = w.document := by
  rcases rows_step hstep with hsame | ⟨t', stamp, rfl, -⟩ | ⟨_, _, _, rfl, -⟩ | ⟨_, _, rfl, -⟩
  · exact hsame
  · obtain rfl : t' = t := some_inj.mp hcaller
    exact absurd rfl (hcommit stamp)
  · cases hcaller
  · cases hcaller

theorem restored_run (hactive : ∀ b, registered = some b → b.state = .active)
    (hbound : Bound registered w₀) {reply : ScriptReply}
    (hrun : Run (cancelStep maxLength) w₀ hist w)
    (hstep : cancelStep maxLength w (.compensate t reply, .restored) w') :
    w'.keys = ⟨registered, none⟩ ∧ w'.task = w.task ∧ w'.document = w.document ∧
      ∀ middle first e, hist = middle ++ e :: first → e.1.caller = some t →
        ∃ a c, Run (cancelStep maxLength) w₀ first a ∧ cancelStep maxLength a e c ∧
          c.task = a.task ∧ c.document = a.document := by
  have hstep' : w.compensateStep t reply = some (.restored, w') := hstep
  obtain ⟨hkeys, htask, hdoc⟩ := compensate_restored (bound_run hactive hbound hrun) hstep'
  refine ⟨hkeys, htask, hdoc, ?_⟩
  intro middle first e hhist hcaller
  subst hhist
  obtain ⟨a, c, hfirst, he, -⟩ := hrun.split
  refine ⟨a, c, hfirst, he, ?_⟩
  apply rows_of_caller hcaller _ he
  intro stamp hact
  -- a call that has committed has nothing left to compensate
  have hended : w.phase t = some .ended := by
    refine committed_ended hrun (?_ : (Action.commit t stamp, e.2) ∈ _)
    rw [← hact]
    exact mem_append_right _ mem_cons_self
  simp [World.compensateStep, hended] at hstep'

theorem requested_of_told (hbound : Bound registered w)
    (hactive : ∀ b, registered = some b → b.state = .active)
    (hstep : step maxLength w action = some (.told .cancelRequested, w')) :
    ∃ b t, registered = some b ∧ w'.keys = ⟨some (b.requested t), some t⟩ := by
  obtain ⟨rfl, htold⟩ := told_step hstep
  simp only [step, some_inj, Prod.mk.injEq] at hstep
  obtain ⟨-, rfl⟩ := hstep
  rcases hbound.keys.finish hactive with ⟨-, hfinish⟩ | ⟨b, hb, -, hfinish⟩ | ⟨b, t, hb, hkeys, hfinish⟩
  · rw [hfinish] at htold
    cases htold
  · rw [hfinish] at htold
    cases htold
  · exact ⟨b, t, hb, (congrArg Prod.snd hfinish).trans hkeys⟩

/-- In every interleaving of cancellations, of the finish and of progress writes: a run
    told that it has finished is not acknowledged as cancelled later, nor told of a
    cancellation; after a committed cancellation the run is not told that it has
    finished, and the row has progress -1, the marker, and no later write; a confirmed
    compensation leaves the keys as they were registered, and its call has left the
    rows alone.  What does stay is the answer to a run that asked in between; a run is
    told `finished` after `cancelRequested` only when a compensation lies between. -/
theorem cancel_finish_exclusive (hstart : Registered registered w₀)
    (hrun : Run (cancelStep maxLength) w₀ hist w) :
    (∀ later earlier, hist = later ++ (.finish, .told .finished) :: earlier →
      ∀ e ∈ later, e.2 ≠ .cancelled ∧ e.2 ≠ .told .cancelRequested) ∧
    (∀ later earlier t stamp, hist = later ++ (.commit t stamp, .cancelled) :: earlier →
      (∀ e ∈ later, e.2 ≠ .told .finished) ∧
      ∃ before after, Run (cancelStep maxLength) w₀ earlier before ∧
        Run (cancelStep maxLength) after later w ∧
        after.task = before.task.map (TaskRow.cancelled · stamp) ∧ w.task = after.task ∧
        ∀ task, w.task = some task → task.progress = -1 ∧ task.marked = true) ∧
    (∀ later earlier t reply, hist = later ++ (.compensate t reply, .restored) :: earlier →
      ∃ before after, Run (cancelStep maxLength) w₀ earlier before ∧
        Run (cancelStep maxLength) after later w ∧ after.keys = ⟨registered, none⟩ ∧
        after.task = before.task ∧ after.document = before.document ∧
        ∀ middle first e, earlier = middle ++ e :: first → e.1.caller = some t →
          ∃ a c, Run (cancelStep maxLength) w₀ first a ∧ cancelStep maxLength a e c ∧
            c.task = a.task ∧ c.document = a.document) ∧
    (∀ later middle earlier,
      hist = later ++ (.finish, .told .finished) ::
        (middle ++ (.finish, .told .cancelRequested) :: earlier) →
      ∃ t reply o, (.compensate t reply, o) ∈ middle) := by
  have hactive := hstart.active
  refine ⟨?_, ?_, ?_, ?_⟩
  · intro later earlier hhist
    subst hhist
    obtain ⟨a, c, hearlier, hstep, hlater⟩ := hrun.split
    have hbound := bound_run hactive hstart.bound hearlier
    have hfinished := finished_of_told hbound hactive hstep
    exact finished_run hactive (bound_step hbound hactive hstep) hfinished hlater
  · intro later earlier t stamp hhist
    subst hhist
    obtain ⟨a, c, hearlier, hstep, hlater⟩ := hrun.split
    have hbound := bound_run hactive hstart.bound hearlier
    have hsettled := settled_of_cancelled hbound hstep
    have hfrozen := frozen_of_cancelled (held_run hstart.held hearlier) hstep
    have hkept := frozen_run hfrozen hlater
    refine ⟨?_, a, c, hearlier, hlater, ?_, hkept, ?_⟩
    · exact settled_run hactive (bound_step hbound hactive hstep) hsettled hlater
    · obtain ⟨t', stamp', previous, hact, -, -, htask, -⟩ := cancelled_step hstep
      obtain ⟨-, rfl⟩ := Action.commit.inj hact
      exact htask
    · intro task htask
      exact hfrozen task (hkept ▸ htask)
  · intro later earlier t reply hhist
    subst hhist
    obtain ⟨a, c, hearlier, hstep, hlater⟩ := hrun.split
    obtain ⟨hkeys, htask, hdocument, hcalls⟩ :=
      restored_run hactive hstart.bound hearlier hstep
    exact ⟨a, c, hearlier, hlater, hkeys, htask, hdocument, hcalls⟩
  · intro later middle earlier hhist
    subst hhist
    obtain ⟨a, c, hmiddle, hfinish, -⟩ := hrun.split
    obtain ⟨a', c', hearlier, htold, hmiddle⟩ := hmiddle.split
    have hbound := bound_run hactive hstart.bound hearlier
    obtain ⟨b, t, hb, hkeys⟩ := requested_of_told hbound hactive htold
    have hbound' := bound_step hbound hactive htold
    rcases asked_run hactive hbound' hb hkeys hmiddle with hsame | hcompensated
    · -- the request still stands, so the run is not told that it has finished
      have hout := asked_step (bound_run hactive hbound' hmiddle) hactive hb
        (hsame.trans hkeys) hfinish
      exact absurd rfl hout.1
    · exact hcompensated

/-! ### Two runs -/

def take (maxLength : Nat) : List Action → List Event → World → Option (List Event × World)
  | [], hist, w => some (hist, w)
  | action :: actions, hist, w =>
      match step maxLength w action with
      | none => none
      | some (o, w') => take maxLength actions ((action, o) :: hist) w'

theorem run_take (actions : List Action) :
    ∀ {hist hist' : List Event} {w w' : World}, Run (cancelStep maxLength) w₀ hist w →
      take maxLength actions hist w = some (hist', w') →
      Run (cancelStep maxLength) w₀ hist' w' := by
  induction actions with
  | nil =>
    intro hist hist' w w' hrun htake
    obtain ⟨rfl, rfl⟩ := htake
    exact hrun
  | cons action actions ih =>
    intro hist hist' w w' hrun htake
    rw [take] at htake
    split at htake
    · cases htake
    · next o w₁ hstep =>
      have hnext : cancelStep maxLength w (action, o) w₁ := hstep
      exact ih (Run.cons hrun hnext) htake

def sampleBinding : TaskBinding :=
  ⟨"user", "tenant", "canvas", .agent, .active, none⟩

def sampleStart (task : Option TaskRow) : World :=
  ⟨task, none, ⟨some sampleBinding, none⟩, none, fun _ => none⟩

theorem sampleStart_registered (task : Option TaskRow) :
    Registered (some sampleBinding) (sampleStart task) where
  keys := rfl
  active b hb := by
    obtain rfl := some_inj.mp hb
    rfl
  lock := rfl
  phase _ := rfl

def sampleWithdrawn : List Action :=
  [.lock "a" true, .request "a" .answered, .finish, .abort "a", .compensate "a" .answered]

/-- What is told when the withdrawn call is followed by `actions`, and the row at the end. -/
def sampleTold (task : Option TaskRow) (actions : List Action) :
    Option (List Event × Option TaskRow) :=
  (take 100 (sampleWithdrawn ++ actions) [] (sampleStart task)).map fun r => (r.1, r.2.task)

theorem sampleTold_run {task row : Option TaskRow} {actions : List Action}
    (htold : sampleTold task actions = some (hist, row)) :
    ∃ w, Run (cancelStep 100) (sampleStart task) hist w ∧ w.task = row := by
  obtain ⟨⟨hist', w⟩, htake, hsame⟩ := map_eq_some_iff.mp htold
  simp only [Prod.mk.injEq] at hsame
  obtain ⟨rfl, htask⟩ := hsame
  exact ⟨w, run_take _ Run.nil htake, htask⟩

def withdrawnEvents : List Event :=
  [(.compensate "a" .answered, .restored), (.abort "a", .silent),
    (.finish, .told .cancelRequested), (.request "a" .answered, .silent), (.lock "a" true, .silent)]

/-- The events of a call that commits, of a worker that picks the task up and of the run. -/
def committedEvents : List Event :=
  [(.finish, .told .cancelRequested), (.getTask 0 "09:30:01" 0, .silent),
    (.commit "b" "09:30:00", .cancelled), (.request "b" .answered, .silent),
    (.lock "b" true, .silent)]

theorem sampleTold_finish :
    sampleTold none [.finish] = some ((.finish, .told .finished) :: withdrawnEvents, none) := by
  decide +kernel

/-- The run gives up because of a cancellation that is withdrawn; asked again, it finishes. -/
theorem cancel_restored_told :
    ∃ w, Registered (some sampleBinding) (sampleStart none) ∧
      Run (cancelStep 100) (sampleStart none) ((.finish, .told .finished) :: withdrawnEvents) w := by
  obtain ⟨w, hrun, -⟩ := sampleTold_run sampleTold_finish
  exact ⟨w, sampleStart_registered none, hrun⟩

def sampleTask : TaskRow := ⟨.graphRaptor, 0, none⟩

def sampleCancelled : TaskRow := sampleTask.cancelled "09:30:00"

theorem sampleTold_committed :
    sampleTold (some sampleTask) [.lock "b" true, .request "b" .answered, .commit "b" "09:30:00",
      .getTask 0 "09:30:01" 0, .finish] =
      some (committedEvents ++ withdrawnEvents, some sampleCancelled) := by
  decide +kernel

/-- A call is withdrawn, another commits: its row outlasts the worker, and the compensation
    of the first has left the keys free for it. -/
theorem cancel_finish_exclusive_committed :
    ∃ w before after, Run (cancelStep 100) (sampleStart (some sampleTask))
        (committedEvents ++ withdrawnEvents) w ∧
      w.task = some sampleCancelled ∧ sampleCancelled.progress = -1 ∧
      sampleCancelled.marked = true ∧
      Run (cancelStep 100) (sampleStart (some sampleTask)) withdrawnEvents.tail before ∧
      Run (cancelStep 100) after committedEvents w ∧
      after.keys = ⟨some sampleBinding, none⟩ ∧ after.task = before.task := by
  obtain ⟨w, hrun, htask⟩ := sampleTold_run sampleTold_committed
  have hstart := sampleStart_registered (some sampleTask)
  obtain ⟨-, hcommitted, hrestored, -⟩ := cancel_finish_exclusive hstart hrun
  obtain ⟨-, -, -, -, -, -, -, hrow⟩ :=
    hcommitted [(.finish, .told .cancelRequested), (.getTask 0 "09:30:01" 0, .silent)]
      ([(.request "b" .answered, .silent), (.lock "b" true, .silent)] ++ withdrawnEvents)
      "b" "09:30:00" rfl
  obtain ⟨before, after, hbefore, hafter, hkeys, hsame, -⟩ :=
    hrestored committedEvents withdrawnEvents.tail "a" .answered rfl
  obtain ⟨hprogress, hmarked⟩ := hrow _ htask
  exact ⟨w, before, after, hrun, htask, hprogress, hmarked, hbefore, hafter, hkeys, hsame⟩

end MultiRag.TaskCancellation
