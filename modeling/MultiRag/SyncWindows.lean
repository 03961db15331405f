/-
  **The windows of the sync tasks of a binding** (`api/db/services/connector_service.py`).

  `increase_docs` moves the stored start of the running task forward batch by batch;
  `fail` puts the start back with which the run began, `cancel_tasks` does not.  So a
  task that is cancelled after a batch leaves an advanced start behind, and
  `schedule_tasks` takes the next window from it.
-/
import MultiRag.SyncLogs
import Mathlib.Algebra.Order.Ring.Int

namespace MultiRag.ConnectorSync

open Table List Function

/-! ### Runs -/

inductive SyncEvent where
  | scheduleTasks (fresh : String × ConnectorTaskType → String × Int)
  | cancelTasks
  | start (taskId : String) (now : Int)
  | increaseDocs (taskId : String) (maxUpdate docNum : Int) (errMsg : String)
      (errorCount now : Int)
  | fail (taskId errorMsg : String) (now : Int)
  | completeAndScheduleNext (taskId kbId : String) (checkpoint : Option Int) (doneNow : Int)
      (newId : String) (now : Int)
  /-- The first task of a new binding, as `link_connector` schedules it. -/
  | reindex (kbId newId : String) (now : Int)

def SyncEvent.readings (bindings : List String) : SyncEvent → List Int
  | .scheduleTasks fresh =>
      (ConnectorStore.bindingTypes bindings).map (fun binding => (fresh binding).2)
  | .cancelTasks => []
  | .start _ now => [now]
  | .increaseDocs _ _ _ _ _ now => [now]
  | .fail _ _ now => [now]
  | .completeAndScheduleNext _ _ _ doneNow _ now => [doneNow, now]
  | .reindex _ _ now => [now]

/-- The store with what has happened: the window start each run began with, and for
    each dataset the checkpoint of the sync task completed last and whether a
    reindex is still to be completed. -/
structure SyncWorld where
  store : ConnectorStore
  began : String → Option Int
  completed : String → Option Int
  reindexing : String → Bool

def perform : SyncEvent → SyncWorld → SyncWorld
  | .scheduleTasks fresh, w =>
      { w with store := (inTransaction (ConnectorStore.scheduleTasks fresh) w.store).2 }
  | .cancelTasks, w => { w with store := w.store.cancelTasks }
  | .start taskId now, w =>
      match w.store.start taskId now with
      | (.error _, s') => { w with store := s' }
      | (.ok (), s') =>
          { w with
            store := s'
            began := update w.began taskId
              ((w.store.logs.get? taskId).bind SyncLogs.pollRangeStart) }
  | .increaseDocs taskId maxUpdate docNum errMsg errorCount now, w =>
      { w with store := w.store.increaseDocs taskId maxUpdate docNum errMsg errorCount now }
  | .fail taskId errorMsg now, w =>
      { w with store := w.store.fail taskId errorMsg (w.began taskId) now }
  | .completeAndScheduleNext taskId kbId checkpoint doneNow newId now, w =>
      match inTransaction
          (ConnectorStore.completeAndScheduleNext taskId kbId checkpoint doneNow newId now)
          w.store with
      | (.error _, s') => { w with store := s' }
      | (.ok _, s') =>
          if (w.store.logs.get? taskId).any (fun task => task.taskType == .sync) then
            { w with
              store := s'
              completed := update w.completed kbId checkpoint
              reindexing := update w.reindexing kbId false }
          else { w with store := s' }
  | .reindex kbId newId now, w =>
      match w.store.schedule kbId none true 0 .sync newId now with
      | (.ok (some _), s') =>
          { w with store := s', reindexing := update w.reindexing kbId true }
      | (_, s') => { w with store := s' }

def syncStep (w : SyncWorld) (e : SyncEvent) (w' : SyncWorld) : Prop := w' = perform e w

abbrev SyncRun (bindings : List String) :=
  Run (clocked (SyncEvent.readings bindings) syncStep)

def AtOrBefore (start bound : Option Int) : Prop := ∀ t ∈ start, ∃ b ∈ bound, t ≤ b

def SyncWorld.window (w : SyncWorld) (kbId : String) : Option Int :=
  if w.reindexing kbId then none else w.completed kbId

theorem AtOrBefore.none (bound : Option Int) : AtOrBefore none bound := by
  exact nofun

theorem AtOrBefore.refl (start : Option Int) : AtOrBefore start start :=
  fun t ht => ⟨t, ht, le_refl t⟩

theorem AtOrBefore.trans {a b c : Option Int} (h : AtOrBefore a b) (h' : AtOrBefore b c) :
    AtOrBefore a c := by
  intro t ht
  obtain ⟨u, hu, htu⟩ := h t ht
  obtain ⟨v, hv, huv⟩ := h' u hu
  exact ⟨v, hv, le_trans htu huv⟩

theorem SyncWorld.window_atOrBefore (w : SyncWorld) (kbId : String) :
    AtOrBefore (w.window kbId) (w.completed kbId) := by
  unfold SyncWorld.window
  split
  · exact AtOrBefore.none _
  · exact AtOrBefore.refl _

/-! ### The invariant -/

/-- The sync tasks of a dataset, with the starts of the runs, a bound for the next
    window and a clock that all stamps are behind. -/
structure Windows (kbId : String) (now : Int) (began : String → Option Int)
    (window : Option Int) (s : ConnectorStore) : Prop where
  single : ∀ a ∈ s.logs, ∀ b ∈ s.logs, a.ofBinding kbId .sync → b.ofBinding kbId .sync →
    a.status.active → b.status.active → a = b
  scheduled : ∀ a ∈ s.logs, a.ofBinding kbId .sync → a.status = .schedule →
    AtOrBefore a.pollRangeStart window
  running : ∀ a ∈ s.logs, a.ofBinding kbId .sync → a.status = .running →
    AtOrBefore (began a.id) window
  /-- The row `schedule_tasks` would read is one of these. -/
  latest : ∀ a ∈ s.logs, a.ofBinding kbId .sync → ¬ a.status.active →
    (∀ b ∈ s.logs, b.ofBinding kbId .sync → b.updateTime ≤ a.updateTime) →
    AtOrBefore a.checkpoint window
  stamps : ∀ a ∈ s.logs, a.ofBinding kbId .sync → a.updateTime ≤ now
  statuses : ∀ a ∈ s.logs, a.status ≠ .unstart

section

variable {kbId : String} {now now' : Int} {began : String → Option Int} {window : Option Int}
  {s s' : ConnectorStore} {old task : SyncLogs}

theorem Windows.mono (h : Windows kbId now began window s) (hle : now ≤ now') :
    Windows kbId now' began window s :=
  { h with stamps := fun a ha hof => le_trans (h.stamps a ha hof) hle }

theorem Windows.of_logs (h : Windows kbId now began window s) (hlogs : s'.logs = s.logs) :
    Windows kbId now began window s' := by
  constructor
  · rw [hlogs]; exact h.single
  · rw [hlogs]; exact h.scheduled
  · rw [hlogs]; exact h.running
  · rw [hlogs]; exact h.latest
  · rw [hlogs]; exact h.stamps
  · rw [hlogs]; exact h.statuses

structure Replaces (s : ConnectorStore) (old task : SyncLogs) (now : Int) (s' : ConnectorStore) :
    Prop where
  mem : old ∈ s.logs
  logs : s'.logs = s.logs.put task
  id : task.id = old.id
  kbId : task.kbId = old.kbId
  taskType : task.taskType = old.taskType
  stamp : task.updateTime = now
  status : task.status ≠ .unstart
  active : task.status.active → old.status.active

variable (task) in
theorem replaces_putLog (hmem : old ∈ s.logs) (hid : task.id = old.id) (hkb : task.kbId = old.kbId)
    (htype : task.taskType = old.taskType) (hstatus : task.status ≠ .unstart)
    (hactive : task.status.active → old.status.active) :
    Replaces s old task task.updateTime (s.putLog task) :=
  ⟨hmem, rfl, hid, hkb, htype, rfl, hstatus, hactive⟩

theorem Replaces.setStatus (h : Replaces s old task now s') (status : TaskStatus) :
    Replaces s old task now (s'.setStatus status) :=
  { h with logs := h.logs }

variable {bound : Option Int}

theorem Windows.put (h : Windows kbId now began window s) (hnow : now ≤ now')
    (hput : Replaces s old task now' s')
    (hother : bound = window ∨
      (old.ofBinding kbId .sync ∧ ∀ a ∈ s.logs, a.ofBinding kbId .sync → a.id ≠ old.id →
      a.status.active = false ∧
      (now' ≤ a.updateTime → AtOrBefore a.checkpoint window → AtOrBefore a.checkpoint bound)))
    (hscheduled : old.ofBinding kbId .sync → task.status = .schedule →
      AtOrBefore task.pollRangeStart bound)
    (hrunning : old.ofBinding kbId .sync → task.status = .running → AtOrBefore (began old.id) bound)
    (hlatest : old.ofBinding kbId .sync → ¬ task.status.active → AtOrBefore task.checkpoint bound) :
    Windows kbId now' began bound s' := by
  obtain ⟨hold, hlogs, hid, hkb, htype, hstamp, hstatus, hactive⟩ := hput
  have hof : ∀ kbId taskType, task.ofBinding kbId taskType = old.ofBinding kbId taskType := by
    intro kbId taskType
    simp only [SyncLogs.ofBinding, hkb, htype]
  have hmem : ∀ x, x ∈ s'.logs ↔ x = task ∨ (x ∈ s.logs ∧ x.id ≠ old.id) := by
    intro x
    rw [hlogs]
    exact mem_put_of_mem hold hid
  have htask : task ∈ s'.logs := (hmem task).mpr (.inl rfl)
  constructor
  · intro a ha b hb hofa hofb hacta hactb
    rcases (hmem a).mp ha with rfl | ⟨hamem, hane⟩
    · rcases (hmem b).mp hb with rfl | ⟨hbmem, hbne⟩
      · rfl
      · have := h.single old hold b hbmem (by rwa [← hof]) hofb (hactive hacta) hactb
        exact absurd (this ▸ rfl) hbne
    · rcases (hmem b).mp hb with rfl | ⟨hbmem, hbne⟩
      · have := h.single a hamem old hold hofa (by rwa [← hof]) hacta (hactive hactb)
        exact absurd (this ▸ rfl) hane
      · exact h.single a hamem b hbmem hofa hofb hacta hactb
  · intro a ha hofa hsta
    rcases (hmem a).mp ha with rfl | ⟨hamem, hane⟩
    · exact hscheduled (by rwa [← hof]) hsta
    · rcases hother with rfl | ⟨-, hother⟩
      · exact h.scheduled a hamem hofa hsta
      · have := (hother a hamem hofa hane).1
        rw [hsta] at this
        cases this
  · intro a ha hofa hsta
    rcases (hmem a).mp ha with rfl | ⟨hamem, hane⟩
    · rw [hid]
      exact hrunning (by rwa [← hof]) hsta
    · rcases hother with rfl | ⟨-, hother⟩
      · exact h.running a hamem hofa hsta
      · have := (hother a hamem hofa hane).1
        rw [hsta] at this
        cases this
  · intro a ha hofa hinact hmax
    rcases (hmem a).mp ha with rfl | ⟨hamem, hane⟩
    · exact hlatest (by rwa [← hof]) hinact
    · -- the changed task is stamped last
      have hlast : old.ofBinding kbId .sync → now' ≤ a.updateTime := by
        intro hofOld
        rw [← hstamp]
        exact hmax task htask (by rwa [hof])
      have hbefore : AtOrBefore a.checkpoint window := by
        apply h.latest a hamem hofa hinact
        intro b hb hofb
        by_cases hbid : b.id = old.id
        · have hbold : b = old := eq_of_key hb hold hbid
          subst hbold
          have := hlast hofb
          have := h.stamps b hb hofb
          omega
        · exact hmax b ((hmem b).mpr (.inr ⟨hb, hbid⟩)) hofb
      rcases hother with rfl | ⟨hofOld, hother⟩
      · exact hbefore
      · exact (hother a hamem hofa hane).2 (hlast hofOld) hbefore
  · intro a ha hofa
    rcases (hmem a).mp ha with rfl | ⟨hamem, -⟩
    · exact le_of_eq hstamp
    · exact le_trans (h.stamps a hamem hofa) hnow
  · intro a ha
    rcases (hmem a).mp ha with rfl | ⟨hamem, -⟩
    · exact hstatus
    · exact h.statuses a hamem

variable {kbId' newId : String} {start : Option Int} {reindex : Bool} {taskType : ConnectorTaskType}

theorem ofBinding_newTask {total : Int} :
    (ConnectorStore.newTask newId kbId' start reindex total taskType now').ofBinding kbId .sync =
      true ↔ kbId' = kbId ∧ taskType = .sync := by
  simp [SyncLogs.ofBinding, ConnectorStore.newTask]

theorem getLastD_of_isChain {readings : List Int} (h : List.IsChain (· ≤ ·) (now :: readings)) :
    now ≤ readings.getLastD now := by
  cases readings with
  | nil => exact le_rfl
  | cons first rest =>
    have hsorted := isChain_iff_pairwise.mp h
    have hle := (pairwise_cons.mp hsorted).1 first mem_cons_self
    exact le_trans hle (le_getLastD (pairwise_cons.mp hsorted).2 mem_cons_self)

theorem Windows.schedule {total : Int} {r : Except SyncError (Option SyncLogs)}
    (h : Windows kbId now began window s) (hnow : now ≤ now')
    (hbound : ¬ (kbId' = kbId ∧ taskType = .sync) → bound = window)
    (hstart : kbId' = kbId → taskType = .sync → AtOrBefore start bound)
    (hlatest : ∀ a ∈ s.logs, a.ofBinding kbId .sync → ¬ a.status.active → now' ≤ a.updateTime →
      AtOrBefore a.checkpoint window → AtOrBefore a.checkpoint bound)
    (hcall : s.schedule kbId' start reindex total taskType newId now' = (r, s')) :
    (s' = s ∧ ∀ task, r ≠ .ok (some task)) ∨
      ((∃ task, r = .ok (some task)) ∧ Windows kbId now' began bound s') := by
  rcases ConnectorStore.schedule_cases hcall with ⟨error, rfl, rfl⟩ | ⟨rfl, rfl⟩ |
    ⟨rfl, hnone, hmem⟩
  · exact .inl ⟨rfl, by simp⟩
  · exact Or.inl ⟨rfl, by simp⟩
  apply Or.inr
  refine ⟨⟨_, rfl⟩, ?_⟩
  -- a kept task that nothing kept is newer than had nothing newer before
  have hkept : ∀ a ∈ s.logs, a.ofBinding kbId .sync → ¬ a.status.active →
      a.id ∉ s.oldIds kbId' →
      (∀ b ∈ s'.logs, b.ofBinding kbId .sync → b.updateTime ≤ a.updateTime) →
      ∀ b ∈ s.logs, b.ofBinding kbId .sync → b.updateTime ≤ a.updateTime := by
    intro a ha hofa hinact hin hmax b hb hofb
    by_cases hbin : b.id ∈ s.oldIds kbId'
    · by_contra hnewer
      have hkb : a.kbId = kbId' := by
        have hbkb := ConnectorStore.oldIds_kbId hb hbin
        simp only [SyncLogs.ofBinding, Bool.and_eq_true, beq_iff_eq] at hofa hofb
        rw [hofa.1, ← hofb.1, hbkb]
      have hterm : a.status.terminal = true := by
        have := h.statuses a ha
        revert hinact this
        cases a.status <;> simp [TaskStatus.active, TaskStatus.terminal]
      exact hin (ConnectorStore.mem_oldIds ha hb hkb hterm (by omega) hbin)
    · exact hmax b ((hmem b).mpr (.inr ⟨hb, hbin⟩)) hofb
  constructor
  · intro a ha b hb hofa hofb hacta hactb
    rcases (hmem a).mp ha with rfl | ⟨haold, -⟩
    · rcases (hmem b).mp hb with rfl | ⟨hbold, -⟩
      · rfl
      · obtain ⟨rfl, rfl⟩ := ofBinding_newTask.mp hofa
        rw [hnone b hbold hofb] at hactb
        cases hactb
    · rcases (hmem b).mp hb with rfl | ⟨hbold, -⟩
      · obtain ⟨rfl, rfl⟩ := ofBinding_newTask.mp hofb
        rw [hnone a haold hofa] at hacta
        cases hacta
      · exact h.single a haold b hbold hofa hofb hacta hactb
  · intro a ha hofa hstatus
    rcases (hmem a).mp ha with rfl | ⟨haold, -⟩
    · obtain ⟨hkb, htype⟩ := ofBinding_newTask.mp hofa
      exact hstart hkb htype
    · by_cases hsame : kbId' = kbId ∧ taskType = .sync
      · obtain ⟨rfl, rfl⟩ := hsame
        have := hnone a haold hofa
        rw [hstatus] at this
        cases this
      · rw [hbound hsame]
        exact h.scheduled a haold hofa hstatus
  · intro a ha hofa hstatus
    rcases (hmem a).mp ha with rfl | ⟨haold, -⟩
    · cases hstatus
    · by_cases hsame : kbId' = kbId ∧ taskType = .sync
      · obtain ⟨rfl, rfl⟩ := hsame
        have := hnone a haold hofa
        rw [hstatus] at this
        cases this
      · rw [hbound hsame]
        exact h.running a haold hofa hstatus
  · intro a ha hofa hinact hmax
    rcases (hmem a).mp ha with rfl | ⟨haold, hain⟩
    · exact absurd rfl hinact
    · have hbefore := h.latest a haold hofa hinact (hkept a haold hofa hinact hain hmax)
      by_cases hsame : kbId' = kbId ∧ taskType = .sync
      · have hle := hmax _ ((hmem _).mpr (.inl rfl)) (ofBinding_newTask.mpr hsame)
        exact hlatest a haold hofa hinact hle hbefore
      · rw [hbound hsame]
        exact hbefore
  · intro a ha hofa
    rcases (hmem a).mp ha with rfl | ⟨haold, -⟩
    · exact le_rfl
    · exact le_trans (h.stamps a haold hofa) hnow
  · intro a ha
    rcases (hmem a).mp ha with rfl | ⟨haold, -⟩
    · simp [ConnectorStore.newTask]
    · exact h.statuses a haold

theorem Windows.checkpoint (h : Windows kbId now began window s)
    (hnone : ∀ a ∈ s.logs, a.ofBinding kbId .sync → a.status.active = false) :
    AtOrBefore ((s.getLatestTask kbId .sync).bind SyncLogs.checkpoint) window := by
  cases hlatest : s.getLatestTask kbId .sync with
  | none => exact AtOrBefore.none _
  | some task =>
    obtain ⟨hmem, hof, hmax⟩ := ConnectorStore.getLatestTask_eq_some hlatest
    exact h.latest task hmem hof (by simp [hnone task hmem hof]) hmax

theorem ofBinding_cancelled :
    task.cancelled.ofBinding kbId taskType = task.ofBinding kbId taskType := by
  unfold SyncLogs.cancelled
  split <;> rfl

theorem updateTime_cancelled : task.cancelled.updateTime = task.updateTime := by
  unfold SyncLogs.cancelled
  split <;> rfl

theorem Windows.cancelTasks (h : Windows kbId now began window s)
    (hunmoved : ∀ a ∈ s.logs, a.ofBinding kbId .sync → a.status = .running →
      AtOrBefore a.pollRangeStart (began a.id)) :
    Windows kbId now began window s.cancelTasks := by
  have hmem : ∀ x, x ∈ s.cancelTasks.logs ↔ ∃ a ∈ s.logs, a.cancelled = x :=
    fun x => mem_map
  have hinact : ∀ x ∈ s.cancelTasks.logs, x.status.active = false := by
    intro x hx
    obtain ⟨a, -, rfl⟩ := (hmem x).mp hx
    unfold SyncLogs.cancelled
    split
    · rfl
    · next hactive => simpa using hactive
  constructor
  · intro a ha b hb hofa hofb hacta
    rw [hinact a ha] at hacta
    cases hacta
  iterate 2
    · intro a ha hofa hstatus
      have := hinact a ha
      rw [hstatus] at this
      cases this
  · intro x hx hofx _ hmax
    obtain ⟨a, ha, rfl⟩ := (hmem x).mp hx
    have hmaxOld : ∀ b ∈ s.logs, b.ofBinding kbId .sync → b.updateTime ≤ a.updateTime := by
      intro b hb hofb
      have hle := hmax _ ((hmem _).mpr ⟨b, hb, rfl⟩) (by rwa [ofBinding_cancelled])
      rwa [updateTime_cancelled, updateTime_cancelled] at hle
    rw [ofBinding_cancelled] at hofx
    unfold SyncLogs.cancelled
    by_cases hactive : a.status.active = true
    · rw [if_pos hactive]
      simp only [TaskStatus.active, Bool.or_eq_true, beq_iff_eq] at hactive
      rcases hactive with hsched | hrunning
      · exact h.scheduled a ha hofx hsched
      · exact (hunmoved a ha hofx hrunning).trans (h.running a ha hofx hrunning)
    · rw [if_neg hactive]
      exact h.latest a ha hofx hactive hmaxOld
  · intro x hx hofx
    obtain ⟨a, ha, rfl⟩ := (hmem x).mp hx
    rw [ofBinding_cancelled] at hofx
    rw [updateTime_cancelled]
    exact h.stamps a ha hofx
  · intro x hx
    obtain ⟨a, ha, rfl⟩ := (hmem x).mp hx
    unfold SyncLogs.cancelled
    split
    · simp
    · exact h.statuses a ha

theorem Windows.update_began (h : Windows kbId now began window s) (hold : old ∈ s.logs)
    (hstatus : old.status ≠ .running) (start : Option Int) :
    Windows kbId now (update began old.id start) window s := by
  refine { h with running := ?_ }
  intro a ha hofa hrunning
  have hne : a.id ≠ old.id := by
    intro hid
    have hsame : a = old := eq_of_key ha hold hid
    exact hstatus (hsame ▸ hrunning)
  rw [update_of_ne hne]
  exact h.running a ha hofa hrunning

end

/-! ### The conditions -/

/-- The steps under which no gap appears: progress is counted on a running task, a
    run that is cancelled has not moved its start, and a new checkpoint or a reindex
    that lies before the last checkpoint is stamped later than the tasks before it. -/
def Orderly (w : SyncWorld) : SyncEvent → Prop
  | .cancelTasks => ∀ task ∈ w.store.logs, task.taskType = .sync → task.status = .running →
      AtOrBefore task.pollRangeStart (w.began task.id)
  | .increaseDocs taskId _ _ _ _ _ => ∀ task ∈ w.store.logs, task.id = taskId →
      task.taskType = .sync → task.status = .running
  | .completeAndScheduleNext _ kbId checkpoint doneNow _ _ =>
      AtOrBefore (w.completed kbId) checkpoint ∨
        ∀ task ∈ w.store.logs, task.ofBinding kbId .sync → task.updateTime < doneNow
  | .reindex kbId _ now =>
      w.completed kbId = none ∨
        ∀ task ∈ w.store.logs, task.ofBinding kbId .sync → task.updateTime < now
  | _ => True

variable {w w' : SyncWorld} {e : SyncEvent} {kbId : String} {now : Int} {bindings : List String}

abbrev WindowsAt (kbId : String) (now : Int) (w : SyncWorld) : Prop :=
  Windows kbId now w.began (w.window kbId) w.store

theorem ofBinding_sync {task : SyncLogs} :
    task.ofBinding kbId .sync = true ↔ task.kbId = kbId ∧ task.taskType = .sync := by
  simp [SyncLogs.ofBinding]

variable {began : String → Option Int} {window : Option Int} {s s' : ConnectorStore}
  {fresh : String × ConnectorTaskType → String × Int}

theorem Windows.scheduleBinding {binding : String × ConnectorTaskType} {r : Except SyncError Unit}
    (h : Windows kbId now began window s) (hnow : now ≤ (fresh binding).2)
    (hcall : s.scheduleBinding fresh binding = (r, s')) :
    Windows kbId (fresh binding).2 began window s' := by
  unfold ConnectorStore.scheduleBinding at hcall
  split at hcall
  · cases hcall
    exact h.mono hnow
  · dsimp only at hcall
    by_cases hactive : binding = (kbId, .sync) ∧
        ∃ a ∈ s.logs, a.ofBinding kbId .sync = true ∧ a.status.active = true
    · -- with an active task there is nothing to schedule
      obtain ⟨rfl, a, ha, hofa, hacta⟩ := hactive
      rw [ConnectorStore.schedule_of_active ha hofa hacta] at hcall
      cases hcall
      exact h.mono hnow
    · rcases hsched : s.schedule binding.1 ((s.getLatestTask binding.1 binding.2).bind
          SyncLogs.checkpoint)
          ((s.getLatestTask binding.1 binding.2).any
            (fun task => task.status != .done && task.fromBeginning))
          (((s.getLatestTask binding.1 binding.2).map SyncLogs.totalDocsIndexed).getD 0)
          binding.2 (fresh binding).1 (fresh binding).2 with ⟨r', s''⟩
      rw [hsched] at hcall
      cases hcall
      have hstart : binding.1 = kbId → binding.2 = .sync →
          AtOrBefore ((s.getLatestTask binding.1 binding.2).bind SyncLogs.checkpoint) window := by
        intro hkb htype
        rw [hkb, htype]
        apply h.checkpoint
        intro a ha hofa
        by_contra hacta
        exact hactive ⟨Prod.ext hkb htype, a, ha, hofa, by simpa using hacta⟩
      rcases h.schedule hnow (fun _ => rfl) hstart (fun _ _ _ _ _ hle => hle) hsched with
        ⟨rfl, -⟩ | ⟨-, hnext⟩
      · exact h.mono hnow
      · exact hnext

theorem Windows.scheduleEach {list : List (String × ConnectorTaskType)}
    (h : Windows kbId now began window s)
    (hclock : List.IsChain (· ≤ ·) (now :: list.map (fun binding => (fresh binding).2)))
    (hcall : s.scheduleEach fresh list = (.ok (), s')) :
    Windows kbId ((list.map (fun binding => (fresh binding).2)).getLastD now) began window s' := by
  induction list generalizing s now with
  | nil =>
    cases hcall
    exact h
  | cons binding rest ih =>
    rw [map_cons, isChain_cons_cons] at hclock
    unfold ConnectorStore.scheduleEach at hcall
    rcases hbind : s.scheduleBinding fresh binding with ⟨error | ⟨⟩, s₁⟩
    · rw [hbind] at hcall
      cases hcall
    · rw [hbind] at hcall
      rw [map_cons, getLastD_cons]
      exact ih (h.scheduleBinding hclock.1 hbind) hclock.2 hcall

variable (h : WindowsAt kbId now w)
include h

theorem windows_scheduleTasks (hbindings : w.store.bindings = bindings)
    (hclock : List.IsChain (· ≤ ·) (now :: SyncEvent.readings bindings (.scheduleTasks fresh))) :
    WindowsAt kbId ((SyncEvent.readings bindings (.scheduleTasks fresh)).getLastD now)
      (perform (.scheduleTasks fresh) w) := by
  have hkeep : WindowsAt kbId
      ((SyncEvent.readings bindings (.scheduleTasks fresh)).getLastD now) w :=
    h.mono (getLastD_of_isChain hclock)
  rcases hrun : inTransaction (ConnectorStore.scheduleTasks fresh) w.store with ⟨r, s'⟩
  have hstore : (perform (.scheduleTasks fresh) w).store = s' := by simp only [perform, hrun]
  show Windows kbId _ w.began (w.window kbId) (perform (.scheduleTasks fresh) w).store
  rw [hstore]
  rcases inTransaction_cases hrun with ⟨value, -, hcall⟩ | ⟨error, -, rfl⟩
  · unfold ConnectorStore.scheduleTasks at hcall
    rcases heach : (w.store.setStatus .schedule).scheduleEach fresh
        (ConnectorStore.bindingTypes w.store.bindings) with ⟨error | ⟨⟩, s₁⟩
    · rw [heach] at hcall
      cases hcall
    · rw [heach] at hcall
      cases hcall
      rw [hbindings] at heach
      have hstart : Windows kbId now w.began (w.window kbId) (w.store.setStatus .schedule) :=
        h.of_logs rfl
      have hnext := hstart.scheduleEach hclock heach
      split
      · exact hnext.of_logs rfl
      · exact hnext
  · exact hkeep

theorem windows_cancelTasks (horder : Orderly w .cancelTasks) :
    WindowsAt kbId now (perform .cancelTasks w) := by
  apply h.cancelTasks
  intro a ha hofa hrunning
  exact horder a ha (ofBinding_sync.mp hofa).2 hrunning

variable {taskId : String} {now' : Int}

theorem windows_start (hnow : now ≤ now') :
    WindowsAt kbId now' (perform (.start taskId now') w) := by
  cases hget : w.store.logs.get? taskId with
  | none =>
    simp only [perform, ConnectorStore.start, hget]
    exact h.mono hnow
  | some current =>
    have hmem := mem_of_get? hget
    obtain rfl : current.id = taskId := key_of_get? hget
    by_cases hrefused : w.store.connector.status = .cancel ∨ w.store.connector.status = .fail ∨
        current.status ≠ .schedule
    · simp only [perform, ConnectorStore.start, hget, if_pos hrefused]
      exact h.mono hnow
    have hstatus : current.status = .schedule := by
      simp only [not_or, not_not] at hrefused
      exact hrefused.2.2
    by_cases hprune : current.taskType = .prune ∧ w.store.connector.pruneEnabled = false
    · simp only [perform, ConnectorStore.start, hget, if_neg hrefused, if_pos hprune]
      -- only a prune task is cancelled here
      have hother : ¬ current.ofBinding kbId .sync = true := by
        rw [ofBinding_sync, hprune.1]
        simp
      apply h.put hnow (replaces_putLog { current with status := .cancel, updateTime := now' } hmem rfl
        rfl rfl (by simp) (by simp [TaskStatus.active])) (.inl rfl)
      · exact fun hof => absurd hof hother
      · exact fun hof => absurd hof hother
      · exact fun hof => absurd hof hother
    · simp only [perform, ConnectorStore.start, hget, if_neg hrefused, if_neg hprune,
        Option.bind_some]
      have hbegan := h.update_began hmem (by simp [hstatus]) current.pollRangeStart
      apply hbegan.put hnow ((replaces_putLog
        { current with status := .running, updateTime := now' } hmem rfl rfl rfl (by simp)
        (by simp [hstatus, TaskStatus.active])).setStatus _) (.inl rfl)
      · exact nofun
      · intro hof _
        rw [update_self]
        exact h.scheduled current hmem hof hstatus
      · intro _ hinact
        simp [TaskStatus.active] at hinact

theorem windows_fail {errorMsg : String} (hnow : now ≤ now') :
    WindowsAt kbId now' (perform (.fail taskId errorMsg now') w) := by
  cases hget : w.store.logs.get? taskId with
  | none =>
    simp only [perform, ConnectorStore.fail, hget]
    exact h.mono hnow
  | some current =>
    have hmem := mem_of_get? hget
    obtain rfl : current.id = taskId := key_of_get? hget
    by_cases hrefused : w.store.connector.status = .cancel ∨ current.status ≠ .running
    · simp only [perform, ConnectorStore.fail, hget, if_pos hrefused]
      exact h.mono hnow
    simp only [perform, ConnectorStore.fail, hget, if_neg hrefused]
    simp only [not_or, not_not] at hrefused
    apply h.put hnow ((replaces_putLog { current with
        status := .fail
        errorMsg := errorMsg
        pollRangeStart := w.began current.id
        updateTime := now' } hmem rfl rfl rfl (by simp)
      (by simp [TaskStatus.active])).setStatus _) (.inl rfl)
    · exact nofun
    · exact nofun
    · intro hof _
      exact h.running current hmem hof hrefused.2

theorem windows_increaseDocs {errMsg : String} {maxUpdate docNum errorCount : Int} (hnow : now ≤ now')
    (horder : Orderly w (.increaseDocs taskId maxUpdate docNum errMsg errorCount now')) :
    WindowsAt kbId now'
      (perform (.increaseDocs taskId maxUpdate docNum errMsg errorCount now') w) := by
  cases hget : w.store.logs.get? taskId with
  | none =>
    simp only [perform, ConnectorStore.increaseDocs, hget]
    exact h.mono hnow
  | some current =>
    have hmem := mem_of_get? hget
    obtain rfl : current.id = taskId := key_of_get? hget
    have hrunning : current.ofBinding kbId .sync → current.status = .running :=
      fun hof => horder current hmem rfl (ofBinding_sync.mp hof).2
    simp only [perform, ConnectorStore.increaseDocs, hget]
    have hput := replaces_putLog (s := w.store) { current with
      newDocsIndexed := current.newDocsIndexed + docNum
      totalDocsIndexed := current.totalDocsIndexed + docNum
      pollRangeStart := ConnectorStore.monotonic current.pollRangeStart maxUpdate
      pollRangeEnd := ConnectorStore.monotonic current.pollRangeEnd maxUpdate
      errorMsg := current.errorMsg ++ errMsg
      errorCount := current.errorCount + errorCount
      updateTime := now' } hmem rfl rfl rfl (h.statuses current hmem) id
    apply h.put hnow hput (.inl rfl)
    · intro hof hsched
      have := (hrunning hof).symm.trans hsched
      cases this
    · intro hof _
      exact h.running current hmem hof (hrunning hof)
    · intro hof hinact
      exact absurd (by simp [hrunning hof, TaskStatus.active]) hinact

variable {current : SyncLogs} {checkpoint : Option Int} {doneNow : Int}

theorem windows_finished (hnow : now ≤ doneNow)
    (hmem : current ∈ w.store.logs) (hrunning : current.status = .running)
    (hof : current.ofBinding kbId .sync)
    (horder : AtOrBefore (w.completed kbId) checkpoint ∨
      ∀ task ∈ w.store.logs, task.ofBinding kbId .sync → task.updateTime < doneNow) :
    Windows kbId doneNow w.began checkpoint
      (w.store.putLog (ConnectorStore.finished current checkpoint doneNow)) := by
  apply h.put hnow (replaces_putLog (ConnectorStore.finished current checkpoint doneNow) hmem rfl rfl
    rfl (by simp [ConnectorStore.finished]) (by simp [ConnectorStore.finished, TaskStatus.active]))
  · apply Or.inr
    refine ⟨hof, ?_⟩
    intro a ha hofa hne
    constructor
    · by_contra hactive
      have := h.single a ha current hmem hofa hof (by simpa using hactive)
        (by simp [hrunning, TaskStatus.active])
      exact hne (this ▸ rfl)
    · intro hlate hbefore
      rcases horder with hchk | hstrict
      · exact (hbefore.trans (w.window_atOrBefore kbId)).trans hchk
      · have := hstrict a ha hofa
        omega
  · exact nofun
  · exact nofun
  · intro _ _
    simp only [SyncLogs.checkpoint, ConnectorStore.finished, (ofBinding_sync.mp hof).2, if_true]
    exact AtOrBefore.refl _

omit h

variable {newId : String}

theorem Windows.scheduleNext {s₁ : ConnectorStore}
    (h : Windows kbId doneNow began window
      (s.putLog (ConnectorStore.finished current checkpoint doneNow)))
    (hnow : doneNow ≤ now') (hlogs : s'.logs = s₁.logs)
    (hstart : current.ofBinding kbId .sync → AtOrBefore checkpoint window)
    (hnext : (current.taskType = .prune ∧
      s₁ = s.putLog (ConnectorStore.finished current checkpoint doneNow)) ∨
      ∃ r, (s.putLog (ConnectorStore.finished current checkpoint doneNow)).schedule current.kbId
      checkpoint false current.totalDocsIndexed current.taskType newId now' = (r, s₁)) :
    Windows kbId now' began window s' := by
  apply Windows.of_logs _ hlogs
  rcases hnext with ⟨-, rfl⟩ | ⟨r, hcall⟩
  · exact h.mono hnow
  · have hstart' : current.kbId = kbId → current.taskType = .sync → AtOrBefore checkpoint window :=
      fun hkb htype => hstart (ofBinding_sync.mpr ⟨hkb, htype⟩)
    rcases h.schedule hnow (fun _ => rfl) hstart' (fun _ _ _ _ _ hle => hle) hcall with
      ⟨rfl, -⟩ | ⟨-, hnew⟩
    · exact h.mono hnow
    · exact hnew

variable {kbId' : String}

theorem windows_complete (h : WindowsAt kbId now w) (hdone : now ≤ doneNow) (hnow : doneNow ≤ now')
    (horder : Orderly w (.completeAndScheduleNext taskId kbId' checkpoint doneNow newId now')) :
    WindowsAt kbId now'
      (perform (.completeAndScheduleNext taskId kbId' checkpoint doneNow newId now') w) := by
  rcases hrun : inTransaction
      (ConnectorStore.completeAndScheduleNext taskId kbId' checkpoint doneNow newId now') w.store
    with ⟨error | next, s'⟩
  · rcases inTransaction_cases hrun with ⟨value, hvalue, -⟩ | ⟨-, -, rfl⟩
    · cases hvalue
    · simp only [perform, hrun]
      exact h.mono (le_trans hdone hnow)
  rcases inTransaction_cases hrun with ⟨value, -, hcall⟩ | ⟨error, herror, -⟩
  swap
  · cases herror
  obtain ⟨current, s₁, hget, rfl, hrunning, hlogs, hnext⟩ :=
    ConnectorStore.completeAndScheduleNext_ok hcall
  have hmem := mem_of_get? hget
  by_cases hof : current.ofBinding kbId .sync = true
  · -- the checkpoint of this dataset moves
    obtain ⟨hkb, htype⟩ := ofBinding_sync.mp hof
    subst hkb
    have hfin := windows_finished h hdone hmem hrunning hof horder
    have hwindow := hfin.scheduleNext hnow hlogs (fun _ => AtOrBefore.refl _) hnext
    simp only [perform, hrun, hget, Option.any_some, htype, beq_self_eq_true, if_true, WindowsAt,
      SyncWorld.window, update_self, Bool.false_eq_true, if_false]
    exact hwindow
  · have hfin : Windows kbId doneNow w.began (w.window kbId)
        (w.store.putLog (ConnectorStore.finished current checkpoint doneNow)) := by
      apply h.put hdone (replaces_putLog (ConnectorStore.finished current checkpoint doneNow) hmem
        rfl rfl rfl (by simp [ConnectorStore.finished])
        (by simp [ConnectorStore.finished, TaskStatus.active])) (.inl rfl)
      · exact fun hof' => absurd hof' hof
      · exact fun hof' => absurd hof' hof
      · exact fun hof' => absurd hof' hof
    have hwindow := hfin.scheduleNext hnow hlogs (fun hof' => absurd hof' hof) hnext
    by_cases hsync : current.taskType = .sync
    · have hkb : kbId ≠ current.kbId := fun hkb => hof (ofBinding_sync.mpr ⟨hkb.symm, hsync⟩)
      simp only [perform, hrun, hget, Option.any_some, hsync, beq_self_eq_true, if_true, WindowsAt,
        SyncWorld.window, update_of_ne hkb]
      exact hwindow
    · simp only [perform, hrun, hget, Option.any_some, beq_eq_false_iff_ne.mpr hsync,
        Bool.false_eq_true, if_false]
      exact hwindow

theorem windows_reindex (h : WindowsAt kbId now w) (hnow : now ≤ now')
    (horder : Orderly w (.reindex kbId' newId now')) :
    WindowsAt kbId now' (perform (.reindex kbId' newId now') w) := by
  rcases hcall : w.store.schedule kbId' none true 0 .sync newId now' with ⟨r, s'⟩
  by_cases hkb : kbId' = kbId
  · subst hkb
    have hlatest : ∀ a ∈ w.store.logs, a.ofBinding kbId' .sync → ¬ a.status.active →
        now' ≤ a.updateTime → AtOrBefore a.checkpoint (w.window kbId') →
        AtOrBefore a.checkpoint none := by
      intro a ha hofa _ hlate hbefore
      rcases horder with hnone | hstrict
      · rw [← hnone]
        exact hbefore.trans (w.window_atOrBefore kbId')
      · have := hstrict a ha hofa
        omega
    rcases h.schedule hnow (fun hne => absurd ⟨rfl, rfl⟩ hne) (fun _ _ => AtOrBefore.none none)
      hlatest hcall with ⟨rfl, hnone⟩ | ⟨⟨task, rfl⟩, hnew⟩
    · -- nothing was scheduled, since the dataset has an active task
      have hperform : perform (.reindex kbId' newId now') w = w := by
        simp only [perform, hcall]
      rw [hperform]
      exact h.mono hnow
    · simp only [perform, hcall, WindowsAt, SyncWorld.window, update_self, if_true]
      exact hnew
  · have hsame : Windows kbId now' w.began (w.window kbId) s' := by
      rcases h.schedule hnow (fun _ => rfl) (fun heq => absurd heq hkb) (fun _ _ _ _ _ hle => hle)
        hcall with ⟨rfl, -⟩ | ⟨-, hnew⟩
      · exact h.mono hnow
      · exact hnew
    simp only [perform, hcall]
    split
    · next task _ heq =>
      cases heq
      simp only [WindowsAt, SyncWorld.window, update_of_ne (Ne.symm hkb)]
      exact hsame
    · next heq =>
      cases heq
      exact hsame

theorem inTransaction_bindings {α : Type} {f : ConnectorStore → Except SyncError α × ConnectorStore}
    (hf : ∀ s, (f s).2.bindings = s.bindings) (s : ConnectorStore) :
    (inTransaction f s).2.bindings = s.bindings := by
  rcases hrun : inTransaction f s with ⟨r, s'⟩
  rcases inTransaction_cases hrun with ⟨value, -, hcall⟩ | ⟨error, -, rfl⟩
  · rw [← hf s, hcall]
  · rfl

theorem perform_bindings : (perform e w).store.bindings = w.store.bindings := by
  cases e with
  | scheduleTasks fresh => exact inTransaction_bindings (ConnectorStore.scheduleTasks_bindings fresh) _
  | cancelTasks => rfl
  | start taskId now =>
    have hstart : (w.store.start taskId now).2.bindings = w.store.bindings := by
      unfold ConnectorStore.start
      split
      · rfl
      · split
        · rfl
        · split <;> rfl
    simp only [perform]
    split
    · next heq => rw [← hstart, heq]
    · next heq => rw [← hstart, heq]
  | increaseDocs taskId maxUpdate docNum errMsg errorCount now =>
    simp only [perform, ConnectorStore.increaseDocs]
    split <;> rfl
  | fail taskId errorMsg now =>
    simp only [perform, ConnectorStore.fail]
    split
    · rfl
    · split <;> rfl
  | completeAndScheduleNext taskId kbId checkpoint doneNow newId now =>
    have hcomplete := inTransaction_bindings
      (ConnectorStore.completeAndScheduleNext_bindings taskId kbId checkpoint doneNow newId now)
      w.store
    simp only [perform]
    split
    · next heq => rw [← hcomplete, heq]
    · next heq =>
      rw [← hcomplete, heq]
      split <;> rfl
  | reindex kbId newId now =>
    have hsched := w.store.schedule_bindings kbId newId .sync none true 0 now
    simp only [perform]
    split
    · next heq => rw [← hsched, heq]
    · next heq => rw [← hsched, heq]

theorem windows_step (h : WindowsAt kbId now w) (hbindings : w.store.bindings = bindings)
    (hclock : List.IsChain (· ≤ ·) (now :: e.readings bindings)) (horder : Orderly w e) :
    WindowsAt kbId ((e.readings bindings).getLastD now) (perform e w) := by
  have hlast := getLastD_of_isChain hclock
  cases e with
  | scheduleTasks fresh => exact windows_scheduleTasks h hbindings hclock
  | cancelTasks => exact windows_cancelTasks h horder
  | start taskId now' => exact windows_start h hlast
  | increaseDocs taskId maxUpdate docNum errMsg errorCount now' =>
    exact windows_increaseDocs h hlast horder
  | fail taskId errorMsg now' => exact windows_fail h hlast
  | completeAndScheduleNext taskId kbId' checkpoint doneNow newId now' =>
    simp only [SyncEvent.readings, isChain_cons_cons] at hclock
    exact windows_complete h hclock.1 hclock.2.1 horder
  | reindex kbId' newId now' => exact windows_reindex h hlast horder

/-! ### Whole runs -/

/-- A step of the connector that meets the conditions. -/
def orderlyStep (w : SyncWorld) (e : SyncEvent) (w' : SyncWorld) : Prop :=
  Orderly w e ∧ syncStep w e w'

def newConnector (connector : Connector) (bindings : List String) : SyncWorld where
  store := ⟨connector, bindings, Table.empty⟩
  began := fun _ => none
  completed := fun _ => none
  reindexing := fun _ => false

theorem windows_newConnector (connector : Connector) (bindings : List String) (kbId : String)
    (now : Int) : WindowsAt kbId now (newConnector connector bindings) := by
  have hempty : ∀ task, task ∉ (newConnector connector bindings).store.logs :=
    fun task => not_mem_empty task
  constructor <;> exact fun a ha => absurd ha (hempty a)

/-- **No gap between the windows.**  In an orderly run every sync task that is
    scheduled starts at or before the last checkpoint of its dataset, or has no start
    when there is none or a reindex is pending, and at most one sync task of a dataset
    is active. -/
theorem sync_windows_no_gap {connector : Connector} {bindings : List String} {start : Int}
    {events : List SyncEvent} {w : Clocked SyncWorld Int}
    (hrun : Run (clocked (SyncEvent.readings bindings) orderlyStep)
      ⟨start, newConnector connector bindings⟩ events w) :
    (∀ task ∈ w.store.store.logs, task.taskType = .sync → task.status = .schedule →
      AtOrBefore task.pollRangeStart (w.store.window task.kbId)) ∧
    ∀ a ∈ w.store.store.logs, ∀ b ∈ w.store.store.logs, a.taskType = .sync → b.taskType = .sync →
      a.kbId = b.kbId → a.status.active → b.status.active → a = b := by
  have hinv : w.store.store.bindings = bindings ∧ ∀ kbId, WindowsAt kbId w.now w.store := by
    apply Run.invariant _ _ hrun
    · exact ⟨rfl, fun kbId => windows_newConnector connector bindings kbId start⟩
    · rintro v e v' ⟨hbindings, hwindows⟩ ⟨hclock, hnow, horder, hstep⟩
      rw [hstep, hnow]
      refine ⟨perform_bindings.trans hbindings, ?_⟩
      intro kbId
      exact windows_step (hwindows kbId) hbindings hclock horder
  constructor
  · intro task htask htype hstatus
    exact (hinv.2 task.kbId).scheduled task htask (ofBinding_sync.mpr ⟨rfl, htype⟩) hstatus
  · intro a ha b hb htypea htypeb hkb
    exact (hinv.2 a.kbId).single a ha b hb (ofBinding_sync.mpr ⟨rfl, htypea⟩)
      (ofBinding_sync.mpr ⟨hkb.symm, htypeb⟩)

/-! ### A cancelled run -/

def sampleWorld : SyncWorld := newConnector ⟨.unstart, false, 5⟩ ["kb"]

def firstBatch : List SyncEvent :=
  [.reindex "kb" "a" 1, .start "a" 2, .increaseDocs "a" 50 3 "" 0 3]

def executed (events : List SyncEvent) : List SyncEvent × SyncWorld :=
  execute (fun event w => (event, perform event w)) events [] sampleWorld

theorem executed_run {events : List SyncEvent}
    (hordered : inOrder (SyncEvent.readings ["kb"]) 0 events = true) :
    SyncRun ["kb"] ⟨0, sampleWorld⟩ (executed events).1
      ⟨clockAfter (SyncEvent.readings ["kb"]) 0 events, (executed events).2⟩ := by
  have hstart : SyncRun ["kb"] ⟨0, sampleWorld⟩ [] ⟨0, sampleWorld⟩ := Run.nil
  exact execute_run hstart hordered (fun _ _ => rfl) (fun _ _ => rfl)

def retried (finish : SyncEvent) : List SyncEvent :=
  firstBatch ++ [finish, .scheduleTasks (fun _ => ("b", 5))]

/-- The task scheduled after the run was ended by `finish`. -/
def retriedTask (finish : SyncEvent) : Option SyncLogs :=
  (executed (retried finish)).2.store.logs.get? "b"

theorem retriedTask_cancelTasks :
    (retriedTask .cancelTasks).map (fun task =>
        (task.kbId, task.taskType, task.status, task.pollRangeStart)) =
      some ("kb", .sync, .schedule, some 50) ∧
    (executed (retried .cancelTasks)).2.window "kb" = none ∧
    inOrder (SyncEvent.readings ["kb"]) 0 (retried .cancelTasks) = true := by
  decide +kernel

/-- After a cancelled first run the next window leaves out what was before its last batch. -/
theorem sync_windows_gap_cancelled :
    ∃ events w, SyncRun ["kb"] ⟨0, sampleWorld⟩ events w ∧
      ∃ task ∈ w.store.store.logs, task.taskType = .sync ∧ task.status = .schedule ∧
        ¬ AtOrBefore task.pollRangeStart (w.store.window task.kbId) := by
  obtain ⟨htask, hwindow, hordered⟩ := retriedTask_cancelTasks
  obtain ⟨task, hget, hfields⟩ := Option.map_eq_some_iff.mp htask
  simp only [Prod.mk.injEq] at hfields
  obtain ⟨hkb, htype, hstatus, hstart⟩ := hfields
  refine ⟨_, _, executed_run hordered, task, mem_of_get? hget, htype, hstatus, ?_⟩
  rw [hstart, hkb, hwindow]
  intro hbefore
  obtain ⟨bound, hbound, -⟩ := hbefore 50 rfl
  cases hbound

theorem clocked_perform
    (hclock : List.IsChain (· ≤ ·) (now :: e.readings bindings)) (horder : Orderly w e) :
    clocked (SyncEvent.readings bindings) orderlyStep ⟨now, w⟩ e
      ⟨(e.readings bindings).getLastD now, perform e w⟩ :=
  ⟨hclock, rfl, horder, rfl⟩

/-- The run that fails after the same batch is retried over its whole window. -/
theorem sync_windows_no_gap_failed :
    (retriedTask (.fail "a" "error" 4)).map SyncLogs.pollRangeStart = some none ∧
      ∀ task ∈ (executed (retried (.fail "a" "error" 4))).2.store.logs, task.taskType = .sync →
        task.status = .schedule → AtOrBefore task.pollRangeStart
          ((executed (retried (.fail "a" "error" 4))).2.window task.kbId) := by
  have hbatch : Orderly (perform (.start "a" 2) (perform (.reindex "kb" "a" 1) sampleWorld))
      (.increaseDocs "a" 50 3 "" 0 3) := by
    show ∀ task ∈ _, _
    decide +kernel
  have hstart : Run (clocked (SyncEvent.readings ["kb"]) orderlyStep) ⟨0, sampleWorld⟩ []
      ⟨0, sampleWorld⟩ := Run.nil
  have hlinked := Run.cons hstart
    (clocked_perform (e := .reindex "kb" "a" 1) (by decide) (.inl rfl))
  have hstarted := Run.cons hlinked (clocked_perform (e := .start "a" 2) (by decide) trivial)
  have hindexed := Run.cons hstarted
    (clocked_perform (e := .increaseDocs "a" 50 3 "" 0 3) (by decide) hbatch)
  have hfailed := Run.cons hindexed
    (clocked_perform (e := .fail "a" "error" 4) (by decide) trivial)
  have hrun := Run.cons hfailed
    (clocked_perform (e := .scheduleTasks (fun _ => ("b", 5))) (by decide) trivial)
  exact ⟨by decide +kernel, (sync_windows_no_gap hrun).1⟩

end MultiRag.ConnectorSync
