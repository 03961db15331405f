/-
  **The sync tasks of one connector** (`api/db/services/connector_service.py`).

  The log holds every task of the connector, of both types and for all its
  datasets.  Each function is one transaction under the lock of the connector row,
  but for `increase_docs`, which is one `UPDATE`.  An insert or a change through the
  ORM stamps `update_time`; the bulk `UPDATE` of `cancel_tasks` does not.
-/
import MultiRag.TableWrites
import MultiRag.Run
import Mathlib.Data.String.Basic

namespace MultiRag.ConnectorSync

open List Table

/-! ### Tables -/

inductive TaskStatus where
  | unstart
  | running
  | cancel
  | done
  | fail
  | schedule
deriving DecidableEq

inductive ConnectorTaskType where
  | sync
  | prune
deriving DecidableEq

/-- The connector row; `syncDeletedFiles` says that the config entry is `True`. -/
structure Connector where
  status : TaskStatus
  syncDeletedFiles : Bool
  pruneFreq : Int

/-- A row of `t_ai_sync_logs`; the window bounds are instants. -/
structure SyncLogs where
  id : String
  kbId : String
  taskType : ConnectorTaskType
  status : TaskStatus
  fromBeginning : Bool
  newDocsIndexed : Int
  totalDocsIndexed : Int
  errorMsg : String
  errorCount : Int
  pollRangeStart : Option Int
  pollRangeEnd : Option Int
  updateTime : Int
deriving DecidableEq

structure ConnectorStore where
  connector : Connector
  bindings : List String
  logs : Table SyncLogs SyncLogs.id

inductive SyncError where
  | taskCancelled (taskId : String)
  | pruningDisabled
  | bindingRemoved
  | checkpointRequired
  | integrity

def Connector.pruneEnabled (connector : Connector) : Bool :=
  connector.syncDeletedFiles && 0 < connector.pruneFreq

def TaskStatus.active (status : TaskStatus) : Bool :=
  status == .schedule || status == .running

def TaskStatus.terminal (status : TaskStatus) : Bool :=
  status == .done || status == .fail || status == .cancel

def SyncLogs.ofBinding (kbId : String) (taskType : ConnectorTaskType) (task : SyncLogs) : Bool :=
  task.kbId == kbId && task.taskType == taskType

def SyncLogs.newer (a b : SyncLogs) : Bool :=
  b.updateTime < a.updateTime || (a.updateTime == b.updateTime && decide (b.id ≤ a.id))

def SyncLogs.checkpoint (task : SyncLogs) : Option Int :=
  if task.status = .done then task.pollRangeEnd else task.pollRangeStart

/-- What the bulk update of `cancel_tasks` makes of a task. -/
def SyncLogs.cancelled (task : SyncLogs) : SyncLogs :=
  if task.status.active then { task with status := .cancel } else task

theorem SyncLogs.id_cancelled (task : SyncLogs) : task.cancelled.id = task.id := by
  unfold SyncLogs.cancelled
  split <;> rfl

namespace ConnectorStore

def setStatus (s : ConnectorStore) (status : TaskStatus) : ConnectorStore :=
  { s with connector := { s.connector with status := status } }

def putLog (s : ConnectorStore) (task : SyncLogs) : ConnectorStore :=
  { s with logs := s.logs.put task }

def getLatestTask (s : ConnectorStore) (kbId : String) (taskType : ConnectorTaskType) :
    Option SyncLogs :=
  (s.logs.selectOrdered (SyncLogs.ofBinding kbId taskType) SyncLogs.newer 1).head?

def anyRunning (s : ConnectorStore) : Bool := s.logs.rows.any (fun task => task.status == .running)

/-! ### Scheduling -/

def oldIds (s : ConnectorStore) (kbId : String) : List String :=
  (((s.logs.select (fun task => task.kbId == kbId && task.status.terminal)).insertionSort
    (fun a b => b.updateTime ≤ a.updateTime)).drop 100).map SyncLogs.id

def newTask (newId kbId : String) (pollRangeStart : Option Int) (reindex : Bool)
    (totalDocsIndexed : Int) (taskType : ConnectorTaskType) (now : Int) : SyncLogs where
  id := newId
  kbId := kbId
  taskType := taskType
  status := .schedule
  fromBeginning := reindex
  newDocsIndexed := 0
  totalDocsIndexed := totalDocsIndexed
  errorMsg := ""
  errorCount := 0
  pollRangeStart := pollRangeStart
  pollRangeEnd := none
  updateTime := now

def schedule (kbId : String) (pollRangeStart : Option Int) (reindex : Bool)
    (totalDocsIndexed : Int) (taskType : ConnectorTaskType) (newId : String) (now : Int)
    (s : ConnectorStore) : Except SyncError (Option SyncLogs) × ConnectorStore :=
  if s.logs.rows.any (fun task => task.ofBinding kbId taskType && task.status.active) then
    (.ok none, s)
  else
    let kept := s.logs.filter (fun task => !(s.oldIds kbId).contains task.id)
    let task := newTask newId kbId pollRangeStart reindex totalDocsIndexed taskType now
    match kept.insert? task with
    | none => (.error .integrity, s)
    | some logs =>
        let s' := { s with logs := logs }
        (.ok (some task),
          if s.connector.status = .running ∨ s.connector.status = .fail then s'
          else s'.setStatus .schedule)

/-- The body of the loop of `schedule_tasks`; `fresh` gives the id and the stamp of
    the task. -/
def scheduleBinding (fresh : String × ConnectorTaskType → String × Int)
    (binding : String × ConnectorTaskType) (s : ConnectorStore) :
    Except SyncError Unit × ConnectorStore :=
  if binding.2 = .prune ∧ s.connector.pruneEnabled = false then (.ok (), s)
  else
    let latest := s.getLatestTask binding.1 binding.2
    let r := s.schedule binding.1 (latest.bind SyncLogs.checkpoint)
      (latest.any (fun task => task.status != .done && task.fromBeginning))
      ((latest.map SyncLogs.totalDocsIndexed).getD 0) binding.2 (fresh binding).1
      (fresh binding).2
    (r.1.map (fun _ => ()), r.2)

def scheduleEach (fresh : String × ConnectorTaskType → String × Int) :
    List (String × ConnectorTaskType) → ConnectorStore → Except SyncError Unit × ConnectorStore
  | [], s => (.ok (), s)
  | binding :: rest, s =>
      match s.scheduleBinding fresh binding with
      | (.error error, s') => (.error error, s')
      | (.ok (), s') => scheduleEach fresh rest s'

def bindingTypes (bindings : List String) : List (String × ConnectorTaskType) :=
  bindings.flatMap (fun kbId => [(kbId, .sync), (kbId, .prune)])

def scheduleTasks (fresh : String × ConnectorTaskType → String × Int) (s : ConnectorStore) :
    Except SyncError Unit × ConnectorStore :=
  match (s.setStatus .schedule).scheduleEach fresh (bindingTypes s.bindings) with
  | (.error error, s') => (.error error, s')
  | (.ok (), s') => (.ok (), if s'.anyRunning then s'.setStatus .running else s')

def cancelTasks (s : ConnectorStore) : ConnectorStore :=
  setStatus { s with logs := s.logs.mapRows SyncLogs.cancelled SyncLogs.id_cancelled } .cancel

/-! ### The life of a task -/

/-- `SyncLogsService.start`; a prune task of a connector that no longer prunes is
    cancelled before the error is raised. -/
def start (taskId : String) (now : Int) (s : ConnectorStore) :
    Except SyncError Unit × ConnectorStore :=
  match s.logs.get? taskId with
  | none => (.error (.taskCancelled taskId), s)
  | some current =>
      if s.connector.status = .cancel ∨ s.connector.status = .fail ∨ current.status ≠ .schedule then
        (.error (.taskCancelled taskId), s)
      else if current.taskType = .prune ∧ s.connector.pruneEnabled = false then
        (.error .pruningDisabled, s.putLog { current with status := .cancel, updateTime := now })
      else
        (.ok (), (s.putLog { current with status := .running, updateTime := now }).setStatus .running)

def fail (taskId errorMsg : String) (pollRangeStart : Option Int) (now : Int)
    (s : ConnectorStore) : ConnectorStore :=
  match s.logs.get? taskId with
  | none => s
  | some current =>
      if s.connector.status = .cancel ∨ current.status ≠ .running then s
      else
        (s.putLog { current with
          status := .fail
          errorMsg := errorMsg
          pollRangeStart := pollRangeStart
          updateTime := now }).setStatus .fail

def finished (current : SyncLogs) (checkpoint : Option Int) (now : Int) : SyncLogs :=
  { current with
    status := .done
    pollRangeEnd := if current.taskType = .sync then checkpoint else current.pollRangeEnd
    updateTime := now }

def completeAndScheduleNext (taskId kbId : String) (checkpoint : Option Int) (doneNow : Int)
    (newId : String) (now : Int) (s : ConnectorStore) :
    Except SyncError (Option String) × ConnectorStore :=
  match s.logs.get? taskId with
  | none => (.error (.taskCancelled taskId), s)
  | some current =>
      if s.connector.status = .cancel ∨ current.kbId ≠ kbId ∨ current.status ≠ .running then
        (.error (.taskCancelled taskId), s)
      else if kbId ∉ s.bindings then (.error .bindingRemoved, s)
      else if current.taskType = .sync ∧ checkpoint = none then (.error .checkpointRequired, s)
      else
        let done := s.putLog (finished current checkpoint doneNow)
        let next :=
          if current.taskType = .sync ∨ s.connector.pruneEnabled = true then
            done.schedule kbId checkpoint false current.totalDocsIndexed current.taskType newId now
          else (.ok none, done)
        match next with
        | (.error error, s') => (.error error, s')
        | (.ok nextTask, s') =>
            (.ok (nextTask.map SyncLogs.id),
              if s'.connector.status = .fail then s'
              else s'.setStatus (if s'.anyRunning then .running else .schedule))

def monotonic (stored : Option Int) (maxUpdate : Int) : Option Int :=
  match stored with
  | none => some maxUpdate
  | some bound => if bound < maxUpdate then some maxUpdate else some bound

/-- `SyncLogsService.increase_docs`, whatever the status of the task. -/
def increaseDocs (taskId : String) (maxUpdate docNum : Int) (errMsg : String) (errorCount now : Int)
    (s : ConnectorStore) : ConnectorStore :=
  match s.logs.get? taskId with
  | none => s
  | some task =>
      s.putLog { task with
        newDocsIndexed := task.newDocsIndexed + docNum
        totalDocsIndexed := task.totalDocsIndexed + docNum
        pollRangeStart := monotonic task.pollRangeStart maxUpdate
        pollRangeEnd := monotonic task.pollRangeEnd maxUpdate
        errorMsg := task.errorMsg ++ errMsg
        errorCount := task.errorCount + errorCount
        updateTime := now }

section

variable {s s' : ConnectorStore} {kbId newId : String} {taskType : ConnectorTaskType}
  {pollRangeStart : Option Int} {reindex : Bool} {total now : Int} {task : SyncLogs}

theorem getLatestTask_eq_some (h : s.getLatestTask kbId taskType = some task) :
    task ∈ s.logs ∧ task.ofBinding kbId taskType = true ∧
      ∀ other ∈ s.logs, other.ofBinding kbId taskType = true →
        other.updateTime ≤ task.updateTime := by
  have htrans : IsTrans SyncLogs (fun a b => a.newer b = true) := by
    constructor
    intro a b c hab hbc
    simp only [SyncLogs.newer, Bool.or_eq_true, Bool.and_eq_true, decide_eq_true_eq,
      beq_iff_eq] at hab hbc ⊢
    rcases hab with hab | ⟨hab, hid⟩
    · rcases hbc with hbc | ⟨hbc, -⟩
      · exact .inl (by omega)
      · exact .inl (by omega)
    · rcases hbc with hbc | ⟨hbc, hid'⟩
      · exact .inl (by omega)
      · exact .inr ⟨by omega, le_trans hid' hid⟩
  have htotal : Std.Total (fun a b : SyncLogs => a.newer b = true) := by
    constructor
    intro a b
    simp only [SyncLogs.newer, Bool.or_eq_true, Bool.and_eq_true, decide_eq_true_eq, beq_iff_eq]
    rcases lt_trichotomy a.updateTime b.updateTime with hlt | heq | hgt
    · exact .inr (.inl hlt)
    · rcases le_total a.id b.id with hid | hid
      · exact .inr (.inr ⟨heq.symm, hid⟩)
      · exact .inl (.inr ⟨heq, hid⟩)
    · exact .inl (.inl hgt)
  obtain ⟨hmem, hof⟩ := mem_of_mem_selectOrdered (mem_of_head? h)
  refine ⟨hmem, hof, ?_⟩
  intro other hother hofOther
  unfold getLatestTask Table.selectOrdered at h
  have hsorted := pairwise_insertionSort (fun a b : SyncLogs => a.newer b = true)
    (s.logs.select (SyncLogs.ofBinding kbId taskType))
  have hin : other ∈ (s.logs.select (SyncLogs.ofBinding kbId taskType)).insertionSort
      (fun a b => a.newer b = true) := by
    rw [mem_insertionSort]
    exact mem_select.mpr ⟨hother, hofOther⟩
  cases hlist : (s.logs.select (SyncLogs.ofBinding kbId taskType)).insertionSort
      (fun a b => a.newer b = true) with
  | nil =>
    rw [hlist] at h
    cases h
  | cons first rest =>
    rw [hlist] at h hin hsorted
    obtain rfl : first = task := by simpa using h
    rcases mem_cons.mp hin with rfl | hrest
    · exact le_rfl
    · have hnewer := (pairwise_cons.mp hsorted).1 other hrest
      simp only [SyncLogs.newer, Bool.or_eq_true, Bool.and_eq_true, decide_eq_true_eq,
        beq_iff_eq] at hnewer
      omega

variable {x : SyncLogs}

theorem mem_oldIds {y : SyncLogs} (hx : x ∈ s.logs) (hy : y ∈ s.logs)
    (hkb : x.kbId = kbId) (hterm : x.status.terminal = true)
    (hnewer : x.updateTime < y.updateTime) (hold : y.id ∈ s.oldIds kbId) : x.id ∈ s.oldIds kbId := by
  have hsorted := pairwise_insertionSort
    (fun a b : SyncLogs => b.updateTime ≤ a.updateTime)
    (s.logs.select (fun task => task.kbId == kbId && task.status.terminal))
  have hin : x ∈
      (s.logs.select (fun task => task.kbId == kbId && task.status.terminal)).insertionSort
        (fun a b => b.updateTime ≤ a.updateTime) := by
    rw [mem_insertionSort]
    exact mem_select.mpr ⟨hx, by simp [hkb, hterm]⟩
  rw [← take_append_drop 100 (List.insertionSort _ _)] at hsorted hin
  unfold oldIds at hold ⊢
  obtain ⟨y', hy', hid⟩ := mem_map.mp hold
  have hyin : y' ∈ s.logs := by
    have := mem_of_mem_drop hy'
    rw [mem_insertionSort] at this
    exact (mem_select.mp this).1
  obtain rfl : y' = y := eq_of_key hyin hy hid
  apply mem_map.mpr
  refine ⟨x, ?_, rfl⟩
  rcases mem_append.mp hin with htake | hdrop
  · have := (pairwise_append.mp hsorted).2.2 x htake y' hy'
    omega
  · exact hdrop

theorem oldIds_kbId (hx : x ∈ s.logs) (hold : x.id ∈ s.oldIds kbId) :
    x.kbId = kbId := by
  unfold oldIds at hold
  obtain ⟨x', hx', hid⟩ := mem_map.mp hold
  have hselect := mem_of_mem_drop hx'
  rw [mem_insertionSort] at hselect
  obtain ⟨hmem, hkb⟩ := mem_select.mp hselect
  obtain rfl : x' = x := eq_of_key hmem hx hid
  simp only [Bool.and_eq_true, beq_iff_eq] at hkb
  exact hkb.1

theorem schedule_cases {r : Except SyncError (Option SyncLogs)}
    (h : s.schedule kbId pollRangeStart reindex total taskType newId now = (r, s')) :
    (∃ error, r = .error error ∧ s' = s) ∨ (r = .ok none ∧ s' = s) ∨
      (r = .ok (some (newTask newId kbId pollRangeStart reindex total taskType now)) ∧
        (∀ x ∈ s.logs, x.ofBinding kbId taskType = true → x.status.active = false) ∧
        ∀ x, x ∈ s'.logs ↔
          x = newTask newId kbId pollRangeStart reindex total taskType now ∨
            (x ∈ s.logs ∧ x.id ∉ s.oldIds kbId)) := by
  simp only [schedule] at h
  split at h
  · cases h
    exact .inr (.inl ⟨rfl, rfl⟩)
  next hactive =>
  split at h
  · cases h
    exact .inl ⟨_, rfl, rfl⟩
  next logs hinsert =>
  cases h
  refine .inr (.inr ⟨rfl, ?_, ?_⟩)
  · intro x hx hof
    simp only [any_eq_true, Bool.and_eq_true, not_exists, not_and, Bool.not_eq_true] at hactive
    exact hactive x hx hof
  · intro x
    have hlogs : x ∈ logs ↔ x = newTask newId kbId pollRangeStart reindex total taskType now ∨
        (x ∈ s.logs ∧ x.id ∉ s.oldIds kbId) := by
      rw [mem_insert? hinsert]
      simp
    split
    · exact hlogs
    · exact hlogs

theorem schedule_of_active (hx : x ∈ s.logs) (hof : x.ofBinding kbId taskType = true)
    (hactive : x.status.active = true) :
    s.schedule kbId pollRangeStart reindex total taskType newId now = (.ok none, s) := by
  unfold schedule
  apply if_pos
  rw [any_eq_true]
  exact ⟨x, hx, by rw [hof, hactive]; rfl⟩

theorem completeAndScheduleNext_ok {taskId : String} {checkpoint : Option Int} {doneNow : Int}
    {next : Option String}
    (h : s.completeAndScheduleNext taskId kbId checkpoint doneNow newId now = (.ok next, s')) :
    ∃ current s₁, s.logs.get? taskId = some current ∧ current.kbId = kbId ∧
      current.status = .running ∧ s'.logs = s₁.logs ∧
      ((current.taskType = .prune ∧ s₁ = s.putLog (finished current checkpoint doneNow)) ∨
        ∃ r, (s.putLog (finished current checkpoint doneNow)).schedule kbId checkpoint false
          current.totalDocsIndexed current.taskType newId now = (r, s₁)) := by
  unfold completeAndScheduleNext at h
  split at h
  · cases h
  next current hget =>
  split at h
  · cases h
  next hrefused =>
  split at h
  · cases h
  split at h
  · cases h
  dsimp only at h
  split at h
  · cases h
  next nextTask s₁ hnext =>
  cases h
  simp only [not_or, not_not] at hrefused
  refine ⟨current, s₁, hget, hrefused.2.1, hrefused.2.2, ?_, ?_⟩
  · split <;> rfl
  · split at hnext
    · exact Or.inr ⟨_, hnext⟩
    · next hprune =>
      cases hnext
      apply Or.inl
      refine ⟨?_, rfl⟩
      cases htype : current.taskType with
      | sync => simp [htype] at hprune
      | prune => rfl

/-! No function changes the datasets the connector is bound to. -/

variable (s kbId pollRangeStart reindex total taskType newId now) in
theorem schedule_bindings :
    (s.schedule kbId pollRangeStart reindex total taskType newId now).2.bindings = s.bindings := by
  simp only [schedule]
  split
  · rfl
  · split
    · rfl
    · dsimp only
      split <;> rfl

variable (fresh : String × ConnectorTaskType → String × Int)

theorem scheduleEach_bindings (list : List (String × ConnectorTaskType)) (s : ConnectorStore) :
    (s.scheduleEach fresh list).2.bindings = s.bindings := by
  induction list generalizing s with
  | nil => rfl
  | cons binding rest ih =>
    have hbind : (s.scheduleBinding fresh binding).2.bindings = s.bindings := by
      unfold scheduleBinding
      split
      · rfl
      · exact schedule_bindings _ _ _ _ _ _ _ _
    unfold scheduleEach
    split
    · next heq => rw [← hbind, heq]
    · next heq => rw [ih, ← hbind, heq]

theorem scheduleTasks_bindings (s : ConnectorStore) :
    (s.scheduleTasks fresh).2.bindings = s.bindings := by
  have heach := scheduleEach_bindings fresh (bindingTypes s.bindings) (s.setStatus .schedule)
  unfold scheduleTasks
  split
  · next heq =>
    rw [heq] at heach
    exact heach
  · next heq =>
    rw [heq] at heach
    split <;> exact heach

theorem completeAndScheduleNext_bindings (taskId kbId : String) (checkpoint : Option Int)
    (doneNow : Int) (newId : String) (now : Int) (s : ConnectorStore) :
    (s.completeAndScheduleNext taskId kbId checkpoint doneNow newId now).2.bindings =
      s.bindings := by
  unfold completeAndScheduleNext
  split
  · rfl
  split
  · rfl
  split
  · rfl
  split
  · rfl
  next current _ _ _ _ =>
  dsimp only
  have hnext : (if current.taskType = .sync ∨ s.connector.pruneEnabled = true then
      (s.putLog (finished current checkpoint doneNow)).schedule kbId checkpoint false
        current.totalDocsIndexed current.taskType newId now
      else (.ok none, s.putLog (finished current checkpoint doneNow))).2.bindings = s.bindings := by
    split
    · exact schedule_bindings _ _ _ _ _ _ _ _
    · rfl
  split
  · next heq =>
    rw [heq] at hnext
    exact hnext
  · next heq =>
    rw [heq] at hnext
    split <;> exact hnext

end

end ConnectorStore

end MultiRag.ConnectorSync
