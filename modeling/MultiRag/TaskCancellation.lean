/-
  **Cancelling a task** (`api/db/services/task_cancellation_service.py`,
  `core/utils/task_runtime.py`, `api/db/services/task_service.py`).

  One task has three states: its row in SQL, which a worker reads and writes, the binding of its
  run in Redis, and the cancel flag beside it. `step` is one atomic action of a call: an SQL
  transaction up to the next use of Redis, or one script. A call is known by its token.
-/
import Mathlib.Algebra.Order.Ring.Rat

namespace MultiRag.TaskCancellation

/-! ### Logs -/

def TASK_CANCEL_MARKER : String := "[cancel_requested]"

def TASK_LOG_MAX_BYTES : Nat := 60 * 1024

/-- The characters of a `LIKE` pattern at the head of a text; `_` is any character. -/
def matchesAt : List Char → List Char → Bool
  | [], _ => true
  | _ :: _, [] => false
  | '_' :: pattern, _ :: text => matchesAt pattern text
  | p :: pattern, c :: text => p == c && matchesAt pattern text

def likeContains (pattern text : String) : Bool :=
  text.toList.tails.any (matchesAt pattern.toList)

def byteTail (budget : Nat) : List Char → List Char
  | [] => []
  | c :: text =>
      if ((c :: text).map Char.utf8Size).sum ≤ budget then c :: text else byteTail budget text

def trimHeaderByLines (text : String) (maxLength : Nat) : String :=
  let chars := text.toList
  let result := byteTail TASK_LOG_MAX_BYTES (chars.drop (chars.length - maxLength))
  let start := chars.length - result.length
  if 0 < start ∧ chars[start - 1]? ≠ some '\n' then
    let newline := result.findIdx (· == '\n')
    if newline + 1 < result.length then String.ofList (result.drop (newline + 1))
    else String.ofList result
  else String.ofList result

/-! ### The task, its binding and its flag -/

/-- Which resource a task belongs to, by its `doc_id`. -/
inductive TaskKind where
  | dataflow
  | graphRaptor
  | document
deriving DecidableEq

structure TaskRow where
  kind : TaskKind
  progress : Rat
  progressMsg : Option String
deriving DecidableEq

inductive TaskStatus where
  | unstart
  | running
  | cancel
  | done
  | fail
  | schedule
deriving DecidableEq

structure DocumentRow where
  run : TaskStatus
  progress : Rat
  progressMsg : Option String

inductive BindingKind where
  | agent
  | dataflow
deriving DecidableEq

inductive BindingState where
  | active
  | cancelRequested
  | finished
deriving DecidableEq

/-- The value a run registers; scripts compare the whole of it. -/
structure TaskBinding where
  principalId : String
  tenantId : String
  resourceId : String
  kind : BindingKind
  state : BindingState
  cancelToken : Option String
deriving DecidableEq

inductive RuntimeFinish where
  | unbound
  | finished
  | cancelRequested
deriving DecidableEq

def TaskBinding.requested (binding : TaskBinding) (token : String) : TaskBinding :=
  { binding with state := .cancelRequested, cancelToken := some token }

def TaskBinding.finish (binding : TaskBinding) : TaskBinding :=
  { binding with state := .finished }

/-! ### The scripts -/

structure Keys where
  binding : Option TaskBinding
  flag : Option String

def cancelRuntime (expected : TaskBinding) (token : String) (keys : Keys) : Bool × Keys :=
  if keys.binding ≠ some expected then (false, keys)
  else if expected.state ≠ .active then (false, keys)
  else (true, ⟨some (expected.requested token), some token⟩)

def restoreRuntime (expected : TaskBinding) (token : String) (keys : Keys) : Bool × Keys :=
  match keys.binding with
  | none => (false, keys)
  | some binding =>
      if binding.cancelToken ≠ some token then (false, keys)
      else if keys.flag ≠ some token then (false, keys)
      else (true, ⟨some expected, none⟩)

def deleteCancel (token : String) (keys : Keys) : Bool × Keys :=
  if keys.flag ≠ some token then (false, keys) else (true, { keys with flag := none })

def askCancel (previous : Option TaskBinding) (token : String) (keys : Keys) : Bool × Keys :=
  match previous with
  | some binding => cancelRuntime binding token keys
  | none => (true, { keys with flag := some token })

def takeBack (previous : Option TaskBinding) (token : String) (keys : Keys) : Bool × Keys :=
  match previous with
  | some binding => restoreRuntime binding token keys
  | none => deleteCancel token keys

def finishRuntime (keys : Keys) : RuntimeFinish × Keys :=
  match keys.binding with
  | none => (.unbound, keys)
  | some binding =>
      match binding.state with
      | .cancelRequested => (.cancelRequested, keys)
      | .finished => (.finished, keys)
      | .active => (.finished, { keys with binding := some binding.finish })

/-! ### The writes to the rows -/

def cancelMessage (stamp : String) : String :=
  "\n" ++ stamp ++ " " ++ TASK_CANCEL_MARKER ++ " Task stopped by user."

def TaskRow.marked (task : TaskRow) : Bool :=
  likeContains TASK_CANCEL_MARKER (task.progressMsg.getD "")

def TaskRow.unfinished (task : TaskRow) : Bool := 0 ≤ task.progress && task.progress < 1

def TaskRow.cancelled (task : TaskRow) (stamp : String) : TaskRow :=
  if task.unfinished then
    { task with
      progress := -1
      progressMsg := some (task.progressMsg.getD "" ++ cancelMessage stamp) }
  else task

def DocumentRow.cancelled (document : DocumentRow) (stamp : String) : DocumentRow :=
  if document.run = .running ∨ document.run = .schedule then
    { document with
      run := .cancel
      progress := 0
      progressMsg := some (document.progressMsg.getD "" ++ cancelMessage stamp) }
  else document

/-- The write of `get_task`; `prog` is a random number below a tenth. -/
def TaskRow.received (task : TaskRow) (maxLength retryCount : Nat) (stamp : String) (prog : Rat) :
    TaskRow :=
  if task.marked then task
  else
    let msg := if 3 ≤ retryCount then "\nERROR: Task is abandoned after 3 times attempts."
      else "\n" ++ stamp ++ " Task has been received."
    { task with
      progress := if 3 ≤ retryCount then -1 else prog
      progressMsg := some (trimHeaderByLines (task.progressMsg.getD "" ++ msg) maxLength) }

/-- The append of `update_progress`. -/
def TaskRow.logged (task : TaskRow) (maxLength : Nat) (msg : Option String) : TaskRow :=
  match msg with
  | none => task
  | some msg =>
      if msg = "" ∨ task.marked = true then task
      else
        let text := task.progressMsg.getD "" ++ "\n" ++ msg
        { task with progressMsg := some (trimHeaderByLines text maxLength) }

/-- The new progress of `update_progress`; the log is the one just written. -/
def TaskRow.progressed (task : TaskRow) (progress : Option Rat) : TaskRow :=
  match progress with
  | none => task
  | some prog =>
      if task.marked = true ∨
          (prog < 1 ∧ (task.progress = -1 ∨ (prog ≠ -1 ∧ prog ≤ task.progress))) then task
      else { task with progress := prog }

def TaskRow.updated (task : TaskRow) (maxLength : Nat) (msg : Option String)
    (progress : Option Rat) : TaskRow :=
  (task.logged maxLength msg).progressed progress

/-! ### Calls -/

/-- Where a call of `cancel_task` stands; a phase keeps the binding the call has read. -/
inductive Phase where
  /-- Authorized, the task not terminal, Redis not written. -/
  | authorized (previous : Option TaskBinding)
  /-- The script found another binding; to be read again. -/
  | superseded
  /-- The flag is written, SQL not committed. -/
  | flagged (previous : Option TaskBinding)
  /-- Rolled back, the flag not taken back yet. -/
  | aborted (previous : Option TaskBinding)
  | ended

structure World where
  task : Option TaskRow
  document : Option DocumentRow
  keys : Keys
  /-- The call that holds the lock of the task row. -/
  lock : Option String
  phase : String → Option Phase

/-- What became of a script whose reply the caller waits for. -/
inductive ScriptReply where
  | answered
  | lost
  | failed
deriving DecidableEq

/-- One atomic action of a call of `cancel_task`, of a worker or of the run. -/
inductive Action where
  | lock (token : String) (authorized : Bool)
  | request (token : String) (reply : ScriptReply)
  | reread (token : String) (authorized : Bool)
  | commit (token stamp : String)
  | abort (token : String)
  | compensate (token : String) (reply : ScriptReply)
  | getTask (retryCount : Nat) (stamp : String) (prog : Rat)
  | updateProgress (msg : Option String) (progress : Option Rat)
  | finish
deriving DecidableEq

inductive Outcome where
  | silent
  /-- `cancel_task` returns without having asked for anything. -/
  | unchanged
  /-- `cancel_task` returns with its cancellation committed. -/
  | cancelled
  | raised
  /-- `cancel_task` raises with its compensation confirmed. -/
  | restored
  /-- `cancel_task` raises, since the compensation could not be confirmed. -/
  | unconfirmed
  | told (finish : RuntimeFinish)
deriving DecidableEq

namespace World

def setPhase (w : World) (token : String) (phase : Phase) : World :=
  { w with phase := Function.update w.phase token (some phase) }

def release (w : World) (token : String) : World :=
  { w with lock := if w.lock = some token then none else w.lock }

def endCall (w : World) (token : String) : World := (w.release token).setPhase token .ended

def terminal (w : World) : Bool :=
  w.task.any (fun task => !task.unfinished) ||
    w.keys.binding.any (fun binding => binding.state != .active)

def owned (w : World) : Bool :=
  match w.task with
  | none => true
  | some task => task.kind != .dataflow || w.keys.binding.any (fun binding => binding.kind == .dataflow)

def lockStep (w : World) (token : String) (authorized : Bool) : Option (Outcome × World) :=
  if w.phase token ≠ none ∨ (w.task.isSome = true ∧ w.lock ≠ none) then none
  else if w.task = none ∧ w.keys.binding = none then
    some (.unchanged, w.setPhase token .ended)
  else if authorized = false ∨ w.owned = false then some (.raised, w.setPhase token .ended)
  else if w.terminal = true then some (.unchanged, w.setPhase token .ended)
  else
    some (.silent, { w with lock := if w.task.isSome then some token else w.lock }.setPhase token
      (.authorized w.keys.binding))

def requestStep (w : World) (token : String) (reply : ScriptReply) : Option (Outcome × World) :=
  match w.phase token with
  | some (.authorized previous) =>
      let r := askCancel previous token w.keys
      match reply with
      | .failed => some (.raised, w.endCall token)
      | .lost => some (.raised, { w with keys := r.2 }.endCall token)
      | .answered =>
          if r.1 then some (.silent, { w with keys := r.2 }.setPhase token (.flagged previous))
          else some (.silent, { w with keys := r.2 }.setPhase token .superseded)
  | _ => none

def rereadStep (w : World) (token : String) (authorized : Bool) : Option (Outcome × World) :=
  match w.phase token with
  | some .superseded =>
      match w.keys.binding with
      | none => some (.unchanged, w.endCall token)
      | some binding =>
          if authorized = false ∨ binding.state = .active then some (.raised, w.endCall token)
          else some (.unchanged, w.endCall token)
  | _ => none

def commitStep (w : World) (token stamp : String) : Option (Outcome × World) :=
  match w.phase token with
  | some (.flagged _) =>
      let document := if w.task.any (fun task => task.kind == .document) then
        w.document.map (DocumentRow.cancelled · stamp) else w.document
      some (.cancelled, { w with
        task := w.task.map (TaskRow.cancelled · stamp)
        document := document }.endCall token)
  | _ => none

def abortStep (w : World) (token : String) : Option (Outcome × World) :=
  match w.phase token with
  | some (.authorized _) => some (.raised, w.endCall token)
  | some .superseded => some (.raised, w.endCall token)
  | some (.flagged previous) =>
      some (.silent, (w.release token).setPhase token (.aborted previous))
  | _ => none

def compensateStep (w : World) (token : String) (reply : ScriptReply) :
    Option (Outcome × World) :=
  match w.phase token with
  | some (.aborted previous) =>
      let r := takeBack previous token w.keys
      match reply with
      | .failed => some (.unconfirmed, w.setPhase token .ended)
      | .lost => some (.unconfirmed, { w with keys := r.2 }.setPhase token .ended)
      | .answered =>
          some (if r.1 then .restored else .unconfirmed,
            { w with keys := r.2 }.setPhase token .ended)
  | _ => none

end World

/-- One action; `none` when the action cannot happen now.  A worker's write waits for
    the lock of the row. -/
def step (maxLength : Nat) (w : World) : Action → Option (Outcome × World)
  | .lock token authorized => w.lockStep token authorized
  | .request token reply => w.requestStep token reply
  | .reread token authorized => w.rereadStep token authorized
  | .commit token stamp => w.commitStep token stamp
  | .abort token => w.abortStep token
  | .compensate token reply => w.compensateStep token reply
  | .getTask retryCount stamp prog =>
      if w.lock = none then
        some (.silent, { w with
          task := w.task.map (fun task => task.received maxLength retryCount stamp prog) })
      else none
  | .updateProgress msg progress =>
      if w.lock = none then
        some (.silent, { w with task := w.task.map (fun task => task.updated maxLength msg progress) })
      else none
  | .finish => some (.told (finishRuntime w.keys).1, { w with keys := (finishRuntime w.keys).2 })

abbrev Event := Action × Outcome

def cancelStep (maxLength : Nat) (w : World) (e : Event) (w' : World) : Prop :=
  step maxLength w e.1 = some (e.2, w')

end MultiRag.TaskCancellation
