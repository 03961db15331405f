/-
  **Owners and cleanup batches under read-committed isolation.**

  The commit and the abort of an execution and the batches of `collect_expired_candidate_batch`
  run statement by statement. A row lock is held to the end of its transaction. An owner waits for
  a lock and then sees the latest row; a batch takes its snapshot when a SELECT starts, skips rows
  that are locked and checks again, on the latest version of the row it locks, only what the
  SELECT asks of this row. What a transaction writes shows at its end.
-/
import MultiRag.HistoryTransactions
import MultiRag.Run

namespace MultiRag.History

open Function

/-! ### Transactions in progress -/

inductive Ending where
  | commit (generatedSessionId : String)
  | abort
deriving DecidableEq

/-- Where a transaction stands: the statement it executes next. -/
inductive Phase where
  | idle
  | find (ending : Ending) (prepared : PreparedCanvasExecution)
  | lockCandidate (ending : Ending) (prepared : PreparedCanvasExecution) (candidateId : String)
  | lockPublic (ending : Ending) (prepared : PreparedCanvasExecution) (candidateId : String)
  | write (ending : Ending) (prepared : PreparedCanvasExecution) (candidateId : String)
  | selectExplicit (now : Int) (batchSize : Nat)
  | lockExplicit (batchSize : Nat) (snapshot doomed : List String)
  | selectLegacy (batchSize : Nat) (doomed : List String)
  | lockLegacy (batchSize : Nat) (snapshot doomed : List String)
  | delete (doomed : List String)

def Phase.doomed : Phase → List String
  | .lockExplicit _ _ doomed | .selectLegacy _ doomed | .lockLegacy _ _ doomed | .delete doomed => doomed
  | _ => []

def Phase.secured : Phase → List String
  | .lockPublic _ _ candidateId | .write _ _ candidateId => [candidateId]
  | phase => phase.doomed

def Phase.holds : Phase → List String
  | .write _ prepared candidateId => candidateId :: prepared.publicSessionId.toList
  | phase => phase.secured

/-- The store, the holder of each row lock and the transactions in progress; `issued` are the
    ids in use so far, which `get_uuid` does not return again. -/
structure World (τ : Type) where
  store : HistoryStore
  locks : String → Option τ
  phases : τ → Phase
  issued : List String

variable {τ : Type} [DecidableEq τ]

def World.lockedByOther (w : World τ) (t : τ) (id : String) : Bool :=
  (w.locks id).any (· ≠ t)

def World.goto (w : World τ) (t : τ) (phase : Phase) : World τ :=
  { w with phases := update w.phases t phase }

def World.lock (w : World τ) (t : τ) (id : String) : World τ :=
  { w with locks := update w.locks id (some t) }

def World.finish (w : World τ) (t : τ) (store : HistoryStore) : World τ :=
  { w with
    store
    locks := fun id => if w.locks id = some t then none else w.locks id
    phases := update w.phases t .idle }

/-- What happens to a candidate; `replaced` is the end of one that was copied to its public row. -/
inductive Change where
  | created
  | promoted
  | replaced
  | aborted
  | collected
deriving DecidableEq

abbrev Changes := List (String × Change)

variable (stripReasoning : String → String) (loads : String → Option Json)

def findCandidate (ending : Ending) (prepared : PreparedCanvasExecution) (s : HistoryStore) :
    Option String :=
  match ending with
  | .commit generatedSessionId =>
    if ownsCandidate prepared generatedSessionId s then some generatedSessionId else none
  | .abort => abortCandidate? prepared s

def writeEnding (ending : Ending) (prepared : PreparedCanvasExecution) (candidateId : String)
    (s : HistoryStore) : Changes × HistoryStore :=
  match ending with
  | .commit _ =>
    match commitLocked stripReasoning loads prepared candidateId false s with
    | .error _ => ([], s)
    | .ok (_, s') =>
      ([(candidateId, if prepared.publicSessionId.isNone then .promoted else .replaced)], s')
  | .abort =>
    let s' := abortLocked prepared candidateId false s
    (if (s.canvas.get? candidateId).isSome && (s'.canvas.get? candidateId).isNone then
      [(candidateId, .aborted)] else [], s')

/-! ### Batches -/

/-- The order of `_lock_explicit_canvas_candidate_ids`. -/
def expiresFirst (a b : ChannelCanvasCandidate) : Bool :=
  decide (a.expiresAt < b.expiresAt) ||
    (decide (a.expiresAt = b.expiresAt) && decide (a.candidateSessionId ≤ b.candidateSessionId))

/-- The snapshot of `_lock_explicit_canvas_candidate_ids`; both states are collectible. -/
def explicitSnapshot (now : Int) (s : HistoryStore) : List String :=
  ((s.candidates.rows.filter fun metadata =>
    decide (metadata.expiresAt ≤ now) && (s.canvas.get? metadata.candidateSessionId).isSome).insertionSort
      (fun a b => expiresFirst a b = true)).map (·.candidateSessionId)

/-- What `_lock_legacy_canvas_candidate_ids` asks of the row, its age aside. -/
def legacyMarked (row : API4Conversation) : Bool :=
  row.name = some "[channel-candidate]" && row.userId = row.id && row.expUserId = some row.id

/-- The snapshot of `_lock_legacy_canvas_candidate_ids`: `old` are the ids of the rows that were
    not updated since the cutoff, in the order of the query. -/
def legacySnapshot (old doomed : List String) (s : HistoryStore) : List String :=
  old.filter fun id => !doomed.contains id && (s.canvas.get? id).any legacyMarked &&
    !(s.candidates.rows.any fun metadata => metadata.candidateSessionId = id)

/-- One row of a snapshot: lock it unless it is locked, gone or, checked again, not wanted. -/
def tryLock (w : World τ) (id : String) (wanted : API4Conversation → Bool) : Bool :=
  (w.locks id).isNone && (w.store.canvas.get? id).any wanted

def deleteRows (ids : List String) (s : HistoryStore) : HistoryStore :=
  ids.foldl (fun s id => s.deleteCanvas id) s

/-- Execute the next statement of a transaction; `none` while it waits for a lock. -/
def advance (t : τ) (old : List String) (w : World τ) : Option (Changes × World τ) :=
  match w.phases t with
  | .idle => none
  | .find ending prepared =>
    match findCandidate ending prepared w.store with
    | none => some ([], w.finish t w.store)
    | some candidateId => some ([], w.goto t (.lockCandidate ending prepared candidateId))
  | .lockCandidate ending prepared candidateId =>
    if w.lockedByOther t candidateId then none
    else if (w.store.canvas.get? candidateId).isNone then some ([], w.finish t w.store)
    else some ([], (w.lock t candidateId).goto t (.lockPublic ending prepared candidateId))
  | .lockPublic ending prepared candidateId =>
    match prepared.publicSessionId with
    | none => some ([], w.goto t (.write ending prepared candidateId))
    | some sessionId =>
      if w.lockedByOther t sessionId then none
      else if (w.store.canvas.get? sessionId).isSome then
        some ([], (w.lock t sessionId).goto t (.write ending prepared candidateId))
      else if ending = .abort then some ([], w.goto t (.write ending prepared candidateId))
      else some ([], w.finish t w.store)
  | .write ending prepared candidateId =>
    let (changes, store) := writeEnding stripReasoning loads ending prepared candidateId w.store
    some (changes, w.finish t store)
  | .selectExplicit now batchSize =>
    some ([], w.goto t (.lockExplicit batchSize (explicitSnapshot now w.store) []))
  | .lockExplicit batchSize [] doomed => some ([], w.goto t (.selectLegacy batchSize doomed))
  | .lockExplicit batchSize (id :: snapshot) doomed =>
    if batchSize ≤ doomed.length then some ([], w.goto t (.selectLegacy batchSize doomed))
    else if tryLock w id fun _ => true then
      some ([], (w.lock t id).goto t (.lockExplicit batchSize snapshot (doomed ++ [id])))
    else some ([], w.goto t (.lockExplicit batchSize snapshot doomed))
  | .selectLegacy batchSize doomed =>
    some ([], w.goto t (.lockLegacy batchSize (legacySnapshot old doomed w.store) doomed))
  | .lockLegacy _ [] doomed => some ([], w.goto t (.delete doomed))
  | .lockLegacy batchSize (id :: snapshot) doomed =>
    if batchSize ≤ doomed.length then some ([], w.goto t (.delete doomed))
    else if tryLock w id legacyMarked then
      some ([], (w.lock t id).goto t (.lockLegacy batchSize snapshot (doomed ++ [id])))
    else some ([], w.goto t (.lockLegacy batchSize snapshot doomed))
  | .delete doomed =>
    some (doomed.map fun id => (id, .collected), w.finish t (deleteRows doomed w.store))

/-! ### Steps -/

inductive Event (τ : Type) where
  | prepare (args : PrepareCanvas)
  | capture (prepared : PreparedCanvasExecution) (conversation : API4Conversation)
      (metadataId : String) (expiresAt : Int)
  /-- An execution or another writer changes the content of a row that nobody holds. -/
  | edit (row : API4Conversation)
  | commit (t : τ) (prepared : PreparedCanvasExecution) (generatedSessionId : String)
  | abort (t : τ) (prepared : PreparedCanvasExecution)
  | collect (t : τ) (now : Int) (batchSize : Nat)
  | advance (t : τ) (old : List String)

def World.begin (w : World τ) (t : τ) (phase : Phase) : Option (Changes × World τ) :=
  match w.phases t with
  | .idle => some ([], w.goto t phase)
  | _ => none

def World.create {α : Type} (w : World τ) (id : String)
    (result : Except HistoryError (α × HistoryStore)) : Option (Changes × World τ) :=
  if id ∈ w.issued then none
  else match result with
    | .error _ => some ([], w)
    | .ok (_, store) => some ([(id, .created)], { w with store, issued := id :: w.issued })

/-- An event, where it can happen: the changes of candidates it makes, and the world after. -/
def happen (event : Event τ) (w : World τ) : Option (Changes × World τ) :=
  match event with
  | .prepare args =>
    if args.sessionId.isNone then some ([], w)
    else w.create args.candidateId (prepareCanvas stripReasoning loads args w.store)
  | .capture prepared conversation metadataId expiresAt =>
    -- `get_uuid` does not return the id of a user
    if conversation.userId = conversation.id then none
    else w.create conversation.id (captureCandidate prepared conversation metadataId expiresAt w.store)
  | .edit row =>
    if (w.locks row.id).isSome ∨
        (w.store.canvas.get? row.id).map API4Conversation.identity ≠ some row.identity then none
    else some ([], { w with store := { w.store with canvas := w.store.canvas.put row } })
  | .commit t prepared generatedSessionId => w.begin t (.find (.commit generatedSessionId) prepared)
  | .abort t prepared => w.begin t (.find .abort prepared)
  | .collect t now batchSize => w.begin t (.selectExplicit now batchSize)
  | .advance t old => advance stripReasoning loads t old w

/-- A step of a run, labelled with its event and the changes it makes. -/
def Happens (w : World τ) (label : Event τ × Changes) (w' : World τ) : Prop :=
  happen stripReasoning loads label.1 w = some (label.2, w')

def changesOf (hist : List (Event τ × Changes)) : Changes := hist.flatMap Prod.snd

def World.nextLock (w : World τ) (t : τ) : Option String :=
  match w.phases t with
  | .lockExplicit batchSize (id :: _) doomed =>
    if doomed.length < batchSize ∧ tryLock w id (fun _ => true) then some id else none
  | _ => none

def Event.nextLock (w : World τ) : Event τ → Option String
  | .advance t _ => w.nextLock t
  | _ => none

/-- A batch that locks a row of its explicit snapshot finds the ownership row of the snapshot
    still there. -/
def OwnedAtLock (w : World τ) (event : Event τ) : Prop :=
  ∀ id ∈ event.nextLock w, ∃ metadata ∈ w.store.candidates.rows, metadata.candidateSessionId = id

instance (w : World τ) (event : Event τ) : Decidable (OwnedAtLock w event) :=
  inferInstanceAs (Decidable (∀ id ∈ event.nextLock w,
    ∃ metadata ∈ w.store.candidates.rows, metadata.candidateSessionId = id))

/-- A step before which the ownership rows are as a batch needs them. -/
def GuardedStep (w : World τ) (label : Event τ × Changes) (w' : World τ) : Prop :=
  Happens stripReasoning loads w label w' ∧ OwnedAtLock w label.1

end MultiRag.History
