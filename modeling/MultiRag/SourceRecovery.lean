/-
  **The recovery record of a source task** (`api/db/services/document_source_recovery.py`,
  `api/db/services/document_ingest_recovery.py`).

  A task that inserts chunks keeps one record in SQL and a mirror of it in Redis. Every change of
  the record is a transaction of its own, compared with what the writer last saw and read back
  afterwards. A record that is not `ready` stops its task. The world is that of one task.
-/
import MultiRag.ChunkAvailability
import MultiRag.FaultyProgram
import MultiRag.TableWrites
import MultiRag.TaskCancellation

namespace MultiRag.SourceRecovery

open Availability Program

/-! ### Rows -/

/-- A chunk as its producer hands it over; `content` is what no rule reads. -/
structure SourceChunk extends Chunk where
  imgId : Option String
  ingestTokens : Option Nat
  content : String
deriving DecidableEq

structure StoredRow where
  chunk : SourceChunk
  kbId : String
deriving DecidableEq

def StoredRow.id (row : StoredRow) : String := row.chunk.id

abbrev Rows := Table StoredRow StoredRow.id

structure Digest where
  base : String
  accounted : Option Nat
deriving DecidableEq

/-- A task of a document.  A task of a whole dataset writes its chunks without a record. -/
structure TaskRow where
  docId : String
  ofDocument : docId ≠ graphRaptorX
  progress : Rat
  progressMsg : String
  digest : Digest
  chunkIds : List String
deriving DecidableEq

structure DocumentRow where
  kbId : String
  status : Status
  run : String
  chunkNum : Int
  tokenNum : Int
  updateTime : Int
  updateDate : Int
deriving DecidableEq

structure Knowledgebase where
  chunkNum : Int
  tokenNum : Int

/-- The rows that an insertion reads and writes: documents by id, the task and the dataset. -/
structure Sql where
  documents : String → Option DocumentRow
  task : Option TaskRow
  kb : Option Knowledgebase

def nativeRows (rows : Rows) (identifiers : List String) : Rows :=
  rows.filter fun row => identifiers.contains row.id

/-! ### The record -/

inductive Phase where
  | intent | applied | unknown | complete
deriving DecidableEq

structure Seen where
  currentNative : Option Rows
  currentTask : TaskRow
  currentDoc : DocumentRow
deriving DecidableEq

/-- The material of a record, all but its phase and the record before it. -/
structure Material where
  nonce : Nat
  chunks : List SourceChunk
  originalNative : Rows
  originalTask : TaskRow
  originalDoc : DocumentRow
  appliedNative : Option Rows
  appliedTask : Option TaskRow
  appliedDoc : Option DocumentRow
  ownedRows : Rows
  seen : Option Seen
deriving DecidableEq

inductive Record where
  | ready (material : Material)
  | pending (phase : Phase) (material : Material) (priorReady : Option Material)
deriving DecidableEq

namespace Record

def material : Record → Material
  | .ready material => material
  | .pending _ material _ => material

def nonce (record : Record) : Nat := record.material.nonce

def priorReady : Record → Option Material
  | .ready _ => none
  | .pending _ _ prior => prior

def priorRows (record : Record) : Rows :=
  match record.priorReady with
  | none => .empty
  | some prior => prior.ownedRows

def withPhase (record : Record) (phase : Phase) (change : Material → Material) : Record :=
  .pending phase (change record.material) record.priorReady

def withMaterial (change : Material → Material) : Record → Record
  | .ready material => .ready (change material)
  | .pending phase material prior => .pending phase (change material) prior

/-- `update(phase="ready", prior_ready=None)` -/
def toReady (record : Record) : Record := .ready record.material

end Record

/-! ### The state -/

structure World where
  store : Rows
  sql : Sql
  record : Option Record
  mirror : Option Record

structure Insertion extends World where
  session : Sql
  material : Option Record
  nativeStarted : Bool
  appliedNative : Option Rows
  appliedTask : Option TaskRow
  appliedDoc : Option DocumentRow

inductive Failure where
  | lost
  | raised (message : String)

instance : LostCall Failure := ⟨.lost⟩

abbrev Action := Program Insertion Failure

def confirm : Action Unit := read fun _ => ()

/-! ### Transitions of the record -/

/-- `_transition`: one transaction, whose outcome is taken from the read afterwards. -/
def transition (before after : Option Record) : Action Unit := do
  attempt
    (do
      let owned ← call fun s =>
        if s.record = before then (true, { s with record := after }) else (false, s)
      require (owned = true) (.raised "Source recovery ownership changed."))
    fun _ => done ()
  let stored ← read fun s => s.record
  require (stored = after) (.raised "Source recovery material could not be confirmed.")

/-- `StoredRecovery.create`; what `SET NX` answers is never `False`. -/
def create (record : Record) : Action Unit := do
  attempt
    (call fun s => ((), if s.mirror = none then { s with mirror := some record } else s))
    fun _ => done ()
  let raw ← read fun s => s.mirror
  require (raw = some record)
    (.raised "Document history recovery material could not be confirmed.")

def writeMirror (record : Record) : Action Unit := do
  let raw ← read fun s => s.mirror
  match raw with
  | none => create record
  | some previous =>
    when (previous ≠ record) do
      require (previous.nonce = record.nonce)
        (.raised "Source recovery mirror ownership changed.")
      let acknowledged ← attempt
        (call fun s =>
          if s.mirror = some previous then (some true, { s with mirror := some record })
          else (some false, s))
        fun _ => done none
      let confirmed ← read fun s => s.mirror
      require (acknowledged ≠ some false ∧ confirmed = some record)
        (.raised "Source recovery mirror could not be confirmed.")

def clear (record : Record) : Action Unit := do
  let acknowledged ← call fun s =>
    if s.mirror = none then (true, s)
    else if s.mirror = some record then (true, { s with mirror := none })
    else (false, s)
  require (acknowledged = true) (.raised "Document recovery ownership changed.")

def clearMirror (record : Record) : Action Unit := do
  let raw ← read fun s => s.mirror
  match raw with
  | none => done ()
  | some data => do
    require (data.nonce = record.nonce) (.raised "Source recovery mirror ownership changed.")
    attempt (clear data) fun error => do
      let present ← read fun s => s.mirror.isSome
      when (present = true) (raise error)
    let present ← read fun s => s.mirror.isSome
    require (present = false) (.raised "Source recovery retirement could not be confirmed.")

def current : Action Record := do
  let material ← get fun s => s.material
  match material with
  | none => raise (.raised "material")
  | some record => done record

/-- `SourceRecovery.update` of `record` to `after`.  Before the native writes nothing reads
    `recovery["material"]`. -/
def update (record after : Record) (mirror : Bool) : Action Unit := do
  transition (some record) (some after)
  modify fun s => { s with material := some after }
  when (mirror = true) (writeMirror after)

def ready (identifiers : List String) : Action Unit := do
  let applied ← current
  match applied.material.appliedNative with
  | none => raise (.raised "applied_native")
  | some rows => do
    let owned := applied.priorRows.update (nativeRows rows identifiers)
    update applied (applied.withPhase .complete fun m => { m with ownedRows := owned }) true
    let complete ← current
    clearMirror complete
    update complete complete.toReady false

def restored : Action Unit := do
  let record ← current
  clearMirror record
  transition (some record) (record.priorReady.map .ready)

def preserve {α : Type} (record : Record) (seen : Seen) : Action α := do
  attempt
    (update record (record.withPhase .unknown fun m => { m with seen := some seen }) true)
    fun _ => raise (.raised "Source recovery requires reconciliation; durable intent is retained.")
  raise (.raised "Source recovery no longer owns the native rows; reconciliation is required.")

def loadSourceRecovery : Action (Option Record) := do
  let row ← read fun s => s.record
  match row with
  | some record => done (some record)
  | none => do
    let present ← read fun s => s.mirror.isSome
    require (present = false) (.raised "Source recovery authority could not be confirmed.")
    done none

def Resolved : Option Record → Prop
  | some (.pending _ _ _) => False
  | _ => True

instance : DecidablePred Resolved
  | none => .isTrue trivial
  | some (.ready _) => .isTrue trivial
  | some (.pending _ _ _) => .isFalse id

def unresolved : Failure := .raised "Source recovery requires reconciliation before retry."

def requireSourceRecoveryResolved : Action Unit := do
  let material ← loadSourceRecovery
  require (Resolved material) unresolved

/-! ### The intent of an insertion -/

def availability (chunks : List SourceChunk) (id : String) : Option Int :=
  (chunks.reverse.find? (·.id = id)).bind (·.availableInt)

def switched (now : Rows) (chunks : List SourceChunk) (row : StoredRow) : StoredRow :=
  match now.get? row.id with
  | none => row
  | some other =>
    if other.chunk.availableInt = availability chunks row.id then
      { row with chunk := { row.chunk with availableInt := other.chunk.availableInt } }
    else row

theorem switched_id (now : Rows) (chunks : List SourceChunk) (row : StoredRow) :
    (switched now chunks row).id = row.id := by
  unfold switched
  split
  · rfl
  · split <;> rfl

def expectedRows (previous : Material) (originalDoc : DocumentRow) (now : Rows)
    (chunks : List SourceChunk) : Rows :=
  let owned := nativeRows previous.ownedRows (chunks.map (·.id))
  if previous.appliedDoc.map (·.status) = some originalDoc.status then owned
  else owned.mapRows (switched (nativeRows now (owned.rows.map StoredRow.id)) chunks)
    (switched_id _ _)

/-- The check of `prepare_source_recovery` on the record before; `chunk["available_int"]` is
    only looked up where the status has changed. -/
def checkPrevious (chunks : List SourceChunk) (snapshot : Rows) (task : TaskRow)
    (doc : DocumentRow) : Option Material → Action Unit
  | none => done ()
  | some previous => do
    require (previous.appliedDoc ≠ none) (.raised "applied_doc")
    require (previous.appliedDoc.map (·.status) = some doc.status ∨
        ∀ chunk ∈ chunks, chunk.availableInt ≠ none) (.raised "available_int")
    let owned := expectedRows previous doc snapshot chunks
    when (¬ Table.Same (nativeRows snapshot (owned.rows.map StoredRow.id)) owned)
      (preserve (.ready previous) ⟨some snapshot, task, doc⟩)

def prepare (nonce : Nat) (chunks : List SourceChunk) (snapshot : Rows) (task : TaskRow)
    (doc : DocumentRow) : Action Record := do
  let previous ← loadSourceRecovery
  require (Resolved previous) unresolved
  let prior := previous.map Record.material
  checkPrevious chunks snapshot task doc prior
  let record : Record := .pending .intent
    ⟨nonce, chunks, snapshot, task, doc, none, none, none, .empty, none⟩ prior
  transition previous (some record)
  attempt (writeMirror record) fun _ =>
    raise (.raised "Source recovery mirror could not be confirmed before native writes.")
  done record

end MultiRag.SourceRecovery
