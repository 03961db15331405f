/-
  **Insertion of source chunks and its compensation**
  (`api/db/services/document_status_service.py`, `common/doc_store/document_history.py`,
  `api/db/services/document_task_service.py`).

  `insert_source_chunks` writes the chunks of one task to the store, registers them with the task,
  counts them for the document and its dataset, and moves the recovery record from `intent` to
  `ready`. Every call may raise. Locks and image reservations change nothing here; a store that
  answers with errors is one that raises.
-/
import Mathlib.Algebra.Order.Ring.Nat
import MultiRag.SourceRecovery

namespace MultiRag.SourceRecovery

open Availability Program

/-! ### The store -/

def takePart {α : Type} (took : Nat → Bool) (l : List α) : List α :=
  (l.zipIdx.filter fun p => took p.2).map Prod.fst

def writeStore (writes : Insertion → List (Table.Write String StoredRow)) : Action Unit :=
  callPart (fun s => ((), { s with store := s.store.writeAll (writes s) }))
    fun took s => { s with store := s.store.writeAll (takePart took (writes s)) }

def owns (docId kbId : String) (row : StoredRow) : Bool :=
  row.chunk.docId = docId && row.kbId = kbId

def documentHistory (docId kbId : String) : Action Rows :=
  read fun s => s.store.filter (owns docId kbId)

/-- `settings.docStoreConn.insert`; a row replaces the one with its id. -/
def insertions (kbId : String) (chunks : List SourceChunk) : List (Table.Write String StoredRow) :=
  chunks.map fun chunk => .upsert ⟨chunk, kbId⟩

def deletions (docId kbId : String) (ids : List String) (store : Rows) :
    List (Table.Write String StoredRow) :=
  ((nativeRows store ids).filter (owns docId kbId)).rows.map fun row => .delete row.id

def deleteDocumentHistory (docId kbId : String) (ids : List String) : Action Unit := do
  writeStore fun s => deletions docId kbId ids s.store
  confirm
  let remaining ← documentHistory docId kbId
  require ((nativeRows remaining ids).rows = [])
    (.raised "Document history deletion could not be confirmed.")

def restoreDocumentHistory (docId kbId : String) (snapshot : Rows) (ids : List String) :
    Action Unit := do
  let rows := nativeRows snapshot ids
  deleteDocumentHistory docId kbId ids
  when (rows.rows ≠ []) do
    writeStore fun _ => rows.rows.map .upsert
    confirm
  let actual ← documentHistory docId kbId
  require (Table.Same (nativeRows actual ids) rows)
    (.raised "Document history recovery could not be confirmed.")

/-! ### Images -/

def imageReferenceKey (identifier : Option String) : Option (String × String) :=
  match identifier with
  | none => none
  | some text =>
    let bucket := text.toList.takeWhile (· ≠ '-')
    let key := (text.toList.dropWhile (· ≠ '-')).tail
    if bucket = [] ∨ key = [] then none else some (String.ofList bucket, String.ofList key)

def imageKeys (chunks : List SourceChunk) : List (String × String) :=
  (chunks.filterMap fun chunk => imageReferenceKey chunk.imgId).dedup

def reserveTaskImages (chunks : List SourceChunk) : Action Unit :=
  each (chunks.filterMap fun chunk => imageReferenceKey chunk.imgId) fun _ => do
    confirm
    confirm

def releaseTaskImages (chunks : List SourceChunk) : Action Unit :=
  when (imageKeys chunks ≠ []) do
    confirm
    each (imageKeys chunks) fun _ => confirm

/-- `image_write_locks`; the transaction that holds the locks ends with the body. -/
def imageWriteLocks (keys : List (String × String)) (body : Action Unit) : Action Unit :=
  if keys = [] then body
  else do
    confirm
    each keys fun _ => confirm
    always body confirm

/-! ### Rows of SQL -/

def superseded : Failure := .raised "Document task has been replaced."

def canceled (doc : DocumentRow) (task : TaskRow) : Prop :=
  doc.run = "0" ∨ doc.run = "2" ∨ task.progress < 0 ∨ 1 ≤ task.progress ∨
    TaskCancellation.TASK_CANCEL_MARKER.toList <:+: task.progressMsg.toList

instance (doc : DocumentRow) (task : TaskRow) : Decidable (canceled doc task) :=
  inferInstanceAs (Decidable (_ ∨ _))

def currentDocumentTask (docId kbId : String) (cleanup : Bool) : Action (DocumentRow × TaskRow) := do
  let doc ← read fun s => (s.session.documents docId).filter (·.kbId = kbId)
  let task ← read fun s => s.session.task.filter (·.docId = docId)
  match doc, task with
  | some doc, some task => do
    require (cleanup = true ∨ ¬ canceled doc task) (.raised "Document task has been canceled.")
    done (doc, task)
  | _, _ => raise superseded

def Sql.setDocument (sql : Sql) (docId : String) (doc : DocumentRow) : Sql :=
  { sql with documents := Function.update sql.documents docId (some doc) }

def updateDocument (docId : String) (selects : DocumentRow → Bool)
    (change : DocumentRow → DocumentRow) : Action Nat :=
  call fun s =>
    match (s.session.documents docId).filter selects with
    | none => (0, s)
    | some doc => (1, { s with session := s.session.setDocument docId (change doc) })

def updateKnowledgebase (change : Knowledgebase → Knowledgebase) : Action Nat :=
  call fun s =>
    match s.session.kb with
    | none => (0, s)
    | some kb => (1, { s with session := { s.session with kb := some (change kb) } })

def Knowledgebase.plus (kb : Knowledgebase) (chunks tokens : Int) : Knowledgebase :=
  ⟨kb.chunkNum + chunks, kb.tokenNum + tokens⟩

def countChunks (docId : String) (rows : Rows) : Except String Nat := do
  let parents ← availabilityParentIds (rows.rows.map (·.chunk.toChunk))
  let parents := ((parents.find? (·.1 = docId)).map (·.2)).getD []
  .ok (rows.rows.filter fun row => ¬ parents.contains row.id).length

def reconcileTaskChunkCount (docId kbId : String) (now : Int) : Action Unit := do
  let doc ← read fun s => s.session.documents docId
  match doc with
  | none => raise (.raised "Document task resource disappeared.")
  | some doc => do
    let rows ← documentHistory docId kbId
    match countChunks docId rows with
    | .error message => raise (.raised message)
    | .ok count => do
      let changed ← updateDocument docId (·.kbId = kbId) fun row =>
        { row with chunkNum := count, updateTime := max now (doc.updateTime + 1), updateDate := now }
      let kbChanged ← updateKnowledgebase (·.plus (count - doc.chunkNum) 0)
      require (changed = 1 ∧ kbChanged = 1) (.raised "Document task resource disappeared.")

def accountTaskTokens (docId kbId : String) (digest : Digest) (tokens : Nat) : Action Unit := do
  let previous := digest.accounted.getD 0
  let accounted := max previous tokens
  let delta : Int := accounted - previous
  modify fun s => { s with session := { s.session with
    task := s.session.task.map fun task =>
      { task with digest := ⟨digest.base, some accounted⟩ } } }
  let document ← updateDocument docId (·.kbId = kbId) fun row =>
    { row with tokenNum := row.tokenNum + delta }
  let dataset ← updateKnowledgebase (·.plus 0 delta)
  require (document = 1 ∧ dataset = 1) (.raised "Document task resource disappeared.")

def commit : Action Unit := call fun s => ((), { s with sql := s.session })

def rollback : Action Unit := call fun s => ((), { s with session := s.sql })

/-! ### Insertion -/

/-- The arguments of one insertion by a task: its chunks are chunks of documents. -/
structure Batch where
  kbId : String
  chunks : List SourceChunk
  source : ∀ chunk ∈ chunks, chunk.docId ≠ graphRaptorX
  nonce : Nat
  now : Int

def Batch.docId (batch : Batch) : String :=
  match batch.chunks with
  | [] => ""
  | chunk :: _ => chunk.docId

def Batch.assigned (batch : Batch) (doc : DocumentRow) : List SourceChunk :=
  batch.chunks.map fun chunk =>
    { chunk with availableInt := insertedRule doc.status chunk.toChunk }

def Batch.ids (batch : Batch) : List String := batch.chunks.map (·.id)

def sourceDocumentAvailability (batch : Batch) : Action (DocumentRow × TaskRow) := do
  require (∀ chunk ∈ batch.chunks, chunk.docId ≠ "") (.raised "Source document ID unavailable.")
  require (batch.chunks ≠ []) (.raised "list index out of range")
  let documents ← read fun s => s.session.documents
  require (∀ chunk ∈ batch.chunks, (documents chunk.docId).any (·.kbId = batch.kbId) = true)
    (.raised "Source document status unavailable.")
  confirm
  require (∀ chunk ∈ batch.chunks, chunk.docId = batch.docId)
    (.raised "A source task must belong to one document.")
  let rows ← currentDocumentTask batch.docId batch.kbId false
  requireSourceRecoveryResolved
  done rows

/-- The ids that `task.chunk_ids` names, with those of a batch added. -/
def registered (known : List String) (chunks : List SourceChunk) : List String :=
  (known ++ (chunks.filter fun chunk => chunk.momId ≠ some chunk.id).map (·.id)).reverse.dedup.reverse

/-- The writes of `_insert_locked_source_chunks` to SQL. -/
def registerChunks (batch : Batch) (chunks : List SourceChunk) : Action Unit := do
  let task ← read fun s => s.session.task
  match task with
  | none => raise (.raised "Document task registration unavailable.")
  | some task => do
    modify fun s => { s with session := { s.session with
      task := some { task with chunkIds := registered task.chunkIds chunks } } }
    reconcileTaskChunkCount batch.docId batch.kbId batch.now
    when (chunks.any (·.ingestTokens.isSome) = true)
      (accountTaskTokens batch.docId batch.kbId task.digest
        (chunks.map fun chunk => chunk.ingestTokens.getD 0).sum)
    confirm

def insertLocked (batch : Batch) (chunks : List SourceChunk) (snapshot : Rows)
    (doc : DocumentRow) (task : TaskRow) : Action Unit := do
  let record ← prepare batch.nonce chunks snapshot task doc
  modify fun s => { s with material := some record }
  reserveTaskImages chunks
  modify fun s => { s with nativeStarted := true }
  always (writeStore fun _ => insertions batch.kbId chunks) do
    let applied ← documentHistory batch.docId batch.kbId
    modify fun s => { s with appliedNative := some applied }
    let material ← current
    update material
      (material.withPhase .applied fun m => { m with appliedNative := some applied }) true
  registerChunks batch chunks
  let appliedTask ← read fun s => s.session.task
  let appliedDoc ← read fun s => s.session.documents batch.docId
  modify fun s => { s with appliedTask := appliedTask, appliedDoc := appliedDoc }
  let material ← current
  update material
    (material.withMaterial fun m => { m with appliedTask := appliedTask, appliedDoc := appliedDoc })
    true
  commit

/-! ### Compensation -/

def DocumentRow.recounted (doc original : DocumentRow) : DocumentRow :=
  { doc with chunkNum := original.chunkNum, tokenNum := original.tokenNum,
             updateTime := original.updateTime, updateDate := original.updateDate }

def restoreSql (batch : Batch) (originalDoc doc : DocumentRow) (originalTask : TaskRow) :
    Action Unit := do
  let restoredDoc ← updateDocument batch.docId (fun _ => true) (·.recounted originalDoc)
  let restoredTask ← call fun s =>
    match s.session.task with
    | none => (0, s)
    | some _ => (1, { s with session := { s.session with task := some originalTask } })
  let restoredKb ← updateKnowledgebase
    (·.plus (originalDoc.chunkNum - doc.chunkNum) (originalDoc.tokenNum - doc.tokenNum))
  require (restoredDoc = 1 ∧ restoredTask = 1 ∧ restoredKb = 1)
    (.raised "Source chunk SQL recovery could not be confirmed.")
  commit

def requireApplied (batch : Batch) (material : Record) (native : Rows) (task : TaskRow)
    (doc : DocumentRow) : Option Rows → Action Unit
  | none => preserve material ⟨some native, task, doc⟩
  | some applied =>
    when (¬ Table.Same (nativeRows native batch.ids) (nativeRows applied batch.ids))
      (preserve material ⟨some native, task, doc⟩)

def recoverLocked (batch : Batch) (chunks : List SourceChunk) (snapshot : Rows)
    (originalDoc doc : DocumentRow) (originalTask task : TaskRow) : Action Unit := do
  let applied ← get fun s => (s.appliedTask, s.appliedDoc, s.appliedNative)
  let unchanged : Prop := task = originalTask ∧ doc = originalDoc
  let committed : Prop := some task = applied.1 ∧ some doc = applied.2.1
  require (unchanged ∨ committed)
    (.raised "Source chunk recovery no longer owns the current rows.")
  reserveTaskImages chunks
  let material ← current
  let native ← attempt (documentHistory batch.docId batch.kbId) fun _ =>
    preserve material ⟨none, task, doc⟩
  requireApplied batch material native task doc applied.2.2
  restoreDocumentHistory batch.docId batch.kbId snapshot batch.ids
  when (committed ∧ ¬ unchanged) (restoreSql batch originalDoc doc originalTask)

def recover (batch : Batch) (chunks : List SourceChunk) (snapshot : Rows)
    (keys : List (String × String)) (originalDoc : DocumentRow) (originalTask : TaskRow) :
    Action Unit := do
  rollback
  let rows ← currentDocumentTask batch.docId batch.kbId true
  imageWriteLocks keys
    (recoverLocked batch chunks snapshot originalDoc rows.1 originalTask rows.2)
  rollback
  restored

def insertSourceChunks (batch : Batch) : Action Unit := do
  let rows ← sourceDocumentAvailability batch
  let chunks := batch.assigned rows.1
  let snapshot ← documentHistory batch.docId batch.kbId
  let keys := imageKeys (chunks ++ snapshot.rows.map (·.chunk))
  attempt
    (imageWriteLocks keys do
      insertLocked batch chunks snapshot rows.1 rows.2
      releaseTaskImages chunks
      ready batch.ids)
    fun error => do
      let started ← get fun s => s.nativeStarted
      when (started = true) (recover batch chunks snapshot keys rows.1 rows.2)
      raise error

def World.begin (w : World) : Insertion where
  toWorld := w
  session := w.sql
  material := none
  nativeStarted := false
  appliedNative := none
  appliedTask := none
  appliedDoc := none

def World.insert (w : World) (batch : Batch) (plan : List Fault) :
    Except Failure Unit × Machine Insertion :=
  (insertSourceChunks batch).run ⟨plan, w.begin, []⟩

end MultiRag.SourceRecovery
