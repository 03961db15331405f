/-
  **The history transactions of Canvas and Dialog executions.**

  A transaction is a function that raises or returns a value with the store it
  leaves; one that raises leaves nothing behind.  What a caller and the database
  contribute (fresh ids, the expiry, whether the final COMMIT is refused) is an
  argument.  `jsonbEq` is PostgreSQL's `=` on JSONB, which compares numbers by
  value.
-/
import MultiRag.HistoryContracts

namespace MultiRag.History

structure HistoryStore where
  canvas : Table API4Conversation API4Conversation.id
  candidates : Table ChannelCanvasCandidate ChannelCanvasCandidate.id
  dialogs : Table Conversation Conversation.id

namespace HistoryStore

def insertCanvas (s : HistoryStore) (row : API4Conversation) : Except HistoryError HistoryStore :=
  match s.canvas.insert? row with
  | some canvas => .ok { s with canvas }
  | none => .error .integrity

/-- Insert under the unique constraints on the session and the owner, and the check that the
    public session is another one. -/
def insertCandidate (s : HistoryStore) (row : ChannelCanvasCandidate) :
    Except HistoryError HistoryStore :=
  if s.candidates.rows.any (fun other => other.candidateSessionId = row.candidateSessionId ∨
      other.ownerToken = row.ownerToken) ∨ row.publicSessionId = some row.candidateSessionId then
    .error .integrity
  else match s.candidates.insert? row with
    | some candidates => .ok { s with candidates }
    | none => .error .integrity

def deleteCanvas (s : HistoryStore) (id : String) : HistoryStore :=
  { s with
    canvas := s.canvas.delete id
    candidates := s.candidates.filter fun row => row.candidateSessionId ≠ id }

def candidateIdForOwner (s : HistoryStore) (ownerToken : String) : Option String :=
  (s.candidates.rows.find? fun row => row.ownerToken = ownerToken).map (·.candidateSessionId)

def lockedOne (s : HistoryStore) (sessionId : String) : Except HistoryError API4Conversation :=
  match s.canvas.get? sessionId with
  | some row => .ok row
  | none => .error (.lookup "Session not found")

def lockedCandidateMetadata (s : HistoryStore) (candidateId ownerToken : String) :
    Except HistoryError ChannelCanvasCandidate :=
  match s.candidates.rows.find? fun row =>
      row.candidateSessionId = candidateId ∧ row.ownerToken = ownerToken with
  | some row => .ok row
  | none => .error .targetExecutionFailed

end HistoryStore

def finish {α : Type} (refused : Bool) (value : α) (s : HistoryStore) :
    Except HistoryError (α × HistoryStore) :=
  if refused then .error .database else .ok (value, s)

variable (stripReasoning : String → String) (loads : String → Option Json) (jsonbEq : Json → Json → Bool)

/-! ### Canvas -/

structure PrepareCanvas where
  targetId : String
  sessionId : Option String
  question : String
  operation : ExecutionOperation
  userId : Option String
  ownerToken : String
  candidateId : String
  metadataId : String
  expiresAt : Int
  refused : Bool

def candidateOf (source : API4Conversation) (candidateId : String) (messages : List Message)
    (dsl : Json) : API4Conversation :=
  { source with
    id := candidateId, name := some "[channel-candidate]", dialogId := candidateId,
    userId := candidateId, expUserId := some candidateId, message := some messages, dsl := some dsl }

def sourceMessages (messages : Option (List Message)) (operation : ExecutionOperation)
    (question : String) : Except HistoryError (List Message) :=
  if operation = .regenerate then rewindLatestTurn (sanitizeMessages stripReasoning messages) question
  else .ok (sanitizeMessages stripReasoning messages)

/-- `SqlAlchemyCanvasHistoryTransaction.prepare` of an existing session. -/
def prepareSession (args : PrepareCanvas) (sessionId : String) (s : HistoryStore) :
    Except HistoryError (PreparedCanvasExecution × HistoryStore) := do
  let source ← s.lockedOne sessionId
  require (source.dialogId = args.targetId ∧ source.userId = args.userId.getD "")
    (.lookup "Session not found")
  let messages ← sourceMessages stripReasoning source.message args.operation args.question
  let dsl ← prepareCanvasDsl loads source.dsl messages (args.operation = .regenerate)
  let s ← s.insertCanvas (candidateOf source args.candidateId messages dsl)
  let s ← s.insertCandidate
    ⟨args.metadataId, args.candidateId, args.ownerToken, args.targetId, some sessionId,
      some source.fingerprint, .active, args.expiresAt, none, none, none⟩
  finish args.refused ⟨some sessionId, some args.candidateId, some source.fingerprint,
    args.ownerToken, args.targetId, args.userId.getD ""⟩ s

/-- `SqlAlchemyCanvasHistoryTransaction.prepare`; a new session only arms the capture. -/
def prepareCanvas (args : PrepareCanvas) (s : HistoryStore) :
    Except HistoryError (PreparedCanvasExecution × HistoryStore) :=
  match args.sessionId with
  | some sessionId => prepareSession stripReasoning loads args sessionId s
  | none =>
    if args.operation = .regenerate then
      .error (.lookup "A session is required for regeneration")
    else .ok (⟨none, none, none, args.ownerToken, args.targetId, args.userId.getD ""⟩, s)

/-- `_capture_new_canvas_candidate`: the flush that inserts the conversation of a new session. -/
def captureCandidate (prepared : PreparedCanvasExecution) (conversation : API4Conversation)
    (metadataId : String) (expiresAt : Int) (s : HistoryStore) :
    Except HistoryError (Unit × HistoryStore) := do
  require (conversation.userId = prepared.expectedUserId)
    (.runtime "Canvas candidate conversation has no publish identity")
  let s ← s.insertCanvas { conversation with
    name := some "[channel-candidate]", dialogId := conversation.id,
    userId := conversation.id, expUserId := some conversation.id }
  let s ← s.insertCandidate
    ⟨metadataId, conversation.id, prepared.ownerToken, prepared.targetId, none, none, .active,
      expiresAt, some conversation.userId, conversation.expUserId, conversation.name⟩
  return ((), s)

def validCandidateMetadata (prepared : PreparedCanvasExecution) (candidate : API4Conversation)
    (metadata : ChannelCanvasCandidate) : Bool :=
  metadata.candidateSessionId = candidate.id ∧ metadata.ownerToken = prepared.ownerToken ∧
    metadata.targetId = prepared.targetId ∧ metadata.publicSessionId = prepared.publicSessionId ∧
    metadata.state = .active ∧ candidate.dialogId = candidate.id

def publishNew (prepared : PreparedCanvasExecution) (candidate : API4Conversation)
    (metadata : ChannelCanvasCandidate) : Except HistoryError API4Conversation := do
  let messages := sanitizeMessages stripReasoning candidate.message
  require (validCandidateMetadata prepared candidate metadata) .targetExecutionFailed
  require (hasVisibleAssistant stripReasoning messages) .targetExecutionFailed
  require (metadata.publishUserId = some prepared.expectedUserId) .targetExecutionFailed
  let dsl ← prepareCanvasDsl loads candidate.dsl messages false
  return { candidate with
    message := some messages, dsl := some dsl, dialogId := metadata.targetId,
    userId := prepared.expectedUserId, expUserId := metadata.publishExpUserId,
    name := metadata.publishName }

def publishExisting (prepared : PreparedCanvasExecution) (candidate existing : API4Conversation)
    (metadata : ChannelCanvasCandidate) : Except HistoryError API4Conversation := do
  let messages := sanitizeMessages stripReasoning candidate.message
  require (validCandidateMetadata prepared candidate metadata) .targetExecutionFailed
  require (metadata.sourceFingerprint = prepared.sourceFingerprint ∧
    some existing.fingerprint = metadata.sourceFingerprint) .targetExecutionFailed
  require (hasVisibleAssistant stripReasoning messages) .targetExecutionFailed
  let dsl ← prepareCanvasDsl loads candidate.dsl messages false
  return { existing with
    message := some messages, reference := candidate.reference, dsl := some dsl,
    tokens := candidate.tokens, duration := candidate.duration, round := candidate.round,
    thumbUp := candidate.thumbUp, errors := candidate.errors }

def commitLocked (prepared : PreparedCanvasExecution) (candidateId : String) (refused : Bool)
    (s : HistoryStore) : Except HistoryError (String × HistoryStore) := do
  let candidate ← s.lockedOne candidateId
  match prepared.publicSessionId with
  | none =>
    let metadata ← s.lockedCandidateMetadata candidateId prepared.ownerToken
    let published ← publishNew stripReasoning loads prepared candidate metadata
    finish refused candidateId
      { s with canvas := s.canvas.put published, candidates := s.candidates.delete metadata.id }
  | some sessionId =>
    let existing ← s.lockedOne sessionId
    let metadata ← s.lockedCandidateMetadata candidateId prepared.ownerToken
    let published ← publishExisting stripReasoning loads prepared candidate existing metadata
    finish refused sessionId
      ({ s with
        canvas := s.canvas.put published
        candidates := s.candidates.delete metadata.id }.deleteCanvas candidateId)

/-- The checks of a commit before its first row lock. -/
def ownsCandidate (prepared : PreparedCanvasExecution) (generatedSessionId : String)
    (s : HistoryStore) : Prop :=
  s.candidateIdForOwner prepared.ownerToken = some generatedSessionId ∧
    prepared.executionSessionId.all (· == generatedSessionId)

instance (prepared : PreparedCanvasExecution) (generatedSessionId : String) (s : HistoryStore) :
    Decidable (ownsCandidate prepared generatedSessionId s) :=
  inferInstanceAs (Decidable (_ ∧ _))

/-- `SqlAlchemyCanvasHistoryTransaction.commit` -/
def commitCanvas (prepared : PreparedCanvasExecution) (generatedSessionId : String)
    (refused : Bool) (s : HistoryStore) : Except HistoryError (String × HistoryStore) := do
  require (ownsCandidate prepared generatedSessionId s) .targetExecutionFailed
  commitLocked stripReasoning loads prepared generatedSessionId refused s

def abortCandidate? (prepared : PreparedCanvasExecution) (s : HistoryStore) : Option String :=
  (s.candidateIdForOwner prepared.ownerToken).filter fun candidateId =>
    prepared.publicSessionId ≠ some candidateId ∧ prepared.executionSessionId.all (· == candidateId)

def abortLocked (prepared : PreparedCanvasExecution) (candidateId : String) (refused : Bool)
    (s : HistoryStore) : HistoryStore :=
  if (s.canvas.get? candidateId).isNone ∨ refused then s
  else match s.lockedCandidateMetadata candidateId prepared.ownerToken with
    | .error _ => s
    | .ok metadata =>
      if metadata.publicSessionId ≠ prepared.publicSessionId ∨
          metadata.targetId ≠ prepared.targetId then s
      else { s with candidates := s.candidates.delete metadata.id }.deleteCanvas candidateId

/-- `_abort_canvas_candidate`: whatever it raises inside is swallowed. -/
def abortCanvas (prepared : PreparedCanvasExecution) (refused : Bool) (s : HistoryStore) :
    HistoryStore :=
  match abortCandidate? prepared s with
  | none => s
  | some candidateId => abortLocked prepared candidateId refused s

/-! ### Dialog -/

structure PrepareDialog where
  targetId : String
  sessionId : Option String
  question : String
  operation : ExecutionOperation
  userId : Option String
  newSessionId : String

def sessionName (name : Option String) : String :=
  if name.getD "" = "" then "New session" else name.getD ""

/-- `SqlAlchemyDialogHistoryTransaction.prepare` of an existing session. -/
def prepareDialogSession (args : PrepareDialog) (source : Conversation) :
    Except HistoryError PreparedDialogExecution := do
  require (source.dialogId = args.targetId ∧ source.userId = args.userId) (.lookup "Session not found")
  let messages ← sourceMessages stripReasoning source.message args.operation args.question
  let references := source.reference.getD []
  return ⟨source.id, args.targetId, some ⟨source.message, source.reference, source.userId⟩,
    ⟨source.id, args.targetId, sessionName source.name, messages,
      if args.operation = .regenerate then references.dropLast else references, source.userId⟩⟩

/-- `SqlAlchemyDialogHistoryTransaction.prepare`; it only reads. -/
def prepareDialog (args : PrepareDialog) (s : HistoryStore) :
    Except HistoryError PreparedDialogExecution :=
  match args.sessionId with
  | none =>
    if args.operation = .regenerate then
      .error (.lookup "A session is required for regeneration")
    else .ok ⟨args.newSessionId, args.targetId, none,
      ⟨args.newSessionId, args.targetId, "New session", [], [], args.userId⟩⟩
  | some sessionId =>
    match s.dialogs.get? sessionId with
    | none => .error (.lookup "Session not found")
    | some source => prepareDialogSession stripReasoning args source

def sameColumn (row expected : Option (List Message)) : Bool :=
  match row, expected with
  | none, none => true
  | some row, some expected => jsonbEq (.arr (row.map .obj)) (.arr (expected.map .obj))
  | _, _ => false

def matchesHead (prepared : PreparedDialogExecution) (expected : DialogHistoryHead)
    (row : Conversation) : Bool :=
  row.dialogId = prepared.workingCopy.dialogId && sameColumn jsonbEq row.message expected.messages &&
    sameColumn jsonbEq row.reference expected.references && row.userId = expected.userId

/-- The terminal write of a Dialog: an insert, or an update of the row that still matches. -/
def writeDialog (prepared : PreparedDialogExecution) (messages : List Message) (s : HistoryStore) :
    Option (Table Conversation Conversation.id) :=
  let working := prepared.workingCopy
  match prepared.expectedHead with
  | none => s.dialogs.insert? ⟨prepared.publicSessionId, working.dialogId, some working.name,
      some messages, some working.reference, working.userId⟩
  | some expected =>
    match s.dialogs.get? prepared.publicSessionId with
    | none => none
    | some row =>
      if matchesHead jsonbEq prepared expected row then
        some (s.dialogs.put { row with message := some messages, reference := some working.reference })
      else none

/-- `SqlAlchemyDialogHistoryTransaction.commit` -/
def commitDialog (prepared : PreparedDialogExecution) (refused : Bool) (s : HistoryStore) :
    Except HistoryError (String × HistoryStore) := do
  let working := prepared.workingCopy
  let messages := sanitizeMessages stripReasoning (some working.message)
  require (working.id = prepared.publicSessionId ∧ working.dialogId = prepared.targetId)
    .targetExecutionFailed
  require (hasVisibleAssistant stripReasoning messages) .targetExecutionFailed
  match writeDialog jsonbEq prepared messages s with
  | none => .error .targetExecutionFailed
  | some dialogs => finish refused prepared.publicSessionId { s with dialogs }

end MultiRag.History
