/-
  **Rows, prepared executions and pure helpers of the history transactions.**

  A Channel execution of a Canvas works on a private copy of the conversation, its candidate,
  whose ownership is a row of its own; an execution of a Dialog works on a copy in memory. A
  message is a Python dictionary, so its items stand in key order; a nullable JSON column reads
  `None` for SQL's and for JSON's null. The fingerprint is the digest of a payload and is modelled
  by the payload.
-/
import MultiRag.PyValue
import MultiRag.TableWrites

namespace MultiRag.History

/-! ### Rows -/

abbrev Message := List (String × Json)

def Message.get (message : Message) (key : String) : Json := (message.lookup key).getD .null

structure API4Conversation where
  id : String
  name : Option String
  dialogId : String
  userId : String
  expUserId : Option String
  message : Option (List Message)
  reference : Option Json
  tokens : Int
  source : Option String
  dsl : Option Json
  duration : Rat
  round : Int
  thumbUp : Int
  errors : Option String
  versionTitle : Option String

def API4Conversation.identity (row : API4Conversation) :=
  (row.id, row.name, row.dialogId, row.userId, row.expUserId)

structure Conversation where
  id : String
  dialogId : String
  name : Option String
  message : Option (List Message)
  reference : Option (List Message)
  userId : Option String

inductive CandidateState where
  | active
  | finalizing
deriving DecidableEq

structure CanvasFingerprint where
  message : List Message
  reference : Option Json
  dsl : Option Json
  round : Int
  userId : String
  expUserId : Option String
deriving DecidableEq

structure ChannelCanvasCandidate where
  id : String
  candidateSessionId : String
  ownerToken : String
  targetId : String
  publicSessionId : Option String
  sourceFingerprint : Option CanvasFingerprint
  state : CandidateState
  expiresAt : Int
  publishUserId : Option String
  publishExpUserId : Option String
  publishName : Option String

def API4Conversation.fingerprint (row : API4Conversation) : CanvasFingerprint :=
  ⟨row.message.getD [], row.reference, row.dsl, row.round, row.userId, row.expUserId⟩

/-! ### Prepared executions -/

inductive ExecutionOperation where
  | generate
  | regenerate
deriving DecidableEq

structure PreparedCanvasExecution where
  publicSessionId : Option String
  executionSessionId : Option String
  sourceFingerprint : Option CanvasFingerprint
  ownerToken : String
  targetId : String
  expectedUserId : String
deriving DecidableEq

structure DialogHistoryHead where
  messages : Option (List Message)
  references : Option (List Message)
  userId : Option String

structure DialogWorkingCopy where
  id : String
  dialogId : String
  name : String
  message : List Message
  reference : List Message
  userId : Option String

structure PreparedDialogExecution where
  publicSessionId : String
  targetId : String
  expectedHead : Option DialogHistoryHead
  workingCopy : DialogWorkingCopy

inductive HistoryError where
  | lookup (text : String)
  | permission (text : String)
  | value (text : String)
  | unhashable
  | targetExecutionFailed
  | runtime (text : String)
  | integrity
  | database

/-- Raise unless a condition holds. -/
def require (condition : Prop) [Decidable condition] (error : HistoryError) : Except HistoryError Unit :=
  if condition then .ok () else .error error

@[simp] theorem require_eq_ok {condition : Prop} [Decidable condition] {error : HistoryError} {u : Unit} :
    require condition error = .ok u ↔ condition := by
  simp [require]

variable (stripReasoning : String → String)

def sanitizeMessage (message : Message) : Message :=
  if message.get "role" ≠ .str "assistant" then message
  else message.map fun item =>
    match item with
    | ("content", .str content) => ("content", .str (stripReasoning content))
    | _ => item

def sanitizeMessages (messages : Option (List Message)) : List Message :=
  (messages.getD []).map (sanitizeMessage stripReasoning)

def hasVisibleAssistant (messages : List Message) : Bool :=
  match messages.getLast? with
  | none => false
  | some message =>
    if message.get "role" ≠ .str "assistant" then false
    else match message.get "content" with
      | .str content => stripReasoning content != ""
      | _ => false

/-- `_rewind_latest_turn` on the messages; the references lose their last item. -/
def rewindLatestTurn (messages : List Message) (question : String) :
    Except HistoryError (List Message) :=
  match messages.reverse with
  | assistant :: user :: before =>
    if user.get "role" ≠ .str "user" ∨ assistant.get "role" ≠ .str "assistant" ∨
        user.get "content" ≠ .str question then
      .error (.lookup "Only the latest matching turn can be regenerated")
    else if (user.get "id").truthy ∧ (assistant.get "id").truthy ∧
        user.get "id" ≠ assistant.get "id" then
      .error (.lookup "The latest conversation turn is inconsistent")
    else .ok before.reverse
  | _ => .error (.lookup "No completed turn is available for regeneration")

def historyEntry (message : Message) :
    Except HistoryError (Option (String × String × Option Json)) :=
  match message.get "role" with
  | .arr _ | .obj _ => .error .unhashable
  | .str role =>
    match message.get "content" with
    | .str content =>
      if role = "user" ∨ role = "assistant" then
        .ok (some (role, content, if (message.get "a2ui").isObj then some (message.get "a2ui") else none))
      else .ok none
    | _ => .ok none
  | _ => .ok none

def canvasHistory (messages : List Message) :
    Except HistoryError (List (String × String × Option Json)) := do
  let entries ← messages.mapM historyEntry
  return entries.reduceOption

def historyValue (entry : String × String × Option Json) : Json :=
  match entry with
  | (role, content, some a2ui) =>
    .arr [.str role, .obj [("a2ui", a2ui), ("content", .str content)]]
  | (role, content, none) => .arr [.str role, .str content]

/-! ### The Canvas graph -/

def regenerateSafeComponents : List String :=
  ["A2UI", "Agent", "Begin", "Categorize", "DataOperations", "ExitLoop", "HTMLReport", "Iteration",
    "IterationItem", "LLM", "ListOperations", "Loop", "LoopItem", "Message", "Retrieval",
    "StringTransform", "Switch", "VariableAggregator", "VariableAssigner"]

def assertComponentSafe (component : Json) : Except HistoryError Unit :=
  if !component.isObj ∨ !(component.getD "obj").isObj then
    .error (.permission "Canvas regeneration requires a supported component graph")
  else
    let obj := component.getD "obj"
    let params := obj.getD "params"
    match obj.getD "component_name" with
    | .str name =>
      if name ∉ regenerateSafeComponents then
        .error (.permission "Canvas regeneration is unavailable for workflows with external tools")
      else if name = "Message" then
        if !params.isObj ∨ (params.getD "output_format").truthy ∨ (params.getD "memory_ids").truthy then
          .error (.permission "Canvas regeneration is unavailable for messages with persistent outputs")
        else .ok ()
      else if name = "Agent" ∧
          (!params.isObj ∨ (params.getD "tools").truthy ∨ (params.getD "mcp").truthy) then
        .error (.permission "Canvas regeneration is unavailable for tool-enabled agents")
      else .ok ()
    | _ => .error (.permission "Canvas regeneration is unavailable for workflows with external tools")

def assertCanvasRegenerationSafe (dsl : Json) : Except HistoryError Unit :=
  match dsl.getD "components" with
  | .obj components => components.forM fun component => assertComponentSafe component.2
  | _ => .error (.permission "Canvas regeneration requires a supported component graph")

def setItem (key : String) (value : Json) : List (String × Json) → List (String × Json)
  | [] => [(key, value)]
  | (k, v) :: items =>
    if k = key then (key, value) :: items
    else if key < k then (key, value) :: (k, v) :: items
    else (k, v) :: setItem key value items

variable (loads : String → Option Json)

def prepareCanvasDsl (dsl : Option Json) (messages : List Message) (validateReplay : Bool) :
    Except HistoryError Json := do
  let parsed ← match dsl with
    | some (.str text) =>
      match loads text with
      | some parsed => Except.ok parsed
      | none => .error (.value "JSONDecodeError")
    | some parsed => .ok parsed
    | none => .ok Json.null
  match parsed with
  | .obj items =>
    let _ ← if validateReplay then assertCanvasRegenerationSafe (.obj items) else .ok ()
    let history ← canvasHistory messages
    let globals := match (Json.obj items).getD "globals" with
      | .obj globals => globals
      | _ => []
    let lines := history.map fun entry => Json.str (entry.1 ++ ": " ++ entry.2.1)
    let turns := (history.filter fun entry => entry.1 = "user").length
    return .obj (setItem "globals" (.obj (setItem "sys.conversation_turns" (.int turns)
      (setItem "sys.history" (.arr lines) globals)))
        (setItem "history" (.arr (history.map historyValue)) items))
  | _ => .error (.value "Canvas DSL must be an object")

end MultiRag.History
