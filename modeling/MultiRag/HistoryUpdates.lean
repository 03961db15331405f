/-
  **No update of a conversation is lost, as far as the checks of a commit reach.**

  A run interleaves the transactions of any number of executions with arbitrary other writers. A
  Dialog commit compares the columns it writes; a Canvas commit compares a fingerprint, which
  leaves out four of the columns it writes and does not tell a null message list from an empty
  one. `UncoveredKept` is the condition that this gap is not used.
-/
import MultiRag.Fallible
import MultiRag.HistoryTransactions
import MultiRag.Run

namespace MultiRag.History

open Table List

/-! ### What a Canvas commit writes over, and what it compares -/

structure Overwritten where
  message : Option (List Message)
  reference : Option Json
  dsl : Option Json
  round : Int
  tokens : Int
  duration : Rat
  thumbUp : Int
  errors : Option String
deriving DecidableEq

def API4Conversation.overwritten (row : API4Conversation) : Overwritten :=
  ⟨row.message, row.reference, row.dsl, row.round, row.tokens, row.duration, row.thumbUp, row.errors⟩

structure Uncovered where
  noMessage : Bool
  tokens : Int
  duration : Rat
  thumbUp : Int
  errors : Option String
deriving DecidableEq

def API4Conversation.uncovered (row : API4Conversation) : Uncovered :=
  ⟨row.message.isNone, row.tokens, row.duration, row.thumbUp, row.errors⟩

theorem overwritten_of_fingerprint {row source : API4Conversation}
    (hfingerprint : row.fingerprint = source.fingerprint) (huncovered : row.uncovered = source.uncovered) :
    row.overwritten = source.overwritten := by
  simp only [API4Conversation.fingerprint, CanvasFingerprint.mk.injEq] at hfingerprint
  simp only [API4Conversation.uncovered, Uncovered.mk.injEq] at huncovered
  obtain ⟨hmsg, hreference, hdsl, hround, -, -⟩ := hfingerprint
  obtain ⟨hnone, htokens, hduration, hthumbUp, herrors⟩ := huncovered
  have hsame : row.message = source.message := by
    rcases hrow : row.message with - | messages
    · rw [hrow] at hnone
      exact (Option.isNone_iff_eq_none.mp hnone.symm).symm
    · rcases hsource : source.message with - | messages'
      · simp [hrow, hsource] at hnone
      · simpa [hrow, hsource] using hmsg
  simp [API4Conversation.overwritten, hsame, hreference, hdsl, hround, htokens, hduration, hthumbUp,
    herrors]

/-! ### Runs -/

inductive HistoryCall where
  | prepareCanvas (args : PrepareCanvas)
  | captureCandidate (prepared : PreparedCanvasExecution) (conversation : API4Conversation)
      (metadataId : String) (expiresAt : Int)
  | commitCanvas (prepared : PreparedCanvasExecution) (generatedSessionId : String) (refused : Bool)
  | abortCanvas (prepared : PreparedCanvasExecution) (refused : Bool)
  | prepareDialog (args : PrepareDialog)
  | commitDialog (prepared : PreparedDialogExecution) (refused : Bool)
  | abortDialog (prepared : PreparedDialogExecution)
  /-- A transaction of another writer, or a running execution that writes its candidate. -/
  | write (store : HistoryStore)

inductive HistoryResult where
  | canvasPrepared (result : Except HistoryError PreparedCanvasExecution)
  | dialogPrepared (result : Except HistoryError PreparedDialogExecution)
  | committed (result : Except HistoryError String)
  | done

/-- A step of a run: the call, what it returned and the stores around it. -/
structure Entry where
  call : HistoryCall
  result : HistoryResult
  before : HistoryStore
  after : HistoryStore

def settle {α : Type} (s : HistoryStore) (result : Except HistoryError (α × HistoryStore)) :
    Except HistoryError α × HistoryStore :=
  match result with
  | .ok (value, s') => (.ok value, s')
  | .error error => (.error error, s)

variable {s s' : HistoryStore} {α : Type}

theorem settle_ok {result : Except HistoryError (α × HistoryStore)} {value : α}
    (h : settle s result = (.ok value, s')) : result = .ok (value, s') := by
  unfold settle at h
  split at h
  · cases h
    rfl
  · cases h

variable {error : HistoryError}

theorem settle_error {result : Except HistoryError (α × HistoryStore)} (h : settle s result = (.error error, s')) : s' = s := by
  unfold settle at h
  split at h
  · cases h
  · cases h
    rfl

section

variable (stripReasoning : String → String) (loads : String → Option Json) (jsonbEq : Json → Json → Bool)

def serve (call : HistoryCall) (s : HistoryStore) : HistoryResult × HistoryStore :=
  match call with
  | .prepareCanvas args =>
    let (result, s') := settle s (prepareCanvas stripReasoning loads args s)
    (.canvasPrepared result, s')
  | .captureCandidate prepared conversation metadataId expiresAt =>
    (.done, (settle s (captureCandidate prepared conversation metadataId expiresAt s)).2)
  | .commitCanvas prepared generatedSessionId refused =>
    let (result, s') := settle s (commitCanvas stripReasoning loads prepared generatedSessionId refused s)
    (.committed result, s')
  | .abortCanvas prepared refused => (.done, abortCanvas prepared refused s)
  | .prepareDialog args => (.dialogPrepared (prepareDialog stripReasoning args s), s)
  | .commitDialog prepared refused =>
    let (result, s') := settle s (commitDialog stripReasoning jsonbEq prepared refused s)
    (.committed result, s')
  | .abortDialog _ => (.done, s)
  | .write store => (.done, store)

def perform (call : HistoryCall) (s : HistoryStore) : Entry × HistoryStore :=
  let (result, s') := serve stripReasoning loads jsonbEq call s
  (⟨call, result, s, s'⟩, s')

def Step (s : HistoryStore) (e : Entry) (s' : HistoryStore) : Prop :=
  e.before = s ∧ e.after = s' ∧ serve stripReasoning loads jsonbEq e.call s = (e.result, s')

theorem perform_step (call : HistoryCall) (s : HistoryStore) :
    Step stripReasoning loads jsonbEq s (perform stripReasoning loads jsonbEq call s).1
      (perform stripReasoning loads jsonbEq call s).2 := ⟨rfl, rfl, rfl⟩

variable {stripReasoning loads jsonbEq}

theorem step_of_mem {s₀ : HistoryStore} {hist : List Entry}
    (hrun : Run (Step stripReasoning loads jsonbEq) s₀ hist s) {e : Entry} (he : e ∈ hist) :
    Step stripReasoning loads jsonbEq e.before e e.after := by
  obtain ⟨later, earlier, rfl⟩ := append_of_mem he
  obtain ⟨a, b, -, ⟨hbefore, hafter, hserve⟩, -⟩ := hrun.split
  rw [← hbefore, ← hafter] at hserve
  exact ⟨rfl, rfl, hserve⟩

end

/-! ### The property -/

def Entry.canvasAttempt? (e : Entry) : Option PreparedCanvasExecution :=
  match e.call with
  | .commitCanvas prepared _ _ => some prepared
  | _ => none

def Entry.committed? (e : Entry) : Option String :=
  match e.result with
  | .committed (.ok sessionId) => some sessionId
  | _ => none

def Entry.canvasPrepared? (e : Entry) : Option PreparedCanvasExecution :=
  match e.result with
  | .canvasPrepared (.ok prepared) => some prepared
  | _ => none

def Entry.dialogAttempt? (e : Entry) : Option PreparedDialogExecution :=
  match e.call with
  | .commitDialog prepared _ => some prepared
  | _ => none

def Entry.dialogPrepared? (e : Entry) : Option PreparedDialogExecution :=
  match e.result with
  | .dialogPrepared (.ok prepared) => some prepared
  | _ => none

/-- A conversation that is not the private copy of an execution. -/
def Public (s : HistoryStore) (sessionId : String) : Prop :=
  ∀ metadata ∈ s.candidates, metadata.candidateSessionId ≠ sessionId

/-- The commit of an existing Canvas session found the row it was prepared from and replaced
    this public row only. -/
structure CanvasReplaced (sessionId : String) (p c : Entry) : Prop where
  head : ∃ source row, p.before.canvas.get? sessionId = some source ∧
    c.before.canvas.get? sessionId = some row ∧ row.fingerprint = source.fingerprint ∧
    row.overwritten = source.overwritten
  others : ∀ k, k ≠ sessionId → Public c.before k → c.after.canvas.get? k = c.before.canvas.get? k
  dialogs : c.after.dialogs = c.before.dialogs

theorem CanvasReplaced.overwritten {sessionId : String} {p c : Entry} (h : CanvasReplaced sessionId p c) :
    (c.before.canvas.get? sessionId).map API4Conversation.overwritten =
      (p.before.canvas.get? sessionId).map API4Conversation.overwritten := by
  obtain ⟨source, row, hsource, hrow, -, hsame⟩ := h.head
  simp [hsource, hrow, hsame]

structure CanvasPublished (prepared : PreparedCanvasExecution) (sessionId : String) (c : Entry) :
    Prop where
  candidate : ∃ metadata ∈ c.before.candidates, metadata.candidateSessionId = sessionId ∧
    metadata.ownerToken = prepared.ownerToken ∧ metadata.publicSessionId = none
  others : ∀ k, k ≠ sessionId → c.after.canvas.get? k = c.before.canvas.get? k
  dialogs : c.after.dialogs = c.before.dialogs

/-- The row a Dialog commit found has the columns it was prepared from. -/
structure SameHead (jsonbEq : Json → Json → Bool) (row source : Conversation) : Prop where
  message : sameColumn jsonbEq row.message source.message = true
  reference : sameColumn jsonbEq row.reference source.reference = true
  dialogId : row.dialogId = source.dialogId
  userId : row.userId = source.userId

structure DialogReplaced (jsonbEq : Json → Json → Bool) (prepared : PreparedDialogExecution)
    (p c : Entry) : Prop where
  head : prepared.expectedHead.isSome → ∃ source row,
    p.before.dialogs.get? prepared.publicSessionId = some source ∧
      c.before.dialogs.get? prepared.publicSessionId = some row ∧ SameHead jsonbEq row source
  new : prepared.expectedHead = none → c.before.dialogs.get? prepared.publicSessionId = none
  others : ∀ k, k ≠ prepared.publicSessionId → c.after.dialogs.get? k = c.before.dialogs.get? k
  canvas : c.after.canvas = c.before.canvas

/-- An abort leaves the public conversations as they are. -/
structure Undone (session : Option String) (e : Entry) : Prop where
  session : ∀ k ∈ session, e.after.canvas.get? k = e.before.canvas.get? k
  others : ∀ k, Public e.before k → e.after.canvas.get? k = e.before.canvas.get? k
  dialogs : e.after.dialogs = e.before.dialogs

/-- No commit of the history loses an update, and what fails or is aborted changes nothing. -/
structure NoUpdateLost (jsonbEq : Json → Json → Bool) (hist : List Entry) : Prop where
  canvas : hist.Pairwise fun c p => ∀ prepared sessionId, c.canvasAttempt? = some prepared →
    c.committed?.isSome → p.canvasPrepared? = some prepared →
    prepared.publicSessionId = some sessionId → CanvasReplaced sessionId p c
  canvasNew : ∀ c ∈ hist, ∀ prepared sessionId, c.canvasAttempt? = some prepared →
    c.committed? = some sessionId → prepared.publicSessionId = none →
    CanvasPublished prepared sessionId c
  -- the working copy is what the execution changes in between
  dialog : hist.Pairwise fun c p => ∀ prepared working,
    c.dialogAttempt? = some { prepared with workingCopy := working } → c.committed?.isSome →
    p.dialogPrepared? = some prepared → DialogReplaced jsonbEq prepared p c
  raised : ∀ e ∈ hist, ∀ error, e.result = .committed (.error error) → e.after = e.before
  abortedCanvas : ∀ e ∈ hist, ∀ prepared refused, e.call = .abortCanvas prepared refused →
    Undone prepared.publicSessionId e
  abortedDialog : ∀ e ∈ hist, ∀ prepared, e.call = .abortDialog prepared → e.after = e.before

/-- Where the row that a Canvas commit meets still has the fingerprint of its prepare, it also
    has the columns that the fingerprint leaves out. -/
def UncoveredKept (c p : Entry) : Prop :=
  ∀ prepared ∈ c.canvasAttempt?, p.canvasPrepared? = some prepared →
    ∀ sessionId ∈ prepared.publicSessionId, ∀ source ∈ p.before.canvas.get? sessionId,
      ∀ row ∈ c.before.canvas.get? sessionId,
        row.fingerprint = source.fingerprint → row.uncovered = source.uncovered

instance (c p : Entry) : Decidable (UncoveredKept c p) :=
  inferInstanceAs (Decidable (∀ prepared ∈ c.canvasAttempt?, p.canvasPrepared? = some prepared →
    ∀ sessionId ∈ prepared.publicSessionId, ∀ source ∈ p.before.canvas.get? sessionId,
      ∀ row ∈ c.before.canvas.get? sessionId,
        row.fingerprint = source.fingerprint → row.uncovered = source.uncovered))

variable {stripReasoning : String → String} {loads : String → Option Json}
  {jsonbEq : Json → Json → Bool} {sessionId : String}

theorem lockedOne_eq_ok {row : API4Conversation} :
    s.lockedOne sessionId = .ok row ↔ s.canvas.get? sessionId = some row := by
  unfold HistoryStore.lockedOne
  split
  · next hrow => simp [hrow]
  · next hnone => simp [hnone]

variable {candidateId : String} {metadata : ChannelCanvasCandidate}

theorem lockedCandidateMetadata_ok {ownerToken : String}
    (h : s.lockedCandidateMetadata candidateId ownerToken = .ok metadata) :
    metadata ∈ s.candidates ∧ metadata.candidateSessionId = candidateId ∧
      metadata.ownerToken = ownerToken := by
  unfold HistoryStore.lockedCandidateMetadata at h
  split at h
  · next row hrow =>
    cases h
    have hkeys := find?_some hrow
    exact ⟨mem_of_find?_eq_some hrow, by simpa using hkeys⟩
  · cases h

variable {refused : Bool}

theorem finish_eq_ok {value value' : α} (h : finish refused value s = .ok (value', s')) :
    value' = value ∧ s' = s := by
  cases refused with
  | true => cases h
  | false =>
    simp only [finish, Bool.false_eq_true, if_false, Except.ok.injEq, Prod.mk.injEq] at h
    exact ⟨h.1.symm, h.2.symm⟩

variable {prepared : PreparedCanvasExecution}

theorem prepareCanvas_source {args : PrepareCanvas}
    (h : prepareCanvas stripReasoning loads args s = .ok (prepared, s'))
    (hpublic : prepared.publicSessionId = some sessionId) :
    ∃ source, s.canvas.get? sessionId = some source ∧
      prepared.sourceFingerprint = some source.fingerprint := by
  unfold prepareCanvas at h
  split at h
  · unfold prepareSession at h
    obtain ⟨source, hsource, h⟩ := bind_eq_ok.mp h
    obtain ⟨-, -, h⟩ := bind_eq_ok.mp h
    obtain ⟨messages, -, h⟩ := bind_eq_ok.mp h
    obtain ⟨dsl, -, h⟩ := bind_eq_ok.mp h
    obtain ⟨s₁, -, h⟩ := bind_eq_ok.mp h
    obtain ⟨s₂, -, h⟩ := bind_eq_ok.mp h
    obtain ⟨rfl, -⟩ := finish_eq_ok h
    obtain rfl := Option.some.inj hpublic
    exact ⟨source, lockedOne_eq_ok.mp hsource, rfl⟩
  · split at h
    · cases h
    · cases h
      cases hpublic

variable {candidate published : API4Conversation}

theorem publishExisting_ok {existing : API4Conversation}
    (h : publishExisting stripReasoning loads prepared candidate existing metadata = .ok published) :
    some existing.fingerprint = prepared.sourceFingerprint ∧ published.identity = existing.identity := by
  obtain ⟨-, -, h⟩ := bind_eq_ok.mp h
  obtain ⟨⟨⟩, hsame, h⟩ := bind_eq_ok.mp h
  obtain ⟨-, -, h⟩ := bind_eq_ok.mp h
  obtain ⟨dsl, -, h⟩ := bind_eq_ok.mp h
  cases h
  rw [require_eq_ok] at hsame
  exact ⟨hsame.2.trans hsame.1, rfl⟩

theorem publishNew_ok
    (h : publishNew stripReasoning loads prepared candidate metadata = .ok published) :
    metadata.publicSessionId = prepared.publicSessionId ∧
      metadata.publishUserId = some published.userId ∧ published.id = candidate.id := by
  obtain ⟨⟨⟩, hvalid, h⟩ := bind_eq_ok.mp h
  obtain ⟨-, -, h⟩ := bind_eq_ok.mp h
  obtain ⟨⟨⟩, huser, h⟩ := bind_eq_ok.mp h
  obtain ⟨dsl, -, h⟩ := bind_eq_ok.mp h
  cases h
  simp only [require_eq_ok, validCandidateMetadata, decide_eq_true_eq] at hvalid
  rw [require_eq_ok] at huser
  exact ⟨hvalid.2.2.2.1, huser, rfl⟩

variable {returned : String}

section

variable (h : commitLocked stripReasoning loads prepared candidateId refused s = .ok (returned, s'))
include h

theorem commitLocked_session
    (hpublic : prepared.publicSessionId = some sessionId) :
    ∃ row metadata published, s.canvas.get? sessionId = some row ∧
      some row.fingerprint = prepared.sourceFingerprint ∧ metadata ∈ s.candidates ∧
      metadata.candidateSessionId = candidateId ∧ published.identity = row.identity ∧
      s' = { s with
        canvas := s.canvas.put published
        candidates := s.candidates.delete metadata.id }.deleteCanvas candidateId := by
  unfold commitLocked at h
  obtain ⟨candidate, -, h⟩ := bind_eq_ok.mp h
  rw [hpublic] at h
  obtain ⟨row, hrow, h⟩ := bind_eq_ok.mp h
  obtain ⟨metadata, hmeta, h⟩ := bind_eq_ok.mp h
  obtain ⟨published, hpublished, h⟩ := bind_eq_ok.mp h
  obtain ⟨-, rfl⟩ := finish_eq_ok h
  have hget := lockedOne_eq_ok.mp hrow
  obtain ⟨hmem, hsess, -⟩ := lockedCandidateMetadata_ok hmeta
  obtain ⟨hfingerprint, hident⟩ := publishExisting_ok hpublished
  exact ⟨row, metadata, published, hget, hfingerprint, hmem, hsess, hident, rfl⟩

theorem commitLocked_new
    (hpublic : prepared.publicSessionId = none) :
    ∃ candidate metadata published, returned = candidateId ∧
      s.canvas.get? candidateId = some candidate ∧ metadata ∈ s.candidates ∧
      metadata.candidateSessionId = candidateId ∧ metadata.ownerToken = prepared.ownerToken ∧
      publishNew stripReasoning loads prepared candidate metadata = .ok published ∧
      s' = { s with canvas := s.canvas.put published, candidates := s.candidates.delete metadata.id } := by
  unfold commitLocked at h
  obtain ⟨candidate, hcand, h⟩ := bind_eq_ok.mp h
  rw [hpublic] at h
  obtain ⟨metadata, hmeta, h⟩ := bind_eq_ok.mp h
  obtain ⟨published, hpublished, h⟩ := bind_eq_ok.mp h
  obtain ⟨rfl, rfl⟩ := finish_eq_ok h
  obtain ⟨hmem, hsess, howner⟩ := lockedCandidateMetadata_ok hmeta
  exact ⟨candidate, metadata, published, rfl, lockedOne_eq_ok.mp hcand, hmem, hsess, howner,
    hpublished, rfl⟩

end

theorem commitCanvas_locked {generated : String}
    (h : commitCanvas stripReasoning loads prepared generated refused s = .ok (returned, s')) :
    commitLocked stripReasoning loads prepared generated refused s = .ok (returned, s') := by
  obtain ⟨⟨⟩, -, h⟩ := bind_eq_ok.mp h
  exact h

theorem abortLocked_cases (prepared : PreparedCanvasExecution) (candidateId : String)
    (refused : Bool) (s : HistoryStore) :
    abortLocked prepared candidateId refused s = s ∨
      ∃ metadata ∈ s.candidates, metadata.candidateSessionId = candidateId ∧
        (s.canvas.get? candidateId).isSome ∧ abortLocked prepared candidateId refused s =
          { s with candidates := s.candidates.delete metadata.id }.deleteCanvas candidateId := by
  unfold abortLocked
  split
  · exact .inl rfl
  · next hpresent =>
    split
    · exact .inl rfl
    · next metadata hmeta =>
      split
      · exact .inl rfl
      · obtain ⟨hmem, hsess, -⟩ := lockedCandidateMetadata_ok hmeta
        refine .inr ⟨metadata, hmem, hsess, ?_, rfl⟩
        exact Option.isSome_iff_ne_none.mpr fun hnone => hpresent (.inl (by simp [hnone]))

theorem abortCanvas_cases (prepared : PreparedCanvasExecution) (refused : Bool) (s : HistoryStore) :
    abortCanvas prepared refused s = s ∨
      ∃ metadata ∈ s.candidates, prepared.publicSessionId ≠ some metadata.candidateSessionId ∧
        (abortCanvas prepared refused s).canvas = s.canvas.delete metadata.candidateSessionId ∧
        (abortCanvas prepared refused s).dialogs = s.dialogs := by
  unfold abortCanvas
  split
  · exact .inl rfl
  · next candidateId hfound =>
    rcases abortLocked_cases prepared candidateId refused s with hsame | ⟨metadata, hmem, hsess, -, heq⟩
    · exact .inl hsame
    · have hchecks := (Option.filter_eq_some_iff.mp hfound).2
      simp only [decide_eq_true_eq] at hchecks
      rw [heq]
      exact .inr ⟨metadata, hmem, hsess ▸ hchecks.1, hsess ▸ rfl, rfl⟩

theorem prepareDialog_source {args : PrepareDialog} {prepared : PreparedDialogExecution}
    (h : prepareDialog stripReasoning args s = .ok prepared) (hhead : prepared.expectedHead.isSome) :
    ∃ source, s.dialogs.get? prepared.publicSessionId = some source ∧
      prepared.expectedHead = some ⟨source.message, source.reference, source.userId⟩ ∧
      source.dialogId = prepared.targetId := by
  unfold prepareDialog at h
  split at h
  · split at h
    · cases h
    · cases h
      cases hhead
  · split at h
    · cases h
    · next source hsource =>
      obtain ⟨⟨⟩, hchecked, h⟩ := bind_eq_ok.mp h
      obtain ⟨messages, -, h⟩ := bind_eq_ok.mp h
      cases h
      rw [require_eq_ok] at hchecked
      exact ⟨source, (key_of_get? hsource).symm ▸ hsource, rfl, hchecked.1⟩

theorem writeDialog_some {prepared : PreparedDialogExecution} {messages : List Message}
    {dialogs : Table Conversation Conversation.id}
    (h : writeDialog jsonbEq prepared messages s = some dialogs) :
    (∀ expected, prepared.expectedHead = some expected →
      ∃ row, s.dialogs.get? prepared.publicSessionId = some row ∧
        matchesHead jsonbEq prepared expected row = true) ∧
    (prepared.expectedHead = none → s.dialogs.get? prepared.publicSessionId = none) ∧
    ∀ k, k ≠ prepared.publicSessionId → dialogs.get? k = s.dialogs.get? k := by
  unfold writeDialog at h
  split at h
  · next hnone =>
    refine ⟨by simp [hnone], fun _ => get?_eq_none.mpr (fresh_of_insert? h), ?_⟩
    exact fun k hk => Table.get?_insert?_of_ne h hk
  · next expected hsome =>
    split at h
    · cases h
    · next row hrow =>
      split at h
      · next hmatch =>
        cases h
        refine ⟨?_, by simp [hsome], fun k hk => get?_put_of_ne ?_⟩
        · intro expected' heq
          rw [hsome, Option.some.injEq] at heq
          exact ⟨row, hrow, heq ▸ hmatch⟩
        · exact fun heq => hk (heq.trans (show row.id = _ from key_of_get? hrow))
      · cases h

theorem commitDialog_ok {prepared : PreparedDialogExecution}
    (h : commitDialog stripReasoning jsonbEq prepared refused s = .ok (returned, s')) :
    ∃ messages dialogs, prepared.workingCopy.dialogId = prepared.targetId ∧
      writeDialog jsonbEq prepared messages s = some dialogs ∧ s' = { s with dialogs } := by
  unfold commitDialog at h
  obtain ⟨⟨⟩, hchecked, h⟩ := bind_eq_ok.mp h
  obtain ⟨-, -, h⟩ := bind_eq_ok.mp h
  rw [require_eq_ok] at hchecked
  split at h
  · cases h
  · next dialogs hwrite =>
    obtain ⟨-, rfl⟩ := finish_eq_ok h
    exact ⟨_, dialogs, hchecked.2, hwrite, rfl⟩

variable {p c e : Entry}

theorem committed_settle
    {result : Except HistoryError (String × HistoryStore)}
    (hserve : .committed (settle s result).1 = e.result ∧ (settle s result).2 = e.after)
    (hok : e.committed? = some returned) : result = .ok (returned, e.after) := by
  rw [Entry.committed?, ← hserve.1] at hok
  cases hsettled : (settle s result).1 with
  | error error =>
    rw [hsettled] at hok
    cases hok
  | ok sessionId =>
    rw [hsettled] at hok
    cases hok
    exact settle_ok (Prod.ext hsettled hserve.2)

theorem step_commitCanvas (h : Step stripReasoning loads jsonbEq c.before c c.after)
    (hatt : c.canvasAttempt? = some prepared) (hok : c.committed? = some returned) :
    ∃ generated refused, commitCanvas stripReasoning loads prepared generated refused c.before =
      .ok (returned, c.after) := by
  obtain ⟨-, -, hserve⟩ := h
  unfold Entry.canvasAttempt? at hatt
  split at hatt
  · next prepared generated refused hcall =>
    cases hatt
    simp only [hcall, serve, Prod.mk.injEq] at hserve
    exact ⟨generated, refused, committed_settle hserve hok⟩
  · cases hatt

theorem step_prepareCanvas (h : Step stripReasoning loads jsonbEq p.before p p.after)
    (hok : p.canvasPrepared? = some prepared) :
    ∃ args s', prepareCanvas stripReasoning loads args p.before = .ok (prepared, s') := by
  obtain ⟨-, -, hserve⟩ := h
  unfold Entry.canvasPrepared? at hok
  split at hok
  · next hresult =>
    cases hok
    rw [hresult] at hserve
    cases hcall : p.call with
    | prepareCanvas args =>
      simp only [hcall, serve, Prod.mk.injEq, HistoryResult.canvasPrepared.injEq] at hserve
      exact ⟨args, p.after, settle_ok (Prod.ext hserve.1 hserve.2)⟩
    | _ => simp [hcall, serve] at hserve
  · cases hok

theorem step_commitDialog (h : Step stripReasoning loads jsonbEq c.before c c.after)
    {prepared : PreparedDialogExecution} (hatt : c.dialogAttempt? = some prepared)
    (hok : c.committed? = some returned) :
    ∃ refused, commitDialog stripReasoning jsonbEq prepared refused c.before =
      .ok (returned, c.after) := by
  obtain ⟨-, -, hserve⟩ := h
  unfold Entry.dialogAttempt? at hatt
  split at hatt
  · next prepared refused hcall =>
    cases hatt
    simp only [hcall, serve, Prod.mk.injEq] at hserve
    exact ⟨refused, committed_settle hserve hok⟩
  · cases hatt

theorem step_prepareDialog (h : Step stripReasoning loads jsonbEq p.before p p.after)
    {prepared : PreparedDialogExecution} (hok : p.dialogPrepared? = some prepared) :
    ∃ args, prepareDialog stripReasoning args p.before = .ok prepared := by
  obtain ⟨-, -, hserve⟩ := h
  unfold Entry.dialogPrepared? at hok
  split at hok
  · next hresult =>
    cases hok
    rw [hresult] at hserve
    cases hcall : p.call with
    | prepareDialog args =>
      simp only [hcall, serve, Prod.mk.injEq, HistoryResult.dialogPrepared.injEq] at hserve
      exact ⟨args, hserve.1⟩
    | _ => simp [hcall, serve] at hserve
  · cases hok

theorem step_raised (h : Step stripReasoning loads jsonbEq e.before e e.after)
    (herror : e.result = .committed (.error error)) : e.after = e.before := by
  obtain ⟨-, -, hserve⟩ := h
  rw [herror] at hserve
  cases hcall : e.call with
  | commitCanvas prepared generated refused | commitDialog prepared refused =>
    simp only [hcall, serve, Prod.mk.injEq, HistoryResult.committed.injEq] at hserve
    exact settle_error (Prod.ext hserve.1 hserve.2)
  | _ => simp [hcall, serve] at hserve

theorem canvas_replaced (hp : Step stripReasoning loads jsonbEq p.before p p.after)
    (hc : Step stripReasoning loads jsonbEq c.before c c.after) (hkept : UncoveredKept c p)
    (hatt : c.canvasAttempt? = some prepared) (hok : c.committed?.isSome)
    (hprepared : p.canvasPrepared? = some prepared)
    (hpublic : prepared.publicSessionId = some sessionId) : CanvasReplaced sessionId p c := by
  obtain ⟨returned, hreturned⟩ := Option.isSome_iff_exists.mp hok
  obtain ⟨generated, refused, hcommit⟩ := step_commitCanvas hc hatt hreturned
  obtain ⟨args, s', hprepare⟩ := step_prepareCanvas hp hprepared
  obtain ⟨source, hsource, hexpected⟩ := prepareCanvas_source hprepare hpublic
  obtain ⟨row, metadata, published, hrow, hfingerprint, hmeta, hcand, hident, hafter⟩ :=
    commitLocked_session (commitCanvas_locked hcommit) hpublic
  have hsame : row.fingerprint = source.fingerprint :=
    Option.some.inj (hfingerprint.trans hexpected)
  have huncovered := hkept prepared hatt hprepared sessionId hpublic source hsource row hrow hsame
  refine ⟨⟨source, row, hsource, hrow, hsame, overwritten_of_fingerprint hsame huncovered⟩, ?_, by rw [hafter]; rfl⟩
  intro k hk hpublic'
  have hother : generated ≠ k := fun heq => hpublic' metadata hmeta (hcand.trans heq)
  have hrowId : row.id = sessionId := key_of_get? hrow
  have hid : published.id = sessionId := (congrArg Prod.fst hident).trans hrowId
  rw [hafter, HistoryStore.deleteCanvas, get?_delete, if_neg hother,
    get?_put_of_ne (hid.symm ▸ hk)]

theorem canvas_published (hc : Step stripReasoning loads jsonbEq c.before c c.after)
    (hatt : c.canvasAttempt? = some prepared) (hok : c.committed? = some sessionId)
    (hpublic : prepared.publicSessionId = none) : CanvasPublished prepared sessionId c := by
  obtain ⟨generated, refused, hcommit⟩ := step_commitCanvas hc hatt hok
  obtain ⟨candidate, metadata, published, rfl, hget, hmeta, hcand, howner, hpublished, hafter⟩ :=
    commitLocked_new (commitCanvas_locked hcommit) hpublic
  obtain ⟨hnone, -, hid⟩ := publishNew_ok hpublished
  have hkey : published.id = sessionId := hid.trans (key_of_get? hget)
  refine ⟨⟨metadata, hmeta, hcand, howner, hnone.trans hpublic⟩, fun k hk => ?_, by rw [hafter]⟩
  rw [hafter, get?_put_of_ne (hkey.symm ▸ hk)]

theorem dialog_replaced (hp : Step stripReasoning loads jsonbEq p.before p p.after)
    (hc : Step stripReasoning loads jsonbEq c.before c c.after)
    {prepared : PreparedDialogExecution} {working : DialogWorkingCopy}
    (hatt : c.dialogAttempt? = some { prepared with workingCopy := working })
    (hok : c.committed?.isSome) (hprepared : p.dialogPrepared? = some prepared) :
    DialogReplaced jsonbEq prepared p c := by
  obtain ⟨returned, hreturned⟩ := Option.isSome_iff_exists.mp hok
  obtain ⟨refused, hcommit⟩ := step_commitDialog hc hatt hreturned
  obtain ⟨args, hprepare⟩ := step_prepareDialog hp hprepared
  obtain ⟨messages, dialogs, htarget, hwrite, hafter⟩ := commitDialog_ok hcommit
  obtain ⟨hmatched, hnew, hothers⟩ := writeDialog_some hwrite
  refine ⟨?_, hnew, fun k hk => ?_, by rw [hafter]⟩
  · intro hhead
    obtain ⟨source, hsource, hexpected, hdialogId⟩ := prepareDialog_source hprepare hhead
    obtain ⟨row, hrow, hmatch⟩ := hmatched _ hexpected
    simp only [matchesHead, Bool.and_eq_true, decide_eq_true_eq] at hmatch
    obtain ⟨⟨⟨hrowDialog, hmsg⟩, hreference⟩, huser⟩ := hmatch
    exact ⟨source, row, hsource, hrow, hmsg, hreference,
      hrowDialog.trans (htarget.trans hdialogId.symm), huser⟩
  · rw [hafter]
    exact hothers k hk

theorem canvas_undone (he : Step stripReasoning loads jsonbEq e.before e e.after)
    (hcall : e.call = .abortCanvas prepared refused) : Undone prepared.publicSessionId e := by
  obtain ⟨-, -, hserve⟩ := he
  simp only [hcall, serve, Prod.mk.injEq] at hserve
  have hcases := abortCanvas_cases prepared refused e.before
  rw [hserve.2] at hcases
  rcases hcases with hsame | ⟨metadata, hmeta, hother, hcanvas, hdialogs⟩
  · exact ⟨fun _ _ => by rw [hsame], fun _ _ => by rw [hsame], by rw [hsame]⟩
  · refine ⟨fun k hk => ?_, fun k hk => ?_, hdialogs⟩
    · rw [hcanvas, get?_delete, if_neg]
      rintro rfl
      exact hother hk
    · rw [hcanvas, get?_delete, if_neg (hk metadata hmeta)]

/-- In a run in which no Canvas commit meets a row that was changed in the columns its
    fingerprint leaves out, and only there, no update is lost. -/
theorem no_update_lost {s₀ s : HistoryStore} {hist : List Entry}
    (hrun : Run (Step stripReasoning loads jsonbEq) s₀ hist s)
    (hkept : hist.Pairwise UncoveredKept) : NoUpdateLost jsonbEq hist where
  canvas := by
    refine hkept.imp_of_mem fun hc hp hkept prepared sessionId hattempt hok hprepared hpublic => ?_
    exact canvas_replaced (step_of_mem hrun hp) (step_of_mem hrun hc) hkept hattempt hok hprepared hpublic
  canvasNew c hc prepared sessionId hattempt hok hpublic :=
    canvas_published (step_of_mem hrun hc) hattempt hok hpublic
  dialog := by
    refine hkept.imp_of_mem fun hc hp _ prepared working hattempt hok hprepared => ?_
    exact dialog_replaced (step_of_mem hrun hp) (step_of_mem hrun hc) hattempt hok hprepared
  raised e he error herror := step_raised (step_of_mem hrun he) herror
  abortedCanvas e he prepared refused hcall := canvas_undone (step_of_mem hrun he) hcall
  abortedDialog e he prepared hcall := by
    obtain ⟨-, -, hserve⟩ := step_of_mem hrun he
    simp only [hcall, serve, Prod.mk.injEq] at hserve
    exact hserve.2.symm

def publicRow : API4Conversation :=
  { id := "p", name := some "chat", dialogId := "t", userId := "u", expUserId := none,
    message := some [], reference := none, tokens := 0, source := some "agent",
    dsl := some (.obj []), duration := 0, round := 0, thumbUp := 0, errors := none,
    versionTitle := none }

def publicDialog : Conversation := ⟨"d", "t", none, some [], some [], none⟩

def sampleStore : HistoryStore :=
  ⟨Table.single publicRow, Table.empty, Table.single publicDialog⟩

def performSample : HistoryCall → HistoryStore → Entry × HistoryStore :=
  perform id (fun _ => none) fun a b => decide (a = b)

theorem run_sample (calls : List HistoryCall) (s : HistoryStore) :
    Run (Step id (fun _ => none) fun a b => decide (a = b)) s (execute performSample calls [] s).1
      (execute performSample calls [] s).2 :=
  execute_steps Run.nil (allowed_true performSample calls s) fun call s _ =>
    perform_step id (fun _ => none) (fun a b => decide (a = b)) call s

def prepareArgs (ownerToken candidateId : String) : PrepareCanvas :=
  ⟨"t", some "p", "hi", .generate, some "u", ownerToken, candidateId, candidateId, 0, false⟩

def prepareAs (ownerToken candidateId : String) : HistoryCall :=
  .prepareCanvas (prepareArgs ownerToken candidateId)

def preparedAs (ownerToken candidateId : String) : PreparedCanvasExecution :=
  ⟨some "p", some candidateId, some publicRow.fingerprint, ownerToken, "t", "u"⟩

def reply : List Message := [[("content", .str "hello"), ("role", .str "assistant")]]

def answered (candidateId : String) (s : HistoryStore) : HistoryCall :=
  match s.canvas.get? candidateId with
  | some row => .write { s with canvas := s.canvas.put { row with message := some reply } }
  | none => .write s

def rated (s : HistoryStore) : HistoryCall :=
  .write { s with canvas := s.canvas.put { publicRow with thumbUp := 1 } }

def dialogCalls : List HistoryCall :=
  [.prepareDialog ⟨"t", some "d", "hi", .generate, none, ""⟩,
    .commitDialog ⟨"d", "t", some ⟨some [], some [], none⟩, ⟨"d", "t", "New session", reply, [], none⟩⟩ false]

/-- Two executions of one conversation: the first commits, the second meets its answer. -/
def competing : List HistoryCall :=
  let prepares := [prepareAs "o1" "c1", prepareAs "o2" "c2"]
  let s := (execute performSample prepares [] sampleStore).2
  prepares ++ [answered "c1" s, .commitCanvas (preparedAs "o1" "c1") "c1" false,
    .commitCanvas (preparedAs "o2" "c2") "c2" false, .abortCanvas (preparedAs "o2" "c2") false] ++
    dialogCalls

theorem no_update_lost_sample :
    NoUpdateLost (fun a b => decide (a = b)) (execute performSample competing [] sampleStore).1 :=
  no_update_lost (run_sample competing sampleStore) (by decide +kernel)

def ratedMeanwhile : List HistoryCall :=
  let s := (execute performSample [prepareAs "o1" "c1"] [] sampleStore).2
  let s' := (execute performSample [answered "c1" s] [] s).2
  [prepareAs "o1" "c1", answered "c1" s, rated s', .commitCanvas (preparedAs "o1" "c1") "c1" false]

theorem rating_lost :
    ∃ hist s, Run (Step id (fun _ => none) fun a b => decide (a = b)) sampleStore hist s ∧
      ¬ NoUpdateLost (fun a b => decide (a = b)) hist := by
  refine ⟨_, _, run_sample ratedMeanwhile sampleStore, fun h => ?_⟩
  have hreplaced := rel_of_pairwise_cons h.canvas (mem_of_getElem? (i := 2) rfl)
    (preparedAs "o1" "c1") "p" rfl rfl rfl rfl
  exact absurd hreplaced.overwritten (by decide +kernel)

end MultiRag.History
