/-
  **One Feishu reply** (`api/channels/feishu/reply.py`).

  A session streams its text into a card: `append` and `replace` buffer it, a background task
  flushes the latest snapshot. One of `complete`, `fail` and `cancel` closes the session and writes
  the terminal text, into the card or as a reply of its own. `Provider` is what the other side has
  seen of it: a call that fails changes nothing there.
-/
import MultiRag.Run

namespace MultiRag.Feishu

/-! ### The session -/

inductive ReplySessionState where
  | opened | awaitingInput | completed | failed | cancelled
deriving DecidableEq

def ReplySessionState.value : ReplySessionState → String
  | .opened => "open"
  | .awaitingInput => "awaiting_input"
  | .completed => "completed"
  | .failed => "failed"
  | .cancelled => "cancelled"

inductive ReplyStatus where
  | queued | running | awaitingInput | final | error | cancelled
deriving DecidableEq

/-- The sequenced calls for a card.  The status line, the summary and the buttons of
    a lifecycle patch are functions of the status and the queue position. -/
inductive CardCall where
  | updateCardText (content : String)
  | batchUpdateCard (status : ReplyStatus) (queuePosition : Int)
  | finishStreamingCard

inductive MessageType where
  | post | text

/-- `_flush_task`: none or done, in its sleep, or waiting for an update. -/
inductive FlushTask where
  | idle
  | sleeping
  | updating (rendered : String)
deriving DecidableEq

def serviceUnavailableText : String := "服务暂时不可用，请稍后再试。"

def cancelledText : String := "已停止生成。若此前已发起外部操作，其结果不视为已撤销。"

/-- A terminal call that has closed the session and not written its text yet. -/
inductive Terminal where
  | complete (answer : String)
  | fail (errorCode : String)
  | cancel
deriving DecidableEq

def Terminal.text : Terminal → String
  | .complete answer => answer
  | .fail _ => serviceUnavailableText
  | .cancel => cancelledText

/-- `strip_reasoning`, and `_truncate_utf8` of `render_markdown`; neither fixed text
    renders to nothing. -/
structure Renderer where
  stripReasoning : String → String
  render : String → String
  unavailable_shown : render serviceUnavailableText ≠ ""
  cancelled_shown : render cancelledText ≠ ""

/-- The fields of `FeishuProgressiveReplySession`.  A created card has an id: the
    transport refuses a response without one. -/
structure FeishuProgressiveReplySession where
  parts : List String := []
  state : ReplySessionState := .opened
  replyStatus : ReplyStatus
  queuePosition : Int
  /-- `_card_id` is set. -/
  cardId : Bool
  cardVisible : Bool
  cardActive : Bool
  sequence : Nat := 0
  lastRendered : String := ""
  flushTask : FlushTask := .idle
  terminalFlushRequested : Bool := false

/-- What the provider has received: the calls for the card in the order of their
    issue (newest first), the text of the card once an update has succeeded, and the
    replies, by the text they render. -/
structure Provider where
  sent : List (Nat × CardCall) := []
  cardText : Option String := none
  replies : List (MessageType × String) := []

structure Reply extends FeishuProgressiveReplySession, Provider where
  pending : Option Terminal := none
  /-- The outcomes of the calls that carried the terminal text. -/
  attempts : List Bool := []

namespace Reply

def begin (status : ReplyStatus) (queuePosition : Int) (created replied : Bool) : Reply where
  replyStatus := status
  queuePosition := queuePosition
  cardId := created
  cardVisible := created && replied
  cardActive := created && replied

def issue (call : CardCall) (r : Reply) : Reply :=
  { r with sequence := r.sequence + 1, sent := (r.sequence + 1, call) :: r.sent }

def shown (rendered : String) (r : Reply) : Reply :=
  { r with lastRendered := rendered, cardText := some rendered }

def attempt (ok : Bool) (r : Reply) : Reply := { r with attempts := ok :: r.attempts }

def whileOpen (operation : String) (next : Reply → Except String Reply) (r : Reply) :
    Except String Reply :=
  if r.state = .opened then next r
  else .error ("cannot " ++ operation ++ " a " ++ r.state.value ++ " reply")

def scheduleCardUpdate (r : Reply) : Reply :=
  if r.terminalFlushRequested then r
  else if r.flushTask = .idle then { r with flushTask := .sleeping }
  else r

def append (content : String) : Reply → Except String Reply :=
  whileOpen "append" fun r =>
    let buffered := { r with parts := r.parts ++ [content] }
    .ok (if content = "" ∨ r.cardActive = false then buffered else buffered.scheduleCardUpdate)

def replace (content : String) : Reply → Except String Reply :=
  whileOpen "replace" fun r => .ok { r with parts := [content] }

/-- `set_status`.  Whether the patch succeeds makes no difference to the session. -/
def setStatus (status : ReplyStatus) (queuePosition : Int) : Reply → Except String Reply :=
  whileOpen "set status" fun r =>
    if status ≠ .queued ∧ status ≠ .running then
      .error "only non-terminal reply status can be set directly"
    else if status = r.replyStatus then .ok r
    else
      let changed := { r with replyStatus := status, queuePosition := queuePosition }
      .ok (if r.cardActive then changed.issue (.batchUpdateCard status queuePosition) else changed)

/-- A terminal call up to the wait of `_drain_card_update`: a sleeping flush is
    cancelled, one in flight is waited for. -/
def close (state : ReplySessionState) (terminal : Terminal) (r : Reply) : Reply :=
  { r with
    state := state
    terminalFlushRequested := true
    pending := some terminal
    flushTask := if r.flushTask = .sleeping then .idle else r.flushTask }

variable (R : Renderer)

def complete : Reply → Except String Reply :=
  whileOpen "complete" fun r =>
    .ok (r.close .completed (.complete (R.stripReasoning (String.join r.parts))))

def fail (errorCode : String) : Reply → Except String Reply :=
  whileOpen "fail" fun r =>
    if errorCode = "" then .error "reply failure code must not be empty"
    else .ok (r.close .failed (.fail errorCode))

def cancel : Reply → Except String Reply :=
  whileOpen "cancel" fun r =>
    .ok ({ r with replyStatus := .cancelled }.close .cancelled .cancel)

/-! ### The flush task -/

def renderedAnswer (r : Reply) : String := R.render (String.join r.parts)

/-- The end of a round of `_flush_latest`. -/
def flushAgain (r : Reply) : Reply :=
  if r.terminalFlushRequested ∨ r.renderedAnswer R = r.lastRendered then { r with flushTask := .idle }
  else { r with flushTask := .sleeping }

/-- `_flush_latest` after its sleep, up to the update it waits for. -/
def flushWake (r : Reply) : Option Reply :=
  if r.flushTask = .sleeping then
    some
      (if r.cardActive = false ∨ r.terminalFlushRequested then { r with flushTask := .idle }
      else if r.renderedAnswer R = "" ∨ r.renderedAnswer R = r.lastRendered then r.flushAgain R
      else
        { r with flushTask := .updating (r.renderedAnswer R) }.issue
          (.updateCardText (r.renderedAnswer R)))
  else none

def flushResult (ok : Bool) (r : Reply) : Option Reply :=
  match r.flushTask with
  | .updating rendered =>
      some (if ok then (r.shown rendered).flushAgain R
        else { r with flushTask := .idle, cardActive := false })
  | _ => none

/-! ### Terminal calls -/

structure Results where
  update : Bool
  finish : Bool
  lifecycle : Bool
  post : Bool
  text : Bool

/-- `_patch_answer` makes a call. -/
def patches (text : String) (r : Reply) : Bool :=
  r.cardActive && r.cardId && R.render text != "" && R.render text != r.lastRendered

def patchAnswer (text : String) (ok : Bool) (r : Reply) : Reply × Bool :=
  if r.patches R text then
    let called := (r.issue (.updateCardText (R.render text))).attempt ok
    if ok then (called.shown (R.render text), true) else (called, false)
  else (r, true)

def finishCard (ok : Bool) (r : Reply) : Reply × Bool :=
  if r.cardId then
    let called := r.issue .finishStreamingCard
    if ok then ({ called with cardActive := false }, true) else (called, false)
  else (r, true)

def patchLifecycle (status : ReplyStatus) (ok : Bool) (r : Reply) : Reply × Bool :=
  if r.cardId then (r.issue (.batchUpdateCard status 0), ok) else (r, true)

def replyContent (messageType : MessageType) (text : String) (ok : Bool) (r : Reply) : Reply :=
  if ok then { r.attempt true with replies := (messageType, text) :: r.replies } else r.attempt false

def fallback (text : String) (results : Results) (r : Reply) : Reply :=
  if results.post then r.replyContent .post text true
  else (r.replyContent .post text false).replyContent .text text results.text

def deactivate (r : Reply) : Reply := { r with cardActive := false }

/-- `complete` after the wait.  An empty answer raises. -/
def writeAnswer (answer : String) (results : Results) (r : Reply) : Reply :=
  if answer = "" then r
  else if r.cardActive then
    match r.patchAnswer R answer results.update with
    | (r₁, false) => r₁.deactivate.fallback answer results
    | (r₁, true) =>
        match r₁.finishCard results.finish with
        -- the answer is visible: a reply would deliver it twice
        | (r₂, false) => r₂
        | (r₂, true) => (r₂.patchLifecycle .final results.lifecycle).1
  else r.fallback answer results

/-- The three card calls of `fail` and `cancel`; the first exception ends them. -/
def replaceCard (text : String) (status : ReplyStatus) (results : Results) (r : Reply) : Reply × Bool :=
  match r.patchAnswer R text results.update with
  | (r₁, false) => (r₁, false)
  | (r₁, true) =>
      match r₁.finishCard results.finish with
      | (r₂, false) => (r₂, false)
      | (r₂, true) => r₂.patchLifecycle status results.lifecycle

/-- `fail` and `cancel` after the wait. -/
def writeNotice (text : String) (status : ReplyStatus) (results : Results) (r : Reply) : Reply :=
  let cleared := { r with parts := [] }
  if r.cardActive then
    match cleared.replaceCard R text status results with
    | (r₁, true) => r₁
    | (r₁, false) => r₁.deactivate.fallback text results
  else cleared.fallback text results

def write : Terminal → Results → Reply → Reply
  | .complete answer => writeAnswer R answer
  | .fail _ => writeNotice R serviceUnavailableText .error
  | .cancel => writeNotice R cancelledText .cancelled

def deliver (results : Results) (r : Reply) : Option Reply :=
  match r.pending, r.flushTask with
  | _, .updating _ => none
  | none, _ => none
  | some terminal, _ => some (write R terminal results { r with pending := none, flushTask := .idle })

/-! ### Runs -/

inductive Action where
  | append (content : String)
  | replace (content : String)
  | setStatus (status : ReplyStatus) (queuePosition : Int)
  | complete
  | fail (errorCode : String)
  | cancel
  | flushWake
  | flushResult (ok : Bool)
  | deliver (results : Results)

def afterCall (r : Reply) : Except String Reply → Reply
  | .ok r' => r'
  | .error _ => r

/-- What an action does; `none` where it cannot happen. -/
def perform : Action → Reply → Option Reply
  | .append content, r => some (r.afterCall (r.append content))
  | .replace content, r => some (r.afterCall (r.replace content))
  | .setStatus status queuePosition, r => some (r.afterCall (r.setStatus status queuePosition))
  | .complete, r => some (r.afterCall (r.complete R))
  | .fail errorCode, r => some (r.afterCall (r.fail errorCode))
  | .cancel, r => some (r.afterCall r.cancel)
  | .flushWake, r => r.flushWake R
  | .flushResult ok, r => r.flushResult R ok
  | .deliver results, r => r.deliver R results

def Step (r : Reply) (a : Action) (r' : Reply) : Prop := r.perform R a = some r'

/-! ### What every run keeps -/

/-- The calls so far carry the numbers of a counter, in their order. -/
structure Ordered (r : Reply) : Prop where
  increasing : r.sent.Pairwise (fun later earlier => earlier.1 < later.1)
  issued : ∀ e ∈ r.sent, e.1 ≤ r.sequence

/-- The invariant of the runs: the card shows what the session takes it to show, and
    until a terminal call writes its text nobody else has. -/
structure Sound (r : Reply) : Prop where
  ordered : r.Ordered
  card : r.cardText = if r.lastRendered = "" then none else some r.lastRendered
  active : r.cardActive = true → r.cardId = true ∧ r.cardVisible = true
  updating : r.flushTask ≠ .updating ""
  requested : r.terminalFlushRequested = true ↔ r.state ≠ .opened
  drained : r.state ≠ .opened → r.flushTask ≠ .sleeping
  closed : r.pending ≠ none → r.state ≠ .opened
  silent : r.state = .opened ∨ r.pending ≠ none → r.replies = [] ∧ r.attempts = []

theorem sound_begin (status : ReplyStatus) (queuePosition : Int) (created replied : Bool) :
    (begin status queuePosition created replied).Sound where
  ordered := ⟨by simp [begin], by simp [begin]⟩
  card := by simp [begin]
  active := by simp [begin]
  updating := by simp [begin]
  requested := by simp [begin]
  drained := by simp [begin]
  closed := by simp [begin]
  silent := by simp [begin]

variable {r : Reply}

theorem Ordered.issue (h : r.Ordered) (call : CardCall) : (r.issue call).Ordered where
  increasing := by
    refine List.pairwise_cons.mpr ⟨fun e he => ?_, h.increasing⟩
    exact Nat.lt_succ_of_le (h.issued e he)
  issued e he := by
    rcases List.mem_cons.mp he with rfl | he
    · exact le_rfl
    · exact Nat.le_succ_of_le (h.issued e he)

theorem Sound.issue (h : r.Sound) (call : CardCall) : (r.issue call).Sound :=
  { h with ordered := h.ordered.issue call }

theorem Sound.flush (h : r.Sound) {task : FlushTask} (hupdating : task ≠ .updating "")
    (hdrained : r.state ≠ .opened → task ≠ .sleeping) : Sound { r with flushTask := task } :=
  { h with ordered := { h.ordered with }, updating := hupdating, drained := hdrained }

variable {rendered : String}

theorem Sound.shown (h : r.Sound) (hne : rendered ≠ "") :
    (r.shown rendered).Sound :=
  { h with ordered := { h.ordered with }, card := by simp [Reply.shown, hne] }

theorem Sound.buffer (h : r.Sound) (parts : List String) : Sound { r with parts := parts } :=
  { h with ordered := { h.ordered with } }

theorem Sound.status (h : r.Sound) (status : ReplyStatus) (queuePosition : Int) :
    Sound { r with replyStatus := status, queuePosition := queuePosition } :=
  { h with ordered := { h.ordered with } }

theorem Sound.scheduleCardUpdate (h : r.Sound) : r.scheduleCardUpdate.Sound := by
  unfold Reply.scheduleCardUpdate
  split
  · exact h
  · next hasked =>
    split
    · refine h.flush (by simp) fun hstate => ?_
      exact absurd (h.requested.mpr hstate) hasked
    · exact h

theorem Sound.close (h : r.Sound) (hopen : r.state = .opened) {state : ReplySessionState}
    (hstate : state ≠ .opened) (terminal : Terminal) : (r.close state terminal).Sound := { h with
  ordered := { h.ordered with }
  updating := by
    dsimp only [Reply.close]
    split
    · simp
    · exact h.updating
  requested := by simp [Reply.close, hstate]
  drained _ := by
    dsimp only [Reply.close]
    split
    · simp
    · assumption
  closed _ := hstate
  silent _ := h.silent (.inl hopen) }

theorem Sound.whileOpen (h : r.Sound) {operation : String} {next : Reply → Except String Reply}
    (hnext : r.state = .opened → ∀ r', next r = .ok r' → r'.Sound) :
    (r.afterCall (Reply.whileOpen operation next r)).Sound := by
  unfold Reply.whileOpen
  split
  · next hopen =>
    cases hcall : next r with
    | ok r' => exact hnext hopen r' hcall
    | error => exact h
  · exact h

variable {R} {r r' : Reply}

theorem Sound.flushAgain (h : r.Sound) : (r.flushAgain R).Sound := by
  unfold Reply.flushAgain
  split
  · exact h.flush (by simp) (by simp)
  · next hgo =>
    refine h.flush (by simp) fun hstate => ?_
    exact absurd (.inl (h.requested.mpr hstate)) hgo

theorem Sound.flushWake (h : r.Sound) (hwake : r.flushWake R = some r') : r'.Sound := by
  unfold Reply.flushWake at hwake
  split at hwake
  · cases hwake
    split
    · exact h.flush (by simp) (by simp)
    · split
      · exact h.flushAgain
      · next hrendered =>
        apply Sound.issue
        exact h.flush (by simpa using fun hempty => hrendered (.inl hempty)) (by simp)
  · cases hwake

variable {ok : Bool}

theorem Sound.flushResult (h : r.Sound) (hresult : r.flushResult R ok = some r') :
    r'.Sound := by
  unfold Reply.flushResult at hresult
  split at hresult
  · next rendered htask =>
    have hne : rendered ≠ "" := by
      rintro rfl
      exact h.updating htask
    cases hresult
    split
    · exact (h.shown hne).flushAgain
    · refine ⟨⟨h.ordered.increasing, h.ordered.issued⟩, h.card, ?_, ?_, h.requested, ?_, h.closed, h.silent⟩
      all_goals simp
  · cases hresult

/-! ### The end of a terminal call -/

/-- The session is closed and nothing of it is left to run. -/
structure Ended (r : Reply) : Prop where
  sound : r.Sound
  state : r.state ≠ .opened
  pending : r.pending = none
  flushTask : r.flushTask = .idle

section

variable (h : r.Ended)
include h

theorem Ended.issue (call : CardCall) : (r.issue call).Ended :=
  ⟨h.sound.issue call, h.state, h.pending, h.flushTask⟩

theorem Ended.buffer (parts : List String) : Ended { r with parts := parts } :=
  ⟨h.sound.buffer parts, h.state, h.pending, h.flushTask⟩

theorem Ended.shown (hne : rendered ≠ "") : (r.shown rendered).Ended :=
  ⟨h.sound.shown hne, h.state, h.pending, h.flushTask⟩

theorem Ended.said (replies : List (MessageType × String)) (attempts : List Bool) :
    Ended { r with replies := replies, attempts := attempts } := { h with
  sound := { h.sound with
    ordered := { h.sound.ordered with }
    silent := by
      rintro (hopen | hpend)
      · exact absurd hopen h.state
      · exact absurd h.pending hpend } }

theorem Ended.deactivate : r.deactivate.Ended := { h with
  sound := { h.sound with ordered := { h.sound.ordered with }, active := by simp [Reply.deactivate] } }

theorem Ended.attempt (ok : Bool) : (r.attempt ok).Ended :=
  h.said r.replies (ok :: r.attempts)

theorem Ended.patchAnswer (text : String) (ok : Bool) :
    (r.patchAnswer R text ok).1.Ended := by
  unfold Reply.patchAnswer
  split
  · next hpatches =>
    have hcalled := (h.issue (.updateCardText (R.render text))).attempt ok
    cases ok with
    | true =>
      apply hcalled.shown
      simp only [Reply.patches, Bool.and_eq_true, bne_iff_ne] at hpatches
      exact hpatches.1.2
    | false => exact hcalled
  · exact h

theorem Ended.finishCard (ok : Bool) : (r.finishCard ok).1.Ended := by
  unfold Reply.finishCard
  split
  · cases ok with
    | true => exact (h.issue .finishStreamingCard).deactivate
    | false => exact h.issue .finishStreamingCard
  · exact h

theorem Ended.patchLifecycle (status : ReplyStatus) (ok : Bool) :
    (r.patchLifecycle status ok).1.Ended := by
  unfold Reply.patchLifecycle
  split
  · exact h.issue _
  · exact h

theorem Ended.replyContent (messageType : MessageType) (text : String) (ok : Bool) :
    (r.replyContent messageType text ok).Ended := by
  unfold Reply.replyContent
  split
  · exact h.said ((messageType, text) :: r.replies) (true :: r.attempts)
  · exact h.attempt false

theorem Ended.fallback (text : String) (results : Results) :
    (r.fallback text results).Ended := by
  unfold Reply.fallback
  split
  · apply h.replyContent
  · apply Ended.replyContent
    apply h.replyContent

theorem Ended.writeAnswer (answer : String) (results : Results) :
    (r.writeAnswer R answer results).Ended := by
  have hpatch := h.patchAnswer (R := R) answer results.update
  have hfinish := hpatch.finishCard results.finish
  unfold Reply.writeAnswer
  split
  · exact h
  · split
    · split
      · next heq =>
        rw [heq] at hpatch
        exact hpatch.deactivate.fallback answer results
      · next heq =>
        rw [heq] at hfinish
        split
        · next heq' =>
          rw [heq'] at hfinish
          exact hfinish
        · next heq' =>
          rw [heq'] at hfinish
          exact hfinish.patchLifecycle _ _
    · exact h.fallback answer results

theorem Ended.replaceCard (text : String) (status : ReplyStatus) (results : Results) :
    (r.replaceCard R text status results).1.Ended := by
  have hpatch := h.patchAnswer (R := R) text results.update
  have hfinish := hpatch.finishCard results.finish
  unfold Reply.replaceCard
  split
  · next heq =>
    rw [heq] at hpatch
    exact hpatch
  · next heq =>
    rw [heq] at hfinish
    split
    · next heq' =>
      rw [heq'] at hfinish
      exact hfinish
    · next heq' =>
      rw [heq'] at hfinish
      exact hfinish.patchLifecycle _ _

theorem Ended.writeNotice (text : String) (status : ReplyStatus) (results : Results) :
    (r.writeNotice R text status results).Ended := by
  have hcleared := h.buffer []
  have hcard := hcleared.replaceCard (R := R) text status results
  unfold Reply.writeNotice
  dsimp only
  split
  · split
    · next heq =>
      rw [heq] at hcard
      exact hcard
    · next heq =>
      rw [heq] at hcard
      exact hcard.deactivate.fallback text results
  · exact hcleared.fallback text results

theorem Ended.write (terminal : Terminal) (results : Results) :
    (r.write R terminal results).Ended := by
  cases terminal with
  | complete answer => exact h.writeAnswer answer results
  | fail errorCode => exact h.writeNotice _ _ results
  | cancel => exact h.writeNotice _ _ results

end

variable {results : Results}

theorem deliver_eq_some :
    r.deliver R results = some r' ↔
      ∃ terminal, r.pending = some terminal ∧ (∀ rendered, r.flushTask ≠ .updating rendered) ∧
        r' = write R terminal results { r with pending := none, flushTask := .idle } := by
  unfold deliver
  split
  · next htask => simp [htask]
  · next hpend _ => simp [hpend]
  · next terminal hpend htask =>
    simp only [hpend, Option.some.injEq, exists_eq_left']
    constructor
    · rintro rfl
      exact ⟨fun rendered hupdating => htask rendered hupdating, rfl⟩
    · rintro ⟨-, rfl⟩
      rfl

theorem Sound.ended (h : r.Sound) (hpend : r.pending ≠ none) :
    Ended { r with pending := none, flushTask := .idle } where
  sound := ⟨⟨h.ordered.increasing, h.ordered.issued⟩, h.card, h.active, by simp, h.requested, by simp,
    by simp, by simpa using fun hopen => absurd hopen (h.closed hpend)⟩
  state := h.closed hpend
  pending := rfl
  flushTask := rfl

theorem Sound.deliver (h : r.Sound) (hdeliver : r.deliver R results = some r') :
    r'.Ended := by
  obtain ⟨terminal, hpend, -, rfl⟩ := deliver_eq_some.mp hdeliver
  exact (h.ended (by simp [hpend])).write terminal results

variable {a : Action}

theorem Sound.step (h : r.Sound) (hstep : Step R r a r') : r'.Sound := by
  cases a with
  | append content =>
    cases hstep
    refine h.whileOpen fun hopen r'' hcall => ?_
    cases hcall
    split
    · exact h.buffer _
    · exact (h.buffer _).scheduleCardUpdate
  | replace content =>
    cases hstep
    refine h.whileOpen fun hopen r'' hcall => ?_
    cases hcall
    exact h.buffer _
  | setStatus status queuePosition =>
    cases hstep
    refine h.whileOpen fun hopen r'' hcall => ?_
    split at hcall
    · cases hcall
    · split at hcall
      · cases hcall
        exact h
      · cases hcall
        split
        · exact (h.status status queuePosition).issue _
        · exact h.status status queuePosition
  | complete =>
    cases hstep
    refine h.whileOpen fun hopen r'' hcall => ?_
    cases hcall
    exact h.close hopen (by simp) _
  | fail errorCode =>
    cases hstep
    refine h.whileOpen fun hopen r'' hcall => ?_
    split at hcall
    · cases hcall
    · cases hcall
      exact h.close hopen (by simp) _
  | cancel =>
    cases hstep
    refine h.whileOpen fun hopen r'' hcall => ?_
    cases hcall
    exact (h.status .cancelled r.queuePosition).close hopen (by simp) _
  | flushWake => exact h.flushWake hstep
  | flushResult ok => exact h.flushResult hstep
  | deliver results => exact (h.deliver hstep).sound

theorem Ended.step (h : r.Ended) (hstep : Step R r a r') : r' = r := by
  have hrefused : ∀ operation next, r.afterCall (Reply.whileOpen operation next r) = r := by
    intro operation next
    simp [Reply.whileOpen, h.state, afterCall]
  cases a with
  | flushWake => simp [Step, perform, Reply.flushWake, h.flushTask] at hstep
  | flushResult ok => simp [Step, perform, Reply.flushResult, h.flushTask] at hstep
  | deliver results =>
    obtain ⟨terminal, hpend, -⟩ := deliver_eq_some.mp hstep
    simp [h.pending] at hpend
  | _ =>
    cases hstep
    apply hrefused

variable {hist : List Action}

theorem Ended.run (h : r.Ended) (hrun : Run (Step R) r hist r') : r' = r := by
  induction hrun with
  | nil => rfl
  | cons _ hstep ih =>
    subst ih
    exact h.step hstep

/-! ### What becomes visible -/

def shows (R : Renderer) (text : String) (r : Reply) : Prop :=
  r.cardVisible = true ∧ R.render text ≠ "" ∧ r.cardText = some (R.render text)

/-- `text` is visible once, as the text of the card or as one reply; or every call that
    carried it has failed. -/
def DeliveredOnce (R : Renderer) (text : String) (r : Reply) : Prop :=
  (r.shows R text ∧ r.replies = []) ∨
    (¬r.shows R text ∧ r.replies.map Prod.snd = [text]) ∨
      (r.attempts ≠ [] ∧ true ∉ r.attempts)

def OnceInCard (R : Renderer) (results : Results) (r : Reply) : Terminal → Prop
  | .complete answer => R.render answer ≠ ""
  | terminal => (R.render terminal.text ≠ r.lastRendered ∧ results.update = false) ∨
      (results.finish = true ∧ results.lifecycle = true) ∨ (results.post = false ∧ results.text = false)

/-- When a terminal call delivers its text once, from the session before it writes. -/
def OnceWhen (R : Renderer) (terminal : Terminal) (results : Results) (r : Reply) : Prop :=
  if r.cardActive then OnceInCard R results r terminal
  else r.shows R terminal.text → results.post = false ∧ results.text = false

instance (R : Renderer) (text : String) (r : Reply) : Decidable (r.shows R text) :=
  inferInstanceAs (Decidable (_ ∧ _))

instance (R : Renderer) (text : String) (r : Reply) : Decidable (DeliveredOnce R text r) :=
  inferInstanceAs (Decidable (_ ∨ _))

instance (R : Renderer) (results : Results) (r : Reply) :
    ∀ terminal, Decidable (OnceInCard R results r terminal)
  | .complete _ => inferInstanceAs (Decidable (¬_))
  | .fail _ | .cancel => inferInstanceAs (Decidable (_ ∨ _))

instance (R : Renderer) (terminal : Terminal) (results : Results) (r : Reply) :
    Decidable (OnceWhen R terminal results r) :=
  inferInstanceAs (Decidable (if r.cardActive then OnceInCard R results r terminal
    else r.shows R terminal.text → results.post = false ∧ results.text = false))

structure SameView (r r' : Reply) : Prop where
  cardVisible : r'.cardVisible = r.cardVisible
  cardText : r'.cardText = r.cardText
  replies : r'.replies = r.replies
  attempts : r'.attempts = r.attempts

theorem sameView_issue (r : Reply) (call : CardCall) : SameView r (r.issue call) := ⟨rfl, rfl, rfl, rfl⟩

theorem sameView_deactivate (r : Reply) : SameView r r.deactivate := ⟨rfl, rfl, rfl, rfl⟩

theorem SameView.trans {r'' : Reply} (h : SameView r r') (h' : SameView r' r'') : SameView r r'' :=
  ⟨h'.cardVisible.trans h.cardVisible, h'.cardText.trans h.cardText, h'.replies.trans h.replies,
    h'.attempts.trans h.attempts⟩

theorem SameView.shows (h : SameView r r') (text : String) : r'.shows R text ↔ r.shows R text := by
  simp [Reply.shows, h.cardVisible, h.cardText]

theorem SameView.deliveredOnce (h : SameView r r') (text : String) :
    DeliveredOnce R text r' ↔ DeliveredOnce R text r := by
  simp only [DeliveredOnce, h.shows, h.replies, h.attempts]

theorem finishCard_spec (hid : r.cardId = true) (ok : Bool) :
    (r.finishCard ok).2 = ok ∧ SameView r (r.finishCard ok).1 ∧ (r.finishCard ok).1.cardId = true := by
  cases ok with
  | true | false => simpa [Reply.finishCard, hid, issue] using ⟨rfl, rfl, rfl, rfl⟩

theorem patchLifecycle_spec (hid : r.cardId = true) (status : ReplyStatus) (ok : Bool) :
    (r.patchLifecycle status ok).2 = ok ∧ SameView r (r.patchLifecycle status ok).1 := by
  simpa [Reply.patchLifecycle, hid] using sameView_issue r _

variable {text : String}

theorem patchAnswer_raised (h : r.Sound) {r₁ : Reply} (heq : r.patchAnswer R text ok = (r₁, false)) :
    R.render text ≠ r.lastRendered ∧ ok = false ∧ ¬r₁.shows R text ∧ r₁.replies = r.replies ∧
      r₁.attempts = false :: r.attempts := by
  unfold Reply.patchAnswer at heq
  split at heq
  · next hpatches =>
    simp only [patches, Bool.and_eq_true, bne_iff_ne] at hpatches
    cases ok with
    | true => cases heq
    | false =>
      cases heq
      refine ⟨hpatches.2, rfl, ?_, rfl, rfl⟩
      rintro ⟨-, -, hcard⟩
      have hold : r.cardText = some (R.render text) := hcard
      rw [h.card] at hold
      split at hold
      · cases hold
      · exact hpatches.2 (Option.some.inj hold).symm
  · cases heq

theorem patchAnswer_returned (h : r.Sound) (hactive : r.cardActive = true) {r₁ : Reply}
    (heq : r.patchAnswer R text ok = (r₁, true)) :
    (R.render text = r.lastRendered ∨ ok = true ∨ R.render text = "") ∧
      (R.render text ≠ "" → r₁.shows R text) ∧ (R.render text = "" → SameView r r₁) ∧
        r₁.cardId = true ∧ r₁.replies = r.replies := by
  obtain ⟨hid, hvisible⟩ := h.active hactive
  unfold Reply.patchAnswer at heq
  split at heq
  · next hpatches =>
    simp only [patches, Bool.and_eq_true, bne_iff_ne] at hpatches
    cases ok with
    | true =>
      cases heq
      refine ⟨.inr (.inl rfl), fun hne => ⟨hvisible, hne, rfl⟩, fun hempty => ?_, hid, rfl⟩
      exact absurd hempty hpatches.1.2
    | false => cases heq
  · next hpatches =>
    cases heq
    have hsame : R.render text = "" ∨ R.render text = r.lastRendered := by
      by_contra hneither
      rw [not_or] at hneither
      simp [patches, hactive, hid, hneither.1, hneither.2] at hpatches
    refine ⟨hsame.elim (fun hempty => .inr (.inr hempty)) .inl, fun hne => ⟨hvisible, hne, ?_⟩,
      fun _ => ⟨rfl, rfl, rfl, rfl⟩, hid, rfl⟩
    have hlast := hsame.resolve_left hne
    rw [h.card, hlast, if_neg (hlast ▸ hne)]

theorem fallback_delivered (hreplies : r.replies = [])
    (hatts : ¬r.shows R text → true ∉ r.attempts) :
    DeliveredOnce R text (r.fallback text results) ↔
      (r.shows R text → results.post = false ∧ results.text = false) := by
  obtain ⟨update, finish, lifecycle, post, last⟩ := results
  have hshows : (r.fallback text ⟨update, finish, lifecycle, post, last⟩).shows R text ↔ r.shows R text := by
    cases post <;> cases last <;> rfl
  unfold DeliveredOnce
  rw [hshows]
  cases post with
  | true => simp [fallback, replyContent, attempt, hreplies]
  | false =>
    cases last with
    | true => simp [fallback, replyContent, attempt, hreplies]
    | false =>
      by_cases hcard : r.shows R text
      · simp [fallback, replyContent, attempt, hreplies, hcard]
      · simp [fallback, replyContent, attempt, hcard, hatts]

theorem shown_delivered (hshows : r.shows R text) (hreplies : r.replies = []) :
    DeliveredOnce R text r := .inl ⟨hshows, hreplies⟩

theorem writeAnswer_delivered (h : r.Sound) (hreplies : r.replies = []) (hatts : r.attempts = [])
    {answer : String} (hanswer : answer ≠ "") (results : Results) :
    DeliveredOnce R answer (r.writeAnswer R answer results) ↔
      OnceWhen R (.complete answer) results r := by
  unfold Reply.writeAnswer OnceWhen
  rw [if_neg hanswer]
  by_cases hactive : r.cardActive = true
  · rw [if_pos hactive, if_pos hactive]
    rcases hpatch : r.patchAnswer R answer results.update with ⟨r₁, returned⟩
    cases returned with
    | false =>
      obtain ⟨-, -, hcard, hnone, hfailed⟩ := patchAnswer_raised h hpatch
      have hview := sameView_deactivate r₁
      have hne : R.render answer ≠ "" := by
        intro hempty
        simp [patchAnswer, patches, hempty] at hpatch
      dsimp only [OnceInCard]
      rw [fallback_delivered (hview.replies.trans (hnone.trans hreplies)), hview.shows]
      · simp [hcard, hne]
      · simp [hview.attempts, hfailed, hatts]
    | true =>
      obtain ⟨-, hshown, hempty, hid, hnone⟩ := patchAnswer_returned h hactive hpatch
      -- what follows issues calls, and does not touch the view
      have hview : SameView r₁
          (match r₁.finishCard results.finish with
          | (r₂, false) => r₂
          | (r₂, true) => (r₂.patchLifecycle .final results.lifecycle).1) := by
        obtain ⟨-, hfinish, hid₂⟩ := finishCard_spec hid results.finish
        rcases hcase : r₁.finishCard results.finish with ⟨r₂, finished⟩
        rw [hcase] at hfinish hid₂
        cases finished with
        | false => exact hfinish
        | true => exact hfinish.trans (patchLifecycle_spec hid₂ .final results.lifecycle).2
      refine (hview.deliveredOnce answer).trans ?_
      by_cases hne : R.render answer = ""
      · rw [(hempty hne).deliveredOnce]
        simp [OnceInCard, DeliveredOnce, Reply.shows, hne, hreplies, hatts]
      · simp [OnceInCard, shown_delivered (hshown hne) (hnone.trans hreplies), hne]
  · rw [if_neg hactive, if_neg hactive, fallback_delivered hreplies]
    · rfl
    · simp [hatts]

/-- The card calls of `fail` and `cancel`: the update raises, or the card shows the text
    and the two calls after it decide. -/
theorem replaceCard_cases (h : r.Sound) (hactive : r.cardActive = true) (hne : R.render text ≠ "")
    (status : ReplyStatus) {returned : Bool}
    (heq : r.replaceCard R text status results = (r', returned)) :
    r'.replies = r.replies ∧
      ((R.render text ≠ r.lastRendered ∧ results.update = false ∧ returned = false ∧
          ¬r'.shows R text ∧ r'.attempts = false :: r.attempts) ∨
        (¬(R.render text ≠ r.lastRendered ∧ results.update = false) ∧ r'.shows R text ∧
          returned = (results.finish && results.lifecycle))) := by
  unfold Reply.replaceCard at heq
  rcases hpatch : r.patchAnswer R text results.update with ⟨r₁, updated⟩
  rw [hpatch] at heq
  cases updated with
  | false =>
    obtain ⟨hlast, hupdate, hcard, hnone, hfailed⟩ := patchAnswer_raised h hpatch
    cases heq
    exact ⟨hnone, .inl ⟨hlast, hupdate, rfl, hcard, hfailed⟩⟩
  | true =>
    obtain ⟨hwhy, hshown, -, hid, hnone⟩ := patchAnswer_returned h hactive hpatch
    have hupdated : ¬(R.render text ≠ r.lastRendered ∧ results.update = false) := by
      rintro ⟨hlast, hupdate⟩
      rcases hwhy with hsame | hok | hempty
      · exact hlast hsame
      · simp [hok] at hupdate
      · exact hne hempty
    obtain ⟨hfin, hfinish, hid₂⟩ := finishCard_spec hid results.finish
    rcases hcase : r₁.finishCard results.finish with ⟨r₂, finished⟩
    rw [hcase] at hfin hfinish hid₂
    simp only [hcase] at heq
    cases finished with
    | false =>
      cases heq
      refine ⟨hfinish.replies.trans hnone, .inr ⟨hupdated, (hfinish.shows text).mpr (hshown hne), ?_⟩⟩
      simp [← hfin]
    | true =>
      obtain ⟨hpatched, hlife⟩ := patchLifecycle_spec hid₂ status results.lifecycle
      dsimp only at heq
      rw [heq] at hpatched hlife
      have hview := hfinish.trans hlife
      refine ⟨hview.replies.trans hnone, .inr ⟨hupdated, (hview.shows text).mpr (hshown hne), ?_⟩⟩
      simp [← hfin, ← hpatched]

theorem writeNotice_delivered (h : r.Sound) (hreplies : r.replies = [])
    (hatts : r.attempts = []) (hne : R.render text ≠ "") (status : ReplyStatus)
    (results : Results) :
    DeliveredOnce R text (r.writeNotice R text status results) ↔
      if r.cardActive then
        (R.render text ≠ r.lastRendered ∧ results.update = false) ∨
          (results.finish = true ∧ results.lifecycle = true) ∨
            (results.post = false ∧ results.text = false)
      else r.shows R text → results.post = false ∧ results.text = false := by
  unfold Reply.writeNotice
  by_cases hactive : r.cardActive = true
  · rw [if_pos hactive, if_pos hactive]
    rcases hcard : Reply.replaceCard R text status results { r with parts := [] } with ⟨r₁, returned⟩
    obtain ⟨hnone, hcases⟩ := replaceCard_cases (h.buffer []) hactive hne status hcard
    have hview := sameView_deactivate r₁
    have hreplies₁ : r₁.replies = [] := hnone.trans hreplies
    rcases hcases with ⟨hlast, hupdate, rfl, hcard, hfailed⟩ | ⟨hupdated, hshows, hreturned⟩
    · dsimp only
      rw [fallback_delivered (hview.replies.trans hreplies₁), hview.shows]
      · simp [hcard, hupdate, hlast]
      · simp [hview.attempts, hfailed, hatts]
    · cases returned with
      | true =>
        rw [eq_comm, Bool.and_eq_true] at hreturned
        simp [shown_delivered hshows hreplies₁, hreturned]
      | false =>
        have hraised : ¬(results.finish = true ∧ results.lifecycle = true) := by
          rw [← Bool.and_eq_true, ← hreturned]
          simp
        rw [fallback_delivered (hview.replies.trans hreplies₁), hview.shows]
        · simp [hshows, hupdated, hraised]
        · exact fun hnot => absurd hshows hnot
  · rw [if_neg hactive, if_neg hactive, fallback_delivered (r := { r with parts := [] }) hreplies]
    · rfl
    · simp [hatts]

variable {terminal : Terminal}

theorem write_delivered (h : r.Sound) (hreplies : r.replies = []) (hatts : r.attempts = [])
    (htext : terminal.text ≠ "") (results : Results) :
    DeliveredOnce R terminal.text (r.write R terminal results) ↔ OnceWhen R terminal results r := by
  cases terminal with
  | complete answer => exact writeAnswer_delivered h hreplies hatts htext results
  | fail errorCode => exact writeNotice_delivered h hreplies hatts R.unavailable_shown .error results
  | cancel => exact writeNotice_delivered h hreplies hatts R.cancelled_shown .cancelled results

theorem sound_run {status : ReplyStatus} {queuePosition : Int} {created replied : Bool}
    (hrun : Run (Step R) (begin status queuePosition created replied) hist r) : r.Sound := by
  apply Run.invariant _ _ hrun
  · exact sound_begin status queuePosition created replied
  · exact fun _ _ _ h hstep => h.step hstep

theorem deliver_reached (hpend : r.pending = some terminal) (results : Results) :
    ∃ hist before after, Run (Step R) r hist before ∧ before.pending = some terminal ∧
      Step R before (.deliver results) after := by
  cases htask : r.flushTask with
  | updating rendered =>
    have hstep : Step R r (.flushResult false) { r with flushTask := .idle, cardActive := false } := by
      simp [Step, perform, Reply.flushResult, htask]
    refine ⟨_, _, _, Run.cons Run.nil hstep, hpend, deliver_eq_some.mpr ⟨terminal, hpend, ?_, rfl⟩⟩
    simp
  | _ =>
    refine ⟨[], r, _, Run.nil, hpend, deliver_eq_some.mpr ⟨terminal, hpend, ?_, rfl⟩⟩
    simp [htask]

theorem Ended.no_deliver (h : r.Ended) (hrun : Run (Step R) r hist r') (r'' : Reply) :
    ¬Step R r' (.deliver results) r'' := by
  intro hstep
  obtain ⟨terminal, hpend, -⟩ := deliver_eq_some.mp (h.run hrun ▸ hstep)
  simp [h.pending] at hpend

def plain : Renderer := ⟨id, id, by decide, by decide⟩

def act (a : Action) (r : Reply) : Action × Reply := (a, (perform plain a r).getD r)

def possible (a : Action) (r : Reply) : Bool := (perform plain a r).isSome

theorem step_act (h : possible a r = true) : Step plain r a (act a r).2 := by
  obtain ⟨r', hr'⟩ := Option.isSome_iff_exists.mp h
  simp [act, Step, hr']

theorem run_act {start : Reply} (actions : List Action) (h : allowed act possible actions start = true) :
    Run (Step plain) start (execute act actions [] start).1 (execute act actions [] start).2 :=
  execute_steps Run.nil h fun _ _ => step_act

def streaming : Reply := begin .running 0 true true

def answering : List Action := [.append "42", .flushWake, .flushResult true, .fail "TARGET_FAILED"]

end Reply

end MultiRag.Feishu
