/-
  **The insertion and its compensation, part by part.**

  Each part of `insert_source_chunks` is given as a triple.  Before the first native write a
  failure leaves everything as it was, or a pending record (`Early`); afterwards it leaves
  the insertion under way (`Native`), and from there the compensation either takes
  everything back or leaves the record pending (`Settled`).
-/
import MultiRag.SourceWrites

namespace MultiRag.SourceRecovery

open Availability Program

def Settled (batch : Batch) (w : World) (s : Insertion) : Prop :=
  AsBefore batch.ids w s.toWorld ∨ Blocked s.toWorld

/-- A failure before the first native write. -/
def Early (batch : Batch) (w : World) (s : Insertion) : Prop :=
  s.nativeStarted = false ∧ Settled batch w s

def Native (batch : Batch) (w : World) : Insertion → Prop :=
  Going batch w (fun _ => True) fun store _ sql => Own batch store ∧ Booked batch.docId w.sql sql

/-- Nothing has been written yet. -/
structure Fresh (w : World) (s : Insertion) : Prop where
  world : s.toWorld = w
  session : s.session = w.sql
  started : s.nativeStarted = false

variable {X : Insertion → Prop} {batch : Batch} {w : World} {s : Insertion}

theorem Fresh.store (h : Fresh w s) : s.store = w.store := congrArg World.store h.world

theorem Fresh.sql (h : Fresh w s) : s.sql = w.sql := congrArg World.sql h.world

theorem Fresh.record (h : Fresh w s) : s.record = w.record :=
  congrArg World.record h.world

theorem Resolved.map_ready {record : Option Record} (h : Resolved record) :
    (record.map Record.material).map Record.ready = record := by
  rcases record with _ | record
  · rfl
  cases record with
  | ready m => rfl
  | pending phase m prior => exact False.elim h

theorem Fresh.early (h : Fresh w s) : Early batch w s := by
  refine ⟨h.started, .inl ?_⟩
  rw [h.world]
  exact ⟨fun _ _ => rfl, rfl, rfl⟩

theorem early_ignoresMirror : IgnoresMirror (Early batch w) := by
  intro s mirror h
  refine ⟨h.1, h.2.imp (fun hsame => ?_) fun hblocked => hblocked⟩
  exact ⟨hsame.store, hsame.sql, hsame.record⟩

theorem early_of_pending (hstart : s.nativeStarted = false) (hblocked : Blocked s.toWorld) :
    Early batch w s := ⟨hstart, .inr hblocked⟩

variable {I : Insertion → Prop} {chunks : List SourceChunk}

theorem keeps_reserveTaskImages :
    Keeps I (reserveTaskImages chunks) :=
  keeps_each fun _ _ => keeps_bind keeps_confirm fun _ => keeps_confirm

theorem keeps_releaseTaskImages :
    Keeps I (releaseTaskImages chunks) := by
  apply keeps_when
  intro _
  exact keeps_bind keeps_confirm fun _ => keeps_each fun _ _ => keeps_confirm

variable {P : Insertion → Prop} {E : Failure → Insertion → Prop}

theorem triple_imageWriteLocks {keys : List (String × String)} {body : Action Unit}
    {Q : Unit → Insertion → Prop} (hbody : Triple X P body Q E)
    (hP : ∀ error s, P s → E error s) (hQ : ∀ error s, Q () s → ¬ X s → E error s)
    (hE : ∀ error error' s, E error s → E error' s) :
    Triple X P (imageWriteLocks keys body) Q E := by
  unfold imageWriteLocks
  split
  · exact hbody
  · apply keeps_confirm.before hP
    intro _
    apply (keeps_each fun _ _ => keeps_confirm).before hP
    intro _
    apply triple_always hbody
    · intro _
      exact triple_read (fun _ h => h) fun s h hX => hQ _ s h hX
    · intro error
      exact triple_read (fun _ h => h) fun s h _ => hE error _ s h

/-! ### Reading the rows -/

structure Locked (batch : Batch) (sql : Sql) (rows : DocumentRow × TaskRow) : Prop where
  document : sql.documents batch.docId = some rows.1
  dataset : rows.1.kbId = batch.kbId
  task : sql.task = some rows.2
  taskDocument : rows.2.docId = batch.docId

theorem triple_currentDocumentTask {cleanup : Bool} :
    Triple X P (currentDocumentTask batch.docId batch.kbId cleanup)
      (fun rows s => P s ∧ Locked batch s.session rows) fun _ => P := by
  refine triple_ask (fun _ h _ => h) fun doc => ?_
  refine triple_ask (fun _ h _ => h.1) fun task => ?_
  match doc, task with
  | some doc, some task =>
    apply keeps_require.before fun _ _ h => h.1.1
    intro _
    refine triple_done ?_
    rintro s ⟨⟨hs, hdoc⟩, htask⟩
    obtain ⟨hdoc, hkb⟩ := Option.filter_eq_some_iff.mp hdoc.symm
    obtain ⟨htask, hdocId⟩ := Option.filter_eq_some_iff.mp htask.symm
    exact ⟨hs, hdoc, of_decide_eq_true hkb, htask, of_decide_eq_true hdocId⟩
  | none, _ => exact triple_raise fun _ h => h.1.1
  | some _, none => exact triple_raise fun _ h => h.1.1

theorem triple_loadSourceRecovery :
    Triple X P loadSourceRecovery (fun record s => P s ∧ record = s.record) fun _ => P := by
  refine triple_ask (fun _ h _ => h) fun row => ?_
  match row with
  | some record => exact triple_done fun _ h => h
  | none =>
    apply keeps_read.before fun _ _ h => h.1
    intro _
    apply keeps_require.before fun _ _ h => h.1
    intro _
    exact triple_done fun _ h => h

structure Accepted (batch : Batch) (w : World) (rows : DocumentRow × TaskRow) : Prop
    extends Locked batch w.sql rows where
  oneDocument : ∀ chunk ∈ batch.chunks, chunk.docId = batch.docId
  resolved : Resolved w.record

theorem triple_sourceDocumentAvailability :
    Triple X (Fresh w) (sourceDocumentAvailability batch)
      (fun rows s => Fresh w s ∧ Accepted batch w rows) fun _ => Fresh w := by
  apply triple_bind (keeps_require X)
  intro _
  apply triple_bind (keeps_require X)
  intro _
  apply triple_bind (keeps_read X)
  intro documents
  apply triple_bind (keeps_require X)
  intro _
  apply triple_bind (keeps_confirm X)
  intro _
  apply triple_bind
    (R := fun _ s => Fresh w s ∧ ∀ chunk ∈ batch.chunks, chunk.docId = batch.docId)
  · exact triple_require (fun _ h hone => ⟨h, hone⟩) fun _ h _ => h
  intro _
  apply triple_bind
  · exact triple_currentDocumentTask.weaken fun _ _ h => h.1
  intro rows
  apply triple_bind (R := fun _ s => ((Fresh w s ∧ ∀ chunk ∈ batch.chunks,
    chunk.docId = batch.docId) ∧ Locked batch s.session rows) ∧ Resolved s.record)
  · apply triple_bind
    · exact triple_loadSourceRecovery.weaken fun _ _ h => h.1.1
    intro record
    refine triple_require (fun s h hreso => ⟨h.1, ?_⟩) fun _ h _ => h.1.1.1
    rw [← h.2]
    exact hreso
  intro _
  refine triple_done ?_
  rintro s ⟨⟨⟨hfresh, hone⟩, hlocked⟩, hreso⟩
  rw [hfresh.session] at hlocked
  rw [hfresh.record] at hreso
  exact ⟨hfresh, hlocked, hone, hreso⟩

/-! ### The intent -/

/-- The intent is recorded, nothing else is written. -/
structure Intended (batch : Batch) (w : World) (record : Record) (s : Insertion) : Prop where
  store : s.store = w.store
  sql : s.sql = w.sql
  session : s.session = w.sql
  started : s.nativeStarted = false
  blocked : Blocked s.toWorld
  record : ∃ m prior, record = .pending .intent m prior ∧
    prior.map Record.ready = w.record ∧ m.nonce = batch.nonce

variable {record : Record}

theorem Intended.early (h : Intended batch w record s) :
    Early batch w s := early_of_pending h.started h.blocked

variable {snapshot : Rows} {task : TaskRow} {doc : DocumentRow}

theorem triple_checkPrevious {previous : Option Material} :
    Triple X (Fresh w) (checkPrevious chunks snapshot task doc previous) (fun _ => Fresh w)
      fun _ => Early batch w := by
  rcases previous with _ | previous
  · exact triple_done fun _ h => h
  apply keeps_require.before fun _ _ h => h.early
  intro _
  apply keeps_require.before fun _ _ h => h.early
  intro _
  refine triple_when (fun _ => ?_) fun _ _ h => h
  refine (triple_preserve early_ignoresMirror ?_ ?_).pre fun s h => h.early
  · intro s phase m prior h
    exact early_of_pending h.1 ⟨phase, m, prior, rfl⟩
  · intro s phase m prior h
    exact h

theorem triple_prepare :
    Triple X (Fresh w) (prepare batch.nonce chunks snapshot task doc) (Intended batch w)
      fun _ => Early batch w := by
  apply triple_bind (R := fun previous s => Fresh w s ∧ previous = s.record)
  · exact triple_loadSourceRecovery.weaken fun _ _ h => h.early
  intro previous
  apply triple_bind (R := fun _ s => Fresh w s ∧ previous = w.record ∧ Resolved previous)
  · refine triple_require ?_ fun _ h _ => h.1.early
    rintro s ⟨hfresh, rfl⟩ hreso
    exact ⟨hfresh, hfresh.record, hreso⟩
  intro _
  apply triple_seq
  · apply triple_of_state
    rintro s ⟨hfresh, hprev, hreso⟩
    refine triple_checkPrevious.mono ?_ (fun _ _ h => ⟨h, hprev, hreso⟩) fun _ _ h => h
    rintro _ rfl
    exact hfresh
  intro _
  apply triple_bind (R := fun _ => Intended batch w (.pending .intent
    ⟨batch.nonce, chunks, snapshot, task, doc, none, none, none, .empty, none⟩
    (previous.map Record.material)))
  · refine triple_transition ?_ (fun _ _ h => h.1.early) ?_
    · rintro s ⟨hfresh, hprev, hreso⟩
      exact ⟨hfresh.store, hfresh.sql, hfresh.session, hfresh.started, ⟨_, _, _, rfl⟩, _, _, rfl,
        hreso.map_ready.trans hprev, rfl⟩
    · rintro _ s ⟨hfresh, -, -⟩ _
      exact early_of_pending hfresh.started ⟨_, _, _, rfl⟩
  intro _
  apply triple_bind
  · apply triple_attempt
    · refine (keeps_writeMirror ?_).triple (fun _ h => h) (fun _ _ h => h) fun _ _ h => h
      intro s mirror h
      exact { h with }
    · exact fun _ => triple_raise fun _ h => h.early
  · exact fun _ => triple_done fun _ h => h

variable {φ : Material → Prop} {ρ : Rows → Sql → Prop}

/-! ### Updates in the session -/

variable {χ : Rows → Sql → Sql → Prop}

theorem going_session {session : Sql}
    {χ' : Rows → Sql → Sql → Prop} (h : Going batch w φ χ s) (hχ : χ' s.store session s.sql) :
    Going batch w φ χ' { s with session := session } := ⟨h.started, h.blocked, h.held, hχ⟩

variable {θ : Sql → Prop}

theorem going_sessionCall {η : Nat → Sql → Prop} {f : Insertion → Nat × Insertion}
    (honly : ∀ s, ∃ session, (f s).2 = { s with session := session })
    (hwritten : ∀ s, θ s.session → η (f s).1 (f s).2.session) :
    Triple X (Going batch w φ fun store session sql => θ session ∧ ρ store sql) (call f : Action Nat)
      (fun n => Going batch w φ fun store session sql => η n session ∧ ρ store sql)
      fun _ => Going batch w φ fun store _ sql => ρ store sql := by
  refine triple_call ?_ ?_ ?_
  · intro s hs
    obtain ⟨hsess, hρ⟩ := hs.rest
    obtain ⟨session, hsession⟩ := honly s
    have hnext := hwritten s hsess
    rw [hsession] at hnext ⊢
    exact going_session hs ⟨hnext, hρ⟩
  · intro s hs _
    exact ⟨hs.started, hs.blocked, hs.held, hs.rest.2⟩
  · intro s hs _
    obtain ⟨session, hsession⟩ := honly s
    rw [hsession]
    exact going_session hs hs.rest.2

variable {selects : DocumentRow → Bool} {change : DocumentRow → DocumentRow}

theorem going_updateDocument {sess : Sql} :
    Triple X (Going batch w φ fun store session sql => session = sess ∧ ρ store sql)
      (updateDocument batch.docId selects change)
      (fun n => Going batch w φ fun store session sql => (n = 1 → ∃ row,
        sess.documents batch.docId = some row ∧
          session = sess.setDocument batch.docId (change row)) ∧ ρ store sql)
      fun _ => Going batch w φ fun store _ sql => ρ store sql := by
  apply going_sessionCall
  · intro s
    split
    · exact ⟨s.session, rfl⟩
    · exact ⟨_, rfl⟩
  · rintro s rfl
    split
    · exact fun h => absurd h Nat.zero_ne_one
    · next row hrow => exact fun _ => ⟨row, (Option.filter_eq_some_iff.mp hrow).1, rfl⟩

theorem going_updateKnowledgebase {change : Knowledgebase → Knowledgebase} :
    Triple X (Going batch w φ fun store session sql => θ session ∧ ρ store sql)
      (updateKnowledgebase change)
      (fun n => Going batch w φ fun store session sql => (n = 1 → ∃ before kb,
        θ before ∧ before.kb = some kb ∧ session = { before with kb := some (change kb) }) ∧
          ρ store sql)
      fun _ => Going batch w φ fun store _ sql => ρ store sql := by
  apply going_sessionCall
  · intro s
    split
    · exact ⟨s.session, rfl⟩
    · exact ⟨_, rfl⟩
  · intro s hsess
    split
    · exact fun h => absurd h Nat.zero_ne_one
    · next kb hkb => exact fun _ => ⟨s.session, kb, hsess, hkb, rfl⟩

theorem going_counts {sess : Sql} {row : DocumentRow} {c t : Int} {failure : Failure}
    (hbooked : Booked batch.docId w.sql sess) (hrow : sess.documents batch.docId = some row)
    (hsame : ∀ original, (change row).recounted original = row.recounted original)
    (hchunks : (change row).chunkNum = row.chunkNum + c)
    (htokens : (change row).tokenNum = row.tokenNum + t) :
    Triple X (Going batch w φ fun store session sql => session = sess ∧ ρ store sql)
      (do
        let changed ← updateDocument batch.docId selects change
        let kbChanged ← updateKnowledgebase (·.plus c t)
        require (changed = 1 ∧ kbChanged = 1) failure)
      (fun _ => Going batch w φ fun store session sql =>
        Booked batch.docId w.sql session ∧ ρ store sql)
      fun _ => Going batch w φ fun store _ sql => ρ store sql := by
  apply triple_bind going_updateDocument
  intro changed
  apply triple_bind going_updateKnowledgebase
  intro kbChanged
  refine triple_require ?_ fun s hs _ => hs.mono (fun _ h => h) fun _ _ _ h => h.2
  rintro s hs ⟨hchanged, hkbChanged⟩
  refine hs.mono (fun _ h => h) fun store session sql h => ⟨?_, h.2⟩
  obtain ⟨before, kb, hbefore, hkb, rfl⟩ := h.1 hkbChanged
  obtain ⟨row', hrow', rfl⟩ := hbefore hchanged
  cases hrow.symm.trans hrow'
  exact hbooked.plus hrow hkb hsame hchunks htokens

theorem going_reconcileTaskChunkCount :
    Triple X (Going batch w φ fun store session sql => Booked batch.docId w.sql session ∧ ρ store sql)
      (reconcileTaskChunkCount batch.docId batch.kbId batch.now)
      (fun _ => Going batch w φ fun store session sql =>
        Booked batch.docId w.sql session ∧ ρ store sql)
      fun _ => Going batch w φ fun store _ sql => ρ store sql := by
  apply triple_of_state
  intro s₀ hs₀
  have hforget : ∀ s, s = s₀ → Going batch w φ (fun store _ sql => ρ store sql) s := by
    rintro s rfl
    exact hs₀.mono (fun _ h => h) fun _ _ _ h => h.2
  apply triple_bind (R := fun doc s => s = s₀ ∧ doc = s₀.session.documents batch.docId)
  · refine triple_read ?_ fun s hs _ => hforget s hs
    rintro s rfl
    exact ⟨rfl, rfl⟩
  intro doc
  match doc with
  | none => exact triple_raise fun s hs => hforget s hs.1
  | some doc =>
    apply keeps_read.before fun _ s hs => hforget s hs.1
    intro rows
    split
    · exact triple_raise fun s hs => hforget s hs.1
    · -- the count replaces the one that was read
      apply triple_of_state
      rintro _ ⟨rfl, hdoc⟩
      refine Triple.pre (going_counts hs₀.rest.1 hdoc.symm (fun _ => rfl) ?_ ?_) ?_
      · dsimp only
        omega
      · dsimp only
        omega
      · rintro _ rfl
        exact hs₀.fixed

theorem going_accountTaskTokens {digest : Digest} {tokens : Nat} :
    Triple X (Going batch w φ fun store session sql => Booked batch.docId w.sql session ∧ ρ store sql)
      (accountTaskTokens batch.docId batch.kbId digest tokens)
      (fun _ => Going batch w φ fun store session sql =>
        Booked batch.docId w.sql session ∧ ρ store sql)
      fun _ => Going batch w φ fun store _ sql => ρ store sql := by
  apply triple_seq
  · refine triple_modify fun s hs => going_session hs ⟨?_, hs.rest.2⟩
    obtain ⟨doc, doc', task', hdoc, hback, hsess⟩ := hs.rest.1
    rw [hsess]
    exact ⟨doc, doc', _, hdoc, hback, rfl⟩
  intro _
  apply triple_of_state
  intro s₀ hs₀
  obtain ⟨doc, doc', task', hdoc, hback, hsess⟩ := hs₀.rest.1
  have hrow : s₀.session.documents batch.docId = some doc' := by
    rw [hsess]
    exact Function.update_self _ _ _
  refine Triple.pre (going_counts hs₀.rest.1 hrow (fun _ => rfl) ?_ rfl) ?_
  · exact (Int.add_zero _).symm
  · rintro _ rfl
    exact hs₀.fixed

theorem going_registerChunks :
    Triple X (Going batch w φ fun store session sql => Booked batch.docId w.sql session ∧ ρ store sql)
      (registerChunks batch chunks)
      (fun _ => Going batch w φ fun store session sql =>
        Booked batch.docId w.sql session ∧ ρ store sql)
      fun _ => Going batch w φ fun store _ sql => ρ store sql := by
  have hforget : ∀ s, Going batch w φ (fun store session sql =>
        Booked batch.docId w.sql session ∧ ρ store sql) s →
      Going batch w φ (fun store _ sql => ρ store sql) s :=
    fun s hs => hs.mono (fun _ h => h) fun _ _ _ h => h.2
  apply keeps_read.before fun _ s hs => hforget s hs
  intro task
  match task with
  | none => exact triple_raise fun s hs => hforget s hs
  | some task =>
    apply triple_seq (triple_modify fun s hs => going_session hs ⟨hs.rest.1.setTask _, hs.rest.2⟩)
    intro _
    apply triple_bind going_reconcileTaskChunkCount
    intro _
    apply triple_seq (triple_when (fun _ => going_accountTaskTokens) fun _ _ hs => hs)
    intro _
    exact keeps_confirm.triple (fun _ h => h) (fun _ _ h => h) fun _ s hs => hforget s hs

variable {rows : DocumentRow × TaskRow}

/-! ### The native writes -/

def Batch.written (batch : Batch) (w : World) (chunks : List SourceChunk) : Rows :=
  w.store.writeAll (insertions batch.kbId chunks)

/-- The memory holds the rows of the document as they are in `store`. -/
def Recorded (batch : Batch) (store : Rows) (m : Material) : Prop :=
  m.appliedNative = some (store.filter (owns batch.docId batch.kbId))

theorem native_of_going (h : Going batch w φ χ s)
    (hχ : ∀ store session sql, χ store session sql → Own batch store ∧ Booked batch.docId w.sql sql) :
    Native batch w s := h.mono (fun _ _ => trivial) hχ

theorem going_capture {store : Rows} {ρ : Sql → Sql → Prop}
    (hE : ∀ error s, Going batch w (fun _ => True) (fun store' session sql =>
      store' = store ∧ ρ session sql) s → E error s) :
    Triple X
      (Going batch w (fun _ => True) fun store' session sql => store' = store ∧ ρ session sql)
      (do
        let applied ← documentHistory batch.docId batch.kbId
        modify fun s => { s with appliedNative := some applied }
        let material ← current
        update material
          (material.withPhase .applied fun m => { m with appliedNative := some applied }) true)
      (fun _ => Going batch w (Recorded batch store) fun store' session sql =>
        store' = store ∧ ρ session sql) E := by
  apply triple_bind (R := fun applied s => applied = store.filter (owns batch.docId batch.kbId) ∧
    Going batch w (fun _ => True) (fun store' session sql => store' = store ∧ ρ session sql) s)
  · refine triple_read ?_ fun s hs _ => hE _ s hs
    intro s hs
    refine ⟨?_, hs⟩
    rw [hs.rest.1]
  intro applied
  apply triple_of_state
  rintro s₀ ⟨rfl, hs₀⟩
  apply triple_bind (R := fun _ => Going batch w (fun _ => True) fun store' session sql =>
    store' = store ∧ ρ session sql)
  · refine triple_modify ?_
    rintro _ rfl
    exact ⟨hs₀.started, hs₀.blocked, hs₀.held, hs₀.rest⟩
  intro _
  apply triple_bind
  · exact going_current.weaken fun error s hs => hE error s hs
  intro record
  apply triple_of_state
  rintro s₁ ⟨hs₁, -, hheld⟩
  refine going_update (φ := fun _ => True) ?_ ?_ hE
  · rintro _ rfl
    exact hs₁
  · exact hheld.withPhase .applied (fun _ => rfl) fun _ _ => rfl

theorem triple_insertLocked (hacc : Accepted batch w rows)
    (hown : Own batch w.store) (hchunks : ∀ chunk ∈ chunks, chunk.docId = batch.docId) :
    Triple X (Fresh w) (insertLocked batch chunks snapshot rows.1 rows.2)
      (fun _ => Going batch w (Recorded batch (batch.written w chunks)) fun store _ sql =>
        store = batch.written w chunks ∧ Booked batch.docId w.sql sql)
      fun _ s => Early batch w s ∨ Native batch w s := by
  have hbooked : Booked batch.docId w.sql w.sql := booked_refl hacc.document hacc.task
  have hwritten : Own batch (batch.written w chunks) :=
    hown.writeAll fun _ hrow => owns_of_mem_insertions hchunks hrow
  apply triple_bind
  · exact triple_prepare.weaken fun _ _ h => .inl h
  intro record
  -- the record in memory, before the native writes
  apply triple_bind (R := fun _ s => Intended batch w record s ∧ s.material = some record)
  · refine triple_modify fun s hs => ⟨?_, rfl⟩
    exact { hs with }
  intro _
  apply keeps_reserveTaskImages.before fun _ _ h => .inl h.1.early
  intro _
  apply triple_bind (R := fun _ => Going batch w (fun _ => True) fun store session sql =>
    store = w.store ∧ session = w.sql ∧ sql = w.sql)
  · refine triple_modify ?_
    rintro s ⟨hs, hmaterial⟩
    obtain ⟨m, prior, rfl, hprior, hnonce⟩ := hs.record
    exact ⟨rfl, hs.blocked, ⟨_, hmaterial, .intent, m, prior, rfl, hprior, hnonce, trivial⟩,
      hs.store, hs.session, hs.sql⟩
  intro _
  -- the store, and what was seen of it
  apply triple_bind (R := fun _ => Going batch w (Recorded batch (batch.written w chunks))
    fun store session sql => store = batch.written w chunks ∧ session = w.sql ∧ sql = w.sql)
  · apply triple_always (R := fun _ => Going batch w (fun _ => True) fun store session sql =>
        store = batch.written w chunks ∧ session = w.sql ∧ sql = w.sql)
      (S := fun _ => Going batch w (fun _ => True) fun store session sql =>
        Own batch store ∧ session = w.sql ∧ sql = w.sql)
    · apply going_writeStore
      · intro s hs
        refine ⟨?_, hs.rest.2⟩
        rw [hs.rest.1]
        rfl
      · intro took s hs
        refine ⟨?_, hs.rest.2⟩
        rw [hs.rest.1]
        exact hown.writeAll fun _ hrow => owns_of_mem_insertions hchunks (mem_of_mem_takePart hrow)
    · intro _
      refine going_capture fun _ s hs => .inr (native_of_going hs ?_)
      rintro _ _ _ ⟨rfl, -, rfl⟩
      exact ⟨hwritten, hbooked⟩
    · intro _
      apply triple_of_state
      intro s₀ hs₀
      have hnative : ∀ φ s, Going batch w φ (fun store session sql =>
          store = s₀.store ∧ session = w.sql ∧ sql = w.sql) s → Native batch w s := by
        intro φ s hs
        refine native_of_going hs ?_
        rintro _ _ _ ⟨rfl, -, rfl⟩
        exact ⟨hs₀.rest.1, hbooked⟩
      refine (going_capture fun _ s hs => .inr (hnative _ s hs)).mono ?_
        (fun _ s hs => .inr (hnative _ s hs)) fun _ _ h => h
      rintro _ rfl
      exact ⟨hs₀.started, hs₀.blocked, hs₀.held, rfl, hs₀.rest.2⟩
  intro _
  -- SQL, in the session
  have hnative : ∀ φ s, Going batch w φ (fun store _ sql =>
      store = batch.written w chunks ∧ sql = w.sql) s → Early batch w s ∨ Native batch w s := by
    intro φ s hs
    refine .inr (native_of_going hs ?_)
    rintro _ _ _ ⟨rfl, rfl⟩
    exact ⟨hwritten, hbooked⟩
  apply triple_bind (R := fun _ => Going batch w (Recorded batch (batch.written w chunks))
    fun store session sql => Booked batch.docId w.sql session ∧
      store = batch.written w chunks ∧ sql = w.sql)
  · refine going_registerChunks.mono ?_ (fun _ _ h => h) fun _ s hs => hnative _ s hs
    intro s hs
    refine hs.mono (fun _ h => h) fun store session sql h => ⟨?_, h.1, h.2.2⟩
    rw [h.2.1]
    exact hbooked
  intro _
  have hforget : ∀ φ s, Going batch w φ (fun store session sql => Booked batch.docId w.sql session ∧
      store = batch.written w chunks ∧ sql = w.sql) s → Early batch w s ∨ Native batch w s :=
    fun φ s hs => hnative φ s (hs.mono (fun _ h => h) fun _ _ _ h => h.2)
  apply keeps_read.before fun _ s hs => hforget _ s hs
  intro appliedTask
  apply keeps_read.before fun _ s hs => hforget _ s hs
  intro appliedDoc
  apply triple_seq (triple_modify fun s hs => ⟨hs.started, hs.blocked, hs.held, hs.rest⟩)
  intro _
  apply triple_bind
  · exact going_current.weaken fun _ s hs => hforget _ s hs
  intro record
  apply triple_bind (R := fun _ => Going batch w (Recorded batch (batch.written w chunks))
    fun store session sql => Booked batch.docId w.sql session ∧
      store = batch.written w chunks ∧ sql = w.sql)
  · apply triple_of_state
    rintro s₀ ⟨hs₀, -, hheld⟩
    refine going_update (φ := Recorded batch (batch.written w chunks)) ?_ ?_ fun _ s hs => hforget _ s hs
    · rintro _ rfl
      exact hs₀
    · exact hheld.withMaterial (fun _ => rfl) fun _ hm => hm
  intro _
  -- the commit
  refine triple_call ?_ (fun s hs _ => hforget _ s hs) ?_
  · intro s hs
    exact ⟨hs.started, hs.blocked, hs.held, hs.rest.2.1, hs.rest.1⟩
  · intro s hs _
    refine .inr ⟨hs.started, hs.blocked, ?_, ?_, hs.rest.1⟩
    · exact (hs.mono (fun _ _ => trivial) fun _ _ _ h => h : Going batch w (fun _ => True) _ s).held
    · dsimp only
      rw [hs.rest.2.1]
      exact hwritten

/-! ### The end of the insertion -/

def World.ownedRows (w : World) : Rows :=
  match w.record with
  | some (.ready m) => m.ownedRows
  | _ => .empty

def Ended (batch : Batch) (w : World) (written : Rows) (s : Insertion) : Prop :=
  ∃ m, s.record = some (.ready m) ∧ m.nonce = batch.nonce ∧ s.mirror = none ∧ s.store = written ∧
    m.ownedRows = w.ownedRows.update
      (nativeRows (written.filter (owns batch.docId batch.kbId)) batch.ids)

theorem Held.priorRows (h : Held batch w φ record) :
    record.priorRows = w.ownedRows := by
  obtain ⟨phase, m, prior, rfl, hprior, -⟩ := h
  unfold World.ownedRows
  rw [← hprior]
  rcases prior with _ | prior
  · rfl
  · rfl

theorem triple_ready {written : Rows} (hwritten : Own batch written) :
    Triple (Finished batch.nonce)
      (Going batch w (Recorded batch written) fun store _ sql =>
        store = written ∧ Booked batch.docId w.sql sql)
      (ready batch.ids) (fun _ => Ended batch w written) fun _ => Native batch w := by
  have hnative : ∀ φ s, Going batch w φ (fun store _ sql =>
      store = written ∧ Booked batch.docId w.sql sql) s → Native batch w s := by
    intro φ s hs
    refine native_of_going hs ?_
    rintro _ _ _ ⟨rfl, hbooked⟩
    exact ⟨hwritten, hbooked⟩
  apply triple_bind
  · exact going_current.weaken fun _ s hs => hnative _ s hs
  intro applied
  apply triple_of_state
  rintro s₀ ⟨hs₀, -, hheld⟩
  have hrows : applied.material.appliedNative = some (written.filter (owns batch.docId batch.kbId)) := by
    obtain ⟨phase, m, prior, rfl, -, -, hm⟩ := hheld
    exact hm
  simp only [hrows]
  -- the phase `complete`
  apply triple_bind
  · refine going_update (φ := Recorded batch written) (ψ := fun m => m.ownedRows =
      w.ownedRows.update (nativeRows (written.filter (owns batch.docId batch.kbId)) batch.ids))
      ?_ ?_ fun _ s hs => hnative _ s hs
    · rintro _ rfl
      exact hs₀
    · refine hheld.withPhase .complete (fun _ => rfl) fun _ _ => ?_
      rw [hheld.priorRows]
  intro _
  apply triple_bind
  · exact going_current.weaken fun _ s hs => hnative _ s hs
  intro complete
  apply triple_of_state
  rintro s₁ ⟨hs₁, -, hcomplete⟩
  obtain ⟨phase, m, prior, rfl, -, hnonce, howned⟩ := hcomplete
  -- the mirror
  apply triple_bind (R := fun _ s => Going batch w (fun _ => True) (fun store _ sql =>
    store = written ∧ Booked batch.docId w.sql sql) s ∧ s.mirror = none)
  · refine (triple_clearMirror going_ignoresMirror).mono ?_ (fun _ _ h => h) fun _ s hs => hnative _ s hs
    rintro _ rfl
    exact hs₁.mono (fun _ _ => trivial) fun _ _ _ h => h
  intro _
  -- the transition to `ready`, whose confirmation is excused
  apply triple_bind (R := fun _ s => s.record = some (.ready m) ∧ s.mirror = none ∧ s.store = written)
  · refine triple_transition ?_ (fun _ s hs => hnative _ s hs.1) ?_
    · intro s hs
      exact ⟨rfl, hs.2, hs.1.rest.1⟩
    · intro _ s hs hfin
      exact absurd ⟨m, rfl, hnonce⟩ hfin
  intro _
  refine triple_seq (triple_modify fun _ hs => hs) fun _ => ?_
  refine triple_done ?_
  rintro s ⟨hrecord, hmirror, hstore⟩
  exact ⟨m, hrecord, hnonce, hmirror, hstore, howned⟩

end MultiRag.SourceRecovery
