/-
  **All or blocked: what an insertion of source chunks leaves.**

  The compensation leads from any state an insertion can be under way in to the rows and the
  record before it, or it leaves the record pending. `source_insertion_all_or_blocked` is about
  the life of a task in which no call raises at the `ready` that an insertion has just reached.
-/
import MultiRag.Run
import MultiRag.SourceSteps

namespace MultiRag.SourceRecovery

open Availability Program List Table

variable {X : Insertion → Prop} {batch : Batch} {w : World} {chunks : List SourceChunk}
  {rows : DocumentRow × TaskRow}

/-! ### The compensation -/

theorem Native.settled {s : Insertion} (h : Native batch w s) : Settled batch w s := .inr h.blocked

theorem blocked_ignoresMirror : IgnoresMirror fun s => Blocked s.toWorld := fun _ _ h => h

variable {P : Insertion → Prop}

theorem triple_preserve_blocked {α : Type} {record : Record} {seen : Seen}
    {Q : α → Insertion → Prop} (hP : ∀ s, P s → Blocked s.toWorld) :
    Triple X P (preserve record seen : Action α) Q fun _ => Settled batch w := by
  refine Triple.mono (triple_preserve blocked_ignoresMirror ?_ ?_) hP (fun _ _ h => h) fun _ _ h => .inr h
  · intro s phase m prior _
    exact ⟨phase, m, prior, rfl⟩
  · intro s _ _ _ h
    exact h

variable {doc : DocumentRow}

theorem triple_requireApplied {material : Record} {native : Rows}
    {task : TaskRow} {applied : Option Rows}
    (hP : ∀ s, P s → Blocked s.toWorld) :
    Triple X P (requireApplied batch material native task doc applied) (fun _ => P)
      fun _ => Settled batch w := by
  rcases applied with _ | applied
  · exact triple_preserve_blocked hP
  · exact triple_when (fun _ => triple_preserve_blocked hP) fun _ _ h => h

variable {current : DocumentRow × TaskRow}

theorem triple_restoreSql {sql₀ : Sql} {ρ : Rows → Prop}
    (hacc : Accepted batch w rows) (hbooked : Booked batch.docId w.sql sql₀)
    (hcur : Locked batch sql₀ current) :
    Triple X
      (Going batch w (fun _ => True) fun store session sql => session = sql₀ ∧ ρ store ∧ sql = sql₀)
      (restoreSql batch rows.1 current.1 rows.2)
      (fun _ => Going batch w (fun _ => True) fun store _ sql => ρ store ∧ sql = w.sql)
      fun _ => Settled batch w := by
  apply triple_bind
  · exact (going_updateDocument (ρ := fun store sql => ρ store ∧ sql = sql₀)).weaken fun _ _ h => .inr h.blocked
  intro restoredDoc
  apply triple_bind (R := fun restoredTask => Going batch w (fun _ => True) fun store session sql =>
    (restoredDoc = 1 → restoredTask = 1 → ∃ row, sql₀.documents batch.docId = some row ∧
      session = { sql₀.setDocument batch.docId (row.recounted rows.1) with task := some rows.2 }) ∧
        ρ store ∧ sql = sql₀)
  · refine triple_call ?_ (fun _ hs _ => .inr hs.blocked) ?_
    · intro s hs
      obtain ⟨hdoc, hρ⟩ := hs.rest
      split
      · exact ⟨hs.started, hs.blocked, hs.held, fun _ h => absurd h Nat.zero_ne_one, hρ⟩
      · refine going_session hs ⟨fun hone _ => ?_, hρ⟩
        obtain ⟨row, hrow, hsess⟩ := hdoc hone
        refine ⟨row, hrow, ?_⟩
        rw [hsess]
    · intro s hs _
      split
      · exact .inr hs.blocked
      · exact .inr hs.blocked
  intro restoredTask
  apply triple_bind
  · exact (going_updateKnowledgebase (ρ := fun store sql => ρ store ∧ sql = sql₀)).weaken fun _ _ h => .inr h.blocked
  intro restoredKb
  apply triple_bind (R := fun _ => Going batch w (fun _ => True) fun store session sql =>
    session = w.sql ∧ ρ store ∧ sql = sql₀)
  · refine triple_require ?_ fun s hs _ => .inr hs.blocked
    rintro s hs ⟨hdoc, htask, hkb⟩
    refine hs.mono (fun _ h => h) fun store session sql h => ⟨?_, h.2⟩
    obtain ⟨before, kb, hbefore, hkb, rfl⟩ := h.1 hkb
    obtain ⟨row, hrow, rfl⟩ := hbefore hdoc htask
    cases hcur.document.symm.trans hrow
    exact hbooked.restored hacc.document hacc.task hcur.document hkb
  intro _
  refine triple_call ?_ (fun s hs _ => .inr hs.blocked) fun s hs _ => .inr hs.blocked
  intro s hs
  exact ⟨hs.started, hs.blocked, hs.held, hs.rest.2.1, hs.rest.1⟩

theorem triple_recoverLocked {sql₀ : Sql}
    (hacc : Accepted batch w rows) (hown : Own batch w.store)
    (hbooked : Booked batch.docId w.sql sql₀) (hcur : Locked batch sql₀ current) :
    Triple X
      (Going batch w (fun _ => True) fun store session sql =>
        Own batch store ∧ session = sql₀ ∧ sql = sql₀)
      (recoverLocked batch chunks (w.store.filter (owns batch.docId batch.kbId)) rows.1 current.1
        rows.2 current.2)
      (fun _ => Going batch w (fun _ => True) fun store _ sql =>
        (∀ id ∈ batch.ids, store.get? id = w.store.get? id) ∧ sql = w.sql)
      fun _ => Settled batch w := by
  apply keeps_get.before fun _ _ h => .inr h.blocked
  intro applied
  apply triple_bind (R := fun _ s => Going batch w (fun _ => True) (fun store session sql =>
      Own batch store ∧ session = sql₀ ∧ sql = sql₀) s ∧
    ((current.2 = rows.2 ∧ current.1 = rows.1) ∨
      (some current.2 = applied.1 ∧ some current.1 = applied.2.1)))
  · exact triple_require (fun _ h hc => ⟨h, hc⟩) fun _ h _ => .inr h.blocked
  intro _
  apply triple_of_state
  rintro s₀ ⟨hs₀, howner⟩
  apply Triple.pre (P := Going batch w (fun _ => True) fun store session sql =>
    Own batch store ∧ session = sql₀ ∧ sql = sql₀)
  swap
  · rintro _ rfl
    exact hs₀
  apply keeps_reserveTaskImages.before fun _ _ h => .inr h.blocked
  intro _
  apply triple_bind
  · exact going_current.mono (fun _ h => h) (fun _ _ h => h.1) fun _ _ h => .inr h.blocked
  intro material
  apply triple_seq
  · apply triple_attempt
    · exact keeps_read.triple (fun _ h => h) (fun _ _ h => h) fun _ _ h => h
    · exact fun _ => triple_preserve_blocked fun _ h => h.blocked
  intro native
  apply triple_bind (triple_requireApplied fun _ h => h.blocked)
  intro _
  apply triple_bind
  · exact (going_restoreDocumentHistory (ρ := fun session sql => session = sql₀ ∧ sql = sql₀) hown).mono
      (fun _ h => h) (fun _ _ h => h) fun _ _ h => .inr h.blocked
  intro _
  refine triple_when (fun _ => ?_) fun hkept s hs => ?_
  · refine (triple_restoreSql (ρ := fun store => ∀ id ∈ batch.ids, store.get? id = w.store.get? id)
      hacc hbooked hcur).pre fun s hs => ?_
    exact hs.mono (fun _ h => h) fun _ _ _ h => ⟨h.2.1, h.1, h.2.2⟩
  · -- the rows of SQL are those before, so SQL is
    have hunchanged : current.2 = rows.2 ∧ current.1 = rows.1 := by
      by_contra hne
      exact hkept ⟨howner.resolve_left hne, hne⟩
    have hsql : sql₀ = w.sql := by
      refine hbooked.eq_of_unchanged hacc.document ?_ ?_
      · rw [hcur.document, hunchanged.2]
      · rw [hcur.task, hacc.task, hunchanged.1]
    exact hs.mono (fun _ h => h) fun _ _ _ h => ⟨h.1, h.2.2.trans hsql⟩

theorem triple_recover {keys : List (String × String)} (hacc : Accepted batch w rows)
    (hown : Own batch w.store) :
    Triple X (Native batch w)
      (recover batch chunks (w.store.filter (owns batch.docId batch.kbId)) keys rows.1 rows.2)
      (fun _ => Settled batch w) fun _ => Settled batch w := by
  apply triple_bind (R := fun _ => Going batch w (fun _ => True) fun store session sql =>
    (Own batch store ∧ Booked batch.docId w.sql sql) ∧ session = sql)
  · refine triple_call ?_ (fun _ h _ => h.settled) fun s h _ => .inr h.blocked
    intro s hs
    exact ⟨hs.started, hs.blocked, hs.held, hs.rest, rfl⟩
  intro _
  apply triple_bind
  · exact triple_currentDocumentTask.weaken fun _ _ h => .inr h.blocked
  intro current
  apply triple_of_state
  rintro s₀ ⟨hs₀, hcur⟩
  obtain ⟨⟨hstore, hbooked⟩, hsess⟩ := hs₀.rest
  rw [hsess] at hcur
  apply triple_bind (R := fun _ => Going batch w (fun _ => True) fun store _ sql =>
    (∀ id ∈ batch.ids, store.get? id = w.store.get? id) ∧ sql = w.sql)
  · apply Triple.pre (P := Going batch w (fun _ => True) fun store session sql =>
      Own batch store ∧ session = s₀.sql ∧ sql = s₀.sql)
    · exact triple_imageWriteLocks (triple_recoverLocked hacc hown hbooked hcur)
        (fun _ _ h => .inr h.blocked) (fun _ _ h _ => .inr h.blocked) fun _ _ _ h => h
    · rintro _ rfl
      exact ⟨hs₀.started, hs₀.blocked, hs₀.held, hstore, hsess, rfl⟩
  intro _
  apply triple_seq
  · exact triple_call (fun _ h => ⟨h.started, h.blocked, h.held, h.rest⟩)
      (fun _ h _ => .inr h.blocked) fun _ h _ => .inr h.blocked
  intro _
  -- the record before
  apply triple_bind
  · exact going_current.weaken fun _ _ h => .inr h.blocked
  intro record
  apply triple_of_state
  rintro s₁ ⟨hs₁, -, phase, m, prior, rfl, hprior, -⟩
  apply triple_bind (R := fun _ => Going batch w (fun _ => True) fun store _ sql =>
    (∀ id ∈ batch.ids, store.get? id = w.store.get? id) ∧ sql = w.sql)
  · refine (triple_clearMirror going_ignoresMirror).mono ?_ (fun _ _ h => h.1)
      fun _ _ h => .inr h.blocked
    rintro _ rfl
    exact hs₁
  intro _
  refine triple_transition ?_ (fun _ _ h => .inr h.blocked) ?_
  · intro s hs
    exact .inl ⟨hs.rest.1, hs.rest.2, hprior⟩
  · intro _ s hs _
    exact .inl ⟨hs.rest.1, hs.rest.2, hprior⟩

theorem keys_assigned (doc : DocumentRow) : (batch.assigned doc).map (·.id) = batch.ids := by
  rw [Batch.assigned, map_map]
  rfl

theorem docId_assigned (doc : DocumentRow) (h : ∀ chunk ∈ batch.chunks, chunk.docId = batch.docId) :
    ∀ chunk ∈ batch.assigned doc, chunk.docId = batch.docId := by
  intro chunk hchunk
  obtain ⟨original, horiginal, rfl⟩ := mem_map.mp hchunk
  exact h original horiginal

theorem triple_insertSourceChunks (hown : Own batch w.store) :
    Triple (Finished batch.nonce) (Fresh w) (insertSourceChunks batch)
      (fun _ s => ∃ rows, Accepted batch w rows ∧
        Ended batch w (batch.written w (batch.assigned rows.1)) s)
      fun _ => Settled batch w := by
  apply triple_bind
  · exact triple_sourceDocumentAvailability.weaken fun _ _ h => h.early.2
  intro rows
  apply triple_bind (R := fun snapshot s => (Fresh w s ∧ Accepted batch w rows) ∧
    snapshot = w.store.filter (owns batch.docId batch.kbId))
  · refine triple_read (fun s h => ⟨h, ?_⟩) fun _ h _ => h.1.early.2
    rw [h.1.store]
  intro snapshot
  apply triple_of_state
  rintro s₀ ⟨⟨hfresh, hacc⟩, rfl⟩
  have hdocs := docId_assigned rows.1 hacc.oneDocument
  have hwritten : Own batch (batch.written w (batch.assigned rows.1)) :=
    hown.writeAll fun _ hrow => owns_of_mem_insertions hdocs hrow
  apply triple_attempt (R := fun _ s => Early batch w s ∨ Native batch w s)
  · apply Triple.pre (P := Fresh w)
    swap
    · rintro _ rfl
      exact hfresh
    refine (triple_imageWriteLocks (Q := fun _ => Ended batch w
      (batch.written w (batch.assigned rows.1))) ?_ (fun _ _ h => .inl h.early) ?_
      fun _ _ _ h => h).mono (fun _ h => h) (fun _ s h => ⟨rows, hacc, h⟩) fun _ _ h => h
    · apply triple_bind (triple_insertLocked hacc hown hdocs)
      intro _
      apply triple_bind
      · refine keeps_releaseTaskImages.triple (fun _ h => h) (fun _ _ h => h) fun _ s hs => ?_
        refine .inr (native_of_going hs ?_)
        rintro _ _ _ ⟨rfl, hbooked⟩
        exact ⟨hwritten, hbooked⟩
      intro _
      exact (triple_ready hwritten).weaken fun _ _ h => .inr h
    · -- the release of the locks, at `ready`
      rintro _ s ⟨m, hrecord, hnonce, -⟩ hfin
      exact absurd ⟨m, hrecord, hnonce⟩ hfin
  intro error
  apply triple_bind (R := fun started s => started = s.nativeStarted ∧
    (Early batch w s ∨ Native batch w s))
  · exact triple_get fun _ h => ⟨rfl, h⟩
  intro started
  apply triple_bind (R := fun _ => Settled batch w)
  · refine triple_when (fun hstart => ?_) fun hstart s h => ?_
    · refine (triple_recover hacc hown).pre ?_
      rintro s ⟨rfl, hearly | hnative⟩
      · rw [hearly.1] at hstart
        cases hstart
      · exact hnative
    · obtain ⟨rfl, hearly | hnative⟩ := h
      · exact hearly.2
      · exact absurd hnative.started hstart
  intro _
  exact triple_raise fun _ h => h

def World.rowsWritten (w : World) (batch : Batch) : List (Table.Write String StoredRow) :=
  match w.sql.documents batch.docId with
  | none => []
  | some doc => insertions batch.kbId (batch.assigned doc)

theorem same_ownedRows (hown : Own batch w.store)
    (hdocs : ∀ chunk ∈ batch.chunks, chunk.docId = batch.docId) (before : Rows) :
    (before.update (nativeRows ((batch.written w (batch.assigned doc)).filter
        (owns batch.docId batch.kbId)) batch.ids)).Same
      (before.writeAll (insertions batch.kbId (batch.assigned doc))) := by
  have hwritten : Own batch (batch.written w (batch.assigned doc)) :=
    hown.writeAll fun _ hrow => owns_of_mem_insertions (docId_assigned doc hdocs) hrow
  have hinsertions : insertions batch.kbId (batch.assigned doc) =
      ((batch.assigned doc).map fun chunk => (⟨chunk, batch.kbId⟩ : StoredRow)).map .upsert := by
    rw [insertions, map_map]
    rfl
  intro id
  rw [get?_update, get?_writeAll]
  by_cases hid : id ∈ batch.ids
  · rw [get?_nativeRows hid, get?_snapshot hwritten hid, Batch.written, get?_writeAll]
    rw [← keys_assigned doc] at hid
    obtain ⟨chunk, hchunk, hkey⟩ := mem_map.mp hid
    have hwrite : ∃ row ∈ (batch.assigned doc).map fun chunk => (⟨chunk, batch.kbId⟩ : StoredRow),
        row.id = id := ⟨_, mem_map_of_mem hchunk, hkey⟩
    obtain ⟨row, -, -, hlast⟩ := exists_lastWrite_upserts hwrite
    rw [hinsertions, hlast]
    rfl
  · have hnone : (nativeRows ((batch.written w (batch.assigned doc)).filter
        (owns batch.docId batch.kbId)) batch.ids).get? id = none := by
      rw [get?_eq_none]
      intro row hrow hkey
      apply hid
      rw [← hkey]
      exact mem_of_elem_eq_true (List.mem_filter.mp hrow).2
    rw [hnone, hinsertions, lastWrite_upserts_of_ne]
    · rfl
    · intro row hrow hkey
      obtain ⟨chunk, hchunk, rfl⟩ := mem_map.mp hrow
      apply hid
      rw [← keys_assigned doc, ← hkey]
      exact mem_map_of_mem hchunk

/-! ### Refused insertions -/

theorem triple_blocked (batch : Batch) (h : Blocked w) :
    Triple X (Fresh w) (insertSourceChunks batch) (fun _ _ => False) fun _ s => s.toWorld = w := by
  apply triple_bind (R := fun _ _ => False)
  · refine triple_sourceDocumentAvailability.mono (fun _ h => h) (fun rows s hs => ?_) fun _ _ hs => hs.world
    exact not_resolved_iff.mpr h hs.2.resolved
  intro rows m hm
  exact hm.elim

theorem fresh_begin (w : World) : Fresh w w.begin := ⟨rfl, rfl, rfl⟩

def World.after (w : World) (batch : Batch) (plan : List Fault) : World :=
  (w.insert batch plan).2.state.toWorld

theorem refused_of_blocked (h : Blocked w) (batch : Batch) (plan : List Fault) :
    (∃ error, (w.insert batch plan).1 = .error error) ∧ w.after batch plan = w := by
  have hrun := triple_blocked (X := fun _ => False) batch h ⟨plan, w.begin, []⟩ (fresh_begin w)
  unfold World.after World.insert
  generalize (insertSourceChunks batch).run ⟨plan, w.begin, []⟩ = r at hrun ⊢
  obtain ⟨result, m⟩ := r
  have hexcused : ¬ Excused (fun _ => False) m := by
    rintro ⟨_, _, hfalse⟩
    exact hfalse
  cases result with
  | ok _ => exact (hrun.resolve_left hexcused).elim
  | error error => exact ⟨⟨error, rfl⟩, hrun.resolve_left hexcused⟩

/-! ### The life of a task -/

inductive Event where
  | insert (batch : Batch) (plan : List Fault)
  /-- Others change the store and SQL; the record and its mirror are the task's. -/
  | others (store : Rows) (sql : Sql)

def step : World × Rows → Event → World × Rows
  | (w, written), .insert batch plan =>
    match (w.insert batch plan).1 with
    | .ok _ => (w.after batch plan, written.writeAll (w.rowsWritten batch))
    | .error _ => (w.after batch plan, written)
  | (w, written), .others store sql => ({ w with store := store, sql := sql }, written)

/-- No call raises once the insertion's `ready` stands, and no row of another document or
    dataset has an id of the batch. -/
def Sound (w : World) : Event → Prop
  | .insert batch plan =>
    Own batch w.store ∧ ∀ s ∈ (w.insert batch plan).2.failed, ¬ Finished batch.nonce s
  | .others _ _ => True

/-- All or blocked: what is asked of one insertion by a task that has written some rows. -/
def AllOrBlocked (w : World) (written : Rows) (batch : Batch) (plan : List Fault) : Prop :=
  match (w.insert batch plan).1 with
  | .error _ => AsBefore batch.ids w (w.after batch plan) ∨ Blocked (w.after batch plan)
  | .ok _ => ∃ m, (w.after batch plan).record = some (.ready m) ∧ (w.after batch plan).mirror = none ∧
      m.ownedRows.Same (written.writeAll (w.rowsWritten batch))

/-- The record owns what the task has written, or the task is blocked. -/
def Tracked (x : World × Rows) : Prop := x.1.ownedRows.Same x.2 ∨ Blocked x.1

theorem allOrBlocked_of_sound {written : Rows} {plan : List Fault}
    (htracked : Tracked (w, written)) (hsound : Sound w (.insert batch plan)) :
    AllOrBlocked w written batch plan := by
  rcases htracked with hsame | hblocked
  · have hrun := triple_insertSourceChunks hsound.1 ⟨plan, w.begin, []⟩ (fresh_begin w)
    have hsilent : ¬ Excused (Finished batch.nonce) (w.insert batch plan).2 := by
      rintro ⟨s, hs, hfin⟩
      exact hsound.2 s hs hfin
    unfold AllOrBlocked World.after
    unfold World.insert at hsilent ⊢
    generalize (insertSourceChunks batch).run ⟨plan, w.begin, []⟩ = r at hrun hsilent ⊢
    obtain ⟨result, m⟩ := r
    cases result with
    | error error => exact hrun.resolve_left hsilent
    | ok _ =>
      obtain ⟨rows, hacc, material, hrecord, -, hmirror, -, howned⟩ := hrun.resolve_left hsilent
      refine ⟨material, hrecord, hmirror, ?_⟩
      have hrows : w.rowsWritten batch = insertions batch.kbId (batch.assigned rows.1) := by
        rw [World.rowsWritten, hacc.document]
      rw [howned, hrows]
      intro id
      calc (w.ownedRows.update _).get? id
          = (w.ownedRows.writeAll (insertions batch.kbId (batch.assigned rows.1))).get? id :=
            same_ownedRows hsound.1 hacc.oneDocument _ id
        _ = _ := hsame.writeAll _ id
  · obtain ⟨⟨error, herror⟩, hafter⟩ := refused_of_blocked hblocked batch plan
    unfold AllOrBlocked
    rw [herror, hafter]
    exact .inr hblocked

variable {x : World × Rows}

theorem tracked_step {e : Event} (h : Tracked x) (hsound : Sound x.1 e) :
    Tracked (step x e) := by
  obtain ⟨w, written⟩ := x
  cases e with
  | others store sql => exact h
  | insert batch plan =>
    have hall := allOrBlocked_of_sound h hsound
    unfold AllOrBlocked at hall
    dsimp only [step]
    split at hall
    · next error herror =>
      rw [herror]
      rcases hall with hsame | hblocked
      · refine h.imp (fun howned => ?_) fun hblocked => ?_
        · have hrows : (w.after batch plan).ownedRows = w.ownedRows := by
            rw [World.ownedRows, hsame.record]
            rfl
          rw [hrows]
          exact howned
        · obtain ⟨phase, m, prior, hrecord⟩ := hblocked
          exact ⟨phase, m, prior, hsame.record.trans hrecord⟩
      · exact .inr hblocked
    · next hok =>
      rw [hok]
      obtain ⟨m, hrecord, -, howned⟩ := hall
      refine .inl ?_
      have hrows : (w.after batch plan).ownedRows = m.ownedRows := by
        rw [World.ownedRows, hrecord]
      rw [hrows]
      exact howned

theorem blocked_step {e : Event} (h : Blocked x.1) : Blocked (step x e).1 := by
  cases e with
  | others store sql => exact h
  | insert batch plan =>
    obtain ⟨⟨error, herror⟩, hafter⟩ := refused_of_blocked h batch plan
    dsimp only [step]
    rw [herror, hafter]
    exact h

/-- In a life of sound steps an insertion that raises leaves everything as it was or blocks the
    task, and one that returns leaves a ready record with the rows that the task has written.
    A blocked task inserts nothing, whatever happens. -/
theorem source_insertion_all_or_blocked {w₀ w : World} {written : Rows} {hist : List Event}
    (hrun : Run (fun x e y => Sound x.1 e ∧ y = step x e) (w₀, w₀.ownedRows) hist (w, written)) :
    (∀ batch plan, Sound w (.insert batch plan) → AllOrBlocked w written batch plan) ∧
      (Blocked w → ∀ hist' later, Run (fun x e y => y = step x e) (w, written) hist' later →
        ∀ batch plan, (∃ error, (later.1.insert batch plan).1 = .error error) ∧
          later.1.after batch plan = later.1) := by
  have htracked : Tracked (w, written) := by
    apply Run.invariant (P := Tracked) _ _ hrun
    · exact .inl fun _ => rfl
    · rintro x e y hx ⟨hsound, rfl⟩
      exact tracked_step hx hsound
  refine ⟨fun batch plan => allOrBlocked_of_sound htracked, fun hblocked hist' later hlater => ?_⟩
  have hstill : Blocked later.1 := by
    apply Run.invariant (P := fun x => Blocked x.1) _ _ hlater
    · exact hblocked
    · rintro x e y hx rfl
      exact blocked_step hx
  exact refused_of_blocked hstill

/-! ### A lost confirmation -/

theorem sampleDocument : "d" ≠ graphRaptorX := by decide

def sampleWorld : World where
  store := .empty
  sql := {
    documents := fun id => if id = "d" then some ⟨"kb", .valid, "1", 0, 0, 0, 0⟩ else none
    task := some ⟨"d", sampleDocument, 0, "", ⟨"x", none⟩, []⟩
    kb := some ⟨0, 0⟩ }
  record := none
  mirror := none

def sampleBatch (nonce : Nat) (id : String) : Batch where
  kbId := "kb"
  chunks := [⟨⟨id, "d", none, none, none, none, none, none⟩, none, some 5, "text"⟩]
  source := by
    intro chunk hchunk
    rw [mem_singleton.mp hchunk]
    simp [graphRaptorX]
  nonce := nonce
  now := 100

def raises (n : Nat) : List Fault := replicate n .none ++ [.raised fun _ => true]

/-- A task that has written one chunk loses the reply to its next insertion. -/
theorem source_insertion_all_or_blocked_sample :
    AllOrBlocked (step (sampleWorld, sampleWorld.ownedRows) (.insert (sampleBatch 1 "a") [])).1
      (step (sampleWorld, sampleWorld.ownedRows) (.insert (sampleBatch 1 "a") [])).2
      (sampleBatch 2 "b") (raises 20) := by
  have hfirst : Sound sampleWorld (.insert (sampleBatch 1 "a") []) :=
    ⟨by decide, by decide +kernel⟩
  refine (source_insertion_all_or_blocked (.cons .nil ⟨hfirst, rfl⟩)).1 _ _ ⟨?_, ?_⟩
  · decide +kernel
  · decide +kernel

/-- The read that confirms `ready` raises: the rows are taken back, the record stays ready. -/
theorem ready_confirmation_lost :
    Own (sampleBatch 1 "a") sampleWorld.store ∧
      ¬ AllOrBlocked sampleWorld sampleWorld.ownedRows (sampleBatch 1 "a") (raises 46) := by
  refine ⟨by decide, ?_⟩
  have hready : (sampleWorld.insert (sampleBatch 1 "a") (raises 46)).1.isOk = false ∧
      ((sampleWorld.after (sampleBatch 1 "a") (raises 46)).record.any fun record =>
        Resolved (some record)) = true := by
    decide +kernel
  intro hall
  unfold AllOrBlocked at hall
  split at hall
  · rcases hall with hsame | ⟨phase, m, prior, hrecord⟩
    · have hnone : (sampleWorld.after (sampleBatch 1 "a") (raises 46)).record = none := hsame.record
      rw [hnone] at hready
      exact absurd hready.2 (by decide)
    · rw [hrecord, Option.any_some] at hready
      exact of_decide_eq_true hready.2
  · next hok =>
    rw [hok] at hready
    cases hready.1

end MultiRag.SourceRecovery
