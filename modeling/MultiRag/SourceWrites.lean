/-
  **The writes of an insertion under way, to the store and to SQL.**

  After an insertion or a deletion that was made in part, the rows with the ids of the batch
  are rows of its document (`Own`).  What is registered differs from the rows before in
  counts and times, and the dataset has moved by the same counts (`Booked`).
-/
import MultiRag.SourceGoing

namespace MultiRag.SourceRecovery

open Availability Program Table List Function

/-! ### The store -/

/-- What a batch finds under its ids is of its own document. -/
def Own (batch : Batch) (store : Rows) : Prop :=
  ∀ id ∈ batch.ids, ∀ row, store.get? id = some row → owns batch.docId batch.kbId row = true

variable {batch : Batch} {store : Rows}

theorem own_iff : Own batch store ↔
    ∀ id ∈ batch.ids, (store.get? id).all (owns batch.docId batch.kbId) = true := by
  simp only [Own, Option.all_eq_true]

instance (batch : Batch) (store : Rows) : Decidable (Own batch store) :=
  decidable_of_iff _ own_iff.symm

theorem mem_of_mem_takePart {α : Type} {took : Nat → Bool} {l : List α} {x : α}
    (h : x ∈ takePart took l) : x ∈ l := by
  obtain ⟨p, hp, rfl⟩ := mem_map.mp h
  exact fst_mem_of_mem_zipIdx (List.mem_filter.mp hp).1

theorem Own.writeAll {writes : List (Table.Write String StoredRow)} (h : Own batch store)
    (hwrites : ∀ row, .upsert row ∈ writes → owns batch.docId batch.kbId row = true) :
    Own batch (store.writeAll writes) := by
  intro id hid row hrow
  rcases mem_of_mem_writeAll (mem_of_get? hrow) with hold | hnew
  · apply h id hid row
    rw [← key_of_get? hrow]
    exact get?_of_mem hold
  · exact hwrites row hnew

theorem owns_of_mem_insertions {chunks : List SourceChunk}
    (hdoc : ∀ chunk ∈ chunks, chunk.docId = batch.docId) {row : StoredRow}
    (h : .upsert row ∈ insertions batch.kbId chunks) : owns batch.docId batch.kbId row = true := by
  obtain ⟨chunk, hchunk, hrow⟩ := mem_map.mp h
  cases hrow
  simp [owns, hdoc chunk hchunk]

variable {id : String}

theorem get?_deletions (h : Own batch store) (hid : id ∈ batch.ids) :
    (store.writeAll (deletions batch.docId batch.kbId batch.ids store)).get? id = none := by
  have hdeletions : deletions batch.docId batch.kbId batch.ids store =
      (((nativeRows store batch.ids).filter (owns batch.docId batch.kbId)).rows.map
        StoredRow.id).map .delete := by
    rw [deletions, map_map]
    rfl
  rw [hdeletions, get?_writeAll, lastWrite_deletes]
  split
  · rfl
  · next hout =>
    rw [Option.getD_none, get?_eq_none]
    intro row hrow hkey
    apply hout
    rw [mem_map]
    refine ⟨row, ?_, hkey⟩
    have hown := h id hid row (get?_eq_some.mpr ⟨hrow, hkey⟩)
    refine List.mem_filter.mpr ⟨List.mem_filter.mpr ⟨hrow, ?_⟩, hown⟩
    rw [hkey]
    exact elem_eq_true_of_mem hid

theorem get?_nativeRows {rows : Rows} {ids : List String} (hid : id ∈ ids) :
    (nativeRows rows ids).get? id = rows.get? id := by
  rw [nativeRows, get?_filter]
  rcases h : rows.get? id with _ | row
  · rfl
  · have hkey := key_of_get? h
    simp [Option.filter, hkey, hid]

theorem get?_snapshot (h : Own batch store) (hid : id ∈ batch.ids) :
    (store.filter (owns batch.docId batch.kbId)).get? id = store.get? id := by
  rw [get?_filter]
  rcases hrow : store.get? id with _ | row
  · rfl
  · simp [Option.filter, h id hid row hrow]

variable {X : Insertion → Prop} {w : World} {φ : Material → Prop} {ρ : Sql → Sql → Prop}

theorem going_writeStore {χ χ' χ'' : Rows → Sql → Sql → Prop}
    {writes : Insertion → List (Table.Write String StoredRow)}
    (hall : ∀ s, Going batch w φ χ s → χ' (s.store.writeAll (writes s)) s.session s.sql)
    (hpart : ∀ took s, Going batch w φ χ s →
      χ'' (s.store.writeAll (takePart took (writes s))) s.session s.sql) :
    Triple X (Going batch w φ χ) (writeStore writes) (fun _ => Going batch w φ χ')
      fun _ => Going batch w φ χ'' :=
  triple_callPart (fun s hs => ⟨hs.started, hs.blocked, hs.held, hall s hs⟩)
    fun took s hs _ => ⟨hs.started, hs.blocked, hs.held, hpart took s hs⟩

theorem going_deleteDocumentHistory :
    Triple X (Going batch w φ fun store session sql => Own batch store ∧ ρ session sql)
      (deleteDocumentHistory batch.docId batch.kbId batch.ids)
      (fun _ => Going batch w φ fun store session sql =>
        (∀ id ∈ batch.ids, store.get? id = none) ∧ ρ session sql)
      fun _ => Going batch w φ fun store session sql => Own batch store ∧ ρ session sql := by
  have hown : ∀ s, Going batch w φ (fun store session sql =>
        (∀ id ∈ batch.ids, store.get? id = none) ∧ ρ session sql) s →
      Going batch w φ (fun store session sql => Own batch store ∧ ρ session sql) s := by
    intro s hs
    refine hs.mono (fun _ h => h) fun store _ _ h => ⟨?_, h.2⟩
    intro id hid row hrow
    rw [h.1 id hid] at hrow
    cases hrow
  apply triple_bind (R := fun _ => Going batch w φ fun store session sql =>
    (∀ id ∈ batch.ids, store.get? id = none) ∧ ρ session sql)
  · refine going_writeStore ?_ ?_
    · intro s hs
      exact ⟨fun id hid => get?_deletions hs.rest.1 hid, hs.rest.2⟩
    intro took s hs
    refine ⟨hs.rest.1.writeAll fun row hrow => ?_, hs.rest.2⟩
    obtain ⟨_, -, h⟩ := mem_map.mp (mem_of_mem_takePart hrow)
    cases h
  · intro _
    refine Keeps.triple ?_ (fun _ hs => hs) (fun _ _ hs => hs) fun _ s hs => hown s hs
    exact keeps_bind keeps_confirm fun _ => keeps_bind keeps_read fun _ => keeps_require

theorem going_restoreDocumentHistory (hw : Own batch w.store) :
    Triple X (Going batch w φ fun store session sql => Own batch store ∧ ρ session sql)
      (restoreDocumentHistory batch.docId batch.kbId
        (w.store.filter (owns batch.docId batch.kbId)) batch.ids)
      (fun _ => Going batch w φ fun store session sql =>
        (∀ id ∈ batch.ids, store.get? id = w.store.get? id) ∧ ρ session sql)
      fun _ => Going batch w φ fun store session sql => Own batch store ∧ ρ session sql := by
  have hrestored : ∀ s, Going batch w φ (fun store session sql =>
        (∀ id ∈ batch.ids, store.get? id = w.store.get? id) ∧ ρ session sql) s →
      Going batch w φ (fun store session sql => Own batch store ∧ ρ session sql) s := by
    intro s hs
    refine hs.mono (fun _ h => h) fun store _ _ h => ⟨?_, h.2⟩
    intro id hid row hrow
    exact hw id hid row ((h.1 id hid).symm.trans hrow)
  have hsnapshot : ∀ id ∈ batch.ids,
      (nativeRows (w.store.filter (owns batch.docId batch.kbId)) batch.ids).get? id =
        w.store.get? id := by
    intro id hid
    rw [get?_nativeRows hid, get?_snapshot hw hid]
  apply triple_bind going_deleteDocumentHistory
  intro _
  apply triple_bind (R := fun _ => Going batch w φ fun store session sql =>
    (∀ id ∈ batch.ids, store.get? id = w.store.get? id) ∧ ρ session sql)
  · refine triple_when (fun _ => ?_) fun hnone s hs => ?_
    · apply triple_bind (R := fun _ => Going batch w φ fun store session sql =>
        (∀ id ∈ batch.ids, store.get? id = w.store.get? id) ∧ ρ session sql)
      · refine going_writeStore ?_ ?_
        · intro s hs
          refine ⟨fun id hid => ?_, hs.rest.2⟩
          have hupdate := get?_update s.store
            (nativeRows (w.store.filter (owns batch.docId batch.kbId)) batch.ids) id
          rw [update_eq_writeAll] at hupdate
          rw [hupdate, hsnapshot id hid, hs.rest.1 id hid, Option.or_none]
        · intro took s hs
          refine ⟨Own.writeAll ?_ fun row hrow => ?_, hs.rest.2⟩
          · intro id hid row hrow
            rw [hs.rest.1 id hid] at hrow
            cases hrow
          · obtain ⟨row', hrow', h⟩ := mem_map.mp (mem_of_mem_takePart hrow)
            cases h
            exact (List.mem_filter.mp (List.mem_filter.mp hrow').1).2
      · intro _
        exact keeps_confirm.triple (fun _ hs => hs) (fun _ _ hs => hs) fun _ s hs => hrestored s hs
    · -- a snapshot without rows of the batch
      refine hs.mono (fun _ h => h) fun store _ _ h => ⟨fun id hid => ?_, h.2⟩
      rw [h.1 id hid, ← hsnapshot id hid]
      symm
      rw [get?_eq_none]
      intro row hrow
      rw [mem_def, not_not.mp hnone] at hrow
      cases hrow
  · intro _
    refine Keeps.triple ?_ (fun _ hs => hs) (fun _ _ hs => hs) fun _ s hs => hrestored s hs
    exact keeps_bind keeps_read fun _ => keeps_require

/-! ### SQL -/

/-- `after` differs from `before` in the task and in the document's counts and times, and the
    counts of the dataset have moved with those of the document. -/
def Booked (docId : String) (before after : Sql) : Prop :=
  ∃ doc doc' task', before.documents docId = some doc ∧ doc'.recounted doc = doc ∧
    after = ⟨Function.update before.documents docId (some doc'), some task',
      before.kb.map (·.plus (doc'.chunkNum - doc.chunkNum) (doc'.tokenNum - doc.tokenNum))⟩

theorem Knowledgebase.plus_zero (kb : Knowledgebase) : kb.plus 0 0 = kb := by
  simp [Knowledgebase.plus]

theorem Knowledgebase.plus_plus (kb : Knowledgebase) (c t c' t' : Int) :
    (kb.plus c t).plus c' t' = kb.plus (c + c') (t + t') := by
  simp [Knowledgebase.plus, add_assoc]

variable {docId : String} {doc : DocumentRow} {task : TaskRow}

theorem booked_refl {sql : Sql} (hdoc : sql.documents docId = some doc)
    (htask : sql.task = some task) : Booked docId sql sql := by
  refine ⟨doc, doc, task, hdoc, rfl, ?_⟩
  obtain ⟨documents, stored, kb⟩ := sql
  have hmap : kb.map (·.plus (doc.chunkNum - doc.chunkNum) (doc.tokenNum - doc.tokenNum)) = kb := by
    rcases kb with _ | kb
    · rfl
    · simp [Knowledgebase.plus_zero]
  have hsame : Function.update documents docId (some doc) = documents := by
    rw [← hdoc, update_eq_self]
  rw [hmap, hsame, ← htask]

variable {before after : Sql} (h : Booked docId before after)
include h

theorem Booked.setTask (task : TaskRow) :
    Booked docId before { after with task := some task } := by
  obtain ⟨doc, doc', _, hdoc, hsame, rfl⟩ := h
  exact ⟨doc, doc', task, hdoc, hsame, rfl⟩

variable {kb : Knowledgebase}

theorem Booked.plus {row row' : DocumentRow} {c t : Int}
    (hrow : after.documents docId = some row) (hkb : after.kb = some kb)
    (hsame : ∀ original, row'.recounted original = row.recounted original)
    (hchunks : row'.chunkNum = row.chunkNum + c) (htokens : row'.tokenNum = row.tokenNum + t) :
    Booked docId before { after.setDocument docId row' with kb := some (kb.plus c t) } := by
  obtain ⟨doc, doc', task', hdoc, hback, rfl⟩ := h
  simp only [update_self, Option.some_inj] at hrow
  subst hrow
  refine ⟨doc, row', task', hdoc, (hsame doc).trans hback, ?_⟩
  obtain ⟨kb₀, hkb₀, rfl⟩ := Option.map_eq_some_iff.mp hkb
  have hc : row'.chunkNum - doc.chunkNum = doc'.chunkNum - doc.chunkNum + c := by
    rw [hchunks]
    omega
  have ht : row'.tokenNum - doc.tokenNum = doc'.tokenNum - doc.tokenNum + t := by
    rw [htokens]
    omega
  simp only [Sql.setDocument, update_idem, hkb₀, Option.map_some, Knowledgebase.plus_plus, hc,
    ht]

theorem Booked.restored {doc' : DocumentRow}
    (hdoc : before.documents docId = some doc) (htask : before.task = some task)
    (hdoc' : after.documents docId = some doc') (hkb : after.kb = some kb) :
    { after.setDocument docId (doc'.recounted doc) with
        task := some task
        kb := some (kb.plus (doc.chunkNum - doc'.chunkNum) (doc.tokenNum - doc'.tokenNum)) } =
      before := by
  obtain ⟨doc₀, doc₀', task', hdoc₀, hback, rfl⟩ := h
  cases hdoc.symm.trans hdoc₀
  simp only [update_self, Option.some_inj] at hdoc'
  subst hdoc'
  obtain ⟨kb₀, hkb₀, rfl⟩ := Option.map_eq_some_iff.mp hkb
  obtain ⟨documents, stored, kb⟩ := before
  dsimp only at hdoc htask hkb₀
  have hsame : Function.update documents docId (some doc) = documents := by
    rw [← hdoc, update_eq_self]
  have hzero : ∀ a b : Int, a - b + (b - a) = 0 := fun a b => by omega
  simp only [Sql.setDocument, update_idem, hback, hsame, Knowledgebase.plus_plus, hzero,
    Knowledgebase.plus_zero, htask, hkb₀]

theorem Booked.eq_of_unchanged
    (hdoc : before.documents docId = some doc) (hdoc' : after.documents docId = some doc)
    (htask : after.task = before.task) : after = before := by
  obtain ⟨doc₀, doc₀', task', hdoc₀, -, rfl⟩ := h
  cases hdoc.symm.trans hdoc₀
  simp only [update_self, Option.some_inj] at hdoc'
  subst hdoc'
  obtain ⟨documents, stored, kb⟩ := before
  dsimp only at hdoc htask ⊢
  have hmap : kb.map (·.plus (doc₀'.chunkNum - doc₀'.chunkNum) (doc₀'.tokenNum - doc₀'.tokenNum)) =
      kb := by
    rcases kb with _ | kb
    · rfl
    · simp [Knowledgebase.plus_zero]
  have hsame : Function.update documents docId (some doc₀') = documents := by
    rw [← hdoc, update_eq_self]
  rw [hmap, hsame, htask]

omit h

end MultiRag.SourceRecovery
