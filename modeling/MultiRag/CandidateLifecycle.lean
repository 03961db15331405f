/-
  **Every candidate ends once.**

  `Ledger` ties the store to the changes made so far: a candidate with its ownership row has no
  end yet, a promoted one is public and stays, any other end removes the row. `Secured` says which
  locks protect what a transaction is about to do.
-/
import MultiRag.CandidateCleanup
import MultiRag.HistoryUpdates

namespace MultiRag.History

open List Table Function

/-! ### What a transaction does to the store -/

/-- The rows `ids` are gone, with their ownership rows; the other conversations stay whose they
    were. -/
structure Removed (ids : List String) (s s' : HistoryStore) : Prop where
  gone : ∀ id ∈ ids, s'.canvas.get? id = none
  kept : ∀ id ∉ ids, (s'.canvas.get? id).map API4Conversation.identity =
    (s.canvas.get? id).map API4Conversation.identity
  candidates : ∀ metadata, metadata ∈ s'.candidates ↔
    metadata ∈ s.candidates ∧ metadata.candidateSessionId ∉ ids

/-- The candidate `id` is published under the user it was prepared for. -/
structure Promoted (id userId : String) (s s' : HistoryStore) : Prop where
  row : ∃ row, s'.canvas.get? id = some row ∧ row.userId = userId
  kept : ∀ k, k ≠ id → s'.canvas.get? k = s.canvas.get? k
  candidates : ∀ metadata, metadata ∈ s'.candidates ↔
    metadata ∈ s.candidates ∧ metadata.candidateSessionId ≠ id

structure Added (id : String) (s s' : HistoryStore) : Prop where
  row : (s'.canvas.get? id).isSome
  kept : ∀ k, k ≠ id → s'.canvas.get? k = s.canvas.get? k
  candidates : ∃ metadata, metadata.candidateSessionId = id ∧ metadata.publishUserId ≠ some id ∧
    ∀ other, other ∈ s'.candidates ↔ other = metadata ∨ other ∈ s.candidates

theorem Removed.nil (s : HistoryStore) : Removed [] s s :=
  ⟨by simp, fun _ _ => rfl, by simp⟩

theorem removed_deleteCanvas (s : HistoryStore) (id : String) : Removed [id] s (s.deleteCanvas id) where
  gone k hk := by
    rw [mem_singleton] at hk
    rw [HistoryStore.deleteCanvas, get?_delete, if_pos hk.symm]
  kept k hk := by
    rw [mem_singleton] at hk
    rw [HistoryStore.deleteCanvas, get?_delete, if_neg (Ne.symm hk)]
  candidates metadata := by simp [HistoryStore.deleteCanvas]

variable {s s' : HistoryStore}

theorem Removed.trans {ids more : List String} {s'' : HistoryStore} (h : Removed ids s s')
    (h' : Removed more s' s'') : Removed (ids ++ more) s s'' where
  gone id hid := by
    by_cases hmore : id ∈ more
    · exact h'.gone id hmore
    · have hids : id ∈ ids := (mem_append.mp hid).resolve_right hmore
      have hsame := h'.kept id hmore
      rw [h.gone id hids] at hsame
      simpa using hsame
  kept id hid := by
    rw [mem_append, not_or] at hid
    exact (h'.kept id hid.2).trans (h.kept id hid.1)
  candidates metadata := by
    rw [h'.candidates, h.candidates, mem_append, not_or, and_assoc]

theorem removed_deleteRows (ids : List String) (s : HistoryStore) : Removed ids s (deleteRows ids s) := by
  induction ids generalizing s with
  | nil => exact Removed.nil s
  | cons id ids ih => exact (removed_deleteCanvas s id).trans (ih _)

variable {metadata : ChannelCanvasCandidate} {changes : Changes} {store : HistoryStore} {issued : List String} {id : String}

theorem removed_candidate (hmeta : metadata ∈ s.candidates)
    (hid : metadata.candidateSessionId = id) :
    Removed [id] s ({ s with candidates := s.candidates.delete metadata.id }.deleteCanvas id) := by
  have h := removed_deleteCanvas { s with candidates := s.candidates.delete metadata.id } id
  refine ⟨h.gone, h.kept, fun other => ?_⟩
  rw [h.candidates, mem_delete, mem_singleton]
  constructor
  · rintro ⟨⟨hother, -⟩, hne⟩
    exact ⟨hother, hne⟩
  · rintro ⟨hother, hne⟩
    refine ⟨⟨hother, fun heq => hne ?_⟩, hne⟩
    rw [eq_of_key hother hmeta heq, hid]

variable {row : API4Conversation}

theorem removed_put {published : API4Conversation}
    (hget : s.canvas.get? id = some row) (hident : published.identity = row.identity) :
    Removed [] s { s with canvas := s.canvas.put published } where
  gone := by simp
  kept k _ := by
    have hkey : published.id = row.id := congrArg Prod.fst hident
    have hrow := get?_eq_some.mp hget
    by_cases hk : k = published.id
    · have hid : id = published.id := hrow.2.symm.trans hkey.symm
      rw [hk, get?_put_self hrow.1 hkey, ← hid, hget, Option.map_some, Option.map_some, hident]
    · rw [get?_put_of_ne hk]
  candidates := by simp

theorem promoted_put {candidate published : API4Conversation}
    (hunique : s.candidates.Unique (·.candidateSessionId)) (hmeta : metadata ∈ s.candidates)
    (hsess : metadata.candidateSessionId = id) (hkey : published.id = id)
    (hcand : candidate ∈ s.canvas) (hid : candidate.id = id) :
    Promoted id published.userId s
      { s with canvas := s.canvas.put published, candidates := s.candidates.delete metadata.id } where
  row := ⟨published, hkey ▸ get?_put_self hcand (hkey.trans hid.symm), rfl⟩
  kept k hk := get?_put_of_ne (hkey.symm ▸ hk)
  candidates other := by
    rw [mem_delete]
    constructor
    · rintro ⟨hother, hne⟩
      refine ⟨hother, fun heq => hne ?_⟩
      rw [hunique other hother metadata hmeta (heq.trans hsess.symm)]
    · rintro ⟨hother, hne⟩
      refine ⟨hother, fun heq => hne ?_⟩
      rw [eq_of_key hother hmeta heq, hsess]

theorem insertCanvas_ok (h : s.insertCanvas row = .ok s') :
    s.canvas.insert? row = some s'.canvas ∧ s'.candidates = s.candidates := by
  unfold HistoryStore.insertCanvas at h
  split at h
  · next hinsert =>
    cases h
    exact ⟨hinsert, rfl⟩
  · cases h

theorem insertCandidate_ok {row : ChannelCanvasCandidate}
    (h : s.insertCandidate row = .ok s') :
    s.candidates.insert? row = some s'.candidates ∧ s'.canvas = s.canvas := by
  unfold HistoryStore.insertCandidate at h
  split at h
  · cases h
  · split at h
    · next hinsert =>
      cases h
      exact ⟨hinsert, rfl⟩
    · cases h

theorem added_inserts {s₁ : HistoryStore}
    (hrow : s.insertCanvas row = .ok s₁) (hmeta : s₁.insertCandidate metadata = .ok s')
    (hsess : metadata.candidateSessionId = row.id) (huser : metadata.publishUserId ≠ some row.id) :
    Added row.id s s' := by
  obtain ⟨hcanvas, hcands⟩ := insertCanvas_ok hrow
  obtain ⟨hinsert, hsame⟩ := insertCandidate_ok hmeta
  refine ⟨?_, fun k hk => ?_, metadata, hsess, huser, fun other => ?_⟩
  · rw [hsame, get?_of_mem ((mem_insert? hcanvas).mpr (.inl rfl))]
    rfl
  · rw [hsame, Table.get?_insert?_of_ne hcanvas hk]
  · rw [mem_insert? hinsert, hcands]

variable {stripReasoning : String → String} {loads : String → Option Json}
  {prepared : PreparedCanvasExecution} {ending : Ending}

theorem writeEnding_cases
    (hunique : s.candidates.Unique (·.candidateSessionId))
    (h : writeEnding stripReasoning loads ending prepared id s = (changes, s')) :
    (changes = [] ∧ s' = s) ∨
      ∃ metadata ∈ s.candidates, metadata.candidateSessionId = id ∧
        ((∃ change, changes = [(id, change)] ∧ (change = .replaced ∨ change = .aborted) ∧ Removed [id] s s') ∨
          (changes = [(id, .promoted)] ∧ ∃ userId, metadata.publishUserId = some userId ∧
            Promoted id userId s s')) := by
  unfold writeEnding at h
  cases ending with
  | commit generated =>
    dsimp only at h
    split at h
    · cases h
      exact .inl ⟨rfl, rfl⟩
    · next returned s'' hcommit =>
      cases h
      right
      rcases hpublic : prepared.publicSessionId with - | sessionId
      · obtain ⟨candidate, metadata, published, -, hget, hmem, hsess, -, hpublished, rfl⟩ :=
          commitLocked_new hcommit hpublic
        obtain ⟨-, huser, hid⟩ := publishNew_ok hpublished
        have hkey : published.id = id := hid.trans (key_of_get? hget)
        refine ⟨metadata, hmem, hsess, .inr ⟨rfl, _, huser, ?_⟩⟩
        exact promoted_put hunique hmem hsess hkey (mem_of_get? hget) (key_of_get? hget)
      · obtain ⟨row, metadata, published, hget, -, hmem, hsess, hident, rfl⟩ :=
          commitLocked_session hcommit hpublic
        refine ⟨metadata, hmem, hsess, .inl ⟨.replaced, rfl, .inl rfl, ?_⟩⟩
        exact (removed_put hget hident).trans (removed_candidate hmem hsess)
  | abort =>
    dsimp only at h
    rcases abortLocked_cases prepared id false s with hsame | ⟨metadata, hmem, hsess, hpresent, heq⟩
    · have hstays : ((s.canvas.get? id).isSome && (s.canvas.get? id).isNone) = false := by
        cases s.canvas.get? id <;> rfl
      rw [hsame, hstays] at h
      cases h
      exact .inl ⟨rfl, rfl⟩
    · have hrem := removed_candidate hmem hsess
      rw [heq, hrem.gone id mem_cons_self] at h
      simp only [hpresent, Option.isNone_none, Bool.and_self, if_true, Prod.mk.injEq] at h
      obtain ⟨rfl, rfl⟩ := h
      exact .inr ⟨metadata, hmem, hsess, .inl ⟨.aborted, rfl, .inr rfl, hrem⟩⟩

theorem prepareCanvas_added {args : PrepareCanvas}
    (hsess : args.sessionId.isSome)
    (h : prepareCanvas stripReasoning loads args s = .ok (prepared, s')) :
    Added args.candidateId s s' := by
  obtain ⟨sessionId, hsome⟩ := Option.isSome_iff_exists.mp hsess
  rw [prepareCanvas, hsome] at h
  unfold prepareSession at h
  obtain ⟨source, -, h⟩ := bind_eq_ok.mp h
  obtain ⟨-, -, h⟩ := bind_eq_ok.mp h
  obtain ⟨messages, -, h⟩ := bind_eq_ok.mp h
  obtain ⟨dsl, -, h⟩ := bind_eq_ok.mp h
  obtain ⟨s₁, hrow, h⟩ := bind_eq_ok.mp h
  obtain ⟨s₂, hmeta, h⟩ := bind_eq_ok.mp h
  obtain ⟨-, rfl⟩ := finish_eq_ok h
  exact added_inserts hrow hmeta rfl (by simp)

theorem captureCandidate_added {conversation : API4Conversation} {metadataId : String}
    {expiresAt : Int} (huser : conversation.userId ≠ conversation.id)
    (h : captureCandidate prepared conversation metadataId expiresAt s = .ok ((), s')) :
    Added conversation.id s s' := by
  unfold captureCandidate at h
  obtain ⟨-, -, h⟩ := bind_eq_ok.mp h
  obtain ⟨s₁, hrow, h⟩ := bind_eq_ok.mp h
  obtain ⟨s₂, hmeta, h⟩ := bind_eq_ok.mp h
  cases h
  have hadded := added_inserts hrow hmeta rfl (by simpa using huser)
  exact hadded

/-! ### The ledger of candidates -/

def Ended (changes : Changes) (id : String) : Prop :=
  ∃ change, change ≠ .created ∧ (id, change) ∈ changes

def endings (changes : Changes) : Changes := changes.filter fun entry => entry.2 ≠ .created

theorem mem_endings {entry : String × Change} :
    entry ∈ endings changes ↔ entry ∈ changes ∧ entry.2 ≠ .created := by
  simp [endings]

structure Ledger (changes : Changes) (store : HistoryStore) (issued : List String) : Prop where
  known : ∀ row ∈ store.canvas, row.id ∈ issued
  sessions : store.candidates.Unique (·.candidateSessionId)
  present : ∀ metadata ∈ store.candidates, (store.canvas.get? metadata.candidateSessionId).isSome
  pending : ∀ metadata ∈ store.candidates, ¬ Ended changes metadata.candidateSessionId
  publisher : ∀ metadata ∈ store.candidates, metadata.publishUserId ≠ some metadata.candidateSessionId
  issued : ∀ entry ∈ changes, entry.1 ∈ issued
  promoted : ∀ id, (id, .promoted) ∈ changes → ∃ row, store.canvas.get? id = some row ∧ row.userId ≠ id
  gone : ∀ id change, change ≠ .created → change ≠ .promoted → (id, change) ∈ changes →
    store.canvas.get? id = none
  once : ((endings changes).map Prod.fst).Nodup
  accounted : ∀ id, (id, .created) ∈ changes →
    (∃ metadata ∈ store.candidates, metadata.candidateSessionId = id) ∨ Ended changes id

namespace Ledger

variable {store' : HistoryStore} {userId : String}

theorem get?_identity {s s' : HistoryStore} {row : API4Conversation}
    (hkept : (s'.canvas.get? id).map API4Conversation.identity =
      (s.canvas.get? id).map API4Conversation.identity) (hrow : s.canvas.get? id = some row) :
    ∃ row', s'.canvas.get? id = some row' ∧ row'.userId = row.userId := by
  rw [hrow, Option.map_some, Option.map_eq_some_iff] at hkept
  obtain ⟨row', hrow', hident⟩ := hkept
  exact ⟨row', hrow', congrArg (fun columns => columns.2.2.2.1) hident⟩

variable {ids : List String}

section

variable (h : Ledger changes store issued)
include h

theorem close {change : Change}
    (hcreated : change ≠ .created)
    (hcands : ∀ metadata, metadata ∈ store'.candidates ↔
      metadata ∈ store.candidates ∧ metadata.candidateSessionId ∉ ids)
    (hkept : ∀ id ∉ ids, (store'.canvas.get? id).map API4Conversation.identity =
      (store.canvas.get? id).map API4Conversation.identity)
    (hprom : change = .promoted → ∀ id ∈ ids, ∃ row, store'.canvas.get? id = some row ∧ row.userId ≠ id)
    (hgone : change ≠ .promoted → ∀ id ∈ ids, store'.canvas.get? id = none)
    (hnodup : ids.Nodup) (hpresent : ∀ id ∈ ids, (store.canvas.get? id).isSome)
    (hopen : ∀ id ∈ ids, ¬ Ended changes id) :
    Ledger (ids.map (fun id => (id, change)) ++ changes) store' issued := by
  have hissued : ∀ id ∈ ids, id ∈ issued := by
    intro id hid
    obtain ⟨row, hrow⟩ := Option.isSome_iff_exists.mp (hpresent id hid)
    exact key_of_get? hrow ▸ h.known row (mem_of_get? hrow)
  have hmem : ∀ entry, entry ∈ ids.map (fun id => (id, change)) ++ changes ↔
      (entry.1 ∈ ids ∧ entry.2 = change) ∨ entry ∈ changes := by
    rintro ⟨id, other⟩
    simp only [mem_append, mem_map, Prod.mk.injEq]
    constructor
    · rintro (⟨_, hid, rfl, rfl⟩ | hold)
      · exact .inl ⟨hid, rfl⟩
      · exact .inr hold
    · rintro (⟨hid, rfl⟩ | hold)
      · exact .inl ⟨id, hid, rfl, rfl⟩
      · exact .inr hold
  have hended : ∀ id, Ended (ids.map (fun id => (id, change)) ++ changes) id ↔
      id ∈ ids ∨ Ended changes id := by
    intro id
    simp only [Ended, hmem]
    constructor
    · rintro ⟨other, hother, ⟨hid, -⟩ | hold⟩
      · exact .inl hid
      · exact .inr ⟨other, hother, hold⟩
    · rintro (hid | ⟨other, hother, hold⟩)
      · exact ⟨change, hcreated, .inl ⟨hid, rfl⟩⟩
      · exact ⟨other, hother, .inr hold⟩
  refine ⟨?_, ?_, ?_, ?_, ?_, ?_, ?_, ?_, ?_, ?_⟩
  · intro row hrow
    by_cases hid : row.id ∈ ids
    · exact hissued _ hid
    · have hsame := hkept _ hid
      rw [get?_of_mem hrow, Option.map_some, eq_comm, Option.map_eq_some_iff] at hsame
      obtain ⟨old, hold, -⟩ := hsame
      exact key_of_get? hold ▸ h.known old (mem_of_get? hold)
  · intro a ha b hb heq
    exact h.sessions a ((hcands a).mp ha).1 b ((hcands b).mp hb).1 heq
  · intro metadata hmeta
    obtain ⟨hold, hid⟩ := (hcands metadata).mp hmeta
    obtain ⟨row, hrow⟩ := Option.isSome_iff_exists.mp (h.present metadata hold)
    obtain ⟨row', hrow', -⟩ := get?_identity (hkept _ hid) hrow
    exact Option.isSome_iff_exists.mpr ⟨row', hrow'⟩
  · intro metadata hmeta
    obtain ⟨hold, hid⟩ := (hcands metadata).mp hmeta
    rw [hended, not_or]
    exact ⟨hid, h.pending metadata hold⟩
  · intro metadata hmeta
    exact h.publisher metadata ((hcands metadata).mp hmeta).1
  · intro entry hentry
    rcases (hmem entry).mp hentry with ⟨hid, -⟩ | hold
    · exact hissued _ hid
    · exact h.issued entry hold
  · intro id hid
    rcases (hmem _).mp hid with ⟨hid, heq⟩ | hold
    · exact hprom heq.symm id hid
    · obtain ⟨row, hrow, huser⟩ := h.promoted id hold
      have hother : id ∉ ids := fun hmem => hopen id hmem ⟨.promoted, by simp, hold⟩
      obtain ⟨row', hrow', huser'⟩ := get?_identity (hkept id hother) hrow
      exact ⟨row', hrow', huser'.symm ▸ huser⟩
  · intro id other hother hother' hid
    rcases (hmem _).mp hid with ⟨hin, heq⟩ | hold
    · exact hgone (heq ▸ hother') id hin
    · have hout : id ∉ ids := fun hmem => hopen id hmem ⟨other, hother, hold⟩
      have hsame := hkept id hout
      rw [h.gone id other hother hother' hold] at hsame
      simpa using hsame
  · have hsplit : endings (ids.map (fun id => (id, change)) ++ changes) =
        ids.map (fun id => (id, change)) ++ endings changes := by
      simp only [endings, filter_append, append_cancel_right_eq]
      apply List.filter_eq_self.mpr
      rintro entry hentry
      obtain ⟨id, -, rfl⟩ := mem_map.mp hentry
      simpa using hcreated
    rw [hsplit, map_append, map_map, nodup_append]
    refine ⟨by simpa [comp_def] using hnodup, h.once, ?_⟩
    rintro id hid other hother rfl
    obtain ⟨⟨_, old⟩, hold, rfl⟩ := mem_map.mp hother
    obtain ⟨hold, hend⟩ := mem_endings.mp hold
    exact hopen _ (by simpa using hid) ⟨old, hend, hold⟩
  · intro id hid
    rcases (hmem _).mp hid with ⟨-, heq⟩ | hold
    · exact absurd heq.symm hcreated
    · by_cases hid : id ∈ ids
      · exact .inr ((hended id).mpr (.inl hid))
      · rcases h.accounted id hold with ⟨metadata, hmeta, rfl⟩ | hend
        · exact .inl ⟨metadata, (hcands metadata).mpr ⟨hmeta, hid⟩, rfl⟩
        · exact .inr ((hended id).mpr (.inr hend))

theorem removed {change : Change}
    (hrem : Removed ids store store') (hcreated : change ≠ .created) (hprom : change ≠ .promoted)
    (hnodup : ids.Nodup) (hpresent : ∀ id ∈ ids, (store.canvas.get? id).isSome)
    (hopen : ∀ id ∈ ids, ¬ Ended changes id) :
    Ledger (ids.map (fun id => (id, change)) ++ changes) store' issued :=
  h.close hcreated hrem.candidates hrem.kept (fun heq => absurd heq hprom)
    (fun _ => hrem.gone) hnodup hpresent hopen

theorem promote
    (hmeta : metadata ∈ store.candidates) (hid : metadata.candidateSessionId = id)
    (huser : metadata.publishUserId = some userId) (hprom : Promoted id userId store store') :
    Ledger ((id, .promoted) :: changes) store' issued := by
  have hother : userId ≠ id := by
    rintro rfl
    exact h.publisher metadata hmeta (huser.trans (congrArg some hid.symm))
  change Ledger ([id].map (fun id => (id, Change.promoted)) ++ changes) store' issued
  refine h.close (by simp) ?_ ?_ ?_ (by simp) (by simp) ?_ ?_
  · simpa using hprom.candidates
  · intro k hk
    rw [hprom.kept k (by simpa using hk)]
  · obtain ⟨row, hrow, hrowUser⟩ := hprom.row
    simpa using ⟨row, hrow, hrowUser.symm ▸ hother⟩
  · simpa using hid ▸ h.present metadata hmeta
  · simpa using hid ▸ h.pending metadata hmeta

theorem edited (hrem : Removed [] store store') :
    Ledger changes store' issued := by
  have hclosed : Ledger ([].map (fun id => (id, Change.collected)) ++ changes) store' issued :=
    h.removed hrem (by simp) (by simp) (by simp) (by simp) (by simp)
  simpa using hclosed

theorem session_issued
    (hmeta : metadata ∈ store.candidates) : metadata.candidateSessionId ∈ issued := by
  obtain ⟨row, hrow⟩ := Option.isSome_iff_exists.mp (h.present metadata hmeta)
  exact key_of_get? hrow ▸ h.known row (mem_of_get? hrow)

theorem create (hadded : Added id store store') (hfresh : id ∉ issued) :
    Ledger ((id, .created) :: changes) store' (id :: issued) := by
  have hended : ∀ k, Ended ((id, .created) :: changes) k ↔ Ended changes k := by
    intro k
    simp only [Ended, mem_cons, Prod.mk.injEq]
    constructor
    · rintro ⟨change, hcreated, ⟨-, rfl⟩ | hold⟩
      · exact absurd rfl hcreated
      · exact ⟨change, hcreated, hold⟩
    · rintro ⟨change, hcreated, hold⟩
      exact ⟨change, hcreated, .inr hold⟩
  obtain ⟨new, hnew, hpublisher, hcands⟩ := hadded.candidates
  have hother : ∀ metadata ∈ store.candidates, metadata.candidateSessionId ≠ id :=
    fun metadata hmeta heq => hfresh (heq ▸ h.session_issued hmeta)
  have hused : ∀ entry ∈ changes, entry.1 ≠ id := fun entry hentry heq => hfresh (heq ▸ h.issued entry hentry)
  refine ⟨?_, ?_, ?_, ?_, ?_, ?_, ?_, ?_, ?_, ?_⟩
  · intro row hrow
    by_cases hid : row.id = id
    · simp [hid]
    · have hget := get?_of_mem hrow
      rw [hadded.kept _ hid] at hget
      exact mem_cons_of_mem _ (h.known row (mem_of_get? hget))
  · intro a ha b hb heq
    rcases (hcands a).mp ha with rfl | hold
    · rcases (hcands b).mp hb with rfl | hold'
      · rfl
      · exact absurd (heq.symm.trans hnew) (hother b hold')
    · rcases (hcands b).mp hb with rfl | hold'
      · exact absurd (heq.trans hnew) (hother a hold)
      · exact h.sessions a hold b hold' heq
  · intro metadata hmeta
    rcases (hcands metadata).mp hmeta with rfl | hold
    · exact hnew ▸ hadded.row
    · rw [hadded.kept _ (hother metadata hold)]
      exact h.present metadata hold
  · intro metadata hmeta
    rw [hended]
    rcases (hcands metadata).mp hmeta with rfl | hold
    · rintro ⟨change, -, hmem⟩
      exact hused _ hmem hnew
    · exact h.pending metadata hold
  · intro metadata hmeta
    rcases (hcands metadata).mp hmeta with rfl | hold
    · exact hnew ▸ hpublisher
    · exact h.publisher metadata hold
  · intro entry hentry
    rcases mem_cons.mp hentry with rfl | hold
    · exact mem_cons_self
    · exact mem_cons_of_mem _ (h.issued entry hold)
  · intro k hk
    have hold : (k, Change.promoted) ∈ changes := by simpa using hk
    rw [hadded.kept k (hused _ hold)]
    exact h.promoted k hold
  · intro k change hcreated hprom hk
    have hold : (k, change) ∈ changes := by simpa [hcreated] using hk
    rw [hadded.kept k (hused _ hold)]
    exact h.gone k change hcreated hprom hold
  · have hsame : endings ((id, .created) :: changes) = endings changes := by simp [endings]
    rw [hsame]
    exact h.once
  · intro k hk
    rw [hended]
    rcases mem_cons.mp hk with heq | hold
    · exact .inl ⟨new, (hcands new).mpr (.inl rfl), hnew.trans (congrArg Prod.fst heq).symm⟩
    · rcases h.accounted k hold with ⟨metadata, hmeta, rfl⟩ | hend
      · exact .inl ⟨metadata, (hcands metadata).mpr (.inr hmeta), rfl⟩
      · exact .inr hend

end

end Ledger

/-! ### Locks -/

def Alive (changes : Changes) (store : HistoryStore) (id : String) : Prop :=
  (store.canvas.get? id).isSome ∧ ¬ Ended changes id

namespace Alive

variable {store' : HistoryStore} {k : String}

theorem kept (h : Alive changes store k)
    (hkept : (store'.canvas.get? k).map API4Conversation.identity =
      (store.canvas.get? k).map API4Conversation.identity) {changes' : Changes}
    (hended : Ended changes' k → Ended changes k) : Alive changes' store' k := by
  obtain ⟨row, hrow⟩ := Option.isSome_iff_exists.mp h.1
  obtain ⟨row', hrow', -⟩ := Ledger.get?_identity hkept hrow
  exact ⟨Option.isSome_iff_exists.mpr ⟨row', hrow'⟩, fun hend => h.2 (hended hend)⟩

variable {change : Change}

theorem removed (h : Alive changes store k) {ids : List String}
    (hrem : Removed ids store store') (hk : k ∉ ids) :
    Alive (ids.map (fun id => (id, change)) ++ changes) store' k := by
  refine h.kept (hrem.kept k hk) ?_
  rintro ⟨other, hother, hmem⟩
  rcases mem_append.mp hmem with hnew | hold
  · simp only [mem_map, Prod.mk.injEq] at hnew
    obtain ⟨id, hid, rfl, -⟩ := hnew
    exact absurd hid hk
  · exact ⟨other, hother, hold⟩

theorem other (h : Alive changes store k)
    (hkept : store'.canvas.get? k = store.canvas.get? k) (hk : k ≠ id) :
    Alive ((id, change) :: changes) store' k := by
  refine h.kept (by rw [hkept]) ?_
  rintro ⟨other, hother, hmem⟩
  rcases mem_cons.mp hmem with heq | hold
  · exact absurd (congrArg Prod.fst heq) hk
  · exact ⟨other, hother, hold⟩

end Alive

theorem Ledger.alive
    (h : Ledger changes store issued)
    (hmeta : ∃ metadata ∈ store.candidates, metadata.candidateSessionId = id) :
    Alive changes store id := by
  obtain ⟨metadata, hmem, rfl⟩ := hmeta
  exact ⟨h.present metadata hmem, h.pending metadata hmem⟩

theorem Ledger.alive_of_marked
    (h : Ledger changes store issued)
    (hmarked : (store.canvas.get? id).any legacyMarked = true) : Alive changes store id := by
  rcases hrow : store.canvas.get? id with - | row
  · simp [hrow] at hmarked
  · have hkey : row.id = id := key_of_get? hrow
    simp only [hrow, Option.any_some, legacyMarked, Bool.and_eq_true, decide_eq_true_eq] at hmarked
    refine ⟨by simp [hrow], ?_⟩
    rintro ⟨change, hcreated, hmem⟩
    by_cases hprom : change = .promoted
    · obtain ⟨row', hrow', huser⟩ := h.promoted id (hprom ▸ hmem)
      rw [hrow] at hrow'
      cases hrow'
      exact huser (hmarked.1.2.trans hkey)
    · rw [h.gone id change hcreated hprom hmem] at hrow
      cases hrow

variable {τ : Type} [DecidableEq τ] {w : World τ} {t : τ} {changes' : Changes} {phase : Phase}

/-- What the transactions are about to write is locked by them, and what a batch is about to
    delete has no end yet. -/
structure Secured (changes : Changes) (w : World τ) : Prop where
  locked : ∀ t, ∀ id ∈ (w.phases t).secured, w.locks id = some t
  nodup : ∀ t, (w.phases t).doomed.Nodup
  alive : ∀ t, ∀ id ∈ (w.phases t).doomed, Alive changes w.store id
  held : ∀ id t, w.locks id = some t → id ∈ (w.phases t).holds

theorem Phase.doomed_subset_secured (phase : Phase) : ∀ id ∈ phase.doomed, id ∈ phase.secured := by
  cases phase <;> simp [Phase.doomed, Phase.secured]

namespace Secured

section

variable (h : Secured changes w)
include h

theorem goto (hsecured : ∀ id ∈ phase.secured, w.locks id = some t)
    (hnodup : phase.doomed.Nodup) (halive : ∀ id ∈ phase.doomed, Alive changes w.store id)
    (hheld : ∀ id, w.locks id = some t → id ∈ phase.holds) : Secured changes (w.goto t phase) where
  locked t' id hid := by
    simp only [World.goto, update_apply] at hid ⊢
    split at hid
    · next heq => exact heq ▸ hsecured id hid
    · exact h.locked t' id hid
  nodup t' := by
    simp only [World.goto, update_apply]
    split
    · exact hnodup
    · exact h.nodup t'
  alive t' id hid := by
    simp only [World.goto, update_apply] at hid ⊢
    split at hid
    · exact halive id hid
    · exact h.alive t' id hid
  held id t' hlock := by
    simp only [World.goto, update_apply] at hlock ⊢
    split
    · next heq => exact hheld id (heq ▸ hlock)
    · exact h.held id t' hlock

theorem goto_same {before : Phase} (hphase : w.phases t = before)
    (hsecured : phase.secured = before.secured) (hdoomed : phase.doomed = before.doomed)
    (hholds : ∀ id ∈ before.holds, id ∈ phase.holds) : Secured changes (w.goto t phase) := by
  subst hphase
  exact h.goto (fun id hid => h.locked t id (hsecured ▸ hid)) (hdoomed ▸ h.nodup t)
    (fun id hid => h.alive t id (hdoomed ▸ hid)) (fun id hlock => hholds id (h.held id t hlock))

theorem lock {row : String} (hfree : ∀ t', w.locks row = some t' → t' = t)
    (hsecured : ∀ id ∈ phase.secured, id = row ∨ w.locks id = some t)
    (hnodup : phase.doomed.Nodup) (halive : ∀ id ∈ phase.doomed, Alive changes w.store id)
    (hrow : row ∈ phase.holds) (hheld : ∀ id, w.locks id = some t → id ∈ phase.holds) :
    Secured changes ((w.lock t row).goto t phase) where
  locked t' id hid := by
    simp only [World.goto, World.lock, update_apply] at hid ⊢
    split at hid
    · next heq =>
      split
      · rw [heq]
      · next hne => exact heq ▸ (hsecured id hid).resolve_left hne
    · next hne =>
      have hlock := h.locked t' id hid
      rw [if_neg]
      · exact hlock
      · rintro rfl
        exact hne (hfree t' hlock)
  nodup t' := by
    simp only [World.goto, World.lock, update_apply]
    split
    · exact hnodup
    · exact h.nodup t'
  alive t' id hid := by
    simp only [World.goto, World.lock, update_apply] at hid ⊢
    split at hid
    · exact halive id hid
    · exact h.alive t' id hid
  held id t' hlock := by
    simp only [World.goto, World.lock, update_apply] at hlock ⊢
    by_cases hid : id = row
    · rw [if_pos hid, Option.some.injEq] at hlock
      rw [if_pos hlock.symm, hid]
      exact hrow
    · rw [if_neg hid] at hlock
      split
      · next heq => exact hheld id (heq ▸ hlock)
      · exact h.held id t' hlock

theorem finish
    (halive : ∀ t', t' ≠ t → ∀ id ∈ (w.phases t').doomed, Alive changes' store id) :
    Secured changes' (w.finish t store) where
  locked t' id hid := by
    simp only [World.finish, update_apply] at hid ⊢
    split at hid
    · cases hid
    · next hne =>
      have hlock := h.locked t' id hid
      rw [hlock, if_neg (by simpa using hne)]
  nodup t' := by
    simp only [World.finish, update_apply]
    split
    · exact nodup_nil
    · exact h.nodup t'
  alive t' id hid := by
    simp only [World.finish, update_apply] at hid ⊢
    split at hid
    · cases hid
    · next hne => exact halive t' hne id hid
  held id t' hlock := by
    simp only [World.finish, update_apply] at hlock ⊢
    split at hlock
    · cases hlock
    · next hother =>
      have hne : t' ≠ t := by
        rintro rfl
        exact hother hlock
      rw [if_neg hne]
      exact h.held id t' hlock

omit [DecidableEq τ] in
theorem stored
    (halive : ∀ id, Alive changes w.store id → Alive changes' store id) :
    Secured changes' { w with store, issued } :=
  ⟨h.locked, h.nodup, fun t id hid => halive id (h.alive t id hid), h.held⟩

end

end Secured

variable {w' : World τ} {old : List String}

theorem write_kept (hledger : Ledger changes w.store w.issued) (hsecured : Secured changes w)
    (hphase : w.phases t = .write ending prepared id)
    (h : writeEnding stripReasoning loads ending prepared id w.store = (changes', store)) :
    Ledger (changes' ++ changes) store w.issued ∧ Secured (changes' ++ changes) (w.finish t store) := by
  have hlock : w.locks id = some t := hsecured.locked t id (by simp [hphase, Phase.secured])
  have hother : ∀ t', t' ≠ t → ∀ k ∈ (w.phases t').doomed, k ≠ id := by
    rintro t' hne k hk rfl
    have := hsecured.locked t' k (Phase.doomed_subset_secured _ k hk)
    rw [hlock, Option.some.injEq] at this
    exact hne this.symm
  rcases writeEnding_cases hledger.sessions h with ⟨rfl, rfl⟩ | ⟨metadata, hmem, hid, hcases⟩
  · exact ⟨hledger, hsecured.finish fun t' _ => hsecured.alive t'⟩
  · have halive := hledger.alive ⟨metadata, hmem, hid⟩
    rcases hcases with ⟨change, rfl, hchange, hrem⟩ | ⟨rfl, userId, huser, hprom⟩
    · refine ⟨?_, hsecured.finish fun t' hne k hk => ?_⟩
      · refine hledger.removed hrem ?_ ?_ (by simp) (by simpa using halive.1) (by simpa using halive.2)
        · rcases hchange with rfl | rfl <;> simp
        · rcases hchange with rfl | rfl <;> simp
      · exact (hsecured.alive t' k hk).removed hrem (by simpa using hother t' hne k hk)
    · refine ⟨hledger.promote hmem hid huser hprom, hsecured.finish fun t' hne k hk => ?_⟩
      exact (hsecured.alive t' k hk).other (hprom.kept k (hother t' hne k hk)) (hother t' hne k hk)

variable {doomed : List String}

theorem delete_kept (hledger : Ledger changes w.store w.issued) (hsecured : Secured changes w) (hphase : w.phases t = .delete doomed) :
    Ledger (doomed.map (fun id => (id, .collected)) ++ changes) (deleteRows doomed w.store) w.issued ∧
      Secured (doomed.map (fun id => (id, .collected)) ++ changes)
        (w.finish t (deleteRows doomed w.store)) := by
  have hmine : ∀ id ∈ doomed, id ∈ (w.phases t).doomed := by simp [hphase, Phase.doomed]
  have hrem := removed_deleteRows doomed w.store
  refine ⟨?_, hsecured.finish fun t' hne k hk => ?_⟩
  · refine hledger.removed hrem (by simp) (by simp) ?_ ?_ ?_
    · simpa [hphase, Phase.doomed] using hsecured.nodup t
    · exact fun id hid => (hsecured.alive t id (hmine id hid)).1
    · exact fun id hid => (hsecured.alive t id (hmine id hid)).2
  · refine (hsecured.alive t' k hk).removed hrem fun hin => hne ?_
    have hlock := hsecured.locked t' k (Phase.doomed_subset_secured _ k hk)
    rw [hsecured.locked t k (Phase.doomed_subset_secured _ k (hmine k hin)), Option.some.injEq] at hlock
    exact hlock.symm

theorem Secured.doom (h : Secured changes w) {before : Phase}
    (hbefore : w.phases t = before) (hdoomed : doomed = before.doomed) (hheld : before.holds = doomed)
    (hfree : w.locks id = none) (halive : Alive changes w.store id)
    (hphase : phase.doomed = doomed ++ [id]) (hsecured : phase.secured = doomed ++ [id])
    (hholds : phase.holds = doomed ++ [id]) : Secured changes ((w.lock t id).goto t phase) := by
  subst hbefore
  have hlocked : ∀ k ∈ doomed, w.locks k = some t := fun k hk =>
    h.locked t k (Phase.doomed_subset_secured _ k (hdoomed ▸ hk))
  refine h.lock (by simp [hfree]) ?_ ?_ ?_ (by simp [hholds]) ?_
  · intro k hk
    rw [hsecured, mem_append, mem_singleton] at hk
    exact hk.symm.imp_right (hlocked k)
  · rw [hphase, nodup_append]
    refine ⟨hdoomed ▸ h.nodup t, by simp, ?_⟩
    rintro k hk k' hk' rfl
    rw [mem_singleton] at hk'
    rw [← hk', hlocked k hk] at hfree
    cases hfree
  · intro k hk
    rw [hphase, mem_append, mem_singleton] at hk
    rcases hk with hk | rfl
    · exact h.alive t k (hdoomed ▸ hk)
    · exact halive
  · intro k hk
    have := h.held k t hk
    rw [hheld] at this
    simp [hholds, this]

theorem free_of_lockedByOther (h : w.lockedByOther t id = false) :
    ∀ t', w.locks id = some t' → t' = t := by
  intro t' hlock
  simpa [World.lockedByOther, hlock] using h

section

variable (hledger : Ledger changes w.store w.issued) (hsecured : Secured changes w)
include hledger hsecured

theorem advance_kept
    (hguard : OwnedAtLock w (.advance t old))
    (h : advance stripReasoning loads t old w = some (changes', w')) :
    Ledger (changes' ++ changes) w'.store w'.issued ∧ Secured (changes' ++ changes) w' := by
  unfold advance at h
  split at h
  · cases h
  · next ending prepared hphase =>
    split at h
    · cases h
      exact ⟨hledger, hsecured.finish fun t' _ => hsecured.alive t'⟩
    · cases h
      exact ⟨hledger, hsecured.goto_same hphase rfl rfl fun _ hid => hid⟩
  · next ending prepared candidateId hphase =>
    split at h
    · cases h
    · next hfree =>
      split at h
      · cases h
        exact ⟨hledger, hsecured.finish fun t' _ => hsecured.alive t'⟩
      · cases h
        have hnone : ∀ id, w.locks id ≠ some t := fun id hlock => by
          simpa [hphase, Phase.holds, Phase.secured, Phase.doomed] using hsecured.held id t hlock
        refine ⟨hledger, hsecured.lock (free_of_lockedByOther (by simpa using hfree)) ?_ ?_ ?_ ?_ ?_⟩
        · simp [Phase.secured]
        · simp [Phase.doomed]
        · simp [Phase.doomed]
        · simp [Phase.holds, Phase.secured]
        · exact fun id hlock => absurd hlock (hnone id)
  · next ending prepared candidateId hphase =>
    split at h
    · next hpublic =>
      cases h
      refine ⟨hledger, hsecured.goto_same hphase rfl rfl ?_⟩
      simp [Phase.holds, Phase.secured]
    · next sessionId hpublic =>
      split at h
      · cases h
      · next hfree =>
        split at h
        · cases h
          have hmine := hsecured.locked t candidateId (by simp [hphase, Phase.secured])
          refine ⟨hledger, hsecured.lock (free_of_lockedByOther (by simpa using hfree)) ?_ ?_ ?_ ?_ ?_⟩
          · simp [Phase.secured, hmine]
          · simp [Phase.doomed]
          · simp [Phase.doomed]
          · simp [Phase.holds, hpublic]
          · intro k hlock
            have hheld := hsecured.held k t hlock
            simp only [hphase, Phase.holds, Phase.secured, mem_singleton] at hheld
            simp [Phase.holds, hheld]
        · split at h
          · cases h
            refine ⟨hledger, hsecured.goto_same hphase rfl rfl ?_⟩
            simp [Phase.holds, Phase.secured]
          · cases h
            exact ⟨hledger, hsecured.finish fun t' _ => hsecured.alive t'⟩
  · next ending prepared candidateId hphase =>
    cases h
    exact write_kept hledger hsecured hphase rfl
  · next now batchSize hphase =>
    cases h
    exact ⟨hledger, hsecured.goto_same hphase rfl rfl fun _ hid => hid⟩
  · next batchSize doomed hphase =>
    cases h
    exact ⟨hledger, hsecured.goto_same hphase rfl rfl fun _ hid => hid⟩
  · next batchSize id snapshot doomed hphase =>
    split at h
    · cases h
      exact ⟨hledger, hsecured.goto_same hphase rfl rfl fun _ hid => hid⟩
    · next hroom =>
      split at h
      · next hlock =>
        cases h
        have hnext : (Event.advance t old).nextLock w = some id := by
          simp [Event.nextLock, World.nextLock, hphase, hlock, Nat.lt_of_not_le hroom]
        have halive := hledger.alive (hguard id hnext)
        simp only [tryLock, Bool.and_eq_true, Option.isNone_iff_eq_none] at hlock
        exact ⟨hledger, hsecured.doom hphase rfl rfl hlock.1 halive rfl rfl rfl⟩
      · cases h
        exact ⟨hledger, hsecured.goto_same hphase rfl rfl fun _ hid => hid⟩
  iterate 2
    · next batchSize doomed hphase =>
      cases h
      exact ⟨hledger, hsecured.goto_same hphase rfl rfl fun _ hid => hid⟩
  · next batchSize id snapshot doomed hphase =>
    split at h
    · cases h
      exact ⟨hledger, hsecured.goto_same hphase rfl rfl fun _ hid => hid⟩
    · split at h
      · next hlock =>
        cases h
        simp only [tryLock, Bool.and_eq_true, Option.isNone_iff_eq_none] at hlock
        have halive := hledger.alive_of_marked hlock.2
        exact ⟨hledger, hsecured.doom hphase rfl rfl hlock.1 halive rfl rfl rfl⟩
      · cases h
        exact ⟨hledger, hsecured.goto_same hphase rfl rfl fun _ hid => hid⟩
  · next doomed hphase =>
    cases h
    exact delete_kept hledger hsecured hphase

theorem begin_kept
    (hdoomed : phase.doomed = []) (hnone : phase.secured = []) (h : w.begin t phase = some (changes', w')) :
    Ledger (changes' ++ changes) w'.store w'.issued ∧ Secured (changes' ++ changes) w' := by
  unfold World.begin at h
  split at h
  · next hidle =>
    cases h
    refine ⟨hledger, hsecured.goto_same hidle hnone hdoomed ?_⟩
    simp [Phase.holds, Phase.secured, Phase.doomed]
  · cases h

omit [DecidableEq τ] in
theorem create_kept {α : Type} {result : Except HistoryError (α × HistoryStore)}
    (hadded : ∀ value store, result = .ok (value, store) → Added id w.store store)
    (h : w.create id result = some (changes', w')) :
    Ledger (changes' ++ changes) w'.store w'.issued ∧ Secured (changes' ++ changes) w' := by
  unfold World.create at h
  split at h
  · cases h
  · next hfresh =>
    split at h
    · cases h
      exact ⟨hledger, hsecured⟩
    · next value store =>
      cases h
      have hadded := hadded value store rfl
      refine ⟨hledger.create hadded hfresh, hsecured.stored fun k halive => ?_⟩
      have hother : k ≠ id := by
        rintro rfl
        obtain ⟨row, hrow⟩ := Option.isSome_iff_exists.mp halive.1
        exact hfresh (key_of_get? hrow ▸ hledger.known row (mem_of_get? hrow))
      exact halive.other (hadded.kept k hother) hother

theorem happen_kept {event : Event τ} (hguard : OwnedAtLock w event)
    (h : happen stripReasoning loads event w = some (changes', w')) :
    Ledger (changes' ++ changes) w'.store w'.issued ∧ Secured (changes' ++ changes) w' := by
  cases event with
  | prepare args =>
    simp only [happen] at h
    split at h
    · cases h
      exact ⟨hledger, hsecured⟩
    · next hsess =>
      refine create_kept hledger hsecured (fun prepared store hok => ?_) h
      exact prepareCanvas_added (by simpa [Option.isSome_iff_ne_none] using hsess) hok
  | capture prepared conversation metadataId expiresAt =>
    simp only [happen] at h
    split at h
    · cases h
    · next huser =>
      exact create_kept hledger hsecured (fun _ store hok => captureCandidate_added huser hok) h
  | edit row =>
    simp only [happen] at h
    split at h
    · cases h
    · next hedit =>
      simp only [not_or, not_not] at hedit
      obtain ⟨-, hident⟩ := hedit
      cases h
      obtain ⟨before, hget, hsame⟩ := Option.map_eq_some_iff.mp hident
      have hrem := removed_put hget hsame.symm
      exact ⟨hledger.edited hrem, hsecured.stored fun k halive => halive.kept (hrem.kept k (by simp)) id⟩
  | commit t prepared generated => exact begin_kept hledger hsecured rfl rfl h
  | abort t prepared => exact begin_kept hledger hsecured rfl rfl h
  | collect t now batchSize => exact begin_kept hledger hsecured rfl rfl h
  | advance t old => exact advance_kept hledger hsecured hguard h

end

/-! ### Every run -/

/-- A database on which no transaction is open and no execution has a candidate. -/
structure Fresh (w : World τ) : Prop where
  known : ∀ row ∈ w.store.canvas, row.id ∈ w.issued
  candidates : ∀ metadata, metadata ∉ w.store.candidates
  idle : ∀ t, w.phases t = .idle
  unlocked : ∀ id, w.locks id = none

structure EndOnce (hist : List (Event τ × Changes)) (w : World τ) : Prop where
  once : ((endings (changesOf hist)).map Prod.fst).Nodup
  /-- A candidate has an end, or it still has its row and its ownership row. -/
  accounted : ∀ id, (id, .created) ∈ changesOf hist → Ended (changesOf hist) id ∨
    ((w.store.canvas.get? id).isSome ∧ ∃ metadata ∈ w.store.candidates, metadata.candidateSessionId = id)
  /-- What was promoted is there and is nobody's candidate. -/
  «public» : ∀ id, (id, .promoted) ∈ changesOf hist →
    (w.store.canvas.get? id).isSome ∧ Public w.store id
  removed : ∀ id change, change ≠ .created → change ≠ .promoted → (id, change) ∈ changesOf hist →
    w.store.canvas.get? id = none
  /-- A commit that succeeds ends a candidate that was not collected before. -/
  uncollected : ∀ later label earlier, hist = later ++ label :: earlier → ∀ id change,
    change = .promoted ∨ change = .replaced → (id, change) ∈ label.2 →
      (id, .collected) ∉ changesOf earlier

variable {w₀ : World τ} {hist : List (Event τ × Changes)}

omit [DecidableEq τ] in
theorem Fresh.ledger (h : Fresh w₀) : Ledger [] w₀.store w₀.issued where
  known := h.known
  sessions := unique_of_forall_not_mem h.candidates
  present metadata hmem := absurd hmem (h.candidates metadata)
  pending metadata hmem := absurd hmem (h.candidates metadata)
  publisher metadata hmem := absurd hmem (h.candidates metadata)
  issued := by simp
  promoted := by simp
  gone := by simp
  once := by simp [endings]
  accounted := by simp

omit [DecidableEq τ] in
theorem Fresh.secured (h : Fresh w₀) : Secured [] w₀ where
  locked t id hid := by simp [h.idle t, Phase.secured, Phase.doomed] at hid
  nodup t := by simp [h.idle t, Phase.doomed]
  alive t id hid := by simp [h.idle t, Phase.doomed] at hid
  held id t hlock := by simp [h.unlocked id] at hlock

/-- The ledger and the locks, along a history. -/
def Accounts (hist : List (Event τ × Changes)) (w : World τ) : Prop :=
  Ledger (changesOf hist) w.store w.issued ∧ Secured (changesOf hist) w

theorem accounts_of_run (hfresh : Fresh w₀) (hrun : Run (GuardedStep stripReasoning loads) w₀ hist w) :
    Accounts hist w := by
  apply Run.history (P := Accounts) ⟨hfresh.ledger, hfresh.secured⟩ _ hrun
  rintro hist w ⟨event, changes⟩ w' ⟨hledger, hsecured⟩ ⟨hhappens, hguard⟩
  exact happen_kept hledger hsecured hguard hhappens

omit [DecidableEq τ] in
theorem endOnce_of_ledger (h : Ledger (changesOf hist) w.store w.issued) : EndOnce hist w where
  once := h.once
  accounted id hid := by
    rcases h.accounted id hid with ⟨metadata, hmem, rfl⟩ | hend
    · exact .inr ⟨h.present metadata hmem, metadata, hmem, rfl⟩
    · exact .inl hend
  «public» id hid := by
    obtain ⟨row, hrow, -⟩ := h.promoted id hid
    refine ⟨by simp [hrow], fun metadata hmem heq => h.pending metadata hmem ?_⟩
    exact ⟨.promoted, by simp, heq.symm ▸ hid⟩
  removed := h.gone
  uncollected := by
    rintro later label earlier rfl id change hchange hlabel hcollected
    have hcreated : change ≠ .created := by rcases hchange with rfl | rfl <;> simp
    have honce := h.once
    simp only [changesOf, flatMap_append, flatMap_cons, endings, filter_append,
      map_append, nodup_append] at honce
    refine honce.2.1.2.2 id (mem_map.mpr ⟨(id, change), ?_, rfl⟩) id
      (mem_map.mpr ⟨(id, .collected), ?_, rfl⟩) rfl
    · simpa [hcreated] using hlabel
    · simpa [changesOf] using hcollected

end MultiRag.History
