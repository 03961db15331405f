/-
  **Every document is merged once, however often the run is killed.**

  `Merged` says what the stored graph has accumulated: what was there before, and each of its new
  documents once. A document that the graph does not have must still read as it was extracted
  (`Pending`); a run rewrites the subgraph row of the document it merges before the checkpoint, so
  only a harmless kill keeps that.
-/
import Mathlib.Algebra.BigOperators.Group.Finset.Basic
import MultiRag.GraphRestart

namespace MultiRag.GraphRag

open List Table
open Option (some.inj some.injEq)

/-! ### What the stored graph has accumulated -/

structure Loaded (J : Job) (docId : String) (g : Graph) : Prop where
  ofDocument : OfDocument J.sums docId g
  content : ∃ sub, J.extracted docId = some sub ∧ graphContent J.sums g = graphContent J.sums sub

/-- A document that the graph does not have: its stored subgraph, if there is one, reads as its
    extraction. -/
def Pending (J : Job) (store : Store) (docId : String) : Prop :=
  loadSubgraph store.rows docId = .ok none ∨
    ∃ g, loadSubgraph store.rows docId = .ok (some g) ∧ Loaded J docId g

def newDocuments (J : Job) (base cur : Option Graph) : Finset String :=
  J.docIds.toFinset.filter fun docId => docId ∈ storedDocuments cur ∧ docId ∉ storedDocuments base

def contribution (J : Job) (docId : String) : GraphContent := storedContent J.sums (J.extracted docId)

structure Merged (J : Job) (base cur : Option Graph) : Prop where
  valid : ∀ g, cur = some g → g.Valid J.sums
  sourced : ∀ g, cur = some g → Sourced g
  kept : ∀ docId ∈ storedDocuments base, docId ∈ storedDocuments cur
  content : storedContent J.sums cur =
    storedContent J.sums base + ∑ docId ∈ newDocuments J base cur, contribution J docId

variable {J : Job} {base cur : Option Graph} {docId : String}

theorem Merged.refl (hvalid : ∀ g, base = some g → g.Valid J.sums)
    (hsourced : ∀ g, base = some g → Sourced g) : Merged J base base where
  valid := hvalid
  sourced := hsourced
  kept _ h := h
  content := by
    have hnone : newDocuments J base base = ∅ := by
      simp [newDocuments]
    rw [hnone, Finset.sum_empty, add_zero]

variable {sub next : Graph}

theorem Merged.add (h : Merged J base cur) (hdoc : docId ∈ J.docIds)
    (hnew : docId ∉ storedDocuments cur) (hsub : Loaded J docId sub) (hvalid : next.Valid J.sums)
    (hdocs : next.documents = storedDocuments cur ++ [docId])
    (hcont : graphContent J.sums next = storedContent J.sums cur + graphContent J.sums sub) :
    Merged J base (some next) where
  valid g hg := some.inj hg ▸ hvalid
  sourced g hg := by
    obtain rfl := some.inj hg
    intro name source hsource
    have hnode : nodeContent next name = (storedContent J.sums cur).1 name + nodeContent sub name :=
      congrFun (congrArg Prod.fst hcont) name
    rw [hnode, Prod.snd_add, Multiset.mem_add] at hsource
    rw [hdocs, mem_append, mem_singleton]
    rcases hsource with hold | hin
    · left
      cases cur with
      | none => simp [storedContent] at hold
      | some g => exact h.sourced g rfl name source hold
    · right
      have hne : nodeContent sub name ≠ 0 := by
        intro hzero
        simp [hzero] at hin
      simpa [hsub.ofDocument.nodes name hne] using hin
  kept source hsource := by
    simp only [storedDocuments, Option.elim_some, hdocs]
    exact mem_append_left _ (h.kept source hsource)
  content := by
    have hinsert : newDocuments J base (some next) = insert docId (newDocuments J base cur) := by
      ext source
      have hsome : storedDocuments (some next) = storedDocuments cur ++ [docId] := hdocs
      simp only [newDocuments, Finset.mem_filter, Finset.mem_insert, mem_toFinset, hsome,
        mem_append, mem_singleton]
      constructor
      · rintro ⟨hin, hold | rfl, hbase⟩
        · exact .inr ⟨hin, hold, hbase⟩
        · exact .inl rfl
      · rintro (rfl | ⟨hin, hold, hbase⟩)
        · exact ⟨hdoc, .inr rfl, fun hbase => hnew (h.kept _ hbase)⟩
        · exact ⟨hin, .inl hold, hbase⟩
    have hfresh : docId ∉ newDocuments J base cur := by
      simp [newDocuments, hnew]
    obtain ⟨extracted, hextr, hsame⟩ := hsub.content
    have hcontribution : contribution J docId = graphContent J.sums sub := by
      simp [contribution, storedContent, hextr, hsame]
    rw [hinsert, Finset.sum_insert hfresh, hcontribution, add_left_comm, ← h.content, add_comm]
    exact hcont

theorem Merged.again (h : Merged J base cur) (hvalid : next.Valid J.sums)
    (hdocs : next.documents = storedDocuments cur)
    (hcont : graphContent J.sums next = storedContent J.sums cur) :
    Merged J base (some next) where
  valid g hg := some.inj hg ▸ hvalid
  sourced g hg := by
    obtain rfl := some.inj hg
    intro name source hsource
    have hnode : nodeContent next name = (storedContent J.sums cur).1 name :=
      congrFun (congrArg Prod.fst hcont) name
    rw [hnode] at hsource
    rw [hdocs]
    cases cur with
    | none => simp [storedContent] at hsource
    | some g => exact h.sourced g rfl name source hsource
  kept source hsource := by
    simp only [storedDocuments, Option.elim_some, hdocs]
    exact h.kept source hsource
  content := by
    have hsame : newDocuments J base (some next) = newDocuments J base cur := by
      have hsome : storedDocuments (some next) = storedDocuments cur := hdocs
      rw [newDocuments, newDocuments, hsome]
    rw [hsame, ← h.content]
    exact hcont

/-! ### The invariant of a run -/

def BuildInv (J : Job) (cur : Option Graph) (store : Store) (docId : String) : Build → Prop
  | .waiting => True
  | .extracting => docId ∈ J.docIds ∧ docId ∉ storedDocuments cur ∧ (J.extracted docId).isSome
  | .pruning stale => docId ∉ storedDocuments cur ∧ ∃ sub, J.extracted docId = some sub ∧
      store.get? (.subgraph docId) = some (RunState.extractedRow docId sub) ∧
      ∀ id ∈ stale, id.isLegacy = true ∧
        ∀ row ∈ store, row.pk = id → ∃ data, row.content = .subgraph [docId] data
  | .done none => docId ∈ storedDocuments cur ∨ J.extracted docId = none
  | .done (some g) => docId ∉ storedDocuments cur ∧ Loaded J docId g

/-- Ids that may be deleted: of no new row, and of no document that the graph does not have. -/
def Deletable (store : Store) (next : Graph) (change : GraphChange) (id : Id) : Prop :=
  id ∉ newIds next change ∧ ∀ row ∈ store, row.pk = id → ∀ source data,
    row.content = .subgraph [source] data → source ∈ next.documents

structure Planned (J : Job) (cur : Option Graph) (docId : String) (sub next : Graph) : Prop where
  valid : next.Valid J.sums
  again : docId ∈ storedDocuments cur → next.documents = storedDocuments cur ∧
    graphContent J.sums next = storedContent J.sums cur
  merged : docId ∉ storedDocuments cur → next.documents = storedDocuments cur ++ [docId] ∧
    graphContent J.sums next = storedContent J.sums cur + graphContent J.sums sub

def AttemptInv (J : Job) (cur : Option Graph) (store : Store) (docId : String) (sub : Graph)
    (a : Attempt) : Prop :=
  match a.writing with
  | .auxiliary rows => Planned J cur docId sub a.next ∧
      (∀ row ∈ rows, row ∈ auxiliaryChunks a.next a.change) ∧
      ∀ id ∈ a.stale.toOption.getD [], Deletable store a.next a.change id
  | .pruning ids => cur = some a.next ∧ docId ∈ a.next.documents ∧
      store.get? .checkpoint = some (checkpointChunk a.next) ∧
      ∀ id ∈ ids, Deletable store a.next a.change id

/-- The subgraph row of the document being merged, once an attempt has written it. -/
def Rewritten (J : Job) (cur : Option Graph) (store : Store) (docId : String) (sub : Graph) : Prop :=
  ∃ next, Planned J cur docId sub next ∧
    store.get? (.subgraph docId) = some (subgraphChunk next docId)

structure BuildingInv (J : Job) (cur : Option Graph) (store : Store) (merged : List String)
    (build : String → Build) : Prop where
  merged : merged = storedDocuments cur
  pending : ∀ docId ∈ J.docIds, docId ∉ storedDocuments cur → Pending J store docId
  build : ∀ docId, BuildInv J cur store docId (build docId)

structure MergingInv (J : Job) (cur : Option Graph) (store : Store) (subgraphs : String → Option Graph)
    (remaining : List String) (attempt : Option Attempt) (rewritten : Bool) : Prop where
  loaded : ∀ docId sub, subgraphs docId = some sub → Loaded J docId sub
  queued : ∀ docId ∈ remaining, docId ∈ J.docIds ∧ (subgraphs docId).isSome
  complete : ∀ docId ∈ J.docIds, docId ∉ storedDocuments cur → J.extracted docId ≠ none →
    docId ∈ remaining
  pending : ∀ docId ∈ J.docIds, docId ∉ storedDocuments cur →
    (rewritten = true → remaining.head? ≠ some docId) → Pending J store docId
  head : rewritten = true → ∀ docId sub, remaining.head? = some docId →
    subgraphs docId = some sub → docId ∉ storedDocuments cur → Rewritten J cur store docId sub
  running : ∀ a, attempt = some a → ∀ docId sub, remaining.head? = some docId →
    subgraphs docId = some sub → AttemptInv J cur store docId sub a

def ProcessInv (J : Job) (cur : Option Graph) (store : Store) : Option Process → Prop
  | none => ∀ docId ∈ J.docIds, docId ∉ storedDocuments cur → Pending J store docId
  | some (.building merged build) => BuildingInv J cur store merged build
  | some (.merging subgraphs remaining attempt rewritten) =>
      MergingInv J cur store subgraphs remaining attempt rewritten

structure RunInv (J : Job) (base cur : Option Graph) (s : RunState) : Prop where
  keyed : Keyed s.store
  checkpointed : Checkpointed s.store cur
  merged : Merged J base cur
  process : ProcessInv J cur s.store s.process

/-! ### Building -/

variable {s s' : RunState}

theorem Loaded.ofExtracted (h : J.extracted docId = some sub) : Loaded J docId sub :=
  ⟨J.ofDocument docId sub h, sub, h, rfl⟩

theorem Loaded.read {g : Graph} (h : Loaded J docId g) :
    Loaded J docId { g with documents := [docId] } :=
  ⟨⟨⟨h.ofDocument.valid.nodes, h.ofDocument.valid.edges⟩, rfl, h.ofDocument.nodes⟩, h.content⟩

variable {store store' : Store}

theorem Pending.congr (h : Pending J store docId)
    (hown : ∀ c, Own store' docId c ↔ Own store docId c) : Pending J store' docId := by
  rcases h with hnone | ⟨g, hload, hloaded⟩
  · exact .inl (loadSubgraph_congr hown hnone)
  · exact .inr ⟨g, loadSubgraph_congr hown hload, hloaded⟩

theorem Pending.stable {data : Graph}
    (hget : store.get? (.subgraph docId) = some ⟨.subgraph docId, .subgraph [docId] data, false⟩)
    (hloaded : Loaded J docId data) : Pending J store docId :=
  .inr ⟨_, loadSubgraph_stable hget, hloaded.read⟩

theorem runInv_start (h : RunInv J base cur s) (hstep : s.start = some s') : RunInv J base cur s' := by
  unfold RunState.start at hstep
  split at hstep
  · next hprocess hgraph =>
    cases hstep
    have hcur := (getGraph_checkpointed h.checkpointed []).symm.trans hgraph
    obtain rfl : cur = _ := Except.ok.inj hcur
    have hpend := h.process
    rw [hprocess] at hpend
    exact ⟨h.keyed, h.checkpointed, h.merged, rfl, hpend, fun _ => trivial⟩
  · cases hstep

theorem BuildingInv.update {merged : List String} {build : String → Build} {b : Build}
    (h : BuildingInv J cur store merged build)
    (hpend : ∀ docId ∈ J.docIds, docId ∉ storedDocuments cur → Pending J store' docId)
    (hb : BuildInv J cur store' docId b)
    (hothers : ∀ other, other ≠ docId → BuildInv J cur store' other (build other)) :
    BuildingInv J cur store' merged (Function.update build docId b) where
  merged := h.merged
  pending := hpend
  build other := by
    by_cases heq : other = docId
    · subst heq
      rwa [Function.update_self]
    · rw [Function.update_of_ne heq]
      exact hothers other heq

theorem mem_documents : docId ∈ J.documents ↔ docId ∈ J.docIds := mem_eraseDups

theorem runInv_load (h : RunInv J base cur s) (hstep : s.load J docId = some s') :
    RunInv J base cur s' := by
  unfold RunState.load at hstep
  split at hstep
  · next merged build hprocess =>
    have hbuilding := h.process
    rw [hprocess] at hbuilding
    have hkeep : ∀ {b}, BuildInv J cur s.store docId b →
        RunInv J base cur { s with process := some (.building merged (Function.update build docId b)) } :=
      fun hb => ⟨h.keyed, h.checkpointed, h.merged,
        hbuilding.update hbuilding.pending hb fun other _ => hbuilding.build other⟩
    split at hstep
    · next hwait =>
      rw [Bool.and_eq_true, contains_iff_mem, mem_documents] at hwait
      simp only [hbuilding.merged] at hstep hkeep
      split at hstep
      · next hmerged =>
        cases hstep
        exact hkeep (.inl (contains_iff_mem.mp hmerged))
      · next hmerged =>
        rw [contains_iff_mem] at hmerged
        have hpend := hbuilding.pending docId hwait.1 hmerged
        split at hstep
        · next subgraph hload =>
          cases hstep
          refine hkeep ⟨hmerged, ?_⟩
          rcases hpend with hnone | ⟨g, hsome, hloaded⟩
          · simp [hnone] at hload
          · rw [hsome, Except.ok.injEq, some.injEq] at hload
            exact hload ▸ hloaded
        · cases hstep
          apply hkeep
          split
          · next hextr => exact ⟨hwait.1, hmerged, hextr⟩
          · next hextr => exact .inr (by simpa using hextr)
        · cases hstep
    · cases hstep
  · cases hstep

variable {id : Id}

theorem mem_staleSubgraphs {rows : List Row} (h : id ∈ RunState.staleSubgraphs rows docId) :
    id ≠ .subgraph docId ∧ ∃ row ∈ rows, row.pk = id ∧ ∃ data, row.content = .subgraph [docId] data := by
  obtain ⟨row, hrow, rfl⟩ := mem_map.mp h
  obtain ⟨hrow, hown⟩ := List.mem_filter.mp hrow
  rw [Bool.and_eq_true, decide_eq_true_eq, Option.any_eq_true] at hown
  obtain ⟨hne, ⟨sources, data⟩, hsub, hsrcs⟩ := hown
  refine ⟨hne, row, hrow, rfl, data, ?_⟩
  obtain rfl : sources = [docId] := of_decide_eq_true hsrcs
  unfold Row.subgraph? at hsub
  split at hsub
  · next heq =>
    cases hsub
    exact heq
  · cases hsub

variable {row : Row}

theorem legacy_of_own (hkeyed : Keyed store) (hrow : row ∈ store) {data : Graph}
    (hcont : row.content = .subgraph [docId] data) (hne : row.pk ≠ .subgraph docId) :
    row.pk.isLegacy = true := by
  rcases hkeyed row hrow with hcanon | hlegacy
  · simp only [Row.canonical?, hcont, some.injEq] at hcanon
    exact absurd hcanon.symm hne
  · exact hlegacy

variable {other : String}

theorem buildInv_upsert {b : Build} (hne : other ≠ docId) (h : BuildInv J cur store other b) :
    BuildInv J cur (store.upsert (RunState.extractedRow docId sub)) other b := by
  cases b with
  | pruning stale =>
    obtain ⟨hnew, extracted, hextr, hget, hstale⟩ := h
    refine ⟨hnew, extracted, hextr, ?_, fun id hid => ⟨(hstale id hid).1, ?_⟩⟩
    · rw [get?_upsert, if_neg, hget]
      simpa [RunState.extractedRow] using Ne.symm hne
    · intro row hrow hpk
      rcases mem_upsert.mp hrow with rfl | ⟨hold, -⟩
      · have hlegacy := (hstale id hid).1
        rw [← hpk] at hlegacy
        cases hlegacy
      · exact (hstale id hid).2 row hold hpk
  | done subgraph => cases subgraph <;> exact h
  | _ => exact h

theorem runInv_save (h : RunInv J base cur s) (hstep : s.save J docId = some s') :
    RunInv J base cur s' := by
  unfold RunState.save at hstep
  split at hstep
  · next merged build subgraph graph hprocess hextr hgraph =>
    have hbuilding := h.process
    rw [hprocess] at hbuilding
    split at hstep
    · next hbuild =>
      split at hstep
      · cases hstep
      · cases hstep
        have hinv := hbuilding.build docId
        rw [hbuild] at hinv
        obtain ⟨hdoc, hnew, -⟩ := hinv
        have hget : (s.store.upsert (RunState.extractedRow docId subgraph)).get? (.subgraph docId) =
            some (RunState.extractedRow docId subgraph) := by
          rw [get?_upsert]
          exact if_pos rfl
        refine ⟨h.keyed.upsert rfl, h.checkpointed.upsert h.keyed rfl (by simp [RunState.extractedRow]) rfl,
          h.merged, ?_⟩
        refine hbuilding.update ?_ ⟨hnew, subgraph, hextr, hget, ?_⟩
          fun other hne => buildInv_upsert hne (hbuilding.build other)
        · intro other hother hothernew
          by_cases heq : other = docId
          · subst heq
            exact Pending.stable hget (Loaded.ofExtracted hextr)
          · refine (hbuilding.pending other hother hothernew).congr fun c => ?_
            exact own_upsert h.keyed rfl (by simpa [RunState.extractedRow] using Ne.symm heq)
        · intro id hid
          obtain ⟨hne, row, hrow, rfl, data, hcont⟩ := mem_staleSubgraphs hid
          refine ⟨legacy_of_own h.keyed hrow hcont hne, fun other hother hpk => ?_⟩
          rcases mem_upsert.mp hother with rfl | ⟨hold, -⟩
          · exact absurd hpk.symm hne
          · obtain rfl := eq_of_key hold hrow hpk
            exact ⟨data, hcont⟩
    · cases hstep
  · cases hstep

theorem runInv_discard (h : RunInv J base cur s) (hstep : s.discard J docId = some s') :
    RunInv J base cur s' := by
  unfold RunState.discard at hstep
  split at hstep
  · next merged build hprocess =>
    have hbuilding := h.process
    rw [hprocess] at hbuilding
    have hinv := hbuilding.build docId
    split at hstep
    · next id rest hbuild =>
      cases hstep
      rw [hbuild] at hinv
      obtain ⟨hnew, sub, hextr, hget, hstale⟩ := hinv
      obtain ⟨hlegacy, hcont⟩ := hstale id mem_cons_self
      have hgetOther : ∀ other, (s.store.delete id).get? (.subgraph other) = s.store.get? (.subgraph other) := by
        intro other
        rw [get?_delete, if_neg]
        rintro rfl
        cases hlegacy
      refine ⟨h.keyed.delete id, h.checkpointed.delete fun row hrow hgraph hpk => ?_, h.merged, ?_⟩
      · obtain ⟨data, hdata⟩ := hcont row hrow hpk
        simp [Row.isGraph, hdata] at hgraph
      · refine hbuilding.update ?_ ⟨hnew, sub, hextr, (hgetOther docId).trans hget, ?_⟩ ?_
        · intro other hother hothernew
          by_cases heq : other = docId
          · subst heq
            exact Pending.stable ((hgetOther other).trans hget) (Loaded.ofExtracted hextr)
          · refine (hbuilding.pending other hother hothernew).congr fun c => own_delete ?_
            intro row hrow hpk data hdata
            obtain ⟨data', hdata'⟩ := hcont row hrow hpk
            rw [hdata'] at hdata
            simp only [Content.subgraph.injEq, List.cons.injEq] at hdata
            exact heq hdata.1.1.symm
        · intro id' hid'
          obtain ⟨hlegacy', hcont'⟩ := hstale id' (mem_cons_of_mem _ hid')
          exact ⟨hlegacy', fun row hrow => hcont' row (mem_delete.mp hrow).1⟩
        · intro other _
          have hother := hbuilding.build other
          cases hb : build other with
          | pruning stale =>
            rw [hb] at hother
            obtain ⟨hnew', sub', hextr', hget', hstale'⟩ := hother
            refine ⟨hnew', sub', hextr', (hgetOther other).trans hget', fun id' hid' => ?_⟩
            exact ⟨(hstale' id' hid').1, fun row hrow => (hstale' id' hid').2 row (mem_delete.mp hrow).1⟩
          | done subgraph =>
            rw [hb] at hother
            cases subgraph <;> exact hother
          | _ =>
            rw [hb] at hother
            exact hother
    · next hbuild =>
      cases hstep
      rw [hbuild] at hinv
      obtain ⟨hnew, sub, hextr, -⟩ := hinv
      refine ⟨h.keyed, h.checkpointed, h.merged, ?_⟩
      refine hbuilding.update hbuilding.pending ?_ fun other _ => hbuilding.build other
      rw [hextr]
      exact ⟨hnew, Loaded.ofExtracted hextr⟩
    · cases hstep
  · cases hstep

theorem runInv_merge (h : RunInv J base cur s) (hstep : s.merge J = some s') : RunInv J base cur s' := by
  unfold RunState.merge at hstep
  split at hstep
  · next merged build hprocess =>
    have hbuilding := h.process
    rw [hprocess] at hbuilding
    split at hstep
    · next hdone =>
      cases hstep
      rw [all_eq_true] at hdone
      have hloaded : ∀ docId sub, (build docId).subgraph? = some sub → Loaded J docId sub := by
        intro docId sub hsub
        have hinv := hbuilding.build docId
        cases hb : build docId with
        | done subgraph =>
          rw [hb] at hsub hinv
          obtain rfl : subgraph = some sub := hsub
          exact hinv.2
        | _ =>
          rw [hb] at hsub
          cases hsub
      refine ⟨h.keyed, h.checkpointed, h.merged, hloaded, ?_, ?_, ?_, by simp, by simp⟩
      · intro docId hdoc
        obtain ⟨hdoc, hsome⟩ := List.mem_filter.mp hdoc
        exact ⟨mem_documents.mp hdoc, hsome⟩
      · intro docId hdoc hnew hextr
        have hin := mem_documents.mpr hdoc
        refine List.mem_filter.mpr ⟨hin, ?_⟩
        have hinv := hbuilding.build docId
        have hisDone := hdone docId hin
        cases hb : build docId with
        | done subgraph =>
          rw [hb] at hinv
          cases subgraph with
          | none =>
            rcases hinv with hold | hnone
            · exact absurd hold hnew
            · exact absurd hnone hextr
          | some sub => rfl
        | _ =>
          rw [hb] at hisDone
          cases hisDone
      · exact fun docId hdoc hnew _ => hbuilding.pending docId hdoc hnew
    · cases hstep
  · cases hstep

/-! ### Merging -/

variable {change : GraphChange}

theorem planned_plan (hmerged : Merged J base cur) {graph : Graph} (hsub : Loaded J docId sub)
    (hplan : RunState.plan J cur docId sub = some (graph, change)) (revision : String) :
    Planned J cur docId sub (graph.revised revision) := by
  have hrevised : ∀ {g : Graph}, g.Valid J.sums → (g.revised revision).Valid J.sums :=
    fun hg => ⟨hg.nodes, hg.edges⟩
  unfold RunState.plan at hplan
  split at hplan
  · next hold =>
    rw [contains_iff_mem] at hold
    cases cur with
    | none => cases hplan
    | some g =>
      simp only [Option.map_some, some.injEq, Prod.mk.injEq] at hplan
      obtain ⟨rfl, -⟩ := hplan
      exact ⟨hrevised (hmerged.valid g rfl), fun _ => ⟨rfl, rfl⟩, fun hnew => absurd hold hnew⟩
  · next hnew =>
    rw [contains_iff_mem] at hnew
    obtain ⟨next, change', hmerge, hvalid, hdocs, hcont⟩ :=
      mergeSubgraph_content J.pagerank hmerged.valid hsub.ofDocument.valid
    rw [hplan, some.injEq, Prod.mk.injEq] at hmerge
    obtain ⟨rfl, -⟩ := hmerge
    refine ⟨hrevised hvalid, fun hold => absurd hold hnew, fun _ => ⟨?_, hcont⟩⟩
    exact hdocs.trans (by rw [hsub.ofDocument.documents])

theorem Planned.mem_documents (h : Planned J cur docId sub next) {source : String} :
    source ∈ next.documents ↔ source ∈ storedDocuments cur ∨ source = docId := by
  by_cases hold : docId ∈ storedDocuments cur
  · rw [(h.again hold).1]
    constructor
    · exact .inl
    · rintro (hin | rfl)
      · exact hin
      · exact hold
  · rw [(h.merged hold).1, mem_append, mem_singleton]

theorem deletable_of_stale {canonical : Id → Bool} {ids : List Id}
    (h : staleIds next change canonical store.rows = .ok ids) (hid : id ∈ ids) :
    Deletable store next change id := by
  obtain ⟨row, hrow, rfl, hstale⟩ := ((staleIds_ok h).2 id).mp hid
  have hnew : row.pk ∉ newIds next change := by
    intro hin
    rw [staleRow_new hin] at hstale
    cases hstale
  refine ⟨hnew, fun other hother hpk source data hcont => ?_⟩
  obtain rfl := eq_of_key hother hrow hpk
  rw [staleRow_subgraph hnew hcont, Except.ok.injEq] at hstale
  simpa using hstale

theorem runInv_attempt (h : RunInv J base cur s) {prep : Preparation} {revision : String}
    (hstep : s.attempt J prep revision = some s') : RunInv J base cur s' := by
  unfold RunState.attempt at hstep
  split at hstep
  · next subgraphs docId rest rewritten current hprocess hgraph =>
    have hmerging := h.process
    rw [hprocess] at hmerging
    obtain rfl : cur = current :=
      Except.ok.inj ((getGraph_checkpointed h.checkpointed []).symm.trans hgraph)
    split at hstep
    · next graph change hplan =>
      obtain ⟨sub, hsub, hplan⟩ := Option.bind_eq_some_iff.mp hplan
      dsimp only at hstep
      split at hstep
      · cases hstep
        refine ⟨h.keyed, h.checkpointed, h.merged, hmerging.loaded, hmerging.queued, hmerging.complete,
          hmerging.pending, hmerging.head, ?_⟩
        intro a ha docId' sub' hhead hsub'
        cases ha
        cases hhead
        obtain rfl : sub = sub' := some.inj (hsub.symm.trans hsub')
        refine ⟨planned_plan h.merged (hmerging.loaded docId sub hsub) hplan revision,
          fun row hrow => (prep.perm _).mem_iff.mp hrow, fun id hid => ?_⟩
        cases hstale : staleIds (graph.revised revision) change
            (canonicalIn (graph.revised revision) change s.store.rows) s.store.rows with
        | ok ids =>
          simp only [hstale, Except.toOption, Option.getD_some] at hid
          exact deletable_of_stale hstale hid
        | error error => simp [hstale, Except.toOption] at hid
      · cases hstep
    · cases hstep
  · cases hstep

theorem own_upsert_auxiliary (hkeyed : Keyed store) (hplanned : Planned J cur docId sub next)
    (hrow : row ∈ auxiliaryChunks next change ++ [checkpointChunk next])
    (hother : other ∉ storedDocuments cur) (hne : row.pk = .subgraph other → other ≠ docId)
    {c : Candidate} :
    Own (store.upsert row) other c ↔ Own store other c := by
  refine own_upsert hkeyed (canonical?_chunk hrow) fun hpk => ?_
  have hin : Id.subgraph other ∈ newIds next change := hpk ▸ mem_newIds.mpr ⟨row, hrow, rfl⟩
  exact (hplanned.mem_documents.mp (subgraph_mem_newIds.mp hin)).elim hother (hne hpk)

theorem Deletable.upsert (h : Deletable store next change id)
    (hrow : row ∈ auxiliaryChunks next change ++ [checkpointChunk next]) :
    Deletable (store.upsert row) next change id := by
  refine ⟨h.1, fun other hother hpk => ?_⟩
  rcases mem_upsert.mp hother with rfl | ⟨hold, -⟩
  · exact absurd (mem_newIds.mpr ⟨other, hrow, hpk⟩) h.1
  · exact h.2 other hold hpk

theorem Deletable.delete {id' : Id} (h : Deletable store next change id) :
    Deletable (store.delete id') next change id :=
  ⟨h.1, fun other hother => h.2 other (mem_delete.mp hother).1⟩

section

variable {subgraphs : String → Option Graph} {rest : List String} {a : Attempt} {rewritten : Bool}
  (h : RunInv J base cur s)
  (hprocess : s.process = some (.merging subgraphs (docId :: rest) (some a) rewritten))
include h hprocess

theorem runInv_auxiliary {rows : List Row} (hwriting : a.writing = .auxiliary (row :: rows)) :
    RunInv J base cur
      { store := s.store.upsert row
        process := some (.merging subgraphs (docId :: rest) (some { a with writing := .auxiliary rows })
          (rewritten || decide (row.pk = .subgraph docId))) } := by
  have hmerging := h.process
  rw [hprocess] at hmerging
  obtain ⟨sub, hsub⟩ := Option.isSome_iff_exists.mp (hmerging.queued docId mem_cons_self).2
  have hatt := hmerging.running a rfl docId sub rfl hsub
  simp only [AttemptInv, hwriting] at hatt
  obtain ⟨hplanned, hrows, hdeletable⟩ := hatt
  have hrow := hrows row mem_cons_self
  have hchunk := mem_append_left [checkpointChunk a.next] hrow
  obtain ⟨hgraph, hpk⟩ := isGraph_auxiliary hrow
  have hlegacy := canonical?_not_legacy (canonical?_chunk hchunk)
  refine ⟨h.keyed.upsert (canonical?_chunk hchunk), h.checkpointed.upsert h.keyed hgraph hpk hlegacy,
    h.merged, hmerging.loaded, hmerging.queued, hmerging.complete, ?_, ?_, ?_⟩
  · intro other hother hnew hhead
    have hne : row.pk = .subgraph other → other ≠ docId := by
      rintro heq rfl
      simp [heq] at hhead
    refine (hmerging.pending other hother hnew fun hrewritten => ?_).congr fun c =>
      own_upsert_auxiliary h.keyed hplanned hchunk hnew hne
    exact hhead (by simp [hrewritten])
  · intro hrewritten docId' sub' hhead hsub' hnew
    cases hhead
    obtain rfl : sub = sub' := some.inj (hsub.symm.trans hsub')
    by_cases heq : row.pk = .subgraph docId
    · refine ⟨a.next, hplanned, ?_⟩
      have hsubgraph : row = subgraphChunk a.next docId := by
        rcases mem_chunks.mp hchunk with ⟨source, -, rfl⟩ | ⟨-, node, -, rfl⟩ | ⟨pair, -, attrs, -, rfl⟩ | rfl
        · rw [Id.subgraph.inj heq]
        · cases heq
        · cases heq
        · cases heq
      rw [get?_upsert, if_pos heq, hsubgraph]
    · obtain ⟨next, hnext, hget⟩ := hmerging.head (by simpa [heq] using hrewritten) docId sub rfl hsub hnew
      refine ⟨next, hnext, ?_⟩
      rw [get?_upsert, if_neg heq, hget]
  · intro a' ha' docId' sub' hhead hsub'
    cases ha'
    cases hhead
    obtain rfl : sub = sub' := some.inj (hsub.symm.trans hsub')
    exact ⟨hplanned, fun other hother => hrows other (mem_cons_of_mem _ hother),
      fun id hid => (hdeletable id hid).upsert hchunk⟩

theorem runInv_checkpoint (hwriting : a.writing = .auxiliary []) :
    RunInv J base (some a.next)
      { store := s.store.upsert (checkpointChunk a.next)
        process := some (.merging subgraphs (docId :: rest)
          (some { a with writing := .pruning (a.stale.toOption.getD []) }) rewritten) } := by
  have hmerging := h.process
  rw [hprocess] at hmerging
  obtain ⟨hdoc, hsome⟩ := hmerging.queued docId mem_cons_self
  obtain ⟨sub, hsub⟩ := Option.isSome_iff_exists.mp hsome
  have hatt := hmerging.running a rfl docId sub rfl hsub
  simp only [AttemptInv, hwriting] at hatt
  obtain ⟨hplanned, -, hdeletable⟩ := hatt
  have hchunk : checkpointChunk a.next ∈ auxiliaryChunks a.next a.change ++ [checkpointChunk a.next] := by
    simp
  have hdocs : ∀ source, source ∈ storedDocuments (some a.next) ↔
      source ∈ storedDocuments cur ∨ source = docId := fun _ => hplanned.mem_documents
  refine ⟨h.keyed.upsert (canonical?_chunk hchunk), checkpointed_upsert_checkpoint a.next, ?_,
    hmerging.loaded, hmerging.queued, ?_, ?_, ?_, ?_⟩
  · by_cases hold : docId ∈ storedDocuments cur
    · exact h.merged.again hplanned.valid (hplanned.again hold).1 (hplanned.again hold).2
    · exact h.merged.add hdoc hold (hmerging.loaded docId sub hsub) hplanned.valid
        (hplanned.merged hold).1 (hplanned.merged hold).2
  · intro other hother hnew
    exact hmerging.complete other hother fun hold => hnew ((hdocs other).mpr (.inl hold))
  · intro other hother hnew _
    rw [hdocs, not_or] at hnew
    refine (hmerging.pending other hother hnew.1 fun _ hhead => ?_).congr fun c =>
      own_upsert_auxiliary h.keyed hplanned hchunk hnew.1 fun _ => hnew.2
    exact hnew.2 (some.inj hhead).symm
  · intro _ docId' sub' hhead hsub' hnew
    cases hhead
    exact absurd ((hdocs docId).mpr (.inr rfl)) hnew
  · intro a' ha' docId' sub' hhead hsub'
    cases ha'
    cases hhead
    refine ⟨rfl, (hdocs docId).mpr (.inr rfl), ?_, fun id hid => (hdeletable id hid).upsert hchunk⟩
    rw [get?_upsert]
    exact if_pos rfl

theorem runInv_prune {ids : List Id} (hwriting : a.writing = .pruning (id :: ids)) :
    RunInv J base cur
      { store := s.store.delete id
        process := some (.merging subgraphs (docId :: rest) (some { a with writing := .pruning ids })
          rewritten) } := by
  have hmerging := h.process
  rw [hprocess] at hmerging
  obtain ⟨sub, hsub⟩ := Option.isSome_iff_exists.mp (hmerging.queued docId mem_cons_self).2
  have hatt := hmerging.running a rfl docId sub rfl hsub
  simp only [AttemptInv, hwriting] at hatt
  obtain ⟨rfl, hdoc, hget, hdeletable⟩ := hatt
  have hid := hdeletable id mem_cons_self
  have hkept : (s.store.delete id).get? .checkpoint = some (checkpointChunk a.next) := by
    rw [get?_delete, if_neg, hget]
    rintro rfl
    exact hid.1 checkpoint_mem_newIds
  refine ⟨h.keyed.delete id, ⟨_, mem_of_get? hkept, rfl, rfl, .inl rfl⟩, h.merged,
    hmerging.loaded, hmerging.queued, hmerging.complete, ?_, ?_, ?_⟩
  · intro other hother hnew hhead
    refine (hmerging.pending other hother hnew hhead).congr fun c => own_delete ?_
    exact fun row hrow hpk data hcont => hnew (hid.2 row hrow hpk other data hcont)
  · intro _ docId' sub' hhead hsub' hnew
    cases hhead
    exact absurd hdoc hnew
  · intro a' ha' docId' sub' hhead hsub'
    cases ha'
    cases hhead
    exact ⟨rfl, hdoc, hkept, fun id' hid' => (hdeletable id' (mem_cons_of_mem _ hid')).delete⟩

end

section

variable (h : RunInv J base cur s)
include h

theorem runInv_write (hstep : s.write = some s') :
    ∃ cur', RunInv J base cur' s' := by
  unfold RunState.write at hstep
  split at hstep
  · next subgraphs docId rest a rewritten hprocess =>
    split at hstep
    · next hwriting =>
      cases hstep
      exact ⟨cur, runInv_auxiliary h hprocess hwriting⟩
    · next hwriting =>
      cases hstep
      exact ⟨some a.next, runInv_checkpoint h hprocess hwriting⟩
    · next hwriting =>
      cases hstep
      exact ⟨cur, runInv_prune h hprocess hwriting⟩
    · cases hstep
  · cases hstep

theorem runInv_finish (hstep : s.finish = some s') : RunInv J base cur s' := by
  unfold RunState.finish at hstep
  split at hstep
  · next subgraphs docId rest next change ids rewritten hprocess =>
    cases hstep
    have hmerging := h.process
    rw [hprocess] at hmerging
    obtain ⟨sub, hsub⟩ := Option.isSome_iff_exists.mp (hmerging.queued docId mem_cons_self).2
    obtain ⟨rfl, hdoc, -⟩ := hmerging.running _ rfl docId sub rfl hsub
    refine ⟨h.keyed, h.checkpointed, h.merged, hmerging.loaded,
      fun other hother => hmerging.queued other (mem_cons_of_mem _ hother), ?_, ?_, by simp, by simp⟩
    · intro other hother hnew hextr
      refine (mem_cons.mp (hmerging.complete other hother hnew hextr)).resolve_left ?_
      rintro rfl
      exact hnew hdoc
    · intro other hother hnew _
      refine hmerging.pending other hother hnew fun _ hhead => ?_
      exact hnew (some.inj hhead ▸ hdoc)
  · cases hstep

theorem runInv_retry (hstep : s.retry = some s') : RunInv J base cur s' := by
  unfold RunState.retry at hstep
  split at hstep
  · next subgraphs remaining a rewritten hprocess =>
    cases hstep
    have hmerging := h.process
    rw [hprocess] at hmerging
    exact ⟨h.keyed, h.checkpointed, h.merged, hmerging.loaded, hmerging.queued, hmerging.complete,
      hmerging.pending, hmerging.head, by simp⟩
  · cases hstep

theorem runInv_kill (hharmless : s.Harmless) :
    RunInv J base cur { s with process := none } := by
  refine ⟨h.keyed, h.checkpointed, h.merged, ?_⟩
  intro docId hdoc hnew
  have hinv := h.process
  rcases hprocess : s.process with - | ⟨merged, build⟩ | ⟨subgraphs, remaining, attempt, rewritten⟩
  · rw [hprocess] at hinv
    exact hinv docId hdoc hnew
  · rw [hprocess] at hinv
    exact hinv.pending docId hdoc hnew
  · rw [hprocess] at hinv
    by_cases hhead : rewritten = true ∧ remaining.head? = some docId
    · obtain ⟨rfl, hhead⟩ := hhead
      obtain ⟨rest, rfl⟩ := head?_eq_some_iff.mp hhead
      obtain ⟨sub, hsub⟩ := Option.isSome_iff_exists.mp (hinv.queued docId mem_cons_self).2
      obtain ⟨next, hplanned, hget⟩ := hinv.head rfl docId sub rfl hsub hnew
      have hloaded := hinv.loaded docId sub hsub
      refine Pending.stable hget ⟨ofDocument_perDocument hplanned.valid docId, ?_⟩
      obtain ⟨extracted, hextr, hsame⟩ := hloaded.content
      refine ⟨extracted, hextr, Eq.trans ?_ hsame⟩
      refine perDocument_merged h.merged.sourced hnew hloaded.ofDocument (hplanned.merged hnew).2 ?_
      rintro graph rfl
      exact (hharmless subgraphs docId rest attempt hprocess graph sub
        (getGraph_checkpointed h.checkpointed []) hsub).resolve_left hnew
    · refine hinv.pending docId hdoc hnew fun hrewritten hhead' => hhead ⟨hrewritten, hhead'⟩

theorem runInv_step {a : Action} (hstep : RunState.CarefulStep J s a s') :
    ∃ cur', RunInv J base cur' s' := by
  obtain ⟨hstep, hharmless⟩ := hstep
  cases a with
  | start => exact ⟨cur, runInv_start h hstep⟩
  | load docId => exact ⟨cur, runInv_load h hstep⟩
  | save docId => exact ⟨cur, runInv_save h hstep⟩
  | discard docId => exact ⟨cur, runInv_discard h hstep⟩
  | merge => exact ⟨cur, runInv_merge h hstep⟩
  | attempt prep revision => exact ⟨cur, runInv_attempt h hstep⟩
  | write => exact runInv_write h hstep
  | finish => exact ⟨cur, runInv_finish h hstep⟩
  | retry => exact ⟨cur, runInv_retry h hstep⟩
  | kill =>
    cases hstep
    exact ⟨cur, runInv_kill h (hharmless rfl)⟩

end

/-! ### The finished run -/

/-- A store a run can begin with: a checkpoint or none, and no subgraph of a document that is to
    be merged but the one its extraction yields. -/
structure Ready (J : Job) (base : Option Graph) (store : Store) : Prop where
  keyed : Keyed store
  checkpointed : Checkpointed store base
  valid : ∀ g, base = some g → g.Valid J.sums
  sourced : ∀ g, base = some g → Sourced g
  pending : ∀ docId ∈ J.docIds, docId ∉ storedDocuments base → Pending J store docId

variable {hist : List Action}

theorem runInv_run (h : Ready J base store)
    (hrun : Run (RunState.CarefulStep J) ⟨store, none⟩ hist s) : ∃ cur, RunInv J base cur s := by
  apply Run.invariant _ _ hrun
  · exact ⟨base, h.keyed, h.checkpointed, Merged.refl h.valid h.sourced, h.pending⟩
  · rintro s a s' ⟨cur, hinv⟩ hstep
    exact runInv_step hinv hstep

theorem content_finished (h : RunInv J base cur s) (hfin : s.Finished) :
    storedContent J.sums cur = storedContent J.sums base +
      ∑ docId ∈ J.docIds.toFinset with docId ∉ storedDocuments base, contribution J docId := by
  obtain ⟨subgraphs, rewritten, hprocess⟩ := hfin
  have hmerging := h.process
  rw [hprocess] at hmerging
  rw [h.merged.content]
  congr 1
  refine Finset.sum_subset (fun docId hin => ?_) fun docId hin hnot => ?_
  · simp only [newDocuments, Finset.mem_filter] at hin ⊢
    exact ⟨hin.1, hin.2.2⟩
  · rw [Finset.mem_filter, mem_toFinset] at hin
    have hnew : docId ∉ storedDocuments cur := by
      intro hold
      exact hnot (Finset.mem_filter.mpr ⟨mem_toFinset.mpr hin.1, hold, hin.2⟩)
    have hnone : J.extracted docId = none := by
      by_contra hsome
      cases hmerging.complete docId hin.1 hnew hsome
    simp [contribution, storedContent, hnone]

/-- The same nodes and edges, with the same weights, sources, keywords and description parts. -/
structure SameGraph (A : ExactSums) (g g' : Option Graph) : Prop where
  nodes : ∀ name, (g.any fun g => g.hasNode name) = g'.any fun g => g.hasNode name
  edges : ∀ pair, (g.any fun g => g.hasEdge pair) = g'.any fun g => g.hasEdge pair
  content : storedContent A g = storedContent A g'

theorem sameGraph_of_content {A : ExactSums} {g g' : Option Graph}
    (h : storedContent A g = storedContent A g') : SameGraph A g g' where
  nodes name := by
    have hiff : ∀ g : Option Graph, (g.any fun g => g.hasNode name) = true ↔
        (storedContent A g).1 name ≠ 0 := by
      intro g
      cases g with
      | none => simp [storedContent]
      | some g => exact hasNode_iff_content
    rw [Bool.eq_iff_iff, hiff, hiff, h]
  edges pair := by
    have hiff : ∀ g : Option Graph, (g.any fun g => g.hasEdge pair) = true ↔
        (storedContent A g).2 pair ≠ 0 := by
      intro g
      cases g with
      | none => simp [storedContent]
      | some g => exact hasEdge_iff_content A
    rw [Bool.eq_iff_iff, hiff, hiff, h]
  content := h

theorem careful_of_no_kill {start : RunState} (hrun : Run (RunState.Step J) start hist s)
    (hkill : Action.kill ∉ hist) :
    Run (RunState.CarefulStep J) start hist s := by
  induction hrun with
  | nil => exact Run.nil
  | cons _ hstep ih =>
    rw [mem_cons, not_or] at hkill
    exact Run.cons (ih hkill.2) ⟨hstep, fun heq => absurd heq.symm hkill.1⟩

/-- However often it was killed, and its attempts failed, a run whose kills were harmless ends
    with the graph of a run that was not killed: what was there before, and every extracted
    document once. -/
theorem restarted_run_merges_once (J : Job) (base : Option Graph) (store : Store)
    (hready : Ready J base store) (hist hist' : List Action) (s s' : RunState)
    (hrun : Run (RunState.CarefulStep J) ⟨store, none⟩ hist s) (hfinished : s.Finished)
    (hrun' : Run (RunState.Step J) ⟨store, none⟩ hist' s') (hkill : Action.kill ∉ hist')
    (hfinished' : s'.Finished) :
    ∃ g g', getGraph s.store.rows [] = .ok g ∧ getGraph s'.store.rows [] = .ok g' ∧
      SameGraph J.sums g g' ∧ storedContent J.sums g = storedContent J.sums base +
        ∑ docId ∈ J.docIds.toFinset with docId ∉ storedDocuments base, contribution J docId := by
  obtain ⟨cur, hinv⟩ := runInv_run hready hrun
  obtain ⟨cur', hinv'⟩ := runInv_run hready (careful_of_no_kill hrun' hkill)
  have hcontent := content_finished hinv hfinished
  refine ⟨cur, cur', getGraph_checkpointed hinv.checkpointed [],
    getGraph_checkpointed hinv'.checkpointed [], ?_, hcontent⟩
  exact sameGraph_of_content (hcontent.trans (content_finished hinv' hfinished').symm)

/-! ### Two documents with a common entity -/

def integers : ExactSums where
  value
    | .int n => some n
    | _ => none
  add
    | .int a, .int b => .int (a + b)
    | a, _ => a
  value_zero := rfl
  value_add := by
    intro a b p q ha hb
    split at ha
    · split at hb
      · cases ha
        cases hb
        simp
      · cases hb
    · cases ha

def oneEntity (docId description : String) : Graph where
  documents := [docId]
  revision := ""
  nodes := .single ("A", ⟨[docId], .single ("description", .str description)⟩)
  edges := .empty
  sorted := Graph.empty.sorted
  joins _ h := absurd h (not_mem_empty _)

theorem oneEntity_ofDocument (docId description : String) :
    OfDocument integers docId (oneEntity docId description) where
  valid := by
    refine ⟨fun node hnode => ?_, fun edge hedge => absurd hedge (not_mem_empty _)⟩
    rw [mem_singleton.mp hnode]
    rfl
  documents := rfl
  nodes name hne := by
    unfold nodeContent at hne ⊢
    cases hget : (oneEntity docId description).nodes.get? name with
    | none => simp [hget] at hne
    | some node =>
      rw [mem_singleton.mp (mem_of_get? hget)]
      rfl

def twoSources : Job where
  sums := integers
  pagerank _ _ := .int 1
  docIds := ["a", "b"]
  extracted docId := if docId = "a" then some (oneEntity "a" "x")
    else if docId = "b" then some (oneEntity "b" "y") else none
  ofDocument docId sub h := by
    split at h
    · next heq =>
      cases h
      exact heq ▸ oneEntity_ofDocument "a" "x"
    · split at h
      · next heq =>
        cases h
        exact heq ▸ oneEntity_ofDocument "b" "y"
      · cases h

theorem ready_empty : Ready twoSources none .empty where
  keyed row h := absurd h (not_mem_empty _)
  checkpointed row h := absurd h (not_mem_empty _)
  valid g h := by cases h
  sourced g h := by cases h
  pending docId _ _ := .inl rfl

def Action.isKill : Action → Bool
  | .kill => true
  | _ => false

namespace RunState

def act (a : Action) (s : RunState) : Action × RunState := (a, (perform twoSources a s).getD s)

/-- The action can happen, and a kill does not come after the subgraph row is rewritten. -/
def possible (a : Action) (s : RunState) : Bool :=
  (perform twoSources a s).isSome &&
    match a, s.process with
    | .kill, some (.merging _ _ _ true) => false
    | _, _ => true

theorem careful_act {a : Action} (h : possible a s = true) :
    CarefulStep twoSources s (act a s).1 (act a s).2 := by
  unfold possible at h
  rw [Bool.and_eq_true] at h
  obtain ⟨s', hs'⟩ := Option.isSome_iff_exists.mp h.1
  refine ⟨by simp [act, Step, hs'], ?_⟩
  rintro rfl subgraphs docId rest a' hprocess
  have hno := h.2
  rw [hprocess] at hno
  cases hno

theorem kill_not_mem (h : (hist.all fun a => !Action.isKill a) = true) :
    Action.kill ∉ hist := by
  intro hin
  have hno := all_eq_true.mp h _ hin
  simp [Action.isKill] at hno

def isFinished (s : RunState) : Bool :=
  match s.process with
  | some (.merging _ [] none _) => true
  | _ => false

theorem finished_of_isFinished (h : s.isFinished = true) : s.Finished := by
  unfold isFinished at h
  split at h
  · next hprocess => exact ⟨_, _, hprocess⟩
  · cases h

def stored (s : RunState) : Option Graph := (getGraph s.store.rows []).toOption.getD none

theorem getGraph_stored (h : (getGraph s.store.rows []).toOption.isSome = true) :
    getGraph s.store.rows [] = .ok s.stored := by
  unfold stored
  cases hgraph : getGraph s.store.rows [] with
  | ok g => rfl
  | error error => simp [hgraph, Except.toOption] at h

def fresh : RunState := ⟨.empty, none⟩

def building : List Action :=
  [.start, .load "a", .load "b", .save "b", .save "a", .discard "a", .discard "b", .merge]

def merging : List Action :=
  [.attempt prepared "r1", .write, .write, .write, .finish, .attempt prepared "r2", .write, .write,
    .write, .write, .finish]

def killedEarly : List Action :=
  [.start, .load "b", .save "b", .kill, .start, .load "a", .load "b", .save "a", .discard "a", .merge] ++
    merging

/-- Killed after the subgraph row of `b` is rewritten, and run again. -/
def killedLate : List Action :=
  building ++ merging.take 8 ++ [.kill, .start, .load "a", .load "b", .merge,
    .attempt prepared "r3", .write, .write, .write, .write, .finish]

def after (actions : List Action) : RunState := (execute act actions [] fresh).2

def history (actions : List Action) : List Action := (execute act actions [] fresh).1

theorem step_act {a : Action} (h : (perform twoSources a s).isSome = true) :
    Step twoSources s (act a s).1 (act a s).2 := by
  obtain ⟨s', hs'⟩ := Option.isSome_iff_exists.mp h
  simp [act, Step, hs']

theorem run_act (actions : List Action)
    (h : allowed act (fun a s => (perform twoSources a s).isSome) actions fresh = true) :
    Run (Step twoSources) fresh (history actions) (after actions) :=
  execute_steps Run.nil h fun _ _ => step_act

theorem careful_run (actions : List Action) (h : allowed act possible actions fresh = true) :
    Run (CarefulStep twoSources) fresh (history actions) (after actions) :=
  execute_steps Run.nil h fun _ _ => careful_act

end RunState

open RunState

theorem restarted_run_merges_once_sample :
    ∃ g g', getGraph (after killedEarly).store.rows [] = .ok g ∧
      getGraph (after (building ++ merging)).store.rows [] = .ok g' ∧ SameGraph integers g g' := by
  obtain ⟨g, g', hg, hg', hsame, -⟩ := restarted_run_merges_once twoSources none .empty ready_empty _ _ _ _
    (careful_run killedEarly (by decide +kernel)) (finished_of_isFinished (by decide +kernel))
    (run_act (building ++ merging) (by decide +kernel)) (kill_not_mem (by decide +kernel))
    (finished_of_isFinished (by decide +kernel))
  exact ⟨g, g', hg, hg', hsame⟩

/-- The second run reads the rewritten row of `b`, with the description of `a` in it, and merges
    it into the graph that has `a` already. -/
theorem merged_twice :
    ∃ hist hist' s s' g g', Run (Step twoSources) fresh hist s ∧ s.Finished ∧
      Run (Step twoSources) fresh hist' s' ∧ Action.kill ∉ hist' ∧ s'.Finished ∧
      getGraph s.store.rows [] = .ok g ∧ getGraph s'.store.rows [] = .ok g' ∧
      ¬SameGraph integers g g' := by
  refine ⟨_, _, _, _, _, _, run_act killedLate (by decide +kernel),
    finished_of_isFinished (by decide +kernel), run_act (building ++ merging) (by decide +kernel),
    kill_not_mem (by decide +kernel), finished_of_isFinished (by decide +kernel),
    getGraph_stored (by decide +kernel), getGraph_stored (by decide +kernel), ?_⟩
  intro hsame
  have hparts : ((storedContent integers (stored (after killedLate))).1 "A").1 =
      ((storedContent integers (stored (after (building ++ merging)))).1 "A").1 := by
    rw [hsame.content]
  have hkilled : ((storedContent integers (stored (after killedLate))).1 "A").1 = {"x", "x", "y"} := by
    decide +kernel
  have hplain : ((storedContent integers (stored (after (building ++ merging)))).1 "A").1 =
      {"x", "y"} := by
    decide +kernel
  rw [hkilled, hplain] at hparts
  exact absurd hparts (by decide)

end MultiRag.GraphRag
