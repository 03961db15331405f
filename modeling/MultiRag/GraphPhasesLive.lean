/-
  **What a run has done when it is at a phase.**

  At a phase every document of the run is in the graph, unless it has neither chunks
  nor a subgraph (`Covered`), the graph in memory is the stored one, and every
  earlier phase that was asked for has left its marker (`Found`).
-/
import MultiRag.GraphPhasesSound
import MultiRag.GraphRestartOnce

namespace MultiRag.GraphRag.Phases

open List Function
open Option (some.inj)

variable {δ : Type} {D : Deployment δ} {s s' : KbState δ} {store store' : Store} {cur : Option Graph}
  {inputs : Inputs} {markers : Phase → Option δ}

/-! ### What one write keeps -/

structure Live (store : Store) (cur : Option Graph) : Prop where
  keyed : Keyed store
  checkpointed : Checkpointed store cur

def Reads : Option Graph → Option Graph → Prop
  | none, none => True
  | some g, some g' => SameData g g'
  | _, _ => False

theorem Reads.documents {g g' : Option Graph} (h : Reads g g') : storedDocuments g = storedDocuments g' := by
  cases g <;> cases g'
  · rfl
  · exact h.elim
  · exact h.elim
  · exact SameData.documents h

theorem reads_reread (g : Option Graph) : Reads (g.map D.reread) g := by
  cases g with
  | none => trivial
  | some g => exact D.rereadSame g

def Covered (store : Store) (cur : Option Graph) (inputs : Inputs) (docId : String) : Prop :=
  docId ∈ storedDocuments cur ∨ (inputs.hasChunks docId = false ∧ ∀ c, ¬Own store docId c)

variable {docId : String} {row : Row}

theorem noOwn_upsert (hrow : ∀ data, row.content ≠ .subgraph [docId] data)
    (h : ∀ c, ¬Own store docId c) (c : Candidate) : ¬Own (store.upsert row) docId c := by
  intro hown
  obtain ⟨hsrcs, other, hother, hpk, hcont, hlive⟩ := own_iff.mp hown
  rcases Table.mem_upsert.mp hother with rfl | ⟨hold, -⟩
  · exact hrow _ hcont
  · exact h c (own_iff.mpr ⟨hsrcs, other, hold, hpk, hcont, hlive⟩)

theorem noOwn_delete {id : Id} (h : ∀ c, ¬Own store docId c) (c : Candidate) :
    ¬Own (store.delete id) docId c := by
  intro hown
  obtain ⟨hsrcs, other, hother, hrest⟩ := own_iff.mp hown
  exact h c (own_iff.mpr ⟨hsrcs, other, (Table.mem_delete.mp hother).1, hrest⟩)

variable {g : Graph} {change : GraphChange}

theorem documents_of_chunk {data : Graph} (h : row ∈ auxiliaryChunks g change)
    (hcont : row.content = .subgraph [docId] data) :
    docId ∈ g.documents := by
  rcases mem_chunks.mp (mem_append_left [checkpointChunk g] h) with
    ⟨source, hsource, rfl⟩ | ⟨-, node, -, rfl⟩ | ⟨pair, -, attrs, -, rfl⟩ | rfl
  · simp only [subgraphChunk, Content.subgraph.injEq, List.cons.injEq] at hcont
    exact hcont.1.1 ▸ hsource
  · cases hcont
  · cases hcont
  · cases hcont

structure AttemptLive (store : Store) (cur : Option Graph) (a : Attempt) : Prop where
  writes : Writes store a
  kept : ∀ docId ∈ storedDocuments cur, docId ∈ a.next.documents
  auxiliary : ∀ rows, a.writing = .auxiliary rows → ∀ row ∈ rows, row ∈ auxiliaryChunks a.next a.change
  committed : ∀ ids, a.writing = .pruning ids → cur = some a.next

variable {prep : Preparation} {revision : String} {a : Attempt}

theorem attemptLive_begin {graph : Graph}
    (hbegin : beginSetGraph prep store graph change revision = some a)
    (hkept : ∀ docId ∈ storedDocuments cur, docId ∈ graph.documents) : AttemptLive store cur a := by
  obtain ⟨hnext, -, rows, hwriting, hrows⟩ := beginSetGraph_some hbegin
  refine ⟨writes_begin hbegin, ?_, ?_, ?_⟩
  · rw [hnext]
    exact hkept
  · intro rows' hrows'
    rw [hwriting, Writing.auxiliary.injEq] at hrows'
    exact hrows' ▸ hrows
  · intro ids hids
    simp [hwriting] at hids

theorem writeRow_live {a' : Attempt} (h : Live store cur) (ha : AttemptLive store cur a)
    (hwrite : writeRow store a = some (a', store')) :
    ∃ cur', Live store' cur' ∧ AttemptLive store' cur' a' ∧ a'.next = a.next ∧
      (cur' = cur ∨ cur' = some a.next) ∧
      ∀ docId, docId ∉ a.next.documents → (∀ c, ¬Own store docId c) → ∀ c, ¬Own store' docId c := by
  have hwrites := writes_writeRow ha.writes hwrite
  unfold writeRow at hwrite
  split at hwrite
  · next row rows hwriting =>
    cases hwrite
    have hrow := ha.auxiliary _ hwriting row mem_cons_self
    have hchunk := canonical?_chunk (mem_append_left [checkpointChunk a.next] hrow)
    obtain ⟨hgraph, hpk⟩ := isGraph_auxiliary hrow
    refine ⟨cur, ⟨h.keyed.upsert hchunk, ?_⟩, ⟨hwrites, ha.kept, ?_, ?_⟩, rfl, .inl rfl, ?_⟩
    · exact h.checkpointed.upsert h.keyed hgraph hpk (canonical?_not_legacy hchunk)
    · intro rows' hrows' other hother
      obtain rfl := Writing.auxiliary.inj hrows'
      exact ha.auxiliary _ hwriting other (mem_cons_of_mem _ hother)
    · exact nofun
    · intro docId hdoc hnone
      exact noOwn_upsert (fun data hcont => hdoc (documents_of_chunk hrow hcont)) hnone
  · next hwriting =>
    cases hwrite
    refine ⟨some a.next, ⟨h.keyed.upsert rfl, checkpointed_upsert_checkpoint a.next⟩,
      ⟨hwrites, fun _ hdoc => hdoc, ?_, fun _ _ => rfl⟩, rfl, .inr rfl, ?_⟩
    · exact nofun
    · intro docId _ hnone
      exact noOwn_upsert (fun data hcont => by cases hcont) hnone
  · next id ids hwriting =>
    cases hwrite
    have hcur := ha.committed _ hwriting
    refine ⟨cur, ⟨h.keyed.delete id, ?_⟩, ⟨hwrites, ha.kept, ?_, fun _ _ => hcur⟩, rfl, .inl rfl, ?_⟩
    · rw [hcur]
      exact checkpointed_of_get? (hwrites.2 ids rfl).2
    · exact nofun
    · intro docId _ hnone
      exact noOwn_delete hnone
  · cases hwrite

theorem committed_of_returns (h : AttemptLive store cur a) (hreturns : returns a = true) :
    cur = some a.next := by
  unfold returns at hreturns
  split at hreturns
  · next hwriting => exact h.committed _ hwriting
  · cases hreturns

theorem mergeSubgraph_documents {A : ExactSums} {pagerank : Graph → String → Json}
    {old : Option Graph} {sub : Graph} (h : mergeSubgraph A pagerank old sub = some (g, change)) :
    g.documents = storedDocuments old ++ sub.documents := by
  unfold mergeSubgraph at h
  cases old with
  | none =>
    obtain rfl := congrArg Prod.fst (some.inj h)
    rfl
  | some old =>
    obtain ⟨merged, hmerged, heq⟩ := Option.map_eq_some_iff.mp h
    unfold graphMerge at hmerged
    split at hmerged
    · obtain rfl := some.inj hmerged
      obtain rfl := congrArg Prod.fst heq
      rfl
    · cases hmerged

/-! ### The invariant -/

def Found (D : Deployment δ) (markers : Phase → Option δ) (inputs : Inputs) (phase : Phase) (g : Graph) :
    Prop := inputs.requests phase = true → markers phase = some (phaseRevision D inputs phase g)

def BuildLive (store : Store) (cur : Option Graph) (inputs : Inputs) (docId : String) : Build → Prop
  | .done none => Covered store cur inputs docId
  | .done (some subgraph) => subgraph.documents = [docId]
  | .pruning subgraph stale => subgraph.documents = [docId] ∧
      ∀ row ∈ store, row.isGraph = true → row.pk ∉ stale
  | _ => True

/-- A run at a phase: all documents are merged, and the marker of an earlier phase is there. -/
structure Phased (D : Deployment δ) (store : Store) (cur : Option Graph) (markers : Phase → Option δ)
    (inputs : Inputs) (phase : Phase) (final : Graph) : Prop where
  same : ∃ g, cur = some g ∧ SameData final g
  covered : ∀ docId ∈ inputs.documents, Covered store cur inputs docId
  found : phase = .community → Found D markers inputs .resolution final

def StageLive (D : Deployment δ) (store : Store) (cur : Option Graph) (markers : Phase → Option δ)
    (inputs : Inputs) : Stage → Prop
  | .building persisted build => Reads persisted cur ∧ ∀ docId, BuildLive store cur inputs docId (build docId)
  | .merging final subgraphs remaining failed _ attempt =>
      (remaining = [] → Reads final cur) ∧
      (∀ docId subgraph, subgraphs docId = some subgraph → subgraph.documents = [docId]) ∧
      (failed = false → ∀ docId ∈ inputs.documents, docId ∈ remaining ∨ Covered store cur inputs docId) ∧
      ∀ a, attempt = some a → ∃ docId rest, remaining = docId :: rest ∧ AttemptLive store cur a ∧
        docId ∈ a.next.documents ∧ ∀ other ∈ a.next.documents, other ∈ storedDocuments cur ∨ other = docId
  | .checking phase final => Phased D store cur markers inputs phase final
  | .resolving final attempt =>
      (∃ g, cur = some g ∧ g.documents = final.documents) ∧
      (∀ docId ∈ inputs.documents, Covered store cur inputs docId) ∧
      ∀ a, attempt = some a → AttemptLive store cur a ∧ a.next.documents = final.documents
  | .extracting final _ => Phased D store cur markers inputs .community final
  | .marking phase final => Phased D store cur markers inputs phase final
  | .finished (some final) => Phased D store cur markers inputs .community final ∧
      Found D markers inputs .community final
  | .finished none => inputs.documents = [] ∨
      (cur = none ∧ ∀ docId ∈ inputs.documents, Covered store cur inputs docId)

def LiveInv (D : Deployment δ) (s : KbState δ) : Prop :=
  ∃ cur, Live s.store cur ∧
    ∀ inputs stage, s.process = some (inputs, stage) → StageLive D s.store cur s.markers inputs stage

theorem liveInv_goOn {reports : Reports} {completions : List Completion} {stage : Stage}
    (h : Live store cur) (hstage : StageLive D store cur markers inputs stage) :
    LiveInv D (KbState.goOn ⟨store, reports, markers, completions, s.process⟩ inputs stage) := by
  refine ⟨cur, h, fun inputs' stage' hproc => ?_⟩
  obtain ⟨rfl, rfl⟩ := hproc
  exact hstage

theorem LiveInv.ended (h : LiveInv D s) : LiveInv D s.ended := by
  obtain ⟨cur, hlive, -⟩ := h
  exact ⟨cur, hlive, fun _ _ hproc => by cases hproc⟩

/-! ### Building -/

theorem liveInv_start (h : LiveInv D s) (hstep : KbState.start D inputs s = some s') : LiveInv D s' := by
  obtain ⟨cur, hlive, -⟩ := h
  unfold KbState.start at hstep
  split at hstep
  · cases hstep
  · split at hstep
    · next hempty =>
      cases hstep
      exact liveInv_goOn hlive (.inl (List.isEmpty_iff.mp hempty))
    · split at hstep
      · next persisted hgraph =>
        cases hstep
        rw [getGraph_checkpointed hlive.checkpointed, Except.ok.injEq] at hgraph
        subst hgraph
        exact liveInv_goOn hlive ⟨reads_reread cur, fun _ => trivial⟩
      · cases hstep

variable {build : String → Build} {b : Build}

theorem buildLive_update
    (hothers : ∀ other, other ≠ docId → BuildLive store cur inputs other (build other))
    (hb : BuildLive store cur inputs docId b) (other : String) :
    BuildLive store cur inputs other (update build docId b other) := by
  by_cases heq : other = docId
  · subst heq
    rwa [update_self]
  · rw [update_of_ne heq]
    exact hothers other heq

theorem liveInv_load (h : LiveInv D s) (hstep : s.load docId = some s') : LiveInv D s' := by
  obtain ⟨cur, hlive, hstage⟩ := h
  unfold KbState.load at hstep
  split at hstep
  · next inputs persisted build hproc =>
    obtain ⟨hreads, hbuild⟩ := hstage _ _ hproc
    have hbuilt : ∀ b, BuildLive s.store cur inputs docId b →
        LiveInv D (s.goOn inputs (.building persisted (update build docId b))) :=
      fun b hb => liveInv_goOn hlive ⟨hreads, buildLive_update (fun other _ => hbuild other) hb⟩
    split at hstep
    · simp only at hstep
      split at hstep
      · next hmerged =>
        cases hstep
        rw [contains_iff_mem, hreads.documents] at hmerged
        exact hbuilt _ (.inl hmerged)
      · split at hstep
        · next subgraph hload =>
          cases hstep
          obtain ⟨c, -, rfl⟩ := loadSubgraph_eq_some.mp hload
          exact hbuilt _ rfl
        · next hload =>
          cases hstep
          apply hbuilt
          split
          · trivial
          · next hchunks => exact .inr ⟨by simpa using hchunks, loadSubgraph_eq_none.mp hload⟩
        · cases hstep
    · cases hstep
  · cases hstep

theorem Covered.mono (h : Covered store cur inputs docId)
    (hnone : (∀ c, ¬Own store docId c) → ∀ c, ¬Own store' docId c) :
    Covered store' cur inputs docId :=
  h.imp_right fun hempty => ⟨hempty.1, hnone hempty.2⟩

theorem buildLive_mono (h : BuildLive store cur inputs docId b)
    (hnone : (∀ c, ¬Own store docId c) → ∀ c, ¬Own store' docId c)
    (hgraphs : ∀ row ∈ store', row.isGraph = true → row ∈ store) :
    BuildLive store' cur inputs docId b := by
  cases b with
  | done subgraph =>
    cases subgraph with
    | none => exact Covered.mono h hnone
    | some subgraph => exact h
  | pruning subgraph stale => exact ⟨h.1, fun row hrow hgraph => h.2 row (hgraphs row hrow hgraph) hgraph⟩
  | _ => trivial

theorem graph_of_upsert (hrow : row.isGraph = false) :
    ∀ other ∈ store.upsert row, other.isGraph = true → other ∈ store := by
  intro other hother hgraph
  rcases Table.mem_upsert.mp hother with rfl | ⟨hold, -⟩
  · simp [hrow] at hgraph
  · exact hold

theorem liveInv_extract {extracted : Graph} (h : LiveInv D s)
    (hstep : s.extract docId extracted = some s') : LiveInv D s' := by
  obtain ⟨cur, hlive, hstage⟩ := h
  unfold KbState.extract at hstep
  split at hstep
  · next inputs persisted build graph hproc hgraph =>
    obtain ⟨hreads, hbuild⟩ := hstage _ _ hproc
    split at hstep
    · split at hstep
      · cases hstep
        exact liveInv_goOn hlive ⟨hreads, buildLive_update (fun other _ => hbuild other) trivial⟩
      · cases hstep
        have hlive' : Live (s.store.upsert (RunState.extractedRow docId { extracted with documents := [docId] })) cur :=
          ⟨hlive.keyed.upsert rfl,
            hlive.checkpointed.upsert hlive.keyed rfl (by simp [RunState.extractedRow]) rfl⟩
        refine liveInv_goOn hlive' ⟨hreads, buildLive_update (fun other hne => ?_) ⟨rfl, ?_⟩⟩
        · refine buildLive_mono (hbuild other) (noOwn_upsert fun data hcont => ?_) (graph_of_upsert rfl)
          simp only [RunState.extractedRow, Content.subgraph.injEq, List.cons.injEq] at hcont
          exact hne hcont.1.1.symm
        · intro row hrow hrowGraph hin
          obtain ⟨-, other, hother, hpk, data, hcont⟩ := mem_staleSubgraphs hin
          have hold := graph_of_upsert rfl row hrow hrowGraph
          obtain rfl := Table.eq_of_key hother hold hpk
          simp [Row.isGraph, hcont] at hrowGraph
    · cases hstep
  · cases hstep

theorem liveInv_discard (h : LiveInv D s) (hstep : s.discard docId = some s') :
    LiveInv D s' := by
  obtain ⟨cur, hlive, hstage⟩ := h
  unfold KbState.discard at hstep
  split at hstep
  · next inputs persisted build hproc =>
    obtain ⟨hreads, hbuild⟩ := hstage _ _ hproc
    have hdoc := hbuild docId
    split at hstep
    · next subgraph id rest heq =>
      cases hstep
      rw [heq] at hdoc
      obtain ⟨hdocs, hstale⟩ := hdoc
      have hgraphs : ∀ row ∈ s.store.delete id, row.isGraph = true → row ∈ s.store :=
        fun row hrow _ => (Table.mem_delete.mp hrow).1
      have hlive' : Live (s.store.delete id) cur := by
        refine ⟨hlive.keyed.delete id, hlive.checkpointed.delete fun row hrow hgraph hpk => ?_⟩
        exact hstale row hrow hgraph (hpk ▸ mem_cons_self)
      refine liveInv_goOn hlive' ⟨hreads, buildLive_update (fun other _ => ?_) ⟨hdocs, ?_⟩⟩
      · exact buildLive_mono (hbuild other) noOwn_delete hgraphs
      · exact fun row hrow hgraph hin =>
          hstale row (hgraphs row hrow hgraph) hgraph (mem_cons_of_mem _ hin)
    · next subgraph heq =>
      cases hstep
      rw [heq] at hdoc
      exact liveInv_goOn hlive ⟨hreads, buildLive_update (fun other _ => hbuild other) hdoc.1⟩
    · cases hstep
  · cases hstep

theorem liveInv_fail (h : LiveInv D s) (hstep : s.fail docId = some s') : LiveInv D s' := by
  obtain ⟨cur, hlive, hstage⟩ := h
  unfold KbState.fail at hstep
  split at hstep
  · next inputs persisted build hproc =>
    obtain ⟨hreads, hbuild⟩ := hstage _ _ hproc
    have hfailed : LiveInv D (s.goOn inputs (.building persisted (update build docId .failed))) :=
      liveInv_goOn hlive ⟨hreads, buildLive_update (fun other _ => hbuild other) trivial⟩
    split at hstep
    · exact some.inj hstep ▸ hfailed
    · exact some.inj hstep ▸ hfailed
    · cases hstep
  · cases hstep

theorem covered_of_settled (h : BuildLive store cur inputs docId (build docId))
    (hsettled : (build docId).isSettled = true) (hlive : (build docId).isFailed = false)
    (hnone : (build docId).subgraph?.isSome = false) :
    Covered store cur inputs docId := by
  cases hbuild : build docId with
  | done subgraph =>
    rw [hbuild] at h hnone
    cases subgraph with
    | none => exact h
    | some subgraph => simp [Build.subgraph?] at hnone
  | failed => simp [hbuild, Build.isFailed] at hlive
  | _ => simp [hbuild, Build.isSettled] at hsettled

variable {subgraph : Graph}

theorem documents_of_subgraph? (h : BuildLive store cur inputs docId b)
    (hsub : b.subgraph? = some subgraph) :
    subgraph.documents = [docId] := by
  cases b with
  | done built =>
    obtain rfl : built = some subgraph := hsub
    exact h
  | _ => cases hsub

theorem liveInv_merge (h : LiveInv D s) (hstep : s.merge = some s') : LiveInv D s' := by
  obtain ⟨cur, hlive, hstage⟩ := h
  unfold KbState.merge at hstep
  split at hstep
  · next inputs persisted build hproc =>
    obtain ⟨hreads, hbuild⟩ := hstage _ _ hproc
    split at hstep
    · next hsettled =>
      rw [all_eq_true] at hsettled
      have hcov : (inputs.documents.any fun docId => (build docId).isFailed) = false →
          ∀ docId ∈ inputs.documents,
            docId ∈ inputs.documents.filter (fun docId => (build docId).subgraph?.isSome) ∨
              Covered s.store cur inputs docId := by
        intro hfailed docId hdoc
        cases hsome : (build docId).subgraph?.isSome with
        | true => exact .inl (List.mem_filter.mpr ⟨hdoc, hsome⟩)
        | false =>
          have halive : (build docId).isFailed = false := by
            simpa using any_eq_false.mp hfailed docId hdoc
          exact .inr (covered_of_settled (hbuild docId) (hsettled docId hdoc) halive hsome)
      simp only at hstep
      split at hstep
      · next hempty =>
        cases hstep
        rw [Bool.and_eq_true, Bool.and_eq_true, Option.isNone_iff_eq_none, List.isEmpty_iff,
          Bool.not_eq_true'] at hempty
        obtain ⟨⟨rfl, hok⟩, hfailed⟩ := hempty
        have hcur : cur = none := by
          cases cur with
          | none => rfl
          | some g => exact hreads.elim
        refine liveInv_goOn hlive (.inr ⟨hcur, fun docId hdoc => ?_⟩)
        exact (hcov hfailed docId hdoc).resolve_left (by simp [hok])
      · cases hstep
        refine liveInv_goOn hlive ⟨fun _ => hreads, fun docId subgraph hsub => ?_, hcov,
          fun a ha => by cases ha⟩
        exact documents_of_subgraph? (hbuild docId) hsub
    · cases hstep
  · cases hstep

/-! ### Merging -/

variable {kept : Phase → Bool}

theorem liveInv_clear (h : LiveInv D s) (hstep : s.clear kept = some s') :
    LiveInv D s' := by
  obtain ⟨cur, hlive, hstage⟩ := h
  unfold KbState.clear at hstep
  split at hstep
  · next inputs final subgraphs docId rest failed hproc =>
    cases hstep
    have hmerging := hstage _ _ hproc
    exact liveInv_goOn hlive hmerging
  · cases hstep

theorem plan_documents {current : Option Graph} (hcur : Reads current cur)
    (hsub : subgraph.documents = [docId])
    (h : KbState.plan D current docId subgraph = some (g, change)) :
    (∀ other ∈ storedDocuments cur, other ∈ g.documents) ∧ docId ∈ g.documents ∧
      ∀ other ∈ g.documents, other ∈ storedDocuments cur ∨ other = docId := by
  unfold KbState.plan at h
  rw [hcur.documents] at h
  split at h
  · next hin =>
    obtain ⟨old, rfl, heq⟩ := Option.map_eq_some_iff.mp h
    obtain rfl := congrArg Prod.fst heq
    have hsame : old.documents = storedDocuments cur := hcur.documents
    rw [contains_iff_mem] at hin
    simp only [hsame]
    exact ⟨fun _ hother => hother, hin, fun _ hother => .inl hother⟩
  · have hdocs : g.documents = storedDocuments cur ++ [docId] := by
      rw [mergeSubgraph_documents h, hcur.documents, hsub]
    rw [hdocs]
    refine ⟨fun _ => mem_append_left _, mem_append_right _ mem_cons_self, fun other hother => ?_⟩
    rwa [mem_append, mem_singleton] at hother

section

variable (h : LiveInv D s)
include h

theorem liveInv_attempt
    (hstep : KbState.attempt D prep revision kept s = some s') : LiveInv D s' := by
  obtain ⟨cur, hlive, hstage⟩ := h
  unfold KbState.attempt at hstep
  split at hstep
  · next inputs final subgraphs docId rest failed current hproc hgraph =>
    obtain ⟨-, hsubgraphs, hcov, -⟩ := hstage _ _ hproc
    rw [getGraph_checkpointed hlive.checkpointed, Except.ok.injEq] at hgraph
    subst hgraph
    split at hstep
    · next graph change hplan =>
      obtain ⟨subgraph, hsub, hplan⟩ := Option.bind_eq_some_iff.mp hplan
      obtain ⟨hkept, hdoc, honly⟩ := plan_documents (reads_reread cur) (hsubgraphs docId subgraph hsub) hplan
      rw [Option.map_eq_some_iff] at hstep
      obtain ⟨a, hbegin, rfl⟩ := hstep
      have hnext : StageLive D s.store cur (clearMarkers s.markers kept) inputs
          (.merging final subgraphs (docId :: rest) failed true (some a)) := by
        refine ⟨fun hnil => absurd hnil (cons_ne_nil _ _), hsubgraphs, hcov, fun a' ha' => ?_⟩
        obtain rfl := some.inj ha'
        refine ⟨docId, rest, rfl, attemptLive_begin hbegin hkept, ?_⟩
        rw [(beginSetGraph_some hbegin).1]
        exact ⟨hdoc, honly⟩
      exact liveInv_goOn hlive hnext
    · cases hstep
  · cases hstep

theorem liveInv_write (hstep : s.write = some s') : LiveInv D s' := by
  obtain ⟨cur, hlive, hstage⟩ := h
  unfold KbState.write at hstep
  split at hstep
  · next inputs final subgraphs remaining failed cleared a hproc =>
    obtain ⟨-, hsubgraphs, hcov, hatt⟩ := hstage _ _ hproc
    obtain ⟨docId, rest, rfl, ha, hdoc, honly⟩ := hatt a rfl
    obtain ⟨⟨a', store⟩, hwrite, rfl⟩ := Option.map_eq_some_iff.mp hstep
    obtain ⟨cur', hlive', ha', hnext, hcur, hown⟩ := writeRow_live hlive ha hwrite
    have hmono : ∀ other ∈ storedDocuments cur, other ∈ storedDocuments cur' := by
      intro other hother
      rcases hcur with rfl | rfl
      · exact hother
      · exact ha.kept other hother
    refine liveInv_goOn hlive' ⟨fun hnil => absurd hnil (cons_ne_nil _ _), hsubgraphs, ?_, ?_⟩
    · intro hfailed other hother
      rcases hcov hfailed other hother with hremaining | hin | ⟨hchunks, hnone⟩
      · exact .inl hremaining
      · exact .inr (.inl (hmono other hin))
      · by_cases hnew : other ∈ a.next.documents
        · rcases honly other hnew with hin | rfl
          · exact .inr (.inl (hmono other hin))
          · exact .inl mem_cons_self
        · exact .inr (.inr ⟨hchunks, hown other hnew hnone⟩)
    · intro a'' ha''
      obtain rfl := some.inj ha''
      refine ⟨docId, rest, rfl, ha', hnext ▸ hdoc, ?_⟩
      rw [hnext]
      exact fun other hother => (honly other hother).imp_left (hmono other)
  · next inputs final a hproc =>
    obtain ⟨⟨g, rfl, hdocs⟩, hcov, hatt⟩ := hstage _ _ hproc
    obtain ⟨ha, hsame⟩ := hatt a rfl
    obtain ⟨⟨a', store⟩, hwrite, rfl⟩ := Option.map_eq_some_iff.mp hstep
    obtain ⟨cur', hlive', ha', hnext, hcur, hown⟩ := writeRow_live hlive ha hwrite
    have hstored : ∃ g', cur' = some g' ∧ g'.documents = final.documents := by
      rcases hcur with rfl | rfl
      · exact ⟨g, rfl, hdocs⟩
      · exact ⟨a.next, rfl, hsame⟩
    obtain ⟨g', rfl, hdocs'⟩ := hstored
    refine liveInv_goOn hlive' ⟨⟨g', rfl, hdocs'⟩, fun other hother => ?_, fun a'' ha'' => ?_⟩
    · rcases hcov other hother with hin | ⟨hchunks, hnone⟩
      · left
        change other ∈ g'.documents
        rw [hdocs', ← hdocs]
        exact hin
      · by_cases hin : other ∈ a.next.documents
        · left
          change other ∈ g'.documents
          rwa [hdocs', ← hsame]
        · exact .inr ⟨hchunks, hown other hin hnone⟩
    · obtain rfl := some.inj ha''
      exact ⟨ha', hnext ▸ hsame⟩
  · next inputs final found w writes hproc =>
    have hphased := hstage _ _ hproc
    cases hstep
    exact liveInv_goOn hlive hphased
  · cases hstep

theorem liveInv_finish (hstep : s.finish = some s') : LiveInv D s' := by
  obtain ⟨cur, hlive, hstage⟩ := h
  unfold KbState.finish at hstep
  split at hstep
  · next inputs final subgraphs docId rest failed cleared a hproc =>
    obtain ⟨-, hsubgraphs, hcov, hatt⟩ := hstage _ _ hproc
    obtain ⟨docId', rest', heq, ha, hdoc, -⟩ := hatt a rfl
    obtain ⟨rfl, rfl⟩ := List.cons.inj heq
    split at hstep
    · next hreturns =>
      cases hstep
      obtain rfl := committed_of_returns ha hreturns
      refine liveInv_goOn hlive ⟨fun _ => .refl _, hsubgraphs, fun hfailed other hother => ?_,
        fun a' ha' => by cases ha'⟩
      rcases hcov hfailed other hother with hremaining | hdone
      · rcases mem_cons.mp hremaining with rfl | hrest
        · exact .inr (.inl hdoc)
        · exact .inl hrest
      · exact .inr hdone
    · cases hstep
  · next inputs final a hproc =>
    obtain ⟨-, hcov, hatt⟩ := hstage _ _ hproc
    obtain ⟨ha, -⟩ := hatt a rfl
    split at hstep
    · next hreturns =>
      cases hstep
      obtain rfl := committed_of_returns ha hreturns
      exact liveInv_goOn hlive ⟨⟨_, rfl, .refl _⟩, hcov, fun hphase => by cases hphase⟩
    · cases hstep
  · next inputs final found hproc =>
    have hphased := hstage _ _ hproc
    cases hstep
    exact liveInv_goOn hlive hphased
  · cases hstep

theorem liveInv_retry (hstep : s.retry = some s') : LiveInv D s' := by
  obtain ⟨cur, hlive, hstage⟩ := h
  unfold KbState.retry at hstep
  split at hstep
  · next inputs final subgraphs remaining failed cleared a hproc =>
    obtain ⟨hreads, hsubgraphs, hcov, -⟩ := hstage _ _ hproc
    cases hstep
    exact liveInv_goOn hlive ⟨hreads, hsubgraphs, hcov, fun a ha => by cases ha⟩
  · next inputs final a hproc =>
    obtain ⟨hstored, hcov, -⟩ := hstage _ _ hproc
    cases hstep
    exact liveInv_goOn hlive ⟨hstored, hcov, fun a ha => by cases ha⟩
  · next inputs final a hproc =>
    have hphased := hstage _ _ hproc
    cases hstep
    exact liveInv_goOn hlive hphased
  · cases hstep

theorem liveInv_conclude (hstep : s.conclude = some s') : LiveInv D s' := by
  obtain ⟨cur, hlive, hstage⟩ := h
  unfold KbState.conclude at hstep
  split at hstep
  · next inputs final subgraphs cleared hproc =>
    obtain ⟨hreads, -, hcov, -⟩ := hstage _ _ hproc
    cases hstep
    have hsame : ∃ g, cur = some g ∧ SameData final g := by
      cases cur with
      | none => exact (hreads rfl).elim
      | some g => exact ⟨g, rfl, hreads rfl⟩
    refine liveInv_goOn hlive ⟨hsame, fun docId hdoc => ?_, fun hphase => by cases hphase⟩
    exact (hcov rfl docId hdoc).resolve_left not_mem_nil
  · next inputs subgraphs cleared hproc =>
    obtain ⟨hreads, -, hcov, -⟩ := hstage _ _ hproc
    split at hstep
    · cases hstep
    · cases hstep
      have hcur : cur = none := by
        cases cur with
        | none => rfl
        | some g => exact (hreads rfl).elim
      refine liveInv_goOn hlive (.inr ⟨hcur, fun docId hdoc => ?_⟩)
      exact (hcov rfl docId hdoc).resolve_left not_mem_nil
  · cases hstep

end

/-! ### The phases -/

theorem stageLive_after {phase : Phase} {final : Graph} (h : Phased D store cur markers inputs phase final)
    (hfound : Found D markers inputs phase final) :
    StageLive D store cur markers inputs (KbState.after phase final) := by
  cases phase with
  | resolution => exact ⟨h.same, h.covered, fun _ => hfound⟩
  | community => exact ⟨h, hfound⟩

theorem stageLive_first {phase : Phase} {final : Graph} (h : Phased D store cur markers inputs phase final) :
    StageLive D store cur markers inputs (KbState.first phase final) := by
  cases phase with
  | resolution =>
    obtain ⟨g, hcur, hsame⟩ := h.same
    exact ⟨⟨g, hcur, hsame.documents.symm⟩, h.covered, fun a ha => by cases ha⟩
  | community => exact h

variable (h : LiveInv D s)
include h

theorem liveInv_pass (hstep : s.pass = some s') : LiveInv D s' := by
  obtain ⟨cur, hlive, hstage⟩ := h
  unfold KbState.pass at hstep
  split at hstep
  · next inputs phase final hproc =>
    split at hstep
    · cases hstep
    · next hreq =>
      cases hstep
      exact liveInv_goOn hlive (stageLive_after (hstage _ _ hproc) fun h => absurd h hreq)
  · cases hstep

theorem liveInv_unreadable (hstep : s.unreadable = some s') : LiveInv D s' := by
  obtain ⟨cur, hlive, hstage⟩ := h
  unfold KbState.unreadable at hstep
  split at hstep
  · next inputs phase final hproc =>
    split at hstep
    · cases hstep
      exact liveInv_goOn hlive (stageLive_first (hstage _ _ hproc))
    · cases hstep
  · cases hstep

theorem liveInv_resolve {next : Graph}
    (hstep : s.resolve prep next change revision kept = some s') : LiveInv D s' := by
  obtain ⟨cur, hlive, hstage⟩ := h
  unfold KbState.resolve at hstep
  split at hstep
  · next inputs final hproc =>
    obtain ⟨⟨g, hcur, hdocs⟩, hcov, -⟩ := hstage _ _ hproc
    split at hstep
    · next hnext =>
      obtain ⟨a, hbegin, rfl⟩ := Option.map_eq_some_iff.mp hstep
      have hkept : ∀ docId ∈ storedDocuments cur, docId ∈ next.documents := by
        intro docId hdoc
        rw [hcur] at hdoc
        exact (hnext.trans hdocs.symm) ▸ hdoc
      have hresolving : StageLive D s.store cur (clearMarkers s.markers kept) inputs
          (.resolving final (some a)) := by
        refine ⟨⟨g, hcur, hdocs⟩, hcov, fun a' ha' => ?_⟩
        obtain rfl := some.inj ha'
        refine ⟨attemptLive_begin hbegin hkept, ?_⟩
        rw [(beginSetGraph_some hbegin).1]
        exact hnext
      exact liveInv_goOn hlive hresolving
    · cases hstep
  · cases hstep

theorem liveInv_report {found : List (String × Json)} (hstep : s.report found = some s') :
    LiveInv D s' := by
  obtain ⟨cur, hlive, hstage⟩ := h
  unfold KbState.report at hstep
  split at hstep
  · next inputs final hproc =>
    have hphased := hstage _ _ hproc
    split at hstep
    · cases hstep
      exact liveInv_goOn hlive hphased
    · cases hstep
  · cases hstep

theorem liveInv_mark (hstep : KbState.mark D s = some s') : LiveInv D s' := by
  obtain ⟨cur, hlive, hstage⟩ := h
  unfold KbState.mark at hstep
  split at hstep
  · next inputs phase final hproc =>
    have hphased := hstage _ _ hproc
    cases hstep
    refine liveInv_goOn hlive (stageLive_after ⟨hphased.same, hphased.covered, fun hcommunity => ?_⟩ ?_)
    · intro hreq
      rw [update_of_ne (by simp [hcommunity])]
      exact hphased.found hcommunity hreq
    · intro _
      rw [update_self]
  · cases hstep

variable [DecidableEq δ]

theorem liveInv_skip (hstep : KbState.skip D s = some s') : LiveInv D s' := by
  obtain ⟨cur, hlive, hstage⟩ := h
  unfold KbState.skip at hstep
  split at hstep
  · next inputs phase final hproc =>
    split at hstep
    · next hfound =>
      cases hstep
      rw [Bool.and_eq_true, decide_eq_true_eq] at hfound
      exact liveInv_goOn hlive (stageLive_after (hstage _ _ hproc) fun _ => hfound.2)
    · cases hstep
  · cases hstep

theorem liveInv_proceed (hstep : KbState.proceed D s = some s') : LiveInv D s' := by
  obtain ⟨cur, hlive, hstage⟩ := h
  unfold KbState.proceed at hstep
  split at hstep
  · next inputs phase final hproc =>
    split at hstep
    · cases hstep
      exact liveInv_goOn hlive (stageLive_first (hstage _ _ hproc))
    · cases hstep
  · cases hstep

theorem liveInv_step {a : Action} (hruns : a.ofRuns = true)
    (hstep : KbState.Step D s a s') : LiveInv D s' := by
  cases a with
  | start inputs => exact liveInv_start h hstep
  | load docId => exact liveInv_load h hstep
  | extract docId extracted => exact liveInv_extract h hstep
  | discard docId => exact liveInv_discard h hstep
  | fail docId => exact liveInv_fail h hstep
  | merge => exact liveInv_merge h hstep
  | clear kept => exact liveInv_clear h hstep
  | attempt prep revision kept => exact liveInv_attempt h hstep
  | write => exact liveInv_write h hstep
  | finish => exact liveInv_finish h hstep
  | retry => exact liveInv_retry h hstep
  | conclude => exact liveInv_conclude h hstep
  | pass => exact liveInv_pass h hstep
  | skip => exact liveInv_skip h hstep
  | proceed => exact liveInv_proceed h hstep
  | unreadable => exact liveInv_unreadable h hstep
  | resolve prep next change revision kept => exact liveInv_resolve h hstep
  | report found => exact liveInv_report h hstep
  | mark => exact liveInv_mark h hstep
  | markLost =>
    obtain ⟨marked, hmark, rfl⟩ := Option.map_eq_some_iff.mp hstep
    exact (liveInv_mark h hmark).ended
  | kill =>
    obtain rfl := some.inj hstep
    exact h.ended
  | outside store reports => cases hruns

omit h

end MultiRag.GraphRag.Phases
