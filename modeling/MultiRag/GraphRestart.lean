/-
  **A GraphRAG run, write by write** (`general/index.py`).

  A run loads or extracts the subgraph of every document, in any order, and then merges them one
  by one with `set_graph`. `RunState` is the store, which survives, and what the running process
  has in memory; every action writes or deletes at most one row, so a run can be killed after any
  of them.
-/
import MultiRag.GraphCrash
import MultiRag.GraphMerge
import MultiRag.Run

namespace MultiRag.GraphRag

open Table Function List

/-! ### `load_subgraph_from_store` -/

/-- The rows of the document alone that are not removed; one of them is selected as in
    `rebuild_graph`. -/
def loadSubgraph (rows : List Row) (docId : String) : Except String (Option Graph) :=
  let candidates := rows.filterMap (Row.candidate? [])
  if (candidates.filter fun c => c.sources = [docId]).isEmpty then .ok none
  else
    match selectCheckpoint candidates docId with
    | .ok (_, data) => .ok (some { data with documents := [docId] })
    | .error _ => .error "Ambiguous persisted subgraph checkpoints"

/-! ### The process -/

structure Job where
  sums : ExactSums
  pagerank : Graph → String → Json
  docIds : List String
  /-- What the extraction of a document yields; nothing if it has no chunks. -/
  extracted : String → Option Graph
  ofDocument : ∀ docId sub, extracted docId = some sub → OfDocument sums docId sub

def Job.documents (J : Job) : List String := J.docIds.eraseDups

inductive Build where
  | waiting
  | extracting
  /-- The subgraph is saved; these older rows of it are still to delete. -/
  | pruning (stale : List Id)
  | done (subgraph : Option Graph)

def Build.isWaiting : Build → Bool
  | .waiting => true
  | _ => false

def Build.subgraph? : Build → Option Graph
  | .done subgraph => subgraph
  | _ => none

def Build.isDone : Build → Bool
  | .done _ => true
  | _ => false

/-- What `set_graph` has still to write: auxiliary rows and then the checkpoint, or ids to
    delete. -/
inductive Writing where
  | auxiliary (rows : List Row)
  | pruning (ids : List Id)

/-- A `merge_attempt` inside `set_graph`. -/
structure Attempt where
  next : Graph
  change : GraphChange
  stale : Except String (List Id)
  writing : Writing

/-- `rewritten` tells that an attempt for the first remaining document has written the subgraph
    row of that document. -/
inductive Process where
  | building (merged : List String) (build : String → Build)
  | merging (subgraphs : String → Option Graph) (remaining : List String) (attempt : Option Attempt)
      (rewritten : Bool)

structure RunState where
  store : Store
  process : Option Process

inductive Action where
  | start
  | load (docId : String)
  | save (docId : String)
  | discard (docId : String)
  | merge
  | attempt (prep : Preparation) (revision : String)
  | write
  | finish
  | retry
  | kill

namespace RunState

variable (J : Job)

def start (s : RunState) : Option RunState :=
  match s.process, getGraph s.store.rows [] with
  | none, .ok persisted =>
    some { s with process := some (.building (storedDocuments persisted) fun _ => .waiting) }
  | _, _ => none

def load (docId : String) (s : RunState) : Option RunState :=
  match s.process with
  | some (.building merged build) =>
    if J.documents.contains docId && (build docId).isWaiting then
      let built (b : Build) : Option RunState :=
        some { s with process := some (.building merged (update build docId b)) }
      if merged.contains docId then built (.done none)
      else
        match loadSubgraph s.store.rows docId with
        | .ok (some subgraph) => built (.done (some subgraph))
        | .ok none => built (if (J.extracted docId).isSome then .extracting else .done none)
        | .error _ => none
    else none
  | _ => none

def extractedRow (docId : String) (subgraph : Graph) : Row :=
  ⟨.subgraph docId, .subgraph [docId] subgraph, false⟩

def staleSubgraphs (rows : List Row) (docId : String) : List Id :=
  (rows.filter fun row => row.pk ≠ .subgraph docId && row.subgraph?.any fun r => r.1 = [docId]).map Row.pk

/-- The end of `generate_subgraph`: the row is written. -/
def save (docId : String) (s : RunState) : Option RunState :=
  match s.process, J.extracted docId, getGraph s.store.rows [] with
  | some (.building merged build), some subgraph, .ok graph =>
    match build docId with
    | .extracting =>
      if (storedDocuments graph).contains docId then none
      else
        some { store := s.store.upsert (extractedRow docId subgraph)
               process := some (.building merged (update build docId
                 (.pruning (staleSubgraphs s.store.rows docId)))) }
    | _ => none
  | _, _, _ => none

/-- One deletion, or the end of `generate_subgraph`. -/
def discard (docId : String) (s : RunState) : Option RunState :=
  match s.process with
  | some (.building merged build) =>
    match build docId with
    | .pruning (id :: rest) =>
      some { store := s.store.delete id
             process := some (.building merged (update build docId (.pruning rest))) }
    | .pruning [] =>
      some { s with process := some (.building merged
        (update build docId (.done (J.extracted docId)))) }
    | _ => none
  | _ => none

def merge (s : RunState) : Option RunState :=
  match s.process with
  | some (.building _ build) =>
    if J.documents.all fun docId => (build docId).isDone then
      some { s with process := some (.merging (fun docId => (build docId).subgraph?)
        (J.documents.filter fun docId => (build docId).subgraph?.isSome) none false) }
    else none
  | _ => none

def plan (current : Option Graph) (docId : String) (subgraph : Graph) : Option (Graph × GraphChange) :=
  if (storedDocuments current).contains docId then
    -- an earlier attempt has committed: settle the rest
    current.map fun g => (g, ⟨[], g.nodes.rows.map Prod.fst, [], g.edges.rows.map Prod.fst⟩)
  else mergeSubgraph J.sums J.pagerank current subgraph

def attempt (prep : Preparation) (revision : String) (s : RunState) : Option RunState :=
  match s.process, getGraph s.store.rows [] with
  | some (.merging subgraphs (docId :: rest) none rewritten), .ok current =>
    match (subgraphs docId).bind (plan J current docId) with
    | some (graph, change) =>
      let g := graph.revised revision
      if prep.raises.isNone && (checkpointChunk g :: auxiliaryChunks g change).all prep.fits then
        some { s with process := some (.merging subgraphs (docId :: rest)
          (some ⟨g, change, staleIds g change (canonicalIn g change s.store.rows) s.store.rows,
            .auxiliary (prep.order (auxiliaryChunks g change))⟩) rewritten) }
      else none
    | none => none
  | _, _ => none

/-- One row of `set_graph`.  If pruning raises, nothing is left to write. -/
def write (s : RunState) : Option RunState :=
  match s.process with
  | some (.merging subgraphs (docId :: rest) (some a) rewritten) =>
    match a.writing with
    | .auxiliary (row :: rows) =>
      some { store := s.store.upsert row
             process := some (.merging subgraphs (docId :: rest)
               (some { a with writing := .auxiliary rows })
               (rewritten || decide (row.pk = .subgraph docId))) }
    | .auxiliary [] =>
      some { store := s.store.upsert (checkpointChunk a.next)
             process := some (.merging subgraphs (docId :: rest)
               (some { a with writing := .pruning (a.stale.toOption.getD []) }) rewritten) }
    | .pruning (id :: ids) =>
      some { store := s.store.delete id
             process := some (.merging subgraphs (docId :: rest)
               (some { a with writing := .pruning ids }) rewritten) }
    | .pruning [] => none
  | _ => none

def finish (s : RunState) : Option RunState :=
  match s.process with
  | some (.merging subgraphs (_ :: rest) (some ⟨_, _, .ok _, .pruning []⟩) _) =>
    some { s with process := some (.merging subgraphs rest none false) }
  | _ => none

/-- The attempt fails; `_run_with_retry` makes another one. -/
def retry (s : RunState) : Option RunState :=
  match s.process with
  | some (.merging subgraphs remaining (some _) rewritten) =>
    some { s with process := some (.merging subgraphs remaining none rewritten) }
  | _ => none

def perform : Action → RunState → Option RunState
  | .start, s => s.start
  | .load docId, s => s.load J docId
  | .save docId, s => s.save J docId
  | .discard docId, s => s.discard J docId
  | .merge, s => s.merge J
  | .attempt prep revision, s => s.attempt J prep revision
  | .write, s => s.write
  | .finish, s => s.finish
  | .retry, s => s.retry
  | .kill, s => some { s with process := none }

def Step (s : RunState) (a : Action) (s' : RunState) : Prop := s.perform J a = some s'

def Finished (s : RunState) : Prop := ∃ subgraphs rewritten,
  s.process = some (.merging subgraphs [] none rewritten)

/-- A kill here loses nothing: unless the checkpoint has the document that is being merged, its
    subgraph row is the one that was loaded, or it has no node in common with the graph. -/
def Harmless (s : RunState) : Prop := ∀ subgraphs docId rest a,
  s.process = some (.merging subgraphs (docId :: rest) a true) →
    ∀ graph subgraph, getGraph s.store.rows [] = .ok (some graph) → subgraphs docId = some subgraph →
      docId ∈ graph.documents ∨ ¬SharesNode graph subgraph

def CarefulStep (s : RunState) (a : Action) (s' : RunState) : Prop :=
  Step J s a s' ∧ (a = .kill → s.Harmless)

end RunState

/-! ### What one write does to the rows a run reads -/

def Keyed (store : Store) : Prop :=
  ∀ row ∈ store, row.canonical? = some row.pk ∨ row.pk.isLegacy = true

def Checkpointed (store : Store) : Option Graph → Prop
  | none => ∀ row ∈ store, row.isGraph = false
  | some g => ∃ row ∈ store, row.content = .graph g ∧ row.removed = false ∧
      (row.pk = .checkpoint ∨ ∀ other ∈ store, other.isGraph = true → other.pk = row.pk)

/-- A subgraph row that `load_subgraph_from_store` considers. -/
def Own (store : Store) (docId : String) (c : Candidate) : Prop :=
  Live store.rows [] c ∧ c.sources = [docId]

variable {store : Store} {row : Row} {docId : String} {id : Id}

theorem canonical?_not_legacy (h : row.canonical? = some id) : id.isLegacy = false := by
  unfold Row.canonical? at h
  split at h
  all_goals cases h
  all_goals rfl

variable {cur : Option Graph}

theorem getGraph_checkpointed (h : Checkpointed store cur) (excluded : List String) :
    getGraph store.rows excluded = .ok cur := by
  cases cur with
  | none =>
    have hnone : store.rows.filter Row.isGraph = [] := by
      rw [filter_eq_nil_iff]
      intro row hrow
      simp [h row hrow]
    simp [getGraph, hnone]
  | some g =>
    obtain ⟨row, hrow, hcont, hlive, honly⟩ := h
    exact getGraph_of_only hrow hcont hlive honly excluded

theorem Keyed.upsert (h : Keyed store) (hrow : row.canonical? = some row.pk) :
    Keyed (store.upsert row) := by
  intro other hother
  rcases mem_upsert.mp hother with rfl | ⟨hold, -⟩
  · exact .inl hrow
  · exact h other hold

theorem Keyed.delete (h : Keyed store) (id : Id) : Keyed (store.delete id) :=
  fun other hother => h other (mem_delete.mp hother).1

theorem canonical?_graph (h : row.isGraph = true) : row.canonical? = some .checkpoint := by
  unfold Row.isGraph at h
  split at h
  · next hcont => simp [Row.canonical?, hcont]
  · cases h

theorem Checkpointed.upsert (h : Checkpointed store cur) (hkeyed : Keyed store)
    (hgraph : row.isGraph = false) (hpk : row.pk ≠ .checkpoint) (hlegacy : row.pk.isLegacy = false) :
    Checkpointed (store.upsert row) cur := by
  cases cur with
  | none =>
    intro other hother
    rcases mem_upsert.mp hother with rfl | ⟨hold, -⟩
    · exact hgraph
    · exact h other hold
  | some g =>
    obtain ⟨kept, hkept, hcont, hlive, honly⟩ := h
    have hne : kept.pk ≠ row.pk := by
      intro heq
      rcases hkeyed kept hkept with hcanon | hold
      · rw [canonical?_graph (by simp [Row.isGraph, hcont])] at hcanon
        exact hpk (heq.symm.trans (Option.some.inj hcanon).symm)
      · simp [heq, hlegacy] at hold
    refine ⟨kept, mem_upsert.mpr (.inr ⟨hkept, hne⟩), hcont, hlive, honly.imp_right ?_⟩
    intro hall other hother hother'
    rcases mem_upsert.mp hother with rfl | ⟨hold, -⟩
    · simp [hgraph] at hother'
    · exact hall other hold hother'

theorem checkpointed_upsert_checkpoint (g : Graph) :
    Checkpointed (store.upsert (checkpointChunk g)) (some g) :=
  ⟨checkpointChunk g, mem_upsert.mpr (.inl rfl), rfl, rfl, .inl rfl⟩

theorem Checkpointed.delete (h : Checkpointed store cur)
    (hid : ∀ row ∈ store, row.isGraph = true → row.pk ≠ id) : Checkpointed (store.delete id) cur := by
  cases cur with
  | none => exact fun other hother => h other (mem_delete.mp hother).1
  | some g =>
    obtain ⟨kept, hkept, hcont, hlive, honly⟩ := h
    have hne := hid kept hkept (by simp [Row.isGraph, hcont])
    refine ⟨kept, mem_delete.mpr ⟨hkept, hne⟩, hcont, hlive, honly.imp_right ?_⟩
    exact fun hall other hother => hall other (mem_delete.mp hother).1

variable {c : Candidate}

theorem own_iff :
    Own store docId c ↔ c.sources = [docId] ∧
      ∃ row ∈ store, row.pk = c.pk ∧ row.content = .subgraph [docId] c.data ∧ row.removed = false := by
  unfold Own Live
  constructor
  · rintro ⟨⟨row, hrow, hcand⟩, hsrcs⟩
    refine ⟨hsrcs, row, hrow, (candidate?_pk hcand).symm, ?_⟩
    unfold Row.candidate? at hcand
    split at hcand
    · cases hcand
    · next sources data hsub =>
      split at hcand
      · cases hcand
      · next hlive =>
        cases hcand
        rw [Bool.or_eq_true, not_or] at hlive
        refine ⟨?_, by simpa using hlive.1⟩
        unfold Row.subgraph? at hsub
        split at hsub
        · next heq =>
          cases hsub
          obtain rfl : sources = [docId] := hsrcs
          exact heq
        · cases hsub
  · rintro ⟨hsrcs, row, hrow, hpk, hcont, hlive⟩
    refine ⟨⟨row, hrow, ?_⟩, hsrcs⟩
    simp [Row.candidate?, Row.subgraph?, hcont, hlive, hpk, ← hsrcs]

theorem own_upsert (hkeyed : Keyed store) (hrow : row.canonical? = some row.pk)
    (hpk : row.pk ≠ .subgraph docId) :
    Own (store.upsert row) docId c ↔ Own store docId c := by
  rw [own_iff, own_iff]
  refine and_congr_right fun hsrcs => ?_
  constructor
  · rintro ⟨other, hother, hrest⟩
    rcases mem_upsert.mp hother with rfl | ⟨hold, -⟩
    · simp only [Row.canonical?, hrest.2.1, Option.some.injEq] at hrow
      exact absurd hrow.symm hpk
    · exact ⟨other, hold, hrest⟩
  · rintro ⟨other, hother, hrest⟩
    refine ⟨other, mem_upsert.mpr (.inr ⟨hother, fun heq => ?_⟩), hrest⟩
    rcases hkeyed other hother with hcanon | hlegacy
    · simp only [Row.canonical?, hrest.2.1, Option.some.injEq] at hcanon
      exact hpk (heq.symm.trans hcanon.symm)
    · simp [heq, canonical?_not_legacy hrow] at hlegacy

theorem own_delete (hid : ∀ row ∈ store, row.pk = id → ∀ data, row.content ≠ .subgraph [docId] data) : Own (store.delete id) docId c ↔ Own store docId c := by
  rw [own_iff, own_iff]
  refine and_congr_right fun _ => ?_
  constructor
  · rintro ⟨other, hother, hrest⟩
    exact ⟨other, (mem_delete.mp hother).1, hrest⟩
  · rintro ⟨other, hother, hrest⟩
    refine ⟨other, mem_delete.mpr ⟨hother, fun heq => ?_⟩, hrest⟩
    exact hid other hother heq _ hrest.2.1

theorem selected_iff_own :
    Selected (Live store.rows []) docId c ↔
      Own store docId c ∧ (c.pk = .subgraph docId ∨ ∀ c', Own store docId c' → c'.pk = c.pk) := by
  constructor
  · rintro ⟨hlive, hown, hchosen⟩
    exact ⟨⟨hlive, hown⟩, hchosen.imp_right fun hall c' hc' => hall c' hc'.1 hc'.2⟩
  · rintro ⟨⟨hlive, hown⟩, hchosen⟩
    exact ⟨hlive, hown, hchosen.imp_right fun hall c' hlive' hown' => hall c' ⟨hlive', hown'⟩⟩

theorem loadSubgraph_eq_none :
    loadSubgraph store.rows docId = .ok none ↔ ∀ c, ¬Own store docId c := by
  have hempty : ((store.rows.filterMap (Row.candidate? [])).filter fun c =>
      decide (c.sources = [docId])).isEmpty = true ↔ ∀ c, ¬Own store docId c := by
    rw [List.isEmpty_iff, filter_eq_nil_iff]
    simp only [mem_candidates, decide_eq_true_eq, Own, not_and]
  rw [← hempty, loadSubgraph]
  split
  · next h => simp [h]
  · next h =>
    rw [iff_false_right h]
    split <;> simp

theorem loadSubgraph_eq_some {g : Graph} :
    loadSubgraph store.rows docId = .ok (some g) ↔
      ∃ c, Selected (Live store.rows []) docId c ∧ g = { c.data with documents := [docId] } := by
  have hselect : ∀ x, selectCheckpoint (store.rows.filterMap (Row.candidate? [])) docId = .ok x ↔
      ∃ c, Selected (Live store.rows []) docId c ∧ x = (docId, c.data) := fun _ => selectCheckpoint_live
  rw [loadSubgraph]
  split
  · next hempty =>
    rw [List.isEmpty_iff, filter_eq_nil_iff] at hempty
    constructor
    · rintro ⟨⟩
    · rintro ⟨c, hc, -⟩
      exact absurd (decide_eq_true hc.own) (hempty c (mem_candidates.mpr hc.isLive))
  · cases hresult : selectCheckpoint (store.rows.filterMap (Row.candidate? [])) docId with
    | ok x =>
      obtain ⟨c, hc, rfl⟩ := (hselect x).mp hresult
      simp only [Except.ok.injEq, Option.some.injEq]
      constructor
      · rintro rfl
        exact ⟨c, hc, rfl⟩
      · rintro ⟨c', hc', rfl⟩
        have hsame := hresult.symm.trans ((hselect (docId, c'.data)).mpr ⟨c', hc', rfl⟩)
        rw [Except.ok.injEq, Prod.mk.injEq] at hsame
        rw [hsame.2]
    | error error =>
      simp only [reduceCtorEq, false_iff, not_exists, not_and]
      rintro c hc
      rw [(hselect (docId, c.data)).mpr ⟨c, hc, rfl⟩] at hresult
      cases hresult

theorem loadSubgraph_congr {store' : Store} (h : ∀ c, Own store' docId c ↔ Own store docId c)
    {g : Option Graph} (hload : loadSubgraph store.rows docId = .ok g) :
    loadSubgraph store'.rows docId = .ok g := by
  cases g with
  | none =>
    rw [loadSubgraph_eq_none] at hload ⊢
    exact fun c hc => hload c ((h c).mp hc)
  | some g =>
    rw [loadSubgraph_eq_some] at hload ⊢
    obtain ⟨c, hc, rfl⟩ := hload
    refine ⟨c, ?_, rfl⟩
    rw [selected_iff_own] at hc ⊢
    simpa only [h] using hc

theorem loadSubgraph_stable {data : Graph}
    (h : store.get? (.subgraph docId) = some ⟨.subgraph docId, .subgraph [docId] data, false⟩) :
    loadSubgraph store.rows docId = .ok (some { data with documents := [docId] }) := by
  rw [loadSubgraph_eq_some]
  refine ⟨⟨[docId], .subgraph docId, data⟩, ?_, rfl⟩
  rw [selected_iff_own]
  exact ⟨own_iff.mpr ⟨rfl, _, mem_of_get? h, rfl, rfl, rfl⟩, .inl rfl⟩

end MultiRag.GraphRag
