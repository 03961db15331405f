/-
  **The phases of a GraphRAG run and their markers** (`general/index.py`, `phase_markers.py`,
  `stage_revision`).

  After its merges a run resolves entities and extracts community reports, and sets a marker after
  each: the digest of the graph, the configuration, the model and, for the resolution, the
  candidate nodes. A later run skips a phase whose marker is the digest it computes itself. Every
  action writes or deletes at most one row, so a run can be killed after any of them.
-/
import Mathlib.Data.Prod.Lex
import MultiRag.GraphRestart

namespace MultiRag.GraphRag.Phases

open Function

/-! ### Graphs in any order -/

structure SameData (g g' : Graph) : Prop where
  documents : g.documents = g'.documents
  revision : g.revision = g'.revision
  nodes : g.nodes.Same g'.nodes
  edges : g.edges.Same g'.edges

theorem SameData.refl (g : Graph) : SameData g g := ⟨rfl, rfl, fun _ => rfl, fun _ => rfl⟩

variable {g g' : Graph}

theorem SameData.symm (h : SameData g g') : SameData g' g :=
  ⟨h.documents.symm, h.revision.symm, fun k => (h.nodes k).symm, fun k => (h.edges k).symm⟩

theorem SameData.trans {g'' : Graph} (h : SameData g g') (h' : SameData g' g'') :
    SameData g g'' :=
  ⟨h.documents.trans h'.documents, h.revision.trans h'.revision,
    fun k => (h.nodes k).trans (h'.nodes k), fun k => (h.edges k).trans (h'.edges k)⟩

def sortedNodes (g : Graph) : List (String × Attrs) := g.nodes.sortedBy id

def sortedEdges (g : Graph) : List ((String × String) × Attrs) := g.edges.sortedBy toLex

/-- `_candidate_nodes`, in the order of their names. -/
def candidateNodes (g : Graph) (docIds : List String) : List String :=
  let own := (sortedNodes g).filter fun node => docIds.any node.2.sources.contains
  if own.isEmpty then (sortedNodes g).map Prod.fst else own.map Prod.fst

theorem SameData.sorted (h : SameData g g') :
    sortedNodes g = sortedNodes g' ∧ sortedEdges g = sortedEdges g' :=
  ⟨(Table.same_iff_sortedBy Function.injective_id).mp h.nodes,
    (Table.same_iff_sortedBy toLex.injective).mp h.edges⟩

theorem SameData.candidates (h : SameData g g') (docIds : List String) :
    candidateNodes g docIds = candidateNodes g' docIds := by
  unfold candidateNodes
  rw [h.sorted.1]

/-! ### Inputs and digests -/

inductive Phase where
  | resolution
  | community
deriving DecidableEq

/-- What a run is given.  `withChunks` are the documents that have chunks, `model` is
    `model_identity`. -/
structure Inputs where
  docIds : List String
  withChunks : List String
  graphrag : Json
  model : Json
  withResolution : Bool
  withCommunity : Bool
deriving DecidableEq

namespace Inputs

def hasChunks (inputs : Inputs) (docId : String) : Bool := inputs.withChunks.contains docId

def documents (inputs : Inputs) : List String := inputs.docIds.eraseDups

def requests (inputs : Inputs) : Phase → Bool
  | .resolution => inputs.withResolution
  | .community => inputs.withCommunity

end Inputs

def plainAttrs {κ : Type} (item : κ × Attrs) : κ × List String × List (String × Json) :=
  (item.1, item.2.sources, item.2.fields.rows)

theorem plainAttrs_injective {κ : Type} : Injective (plainAttrs (κ := κ)) := by
  rintro ⟨key, ⟨sources, ⟨fields, hfields⟩⟩⟩ ⟨key', ⟨sources', ⟨fields', hfields'⟩⟩⟩ h
  obtain ⟨rfl, rfl, rfl⟩ := h
  rfl

structure Material where
  documents : List String
  revision : String
  nodes : List (String × List String × List (String × Json))
  edges : List ((String × String) × List String × List (String × Json))
  graphrag : Json
  prompts : List String
  candidates : Option (List String)
  model : Json
deriving DecidableEq

/-- `fingerprint` is SHA-256 of the canonical JSON; `reread` is what a stored graph is read back
    as. -/
structure Deployment (δ : Type) where
  fingerprint : Material → δ
  reread : Graph → Graph
  rereadSame : ∀ g, SameData (reread g) g
  prompts : List String
  sums : ExactSums
  pagerank : Graph → String → Json

variable {δ : Type} (D : Deployment δ)

def material (inputs : Inputs) (phase : Phase) (g : Graph) : Material where
  documents := g.documents
  revision := g.revision
  nodes := (sortedNodes g).map plainAttrs
  edges := (sortedEdges g).map plainAttrs
  graphrag := inputs.graphrag
  prompts := D.prompts
  candidates := match phase with
    | .resolution => some (candidateNodes g inputs.docIds)
    | .community => none
  model := inputs.model

def phaseRevision (inputs : Inputs) (phase : Phase) (g : Graph) : δ :=
  D.fingerprint (material D inputs phase g)

structure SameInputs (phase : Phase) (inputs inputs' : Inputs) (g g' : Graph) : Prop where
  graphrag : inputs.graphrag = inputs'.graphrag
  model : inputs.model = inputs'.model
  candidates : phase = .resolution →
    candidateNodes g inputs.docIds = candidateNodes g' inputs'.docIds

variable {inputs : Inputs}

theorem material_eq_iff {inputs' : Inputs} {phase : Phase} :
    material D inputs phase g = material D inputs' phase g' ↔
      SameData g g' ∧ SameInputs phase inputs inputs' g g' := by
  simp only [material, Material.mk.injEq, true_and]
  constructor
  · rintro ⟨hdocs, hrev, hnodes, hedges, hgraphrag, hcands, hmodel⟩
    have hnodes := (List.map_injective_iff.mpr plainAttrs_injective) hnodes
    have hedges := (List.map_injective_iff.mpr plainAttrs_injective) hedges
    refine ⟨⟨hdocs, hrev, ?_, ?_⟩, hgraphrag, hmodel, ?_⟩
    · exact (Table.same_iff_sortedBy Function.injective_id).mpr hnodes
    · exact (Table.same_iff_sortedBy toLex.injective).mpr hedges
    · rintro rfl
      exact Option.some.inj hcands
  · rintro ⟨hsame, hgraphrag, hmodel, hcands⟩
    refine ⟨hsame.documents, hsame.revision, ?_, ?_, hgraphrag, ?_, hmodel⟩
    · rw [hsame.sorted.1]
    · rw [hsame.sorted.2]
    · cases phase with
      | resolution => exact congrArg some (hcands rfl)
      | community => rfl

theorem phaseRevision_congr {phase : Phase} (h : SameData g g') :
    phaseRevision D inputs phase g = phaseRevision D inputs phase g' := by
  apply congrArg D.fingerprint
  exact (material_eq_iff D).mpr ⟨h, rfl, rfl, fun _ => h.candidates inputs.docIds⟩

/-! ### The process -/

inductive Build where
  | waiting
  | extracting
  /-- The subgraph is saved; these older rows of it are still to delete. -/
  | pruning (subgraph : Graph) (stale : List Id)
  | done (subgraph : Option Graph)
  | failed

namespace Build

def isWaiting : Build → Bool
  | .waiting => true
  | _ => false

def isSettled : Build → Bool
  | .done _ => true
  | .failed => true
  | _ => false

def isFailed : Build → Bool
  | .failed => true
  | _ => false

def subgraph? : Build → Option Graph
  | .done subgraph => subgraph
  | _ => none

end Build

abbrev Reports := Table (String × Json) Prod.fst

/-- `extract_community` inside its writes: the reports by title, and what is left to write. -/
structure ReportAttempt where
  found : List (String × Json)
  writes : List (Table.Write String (String × Json))

/-- `cleared` tells that the markers were cleared for the first remaining document. -/
inductive Stage where
  | building (persisted : Option Graph) (build : String → Build)
  | merging (final : Option Graph) (subgraphs : String → Option Graph) (remaining : List String)
      (failed cleared : Bool) (attempt : Option Attempt)
  | checking (phase : Phase) (final : Graph)
  | resolving (final : Graph) (attempt : Option Attempt)
  | extracting (final : Graph) (attempt : Option ReportAttempt)
  | marking (phase : Phase) (final : Graph)
  | finished (final : Option Graph)

/-- A phase that was carried out: what it was for, and what was stored at its end. -/
structure Completion where
  phase : Phase
  inputs : Inputs
  graph : Graph
  store : Store
  reports : Reports
  found : List (String × Json)

structure KbState (δ : Type) where
  store : Store
  reports : Reports
  markers : Phase → Option δ
  completions : List Completion
  process : Option (Inputs × Stage)

inductive Action where
  | start (inputs : Inputs)
  | load (docId : String)
  | extract (docId : String) (subgraph : Graph)
  | discard (docId : String)
  | fail (docId : String)
  | merge
  | clear (kept : Phase → Bool)
  | attempt (prep : Preparation) (revision : String) (kept : Phase → Bool)
  | write
  | finish
  | retry
  | conclude
  | pass
  | skip
  | proceed
  | unreadable
  | resolve (prep : Preparation) (next : Graph) (change : GraphChange) (revision : String)
      (kept : Phase → Bool)
  | report (found : List (String × Json))
  | mark
  | markLost
  | kill
  | outside (store : Store) (reports : Reports)

/-! ### `set_graph`, write by write -/

def beginSetGraph (prep : Preparation) (store : Store) (graph : Graph) (change : GraphChange)
    (revision : String) : Option Attempt :=
  let g := graph.revised revision
  if prep.raises.isNone && (checkpointChunk g :: auxiliaryChunks g change).all prep.fits then
    some ⟨g, change, staleIds g change (canonicalIn g change store.rows) store.rows,
      .auxiliary (prep.order (auxiliaryChunks g change))⟩
  else none

def writeRow (store : Store) (a : Attempt) : Option (Attempt × Store) :=
  match a.writing with
  | .auxiliary (row :: rows) => some ({ a with writing := .auxiliary rows }, store.upsert row)
  | .auxiliary [] =>
    some ({ a with writing := .pruning (a.stale.toOption.getD []) },
      store.upsert (checkpointChunk a.next))
  | .pruning (id :: ids) => some ({ a with writing := .pruning ids }, store.delete id)
  | .pruning [] => none

/-- `set_graph` returns; it does not if the stale rows could not be told. -/
def returns (a : Attempt) : Bool :=
  match a.stale, a.writing with
  | .ok _, .pruning [] => true
  | _, _ => false

def clearMarkers (markers : Phase → Option δ) (kept : Phase → Bool) (phase : Phase) : Option δ :=
  if kept phase then markers phase else none

/-! ### The run -/

namespace KbState

def idle (store : Store) (reports : Reports) : KbState δ := ⟨store, reports, fun _ => none, [], none⟩

def goOn (s : KbState δ) (inputs : Inputs) (stage : Stage) : KbState δ :=
  { s with process := some (inputs, stage) }

def ended (s : KbState δ) : KbState δ := { s with process := none }

/-- `get_graph` for the documents that are merged; without documents nothing is done. -/
def start (inputs : Inputs) (s : KbState δ) : Option (KbState δ) :=
  match s.process with
  | some _ => none
  | none =>
    if inputs.documents.isEmpty then some (s.goOn inputs (.finished none))
    else match getGraph s.store.rows [] with
      | .ok persisted => some (s.goOn inputs (.building (persisted.map D.reread) fun _ => .waiting))
      | .error _ => none

def load (docId : String) (s : KbState δ) : Option (KbState δ) :=
  match s.process with
  | some (inputs, .building persisted build) =>
    if inputs.documents.contains docId && (build docId).isWaiting then
      let built (b : Build) := some (s.goOn inputs (.building persisted (update build docId b)))
      if (storedDocuments persisted).contains docId then built (.done none)
      else match loadSubgraph s.store.rows docId with
        | .ok (some subgraph) => built (.done (some subgraph))
        | .ok none => built (if inputs.hasChunks docId then .extracting else .done none)
        | .error _ => none
    else none
  | _ => none

def extract (docId : String) (extracted : Graph) (s : KbState δ) : Option (KbState δ) :=
  match s.process, getGraph s.store.rows [] with
  | some (inputs, .building persisted build), .ok graph =>
    match build docId with
    | .extracting =>
      if (storedDocuments graph).contains docId then
        -- "subgraph is empty": the document counts as failed
        some (s.goOn inputs (.building persisted (update build docId .failed)))
      else
        let subgraph : Graph := { extracted with documents := [docId] }
        some ({ s with store := s.store.upsert (RunState.extractedRow docId subgraph) }.goOn inputs
          (.building persisted (update build docId
            (.pruning subgraph (RunState.staleSubgraphs s.store.rows docId)))))
    | _ => none
  | _, _ => none

/-- One deletion, or the end of `generate_subgraph`. -/
def discard (docId : String) (s : KbState δ) : Option (KbState δ) :=
  match s.process with
  | some (inputs, .building persisted build) =>
    match build docId with
    | .pruning subgraph (id :: rest) =>
      some ({ s with store := s.store.delete id }.goOn inputs
        (.building persisted (update build docId (.pruning subgraph rest))))
    | .pruning subgraph [] =>
      some (s.goOn inputs (.building persisted (update build docId (.done (some subgraph)))))
    | _ => none
  | _ => none

def fail (docId : String) (s : KbState δ) : Option (KbState δ) :=
  match s.process with
  | some (inputs, .building persisted build) =>
    match build docId with
    | .extracting | .pruning _ _ =>
      some (s.goOn inputs (.building persisted (update build docId .failed)))
    | _ => none
  | _ => none

def merge (s : KbState δ) : Option (KbState δ) :=
  match s.process with
  | some (inputs, .building persisted build) =>
    if inputs.documents.all fun docId => (build docId).isSettled then
      let okDocs := inputs.documents.filter fun docId => (build docId).subgraph?.isSome
      let failed := inputs.documents.any fun docId => (build docId).isFailed
      if persisted.isNone && okDocs.isEmpty && !failed then some (s.goOn inputs (.finished none))
      else some (s.goOn inputs
        (.merging persisted (fun docId => (build docId).subgraph?) okDocs failed false none))
    else none
  | _ => none

def clear (kept : Phase → Bool) (s : KbState δ) : Option (KbState δ) :=
  match s.process with
  | some (inputs, .merging final subgraphs (docId :: rest) failed false none) =>
    some ({ s with markers := clearMarkers s.markers kept }.goOn inputs
      (.merging final subgraphs (docId :: rest) failed true none))
  | _ => none

def plan (current : Option Graph) (docId : String) (subgraph : Graph) : Option (Graph × GraphChange) :=
  if (storedDocuments current).contains docId then
    -- an earlier attempt has committed: settle the rest
    current.map fun g => (g, ⟨[], g.nodes.rows.map Prod.fst, [], g.edges.rows.map Prod.fst⟩)
  else mergeSubgraph D.sums D.pagerank current subgraph

def attempt (prep : Preparation) (revision : String) (kept : Phase → Bool) (s : KbState δ) :
    Option (KbState δ) :=
  match s.process, getGraph s.store.rows [] with
  | some (inputs, .merging final subgraphs (docId :: rest) failed true none), .ok current =>
    match (subgraphs docId).bind (plan D (current.map D.reread) docId) with
    | some (graph, change) =>
      (beginSetGraph prep s.store graph change revision).map fun a =>
        { s with markers := clearMarkers s.markers kept }.goOn inputs
          (.merging final subgraphs (docId :: rest) failed true (some a))
    | none => none
  | _, _ => none

def write (s : KbState δ) : Option (KbState δ) :=
  match s.process with
  | some (inputs, .merging final subgraphs remaining failed cleared (some a)) =>
    (writeRow s.store a).map fun (a, store) =>
      { s with store := store }.goOn inputs (.merging final subgraphs remaining failed cleared (some a))
  | some (inputs, .resolving final (some a)) =>
    (writeRow s.store a).map fun (a, store) =>
      { s with store := store }.goOn inputs (.resolving final (some a))
  | some (inputs, .extracting final (some ⟨found, w :: writes⟩)) =>
    some ({ s with reports := s.reports.write w }.goOn inputs (.extracting final (some ⟨found, writes⟩)))
  | _ => none

def finish (s : KbState δ) : Option (KbState δ) :=
  match s.process with
  | some (inputs, .merging _ subgraphs (_ :: rest) failed _ (some a)) =>
    if returns a then some (s.goOn inputs (.merging (some a.next) subgraphs rest failed false none))
    else none
  | some (inputs, .resolving _ (some a)) =>
    if returns a then
      some ({ s with completions := ⟨.resolution, inputs, a.next, s.store, s.reports, []⟩ ::
        s.completions }.goOn inputs (.marking .resolution a.next))
    else none
  | some (inputs, .extracting final (some ⟨found, []⟩)) =>
    some ({ s with completions := ⟨.community, inputs, final, s.store, s.reports, found⟩ ::
      s.completions }.goOn inputs (.marking .community final))
  | _ => none

/-- The attempt fails; `_run_with_retry` makes another one. -/
def retry (s : KbState δ) : Option (KbState δ) :=
  match s.process with
  | some (inputs, .merging final subgraphs remaining failed cleared (some _)) =>
    some (s.goOn inputs (.merging final subgraphs remaining failed cleared none))
  | some (inputs, .resolving final (some _)) => some (s.goOn inputs (.resolving final none))
  | some (inputs, .extracting final (some _)) => some (s.goOn inputs (.extracting final none))
  | _ => none

def conclude (s : KbState δ) : Option (KbState δ) :=
  match s.process with
  | some (inputs, .merging (some final) _ [] false _ none) =>
    some (s.goOn inputs (.checking .resolution final))
  | some (inputs, .merging none _ [] false _ none) =>
    -- "No persisted graph found for resolution/community resume"
    if inputs.withResolution || inputs.withCommunity then none
    else some (s.goOn inputs (.finished none))
  | _ => none

def after (phase : Phase) (final : Graph) : Stage :=
  match phase with
  | .resolution => .checking .community final
  | .community => .finished (some final)

def first (phase : Phase) (final : Graph) : Stage :=
  match phase with
  | .resolution => .resolving final none
  | .community => .extracting final none

def pass (s : KbState δ) : Option (KbState δ) :=
  match s.process with
  | some (inputs, .checking phase final) =>
    if inputs.requests phase then none else some (s.goOn inputs (after phase final))
  | _ => none

def unreadable (s : KbState δ) : Option (KbState δ) :=
  match s.process with
  | some (inputs, .checking phase final) =>
    if inputs.requests phase then some (s.goOn inputs (first phase final)) else none
  | _ => none

/-- `resolution_attempt` up to the first write of `set_graph`; `EntityResolution` keeps the
    documents of the graph. -/
def resolve (prep : Preparation) (next : Graph) (change : GraphChange) (revision : String)
    (kept : Phase → Bool) (s : KbState δ) : Option (KbState δ) :=
  match s.process with
  | some (inputs, .resolving final none) =>
    if next.documents = final.documents then
      (beginSetGraph prep s.store next change revision).map fun a =>
        { s with markers := clearMarkers s.markers kept }.goOn inputs (.resolving final (some a))
    else none
  | _ => none

/-- `community_attempt` up to its first write: the new reports, then the ones they do not replace. -/
def report (found : List (String × Json)) (s : KbState δ) : Option (KbState δ) :=
  match s.process with
  | some (inputs, .extracting final none) =>
    if (found.map Prod.fst).Nodup then
      let stale := (s.reports.rows.map Prod.fst).filter fun title => !(found.map Prod.fst).contains title
      some (s.goOn inputs (.extracting final (some ⟨found, found.map .upsert ++ stale.map .delete⟩)))
    else none
  | _ => none

def mark (s : KbState δ) : Option (KbState δ) :=
  match s.process with
  | some (inputs, .marking phase final) =>
    some ({ s with markers := update s.markers phase (some (phaseRevision D inputs phase final)) }.goOn
      inputs (after phase final))
  | _ => none

def markLost (s : KbState δ) : Option (KbState δ) :=
  (mark D s).map ended

variable [DecidableEq δ]

def skip (s : KbState δ) : Option (KbState δ) :=
  match s.process with
  | some (inputs, .checking phase final) =>
    if inputs.requests phase && decide (s.markers phase = some (phaseRevision D inputs phase final)) then
      some (s.goOn inputs (after phase final))
    else none
  | _ => none

def proceed (s : KbState δ) : Option (KbState δ) :=
  match s.process with
  | some (inputs, .checking phase final) =>
    if inputs.requests phase && decide (s.markers phase ≠ some (phaseRevision D inputs phase final)) then
      some (s.goOn inputs (first phase final))
    else none
  | _ => none

def perform : Action → KbState δ → Option (KbState δ)
  | .start inputs, s => start D inputs s
  | .load docId, s => s.load docId
  | .extract docId extracted, s => s.extract docId extracted
  | .discard docId, s => s.discard docId
  | .fail docId, s => s.fail docId
  | .merge, s => s.merge
  | .clear kept, s => s.clear kept
  | .attempt prep revision kept, s => attempt D prep revision kept s
  | .write, s => s.write
  | .finish, s => s.finish
  | .retry, s => s.retry
  | .conclude, s => s.conclude
  | .pass, s => s.pass
  | .skip, s => skip D s
  | .proceed, s => proceed D s
  | .unreadable, s => s.unreadable
  | .resolve prep next change revision kept, s => s.resolve prep next change revision kept
  | .report found, s => s.report found
  | .mark, s => mark D s
  | .markLost, s => markLost D s
  | .kill, s => some s.ended
  | .outside store reports, s =>
    match s.process with
    | none => some { s with store := store, reports := reports }
    | some _ => none

def Step (s : KbState δ) (a : Action) (s' : KbState δ) : Prop := perform D a s = some s'

end KbState

/-! ### The statements -/

def Stored (store : Store) (g : Graph) : Prop :=
  ∃ stored, getGraph store.rows [] = .ok (some stored) ∧ SameData g stored

/-- The phase ended with its results stored: for the resolution the graph, for the communities
    exactly the reports that were found. -/
structure Completion.Persisted (c : Completion) : Prop where
  graph : Stored c.store c.graph
  reports : c.phase = .community → ∀ row, row ∈ c.reports ↔ row ∈ c.found

def Stage.performs : Stage → Bool
  | .resolving _ _ => true
  | .extracting _ _ => true
  | .marking _ _ => true
  | _ => false

def Stage.isFinished : Stage → Bool
  | .finished _ => true
  | _ => false

def Action.ofRuns : Action → Bool
  | .outside _ _ => false
  | _ => true

def Action.Repeats (inputs : Inputs) : Action → Prop
  | .start inputs' => inputs' = inputs
  | .unreadable => False
  | .outside _ _ => False
  | _ => True

end MultiRag.GraphRag.Phases
