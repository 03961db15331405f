/-
  **`set_graph`: auxiliary rows, the checkpoint, pruning.**

  The subgraphs, entities and relations are upserted, the checkpoint after them, and last the
  stale rows of the snapshot taken at the start are deleted. `staleRow` says which rows are stale,
  and `Completed` what a run that ends leaves.
-/
import MultiRag.GraphRebuild

namespace MultiRag.GraphRag

open List Table

open Table (Write)

structure GraphChange where
  removedNodes : List String
  addedUpdatedNodes : List String
  removedEdges : List (String × String)
  addedUpdatedEdges : List (String × String)

def GraphChange.nonempty (change : GraphChange) : Bool :=
  !(change.addedUpdatedNodes.isEmpty && change.removedNodes.isEmpty &&
    change.addedUpdatedEdges.isEmpty && change.removedEdges.isEmpty)

/-! ### The rows to write -/

def checkpointChunk (g : Graph) : Row := ⟨.checkpoint, .graph g, false⟩

def subgraphChunk (g : Graph) (source : String) : Row :=
  ⟨.subgraph source, .subgraph [source] (g.perDocument source), false⟩

/-- `graph_node_to_chunk`; the columns derived from the attributes are left out. -/
def graphNodeToChunk (node : String × Attrs) : Row :=
  ⟨entityChunkId node.1, .entity (some node.1) node.2, false⟩

def graphEdgeToChunk (source target : String) (attrs : Attrs) : Row :=
  ⟨relationChunkId source target, .relation (some source) (some target) attrs, false⟩

def entityChunks (g : Graph) (change : GraphChange) : List Row :=
  if change.nonempty then g.nodes.rows.map graphNodeToChunk else []

def relationChunks (g : Graph) (change : GraphChange) : List Row :=
  change.addedUpdatedEdges.filterMap fun pair =>
    (g.edgeData pair.1 pair.2).map (graphEdgeToChunk pair.1 pair.2)

def auxiliaryChunks (g : Graph) (change : GraphChange) : List Row :=
  g.documents.map (subgraphChunk g) ++ entityChunks g change ++ relationChunks g change

def newIds (g : Graph) (change : GraphChange) : List Id :=
  .checkpoint :: (auxiliaryChunks g change).map Row.pk

/-! ### Pruning -/

def validIdentity (name : Option String) : Option String := name.filter fun name => !isBlank name

/-- Whether a row of the snapshot is stale; `canonical` tells that a canonical id is one of
    `all_ids`. -/
def staleRow (g : Graph) (change : GraphChange) (canonical : Id → Bool) (row : Row) :
    Except String Bool :=
  if (newIds g change).contains row.pk then .ok false
  else match row.content with
    | .graph _ => .ok true
    | .subgraph sources _ => .ok (sources.all fun source => g.documents.contains source)
    | .entity name _ =>
      match validIdentity name with
      | none => .error "Invalid persisted graph entity identity"
      | some entity =>
        .ok (!g.hasNode entity || (change.removedNodes ++ change.addedUpdatedNodes).contains entity
          || (row.pk ≠ entityChunkId entity && canonical (entityChunkId entity)))
    | .relation from_ to_ _ =>
      match validIdentity from_, validIdentity to_ with
      | some source, some target =>
        let pair := getFromTo source target
        .ok (!g.hasEdge pair || (change.removedEdges ++ change.addedUpdatedEdges).contains pair
          || (row.pk ≠ relationChunkId pair.1 pair.2 && canonical (relationChunkId pair.1 pair.2)))
      | _, _ => .error "Invalid persisted graph relation identity"

def staleIds (g : Graph) (change : GraphChange) (canonical : Id → Bool) :
    List Row → Except String (List Id)
  | [] => .ok []
  | row :: rest => do
    let stale ← staleRow g change canonical row
    let others ← staleIds g change canonical rest
    pure (if stale then row.pk :: others else others)

def canonicalIn (g : Graph) (change : GraphChange) (previous : List Row) (id : Id) : Bool :=
  (newIds g change).contains id || (previous.map Row.pk).contains id

/-! ### `set_graph` -/

/-- What may stop the run before it writes, building the rows or their size, and the order in
    which the concurrent workers insert the auxiliary rows. -/
structure Preparation where
  raises : Option String
  fits : Row → Bool
  order : List Row → List Row
  perm : ∀ rows, (order rows).Perm rows

def prepared : Preparation := ⟨none, fun _ => true, id, fun _ => .refl _⟩

/-- `graph.graph["checkpoint_revision"] = get_uuid()` -/
def Graph.revised (g : Graph) (revision : String) : Graph := { g with revision := revision }

def upserts (rows : List Row) : List (Write Id Row) := rows.map .upsert

def written (rows : Store) (g : Graph) (auxiliary : List Row) : Store :=
  rows.writeAll (upserts (auxiliary ++ [checkpointChunk g]))

def setGraph (prep : Preparation) (rows : Store) (graph : Graph) (change : GraphChange)
    (revision : String) : Except String Unit × Store :=
  let g := graph.revised revision
  let auxiliary := prep.order (auxiliaryChunks g change)
  match prep.raises with
  | some error => (.error error, rows)
  | none =>
    if !(checkpointChunk g :: auxiliaryChunks g change).all prep.fits then
      (.error "exceeds the storage schema; checkpoint was not replaced", rows)
    else
      match staleIds g change (canonicalIn g change rows.rows) rows.rows with
      | .error error => (.error error, written rows g auxiliary)
      | .ok stale => (.ok (), (written rows g auxiliary).writeAll (stale.map .delete))

variable {g : Graph} {change : GraphChange} {canonical : Id → Bool} {previous : List Row} {stale : List Id}

theorem staleIds_ok (h : staleIds g change canonical previous = .ok stale) :
    (∀ row ∈ previous, ∃ b, staleRow g change canonical row = .ok b) ∧
      ∀ id, id ∈ stale ↔ ∃ row ∈ previous, row.pk = id ∧
        staleRow g change canonical row = .ok true := by
  induction previous generalizing stale with
  | nil =>
    rw [staleIds, Except.ok.injEq] at h
    subst h
    simp
  | cons row rest ih =>
    unfold staleIds at h
    rcases hrow : staleRow g change canonical row with error | b
    · rw [hrow] at h
      cases h
    · rw [hrow] at h
      rcases hrest : staleIds g change canonical rest with error | others
      · rw [hrest] at h
        cases h
      · rw [hrest] at h
        obtain ⟨hall, hmem⟩ := ih hrest
        have hstale : (if b then row.pk :: others else others) = stale := Except.ok.inj h
        refine ⟨?_, fun id => ?_⟩
        · rw [forall_mem_cons]
          exact ⟨⟨b, hrow⟩, hall⟩
        · rw [← hstale, exists_mem_cons_iff, ← hmem]
          cases b with
          | true => simp [hrow, eq_comm]
          | false => simp [hrow]

theorem exists_staleIds (h : ∀ row ∈ previous, ∃ b, staleRow g change canonical row = .ok b) :
    ∃ stale, staleIds g change canonical previous = .ok stale := by
  induction previous with
  | nil => exact ⟨[], rfl⟩
  | cons row rest ih =>
    rw [forall_mem_cons] at h
    obtain ⟨b, hb⟩ := h.1
    obtain ⟨others, hothers⟩ := ih h.2
    refine ⟨if b then row.pk :: others else others, ?_⟩
    rw [staleIds, hb, hothers]
    rfl

/-! ### What is in the store -/

theorem mem_chunks {row : Row} :
    row ∈ auxiliaryChunks g change ++ [checkpointChunk g] ↔
      (∃ source ∈ g.documents, row = subgraphChunk g source) ∨
      (change.nonempty = true ∧ ∃ node ∈ g.nodes, row = graphNodeToChunk node) ∨
      (∃ pair ∈ change.addedUpdatedEdges, ∃ attrs, g.edgeData pair.1 pair.2 = some attrs ∧
        row = graphEdgeToChunk pair.1 pair.2 attrs) ∨
      row = checkpointChunk g := by
  have hentity : row ∈ entityChunks g change ↔
      change.nonempty = true ∧ ∃ node ∈ g.nodes, row = graphNodeToChunk node := by
    unfold entityChunks
    split
    · next h => simp [h, eq_comm, mem_def]
    · next h => simp [h]
  have hrelation : row ∈ relationChunks g change ↔
      ∃ pair ∈ change.addedUpdatedEdges, ∃ attrs, g.edgeData pair.1 pair.2 = some attrs ∧
        row = graphEdgeToChunk pair.1 pair.2 attrs := by
    simp [relationChunks, eq_comm]
  have hsub : row ∈ g.documents.map (subgraphChunk g) ↔
      ∃ source ∈ g.documents, row = subgraphChunk g source := by
    simp [eq_comm]
  rw [mem_append, auxiliaryChunks, mem_append, mem_append, mem_singleton,
    hentity, hrelation, hsub, or_assoc, or_assoc]

theorem mem_newIds {id : Id} :
    id ∈ newIds g change ↔ ∃ row ∈ auxiliaryChunks g change ++ [checkpointChunk g], row.pk = id := by
  simp only [newIds, mem_cons, mem_map, mem_append, not_mem_nil, or_false]
  constructor
  · rintro (rfl | ⟨row, hrow, rfl⟩)
    · exact ⟨checkpointChunk g, .inr rfl, rfl⟩
    · exact ⟨row, .inl hrow, rfl⟩
  · rintro ⟨row, hrow | rfl, rfl⟩
    · exact .inr ⟨row, hrow, rfl⟩
    · exact .inl rfl

theorem newIds_revised (revision : String) :
    newIds (g.revised revision) change = newIds g change := by
  simp only [newIds, auxiliaryChunks, map_append, map_map]
  rfl

section

variable {auxiliary : List Row} (hauxiliary : auxiliary.Perm (auxiliaryChunks g change))
include hauxiliary

variable {id : Id}

theorem mem_newIds_perm :
    id ∈ newIds g change ↔ ∃ row ∈ auxiliary ++ [checkpointChunk g], row.pk = id := by
  rw [mem_newIds]
  simp only [(hauxiliary.append_right [checkpointChunk g]).mem_iff]

theorem get?_written_new (rows : Store) (h : id ∈ newIds g change) :
    ∃ row ∈ auxiliaryChunks g change ++ [checkpointChunk g], row.pk = id ∧
      (written rows g auxiliary).get? id = some row := by
  obtain ⟨row, hrow, hpk, hlast⟩ :=
    exists_lastWrite_upserts ((mem_newIds_perm hauxiliary).mp h)
  refine ⟨row, (hauxiliary.append_right _).mem_iff.mp hrow, hpk, ?_⟩
  rw [written, get?_writeAll, upserts, hlast]
  rfl

theorem get?_written_old (rows : Store) (h : id ∉ newIds g change) :
    (written rows g auxiliary).get? id = rows.get? id := by
  have hnone : Table.lastWrite Row.pk id (upserts (auxiliary ++ [checkpointChunk g])) = none :=
    lastWrite_upserts_of_ne fun row hrow hpk =>
      h ((mem_newIds_perm hauxiliary).mpr ⟨row, hrow, hpk⟩)
  rw [written, get?_writeAll, hnone]
  rfl

end

theorem get?_pruned (rows : Store) (stale : List Id) (id : Id) :
    (rows.writeAll (stale.map .delete)).get? id = if id ∈ stale then none else rows.get? id := by
  rw [get?_writeAll, lastWrite_deletes]
  split <;> rfl

theorem staleRow_new {row : Row} (h : row.pk ∈ newIds g change) :
    staleRow g change canonical row = .ok false := by
  rw [staleRow, if_pos (contains_iff_mem.mpr h)]

theorem validIdentity_eq_some {name : Option String} {entity : String} :
    validIdentity name = some entity ↔ name = some entity ∧ isBlank entity = false := by
  rw [validIdentity, Option.filter_eq_some_iff, Bool.not_eq_true']

section

variable {row : Row} (hpk : row.pk ∉ newIds g change)
include hpk

theorem staleRow_graph {data : Graph} (hcont : row.content = .graph data) :
    staleRow g change canonical row = .ok true := by
  rw [staleRow, if_neg (mt contains_iff_mem.mp hpk), hcont]

theorem staleRow_subgraph {sources : List String} {data : Graph}
    (hcont : row.content = .subgraph sources data) :
    staleRow g change canonical row =
      .ok (sources.all fun source => g.documents.contains source) := by
  rw [staleRow, if_neg (mt contains_iff_mem.mp hpk), hcont]

theorem staleRow_entity {name : Option String} {attrs : Attrs} {b : Bool}
    (hcont : row.content = .entity name attrs) :
    staleRow g change canonical row = .ok b ↔
      ∃ entity, name = some entity ∧ isBlank entity = false ∧
        (!g.hasNode entity || (change.removedNodes ++ change.addedUpdatedNodes).contains entity
          || (row.pk ≠ entityChunkId entity && canonical (entityChunkId entity))) = b := by
  rw [staleRow, if_neg (mt contains_iff_mem.mp hpk), hcont]
  constructor
  · intro h
    simp only at h
    split at h
    · cases h
    · next entity hentity =>
      obtain ⟨hname, hblank⟩ := validIdentity_eq_some.mp hentity
      exact ⟨entity, hname, hblank, Except.ok.inj h⟩
  · rintro ⟨entity, hname, hblank, rfl⟩
    simp only [validIdentity_eq_some.mpr ⟨hname, hblank⟩]

theorem staleRow_relation {from_ to_ : Option String} {attrs : Attrs} {b : Bool}
    (hcont : row.content = .relation from_ to_ attrs) :
    staleRow g change canonical row = .ok b ↔
      ∃ source target, from_ = some source ∧ to_ = some target ∧ isBlank source = false ∧
        isBlank target = false ∧
        (!g.hasEdge (getFromTo source target) ||
          (change.removedEdges ++ change.addedUpdatedEdges).contains (getFromTo source target)
          || (row.pk ≠ relationChunkId source target &&
            canonical (relationChunkId source target))) = b := by
  rw [staleRow, if_neg (mt contains_iff_mem.mp hpk), hcont]
  constructor
  · intro h
    simp only at h
    split at h
    · next source target hsource htarget =>
      obtain ⟨hfrom, hblank⟩ := validIdentity_eq_some.mp hsource
      obtain ⟨hto, hblank'⟩ := validIdentity_eq_some.mp htarget
      rw [relationChunkId_getFromTo] at h
      exact ⟨source, target, hfrom, hto, hblank, hblank', Except.ok.inj h⟩
    · cases h
  · rintro ⟨source, target, hfrom, hto, hblank, hblank', rfl⟩
    simp only [validIdentity_eq_some.mpr ⟨hfrom, hblank⟩, validIdentity_eq_some.mpr ⟨hto, hblank'⟩,
      relationChunkId_getFromTo]

end

/-- A run that ends: nothing failed before the writes, and the rows it leaves. -/
structure Completed (rows : Store) (g : Graph) (change : GraphChange) (final : Store) : Prop where
  checked : ∀ row ∈ rows, ∃ b,
    staleRow g change (canonicalIn g change rows.rows) row = .ok b
  kept : ∀ id ∉ newIds g change, ∀ row, final.get? id = some row ↔
    rows.get? id = some row ∧ staleRow g change (canonicalIn g change rows.rows) row = .ok false
  new : ∀ id ∈ newIds g change, ∃ row ∈ auxiliaryChunks g change ++ [checkpointChunk g],
    row.pk = id ∧ final.get? id = some row

theorem completed_of_stale {rows : Store} {auxiliary : List Row}
    (hauxiliary : auxiliary.Perm (auxiliaryChunks g change))
    (h : staleIds g change (canonicalIn g change rows.rows) rows.rows = .ok stale) :
    Completed rows g change ((written rows g auxiliary).writeAll (stale.map .delete)) := by
  obtain ⟨hchecked, hmem⟩ := staleIds_ok h
  refine ⟨hchecked, ?_, ?_⟩
  · intro id hid row
    rw [get?_pruned, get?_written_old hauxiliary rows hid]
    constructor
    · intro hget
      split at hget
      · cases hget
      · next hnot =>
        refine ⟨hget, ?_⟩
        obtain ⟨hrow, hpk⟩ := get?_eq_some.mp hget
        obtain ⟨b, hb⟩ := hchecked row hrow
        cases b with
        | true => exact absurd ((hmem id).mpr ⟨row, hrow, hpk, hb⟩) hnot
        | false => exact hb
    · rintro ⟨hget, hkept⟩
      rw [if_neg, hget]
      intro hin
      obtain ⟨other, hother, hpk, htrue⟩ := (hmem id).mp hin
      obtain ⟨hrow, hpkRow⟩ := get?_eq_some.mp hget
      rw [eq_of_key hother hrow (hpk.trans hpkRow.symm), hkept] at htrue
      cases htrue
  · intro id hid
    obtain ⟨row, hrow, hpk, hget⟩ := get?_written_new hauxiliary rows hid
    refine ⟨row, hrow, hpk, ?_⟩
    rw [get?_pruned, if_neg, hget]
    intro hin
    obtain ⟨other, -, hpkOther, htrue⟩ := (hmem id).mp hin
    rw [staleRow_new (hpkOther ▸ hid)] at htrue
    cases htrue

theorem setGraph_completed {prep : Preparation} {rows : Store} {graph : Graph} {revision : String}
    (h : (setGraph prep rows graph change revision).1 = .ok ()) :
    Completed rows (graph.revised revision) change
      (setGraph prep rows graph change revision).2 := by
  unfold setGraph at h ⊢
  simp only at h ⊢
  rcases hraises : prep.raises with - | error
  · rw [hraises] at h
    by_cases hfits : (!(checkpointChunk (graph.revised revision) ::
        auxiliaryChunks (graph.revised revision) change).all prep.fits) = true
    · rw [if_pos hfits] at h
      cases h
    rw [if_neg hfits] at h ⊢
    rcases hstale : staleIds (graph.revised revision) change
        (canonicalIn (graph.revised revision) change rows.rows) rows.rows with error | stale
    · rw [hstale] at h
      cases h
    exact completed_of_stale (prep.perm _) hstale
  · rw [hraises] at h
    cases h
end MultiRag.GraphRag
