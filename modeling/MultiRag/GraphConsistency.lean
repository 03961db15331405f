/-
  **The rows of a stored graph.**

  `Persisted` is the invariant of the store.  A run whose change covers the
  difference of the graphs, and lists no edge as removed that stays, leads from the
  rows of one graph to those of the next (`persisted_of_final`).
-/
import MultiRag.GraphSetGraph

namespace MultiRag.GraphRag

open Table List
open Option (some.inj)

/-! ### The invariant -/

def Id.isLegacy : Id → Bool
  | .legacy _ => true
  | _ => false

def Row.canonical? (row : Row) : Option Id :=
  match row.content with
  | .graph _ => some .checkpoint
  | .subgraph [source] _ => some (.subgraph source)
  | .entity (some name) _ => some (entityChunkId name)
  | .relation (some source) (some target) _ => some (relationChunkId source target)
  | _ => none

def Row.presentIn (g : Graph) (row : Row) : Bool :=
  match row.content with
  | .entity name _ => name.any g.hasNode
  | .relation (some source) (some target) _ => g.hasEdge (getFromTo source target)
  | .relation _ _ _ => false
  | _ => true

/-- The rows of a graph.  With `unique` and `present` the rows that the other fields name are
    the only ones of their kind. -/
structure Persisted (rows : Store) (g : Graph) : Prop where
  ids : ∀ row ∈ rows, row.canonical? = some row.pk ∨ row.pk.isLegacy = true
  unique : ∀ row ∈ rows, ∀ other ∈ rows, ∀ id, row.canonical? = some id →
    other.canonical? = some id → (∀ source, id = .subgraph source → source ∈ g.documents) →
      row = other
  checkpoint : ∃ row ∈ rows, row.content = .graph g ∧ row.removed = false
  subgraphs : ∀ source ∈ g.documents, ∃ row ∈ rows, row.canonical? = some (.subgraph source)
  entities : ∀ name attrs, (name, attrs) ∈ g.nodes →
    ∃ row ∈ rows, row.content = .entity (some name) attrs
  relations : ∀ pair attrs, (pair, attrs) ∈ g.edges → ∃ row ∈ rows, ∃ source target,
    row.content = .relation (some source) (some target) attrs ∧ getFromTo source target = pair
  present : ∀ row ∈ rows, row.presentIn g = true

/-- The change lists at least what the graphs differ in; an edge may be listed in either
    direction. -/
structure Covers (prev next : Graph) (change : GraphChange) : Prop where
  addedNodes : ∀ name attrs, (name, attrs) ∈ next.nodes → (name, attrs) ∉ prev.nodes →
    name ∈ change.addedUpdatedNodes
  removedNodes : ∀ name, prev.hasNode name = true → next.hasNode name = false →
    name ∈ change.removedNodes
  addedEdges : ∀ pair attrs, (pair, attrs) ∈ next.edges → (pair, attrs) ∉ prev.edges →
    ∃ listed ∈ change.addedUpdatedEdges, getFromTo listed.1 listed.2 = pair
  removedEdges : ∀ pair, prev.hasEdge pair = true → next.hasEdge pair = false →
    ∃ listed ∈ change.removedEdges, getFromTo listed.1 listed.2 = pair

theorem Covers.refl (g : Graph) (change : GraphChange) : Covers g g change where
  addedNodes _ _ h hnew := absurd h hnew
  removedNodes name h hgone := by
    rw [h] at hgone
    cases hgone
  addedEdges _ _ h hnew := absurd h hnew
  removedEdges pair h hgone := by
    rw [h] at hgone
    cases hgone

/-- An edge that is listed as removed is gone, or is written again. -/
def RemovalsHold (next : Graph) (change : GraphChange) : Prop :=
  ∀ pair ∈ change.removedEdges, next.hasEdge pair = true →
    ∃ listed ∈ change.addedUpdatedEdges, getFromTo listed.1 listed.2 = pair

/-- No node has a blank name; pruning raises at a stored row of one. -/
def NamesValid (g : Graph) : Prop := ∀ name, g.hasNode name = true → isBlank name = false

/-! ### The new ids -/

variable {g : Graph} {change : GraphChange}

theorem checkpoint_mem_newIds : Id.checkpoint ∈ newIds g change := mem_cons_self

variable {source : String}

theorem subgraph_mem_newIds :
    Id.subgraph source ∈ newIds g change ↔ source ∈ g.documents := by
  rw [mem_newIds]
  constructor
  · rintro ⟨row, hrow, hpk⟩
    rcases mem_chunks.mp hrow with ⟨source', hsource, rfl⟩ | ⟨-, node, -, rfl⟩ |
        ⟨pair, -, attrs, -, rfl⟩ | rfl
    · exact Id.subgraph.inj hpk ▸ hsource
    · cases hpk
    · cases hpk
    · cases hpk
  · intro hsource
    exact ⟨subgraphChunk g source, mem_chunks.mpr (.inl ⟨source, hsource, rfl⟩), rfl⟩

variable {name : String}

theorem entity_mem_newIds :
    entityChunkId name ∈ newIds g change ↔ change.nonempty = true ∧ g.hasNode name = true := by
  rw [mem_newIds, Graph.hasNode_iff]
  constructor
  · rintro ⟨row, hrow, hpk⟩
    rcases mem_chunks.mp hrow with ⟨source, -, rfl⟩ | ⟨hchanged, node, hnode, rfl⟩ |
        ⟨pair, -, attrs, -, rfl⟩ | rfl
    · cases hpk
    · obtain rfl : node.1 = name := Id.entity.inj hpk
      exact ⟨hchanged, node.2, hnode⟩
    · cases hpk
    · cases hpk
  · rintro ⟨hchanged, attrs, hnode⟩
    exact ⟨graphNodeToChunk (name, attrs),
      mem_chunks.mpr (.inr (.inl ⟨hchanged, (name, attrs), hnode, rfl⟩)), rfl⟩

variable {target : String}

theorem edgeData_eq_some {attrs : Attrs} :
    g.edgeData source target = some attrs ↔ (getFromTo source target, attrs) ∈ g.edges := by
  rw [Graph.edgeData, Option.map_eq_some_iff]
  constructor
  · rintro ⟨⟨pair, attrs'⟩, hget, rfl⟩
    obtain ⟨hmem, hkey⟩ := get?_eq_some.mp hget
    exact hkey ▸ hmem
  · intro hmem
    exact ⟨_, get?_of_mem hmem, rfl⟩

variable {pair : String × String}

theorem relation_mem_newIds :
    Id.relation pair ∈ newIds g change ↔
      g.hasEdge pair = true ∧
        ∃ listed ∈ change.addedUpdatedEdges, getFromTo listed.1 listed.2 = pair := by
  rw [mem_newIds, Graph.hasEdge_iff]
  constructor
  · rintro ⟨row, hrow, hpk⟩
    rcases mem_chunks.mp hrow with ⟨source, -, rfl⟩ | ⟨-, node, -, rfl⟩ |
        ⟨listed, hlisted, attrs, hattrs, rfl⟩ | rfl
    · cases hpk
    · cases hpk
    · obtain rfl : getFromTo listed.1 listed.2 = pair := Id.relation.inj hpk
      exact ⟨⟨attrs, edgeData_eq_some.mp hattrs⟩, listed, hlisted, rfl⟩
    · cases hpk
  · rintro ⟨⟨attrs, hedge⟩, listed, hlisted, rfl⟩
    exact ⟨graphEdgeToChunk listed.1 listed.2 attrs, mem_chunks.mpr (.inr (.inr (.inl
      ⟨listed, hlisted, attrs, edgeData_eq_some.mpr hedge, rfl⟩))), rfl⟩

variable {id : Id}

theorem isLegacy_of_mem_newIds (h : id ∈ newIds g change) : id.isLegacy = false := by
  obtain ⟨row, hrow, rfl⟩ := mem_newIds.mp h
  rcases mem_chunks.mp hrow with ⟨source, -, rfl⟩ | ⟨-, node, -, rfl⟩ |
      ⟨pair, -, attrs, -, rfl⟩ | rfl <;> rfl

variable {row : Row}

section

variable (h : row ∈ auxiliaryChunks g change ++ [checkpointChunk g])
include h

theorem canonical?_chunk :
    row.canonical? = some row.pk := by
  rcases mem_chunks.mp h with ⟨source, -, rfl⟩ | ⟨-, node, -, rfl⟩ |
      ⟨pair, -, attrs, -, rfl⟩ | rfl <;> rfl

theorem presentIn_chunk :
    row.presentIn g = true := by
  rcases mem_chunks.mp h with ⟨source, -, rfl⟩ | ⟨-, node, hnode, rfl⟩ |
      ⟨pair, -, attrs, hattrs, rfl⟩ | rfl
  · rfl
  · exact Graph.hasNode_iff.mpr ⟨node.2, hnode⟩
  · exact Graph.hasEdge_iff.mpr ⟨attrs, edgeData_eq_some.mp hattrs⟩
  · rfl

theorem eq_checkpointChunk
    (hpk : row.pk = .checkpoint) :
    row = checkpointChunk g := by
  rcases mem_chunks.mp h with ⟨source, -, rfl⟩ | ⟨-, node, -, rfl⟩ |
      ⟨pair, -, attrs, -, rfl⟩ | heq
  · cases hpk
  · cases hpk
  · cases hpk
  · exact heq

end

/-! ### The rows that stay -/

def renewed (g : Graph) (change : GraphChange) (id : Id) : Bool := (newIds g change).contains id

/-- The rows after a run, from the rows before it and the new ones. -/
structure Final (rows : Store) (g : Graph) (change : GraphChange) (final : Store) : Prop where
  kept : ∀ id ∉ newIds g change, ∀ row, final.get? id = some row ↔
    rows.get? id = some row ∧ staleRow g change (renewed g change) row = .ok false
  new : ∀ id ∈ newIds g change, ∃ row ∈ auxiliaryChunks g change ++ [checkpointChunk g],
    row.pk = id ∧ final.get? id = some row

theorem staleRow_ne_of_renewed (hpk : row.pk ∉ newIds g change)
    (hcanon : row.canonical? = some id) (hid : id ∈ newIds g change) :
    staleRow g change (renewed g change) row ≠ .ok false := by
  have hne : row.pk ≠ id := fun heq => hpk (heq ▸ hid)
  have hrenewed : renewed g change id = true := contains_iff_mem.mpr hid
  intro hkept
  unfold Row.canonical? at hcanon
  split at hcanon
  · next hcont =>
    rw [staleRow_graph hpk hcont] at hkept
    cases hkept
  · next source data hcont =>
    obtain rfl := some.inj hcanon
    rw [staleRow_subgraph hpk hcont] at hkept
    simp [subgraph_mem_newIds.mp hid] at hkept
  · next name attrs hcont =>
    obtain rfl := some.inj hcanon
    obtain ⟨entity, hname, -, hstale⟩ := (staleRow_entity hpk hcont).mp hkept
    obtain rfl := some.inj hname
    simp [hne, hrenewed] at hstale
  · next source target attrs hcont =>
    obtain rfl := some.inj hcanon
    obtain ⟨from_, to_, hfrom, hto, -, -, hstale⟩ := (staleRow_relation hpk hcont).mp hkept
    obtain rfl := some.inj hfrom
    obtain rfl := some.inj hto
    simp [hne, hrenewed] at hstale
  · cases hcanon

theorem presentIn_of_kept {canonical : Id → Bool} (hpk : row.pk ∉ newIds g change)
    (h : staleRow g change canonical row = .ok false) : row.presentIn g = true := by
  unfold Row.presentIn
  split
  · next name attrs hcont =>
    obtain ⟨entity, rfl, -, hstale⟩ := (staleRow_entity hpk hcont).mp h
    simp only [Bool.or_eq_false_iff, Bool.not_eq_false'] at hstale
    exact hstale.1.1
  · next source target attrs hcont =>
    obtain ⟨from_, to_, hfrom, hto, -, -, hstale⟩ := (staleRow_relation hpk hcont).mp h
    obtain rfl := some.inj hfrom
    obtain rfl := some.inj hto
    simp only [Bool.or_eq_false_iff, Bool.not_eq_false'] at hstale
    exact hstale.1.1
  · next source target attrs hnone hcont =>
    obtain ⟨from_, to_, hfrom, hto, -⟩ := (staleRow_relation hpk hcont).mp h
    exact absurd hto (hnone from_ to_ hfrom)
  · rfl

theorem Persisted.pk_of_taken {rows : Store} {prev : Graph} (h : Persisted rows prev) {other : Row}
    (hrow : row ∈ rows) (hother : other ∈ rows) (hcanon : row.canonical? = some id)
    (hid : ∀ source, id ≠ .subgraph source) (hpk : other.pk = id) : row.pk = id := by
  have hlegacy : id.isLegacy = false := by
    unfold Row.canonical? at hcanon
    split at hcanon <;> cases hcanon <;> rfl
  rcases h.ids other hother with hown | hown
  · rw [hpk] at hown
    rw [h.unique row hrow other hother id hcanon hown fun source heq => absurd heq (hid source),
      hpk]
  · rw [hpk, hlegacy] at hown
    cases hown

variable {prev next : Graph} {rows final : Store} {attrs : Attrs}

theorem Covers.sameNode (hcovers : Covers prev next change) (hempty : change.nonempty = false) (h : (name, attrs) ∈ next.nodes) :
    (name, attrs) ∈ prev.nodes := by
  by_contra hnew
  have hlisted := hcovers.addedNodes name attrs h hnew
  simp only [GraphChange.nonempty, Bool.not_eq_false', Bool.and_eq_true, List.isEmpty_iff] at hempty
  rw [hempty.1.1.1] at hlisted
  cases hlisted

theorem Covers.revised (hcovers : Covers prev next change) (revision : String) :
    Covers prev (next.revised revision) change :=
  ⟨hcovers.addedNodes, hcovers.removedNodes, hcovers.addedEdges, hcovers.removedEdges⟩

theorem pk_not_new {id : Id} (h : Persisted rows prev) (hrow : row ∈ rows) (hcanon : row.canonical? = some id)
    (hnew : id ∉ newIds next change) : row.pk ∉ newIds next change := by
  rcases h.ids row hrow with hown | hlegacy
  · rw [some.inj (hown.symm.trans hcanon)]
    exact hnew
  · intro hin
    rw [isLegacy_of_mem_newIds hin] at hlegacy
    cases hlegacy

theorem entity_kept (hnames : NamesValid prev) (hcovers : Covers prev next change)
    (h : Persisted rows prev) (hempty : change.nonempty = false)
    (hnode : (name, attrs) ∈ next.nodes) (hrow : row ∈ rows)
    (hcont : row.content = .entity (some name) attrs) :
    row.pk ∉ newIds next change ∧ staleRow next change (renewed next change) row = .ok false := by
  have hnew : entityChunkId name ∉ newIds next change := by
    rw [entity_mem_newIds, hempty]
    simp
  have hcanon : row.canonical? = some (entityChunkId name) := by
    rw [Row.canonical?, hcont]
  have hpk := pk_not_new h hrow hcanon hnew
  refine ⟨hpk, (staleRow_entity hpk hcont).mpr ⟨name, rfl, ?_, ?_⟩⟩
  · exact hnames name (Graph.hasNode_iff.mpr ⟨attrs, Covers.sameNode hcovers hempty hnode⟩)
  · have hhas : next.hasNode name = true := Graph.hasNode_iff.mpr ⟨attrs, hnode⟩
    have hrenewed : renewed next change (entityChunkId name) = false := by
      rw [renewed, ← Bool.not_eq_true, contains_iff_mem]
      exact hnew
    simp only [GraphChange.nonempty, Bool.not_eq_false', Bool.and_eq_true, List.isEmpty_iff] at hempty
    simp [hhas, hrenewed, hempty]

theorem relation_kept (hnames : NamesValid prev) (hremovals : RemovalsHold next change)
    (h : Persisted rows prev) (hold : (pair, attrs) ∈ prev.edges)
    (hedge : (pair, attrs) ∈ next.edges)
    (hunlisted : ¬ ∃ listed ∈ change.addedUpdatedEdges, getFromTo listed.1 listed.2 = pair)
    (hrow : row ∈ rows)
    (hcont : row.content = .relation (some source) (some target) attrs)
    (hpair : getFromTo source target = pair) :
    row.pk ∉ newIds next change ∧ staleRow next change (renewed next change) row = .ok false := by
  have hnew : Id.relation pair ∉ newIds next change := by
    rw [relation_mem_newIds]
    exact fun hin => hunlisted hin.2
  have hcanon : row.canonical? = some (.relation pair) := by
    rw [Row.canonical?, hcont, ← hpair]
    rfl
  have hpk := pk_not_new h hrow hcanon hnew
  have hhas : next.hasEdge pair = true := Graph.hasEdge_iff.mpr ⟨attrs, hedge⟩
  have hnodes : isBlank source = false ∧ isBlank target = false := by
    have hboth := Graph.joins_of_hasEdge (Graph.hasEdge_iff.mpr ⟨attrs, hold⟩)
    rw [← hpair] at hboth
    rcases getFromTo_eq source target with heq | heq
    · rw [heq] at hboth
      exact ⟨hnames _ hboth.1, hnames _ hboth.2⟩
    · rw [heq] at hboth
      exact ⟨hnames _ hboth.2, hnames _ hboth.1⟩
  refine ⟨hpk, (staleRow_relation hpk hcont).mpr
    ⟨source, target, rfl, rfl, hnodes.1, hnodes.2, ?_⟩⟩
  have hrem : pair ∉ change.removedEdges := fun hin => hunlisted (hremovals pair hin hhas)
  have hupdated : pair ∉ change.addedUpdatedEdges :=
    fun hin => hunlisted ⟨pair, hin, Graph.sorted_of_hasEdge hhas⟩
  have hrenewed : renewed next change (relationChunkId source target) = false := by
    rw [renewed, ← Bool.not_eq_true, contains_iff_mem, relationChunkId, hpair]
    exact hnew
  simp [hpair, hhas, hrem, hupdated, hrenewed]

section

variable (hfinal : Final rows g change final)
include hfinal

theorem Final.old (hrow : row ∈ final)
    (hpk : row.pk ∉ newIds g change) :
    row ∈ rows ∧ staleRow g change (renewed g change) row = .ok false := by
  obtain ⟨hget, hkept⟩ := (hfinal.kept _ hpk row).mp (get?_of_mem hrow)
  exact ⟨mem_of_get? hget, hkept⟩

theorem Final.chunk (hrow : row ∈ final)
    (hpk : row.pk ∈ newIds g change) :
    row ∈ auxiliaryChunks g change ++ [checkpointChunk g] := by
  obtain ⟨row', hchunk, -, hget⟩ := hfinal.new _ hpk
  rw [some.inj ((get?_of_mem hrow).symm.trans hget)]
  exact hchunk

theorem Final.stays (hrow : row ∈ rows)
    (h : row.pk ∉ newIds g change ∧ staleRow g change (renewed g change) row = .ok false) :
    row ∈ final :=
  mem_of_get? ((hfinal.kept _ h.1 row).mpr ⟨get?_of_mem hrow, h.2⟩)

end

theorem Final.unique (hfinal : Final rows next change final) (h : Persisted rows prev) :
    ∀ row ∈ final, ∀ other ∈ final, ∀ id, row.canonical? = some id → other.canonical? = some id →
      (∀ source, id = .subgraph source → source ∈ next.documents) → row = other := by
  intro row hrow other hother id hcanon hcanon' hlisted
  by_cases hpk : row.pk ∈ newIds next change
  · have hid : row.pk = id :=
      some.inj ((canonical?_chunk (hfinal.chunk hrow hpk)).symm.trans hcanon)
    by_cases hpk' : other.pk ∈ newIds next change
    · have hid' : other.pk = id :=
        some.inj ((canonical?_chunk (hfinal.chunk hother hpk')).symm.trans hcanon')
      exact eq_of_key hrow hother (hid.trans hid'.symm)
    · exact absurd (hfinal.old hother hpk').2
        (staleRow_ne_of_renewed hpk' hcanon' (hid ▸ hpk))
  · obtain ⟨hold, hkept⟩ := hfinal.old hrow hpk
    by_cases hid : id ∈ newIds next change
    · exact absurd hkept (staleRow_ne_of_renewed hpk hcanon hid)
    · have hpk' : other.pk ∉ newIds next change := by
        intro hin
        have heq := canonical?_chunk (hfinal.chunk hother hin)
        exact hid (some.inj (heq.symm.trans hcanon') ▸ hin)
      refine h.unique row hold other (hfinal.old hother hpk').1 id hcanon hcanon' ?_
      rintro source rfl
      exact absurd (subgraph_mem_newIds.mpr (hlisted source rfl)) hid

theorem persisted_of_final (hnames : NamesValid prev) (hcovers : Covers prev next change)
    (hremovals : RemovalsHold next change) (h : Persisted rows prev)
    (hfinal : Final rows next change final) : Persisted final next where
  ids row hrow := by
    by_cases hpk : row.pk ∈ newIds next change
    · exact .inl (canonical?_chunk (hfinal.chunk hrow hpk))
    · exact h.ids row (hfinal.old hrow hpk).1
  unique := hfinal.unique h
  checkpoint := by
    obtain ⟨row, hchunk, hpk, hget⟩ := hfinal.new _ checkpoint_mem_newIds
    have hrow : row = checkpointChunk next := eq_checkpointChunk hchunk hpk
    exact ⟨row, mem_of_get? hget, by rw [hrow]; rfl, by rw [hrow]; rfl⟩
  subgraphs source hsource := by
    obtain ⟨row, hchunk, hpk, hget⟩ := hfinal.new _ (subgraph_mem_newIds.mpr hsource)
    refine ⟨row, mem_of_get? hget, ?_⟩
    rw [canonical?_chunk hchunk, hpk]
  entities name attrs hnode := by
    by_cases hempty : change.nonempty = true
    · have hhas : next.hasNode name = true := Graph.hasNode_iff.mpr ⟨attrs, hnode⟩
      obtain ⟨row, hchunk, hpk, hget⟩ := hfinal.new _ (entity_mem_newIds.mpr ⟨hempty, hhas⟩)
      refine ⟨row, mem_of_get? hget, ?_⟩
      rcases mem_chunks.mp hchunk with ⟨source, -, rfl⟩ | ⟨-, node, hin, rfl⟩ |
          ⟨pair, -, attrs', -, rfl⟩ | rfl
      · cases hpk
      · rw [eq_of_key hin hnode (Id.entity.inj hpk)]
        rfl
      · cases hpk
      · cases hpk
    · rw [Bool.not_eq_true] at hempty
      obtain ⟨row, hrow, hcont⟩ :=
        h.entities name attrs (Covers.sameNode hcovers hempty hnode)
      exact ⟨row, hfinal.stays hrow (entity_kept hnames hcovers h hempty hnode hrow hcont),
        hcont⟩
  relations pair attrs hedge := by
    by_cases hlisted : ∃ listed ∈ change.addedUpdatedEdges, getFromTo listed.1 listed.2 = pair
    · have hhas : next.hasEdge pair = true := Graph.hasEdge_iff.mpr ⟨attrs, hedge⟩
      obtain ⟨row, hchunk, hpk, hget⟩ := hfinal.new _ (relation_mem_newIds.mpr ⟨hhas, hlisted⟩)
      refine ⟨row, mem_of_get? hget, ?_⟩
      rcases mem_chunks.mp hchunk with ⟨source, -, rfl⟩ | ⟨-, node, -, rfl⟩ |
          ⟨listed, -, attrs', hattrs, rfl⟩ | rfl
      · cases hpk
      · cases hpk
      · have hpair : getFromTo listed.1 listed.2 = pair := Id.relation.inj hpk
        have hin := edgeData_eq_some.mp hattrs
        rw [hpair] at hin
        have heq := eq_of_key hin hedge rfl
        refine ⟨listed.1, listed.2, ?_, hpair⟩
        rw [← (Prod.mk.inj heq).2]
        rfl
      · cases hpk
    · have hold : (pair, attrs) ∈ prev.edges := by
        by_contra hnew
        exact hlisted (hcovers.addedEdges pair attrs hedge hnew)
      obtain ⟨row, hrow, source, target, hcont, hpair⟩ := h.relations pair attrs hold
      exact ⟨row, hfinal.stays hrow
        (relation_kept hnames hremovals h hold hedge hlisted hrow hcont hpair),
        source, target, hcont, hpair⟩
  present row hrow := by
    by_cases hpk : row.pk ∈ newIds next change
    · exact presentIn_chunk (hfinal.chunk hrow hpk)
    · exact presentIn_of_kept hpk (hfinal.old hrow hpk).2

end MultiRag.GraphRag
