/-
  **What a rebuild without some documents contains.**

  The subgraph of a document holds its nodes and every edge between two of them; the
  documents of an edge are stored and not read. Subgraph rows of documents that the
  stored graph does not list are kept by pruning and composed as well; `ForeignSound`
  says when they add nothing.
-/
import MultiRag.GraphSetGraph

namespace MultiRag.GraphRag

open Table List

/-- A graph whose provenance is closed: the documents of an edge are documents of both its
    endpoints, and those of a node are documents of the graph. -/
structure KnowledgeGraph extends Graph where
  edgeSources : ∀ e ∈ edges, ∀ source ∈ e.2.sources,
    toGraph.supports source e.1.1 = true ∧ toGraph.supports source e.1.2 = true
  nodeSources : ∀ node ∈ nodes, ∀ source ∈ node.2.sources, source ∈ documents

def expectedNode (g : Graph) (excluded : List String) (name : String) : Bool :=
  (g.nodes.get? name).any fun node => node.2.sources.any fun source => !excluded.contains source

def expectedEdge (g : Graph) (excluded : List String) (pair : String × String) : Bool :=
  (g.edges.get? pair).any fun edge => edge.2.sources.any fun source => !excluded.contains source

def RebuildsExactly (rows : List Row) (g : Graph) (excluded : List String) : Prop :=
  (∃ r, rebuildGraph rows excluded = .ok r) ∧
    (∀ name, rebuiltNode rows excluded name = expectedNode g excluded name) ∧
    ∀ pair, rebuiltEdge rows excluded pair = expectedEdge g excluded pair

/-- A live subgraph row of the store before, of documents that the graph does not list, whose
    id no new row has. -/
def Foreign (rows : List Row) (g : Graph) (change : GraphChange) (excluded : List String)
    (c : Candidate) : Prop :=
  Live rows excluded c ∧ c.pk ∉ newIds g change ∧ ∃ source ∈ c.sources, source ∉ g.documents

/-- The foreign rows have one checkpoint for each document, and hold nothing that is not
    expected. -/
structure ForeignSound (rows : List Row) (g : Graph) (change : GraphChange)
    (excluded : List String) : Prop where
  single : ∀ c, Foreign rows g change excluded c → ∃ source, c.sources = [source]
  checkpointed : ∀ c source, Foreign rows g change excluded c → source ∈ c.sources →
    ∃ c', Selected (Foreign rows g change excluded) source c'
  nodes : ∀ c source, Selected (Foreign rows g change excluded) source c →
    ∀ name, c.data.hasNode name = true → expectedNode g excluded name = true
  edges : ∀ c source, Selected (Foreign rows g change excluded) source c →
    ∀ pair, c.data.hasEdge pair = true → expectedEdge g excluded pair = true

/-- An edge whose endpoints share a document that is not excluded has itself such a
    document. -/
def EdgesSound (g : Graph) (excluded : List String) : Prop :=
  ∀ pair, g.hasEdge pair = true → ∀ source, source ∉ excluded →
    g.supports source pair.1 = true → g.supports source pair.2 = true →
      expectedEdge g excluded pair = true

/-! ### What is expected -/

variable {g : Graph} {change : GraphChange} {excluded : List String}

theorem expectedNode_iff {name : String} :
    expectedNode g excluded name = true ↔
      ∃ source, source ∉ excluded ∧ g.supports source name = true := by
  unfold expectedNode Graph.supports
  cases g.nodes.get? name with
  | none => simp
  | some node => simp [and_comm]

theorem expectedEdge_iff {pair : String × String} :
    expectedEdge g excluded pair = true ↔
      ∃ attrs, (pair, attrs) ∈ g.edges ∧ ∃ source ∈ attrs.sources, source ∉ excluded := by
  rw [expectedEdge, Option.any_eq_true]
  constructor
  · rintro ⟨⟨pair', attrs⟩, hget, hany⟩
    obtain ⟨hmem, hkey⟩ := get?_eq_some.mp hget
    exact ⟨attrs, hkey ▸ hmem, by simpa using hany⟩
  · rintro ⟨attrs, hmem, hany⟩
    exact ⟨_, get?_of_mem hmem, by simpa using hany⟩

variable {source : String}

theorem KnowledgeGraph.listed (g : KnowledgeGraph) {name : String}
    (h : g.supports source name = true) : source ∈ g.documents := by
  obtain ⟨attrs, hmem, hsource⟩ := Graph.supports_iff.mp h
  exact g.nodeSources _ hmem source hsource

/-! ### The rows that a rebuild reads -/

def ownCandidate (g : Graph) (source : String) : Candidate :=
  ⟨[source], .subgraph source, g.perDocument source⟩

theorem candidate?_subgraphChunk :
    (subgraphChunk g source).candidate? excluded =
      if source ∈ excluded then none else some (ownCandidate g source) := by
  simp [Row.candidate?, Row.subgraph?, subgraphChunk, ownCandidate]

variable {c : Candidate}

theorem candidate?_sources {row : Row} (h : row.candidate? excluded = some c) :
    row.content = .subgraph c.sources c.data := by
  unfold Row.candidate? at h
  split at h
  · cases h
  · next sources data hrow =>
    split at h
    · cases h
    · cases h
      unfold Row.subgraph? at hrow
      split at hrow
      · next heq => simpa [heq] using hrow
      · cases hrow

theorem candidate?_new {row : Row}
    (hrow : row ∈ auxiliaryChunks g change ++ [checkpointChunk g])
    (h : row.candidate? excluded = some c) :
    ∃ source ∈ g.documents, source ∉ excluded ∧ c = ownCandidate g source := by
  rcases mem_chunks.mp hrow with ⟨source, hsource, rfl⟩ | ⟨-, node, -, rfl⟩ |
      ⟨pair, -, attrs, -, rfl⟩ | rfl
  · rw [candidate?_subgraphChunk] at h
    split at h
    · cases h
    · next hout => exact ⟨source, hsource, hout, (Option.some.inj h).symm⟩
  · cases h
  · cases h
  · cases h

theorem live_completed {rows final : Store} (hfinal : Completed rows g change final)
    (c : Candidate) :
    Live final.rows excluded c ↔
      (∃ source ∈ g.documents, source ∉ excluded ∧ c = ownCandidate g source) ∨
        Foreign rows.rows g change excluded c := by
  constructor
  · rintro ⟨row, hrow, hc⟩
    have hget : final.get? row.pk = some row := get?_of_mem hrow
    by_cases hnew : row.pk ∈ newIds g change
    · obtain ⟨row', hrow', hpk, hget'⟩ := hfinal.new _ hnew
      obtain rfl : row = row' := Option.some.inj (hget.symm.trans hget')
      exact .inl (candidate?_new hrow' hc)
    · obtain ⟨hold, hkept⟩ := (hfinal.kept _ hnew row).mp hget
      refine .inr ⟨⟨row, mem_of_get? hold, hc⟩, ?_, ?_⟩
      · rw [candidate?_pk hc]
        exact hnew
      · unfold staleRow at hkept
        rw [if_neg (mt contains_iff_mem.mp hnew), candidate?_sources hc] at hkept
        simpa using hkept
  · rintro (⟨source, hsource, hout, rfl⟩ | ⟨⟨row, hrow, hc⟩, hnew, source, hsource, hforeign⟩)
    · have hin : Id.subgraph source ∈ newIds g change :=
        mem_newIds.mpr ⟨subgraphChunk g source, mem_chunks.mpr (.inl ⟨source, hsource, rfl⟩), rfl⟩
      obtain ⟨row, hrow, hpk, hget⟩ := hfinal.new _ hin
      have hrowEq : row = subgraphChunk g source := by
        rcases mem_chunks.mp hrow with ⟨source', -, rfl⟩ | ⟨-, node, -, rfl⟩ |
            ⟨pair, -, attrs, -, rfl⟩ | rfl
        · rw [Id.subgraph.inj hpk]
        · cases hpk
        · cases hpk
        · cases hpk
      refine ⟨row, mem_of_get? hget, ?_⟩
      rw [hrowEq, candidate?_subgraphChunk, if_neg hout]
    · rw [candidate?_pk hc] at hnew
      have hkept : staleRow g change (canonicalIn g change rows.rows) row = .ok false := by
        unfold staleRow
        rw [if_neg (mt contains_iff_mem.mp hnew), candidate?_sources hc]
        simpa using ⟨source, hsource, hforeign⟩
      exact ⟨row, mem_of_get? ((hfinal.kept _ hnew row).mpr
        ⟨get?_of_mem hrow, hkept⟩), hc⟩

variable {rows final : Store}

theorem ownCandidate_ne_foreign {source' : String}
    (hsource : source ∈ g.documents) (hc : Foreign rows.rows g change excluded c)
    (hown : c.sources = [source']) : source ≠ source' := by
  rintro rfl
  obtain ⟨-, -, listed, hin, hout⟩ := hc
  rw [hown, mem_singleton] at hin
  exact hout (hin ▸ hsource)

theorem selected_completed (hfinal : Completed rows g change final) :
    Selected (Live final.rows excluded) source c ↔
      (source ∈ g.documents ∧ source ∉ excluded ∧ c = ownCandidate g source) ∨
        Selected (Foreign rows.rows g change excluded) source c := by
  constructor
  · rintro ⟨hlive, hown, hchosen⟩
    rcases (live_completed hfinal c).mp hlive with ⟨source', hsource, hout, rfl⟩ | hforeign
    · obtain rfl : source' = source := singleton_inj.mp hown
      exact .inl ⟨hsource, hout, rfl⟩
    · refine .inr ⟨hforeign, hown, ?_⟩
      refine hchosen.imp_right fun hall c' hc' => ?_
      exact hall c' ((live_completed hfinal c').mpr (.inr hc'))
  · rintro (⟨hsource, hout, rfl⟩ | ⟨hforeign, hown, hchosen⟩)
    · exact ⟨(live_completed hfinal _).mpr (.inl ⟨source, hsource, hout, rfl⟩), rfl, .inl rfl⟩
    · refine ⟨(live_completed hfinal c).mpr (.inr hforeign), hown, ?_⟩
      refine hchosen.imp_right fun hall c' hlive hown' => ?_
      rcases (live_completed hfinal c').mp hlive with ⟨source', hsource, -, rfl⟩ | hforeign'
      · exact absurd (singleton_inj.mp hown') (ownCandidate_ne_foreign hsource hforeign hown)
      · exact hall c' hforeign' hown'

theorem rebuildGraph_completed (hfinal : Completed rows g change final) :
    (∃ r, rebuildGraph final.rows excluded = .ok r) ↔
      (∀ c, Foreign rows.rows g change excluded c → ∃ source, c.sources = [source]) ∧
        ∀ c source, Foreign rows.rows g change excluded c → source ∈ c.sources →
          ∃ c', Selected (Foreign rows.rows g change excluded) source c' := by
  rw [rebuildGraph_ok_iff]
  constructor
  · rintro ⟨hsingle, hsel⟩
    have hone : ∀ c, Foreign rows.rows g change excluded c → ∃ source, c.sources = [source] :=
      fun c hc => hsingle c ((live_completed hfinal c).mpr (.inr hc))
    refine ⟨hone, fun c source hc hin => ?_⟩
    obtain ⟨c', hc'⟩ := hsel c source ((live_completed hfinal c).mpr (.inr hc)) hin
    rcases (selected_completed hfinal).mp hc' with ⟨hsource, -, -⟩ | hforeign
    · obtain ⟨source', hown⟩ := hone c hc
      rw [hown, mem_singleton] at hin
      exact absurd hin (ownCandidate_ne_foreign hsource hc hown)
    · exact ⟨c', hforeign⟩
  · rintro ⟨hsingle, hsel⟩
    refine ⟨fun c hlive => ?_, fun c source hlive hin => ?_⟩
    · rcases (live_completed hfinal c).mp hlive with ⟨source, -, -, rfl⟩ | hc
      · exact ⟨source, rfl⟩
      · exact hsingle c hc
    · rcases (live_completed hfinal c).mp hlive with ⟨source', hsource, hout, rfl⟩ | hc
      · obtain rfl : source = source' := mem_singleton.mp hin
        exact ⟨_, (selected_completed hfinal).mpr (.inl ⟨hsource, hout, rfl⟩)⟩
      · obtain ⟨c', hc'⟩ := hsel c source hc hin
        exact ⟨c', (selected_completed hfinal).mpr (.inr hc')⟩

section

variable {g : KnowledgeGraph} (hfinal : Completed rows g.toGraph change final)
  (hok : ∃ r, rebuildGraph final.rows excluded = .ok r)
include hfinal hok

theorem rebuiltNode_completed {name : String} :
    rebuiltNode final.rows excluded name = true ↔
      expectedNode g.toGraph excluded name = true ∨
        ∃ source c, Selected (Foreign rows.rows g.toGraph change excluded) source c ∧
          c.data.hasNode name = true := by
  rw [rebuiltNode_iff hok, expectedNode_iff]
  constructor
  · rintro ⟨source, c, hsel, hname⟩
    rcases (selected_completed hfinal).mp hsel with ⟨-, hout, rfl⟩ | hforeign
    · exact .inl ⟨source, hout, Graph.hasNode_perDocument.mp hname⟩
    · exact .inr ⟨source, c, hforeign, hname⟩
  · rintro (⟨source, hout, hname⟩ | ⟨source, c, hforeign, hname⟩)
    · exact ⟨source, ownCandidate g.toGraph source,
        (selected_completed hfinal).mpr (.inl ⟨g.listed hname, hout, rfl⟩),
        Graph.hasNode_perDocument.mpr hname⟩
    · exact ⟨source, c, (selected_completed hfinal).mpr (.inr hforeign), hname⟩

variable {pair : String × String}

theorem rebuiltEdge_completed :
    rebuiltEdge final.rows excluded pair = true ↔
      (g.hasEdge pair = true ∧ ∃ source, source ∉ excluded ∧
        g.supports source pair.1 = true ∧ g.supports source pair.2 = true) ∨
        ∃ source c, Selected (Foreign rows.rows g.toGraph change excluded) source c ∧
          c.data.hasEdge pair = true := by
  rw [rebuiltEdge_iff hok]
  constructor
  · rintro ⟨source, c, hsel, hpair⟩
    rcases (selected_completed hfinal).mp hsel with ⟨-, hout, rfl⟩ | hforeign
    · obtain ⟨hedge, hboth⟩ := Graph.hasEdge_perDocument.mp hpair
      exact .inl ⟨hedge, source, hout, hboth⟩
    · exact .inr ⟨source, c, hforeign, hpair⟩
  · rintro (⟨hedge, source, hout, hfirst, hsecond⟩ | ⟨source, c, hforeign, hpair⟩)
    · exact ⟨source, ownCandidate g.toGraph source,
        (selected_completed hfinal).mpr (.inl ⟨g.listed hfirst, hout, rfl⟩),
        Graph.hasEdge_perDocument.mpr ⟨hedge, hfirst, hsecond⟩⟩
    · exact ⟨source, c, (selected_completed hfinal).mpr (.inr hforeign), hpair⟩

omit hfinal hok

theorem supported_of_expectedEdge
    (h : expectedEdge g.toGraph excluded pair = true) :
    g.hasEdge pair = true ∧ ∃ source, source ∉ excluded ∧
      g.supports source pair.1 = true ∧ g.supports source pair.2 = true := by
  obtain ⟨attrs, hmem, source, hsource, hout⟩ := expectedEdge_iff.mp h
  exact ⟨Graph.hasEdge_iff.mpr ⟨attrs, hmem⟩, source, hout, g.edgeSources _ hmem source hsource⟩

theorem rebuildsExactly_completed (hfinal : Completed rows g.toGraph change final) :
    RebuildsExactly final.rows g.toGraph excluded ↔
      EdgesSound g.toGraph excluded ∧ ForeignSound rows.rows g.toGraph change excluded := by
  constructor
  · rintro ⟨hok, hnodes, hedges⟩
    have hforeign := (rebuildGraph_completed hfinal).mp hok
    refine ⟨?_, hforeign.1, hforeign.2, ?_, ?_⟩
    · intro pair hedge source hout hfirst hsecond
      rw [← hedges pair]
      exact (rebuiltEdge_completed hfinal hok).mpr (.inl ⟨hedge, source, hout, hfirst, hsecond⟩)
    · intro c source hsel name hname
      rw [← hnodes name]
      exact (rebuiltNode_completed hfinal hok).mpr (.inr ⟨source, c, hsel, hname⟩)
    · intro c source hsel pair hpair
      rw [← hedges pair]
      exact (rebuiltEdge_completed hfinal hok).mpr (.inr ⟨source, c, hsel, hpair⟩)
  · rintro ⟨hsound, hforeign⟩
    have hok := (rebuildGraph_completed hfinal).mpr ⟨hforeign.single, hforeign.checkpointed⟩
    refine ⟨hok, fun name => Bool.eq_iff_iff.mpr ?_, fun pair => Bool.eq_iff_iff.mpr ?_⟩
    · rw [rebuiltNode_completed hfinal hok]
      refine ⟨?_, .inl⟩
      rintro (hexpected | ⟨source, c, hsel, hname⟩)
      · exact hexpected
      · exact hforeign.nodes c source hsel name hname
    · rw [rebuiltEdge_completed hfinal hok]
      constructor
      · rintro (⟨hedge, source, hout, hfirst, hsecond⟩ | ⟨source, c, hsel, hpair⟩)
        · exact hsound pair hedge source hout hfirst hsecond
        · exact hforeign.edges c source hsel pair hpair
      · exact fun hexpected => .inl (supported_of_expectedEdge hexpected)

def KnowledgeGraph.revised (g : KnowledgeGraph) (revision : String) : KnowledgeGraph :=
  { g with toGraph := g.toGraph.revised revision }

theorem foreignSound_revised (revision : String) :
    ForeignSound rows.rows (g.revised revision).toGraph change excluded ↔
      ForeignSound rows.rows g.toGraph change excluded := by
  have hforeign : Foreign rows.rows (g.revised revision).toGraph change excluded =
      Foreign rows.rows g.toGraph change excluded := by
    funext c
    rw [Foreign, Foreign, KnowledgeGraph.revised, newIds_revised]
    rfl
  constructor
  · rintro ⟨hsingle, hcheckpointed, hnodes, hedges⟩
    rw [hforeign] at hsingle hcheckpointed hnodes hedges
    exact ⟨hsingle, hcheckpointed, hnodes, hedges⟩
  · rintro ⟨hsingle, hcheckpointed, hnodes, hedges⟩
    rw [← hforeign] at hsingle hcheckpointed hnodes hedges
    exact ⟨hsingle, hcheckpointed, hnodes, hedges⟩

end

/-- After a run that ends, a rebuild contains exactly what the remaining documents support
    when every edge between two nodes of a remaining document has itself a remaining
    document, and the foreign rows add nothing. -/
theorem rebuilds_exactly_iff (g : KnowledgeGraph) (prep : Preparation) (rows : Store)
    (change : GraphChange) (revision : String) (excluded : List String)
    (hdone : (setGraph prep rows g.toGraph change revision).1 = .ok ()) :
    RebuildsExactly (setGraph prep rows g.toGraph change revision).2.rows g.toGraph excluded ↔
      EdgesSound g.toGraph excluded ∧ ForeignSound rows.rows g.toGraph change excluded := by
  rw [← foreignSound_revised revision]
  exact rebuildsExactly_completed (g := g.revised revision) (setGraph_completed hdone)

/-! ### An edge of one document between nodes of two -/

def twoDocuments : KnowledgeGraph where
  documents := ["d1", "d2"]
  revision := ""
  nodes := ⟨[("A", ⟨["d1", "d2"], .empty⟩), ("B", ⟨["d1", "d2"], .empty⟩)], by decide⟩
  edges := ⟨[(("A", "B"), ⟨["d1"], .empty⟩)], by decide⟩
  sorted := by decide
  joins := by decide
  edgeSources := by decide
  nodeSources := by decide

def firstChange : GraphChange := ⟨[], ["A", "B"], [], [("A", "B")]⟩

theorem rebuilds_exactly_sample :
    RebuildsExactly (setGraph prepared .empty twoDocuments.toGraph firstChange "r1").2.rows
        twoDocuments.toGraph ["d1"] ↔
      EdgesSound twoDocuments.toGraph ["d1"] ∧
        ForeignSound [] twoDocuments.toGraph firstChange ["d1"] :=
  rebuilds_exactly_iff twoDocuments prepared .empty firstChange "r1" ["d1"] (by decide +kernel)

/-- Without its only document the edge is rebuilt. -/
theorem edge_survives :
    (setGraph prepared .empty twoDocuments.toGraph firstChange "r1").1 = .ok () ∧
      ¬ RebuildsExactly (setGraph prepared .empty twoDocuments.toGraph firstChange "r1").2.rows
        twoDocuments.toGraph ["d1"] := by
  refine ⟨by decide +kernel, ?_⟩
  rintro ⟨-, -, hedges⟩
  have hpair := hedges ("A", "B")
  revert hpair
  decide +kernel


end MultiRag.GraphRag
