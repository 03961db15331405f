/-
  **Merging subgraphs in any order.**

  A merge writes the rank of every node last, so each is its degree once anything has
  been merged.
-/
import MultiRag.GraphRestartOnce

namespace MultiRag.GraphRag

open List

variable {A : ExactSums}

/-! ### The fold -/

def mergeChange (change : GraphChange) (sub : Graph) : GraphChange :=
  { change with
    addedUpdatedNodes := change.addedUpdatedNodes ++ sub.nodes.rows.map Prod.fst
    addedUpdatedEdges := change.addedUpdatedEdges ++ sub.edges.rows.map Prod.fst }

def noChange : GraphChange := ⟨[], [], [], []⟩

def graphMergeStep (A : ExactSums) (merged : Graph × GraphChange) (sub : Graph) : Option (Graph × GraphChange) :=
  (graphMerge A merged.1 sub).map fun g => (g, mergeChange merged.2 sub)

def graphMergeAll (A : ExactSums) (base : Graph) (subs : List Graph) : Option (Graph × GraphChange) :=
  subs.foldlM (graphMergeStep A) (base, noChange)

def Graph.Ranked (g : Graph) : Prop := ∀ node ∈ g.nodes, node.2.field? "rank" = some (.int (g.degree node.1))

structure NamesMerged (change : GraphChange) (subs : List Graph) : Prop where
  nodes : ∀ name, name ∈ change.addedUpdatedNodes ↔ ∃ sub ∈ subs, sub.hasNode name = true
  edges : ∀ pair, pair ∈ change.addedUpdatedEdges ↔ ∃ sub ∈ subs, sub.hasEdge pair = true
  removedNodes : change.removedNodes = []
  removedEdges : change.removedEdges = []

theorem ranked_graphMerge {g1 g2 g : Graph} (h : graphMerge A g1 g2 = some g) : g.Ranked := by
  rw [graphMerge] at h
  split at h
  · obtain rfl := Option.some.inj h
    intro node hnode
    obtain ⟨old, hold, rfl⟩ := mem_map.mp hnode
    rw [Attrs.field?_set, if_pos rfl]
    rfl
  · cases h

theorem mem_keys_iff {ρ κ : Type} [DecidableEq κ] {t : Table (κ × ρ) Prod.fst} {k : κ} :
    k ∈ t.rows.map Prod.fst ↔ (t.get? k).isSome = true := by
  rw [Option.isSome_iff_exists, mem_map]
  constructor
  · rintro ⟨row, hrow, rfl⟩
    exact ⟨row, Table.get?_of_mem hrow⟩
  · rintro ⟨row, hrow⟩
    exact ⟨row, Table.mem_of_get? hrow, Table.key_of_get? hrow⟩

variable {change : GraphChange}

theorem NamesMerged.step {before : List Graph} (h : NamesMerged change before) (sub : Graph) :
    NamesMerged (mergeChange change sub) (before ++ [sub]) := { h with
  nodes name := by
    rw [mergeChange, mem_append, h.nodes, mem_keys_iff]
    simp [or_and_right, exists_or, Graph.hasNode]
  edges pair := by
    rw [mergeChange, mem_append, h.edges, mem_keys_iff]
    simp [or_and_right, exists_or, Graph.hasEdge] }

theorem foldlM_graphMergeStep {subs : List Graph} (hsubs : ∀ sub ∈ subs, sub.Valid A) (before : List Graph)
    {g : Graph} (hg : g.Valid A) (hchange : NamesMerged change before) :
    ∃ g' change', subs.foldlM (graphMergeStep A) (g, change) = some (g', change') ∧ g'.Valid A ∧
      graphContent A g' = graphContent A g + (subs.map (graphContent A)).sum ∧
      g'.documents = g.documents ++ subs.flatMap Graph.documents ∧
      NamesMerged change' (before ++ subs) ∧ (subs ≠ [] → g'.Ranked) := by
  induction subs generalizing before g change with
  | nil => exact ⟨g, change, rfl, hg, by simp, by simp, by simpa using hchange, fun hne => absurd rfl hne⟩
  | cons sub subs ih =>
    rw [forall_mem_cons] at hsubs
    obtain ⟨next, hnext, hvalid, hdocs, hcont⟩ := graphContent_merge hg hsubs.1
    obtain ⟨g', change', hrun, hvalid', hcont', hdocs', hnames, hranked⟩ :=
      ih hsubs.2 (before ++ [sub]) hvalid (hchange.step sub)
    refine ⟨g', change', ?_, hvalid', ?_, ?_, ?_, ?_⟩
    · rw [foldlM_cons, graphMergeStep, hnext]
      exact hrun
    · rw [hcont', hcont, map_cons, sum_cons, add_assoc]
    · rw [hdocs', hdocs, flatMap_cons, append_assoc]
    · rwa [append_assoc] at hnames
    · intro _
      by_cases hnil : subs = []
      · subst hnil
        obtain ⟨rfl, rfl⟩ := Prod.mk.inj (Option.some.inj hrun)
        exact ranked_graphMerge hnext
      · exact hranked hnil

/-- Two orders of the same subgraphs give the same nodes and edges with the same weights,
    sources, keywords and description parts; the change names the merged nodes and edges;
    and once anything has been merged the rank of every node is its degree. -/
theorem graphMergeAll_perm {base : Graph} {subs subs' : List Graph} (hbase : base.Valid A)
    (hsubs : ∀ sub ∈ subs, sub.Valid A) (hperm : subs.Perm subs') :
    ∃ g change g' change', graphMergeAll A base subs = some (g, change) ∧
      graphMergeAll A base subs' = some (g', change') ∧
      (∀ name, g.hasNode name = g'.hasNode name) ∧ (∀ pair, g.hasEdge pair = g'.hasEdge pair) ∧
      graphContent A g = graphContent A g' ∧ g.documents.Perm g'.documents ∧
      NamesMerged change subs ∧ NamesMerged change' subs ∧ (subs ≠ [] → g.Ranked ∧ g'.Ranked) := by
  have hnone : NamesMerged noChange [] := ⟨by simp [noChange], by simp [noChange], rfl, rfl⟩
  have hsubs' : ∀ sub ∈ subs', sub.Valid A := fun sub hsub => hsubs sub (hperm.mem_iff.mpr hsub)
  obtain ⟨g, change, hrun, -, hcontent, hdocuments, hnames, hranked⟩ := foldlM_graphMergeStep hsubs [] hbase hnone
  obtain ⟨g', change', hrun', -, hcontent', hdocuments', hnames', hranked'⟩ :=
    foldlM_graphMergeStep hsubs' [] hbase hnone
  have hsame : graphContent A g = graphContent A g' := by
    rw [hcontent, hcontent', (hperm.map (graphContent A)).sum_eq]
  refine ⟨g, change, g', change', hrun, hrun', ?_, ?_, hsame, ?_, hnames, ?_, ?_⟩
  · intro name
    have hnode : nodeContent g name = nodeContent g' name := congrFun (congrArg Prod.fst hsame) name
    rw [Bool.eq_iff_iff, hasNode_iff_content, hasNode_iff_content, hnode]
  · intro pair
    have hedge : edgeContent A g pair = edgeContent A g' pair := congrFun (congrArg Prod.snd hsame) pair
    rw [Bool.eq_iff_iff, hasEdge_iff_content A, hasEdge_iff_content A, hedge]
  · rw [hdocuments, hdocuments']
    exact (hperm.flatMap_right _).append_left _
  · have hmerged : ∀ sub, sub ∈ subs' ↔ sub ∈ subs := fun sub => hperm.symm.mem_iff
    rw [nil_append] at hnames'
    exact ⟨by simpa [hmerged] using hnames'.nodes, by simpa [hmerged] using hnames'.edges, hnames'.removedNodes,
      hnames'.removedEdges⟩
  · intro hne
    have hne' : subs' ≠ [] := by
      rintro rfl
      exact hne hperm.eq_nil
    exact ⟨hranked hne, hranked' hne'⟩

/-! ### One entity of two documents -/

theorem graphMergeAll_perm_entity :
    ∃ g change g' change',
      graphMergeAll integers (oneEntity "a" "x") [oneEntity "b" "y", oneEntity "c" "z"] = some (g, change) ∧
      graphMergeAll integers (oneEntity "a" "x") [oneEntity "c" "z", oneEntity "b" "y"] = some (g', change') ∧
      graphContent integers g = graphContent integers g' ∧ g.Ranked := by
  have hsubs : ∀ sub ∈ [oneEntity "b" "y", oneEntity "c" "z"], sub.Valid integers := by
    simp only [forall_mem_cons]
    exact ⟨(oneEntity_ofDocument "b" "y").valid, (oneEntity_ofDocument "c" "z").valid, by simp⟩
  obtain ⟨g, change, g', change', hrun, hrun', -, -, hcontent, -, -, -, hranked⟩ :=
    graphMergeAll_perm (oneEntity_ofDocument "a" "x").valid hsubs (Perm.swap _ _ [])
  exact ⟨g, change, g', change', hrun, hrun', hcontent, (hranked (by simp)).1⟩

/-- Where nothing is merged, the base graph stays, and so does what it has for a rank. -/
theorem unranked_base :
    graphMergeAll integers (oneEntity "a" "x") [] = some (oneEntity "a" "x", noChange) ∧
      ¬ (oneEntity "a" "x").Ranked := by
  refine ⟨rfl, ?_⟩
  intro hranked
  have hrank := hranked _ (mem_singleton_self _)
  revert hrank
  simp [Attrs.field?, Table.get?, Table.single]

end MultiRag.GraphRag
