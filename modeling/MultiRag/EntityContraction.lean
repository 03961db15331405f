/-
  **One node merged into another.**

  What `_merge_graph_nodes` does for one node of a component: its edges to nodes outside
  are moved or merged, its edges to nodes inside go with it (`Contracted`), and the change
  tells every difference (`Tells`).
-/
import MultiRag.EntityMerging

namespace MultiRag.GraphRag

open List Table

/-! ### Updates of a graph -/

theorem getFromTo_eq_iff {a b c d : String} :
    getFromTo a b = getFromTo c d ↔ (a = c ∧ b = d) ∨ (a = d ∧ b = c) := by
  constructor
  · intro h
    rcases getFromTo_inj (p := (a, b)) (q := (c, d)) h with heq | heq
    · obtain ⟨rfl, rfl⟩ := Prod.mk.inj heq
      exact .inl ⟨rfl, rfl⟩
    · obtain ⟨rfl, rfl⟩ := Prod.mk.inj heq
      exact .inr ⟨rfl, rfl⟩
  · rintro (⟨rfl, rfl⟩ | ⟨rfl, rfl⟩)
    · rfl
    · exact getFromTo_comm a b

namespace Graph

variable {g : Graph} {name : String} {attrs : Attrs}

theorem edgeData_comm (g : Graph) (a b : String) : g.edgeData a b = g.edgeData b a := by
  rw [edgeData, edgeData, getFromTo_comm]

theorem edgeData_putEdge {source target : String} (h : g.hasNode source = true ∧ g.hasNode target = true)
    (a b : String) : (g.putEdge source target attrs h).edgeData a b =
      if getFromTo source target = getFromTo a b then some attrs else g.edgeData a b := by
  rw [edgeData, putEdge]
  simp only [get?_upsert]
  split
  · rfl
  · rfl

theorem edgeData_removeNode (g : Graph) (name a b : String) :
    (g.removeNode name).edgeData a b = if a = name ∨ b = name then none else g.edgeData a b := by
  rw [edgeData, removeNode, edgeData]
  simp only [get?_filter]
  rcases hedge : g.edges.get? (getFromTo a b) with - | edge
  · simp
  · have hkey : edge.1 = getFromTo a b := key_of_get? hedge
    have hends : (edge.1.1 ≠ name ∧ edge.1.2 ≠ name) ↔ ¬ (a = name ∨ b = name) := by
      rw [hkey, not_or]
      rcases getFromTo_eq a b with heq | heq
      · rw [heq]
      · rw [heq]
        exact And.comm
    by_cases hname : a = name ∨ b = name
    · have hnot : ¬ (edge.1.1 ≠ name ∧ edge.1.2 ≠ name) := fun h => hends.mp h hname
      rw [if_pos hname]
      simp [Option.filter, hnot]
    · have hyes := hends.mpr hname
      rw [if_neg hname]
      simp [Option.filter, hyes]

theorem hasNode_putNode (h : g.hasNode name = true) (other : String) :
    (g.putNode name attrs).hasNode other = g.hasNode other := by
  rw [hasNode, putNode]
  simp only [get?_upsert]
  split
  · next heq =>
    rw [← heq, h]
    rfl
  · rfl

theorem nodeData_putNode (g : Graph) (name other : String) (attrs : Attrs) :
    (g.putNode name attrs).nodeData other = if name = other then some attrs else g.nodeData other := by
  rw [nodeData, putNode]
  simp only [get?_upsert]
  split
  · rfl
  · rfl

theorem nodeData_removeNode (g : Graph) (name other : String) :
    (g.removeNode name).nodeData other = if name = other then none else g.nodeData other := by
  rw [nodeData, removeNode]
  simp only [get?_delete]
  split
  · rfl
  · rfl

theorem hasNode_iff_nodeData : g.hasNode name = true ↔ (g.nodeData name).isSome = true := by
  rw [hasNode, nodeData, Option.isSome_map]

theorem hasEdge_getFromTo {a b : String} : g.hasEdge (getFromTo a b) = true ↔ (g.edgeData a b).isSome = true := by
  rw [hasEdge, edgeData, Option.isSome_map]

theorem joins_of_edgeData {a b : String} (h : (g.edgeData a b).isSome = true) :
    g.hasNode a = true ∧ g.hasNode b = true := by
  have hjoins := joins_of_hasEdge (hasEdge_getFromTo.mpr h)
  rcases getFromTo_eq a b with heq | heq
  · rw [heq] at hjoins
    exact hjoins
  · rw [heq] at hjoins
    exact ⟨hjoins.2, hjoins.1⟩

variable {other : String}

theorem key_of_neighbor {edge : (String × String) × Attrs} (hedge : edge ∈ g.edges)
    (h : (if edge.1.1 = name then some edge.1.2 else if edge.1.2 = name then some edge.1.1 else none) = some other) :
    edge.1 = getFromTo name other := by
  have hsorted := g.sorted edge hedge
  split at h
  · next hfirst =>
    obtain rfl := Option.some.inj h
    rw [← hfirst, hsorted]
  · split at h
    · next hsecond =>
      obtain rfl := Option.some.inj h
      rw [← hsecond, getFromTo_comm, hsorted]
    · cases h

theorem mem_neighbors : other ∈ g.neighbors name ↔ (g.edgeData name other).isSome = true := by
  rw [neighbors, mem_filterMap, edgeData, Option.isSome_map, Option.isSome_iff_exists]
  constructor
  · rintro ⟨edge, hedge, hother⟩
    rw [← key_of_neighbor hedge hother]
    exact ⟨edge, get?_of_mem hedge⟩
  · rintro ⟨edge, hedge⟩
    refine ⟨edge, mem_of_get? hedge, ?_⟩
    have hkey : edge.1 = getFromTo name other := key_of_get? hedge
    rcases getFromTo_eq name other with heq | heq
    · rw [hkey, heq, if_pos rfl]
    · rw [hkey, heq]
      by_cases hloop : other = name
      · rw [if_pos hloop, hloop]
      · rw [if_neg hloop, if_pos rfl]

theorem nodup_neighbors (g : Graph) (name : String) : (g.neighbors name).Nodup := by
  have hrows : g.edges.rows.Nodup := Nodup.of_map _ g.edges.nodup
  rw [neighbors, Nodup, pairwise_filterMap]
  apply List.Pairwise.imp_of_mem _ hrows
  intro edge edge' hedge hedge' hne other hother other' hother'
  rintro rfl
  exact hne (eq_of_key hedge hedge' ((key_of_neighbor hedge hother).trans (key_of_neighbor hedge' hother').symm))

end Graph

/-! ### Attributes that are merged -/

/-- What a merge reads of an edge is there, with the type that takes it. -/
structure EdgeReady (A : ExactSums) (attrs : Attrs) : Prop where
  weight : (attrs.weight? A).isSome = true
  description : attrs.description?.isSome = true
  keywords : attrs.keywordTexts?.isSome = true

structure Graph.Ready (A : ExactSums) (g : Graph) : Prop where
  nodes : ∀ n attrs, g.nodeData n = some attrs → attrs.description?.isSome = true
  edges : ∀ a b attrs, g.edgeData a b = some attrs → EdgeReady A attrs

def weightOf (A : ExactSums) (edge? : Option Attrs) : ℚ := (edge?.bind fun attrs => attrs.weight? A).getD 0

def sourcesOf (edge? : Option Attrs) : List String := edge?.elim [] Attrs.sources

def keywordsOf (edge? : Option Attrs) : List String := edge?.elim [] Attrs.keywordTexts

/-- The edge that two edges, of which either may be missing, make together. -/
structure Adds (A : ExactSums) (x y z : Option Attrs) : Prop where
  isSome : z.isSome = true ↔ x.isSome = true ∨ y.isSome = true
  weight : weightOf A z = weightOf A x + weightOf A y
  sources : ∀ source, source ∈ sourcesOf z ↔ source ∈ sourcesOf x ∨ source ∈ sourcesOf y
  keywords : ∀ keyword, keyword ∈ keywordsOf z ↔ keyword ∈ keywordsOf x ∨ keyword ∈ keywordsOf y

variable {A : ExactSums} {x y z w : Option Attrs}

theorem adds_none_right (A : ExactSums) (x : Option Attrs) : Adds A x none x where
  isSome := by simp
  weight := by simp [weightOf]
  sources := by simp [sourcesOf]
  keywords := by simp [keywordsOf]

theorem adds_none_left (A : ExactSums) (y : Option Attrs) : Adds A none y y where
  isSome := by simp
  weight := by simp [weightOf]
  sources := by simp [sourcesOf]
  keywords := by simp [keywordsOf]

theorem Adds.trans {y' v : Option Attrs} (h : Adds A x y z) (h' : Adds A z y' w) (hy : Adds A y y' v) :
    Adds A x v w where
  isSome := by rw [h'.isSome, h.isSome, hy.isSome, or_assoc]
  weight := by rw [h'.weight, h.weight, hy.weight, add_assoc]
  sources source := by rw [h'.sources, h.sources, hy.sources, or_assoc]
  keywords keyword := by rw [h'.keywords, h.keywords, hy.keywords, or_assoc]

theorem jsonTexts_map_str (texts : List String) : jsonTexts (texts.map .str) = some texts := by
  rw [jsonTexts]
  induction texts with
  | nil => rfl
  | cons text texts ih =>
    rw [map_cons, mapM_cons, ih]
    rfl

namespace Merger

variable {M : Merger} {edge0 edge1 : Attrs} {weight : Json} {keywords : List String} {description : String}

theorem weight?_edgeOfBoth (A : ExactSums) :
    (edgeOfBoth edge0 edge1 weight keywords description).weight? A = A.value weight := by
  have hfield : (((edge0.set "weight" weight).set "keywords" (.arr ((sortedSet keywords).map .str))).set
      "description" (.str description)).field? "weight" = some weight := by
    simp [Attrs.field?_set]
  rw [Attrs.weight?]
  exact congrArg (fun field => field.bind A.value) hfield

theorem description?_edgeOfBoth :
    (edgeOfBoth edge0 edge1 weight keywords description).description? = some description :=
  Attrs.description?_set_description description

theorem keywordTexts?_edgeOfBoth :
    (edgeOfBoth edge0 edge1 weight keywords description).keywordTexts? = some (sortedSet keywords) := by
  have hset : (((edge0.set "weight" weight).set "keywords" (.arr ((sortedSet keywords).map .str))).set
      "description" (.str description)).keywords? = some ((sortedSet keywords).map .str) := by
    rw [Attrs.keywords?_set (by decide), Attrs.keywords?_set_keywords]
  rw [Attrs.keywordTexts?, ← jsonTexts_map_str]
  exact congrArg (fun keywords? => keywords?.bind jsonTexts) hset

theorem mergeEdges_adds (name : String) (h0 : EdgeReady M.sums edge0)
    (h1 : EdgeReady M.sums edge1) :
    ∃ attrs, M.mergeEdges name edge0 edge1 = some attrs ∧ EdgeReady M.sums attrs ∧
      Adds M.sums (some edge0) (some edge1) (some attrs) := by
  obtain ⟨w0, hw0⟩ := Option.isSome_iff_exists.mp h0.weight
  obtain ⟨w1, hw1⟩ := Option.isSome_iff_exists.mp h1.weight
  obtain ⟨weight0, hfield0, hvalue0⟩ := Option.bind_eq_some_iff.mp hw0
  obtain ⟨weight1, hfield1, hvalue1⟩ := Option.bind_eq_some_iff.mp hw1
  obtain ⟨description0, hdesc0⟩ := Option.isSome_iff_exists.mp h0.description
  obtain ⟨description1, hdesc1⟩ := Option.isSome_iff_exists.mp h1.description
  obtain ⟨keywords0, hkws0⟩ := Option.isSome_iff_exists.mp h0.keywords
  obtain ⟨keywords1, hkws1⟩ := Option.isSome_iff_exists.mp h1.keywords
  have hmerged : M.mergeEdges name edge0 edge1 =
      some (edgeOfBoth edge0 edge1 (M.sums.add weight0 weight1) (keywords0 ++ keywords1)
        (M.summary name (description0 ++ graphFieldSep ++ description1))) := by
    simp only [mergeEdges, hfield0, hfield1, hdesc0, hdesc1, hkws0, hkws1, hvalue0, hvalue1,
      Option.isSome_some, and_self, if_true]
  have hweight := M.sums.value_add hvalue0 hvalue1
  refine ⟨_, hmerged, ⟨?_, ?_, ?_⟩, ⟨by simp, ?_, ?_, ?_⟩⟩
  · rw [weight?_edgeOfBoth, hweight, Option.isSome_some]
  · rw [description?_edgeOfBoth, Option.isSome_some]
  · rw [keywordTexts?_edgeOfBoth, Option.isSome_some]
  · simp [weightOf, weight?_edgeOfBoth, hweight, hw0, hw1]
  · intro source
    simp [sourcesOf, edgeOfBoth, mem_sortedSet]
  · intro keyword
    simp [keywordsOf, Attrs.keywordTexts, keywordTexts?_edgeOfBoth, hkws0, hkws1, mem_sortedSet]

end Merger

/-! ### What a change tells -/

/-- A difference that is told: what is gone is removed, what is there is added or updated. -/
def Told (removed updated : Prop) (old new : Option Attrs) : Prop :=
  new = old ∨ (new = none ∧ removed) ∨ (new.isSome = true ∧ updated)

theorem Told.trans {removed updated removed' updated' : Prop} {old mid new : Option Attrs}
    (h : Told removed updated old mid) (h' : Told removed' updated' mid new)
    (hrem : removed → removed') (hupdated : updated → updated') : Told removed' updated' old new := by
  rcases h' with rfl | h'
  · rcases h with h | h | h
    · exact .inl h
    · exact .inr (.inl ⟨h.1, hrem h.2⟩)
    · exact .inr (.inr ⟨h.1, hupdated h.2⟩)
  · exact .inr h'

structure Tells (change : GraphChange) (g g' : Graph) : Prop where
  nodes : ∀ n, Told (n ∈ change.removedNodes) (n ∈ change.addedUpdatedNodes) (g.nodeData n) (g'.nodeData n)
  edges : ∀ a b, Told (getFromTo a b ∈ change.removedEdges) (getFromTo a b ∈ change.addedUpdatedEdges)
    (g.edgeData a b) (g'.edgeData a b)

structure Extends (change change' : GraphChange) : Prop where
  removedNodes : change.removedNodes ⊆ change'.removedNodes
  addedUpdatedNodes : change.addedUpdatedNodes ⊆ change'.addedUpdatedNodes
  removedEdges : change.removedEdges ⊆ change'.removedEdges
  addedUpdatedEdges : change.addedUpdatedEdges ⊆ change'.addedUpdatedEdges

theorem Extends.refl (change : GraphChange) : Extends change change :=
  ⟨Subset.refl _, Subset.refl _, Subset.refl _, Subset.refl _⟩

variable {change change' : GraphChange}

theorem Extends.trans {change'' : GraphChange} (h : Extends change change')
    (h' : Extends change' change'') : Extends change change'' :=
  ⟨Subset.trans h.removedNodes h'.removedNodes, Subset.trans h.addedUpdatedNodes h'.addedUpdatedNodes,
    Subset.trans h.removedEdges h'.removedEdges,
    Subset.trans h.addedUpdatedEdges h'.addedUpdatedEdges⟩

theorem tells_refl (change : GraphChange) (g : Graph) : Tells change g g :=
  ⟨fun _ => .inl rfl, fun _ _ => .inl rfl⟩

theorem Tells.trans {g mid g' : Graph} (h : Tells change g mid) (h' : Tells change' mid g')
    (hextends : Extends change change') : Tells change' g g' where
  nodes n := (h.nodes n).trans (h'.nodes n) (fun hn => hextends.removedNodes hn)
    fun hn => hextends.addedUpdatedNodes hn
  edges a b := (h.edges a b).trans (h'.edges a b) (fun hpair => hextends.removedEdges hpair)
    fun hpair => hextends.addedUpdatedEdges hpair

theorem extends_removeEdge (change : GraphChange) (pair : String × String) :
    Extends change (change.removeEdge pair) :=
  ⟨Subset.refl _, Subset.refl _, subset_append_left _ _, Subset.refl _⟩

theorem extends_updateEdge (change : GraphChange) (pair : String × String) :
    Extends change (change.updateEdge pair) :=
  ⟨Subset.refl _, Subset.refl _, Subset.refl _, subset_append_left _ _⟩

/-! ### The neighbours of a merged node -/

namespace Merger

variable {M : Merger}

/-- What holds between the steps of a merge into the first node. -/
structure Running (A : ExactSums) (S : List String) (p : String) (st : Merging) : Prop where
  hasNode : st.graph.hasNode p = true
  neighbors : ∀ n, n ∉ S → (n ∈ st.node0Neighbors ↔ (st.graph.edgeData p n).isSome = true)
  ready : st.graph.Ready A

/-- The edges of `r` to the neighbours `ns` outside of the component have come to `p`. -/
structure Moves (A : ExactSums) (S : List String) (p r : String) (ns : List String) (st st' : Merging) :
    Prop where
  nodes : ∀ n, st'.graph.nodeData n = st.graph.nodeData n
  taken : ∀ n, n ∉ S →
    Adds A (st.graph.edgeData p n) (if n ∈ ns then st.graph.edgeData r n else none) (st'.graph.edgeData p n)
  rest : ∀ a b, ¬ (a = p ∧ b ∉ S) → ¬ (b = p ∧ a ∉ S) → st'.graph.edgeData a b = st.graph.edgeData a b
  removed : ∀ n ∈ ns, getFromTo r n ∈ st'.change.removedEdges
  extend : Extends st.change st'.change
  tells : Tells st'.change st.graph st'.graph

variable {S : List String} {p r : String} {st st' st'' : Merging}

theorem moves_nil (A : ExactSums) (S : List String) (p r : String) (st : Merging) : Moves A S p r [] st st where
  nodes _ := rfl
  taken n _ := by
    rw [if_neg not_mem_nil]
    exact adds_none_right A _
  rest _ _ _ _ := rfl
  removed n hn := absurd hn not_mem_nil
  extend := Extends.refl _
  tells := tells_refl _ _

variable {ns : List String}

theorem Moves.edgeData_merged (h : Moves A S p r ns st st') (hr : r ∈ S) (hpr : r ≠ p) (n : String) :
    st'.graph.edgeData r n = st.graph.edgeData r n := by
  refine h.rest r n ?_ ?_
  · rintro ⟨rfl, -⟩
    exact hpr rfl
  · rintro ⟨-, hr'⟩
    exact hr' hr

variable {n : String}

theorem Moves.cons (hr : r ∈ S) (hpr : r ≠ p) (hn : n ∉ ns)
    (h : Moves A S p r [n] st st') (h' : Moves A S p r ns st' st'') :
    Moves A S p r (n :: ns) st st'' where
  nodes m := by rw [h'.nodes, h.nodes]
  taken m hm := by
    have htaken := h.taken m hm
    have htaken' := h'.taken m hm
    rw [h.edgeData_merged hr hpr] at htaken'
    refine htaken.trans htaken' ?_
    by_cases hmn : m = n
    · subst hmn
      rw [if_pos (mem_singleton_self _), if_neg hn, if_pos mem_cons_self]
      exact adds_none_right A _
    · simp only [mem_cons, not_mem_nil, hmn, false_or, if_false]
      exact adds_none_left A _
  rest a b ha hb := by rw [h'.rest a b ha hb, h.rest a b ha hb]
  removed m hm := by
    rcases mem_cons.mp hm with rfl | hm
    · exact h'.extend.removedEdges (h.removed _ (mem_singleton_self _))
    · exact h'.removed m hm
  extend := h.extend.trans h'.extend
  tells := h.tells.trans h'.tells h'.extend

theorem takenEdge_adds (hst : Running M.sums S p st) (hn : n ∉ S) {edge1 : Attrs}
    (hedge1 : EdgeReady M.sums edge1) :
    ∃ attrs, M.takenEdge p st n edge1 = some attrs ∧ EdgeReady M.sums attrs ∧
      Adds M.sums (st.graph.edgeData p n) (some edge1) (some attrs) := by
  rw [takenEdge]
  by_cases hin : n ∈ st.node0Neighbors
  · rw [if_pos hin]
    obtain ⟨edge0, hedge0⟩ := Option.isSome_iff_exists.mp ((hst.neighbors n hn).mp hin)
    rw [hedge0]
    exact mergeEdges_adds _ (hst.ready.edges _ _ _ hedge0) hedge1
  · rw [if_neg hin]
    have hnone : st.graph.edgeData p n = none := by
      by_contra hne
      exact hin ((hst.neighbors n hn).mpr (Option.isSome_iff_ne_none.mpr hne))
    rw [hnone]
    exact ⟨edge1, rfl, hedge1, adds_none_left M.sums _⟩

theorem addEdge_of_hasNode {g : Graph} {a b : String} {attrs : Attrs} (h : g.hasNode a = true ∧ g.hasNode b = true) :
    g.addEdge a b attrs = some (g.putEdge a b attrs h) :=
  dif_pos h

theorem ready_putEdge {g : Graph} {a b : String} {attrs : Attrs} (hg : g.Ready A)
    (hattrs : EdgeReady A attrs) (h : g.hasNode a = true ∧ g.hasNode b = true) : (g.putEdge a b attrs h).Ready A where
  nodes := hg.nodes
  edges c d data hdata := by
    rw [Graph.edgeData_putEdge] at hdata
    split at hdata
    · obtain rfl := Option.some.inj hdata
      exact hattrs
    · exact hg.edges c d data hdata

theorem mergeNeighbor_moves (hst : Running M.sums S p st) (hp : p ∈ S) (hpr : r ≠ p)
    (hn : (st.graph.edgeData r n).isSome = true) :
    ∃ st', M.mergeNeighbor p r S st n = some st' ∧ Running M.sums S p st' ∧ Moves M.sums S p r [n] st st' := by
  by_cases hin : n ∈ S
  · refine ⟨{ st with change := st.change.removeEdge (getFromTo r n) }, ?_, ⟨hst.hasNode, hst.neighbors, hst.ready⟩,
      ⟨fun _ => rfl, ?_, fun _ _ _ _ => rfl, ?_, extends_removeEdge _ _, tells_refl _ _⟩⟩
    · rw [mergeNeighbor, if_pos hin]
    · intro m hm
      have hne : m ∉ [n] := by
        rw [mem_singleton]
        rintro rfl
        exact hm hin
      rw [if_neg hne]
      exact adds_none_right M.sums _
    · intro m hm
      rw [mem_singleton.mp hm]
      exact mem_append_right _ (mem_singleton_self _)
  · obtain ⟨edge1, hedge1⟩ := Option.isSome_iff_exists.mp hn
    obtain ⟨attrs, hattrs, hready, hadds⟩ := takenEdge_adds hst hin (hst.ready.edges _ _ _ hedge1)
    have hends : st.graph.hasNode p = true ∧ st.graph.hasNode n = true :=
      ⟨hst.hasNode, (Graph.joins_of_edgeData hn).2⟩
    have hkey : ∀ m, m ∉ S → (getFromTo p n = getFromTo p m ↔ m = n) := by
      intro m hm
      rw [getFromTo_eq_iff]
      constructor
      · rintro (⟨-, rfl⟩ | ⟨rfl, rfl⟩)
        · rfl
        · rfl
      · rintro rfl
        exact .inl ⟨rfl, rfl⟩
    refine ⟨{ graph := st.graph.putEdge p n attrs hends
              node0Neighbors := if n ∈ st.node0Neighbors then st.node0Neighbors else n :: st.node0Neighbors
              change := (st.change.removeEdge (getFromTo r n)).updateEdge (getFromTo p n) },
      ?_, ⟨hst.hasNode, ?_, ready_putEdge hst.ready hready hends⟩, ⟨fun _ => rfl, ?_, ?_, ?_, ?_, ?_⟩⟩
    · rw [mergeNeighbor]
      simp only [if_neg hin, hedge1, hattrs, Option.bind_some, addEdge_of_hasNode hends, Option.map_some]
    · intro m hm
      have hneighbors : (m ∈ if n ∈ st.node0Neighbors then st.node0Neighbors else n :: st.node0Neighbors) ↔
          m = n ∨ m ∈ st.node0Neighbors := by
        split
        · next hold =>
          refine (or_iff_right_of_imp ?_).symm
          rintro rfl
          exact hold
        · exact mem_cons
      simp only [hneighbors, Graph.edgeData_putEdge, hkey m hm, hst.neighbors m hm]
      by_cases hmn : m = n
      · simp [hmn]
      · simp [hmn]
    · intro m hm
      simp only [Graph.edgeData_putEdge, hkey m hm, mem_singleton]
      by_cases hmn : m = n
      · rw [if_pos hmn, if_pos hmn, hmn, hedge1]
        exact hadds
      · rw [if_neg hmn, if_neg hmn]
        exact adds_none_right M.sums _
    · intro a b ha hb
      refine (Graph.edgeData_putEdge hends a b).trans (if_neg ?_)
      rw [getFromTo_eq_iff]
      rintro (⟨rfl, rfl⟩ | ⟨rfl, rfl⟩)
      · exact ha ⟨rfl, hin⟩
      · exact hb ⟨rfl, hin⟩
    · intro m hm
      rw [mem_singleton.mp hm]
      exact mem_append_right _ (mem_singleton_self _)
    · exact (extends_removeEdge _ _).trans (extends_updateEdge _ _)
    · refine ⟨fun _ => .inl rfl, fun a b => ?_⟩
      simp only [Graph.edgeData_putEdge]
      by_cases heq : getFromTo p n = getFromTo a b
      · rw [if_pos heq, ← heq]
        exact .inr (.inr ⟨rfl, mem_append_right _ (mem_singleton_self _)⟩)
      · rw [if_neg heq]
        exact .inl rfl

theorem foldlM_mergeNeighbor (hp : p ∈ S) (hr : r ∈ S) (hpr : r ≠ p) (hns : ns.Nodup) (hst : Running M.sums S p st)
    (hedges : ∀ n ∈ ns, (st.graph.edgeData r n).isSome = true) :
    ∃ st', ns.foldlM (M.mergeNeighbor p r S) st = some st' ∧ Running M.sums S p st' ∧
      Moves M.sums S p r ns st st' := by
  induction ns generalizing st with
  | nil => exact ⟨st, rfl, hst, moves_nil M.sums S p r st⟩
  | cons n ns ih =>
    rw [nodup_cons] at hns
    rw [forall_mem_cons] at hedges
    obtain ⟨mid, hmid, hmidRunning, hmidMoves⟩ := mergeNeighbor_moves hst hp hpr hedges.1
    have hrest : ∀ m ∈ ns, (mid.graph.edgeData r m).isSome = true := by
      intro m hm
      rw [hmidMoves.edgeData_merged hr hpr]
      exact hedges.2 m hm
    obtain ⟨st', hrun, hrunning, hmoves⟩ := ih hns.2 hmidRunning hrest
    refine ⟨st', ?_, hrunning, hmidMoves.cons hr hpr hns.1 hmoves⟩
    rw [foldlM_cons, hmid]
    exact hrun

end Merger

/-! ### One node -/

/-- `r` has been merged into `p`: its edges to nodes outside of the component have come to `p`,
    and no other edge between the remaining nodes is different. -/
structure Contracted (A : ExactSums) (S : List String) (p r : String) (g g' : Graph) : Prop where
  nodes : ∀ n, g'.hasNode n = true ↔ g.hasNode n = true ∧ n ≠ r
  taken : ∀ n, n ∉ S → Adds A (g.edgeData p n) (g.edgeData r n) (g'.edgeData p n)
  rest : ∀ a b, a ≠ r → b ≠ r → ¬ (a = p ∧ b ∉ S) → ¬ (b = p ∧ a ∉ S) → g'.edgeData a b = g.edgeData a b

namespace Merger

variable {M : Merger}

theorem takenNode_of_ready {node0 node1 : Attrs} (h0 : node0.description?.isSome = true)
    (h1 : node1.description?.isSome = true) :
    ∃ attrs, takenNode node0 node1 = some attrs ∧ attrs.description?.isSome = true := by
  obtain ⟨description0, hdesc0⟩ := Option.isSome_iff_exists.mp h0
  obtain ⟨description1, hdesc1⟩ := Option.isSome_iff_exists.mp h1
  have htaken : takenNode node0 node1 = some
      { node0.set "description" (.str (description0 ++ graphFieldSep ++ description1)) with
        sources := sortedSet (node0.sources ++ node1.sources) } := by
    rw [takenNode, hdesc0, hdesc1]
  exact ⟨_, htaken, congrArg Option.isSome (Attrs.description?_set_description _)⟩

variable {g : Graph} {name : String}

theorem ready_putNode {attrs : Attrs} (hg : g.Ready A)
    (hattrs : attrs.description?.isSome = true) : (g.putNode name attrs).Ready A where
  nodes n data hdata := by
    rw [Graph.nodeData_putNode] at hdata
    split at hdata
    · obtain rfl := Option.some.inj hdata
      exact hattrs
    · exact hg.nodes n data hdata
  edges := hg.edges

theorem ready_removeNode (hg : g.Ready A) (name : String) :
    (g.removeNode name).Ready A where
  nodes n data hdata := by
    rw [Graph.nodeData_removeNode] at hdata
    split at hdata
    · cases hdata
    · exact hg.nodes n data hdata
  edges a b data hdata := by
    rw [Graph.edgeData_removeNode] at hdata
    split at hdata
    · cases hdata
    · exact hg.edges a b data hdata

theorem tells_putNode (h : name ∈ change.addedUpdatedNodes) (attrs : Attrs) :
    Tells change g (g.putNode name attrs) where
  nodes n := by
    rw [Graph.nodeData_putNode]
    split
    · next heq =>
      rw [← heq]
      exact .inr (.inr ⟨rfl, h⟩)
    · exact .inl rfl
  edges _ _ := .inl rfl

theorem tells_removeNode (h : name ∈ change.removedNodes)
    (hedges : ∀ n, (g.edgeData name n).isSome = true → getFromTo name n ∈ change.removedEdges) :
    Tells change g (g.removeNode name) where
  nodes n := by
    rw [Graph.nodeData_removeNode]
    split
    · next heq =>
      rw [← heq]
      exact .inr (.inl ⟨rfl, h⟩)
    · exact .inl rfl
  edges a b := by
    rw [Graph.edgeData_removeNode]
    split
    · next hends =>
      rcases hedge : g.edgeData a b with - | attrs
      · exact .inl rfl
      · refine .inr (.inl ⟨rfl, ?_⟩)
        rcases hends with rfl | rfl
        · exact hedges b (by rw [hedge, Option.isSome_some])
        · rw [getFromTo_comm]
          exact hedges a (by rw [Graph.edgeData_comm, hedge, Option.isSome_some])
    · exact .inl rfl

theorem mergeInto_contracts {S : List String} {p r : String} {st : Merging} (hst : Running M.sums S p st)
    (hp : p ∈ S) (hr : r ∈ S) (hpr : r ≠ p) (hnode : st.graph.hasNode r = true)
    (hupdated : p ∈ st.change.addedUpdatedNodes) (hrem : r ∈ st.change.removedNodes) :
    ∃ st', M.mergeInto p S st r = some st' ∧ Running M.sums S p st' ∧ Contracted M.sums S p r st.graph st'.graph ∧
      Extends st.change st'.change ∧ Tells st'.change st.graph st'.graph := by
  obtain ⟨attrs0, hattrs0⟩ := Option.isSome_iff_exists.mp (Graph.hasNode_iff_nodeData.mp hst.hasNode)
  obtain ⟨attrs1, hattrs1⟩ := Option.isSome_iff_exists.mp (Graph.hasNode_iff_nodeData.mp hnode)
  obtain ⟨attrs, hattrs, hdesc⟩ :=
    takenNode_of_ready (hst.ready.nodes _ _ hattrs0) (hst.ready.nodes _ _ hattrs1)
  -- the neighbours are those of the graph with the new attributes
  have hput : Running M.sums S p { st with graph := st.graph.putNode p attrs } :=
    ⟨by rw [Graph.hasNode_putNode hst.hasNode]; exact hst.hasNode, hst.neighbors, ready_putNode hst.ready hdesc⟩
  have hneighbors : ∀ n ∈ M.inOrder ((st.graph.putNode p attrs).neighbors r),
      ((st.graph.putNode p attrs).edgeData r n).isSome = true := by
    intro n hn
    exact Graph.mem_neighbors.mp ((M.perm _).mem_iff.mp hn)
  have hnodup := (M.perm _).nodup_iff.mpr (Graph.nodup_neighbors (st.graph.putNode p attrs) r)
  obtain ⟨st', hrun, hrunning, hmoves⟩ := foldlM_mergeNeighbor hp hr hpr hnodup hput hneighbors
  have htells : Tells st'.change (st.graph.putNode p attrs) (st'.graph.removeNode r) := by
    refine hmoves.tells.trans (tells_removeNode (hmoves.extend.removedNodes hrem) ?_) (Extends.refl _)
    intro n hn
    rw [hmoves.edgeData_merged hr hpr] at hn
    exact hmoves.removed n ((M.perm _).mem_iff.mpr (Graph.mem_neighbors.mpr hn))
  refine ⟨{ st' with graph := st'.graph.removeNode r }, ?_, ⟨?_, ?_, ready_removeNode hrunning.ready r⟩,
    ⟨?_, ?_, ?_⟩, hmoves.extend, (tells_putNode hupdated attrs).trans htells hmoves.extend⟩
  · rw [mergeInto]
    simp only [hattrs0, hattrs1, hattrs, Option.bind_some, hrun, Option.map_some]
  · rw [Graph.hasNode_iff_nodeData, Graph.nodeData_removeNode, if_neg hpr, ← Graph.hasNode_iff_nodeData]
    exact hrunning.hasNode
  · intro n hn
    have hnr : ¬ (p = r ∨ n = r) := by
      rintro (heq | rfl)
      · exact hpr heq.symm
      · exact hn hr
    rw [hrunning.neighbors n hn, Graph.edgeData_removeNode, if_neg hnr]
  · intro n
    have hsame : (st.graph.putNode p attrs).hasNode n = st.graph.hasNode n := Graph.hasNode_putNode hst.hasNode n
    rw [← hsame, Graph.hasNode_iff_nodeData, Graph.hasNode_iff_nodeData, Graph.nodeData_removeNode, hmoves.nodes]
    by_cases hnr : r = n
    · simp [hnr]
    · simp [hnr, Ne.symm hnr]
  · intro n hn
    have hnr : ¬ (p = r ∨ n = r) := by
      rintro (heq | rfl)
      · exact hpr heq.symm
      · exact hn hr
    have htaken := hmoves.taken n hn
    rw [Graph.edgeData_removeNode, if_neg hnr]
    by_cases hin : n ∈ M.inOrder ((st.graph.putNode p attrs).neighbors r)
    · rw [if_pos hin] at htaken
      exact htaken
    · have hnone : st.graph.edgeData r n = none := by
        by_contra hne
        have hsome : ((st.graph.putNode p attrs).edgeData r n).isSome = true := Option.isSome_iff_ne_none.mpr hne
        exact hin ((M.perm _).mem_iff.mpr (Graph.mem_neighbors.mpr hsome))
      rw [if_neg hin] at htaken
      rw [hnone]
      exact htaken
  · intro a b ha hb hpa hpb
    rw [Graph.edgeData_removeNode, if_neg (not_or.mpr ⟨ha, hb⟩)]
    exact hmoves.rest a b hpa hpb

end Merger

end MultiRag.GraphRag
