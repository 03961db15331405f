/-
  **Merging the nodes of one entity** (`core/graphrag/general/extractor.py`,
  `core/graphrag/entity_resolution.py`).

  `_merge_graph_nodes` merges the nodes of a component into the first one, one after the other:
  the edges of a node are moved to the first node or merged with its edges, and the node is
  removed. The change records what is removed, added and updated.
-/
import MultiRag.GraphMerge

namespace MultiRag.GraphRag

open Table

/-! ### Graph updates -/

namespace Graph

/-- `graph.neighbors`; a node with a loop is its own neighbour. -/
def neighbors (g : Graph) (name : String) : List String :=
  g.edges.rows.filterMap fun edge =>
    if edge.1.1 = name then some edge.1.2 else if edge.1.2 = name then some edge.1.1 else none

def nodeData (g : Graph) (name : String) : Option Attrs := (g.nodes.get? name).map Prod.snd

def putNode (g : Graph) (name : String) (attrs : Attrs) : Graph where
  documents := g.documents
  revision := g.revision
  nodes := g.nodes.upsert (name, attrs)
  edges := g.edges
  sorted := g.sorted
  joins edge h := by
    have hends := g.joins edge h
    simp only [get?_upsert]
    constructor
    · split
      · rfl
      · exact hends.1
    · split
      · rfl
      · exact hends.2

def putEdge (g : Graph) (source target : String) (attrs : Attrs)
    (h : g.hasNode source = true ∧ g.hasNode target = true) : Graph where
  documents := g.documents
  revision := g.revision
  nodes := g.nodes
  edges := g.edges.upsert (getFromTo source target, attrs)
  sorted edge hedge := by
    rcases mem_upsert.mp hedge with rfl | ⟨hold, -⟩
    · exact getFromTo_idem source target
    · exact g.sorted edge hold
  joins edge hedge := by
    rcases mem_upsert.mp hedge with rfl | ⟨hold, -⟩
    · rcases getFromTo_eq source target with heq | heq
      · rw [heq]
        exact h
      · rw [heq]
        exact ⟨h.2, h.1⟩
    · exact g.joins edge hold

def removeNode (g : Graph) (name : String) : Graph where
  documents := g.documents
  revision := g.revision
  nodes := g.nodes.delete name
  edges := g.edges.filter fun edge => edge.1.1 ≠ name ∧ edge.1.2 ≠ name
  sorted edge hedge := g.sorted edge (mem_filter.mp hedge).1
  joins edge hedge := by
    obtain ⟨hold, hends⟩ := mem_filter.mp hedge
    rw [decide_eq_true_eq] at hends
    have hjoins := g.joins edge hold
    rw [get?_delete, get?_delete, if_neg (Ne.symm hends.1), if_neg (Ne.symm hends.2)]
    exact hjoins

end Graph

/-! ### Attributes -/

def jsonTexts (items : List Json) : Option (List String) :=
  items.mapM fun
    | .str text => some text
    | _ => none

def Attrs.keywordTexts? (attrs : Attrs) : Option (List String) := attrs.keywords?.bind jsonTexts

def Attrs.keywordTexts (attrs : Attrs) : List String := attrs.keywordTexts?.getD []

/-- What the merge takes as given: exact sums, the summary of a description under a name, and
    the order in which neighbours are visited. -/
structure Merger where
  sums : ExactSums
  /-- `_handle_entity_relation_summary` -/
  summary : String → String → String
  inOrder : List String → List String
  perm : ∀ names, (inOrder names).Perm names

namespace Merger

variable (M : Merger)

/-- The attributes of `edge0` with the sum of the weights, the united sources and keywords and
    the new description. -/
def edgeOfBoth (edge0 edge1 : Attrs) (weight : Json) (keywords : List String) (description : String) : Attrs :=
  { ((edge0.set "weight" weight).set "keywords" (.arr ((sortedSet keywords).map .str))).set "description"
      (.str description) with
    sources := sortedSet (edge0.sources ++ edge1.sources) }

/-- The attributes of an edge that takes in another one; `none` is an exception. -/
def mergeEdges (name : String) (edge0 edge1 : Attrs) : Option Attrs :=
  match edge0.field? "weight", edge1.field? "weight", edge0.description?, edge1.description?,
    edge0.keywordTexts?, edge1.keywordTexts? with
  | some weight0, some weight1, some description0, some description1, some keywords0, some keywords1 =>
    if (M.sums.value weight0).isSome ∧ (M.sums.value weight1).isSome then
      some (edgeOfBoth edge0 edge1 (M.sums.add weight0 weight1) (keywords0 ++ keywords1)
        (M.summary name (description0 ++ graphFieldSep ++ description1)))
    else none
  | _, _, _, _, _, _ => none

structure Merging where
  graph : Graph
  node0Neighbors : List String
  change : GraphChange

def edgeName (source target : String) : String := "(" ++ source ++ ", " ++ target ++ ")"

end Merger

def GraphChange.removeEdge (change : GraphChange) (pair : String × String) : GraphChange :=
  { change with removedEdges := change.removedEdges ++ [pair] }

def GraphChange.updateEdge (change : GraphChange) (pair : String × String) : GraphChange :=
  { change with addedUpdatedEdges := change.addedUpdatedEdges ++ [pair] }

def Graph.addEdge (g : Graph) (source target : String) (attrs : Attrs) : Option Graph :=
  if h : g.hasNode source = true ∧ g.hasNode target = true then some (g.putEdge source target attrs h) else none

namespace Merger

variable (M : Merger)

/-- The attributes of the edge from the first node to the neighbour, once `edge1` has come to it. -/
def takenEdge (node0 : String) (st : Merging) (neighbor : String) (edge1 : Attrs) : Option Attrs :=
  if neighbor ∈ st.node0Neighbors then
    (st.graph.edgeData node0 neighbor).bind fun edge0 => M.mergeEdges (edgeName node0 neighbor) edge0 edge1
  else some edge1

def mergeNeighbor (node0 node1 : String) (nodesSet : List String) (st : Merging) (neighbor : String) :
    Option Merging :=
  let change := st.change.removeEdge (getFromTo node1 neighbor)
  if neighbor ∈ nodesSet then some { st with change := change }
  else
    (st.graph.edgeData node1 neighbor).bind fun edge1 =>
      (M.takenEdge node0 st neighbor edge1).bind fun attrs =>
        (st.graph.addEdge node0 neighbor attrs).map fun graph =>
          { graph := graph
            node0Neighbors := if neighbor ∈ st.node0Neighbors then st.node0Neighbors else neighbor :: st.node0Neighbors
            change := change.updateEdge (getFromTo node0 neighbor) }

def takenNode (node0 node1 : Attrs) : Option Attrs :=
  match node0.description?, node1.description? with
  | some description0, some description1 =>
    some { node0.set "description" (.str (description0 ++ graphFieldSep ++ description1)) with
      sources := sortedSet (node0.sources ++ node1.sources) }
  | _, _ => none

def mergeInto (node0 : String) (nodesSet : List String) (st : Merging) (node1 : String) : Option Merging :=
  (st.graph.nodeData node0).bind fun attrs0 =>
    (st.graph.nodeData node1).bind fun attrs1 =>
      (takenNode attrs0 attrs1).bind fun attrs =>
        let graph := st.graph.putNode node0 attrs
        ((M.inOrder (graph.neighbors node1)).foldlM (M.mergeNeighbor node0 node1 nodesSet)
          { st with graph := graph }).map fun st => { st with graph := st.graph.removeNode node1 }

def finish (node0 : String) (st : Merging) : Option (Graph × GraphChange) :=
  (st.graph.nodeData node0).bind fun attrs =>
    attrs.description?.map fun description =>
      (st.graph.putNode node0 (attrs.set "description" (.str (M.summary node0 description))), st.change)

def mergeGraphNodes (resolved : Graph × GraphChange) (nodes : List String) : Option (Graph × GraphChange) :=
  match nodes with
  | [] => some resolved
  | [_] => some resolved
  | node0 :: node1 :: rest =>
    let change :=
      { resolved.2 with
        addedUpdatedNodes := resolved.2.addedUpdatedNodes ++ [node0]
        removedNodes := resolved.2.removedNodes ++ node1 :: rest }
    ((node1 :: rest).foldlM (M.mergeInto node0 (node0 :: node1 :: rest))
      ⟨resolved.1, resolved.1.neighbors node0, change⟩).bind (M.finish node0)

/-- The merge phase of `EntityResolution.__call__`: one component after the other. -/
def mergeComponents (g : Graph) (components : List (List String)) : Option (Graph × GraphChange) :=
  components.foldlM M.mergeGraphNodes (g, ⟨[], [], [], []⟩)

end Merger

end MultiRag.GraphRag
