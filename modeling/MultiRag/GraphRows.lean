/-
  **Knowledge graphs and the rows they are stored in.**

  A `Graph` is the undirected graph of entities and relations with the documents it was built
  from; its invariant fields say that an edge is keyed by its sorted pair and joins two nodes, so
  a dangling edge cannot be built. An `Id` is the content a row id is the hash of: that no two
  contents share an id is built in.
-/
import Mathlib.Data.String.Basic
import MultiRag.Json
import MultiRag.TableWrites

namespace MultiRag.GraphRag

open Table

/-! ### Graphs -/

def getFromTo (node1 node2 : String) : String × String :=
  if node1 < node2 then (node1, node2) else (node2, node1)

theorem getFromTo_comm (node1 node2 : String) : getFromTo node1 node2 = getFromTo node2 node1 := by
  unfold getFromTo
  rcases lt_trichotomy node1 node2 with hlt | rfl | hgt
  · rw [if_pos hlt, if_neg (not_lt_of_gt hlt)]
  · rfl
  · rw [if_neg (not_lt_of_gt hgt), if_pos hgt]

theorem getFromTo_eq (node1 node2 : String) :
    getFromTo node1 node2 = (node1, node2) ∨ getFromTo node1 node2 = (node2, node1) := by
  unfold getFromTo
  split
  · exact .inl rfl
  · exact .inr rfl

theorem getFromTo_idem (node1 node2 : String) :
    getFromTo (getFromTo node1 node2).1 (getFromTo node1 node2).2 = getFromTo node1 node2 := by
  rcases getFromTo_eq node1 node2 with h | h
  · rw [h, h]
  · rw [h, getFromTo_comm, h]

theorem getFromTo_inj {p q : String × String} (h : getFromTo p.1 p.2 = getFromTo q.1 q.2) :
    p = q ∨ q = (p.2, p.1) := by
  obtain ⟨a, b⟩ := p
  obtain ⟨c, d⟩ := q
  rcases getFromTo_eq a b with hp | hp <;> rcases getFromTo_eq c d with hq | hq <;>
    simp_all

/-- The attributes of a node or an edge: `source_id`, and the others. -/
structure Attrs where
  sources : List String
  fields : Table (String × Json) Prod.fst

/-- `dict.update` on attributes. -/
def Attrs.updated (old new : Attrs) : Attrs := ⟨new.sources, old.fields.update new.fields⟩

abbrev NodeTable := Table (String × Attrs) Prod.fst

abbrev EdgeTable := Table ((String × String) × Attrs) Prod.fst

structure Graph where
  documents : List String
  revision : String
  nodes : NodeTable
  edges : EdgeTable
  sorted : ∀ e ∈ edges, getFromTo e.1.1 e.1.2 = e.1
  joins : ∀ e ∈ edges, (nodes.get? e.1.1).isSome ∧ (nodes.get? e.1.2).isSome

namespace Graph

variable (g : Graph)

def hasNode (name : String) : Bool := (g.nodes.get? name).isSome

def hasEdge (pair : String × String) : Bool := (g.edges.get? pair).isSome

def supports (source name : String) : Bool :=
  (g.nodes.get? name).any fun node => node.2.sources.contains source

def edgeData (source target : String) : Option Attrs :=
  (g.edges.get? (getFromTo source target)).map Prod.snd

def empty : Graph := ⟨[], "", .empty, .empty, fun _ h => absurd h (not_mem_empty _),
  fun _ h => absurd h (not_mem_empty _)⟩

variable {g} {name : String}

theorem hasNode_iff : g.hasNode name = true ↔ ∃ attrs, (name, attrs) ∈ g.nodes := by
  rw [hasNode, Option.isSome_iff_exists]
  constructor
  · rintro ⟨⟨name', attrs⟩, h⟩
    obtain ⟨hmem, hkey⟩ := get?_eq_some.mp h
    exact ⟨attrs, hkey ▸ hmem⟩
  · rintro ⟨attrs, hmem⟩
    exact ⟨_, get?_of_mem hmem⟩

variable {pair : String × String}

theorem hasEdge_iff :
    g.hasEdge pair = true ↔ ∃ attrs, (pair, attrs) ∈ g.edges := by
  rw [hasEdge, Option.isSome_iff_exists]
  constructor
  · rintro ⟨⟨pair', attrs⟩, h⟩
    obtain ⟨hmem, hkey⟩ := get?_eq_some.mp h
    exact ⟨attrs, hkey ▸ hmem⟩
  · rintro ⟨attrs, hmem⟩
    exact ⟨_, get?_of_mem hmem⟩

variable {source : String}

theorem supports_iff :
    g.supports source name = true ↔ ∃ attrs, (name, attrs) ∈ g.nodes ∧ source ∈ attrs.sources := by
  rw [supports, Option.any_eq_true]
  constructor
  · rintro ⟨⟨name', attrs⟩, h, hsource⟩
    obtain ⟨hmem, hkey⟩ := get?_eq_some.mp h
    exact ⟨attrs, hkey ▸ hmem, by simpa using hsource⟩
  · rintro ⟨attrs, hmem, hsource⟩
    exact ⟨_, get?_of_mem hmem, by simpa using hsource⟩

def ownNodes (g : Graph) (source : String) : NodeTable :=
  (g.nodes.filter fun node => node.2.sources.contains source).mapRows
    (fun node => (node.1, ⟨[source], node.2.fields⟩)) fun _ => rfl

theorem ownNodes_iff :
    (∃ attrs, (name, attrs) ∈ g.ownNodes source) ↔ g.supports source name = true := by
  rw [supports_iff]
  constructor
  · rintro ⟨attrs, hmem⟩
    obtain ⟨⟨name', attrs'⟩, hold, heq⟩ := mem_mapRows.mp hmem
    obtain ⟨hnode, hsource⟩ := mem_filter.mp hold
    obtain rfl : name' = name := congrArg Prod.fst heq
    exact ⟨attrs', hnode, by simpa using hsource⟩
  · rintro ⟨attrs, hmem, hsource⟩
    refine ⟨⟨[source], attrs.fields⟩, mem_mapRows.mpr ⟨(name, attrs), ?_, rfl⟩⟩
    exact mem_filter.mpr ⟨hmem, by simpa using hsource⟩

def perDocument (g : Graph) (source : String) : Graph where
  documents := [source]
  revision := g.revision
  nodes := g.ownNodes source
  edges := g.edges.filter fun edge => g.supports source edge.1.1 && g.supports source edge.1.2
  sorted edge h := g.sorted edge (mem_filter.mp h).1
  joins edge h := by
    have hnode : ∀ name, g.supports source name = true →
        ((g.ownNodes source).get? name).isSome := by
      intro name hname
      obtain ⟨attrs, hmem⟩ := ownNodes_iff.mpr hname
      rw [get?_of_mem hmem]
      rfl
    have hboth := (mem_filter.mp h).2
    rw [Bool.and_eq_true] at hboth
    exact ⟨hnode _ hboth.1, hnode _ hboth.2⟩

theorem hasNode_perDocument :
    (g.perDocument source).hasNode name = true ↔ g.supports source name = true := by
  rw [hasNode_iff, ← ownNodes_iff]
  rfl

theorem hasEdge_perDocument :
    (g.perDocument source).hasEdge pair = true ↔
      g.hasEdge pair = true ∧ g.supports source pair.1 = true ∧ g.supports source pair.2 = true := by
  rw [hasEdge_iff, hasEdge_iff]
  simp only [perDocument, mem_filter, Bool.and_eq_true, exists_and_right]

end Graph

/-! ### Rows -/

/-- What a row id is the hash of; `legacy` ids are not the hash of any of these. -/
inductive Id where
  | checkpoint
  | subgraph (source : String)
  | entity (name : String)
  | relation (pair : String × String)
  | legacy (text : String)
deriving DecidableEq

def entityChunkId (name : String) : Id := .entity name

def relationChunkId (source target : String) : Id := .relation (getFromTo source target)

theorem relationChunkId_getFromTo (source target : String) :
    relationChunkId (getFromTo source target).1 (getFromTo source target).2 =
      relationChunkId source target := by
  rw [relationChunkId, getFromTo_idem, relationChunkId]

/-- The columns of a row by its `knowledge_graph_kwd`. -/
inductive Content where
  | graph (data : Graph)
  | subgraph (sources : List String) (data : Graph)
  | entity (name : Option String) (attrs : Attrs)
  | relation (source target : Option String) (attrs : Attrs)

structure Row where
  pk : Id
  content : Content
  removed : Bool

abbrev Store := Table Row Row.pk

def Row.isGraph (row : Row) : Bool := match row.content with
  | .graph _ => true
  | _ => false

def Row.subgraph? (row : Row) : Option (List String × Graph) := match row.content with
  | .subgraph sources data => some (sources, data)
  | _ => none

end MultiRag.GraphRag
