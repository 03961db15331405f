/-
  **`graph_merge` and `merge_subgraph`.**

  A merge appends the descriptions, sources and keywords of one graph to those of
  another and adds the weights. `rank` and `pagerank` are written and not part of the
  content.
-/
import Mathlib.Algebra.Group.Prod
import Mathlib.Algebra.Order.Group.Multiset
import Mathlib.Algebra.Order.Ring.Nat
import Mathlib.Algebra.Ring.Rat
import MultiRag.GraphSetGraph

namespace MultiRag.GraphRag

open Table

/-! ### Descriptions -/

def graphFieldSep : String := "<SEP>"

def splitSep : List Char → List (List Char)
  | [] => [[]]
  | '<' :: 'S' :: 'E' :: 'P' :: '>' :: rest => [] :: splitSep rest
  | c :: rest =>
    match splitSep rest with
    | [] => [[c]]
    | part :: parts => (c :: part) :: parts

def descriptionParts (description : String) : List String :=
  (splitSep description.toList).map String.ofList

theorem splitSep_ne_nil (cs : List Char) : splitSep cs ≠ [] := by
  fun_cases splitSep cs <;> simp

theorem descriptionParts_ne_nil (description : String) : descriptionParts description ≠ [] := by
  simp [descriptionParts, splitSep_ne_nil]

theorem splitSep_append (a b : List Char) :
    splitSep (a ++ graphFieldSep.toList ++ b) = splitSep a ++ splitSep b := by
  have hsep : graphFieldSep.toList = ['<', 'S', 'E', 'P', '>'] := by decide
  rw [hsep]
  fun_induction splitSep a with
  | case1 => simp [splitSep]
  | case2 rest ih =>
    simp only [List.cons_append] at ih ⊢
    rw [splitSep, ih]
  | case3 c rest hplain hnil => exact absurd hnil (splitSep_ne_nil rest)
  | case4 c rest hplain part parts heq ih =>
    have hstep : splitSep (c :: (rest ++ ['<', 'S', 'E', 'P', '>'] ++ b)) =
        match splitSep (rest ++ ['<', 'S', 'E', 'P', '>'] ++ b) with
        | [] => [[c]]
        | part :: parts => (c :: part) :: parts := by
      refine splitSep.eq_3 c _ fun tail hc htail => ?_
      -- four characters decide whether the separator begins at `c`
      rcases rest with _ | ⟨c₁, _ | ⟨c₂, _ | ⟨c₃, _ | ⟨c₄, rest⟩⟩⟩⟩
      all_goals simp at htail
      obtain ⟨rfl, rfl, rfl, rfl, -⟩ := htail
      exact hplain rest hc rfl
    rw [List.cons_append, List.cons_append, hstep, ih, heq]
    rfl

theorem descriptionParts_append (a b : String) :
    descriptionParts (a ++ graphFieldSep ++ b) = descriptionParts a ++ descriptionParts b := by
  simp only [descriptionParts, String.toList_append, splitSep_append, List.map_append]

/-! ### Attributes -/

namespace Attrs

variable (attrs : Attrs)

def field? (name : String) : Option Json := (attrs.fields.get? name).map Prod.snd

def set (name : String) (value : Json) : Attrs :=
  { attrs with fields := attrs.fields.upsert (name, value) }

def description? : Option String :=
  match attrs.field? "description" with
  | some (.str description) => some description
  | _ => none

def description : String := attrs.description?.getD ""

def keywords? : Option (List Json) :=
  match attrs.field? "keywords" with
  | some (.arr keywords) => some keywords
  | _ => none

def keywords : List Json := attrs.keywords?.getD []

variable {attrs}

@[simp] theorem sources_set (name : String) (value : Json) : (attrs.set name value).sources = attrs.sources :=
  rfl

theorem field?_set (name other : String) (value : Json) :
    (attrs.set name value).field? other = if name = other then some value else attrs.field? other := by
  simp only [field?, set, get?_upsert]
  split <;> rfl

@[simp] theorem description?_set_description (description : String) :
    (attrs.set "description" (.str description)).description? = some description := by
  simp [description?, field?_set]

@[simp] theorem description?_set {name : String} (hname : name ≠ "description") (value : Json) :
    (attrs.set name value).description? = attrs.description? := by
  simp [description?, field?_set, hname]

@[simp] theorem keywords?_set_keywords (keywords : List Json) :
    (attrs.set "keywords" (.arr keywords)).keywords? = some keywords := by
  simp [keywords?, field?_set]

@[simp] theorem keywords?_set {name : String} (hname : name ≠ "keywords") (value : Json) :
    (attrs.set name value).keywords? = attrs.keywords? := by
  simp [keywords?, field?_set, hname]

end Attrs

/-- The numbers of the stored graphs and `+` on them: the sums are exact. -/
structure ExactSums where
  value : Json → Option ℚ
  add : Json → Json → Json
  value_zero : value (.int 0) = some 0
  value_add : ∀ {a b p q}, value a = some p → value b = some q → value (add a b) = some (p + q)

def Attrs.weight? (A : ExactSums) (attrs : Attrs) : Option ℚ := (attrs.field? "weight").bind A.value

/-- The nodes with a description stay, and the edges with one between them; an edge without
    keywords gets none.  The sources are always there. -/
def tidyGraph (g : Graph) : Graph where
  documents := g.documents
  revision := g.revision
  nodes := g.nodes.filter fun node => (node.2.field? "description").isSome
  edges := (g.edges.filter fun edge => (edge.2.field? "description").isSome &&
    ((g.nodes.filter fun node => (node.2.field? "description").isSome).get? edge.1.1).isSome &&
    ((g.nodes.filter fun node => (node.2.field? "description").isSome).get? edge.1.2).isSome).mapRows
      (fun edge =>
        if (edge.2.field? "keywords").isSome then edge else (edge.1, edge.2.set "keywords" (.arr [])))
      fun edge => by split <;> rfl
  sorted edge h := by
    obtain ⟨old, hold, rfl⟩ := mem_mapRows.mp h
    have hkey := g.sorted old (mem_filter.mp hold).1
    split <;> exact hkey
  joins edge h := by
    obtain ⟨old, hold, rfl⟩ := mem_mapRows.mp h
    have hends := (mem_filter.mp hold).2
    simp only [Bool.and_eq_true] at hends
    split <;> exact ⟨hends.1.2, hends.2⟩

/-! ### `graph_merge` -/

def mergeNode (old : Option (String × Attrs)) (new : String × Attrs) : String × Attrs :=
  match old with
  | none => new
  | some node =>
    (new.1, { node.2.set "description" (.str (node.2.description ++ graphFieldSep ++ new.2.description)) with
      sources := node.2.sources ++ new.2.sources })

def mergeEdge (A : ExactSums) (old : Option ((String × String) × Attrs)) (new : (String × String) × Attrs) :
    (String × String) × Attrs :=
  match old with
  | none => new
  | some edge =>
    let weight := A.add ((edge.2.field? "weight").getD (.int 0)) ((new.2.field? "weight").getD (.int 0))
    let description := edge.2.description ++ graphFieldSep ++ new.2.description
    (new.1, { ((edge.2.set "weight" weight).set "description" (.str description)).set "keywords"
        (.arr (edge.2.keywords ++ new.2.keywords)) with
      sources := edge.2.sources ++ new.2.sources })

theorem mergeNode_key (old : Option (String × Attrs)) (new : String × Attrs) :
    (mergeNode old new).1 = new.1 := by
  cases old <;> rfl

theorem mergeEdge_key (A : ExactSums) (old : Option ((String × String) × Attrs))
    (new : (String × String) × Attrs) : (mergeEdge A old new).1 = new.1 := by
  cases old <;> rfl

/-- The attributes that are appended or added are there, with the type that takes it. -/
def mergeable (A : ExactSums) (g1 g2 : Graph) : Bool :=
  (g2.nodes.rows.all fun node => (g1.nodes.get? node.1).all fun old =>
    old.2.description?.isSome && node.2.description?.isSome) &&
  g2.edges.rows.all fun edge => (g1.edges.get? edge.1).all fun old =>
    (old.2.weight? A).isSome && (((edge.2.field? "weight").getD (.int 0)) |> A.value).isSome &&
      old.2.description?.isSome && edge.2.description?.isSome &&
        old.2.keywords?.isSome && edge.2.keywords?.isSome

namespace Graph

def joined (A : ExactSums) (g1 g2 : Graph) : Graph where
  documents := g1.documents ++ g2.documents
  revision := g1.revision
  nodes := g1.nodes.mergeWith mergeNode g2.nodes
  edges := g1.edges.mergeWith (mergeEdge A) g2.edges
  sorted edge h := by
    have hsome : ((g1.edges.mergeWith (mergeEdge A) g2.edges).get? edge.1).isSome = true := by
      rw [get?_of_mem h]
      rfl
    rcases (isSome_get?_mergeWith (mergeEdge_key A) _ _ _).mp hsome with hin | hin
    · exact sorted_of_hasEdge hin
    · exact sorted_of_hasEdge hin
  joins edge h := by
    have hsome : ((g1.edges.mergeWith (mergeEdge A) g2.edges).get? edge.1).isSome = true := by
      rw [get?_of_mem h]
      rfl
    simp only [isSome_get?_mergeWith mergeNode_key]
    rcases (isSome_get?_mergeWith (mergeEdge_key A) _ _ _).mp hsome with hin | hin
    · exact ⟨.inl (joins_of_hasEdge hin).1, .inl (joins_of_hasEdge hin).2⟩
    · exact ⟨.inr (joins_of_hasEdge hin).1, .inr (joins_of_hasEdge hin).2⟩

def setNodes (g : Graph) (field : String) (value : String → Json) : Graph where
  documents := g.documents
  revision := g.revision
  nodes := g.nodes.mapRows (fun node => (node.1, node.2.set field (value node.1))) fun _ => rfl
  edges := g.edges
  sorted := g.sorted
  joins edge h := by
    have hends := g.joins edge h
    rw [get?_mapRows, get?_mapRows, Option.isSome_map, Option.isSome_map]
    exact hends

/-- `graph.degree`; a loop counts twice. -/
def degree (g : Graph) (name : String) : Nat :=
  (g.edges.rows.map fun edge =>
    (if edge.1.1 = name then 1 else 0) + if edge.1.2 = name then 1 else 0).sum

end Graph

def graphMerge (A : ExactSums) (g1 g2 : Graph) : Option Graph :=
  if mergeable A g1 g2 then
    let g := g1.joined A g2
    some (g.setNodes "rank" fun name => .int (g.degree name))
  else none

def mergeSubgraph (A : ExactSums) (pagerank : Graph → String → Json) (old : Option Graph) (sub : Graph) :
    Option (Graph × GraphChange) :=
  let change : GraphChange := ⟨[], sub.nodes.rows.map Prod.fst, [], sub.edges.rows.map Prod.fst⟩
  match old with
  | none => some (sub.setNodes "pagerank" (pagerank sub), change)
  | some old =>
    (graphMerge A (tidyGraph old) sub).map fun g => (g.setNodes "pagerank" (pagerank g), change)

/-! ### What a graph has accumulated -/

abbrev NodeContent := Multiset String × Multiset String

abbrev EdgeContent := ℚ × Multiset String × Multiset Json × Multiset String

abbrev GraphContent := (String → NodeContent) × (String × String → EdgeContent)

def Attrs.nodeContent (attrs : Attrs) : NodeContent :=
  (↑(descriptionParts attrs.description), ↑attrs.sources)

def Attrs.edgeContent (A : ExactSums) (attrs : Attrs) : EdgeContent :=
  ((attrs.weight? A).getD 0, ↑(descriptionParts attrs.description), ↑attrs.keywords, ↑attrs.sources)

def nodeContent (g : Graph) (name : String) : NodeContent :=
  (g.nodes.get? name).elim 0 fun node => node.2.nodeContent

def edgeContent (A : ExactSums) (g : Graph) (pair : String × String) : EdgeContent :=
  (g.edges.get? pair).elim 0 fun edge => edge.2.edgeContent A

def graphContent (A : ExactSums) (g : Graph) : GraphContent := (nodeContent g, edgeContent A g)

/-- The attributes a merge reads are there, with the right types. -/
structure Graph.Valid (A : ExactSums) (g : Graph) : Prop where
  nodes : ∀ node ∈ g.nodes, node.2.description?.isSome = true
  edges : ∀ edge ∈ g.edges, (edge.2.weight? A).isSome = true ∧ edge.2.description?.isSome = true ∧
    edge.2.keywords?.isSome = true

variable {A : ExactSums} {g g1 g2 : Graph}

theorem nodeContent_ne_zero (attrs : Attrs) : attrs.nodeContent ≠ 0 := by
  intro hzero
  have hparts : (descriptionParts attrs.description : Multiset String) = 0 := congrArg Prod.fst hzero
  exact descriptionParts_ne_nil _ (Multiset.coe_eq_zero _ |>.mp hparts)

theorem edgeContent_ne_zero (attrs : Attrs) : attrs.edgeContent A ≠ 0 := by
  intro hzero
  have hparts : (descriptionParts attrs.description : Multiset String) = 0 :=
    congrArg (fun c => c.2.1) hzero
  exact descriptionParts_ne_nil _ (Multiset.coe_eq_zero _ |>.mp hparts)

theorem hasNode_iff_content {name : String} : g.hasNode name = true ↔ nodeContent g name ≠ 0 := by
  unfold Graph.hasNode nodeContent
  cases g.nodes.get? name with
  | none => simp
  | some node => simp [nodeContent_ne_zero]

variable {pair : String × String}

theorem hasEdge_iff_content (A : ExactSums) :
    g.hasEdge pair = true ↔ edgeContent A g pair ≠ 0 := by
  unfold Graph.hasEdge edgeContent
  cases g.edges.get? pair with
  | none => simp
  | some edge => simp [edgeContent_ne_zero]

variable {attrs : Attrs}

theorem field?_isSome_of_description? (h : attrs.description?.isSome = true) :
    (attrs.field? "description").isSome = true := by
  unfold Attrs.description? at h
  split at h
  · next heq => simp [heq]
  · cases h

theorem field?_isSome_of_keywords? (h : attrs.keywords?.isSome = true) :
    (attrs.field? "keywords").isSome = true := by
  unfold Attrs.keywords? at h
  split at h
  · next heq => simp [heq]
  · cases h

theorem tidyGraph_of_valid (h : g.Valid A) : tidyGraph g = g := by
  have hnodes : (g.nodes.filter fun node => (node.2.field? "description").isSome) = g.nodes :=
    filter_eq_self fun node hnode => field?_isSome_of_description? (h.nodes node hnode)
  unfold tidyGraph
  simp only [hnodes]
  have hfilter : (g.edges.filter fun edge => (edge.2.field? "description").isSome &&
      (g.nodes.get? edge.1.1).isSome && (g.nodes.get? edge.1.2).isSome) = g.edges := by
    apply filter_eq_self
    intro edge hedge
    simp [field?_isSome_of_description? (h.edges edge hedge).2.1, (g.joins edge hedge).1,
      (g.joins edge hedge).2]
  simp only [hfilter]
  have hkws : ∀ hf, (g.edges.mapRows (fun edge =>
      if (edge.2.field? "keywords").isSome then edge else (edge.1, edge.2.set "keywords" (.arr []))) hf) =
        g.edges := by
    intro hf
    apply mapRows_eq_self
    intro edge hedge
    rw [if_pos (field?_isSome_of_keywords? (h.edges edge hedge).2.2)]
  simp only [hkws]

/-! ### A merge is an addition -/

theorem weight?_default (h : (attrs.weight? A).isSome = true) :
    A.value ((attrs.field? "weight").getD (.int 0)) = some ((attrs.weight? A).getD 0) := by
  obtain ⟨q, hq⟩ := Option.isSome_iff_exists.mp h
  rw [hq, Option.getD_some]
  unfold Attrs.weight? at hq
  cases hfield : attrs.field? "weight" with
  | none => simp [hfield] at hq
  | some value => simpa [hfield] using hq

theorem mergeable_of_valid (h1 : g1.Valid A) (h2 : g2.Valid A) : mergeable A g1 g2 = true := by
  simp only [mergeable, Bool.and_eq_true, List.all_eq_true]
  constructor
  · intro node hnode
    cases hold : g1.nodes.get? node.1 with
    | none => rfl
    | some old => simp [h1.nodes old (mem_of_get? hold), h2.nodes node hnode]
  · intro edge hedge
    cases hold : g1.edges.get? edge.1 with
    | none => rfl
    | some old =>
      obtain ⟨hweight, hdesc, hkws⟩ := h1.edges old (mem_of_get? hold)
      obtain ⟨hweight', hdesc', hkws'⟩ := h2.edges edge hedge
      simp [hweight, hdesc, hkws, hdesc', hkws', weight?_default hweight']

theorem content_mergeNode (old new : String × Attrs) :
    (mergeNode (some old) new).2.nodeContent = old.2.nodeContent + new.2.nodeContent := by
  have hdesc : (mergeNode (some old) new).2.description =
      old.2.description ++ graphFieldSep ++ new.2.description := by
    simp [Attrs.description, Attrs.description?, Attrs.field?, mergeNode, Attrs.set, get?_upsert]
  have hsrcs : (mergeNode (some old) new).2.sources = old.2.sources ++ new.2.sources := rfl
  simp [Attrs.nodeContent, hdesc, hsrcs, descriptionParts_append]

theorem mergeEdge_fields (old new : (String × String) × Attrs) :
    (mergeEdge A (some old) new).2.weight? A =
        A.value (A.add ((old.2.field? "weight").getD (.int 0)) ((new.2.field? "weight").getD (.int 0))) ∧
      (mergeEdge A (some old) new).2.description? =
        some (old.2.description ++ graphFieldSep ++ new.2.description) ∧
      (mergeEdge A (some old) new).2.keywords? = some (old.2.keywords ++ new.2.keywords) := by
  refine ⟨?_, ?_, ?_⟩
  · simp [Attrs.weight?, Attrs.field?, mergeEdge, Attrs.set, get?_upsert]
  · simp [Attrs.description?, Attrs.field?, mergeEdge, Attrs.set, get?_upsert]
  · simp [Attrs.keywords?, Attrs.field?, mergeEdge, Attrs.set, get?_upsert]

variable {old new : (String × String) × Attrs}

section

variable (hold : (old.2.weight? A).isSome = true) (hnew : (new.2.weight? A).isSome = true)
include hold hnew

theorem weight?_mergeEdge :
    (mergeEdge A (some old) new).2.weight? A =
      some ((old.2.weight? A).getD 0 + (new.2.weight? A).getD 0) := by
  rw [(mergeEdge_fields old new).1]
  exact A.value_add (weight?_default hold) (weight?_default hnew)

theorem content_mergeEdge :
    (mergeEdge A (some old) new).2.edgeContent A = old.2.edgeContent A + new.2.edgeContent A := by
  obtain ⟨-, hdesc, hkws⟩ := mergeEdge_fields (A := A) old new
  have hsrcs : (mergeEdge A (some old) new).2.sources = old.2.sources ++ new.2.sources := rfl
  simp [Attrs.edgeContent, weight?_mergeEdge hold hnew, Attrs.description, hdesc,
    Attrs.keywords, hkws, hsrcs, descriptionParts_append]

end

theorem nodeContent_joined (name : String) :
    nodeContent (g1.joined A g2) name = nodeContent g1 name + nodeContent g2 name := by
  unfold nodeContent Graph.joined
  rw [get?_mergeWith mergeNode_key]
  cases hnew : g2.nodes.get? name with
  | none => simp
  | some new =>
    cases hold : g1.nodes.get? name with
    | none => simp [mergeNode]
    | some old => exact content_mergeNode old new

theorem edgeContent_joined (h1 : g1.Valid A) (h2 : g2.Valid A) (pair : String × String) :
    edgeContent A (g1.joined A g2) pair = edgeContent A g1 pair + edgeContent A g2 pair := by
  unfold edgeContent Graph.joined
  rw [get?_mergeWith (mergeEdge_key A)]
  cases hnew : g2.edges.get? pair with
  | none => simp
  | some new =>
    cases hold : g1.edges.get? pair with
    | none => simp [mergeEdge]
    | some old =>
      exact content_mergeEdge (h1.edges old (mem_of_get? hold)).1
        (h2.edges new (mem_of_get? hnew)).1

theorem valid_joined (h1 : g1.Valid A) (h2 : g2.Valid A) : (g1.joined A g2).Valid A where
  nodes node hnode := by
    have hget := get?_of_mem hnode
    unfold Graph.joined at hget
    rw [get?_mergeWith mergeNode_key] at hget
    cases hnew : g2.nodes.get? node.1 with
    | none =>
      rw [hnew] at hget
      exact h1.nodes node (mem_of_get? hget)
    | some new =>
      rw [hnew] at hget
      cases hold : g1.nodes.get? node.1 with
      | none =>
        rw [hold] at hget
        exact Option.some.inj hget ▸ h2.nodes new (mem_of_get? hnew)
      | some old =>
        rw [hold] at hget
        rw [← Option.some.inj hget]
        simp [Attrs.description?, Attrs.field?, mergeNode, Attrs.set, get?_upsert]
  edges edge hedge := by
    have hget := get?_of_mem hedge
    unfold Graph.joined at hget
    rw [get?_mergeWith (mergeEdge_key A)] at hget
    cases hnew : g2.edges.get? edge.1 with
    | none =>
      rw [hnew] at hget
      exact h1.edges edge (mem_of_get? hget)
    | some new =>
      have hvalid := h2.edges new (mem_of_get? hnew)
      rw [hnew] at hget
      cases hold : g1.edges.get? edge.1 with
      | none =>
        rw [hold] at hget
        exact Option.some.inj hget ▸ hvalid
      | some old =>
        rw [hold] at hget
        obtain ⟨-, hdesc, hkws⟩ := mergeEdge_fields (A := A) old new
        have hweight := weight?_mergeEdge (h1.edges old (mem_of_get? hold)).1 hvalid.1
        rw [← Option.some.inj hget, hdesc, hkws, hweight]
        simp

section

variable {field : String} {value : String → Json} (hfield : field ≠ "description")
include hfield

theorem graphContent_setNodes : graphContent A (g.setNodes field value) = graphContent A g := by
  have hnodes : nodeContent (g.setNodes field value) = nodeContent g := by
    funext name
    simp only [nodeContent, Graph.setNodes, get?_mapRows]
    cases g.nodes.get? name with
    | none => rfl
    | some node => simp [Attrs.nodeContent, Attrs.description, Attrs.description?_set hfield]
  rw [graphContent, hnodes]
  rfl

theorem valid_setNodes (h : g.Valid A) : (g.setNodes field value).Valid A where
  nodes node hnode := by
    obtain ⟨old, hold, rfl⟩ := List.mem_map.mp hnode
    rw [Attrs.description?_set hfield]
    exact h.nodes old hold
  edges edge hedge := h.edges edge hedge

end

theorem graphContent_merge (h1 : g1.Valid A) (h2 : g2.Valid A) :
    ∃ g, graphMerge A g1 g2 = some g ∧ g.Valid A ∧ g.documents = g1.documents ++ g2.documents ∧
      graphContent A g = graphContent A g1 + graphContent A g2 := by
  refine ⟨_, if_pos (mergeable_of_valid h1 h2), ?_, rfl, ?_⟩
  · exact valid_setNodes (by decide) (valid_joined h1 h2)
  · rw [graphContent_setNodes (by decide)]
    ext1
    · funext name
      exact nodeContent_joined name
    · funext pair
      exact edgeContent_joined h1 h2 pair

def storedContent (A : ExactSums) (g : Option Graph) : GraphContent := g.elim 0 (graphContent A)

def storedDocuments (g : Option Graph) : List String := g.elim [] Graph.documents

theorem mergeSubgraph_content (pagerank : Graph → String → Json) {old : Option Graph} {sub : Graph}
    (hold : ∀ g, old = some g → g.Valid A) (hsub : sub.Valid A) :
    ∃ next change, mergeSubgraph A pagerank old sub = some (next, change) ∧ next.Valid A ∧
      next.documents = storedDocuments old ++ sub.documents ∧
      graphContent A next = storedContent A old + graphContent A sub := by
  cases old with
  | none =>
    refine ⟨_, _, rfl, valid_setNodes (by decide) hsub, rfl, ?_⟩
    rw [graphContent_setNodes (by decide)]
    simp [storedContent]
  | some old =>
    obtain ⟨g, hg, hvalid, hdocs, hcont⟩ := graphContent_merge (hold old rfl) hsub
    have hranked : (g.setNodes "pagerank" (pagerank g)).Valid A := valid_setNodes (by decide) hvalid
    have hmerge : mergeSubgraph A pagerank (some old) sub =
        some (g.setNodes "pagerank" (pagerank g), ⟨[], sub.nodes.rows.map Prod.fst, [],
          sub.edges.rows.map Prod.fst⟩) := by
      simp only [mergeSubgraph, tidyGraph_of_valid (hold old rfl), hg, Option.map_some]
    refine ⟨_, _, hmerge, hranked, hdocs, ?_⟩
    · rw [graphContent_setNodes (by decide)]
      exact hcont

/-! ### The subgraph of a document -/

variable {source : String}

theorem supports_iff_content {name : String} :
    g.supports source name = true ↔ source ∈ (nodeContent g name).2 := by
  unfold Graph.supports nodeContent
  cases g.nodes.get? name with
  | none => simp
  | some node => simp [Attrs.nodeContent]

theorem nodeContent_perDocument (source name : String) :
    nodeContent (g.perDocument source) name =
      if source ∈ (nodeContent g name).2 then ((nodeContent g name).1, {source}) else 0 := by
  have hget : (g.perDocument source).nodes.get? name =
      ((g.nodes.get? name).filter fun node => node.2.sources.contains source).map
        fun node => (node.1, ⟨[source], node.2.fields⟩) := by
    simp only [Graph.perDocument, Graph.ownNodes, get?_mapRows, get?_filter]
  unfold nodeContent
  rw [hget]
  cases g.nodes.get? name with
  | none => simp
  | some node =>
    by_cases hsource : source ∈ node.2.sources
    · simp [Option.filter, hsource, Attrs.nodeContent, Attrs.description, Attrs.description?, Attrs.field?]
    · simp [Option.filter, hsource, Attrs.nodeContent]

theorem edgeContent_perDocument (source : String) (pair : String × String) :
    edgeContent A (g.perDocument source) pair =
      if source ∈ (nodeContent g pair.1).2 ∧ source ∈ (nodeContent g pair.2).2 then
        edgeContent A g pair
      else 0 := by
  simp only [edgeContent, Graph.perDocument, get?_filter, ← supports_iff_content]
  cases hget : g.edges.get? pair with
  | none => simp
  | some edge =>
    have hkey : edge.1 = pair := key_of_get? hget
    by_cases hends : g.supports source pair.1 = true ∧ g.supports source pair.2 = true
    · simp [Option.filter, hkey, hends]
    · simp [Option.filter, hkey, hends]

theorem valid_perDocument (h : g.Valid A) (source : String) : (g.perDocument source).Valid A where
  nodes node hnode := by
    obtain ⟨old, hold, rfl⟩ := List.mem_map.mp hnode
    exact h.nodes old (mem_filter.mp hold).1
  edges edge hedge := h.edges edge (mem_filter.mp hedge).1

/-- Nothing in the graph comes from a document that is not one of its own. -/
def Sourced (g : Graph) : Prop := ∀ name, ∀ source ∈ (nodeContent g name).2, source ∈ g.documents

structure OfDocument (A : ExactSums) (source : String) (sub : Graph) : Prop where
  valid : sub.Valid A
  documents : sub.documents = [source]
  nodes : ∀ name, nodeContent sub name ≠ 0 → (nodeContent sub name).2 = {source}

theorem ofDocument_perDocument (h : g.Valid A) (source : String) :
    OfDocument A source (g.perDocument source) where
  valid := valid_perDocument h source
  documents := rfl
  nodes name hne := by
    rw [nodeContent_perDocument] at hne ⊢
    split
    · rfl
    · next hnot => simp [hnot] at hne

theorem edge_ends (h : edgeContent A g pair ≠ 0) :
    nodeContent g pair.1 ≠ 0 ∧ nodeContent g pair.2 ≠ 0 := by
  rw [← hasEdge_iff_content] at h
  obtain ⟨hfirst, hsecond⟩ := Graph.joins_of_hasEdge h
  exact ⟨hasNode_iff_content.mp hfirst, hasNode_iff_content.mp hsecond⟩

def SharesNode (g1 g2 : Graph) : Prop := ∃ name, g1.hasNode name = true ∧ g2.hasNode name = true

theorem perDocument_merged {old : Option Graph} {sub next : Graph}
    (hold : ∀ g, old = some g → Sourced g) (hnew : source ∉ storedDocuments old)
    (hsub : OfDocument A source sub)
    (hcont : graphContent A next = storedContent A old + graphContent A sub)
    (hdisjoint : ∀ g, old = some g → ¬SharesNode g sub) :
    graphContent A (next.perDocument source) = graphContent A sub := by
  have hnodes : ∀ name, nodeContent next name = (storedContent A old).1 name + nodeContent sub name :=
    fun name => congrFun (congrArg Prod.fst hcont) name
  have hedges : ∀ pair, edgeContent A next pair = (storedContent A old).2 pair + edgeContent A sub pair :=
    fun pair => congrFun (congrArg Prod.snd hcont) pair
  have hsrcs : ∀ name, source ∉ ((storedContent A old).1 name).2 := by
    intro name hin
    cases old with
    | none => simp [storedContent] at hin
    | some g => exact hnew (hold g rfl name source hin)
  have hapart : ∀ name, nodeContent sub name ≠ 0 → (storedContent A old).1 name = 0 := by
    intro name hne
    cases old with
    | none => rfl
    | some g =>
      by_contra hne'
      exact hdisjoint g rfl ⟨name, hasNode_iff_content.mpr hne', hasNode_iff_content.mpr hne⟩
  -- a node of the result is supported by the document when the subgraph has it
  have hsupported : ∀ name, source ∈ (nodeContent next name).2 ↔ nodeContent sub name ≠ 0 := by
    intro name
    rw [hnodes, Prod.snd_add, Multiset.mem_add, or_iff_right (hsrcs name)]
    constructor
    · rintro hin hzero
      simp [hzero] at hin
    · intro hne
      simp [hsub.nodes name hne]
  ext1
  · funext name
    change nodeContent _ name = nodeContent sub name
    rw [nodeContent_perDocument]
    by_cases hne : nodeContent sub name ≠ 0
    · rw [if_pos ((hsupported name).mpr hne), hnodes, hapart name hne, zero_add]
      exact Prod.ext rfl (hsub.nodes name hne).symm
    · rw [if_neg (mt (hsupported name).mp hne), not_not.mp hne]
  · funext pair
    change edgeContent A _ pair = edgeContent A sub pair
    rw [edgeContent_perDocument]
    simp only [hsupported]
    by_cases hends : nodeContent sub pair.1 ≠ 0 ∧ nodeContent sub pair.2 ≠ 0
    · rw [if_pos hends, hedges]
      suffices hzero : (storedContent A old).2 pair = 0 by rw [hzero, zero_add]
      cases old with
      | none => rfl
      | some g =>
        by_contra hne
        exact (edge_ends (A := A) hne).1 (hapart pair.1 hends.1)
    · rw [if_neg hends, eq_comm]
      by_contra hne
      exact hends (edge_ends hne)

end MultiRag.GraphRag
