/-
  **The graph after entity resolution.**

  In between, an edge from a merged node counts as one from its representative
  (`IsQuotient`).
-/
import MultiRag.EntityContraction
import MultiRag.GraphRestartOnce

namespace MultiRag.GraphRag

open List Table

/-! ### The edges between two classes -/

/-- The ends of a pair belong to `a` and `b`, in either order. -/
def Spans (belongs : String → String → Prop) (pair : String × String) (a b : String) : Prop :=
  (belongs pair.1 a ∧ belongs pair.2 b) ∨ (belongs pair.1 b ∧ belongs pair.2 a)

open Classical in
noncomputable def weightBetween (A : ExactSums) (belongs : String → String → Prop) (g : Graph) (a b : String) : ℚ :=
  (g.edges.rows.map fun edge => if Spans belongs edge.1 a b then weightOf A (some edge.2) else 0).sum

structure Gathers (A : ExactSums) (belongs : String → String → Prop) (g : Graph) (a b : String)
    (edge? : Option Attrs) : Prop where
  isSome : edge?.isSome = true ↔ ∃ edge ∈ g.edges, Spans belongs edge.1 a b
  weight : weightOf A edge? = weightBetween A belongs g a b
  sources : ∀ source, source ∈ sourcesOf edge? ↔
    ∃ edge ∈ g.edges, Spans belongs edge.1 a b ∧ source ∈ edge.2.sources
  keywords : ∀ keyword, keyword ∈ keywordsOf edge? ↔
    ∃ edge ∈ g.edges, Spans belongs edge.1 a b ∧ keyword ∈ edge.2.keywordTexts

variable {A : ExactSums} {g : Graph} {a b a' b' : String} {belongs belongs' : String → String → Prop}
  {x y z : Option Attrs}

theorem Gathers.congr (h : Gathers A belongs g a b x)
    (hsame : ∀ edge ∈ g.edges, Spans belongs edge.1 a b ↔ Spans belongs' edge.1 a' b') :
    Gathers A belongs' g a' b' x where
  isSome := by
    rw [h.isSome]
    exact exists_congr fun edge => and_congr_right fun hedge => hsame edge hedge
  weight := by
    rw [h.weight, weightBetween, weightBetween]
    refine congrArg List.sum (map_congr_left fun edge hedge => ?_)
    by_cases hends : Spans belongs edge.1 a b
    · rw [if_pos hends, if_pos ((hsame edge hedge).mp hends)]
    · rw [if_neg hends, if_neg (mt (hsame edge hedge).mpr hends)]
  sources source := by
    rw [h.sources]
    exact exists_congr fun edge => and_congr_right fun hedge => and_congr_left' (hsame edge hedge)
  keywords keyword := by
    rw [h.keywords]
    exact exists_congr fun edge => and_congr_right fun hedge => and_congr_left' (hsame edge hedge)

theorem Gathers.comm (h : Gathers A belongs g a b x) : Gathers A belongs g b a x :=
  h.congr fun _ _ => or_comm

theorem Gathers.adds {c : String} (hx : Gathers A belongs g a b x) (hy : Gathers A belongs g c b y)
    (hadds : Adds A x y z)
    (hunion : ∀ pair, Spans belongs' pair a b ↔ Spans belongs pair a b ∨ Spans belongs pair c b)
    (hdisjoint : ∀ pair, ¬ (Spans belongs pair a b ∧ Spans belongs pair c b)) :
    Gathers A belongs' g a b z where
  isSome := by
    rw [hadds.isSome, hx.isSome, hy.isSome]
    simp only [hunion, and_or_left, exists_or]
  weight := by
    rw [hadds.weight, hx.weight, hy.weight, weightBetween, weightBetween, weightBetween, ← sum_map_add]
    refine congrArg List.sum (map_congr_left fun edge _ => ?_)
    have hnot := hdisjoint edge.1
    by_cases hfirst : Spans belongs edge.1 a b
    · have hsecond : ¬ Spans belongs edge.1 c b := fun hsecond => hnot ⟨hfirst, hsecond⟩
      rw [if_pos hfirst, if_neg hsecond, if_pos ((hunion _).mpr (.inl hfirst)), add_zero]
    · by_cases hsecond : Spans belongs edge.1 c b
      · rw [if_neg hfirst, if_pos hsecond, if_pos ((hunion _).mpr (.inr hsecond)), zero_add]
      · have hneither : ¬ Spans belongs' edge.1 a b := fun h => ((hunion _).mp h).elim hfirst hsecond
        rw [if_neg hfirst, if_neg hsecond, if_neg hneither, add_zero]
  sources source := by
    rw [hadds.sources, hx.sources, hy.sources]
    simp only [hunion, or_and_right, and_or_left, exists_or]
  keywords keyword := by
    rw [hadds.keywords, hx.keywords, hy.keywords]
    simp only [hunion, or_and_right, and_or_left, exists_or]

theorem spans_eq_iff {pair : String × String} (hsorted : getFromTo pair.1 pair.2 = pair) :
    Spans (fun n c => n = c) pair a b ↔ pair = getFromTo a b := by
  rw [← hsorted, getFromTo_eq_iff, hsorted]
  rfl

theorem gathers_edgeData (A : ExactSums) (g : Graph) (a b : String) :
    Gathers A (fun n c => n = c) g a b (g.edgeData a b) := by
  have hspans : ∀ edge ∈ g.edges, (Spans (fun n c => n = c) edge.1 a b ↔ edge.1 = getFromTo a b) :=
    fun edge hedge => spans_eq_iff (g.sorted edge hedge)
  rw [Graph.edgeData]
  rcases hget : g.edges.get? (getFromTo a b) with - | edge
  · have hnone : ∀ edge ∈ g.edges, ¬ Spans (fun n c => n = c) edge.1 a b := by
      intro edge hedge hends
      exact get?_eq_none.mp hget edge hedge ((hspans edge hedge).mp hends)
    refine ⟨?_, ?_, ?_, ?_⟩
    · simpa using hnone
    · rw [weightBetween, sum_eq_zero]
      · rfl
      · intro weight hweight
        obtain ⟨edge, hedge, rfl⟩ := mem_map.mp hweight
        rw [if_neg (hnone edge hedge)]
    · intro source
      simp only [Option.map_none, sourcesOf, Option.elim_none, not_mem_nil, false_iff]
      rintro ⟨edge, hedge, hends, -⟩
      exact hnone edge hedge hends
    · intro keyword
      simp only [Option.map_none, keywordsOf, Option.elim_none, not_mem_nil, false_iff]
      rintro ⟨edge, hedge, hends, -⟩
      exact hnone edge hedge hends
  · have hmem := mem_of_get? hget
    have hkey : edge.1 = getFromTo a b := key_of_get? hget
    have hends := (hspans edge hmem).mpr hkey
    have honly : ∀ other ∈ g.edges, Spans (fun n c => n = c) other.1 a b → other = edge := by
      intro other hother hotherEnds
      exact eq_of_key hother hmem (((hspans other hother).mp hotherEnds).trans hkey.symm)
    refine ⟨?_, ?_, ?_, ?_⟩
    · exact ⟨fun _ => ⟨edge, hmem, hends⟩, fun _ => rfl⟩
    · classical
      have hrows : g.edges.rows.Nodup := Nodup.of_map _ g.edges.nodup
      rw [weightBetween, sum_map_eq_nsmul_single edge, @count_eq_one_of_mem _ instBEqOfDecidableEq _ _ _ hrows hmem,
        one_nsmul,
        if_pos hends]
      · rfl
      · intro other hne hother
        exact if_neg fun hotherEnds => hne (honly other hother hotherEnds)
    · intro source
      constructor
      · intro hsource
        exact ⟨edge, hmem, hends, hsource⟩
      · rintro ⟨other, hother, hotherEnds, hsource⟩
        rw [honly other hother hotherEnds] at hsource
        exact hsource
    · intro keyword
      constructor
      · intro hkeyword
        exact ⟨edge, hmem, hends, hkeyword⟩
      · rintro ⟨other, hother, hotherEnds, hkeyword⟩
        rw [honly other hother hotherEnds] at hkeyword
        exact hkeyword

/-! ### While nodes are merged -/

/-- Where a node is, once the `merged` ones have gone to their representatives. -/
def place (σ : String → String) (merged : List String) (n : String) : String := if n ∈ merged then σ n else n

/-- The graph `g0` after the `merged` nodes have gone to their representatives.  Edges inside of
    a component are as they were; they go when their nodes do. -/
structure IsQuotient (A : ExactSums) (σ : String → String) (merged : List String) (g0 g : Graph) : Prop where
  nodes : ∀ n, g.hasNode n = true ↔ g0.hasNode n = true ∧ n ∉ merged
  between : ∀ a b, a ∉ merged → b ∉ merged → σ a ≠ σ b →
    Gathers A (fun n c => place σ merged n = c) g0 a b (g.edgeData a b)
  inside : ∀ a b, a ∉ merged → b ∉ merged → σ a = σ b → g.edgeData a b = g0.edgeData a b

variable {σ : String → String} {merged : List String} {g0 g' : Graph}

theorem isQuotient_nil (A : ExactSums) (σ : String → String) (g : Graph) : IsQuotient A σ [] g g where
  nodes n := by simp
  between a b _ _ _ := (gathers_edgeData A g a b).congr fun edge _ => by simp [place]
  inside _ _ _ _ _ := rfl

theorem place_append {r : String} (hidem : ∀ n, σ (σ n) = σ n) (hr : r ∉ merged) (hmoves : σ r ≠ r) (n : String) :
    place σ (merged ++ [r]) n = if place σ merged n = r then σ r else place σ merged n := by
  rw [place, place]
  by_cases hn : n ∈ merged
  · have hne : σ n ≠ r := by
      rintro rfl
      exact hmoves (hidem n)
    rw [if_pos (mem_append_left _ hn), if_pos hn, if_neg hne]
  · rw [if_neg hn]
    by_cases hnr : n = r
    · rw [hnr, if_pos (mem_append_right _ (mem_singleton_self _)), if_pos rfl]
    · have hnot : n ∉ merged ++ [r] := by simp [hn, hnr]
      rw [if_neg hnot, if_neg hnr]

theorem IsQuotient.step {S : List String} {p r : String} (h : IsQuotient A σ merged g0 g)
    (hidem : ∀ n, σ (σ n) = σ n) (hS : ∀ n, n ∈ S ↔ σ n = p) (hr : r ∈ S) (hpr : r ≠ p) (hp : p ∉ merged)
    (hfresh : r ∉ merged) (hc : Contracted A S p r g g') : IsQuotient A σ (merged ++ [r]) g0 g' := by
  have hσr : σ r = p := (hS r).mp hr
  have hσp : σ p = p := by rw [← hσr, hidem]
  have hmoves : σ r ≠ r := by
    rw [hσr]
    exact Ne.symm hpr
  have hplace := place_append hidem hfresh hmoves
  simp only [hσr] at hplace
  have hgoes : ∀ n, place σ (merged ++ [r]) n = p ↔ place σ merged n = p ∨ place σ merged n = r := by
    intro n
    rw [hplace]
    by_cases hn : place σ merged n = r
    · simp [hn]
    · simp [hn]
  have hstays : ∀ c, c ≠ p → c ≠ r → ∀ n, place σ (merged ++ [r]) n = c ↔ place σ merged n = c := by
    intro c hcp hcr n
    rw [hplace]
    by_cases hn : place σ merged n = r
    · simp [hn, Ne.symm hcp, Ne.symm hcr]
    · simp [hn]
  have htaken : ∀ b, b ∉ merged → b ≠ r → σ p ≠ σ b →
      Gathers A (fun n c => place σ (merged ++ [r]) n = c) g0 p b (g'.edgeData p b) := by
    intro b hb hbr hσb
    have hbp : b ≠ p := by
      rintro rfl
      exact hσb rfl
    have hbS : b ∉ S := fun hin => hσb (hσp.trans ((hS b).mp hin).symm)
    refine (h.between p b hp hb hσb).adds (h.between r b hfresh hb (by rwa [hσr, ← hσp])) (hc.taken b hbS) ?_ ?_
    · intro pair
      simp only [Spans, hgoes, hstays b hbp hbr]
      tauto
    · rintro pair ⟨⟨hfirst, hsecond⟩ | ⟨hfirst, hsecond⟩, ⟨hfirst', hsecond'⟩ | ⟨hfirst', hsecond'⟩⟩
      · exact hpr (hfirst'.symm.trans hfirst)
      · exact hbr (hsecond.symm.trans hsecond')
      · exact hbr (hfirst.symm.trans hfirst')
      · exact hpr (hsecond'.symm.trans hsecond)
  refine ⟨?_, ?_, ?_⟩
  · intro n
    rw [hc.nodes, h.nodes, mem_append, mem_singleton, not_or, and_assoc]
  · intro a b ha hb hσ
    rw [mem_append, mem_singleton, not_or] at ha hb
    by_cases hap : a = p
    · subst hap
      exact htaken b hb.1 hb.2 hσ
    · by_cases hbp : b = p
      · subst hbp
        rw [Graph.edgeData_comm]
        exact (htaken a ha.1 ha.2 (Ne.symm hσ)).comm
      · rw [hc.rest a b ha.2 hb.2 (fun hends => hap hends.1) fun hends => hbp hends.1]
        refine (h.between a b ha.1 hb.1 hσ).congr fun edge _ => ?_
        simp only [Spans, hstays a hap ha.2, hstays b hbp hb.2]
  · intro a b ha hb hσ
    rw [mem_append, mem_singleton, not_or] at ha hb
    rw [hc.rest a b ha.2 hb.2]
    · exact h.inside a b ha.1 hb.1 hσ
    · rintro ⟨rfl, hbS⟩
      exact hbS ((hS b).mpr (hσ.symm.trans hσp))
    · rintro ⟨rfl, haS⟩
      exact haS ((hS a).mpr (hσ.trans hσp))

/-! ### One component -/

namespace Merger

variable {M : Merger}

/-- What holds between the components. -/
structure Resolving (A : ExactSums) (σ : String → String) (merged : List String) (g0 : Graph)
    (resolved : Graph × GraphChange) : Prop where
  quotient : IsQuotient A σ merged g0 resolved.1
  ready : resolved.1.Ready A
  tells : Tells resolved.2 g0 resolved.1

variable {rest : List String}

theorem foldlM_mergeInto (hidem : ∀ n, σ (σ n) = σ n) {S : List String} {p : String} (hS : ∀ n, n ∈ S ↔ σ n = p)
    (hpS : p ∈ S) (hnodup : rest.Nodup) (hp : p ∉ merged ++ rest)
    (hrest : ∀ r ∈ rest, r ∈ S ∧ r ∉ merged ∧ g0.hasNode r = true) {st : Merging} (hst : Running M.sums S p st)
    (hquotient : IsQuotient M.sums σ merged g0 st.graph) (htells : Tells st.change g0 st.graph)
    (hupdated : p ∈ st.change.addedUpdatedNodes) (hrem : rest ⊆ st.change.removedNodes) :
    ∃ st', rest.foldlM (M.mergeInto p S) st = some st' ∧ Running M.sums S p st' ∧
      IsQuotient M.sums σ (merged ++ rest) g0 st'.graph ∧ Extends st.change st'.change ∧
      Tells st'.change g0 st'.graph := by
  induction rest generalizing merged st with
  | nil =>
    rw [append_nil]
    exact ⟨st, rfl, hst, hquotient, Extends.refl _, htells⟩
  | cons r rest ih =>
    rw [nodup_cons] at hnodup
    rw [forall_mem_cons] at hrest
    rw [cons_subset] at hrem
    obtain ⟨⟨hrS, hfresh, hnode⟩, hrest⟩ := hrest
    have hpr : r ≠ p := by
      rintro rfl
      exact hp (mem_append_right _ mem_cons_self)
    have hpm : p ∉ merged := fun hin => hp (mem_append_left _ hin)
    obtain ⟨mid, hmid, hrunning, hcontracted, hextends, hmidTells⟩ :=
      mergeInto_contracts hst hpS hrS hpr ((hquotient.nodes r).mpr ⟨hnode, hfresh⟩) hupdated hrem.1
    have hstep := hquotient.step hidem hS hrS hpr hpm hfresh hcontracted
    rw [append_cons] at hp
    have hfresh' : ∀ r' ∈ rest, r' ∈ S ∧ r' ∉ merged ++ [r] ∧ g0.hasNode r' = true := by
      intro r' hr'
      refine ⟨(hrest r' hr').1, ?_, (hrest r' hr').2.2⟩
      rw [mem_append, mem_singleton, not_or]
      refine ⟨(hrest r' hr').2.1, ?_⟩
      rintro rfl
      exact hnodup.1 hr'
    obtain ⟨st', hrun, hrunning', hquotient', hextends', htells'⟩ :=
      ih hnodup.2 hp hfresh' hrunning hstep (htells.trans hmidTells hextends)
        (hextends.addedUpdatedNodes hupdated) (Subset.trans hrem.2 hextends.removedNodes)
    rw [← append_cons] at hquotient'
    refine ⟨st', ?_, hrunning', hquotient', hextends.trans hextends', htells'⟩
    rw [foldlM_cons, hmid]
    exact hrun

theorem tells_mono {change change' : GraphChange} (h : Tells change g g')
    (hextends : Extends change change') : Tells change' g g' :=
  h.trans (tells_refl change' g') hextends

structure Component (σ : String → String) (g0 : Graph) (p : String) (rest : List String) : Prop where
  nodup : (p :: rest).Nodup
  same : ∀ n, n ∈ p :: rest ↔ σ n = p
  hasNode : ∀ n ∈ p :: rest, g0.hasNode n = true

theorem mergeGraphNodes_resolves (hidem : ∀ n, σ (σ n) = σ n) {p : String}
    (hcomp : Component σ g0 p rest) (hfresh : ∀ n ∈ p :: rest, n ∉ merged) {resolved : Graph × GraphChange}
    (hreso : Resolving M.sums σ merged g0 resolved) :
    ∃ resolved', M.mergeGraphNodes resolved (p :: rest) = some resolved' ∧
      Resolving M.sums σ (merged ++ rest) g0 resolved' := by
  obtain ⟨g, change⟩ := resolved
  obtain ⟨hquotient, hready, htells⟩ := hreso
  have hnodup := nodup_cons.mp hcomp.nodup
  rcases rest with - | ⟨r, rest⟩
  · rw [append_nil]
    exact ⟨_, rfl, hquotient, hready, htells⟩
  · let change0 : GraphChange :=
      { change with
        addedUpdatedNodes := change.addedUpdatedNodes ++ [p]
        removedNodes := change.removedNodes ++ r :: rest }
    have hextends0 : Extends change change0 :=
      ⟨subset_append_left _ _, subset_append_left _ _, Subset.refl _, Subset.refl _⟩
    have hpnode : g.hasNode p = true :=
      (hquotient.nodes p).mpr ⟨hcomp.hasNode p mem_cons_self, hfresh p mem_cons_self⟩
    have hstart : Running M.sums (p :: r :: rest) p ⟨g, g.neighbors p, change0⟩ :=
      ⟨hpnode, fun n _ => Graph.mem_neighbors, hready⟩
    have hp : p ∉ merged ++ r :: rest := by
      rw [mem_append, not_or]
      exact ⟨hfresh p mem_cons_self, hnodup.1⟩
    have hrest : ∀ r' ∈ r :: rest, r' ∈ p :: r :: rest ∧ r' ∉ merged ∧ g0.hasNode r' = true := by
      intro r' hr'
      have hin := mem_cons_of_mem p hr'
      exact ⟨hin, hfresh r' hin, hcomp.hasNode r' hin⟩
    obtain ⟨st, hrun, hrunning, hquotient', hextends, htells'⟩ :=
      foldlM_mergeInto hidem hcomp.same mem_cons_self hnodup.2 hp hrest hstart hquotient
        (tells_mono htells hextends0) (mem_append_right _ (mem_singleton_self p))
        (subset_append_right _ _)
    obtain ⟨attrs, hattrs⟩ := Option.isSome_iff_exists.mp (Graph.hasNode_iff_nodeData.mp hrunning.hasNode)
    obtain ⟨description, hdesc⟩ := Option.isSome_iff_exists.mp (hrunning.ready.nodes _ _ hattrs)
    have hupdated : p ∈ st.change.addedUpdatedNodes :=
      hextends.addedUpdatedNodes (mem_append_right _ (mem_singleton_self p))
    let last := attrs.set "description" (.str (M.summary p description))
    have hlast : last.description?.isSome = true := by
      rw [Attrs.description?_set_description, Option.isSome_some]
    refine ⟨(st.graph.putNode p last, st.change), ?_, ⟨⟨?_, hquotient'.between, hquotient'.inside⟩,
      ready_putNode hrunning.ready hlast, htells'.trans (tells_putNode hupdated last) (Extends.refl _)⟩⟩
    · have hfinish : M.finish p st = some (st.graph.putNode p last, st.change) := by
        rw [finish, hattrs, Option.bind_some, hdesc]
        rfl
      exact (congrArg (fun st? => st?.bind (M.finish p)) hrun).trans hfinish
    · intro n
      rw [Graph.hasNode_putNode hrunning.hasNode]
      exact hquotient'.nodes n

end Merger

/-! ### All components -/

/-- Nodes that the accepted pairs connect. -/
def Same (pairs : List (String × String)) (a b : String) : Prop := Relation.EqvGen (fun a b => (a, b) ∈ pairs) a b

/-- `nx.connected_components` of the graph of the accepted pairs, as lists in any order. -/
structure Components (pairs : List (String × String)) (components : List (List String)) : Prop where
  nodup : components.flatten.Nodup
  nonempty : [] ∉ components
  same : ∀ c ∈ components, ∀ a ∈ c, ∀ b, b ∈ c ↔ Same pairs a b
  touched : ∀ n, n ∈ components.flatten ↔ ∃ pair ∈ pairs, n = pair.1 ∨ n = pair.2

def representative (components : List (List String)) (n : String) : String :=
  ((components.find? fun c => n ∈ c).bind List.head?).getD n

variable {pairs : List (String × String)} {components : List (List String)} {n : String}

theorem eq_of_mem_flatten (hnodup : components.flatten.Nodup) {c c' : List String} (hc : c ∈ components)
    (hc' : c' ∈ components) (hn : n ∈ c) (hn' : n ∈ c') : c = c' := by
  have hsymm : @Std.Symm (List String) List.Disjoint := ⟨fun _ _ => disjoint_symm⟩
  by_contra hne
  exact (nodup_flatten.mp hnodup).2.forall hc hc' hne hn hn'

theorem representative_of_mem (hnodup : components.flatten.Nodup) {p : String} {rest : List String}
    (hc : p :: rest ∈ components) (hn : n ∈ p :: rest) : representative components n = p := by
  rw [representative]
  rcases hfind : components.find? (fun c => n ∈ c) with - | c'
  · exact absurd (decide_eq_true hn) (find?_eq_none.mp hfind _ hc)
  · have hn' : n ∈ c' := by simpa using find?_some hfind
    obtain rfl := eq_of_mem_flatten hnodup hc (mem_of_find?_eq_some hfind) hn hn'
    rw [hfind]
    rfl

theorem representative_of_not_mem (hn : n ∉ components.flatten) : representative components n = n := by
  rw [representative]
  have hfind : components.find? (fun c => n ∈ c) = none := by
    rw [find?_eq_none]
    intro c hc hin
    exact hn (mem_flatten.mpr ⟨c, hc, of_decide_eq_true hin⟩)
  rw [hfind]
  rfl

section

variable (h : Components pairs components)
include h

theorem Components.exists_cons {c : List String} (hc : c ∈ components) :
    ∃ p rest, c = p :: rest := by
  rcases c with - | ⟨p, rest⟩
  · exact absurd hc h.nonempty
  · exact ⟨p, rest, rfl⟩

theorem Components.mem_iff {p : String} {rest : List String}
    (hc : p :: rest ∈ components) (n : String) : n ∈ p :: rest ↔ representative components n = p := by
  refine ⟨representative_of_mem h.nodup hc, fun hn => ?_⟩
  by_cases hin : n ∈ components.flatten
  · obtain ⟨c', hc', hn'⟩ := mem_flatten.mp hin
    obtain ⟨p', rest', rfl⟩ := h.exists_cons hc'
    rw [representative_of_mem h.nodup hc' hn'] at hn
    subst hn
    rw [eq_of_mem_flatten h.nodup hc hc' mem_cons_self mem_cons_self]
    exact hn'
  · rw [representative_of_not_mem hin] at hn
    rw [hn]
    exact mem_cons_self

theorem Components.representative_idem (n : String) :
    representative components (representative components n) = representative components n := by
  by_cases hin : n ∈ components.flatten
  · obtain ⟨c, hc, hn⟩ := mem_flatten.mp hin
    obtain ⟨p, rest, rfl⟩ := h.exists_cons hc
    rw [representative_of_mem h.nodup hc hn]
    exact representative_of_mem h.nodup hc mem_cons_self
  · rw [representative_of_not_mem hin, representative_of_not_mem hin]

theorem Components.eq_or_touched (hsame : Same pairs a b) :
    a = b ∨ (a ∈ components.flatten ∧ b ∈ components.flatten) := by
  induction hsame with
  | rel a b hpair =>
    exact .inr ⟨(h.touched a).mpr ⟨_, hpair, .inl rfl⟩, (h.touched b).mpr ⟨_, hpair, .inr rfl⟩⟩
  | refl a => exact .inl rfl
  | symm a b _ ih => exact ih.imp Eq.symm And.symm
  | trans a b c _ _ ih ih' =>
    rcases ih with rfl | ih
    · exact ih'
    · rcases ih' with rfl | ih'
      · exact .inr ih
      · exact .inr ⟨ih.1, ih'.2⟩

theorem Components.representative_eq_iff :
    representative components a = representative components b ↔ Same pairs a b := by
  by_cases ha : a ∈ components.flatten
  · obtain ⟨c, hc, hac⟩ := mem_flatten.mp ha
    obtain ⟨p, rest, rfl⟩ := h.exists_cons hc
    rw [representative_of_mem h.nodup hc hac, eq_comm, ← h.mem_iff hc, h.same _ hc _ hac]
  · constructor
    · intro heq
      rw [representative_of_not_mem ha] at heq
      by_cases hb : b ∈ components.flatten
      · obtain ⟨c, hc, hbc⟩ := mem_flatten.mp hb
        obtain ⟨p, rest, rfl⟩ := h.exists_cons hc
        rw [representative_of_mem h.nodup hc hbc] at heq
        rw [heq] at ha
        exact absurd (mem_flatten.mpr ⟨_, hc, mem_cons_self⟩) ha
      · rw [representative_of_not_mem hb] at heq
        rw [heq]
        exact Relation.EqvGen.refl b
    · intro hsame
      rcases h.eq_or_touched hsame with rfl | htouched
      · rfl
      · exact absurd htouched.1 ha

theorem Components.mem_tails :
    n ∈ components.flatMap List.tail ↔ representative components n ≠ n := by
  rw [mem_flatMap]
  constructor
  · rintro ⟨c, hc, hn⟩
    obtain ⟨p, rest, rfl⟩ := h.exists_cons hc
    have hnodup := nodup_cons.mp ((nodup_flatten.mp h.nodup).1 _ hc)
    rw [representative_of_mem h.nodup hc (mem_of_mem_tail hn)]
    rintro rfl
    exact hnodup.1 hn
  · intro hne
    by_cases hin : n ∈ components.flatten
    · obtain ⟨c, hc, hn⟩ := mem_flatten.mp hin
      obtain ⟨p, rest, rfl⟩ := h.exists_cons hc
      rw [representative_of_mem h.nodup hc hn] at hne
      exact ⟨_, hc, (mem_cons.mp hn).resolve_left (Ne.symm hne)⟩
    · exact absurd (representative_of_not_mem hin) hne

end

namespace Merger

variable {M : Merger}

theorem foldlM_mergeGraphNodes (hidem : ∀ n, σ (σ n) = σ n)
    (hcomps : ∀ c ∈ components, ∃ p rest, c = p :: rest ∧ Component σ g0 p rest)
    (hnodup : components.flatten.Nodup) (hfresh : ∀ n ∈ components.flatten, n ∉ merged)
    {resolved : Graph × GraphChange} (hreso : Resolving M.sums σ merged g0 resolved) :
    ∃ resolved', components.foldlM M.mergeGraphNodes resolved = some resolved' ∧
      Resolving M.sums σ (merged ++ components.flatMap List.tail) g0 resolved' := by
  induction components generalizing merged resolved with
  | nil =>
    rw [flatMap_nil, append_nil]
    exact ⟨resolved, rfl, hreso⟩
  | cons c components ih =>
    rw [forall_mem_cons] at hcomps
    obtain ⟨⟨p, rest, rfl, hcomp⟩, hcomps⟩ := hcomps
    rw [flatten_cons] at hnodup hfresh
    obtain ⟨-, hnodup', hdisjoint⟩ := nodup_append'.mp hnodup
    obtain ⟨mid, hmid, hmidResolving⟩ :=
      mergeGraphNodes_resolves hidem hcomp (fun n hn => hfresh n (mem_append_left _ hn)) hreso
    have hfresh' : ∀ n ∈ components.flatten, n ∉ merged ++ rest := by
      intro n hn
      rw [mem_append, not_or]
      exact ⟨hfresh n (mem_append_right _ hn), fun hin => hdisjoint (mem_cons_of_mem p hin) hn⟩
    obtain ⟨resolved', hrun, hresolving⟩ := ih hcomps hnodup' hfresh' hmidResolving
    rw [append_assoc] at hresolving
    refine ⟨resolved', ?_, hresolving⟩
    rw [foldlM_cons, hmid]
    exact hrun

/-- Entity resolution gives the quotient graph: of the nodes that the accepted pairs connect
    one remains, the first of its component; two remaining nodes have an edge when some nodes
    of their components had, with the sum of the weights and the united sources and keywords;
    an edge inside of a component remains only as a loop that was there; and the change tells
    every difference. -/
theorem mergeComponents_quotient {pairs : List (String × String)} {components : List (List String)}
    (hcomponents : Components pairs components) {g : Graph} (hready : g.Ready M.sums)
    (hpairs : ∀ pair ∈ pairs, g.hasNode pair.1 = true ∧ g.hasNode pair.2 = true) :
    ∃ g' change, M.mergeComponents g components = some (g', change) ∧
      (∀ n, g'.hasNode n = true → g.hasNode n = true) ∧
      (∀ n, g.hasNode n = true → ∃! m, g'.hasNode m = true ∧ Same pairs n m) ∧
      (∀ c ∈ components, ∀ n ∈ c, g'.hasNode n = true ↔ c.head? = some n) ∧
      (∀ a b, (g'.edgeData a b).isSome = true → Same pairs a b → a = b ∧ g'.edgeData a b = g.edgeData a b) ∧
      (∀ n, g'.hasNode n = true → g'.edgeData n n = g.edgeData n n) ∧
      (∀ a b, g'.hasNode a = true → g'.hasNode b = true → a ≠ b →
        Gathers M.sums (Same pairs) g a b (g'.edgeData a b)) ∧
      Tells change g g' := by
  let σ := representative components
  have hidem : ∀ n, σ (σ n) = σ n := hcomponents.representative_idem
  have hthere : ∀ n ∈ components.flatten, g.hasNode n = true := by
    intro n hn
    obtain ⟨pair, hpair, rfl | rfl⟩ := (hcomponents.touched n).mp hn
    · exact (hpairs pair hpair).1
    · exact (hpairs pair hpair).2
  have hcomponent : ∀ c ∈ components, ∃ p rest, c = p :: rest ∧ Component σ g p rest := by
    intro c hc
    obtain ⟨p, rest, rfl⟩ := hcomponents.exists_cons hc
    exact ⟨p, rest, rfl, (nodup_flatten.mp hcomponents.nodup).1 _ hc, hcomponents.mem_iff hc,
      fun n hn => hthere n (mem_flatten.mpr ⟨_, hc, hn⟩)⟩
  have hstart : Resolving M.sums σ [] g (g, ⟨[], [], [], []⟩) :=
    ⟨isQuotient_nil M.sums σ g, hready, tells_refl _ g⟩
  obtain ⟨⟨g', change⟩, hrun, hquotient, -, htells⟩ :=
    foldlM_mergeGraphNodes hidem hcomponent hcomponents.nodup (fun _ _ => not_mem_nil) hstart
  rw [nil_append] at hquotient
  have hmerged : ∀ n, n ∉ components.flatMap List.tail ↔ σ n = n := fun n => by rw [hcomponents.mem_tails, not_not]
  have hnodes : ∀ n, g'.hasNode n = true ↔ g.hasNode n = true ∧ σ n = n := by
    intro n
    rw [hquotient.nodes, hmerged]
  have hplace : ∀ n, place σ (components.flatMap List.tail) n = σ n := by
    intro n
    rw [place]
    split
    · rfl
    · next hn => exact ((hmerged n).mp hn).symm
  have hbelongs : ∀ n a, σ a = a → (σ n = a ↔ Same pairs n a) := by
    intro n a ha
    rw [← hcomponents.representative_eq_iff]
    exact Eq.congr_right ha.symm
  have hinside : ∀ a b, g'.hasNode a = true → g'.hasNode b = true → Same pairs a b →
      a = b ∧ g'.edgeData a b = g.edgeData a b := by
    intro a b ha hb hsame
    have hσa := ((hnodes a).mp ha).2
    have hσb := ((hnodes b).mp hb).2
    have hσ : σ a = σ b := hcomponents.representative_eq_iff.mpr hsame
    refine ⟨?_, hquotient.inside a b ((hmerged a).mpr hσa) ((hmerged b).mpr hσb) hσ⟩
    rw [← hσa, ← hσb, hσ]
  refine ⟨g', change, hrun, fun n hn => ((hnodes n).mp hn).1, ?_, ?_, ?_, ?_, ?_, htells⟩
  · intro n hn
    have hroot : g.hasNode (σ n) = true := by
      by_cases hin : n ∈ components.flatten
      · obtain ⟨c, hc, hnc⟩ := mem_flatten.mp hin
        obtain ⟨p, rest, rfl⟩ := hcomponents.exists_cons hc
        have hσn : σ n = p := representative_of_mem hcomponents.nodup hc hnc
        rw [hσn]
        exact hthere p (mem_flatten.mpr ⟨_, hc, mem_cons_self⟩)
      · have hσn : σ n = n := representative_of_not_mem hin
        rw [hσn]
        exact hn
    refine ⟨σ n, ⟨(hnodes _).mpr ⟨hroot, hidem n⟩, (hbelongs n (σ n) (hidem n)).mp rfl⟩, ?_⟩
    rintro m ⟨hm, hsame⟩
    exact ((hbelongs n m ((hnodes m).mp hm).2).mpr hsame).symm
  · intro c hc n hn
    obtain ⟨p, rest, rfl⟩ := hcomponents.exists_cons hc
    have hσn : σ n = p := representative_of_mem hcomponents.nodup hc hn
    rw [hnodes, hσn, head?_cons, Option.some_inj]
    exact and_iff_right (hthere n (mem_flatten.mpr ⟨_, hc, hn⟩))
  · intro a b hedge hsame
    obtain ⟨ha, hb⟩ := Graph.joins_of_edgeData hedge
    exact hinside a b ha hb hsame
  · intro n hn
    exact (hinside n n hn hn (Relation.EqvGen.refl n)).2
  · intro a b ha hb hne
    have hσa := ((hnodes a).mp ha).2
    have hσb := ((hnodes b).mp hb).2
    have hσ : σ a ≠ σ b := by rwa [hσa, hσb]
    refine (hquotient.between a b ((hmerged a).mpr hσa) ((hmerged b).mpr hσb) hσ).congr fun edge _ => ?_
    simp only [Spans, hplace, hbelongs _ a hσa, hbelongs _ b hσb]

end Merger

/-! ### Two names of one entity -/

theorem ready_of_rows
    (hnodes : ∀ node ∈ g.nodes, node.2.description?.isSome = true) (hedges : ∀ edge ∈ g.edges, EdgeReady A edge.2) :
    g.Ready A where
  nodes n attrs h := by
    obtain ⟨node, hnode, rfl⟩ := Option.map_eq_some_iff.mp h
    exact hnodes node (mem_of_get? hnode)
  edges a b attrs h := by
    obtain ⟨edge, hedge, rfl⟩ := Option.map_eq_some_iff.mp h
    exact hedges edge (mem_of_get? hedge)

def entityAttrs (description : String) : Attrs := ⟨["d"], .single ("description", .str description)⟩

def relationAttrs (weight : Int) (keyword : String) : Attrs :=
  ⟨["d"], ⟨[("weight", .int weight), ("description", .str ""), ("keywords", .arr [.str keyword])], by simp⟩⟩

def twoNames : Graph where
  documents := ["d"]
  revision := ""
  nodes := ⟨[("a", entityAttrs "x"), ("b", entityAttrs "y"), ("c", entityAttrs "z")], by decide⟩
  edges := ⟨[(("a", "c"), relationAttrs 1 "k"), (("b", "c"), relationAttrs 2 "l")], by decide⟩
  sorted := by
    intro edge hedge
    rcases mem_cons.mp hedge with rfl | hedge
    · decide
    · rw [mem_singleton.mp hedge]
      decide
  joins := by
    intro edge hedge
    rcases mem_cons.mp hedge with rfl | hedge
    · exact ⟨rfl, rfl⟩
    · rw [mem_singleton.mp hedge]
      exact ⟨rfl, rfl⟩

theorem twoNames_ready : twoNames.Ready integers := by
  refine ready_of_rows (fun node hnode => ?_) fun edge hedge => ?_
  · simp only [twoNames, mem_def, mem_cons, not_mem_nil, or_false] at hnode
    rcases hnode with rfl | rfl | rfl
    · rfl
    · rfl
    · rfl
  · simp only [twoNames, mem_def, mem_cons, not_mem_nil, or_false] at hedge
    rcases hedge with rfl | rfl
    · exact ⟨rfl, rfl, rfl⟩
    · exact ⟨rfl, rfl, rfl⟩

def plainMerger : Merger := ⟨integers, fun _ description => description, id, fun _ => Perm.refl _⟩

theorem components_pair : Components [("a", "b")] [["a", "b"]] where
  nodup := by decide
  nonempty := by decide
  same c hc a ha b := by
    have hrel : Same [("a", "b")] "a" "b" := Relation.EqvGen.rel _ _ (mem_singleton_self _)
    obtain rfl := mem_singleton.mp hc
    constructor
    · intro hb
      rw [mem_cons, mem_singleton] at ha hb
      rcases ha with rfl | rfl <;> rcases hb with rfl | rfl
      · exact Relation.EqvGen.refl _
      · exact hrel
      · exact Relation.EqvGen.symm _ _ hrel
      · exact Relation.EqvGen.refl _
    · intro hsame
      suffices hiff : a ∈ ["a", "b"] ↔ b ∈ ["a", "b"] from hiff.mp ha
      clear ha
      induction hsame with
      | rel a b hpair =>
        obtain ⟨rfl, rfl⟩ := Prod.mk.inj (mem_singleton.mp hpair)
        simp
      | refl a => exact Iff.rfl
      | symm a b _ ih => exact ih.symm
      | trans a b c _ _ ih ih' => exact ih.trans ih'
  touched n := by simp

theorem mergeComponents_quotient_two :
    ∃ g' change, plainMerger.mergeComponents twoNames [["a", "b"]] = some (g', change) ∧
      g'.hasNode "a" = true ∧ ¬ g'.hasNode "b" = true ∧
      Gathers integers (Same [("a", "b")]) twoNames "a" "c" (g'.edgeData "a" "c") ∧ Tells change twoNames g' := by
  obtain ⟨g', change, hrun, -, hone, hfirst, -, -, hedges, htells⟩ :=
    Merger.mergeComponents_quotient (M := plainMerger) components_pair twoNames_ready
      (by simp only [forall_mem_singleton]; exact ⟨rfl, rfl⟩)
  have ha : g'.hasNode "a" = true := (hfirst _ (mem_singleton_self _) "a" (by decide)).mpr rfl
  have hb : ¬ g'.hasNode "b" = true := by
    rw [hfirst _ (mem_singleton_self _) "b" (by decide)]
    decide
  have hc : g'.hasNode "c" = true := by
    obtain ⟨m, ⟨hm, hsame⟩, -⟩ := hone "c" rfl
    rcases components_pair.eq_or_touched hsame with rfl | htouched
    · exact hm
    · exact absurd htouched.1 (by decide)
  exact ⟨g', change, hrun, ha, hb, hedges "a" "c" ha hc (by decide), htells⟩

end MultiRag.GraphRag
