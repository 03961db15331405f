/-
  **Paths of at most `n_hop` edges** (`n_neighbor` in `core/graphrag/utils.py`).

  One round of `merge_tuples` turns the `NHopWalk`s of `n` edges into those of `n + 1`.
-/
import MultiRag.EntityContraction
import MultiRag.Fallible
import MultiRag.PyNumerals
import MultiRag.PyValue

namespace MultiRag.GraphRag.NHop

open List

/-! ### The search -/

/-- `itertools.pairwise` -/
def pairwise (path : List String) : List (String × String) := path.zip path.tail

/-- Some place before the last holds the first end, and the next one the other. -/
def isContinuousSubsequence (subseq : String × String) (seq : List String) : Bool :=
  (range seq.length).any fun idx =>
    seq[idx]? = some subseq.1 && idx != seq.length - 1 && seq[idx + 1]? = some subseq.2

/-- The loop over the matching tuples. -/
def merged (list2 : List (String × String)) (last : String) (tup : List String) : List (List String) :=
  let matching := list2.filter fun edge => edge.1 = last
  (matching.filter fun edge => !(isContinuousSubsequence edge tup || isContinuousSubsequence edge.swap tup)).map
    fun edge => tup ++ [edge.2]

/-- One tuple of `list1`; an empty one, which raises, does not occur. -/
def mergeTuple (list2 : List (String × String)) (tup : List String) : List (List String) :=
  match tup.getLast? with
  | none => []
  | some last =>
    if last ∈ tup.dropLast then [tup]
    else if (merged list2 last tup).isEmpty then [tup]
    else merged list2 last tup

def mergeTuples (list1 : List (List String)) (list2 : List (String × String)) : List (List String) :=
  list1.flatMap (mergeTuple list2)

/-- `sorted(graph.edges(node))`, where all edges begin with the node. -/
def sortedEdges (g : Graph) (node : String) : List (String × String) :=
  ((g.neighbors node).mergeSort fun a b => a ≤ b).map (Prod.mk node)

/-- The paths after as many rounds. -/
def grow (g : Graph) (node : String) : Nat → List (List String)
  | 0 => (sortedEdges g node).map fun edge => [edge.1, edge.2]
  | rounds + 1 => (grow g node rounds).flatMap fun path => mergeTuples [path] (sortedEdges g (path.getLastD node))

inductive WeightError where
  | float
  | value (message : String)
deriving DecidableEq

/-- `float(value)`; `none` where it raises. -/
def floatOf (unicodeDecimal : Char → Option Nat) : Json → Option Float.Model
  | .bool b => floatOfInt (if b then 1 else 0)
  | .int n => floatOfInt n
  | .float text => floatOfText unicodeDecimal text
  | .str text => floatOfText unicodeDecimal text
  | _ => none

def edgeWeight (unicodeDecimal : Char → Option Nat) (g : Graph) (pair : String × String) :
    Except WeightError Float.Model :=
  let stored := ((g.edgeData pair.1 pair.2).bind fun attrs => attrs.field? "weight").getD (.int 0)
  match floatOf unicodeDecimal (stored.pyOr (.int 0)) with
  | none => .error .float
  | some weight => if weight.isFinite then .ok weight else .error (.value "N-hop edge weight must be finite")

/-- One entry of the result. -/
def withWeights (unicodeDecimal : Char → Option Nat) (g : Graph) (path : List String) :
    Except WeightError (List String × List Float.Model) := do
  let weights ← (pairwise path).mapM (edgeWeight unicodeDecimal g)
  return (path, weights)

def nNeighbor (unicodeDecimal : Char → Option Nat) (g : Graph) (node : String) (nHop : Int) :
    Except WeightError (List (List String × List Float.Model)) :=
  if nHop ≤ 0 then .ok []
  else ((grow g node (nHop.toNat - 1)).mergeSort fun a b => a ≤ b).mapM (withWeights unicodeDecimal g)

/-! ### The paths that are meant -/

def edgesOf (path : List String) : List (String × String) := (pairwise path).map fun pair => getFromTo pair.1 pair.2

@[mk_iff]
structure NHopWalk (g : Graph) (node : String) (nHop : Nat) (path : List String) : Prop where
  start : path.head? = some node
  walk : ∀ pair ∈ pairwise path, (g.edgeData pair.1 pair.2).isSome = true
  once : (edgesOf path).Nodup
  length : path.length ≤ nHop + 1
  fresh : path.dropLast.Nodup
  maximal : path.length = nHop + 1 ∨ ∀ last ∈ path.getLast?, last ∈ path.dropLast ∨
    ∀ other, (g.edgeData last other).isSome = true → getFromTo last other ∈ edgesOf path

variable {g : Graph} {node last other : String} {front path path' : List String} {n : Nat}

theorem pairwise_concat (front : List String) (last other : String) :
    pairwise (front ++ [last, other]) = pairwise (front ++ [last]) ++ [(last, other)] := by
  induction front with
  | nil => rfl
  | cons a front ih =>
    cases front with
    | nil => rfl
    | cons b front => exact congrArg (cons (a, b)) ih

theorem edgesOf_concat (front : List String) (last other : String) :
    edgesOf (front ++ [last, other]) = edgesOf (front ++ [last]) ++ [getFromTo last other] := by
  rw [edgesOf, pairwise_concat, map_append]
  rfl

theorem isContinuousSubsequence_iff (subseq : String × String) (seq : List String) :
    isContinuousSubsequence subseq seq = true ↔ subseq ∈ pairwise seq := by
  rw [isContinuousSubsequence, any_eq_true, pairwise, mem_iff_getElem?]
  constructor
  · rintro ⟨idx, -, h⟩
    simp only [Bool.and_eq_true, decide_eq_true_eq] at h
    refine ⟨idx, getElem?_zip_eq_some.mpr ⟨h.1.1, ?_⟩⟩
    rw [getElem?_tail]
    exact h.2
  · rintro ⟨idx, h⟩
    obtain ⟨hfirst, hsecond⟩ := getElem?_zip_eq_some.mp h
    rw [getElem?_tail] at hsecond
    obtain ⟨hlt, -⟩ := List.getElem?_eq_some_iff.mp hsecond
    refine ⟨idx, mem_range.mpr (by omega), ?_⟩
    have hne : idx ≠ seq.length - 1 := by omega
    simp [hfirst, hsecond, hne]

/-- The test for either direction asks whether the edge was used. -/
theorem used_iff (edge : String × String) (path : List String) :
    (isContinuousSubsequence edge path || isContinuousSubsequence edge.swap path) = true ↔
      getFromTo edge.1 edge.2 ∈ edgesOf path := by
  rw [Bool.or_eq_true, isContinuousSubsequence_iff, isContinuousSubsequence_iff, edgesOf, mem_map]
  constructor
  · rintro (h | h)
    · exact ⟨edge, h, rfl⟩
    · exact ⟨edge.swap, h, getFromTo_comm _ _⟩
  · rintro ⟨pair, hpair, heq⟩
    rcases getFromTo_inj heq with rfl | rfl
    · exact .inl hpair
    · exact .inr hpair

theorem mem_sortedEdges (edge : String × String) :
    edge ∈ sortedEdges g node ↔ edge.1 = node ∧ (g.edgeData node edge.2).isSome = true := by
  obtain ⟨first, second⟩ := edge
  simp only [sortedEdges, mem_map, mem_mergeSort, Graph.mem_neighbors, Prod.mk.injEq]
  constructor
  · rintro ⟨other, hother, rfl, rfl⟩
    exact ⟨rfl, hother⟩
  · rintro ⟨rfl, hother⟩
    exact ⟨second, hother, rfl, rfl⟩

theorem nodup_sortedEdges (g : Graph) (node : String) : (sortedEdges g node).Nodup := by
  have hsorted := (mergeSort_perm (g.neighbors node) fun a b => a ≤ b).nodup_iff.mpr (Graph.nodup_neighbors g node)
  exact hsorted.map (Prod.mk_right_injective node)

/-- The path goes on along an edge that it has not used. -/
def Free (g : Graph) (path : List String) (last other : String) : Prop :=
  (g.edgeData last other).isSome = true ∧ getFromTo last other ∉ edgesOf path

theorem mem_merged : path' ∈ merged (sortedEdges g last) last (front ++ [last]) ↔
    ∃ other, Free g (front ++ [last]) last other ∧ path' = front ++ [last, other] := by
  simp only [merged, mem_map, mem_filter, mem_sortedEdges, decide_eq_true_eq, Bool.not_eq_true', ← Bool.not_eq_true,
    used_iff, append_assoc, cons_append, nil_append]
  constructor
  · rintro ⟨edge, ⟨⟨⟨hfirst, hedge⟩, -⟩, hunused⟩, rfl⟩
    rw [hfirst] at hunused
    exact ⟨edge.2, ⟨hedge, hunused⟩, rfl⟩
  · rintro ⟨other, ⟨hedge, hunused⟩, rfl⟩
    exact ⟨(last, other), ⟨⟨⟨rfl, hedge⟩, rfl⟩, hunused⟩, rfl⟩

theorem mem_mergeTuple (front : List String) (last : String) :
    path' ∈ mergeTuple (sortedEdges g last) (front ++ [last]) ↔
      (∃ other, last ∉ front ∧ Free g (front ++ [last]) last other ∧ path' = front ++ [last, other]) ∨
      (path' = front ++ [last] ∧ (last ∈ front ∨ ∀ other, ¬ Free g (front ++ [last]) last other)) := by
  rw [mergeTuple, getLast?_concat]
  simp only [dropLast_concat]
  by_cases hlast : last ∈ front
  · simp [hlast]
  by_cases hfree : ∃ other, Free g (front ++ [last]) last other
  · obtain ⟨other, hother⟩ := hfree
    have hsome := ne_nil_of_mem (mem_merged.mpr ⟨other, hother, rfl⟩)
    rw [if_neg hlast, if_neg (by simpa using hsome), mem_merged]
    constructor
    · rintro ⟨next, hnext, heq⟩
      exact .inl ⟨next, hlast, hnext, heq⟩
    · rintro (⟨next, -, hnext, heq⟩ | ⟨-, hin | hnone⟩)
      · exact ⟨next, hnext, heq⟩
      · exact absurd hin hlast
      · exact absurd hother (hnone other)
  · have hnone : merged (sortedEdges g last) last (front ++ [last]) = [] := by
      rw [eq_nil_iff_forall_not_mem]
      intro next hnext
      obtain ⟨other, hother, -⟩ := mem_merged.mp hnext
      exact hfree ⟨other, hother⟩
    simp [hlast, hnone, not_exists.mp hfree]

/-! ### One round -/


theorem ended_iff :
    (∀ last' ∈ (front ++ [last]).getLast?, last' ∈ (front ++ [last]).dropLast ∨
      ∀ other, (g.edgeData last' other).isSome = true → getFromTo last' other ∈ edgesOf (front ++ [last])) ↔
      last ∈ front ∨ ∀ other, ¬ Free g (front ++ [last]) last other := by
  simp [Free]

theorem NHopWalk.length_eq (h : NHopWalk g node (n + 1) (front ++ [last])) (hlast : last ∉ front)
    (hfree : Free g (front ++ [last]) last other) : front.length = n + 1 := by
  have hlength := h.maximal.resolve_right fun hended => (ended_iff.mp hended).elim hlast fun hnone => hnone other hfree
  simpa using hlength

theorem nHopWalk_concat_iff (hlength : front.length = n + 1) :
    NHopWalk g node (n + 2) (front ++ [last, other]) ↔
      NHopWalk g node (n + 1) (front ++ [last]) ∧ last ∉ front ∧ Free g (front ++ [last]) last other := by
  have hhead : (front ++ [last, other]).head? = (front ++ [last]).head? := by cases front <;> rfl
  have hsplit : (front ++ [last, other]).dropLast = front ++ [last] := by simp
  rw [nHopWalk_iff, nHopWalk_iff, hhead, pairwise_concat, edgesOf_concat, hsplit, dropLast_concat, Free,
    ← @concat_eq_append _ (edgesOf _), nodup_concat, ← @concat_eq_append _ front, nodup_concat]
  simp only [hlength, length_append, length_concat, length_cons, length_nil, forall_mem_append, forall_mem_singleton]
  tauto

theorem exists_concat (h : 2 ≤ path.length) : ∃ front last, path = front ++ [last] := by
  apply (eq_nil_or_concat' path).resolve_left
  rintro rfl
  exact absurd h (by decide)

/-- A round makes of the walks of at most `n + 1` edges those of at most `n + 2`. -/
theorem nHopWalk_round :
    (∃ path, (NHopWalk g node (n + 1) path ∧ 2 ≤ path.length) ∧
      path' ∈ mergeTuple (sortedEdges g (path.getLastD node)) path) ↔
      NHopWalk g node (n + 2) path' ∧ 2 ≤ path'.length := by
  constructor
  · rintro ⟨path, ⟨h, hlength⟩, hmem⟩
    obtain ⟨front, last, rfl⟩ := exists_concat hlength
    rw [getLastD_concat, mem_mergeTuple] at hmem
    rcases hmem with ⟨other, hlast, hfree, rfl⟩ | ⟨rfl, hended⟩
    · exact ⟨(nHopWalk_concat_iff (h.length_eq hlast hfree)).mpr ⟨h, hlast, hfree⟩, by simp⟩
    · exact ⟨{ h with length := h.length.trans (Nat.le_succ _), maximal := .inr (ended_iff.mpr hended) }, hlength⟩
  · rintro ⟨h, hlength⟩
    obtain ⟨front, last, rfl⟩ := exists_concat hlength
    by_cases hfull : (front ++ [last]).length = n + 3
    · rw [length_append, length_singleton] at hfull
      obtain ⟨front, before, rfl⟩ := @exists_concat front (by omega)
      rw [length_append, length_singleton] at hfull
      rw [append_assoc, cons_append, nil_append, nHopWalk_concat_iff (by omega)] at h
      obtain ⟨hbefore, hlast, hfree⟩ := h
      refine ⟨front ++ [before], ⟨hbefore, by simp; omega⟩, ?_⟩
      rw [getLastD_concat, mem_mergeTuple]
      exact .inl ⟨last, hlast, hfree, append_assoc ..⟩
    · have hended := h.maximal.resolve_left hfull
      have hle := h.length
      refine ⟨front ++ [last], ⟨{ h with length := by omega, maximal := .inr hended }, hlength⟩, ?_⟩
      rw [getLastD_concat, mem_mergeTuple]
      exact .inr ⟨rfl, ended_iff.mp hended⟩

theorem mem_grow (g : Graph) (node : String) (n : Nat) (path : List String) :
    path ∈ grow g node n ↔ NHopWalk g node (n + 1) path ∧ 2 ≤ path.length := by
  induction n generalizing path with
  | zero =>
    rw [grow, mem_map]
    constructor
    · rintro ⟨⟨first, other⟩, hedge, rfl⟩
      obtain ⟨rfl, hother⟩ := (mem_sortedEdges _).mp hedge
      refine ⟨⟨rfl, ?_, by simp [edgesOf, pairwise], le_refl _, nodup_singleton _, .inl rfl⟩, le_refl _⟩
      intro pair hpair
      obtain rfl : pair = (first, other) := by simpa [pairwise] using hpair
      exact hother
    · rintro ⟨h, hlength⟩
      obtain ⟨first, other, rfl⟩ := length_eq_two.mp (le_antisymm h.length hlength)
      obtain rfl := Option.some.inj h.start
      exact ⟨(first, other), (mem_sortedEdges _).mpr ⟨rfl, h.walk (first, other) (by simp [pairwise])⟩, rfl⟩
  | succ n ih =>
    rw [← nHopWalk_round, grow, mem_flatMap]
    simp only [ih, mergeTuples, flatMap_singleton]

/-! ### No path twice -/

theorem nodup_mergeTuple (last : String) (tup : List String) : (mergeTuple (sortedEdges g last) tup).Nodup := by
  rw [mergeTuple]
  split
  · exact nodup_nil
  split
  · exact nodup_singleton _
  split
  · exact nodup_singleton _
  apply Nodup.map_on
  · intro edge hedge edge' hedge' heq
    have hfirst := (mem_filter.mp (mem_filter.mp hedge).1).2
    have hfirst' := (mem_filter.mp (mem_filter.mp hedge').1).2
    rw [decide_eq_true_eq] at hfirst hfirst'
    have hsecond : edge.2 = edge'.2 := by simpa using heq
    exact Prod.ext (hfirst.trans hfirst'.symm) hsecond
  · exact ((nodup_sortedEdges g last).filter _).filter _

/-- Which path a round made another one of. -/
theorem eq_of_mem_mergeTuple (h : path ∈ grow g node n)
    (hmem : path' ∈ mergeTuple (sortedEdges g (path.getLastD node)) path) :
    path = if path'.length = n + 3 then path'.dropLast else path' := by
  obtain ⟨hwalk, hlength⟩ := (mem_grow g node n path).mp h
  have hle := hwalk.length
  obtain ⟨front, last, rfl⟩ := exists_concat hlength
  rw [getLastD_concat, mem_mergeTuple] at hmem
  rcases hmem with ⟨other, hlast, hfree, rfl⟩ | ⟨rfl, -⟩
  · simp [hwalk.length_eq hlast hfree]
  · rw [if_neg (by omega)]

theorem nodup_grow (g : Graph) (node : String) (n : Nat) : (grow g node n).Nodup := by
  induction n with
  | zero =>
    apply (nodup_sortedEdges g node).map
    rintro ⟨a, b⟩ ⟨c, d⟩ heq
    simpa using heq
  | succ n ih =>
    rw [grow, nodup_flatMap]
    simp only [mergeTuples, flatMap_singleton]
    refine ⟨fun path _ => nodup_mergeTuple _ path, ?_⟩
    refine ih.imp_of_mem ?_
    intro path path₂ hpath hpath₂ hne
    refine disjoint_left.mpr fun path' hmem hmem₂ => ?_
    exact hne ((eq_of_mem_mergeTuple hpath hmem).trans (eq_of_mem_mergeTuple hpath₂ hmem₂).symm)

/-! ### The result -/

theorem withWeights_ok {unicodeDecimal : Char → Option Nat} {entry : List String × List Float.Model}
    (h : withWeights unicodeDecimal g path = .ok entry) :
    path = entry.1 ∧
      Forall₂ (fun pair weight => edgeWeight unicodeDecimal g pair = .ok weight) (pairwise path) entry.2 := by
  obtain ⟨weights, hweights, h⟩ := bind_eq_ok.mp h
  cases h
  exact ⟨rfl, mapM_ok_iff_forall₂.mp hweights⟩

theorem nNeighbor_walks (unicodeDecimal : Char → Option Nat) (g : Graph) (node : String) (n : Nat) :
    match nNeighbor unicodeDecimal g node (n + 1 : Nat) with
    | .error _ => ∃ path, NHopWalk g node (n + 1) path ∧
        ∃ pair ∈ pairwise path, ∀ weight, edgeWeight unicodeDecimal g pair ≠ .ok weight
    | .ok neighbors => (neighbors.map Prod.fst).Pairwise (· < ·) ∧
        (∀ path, path ∈ neighbors.map Prod.fst ↔ NHopWalk g node (n + 1) path ∧ 2 ≤ path.length) ∧
        ∀ entry ∈ neighbors,
          Forall₂ (fun pair weight => edgeWeight unicodeDecimal g pair = .ok weight) (pairwise entry.1) entry.2 := by
  have hpaths (path : List String) : path ∈ (grow g node n).mergeSort (fun a b => a ≤ b) ↔
      NHopWalk g node (n + 1) path ∧ 2 ≤ path.length := by
    rw [mem_mergeSort, mem_grow]
  have hsorted : ((grow g node n).mergeSort fun a b => a ≤ b).Pairwise (· < ·) := by
    have hle := @pairwise_mergeSort _ (fun a b : List String => decide (a ≤ b)) (by simpa using fun a b c => le_trans)
      (by simpa using fun a b => le_total a b) (grow g node n)
    have hnodup := (mergeSort_perm (grow g node n) fun a b => a ≤ b).nodup_iff.mpr (nodup_grow g node n)
    refine (hle.and hnodup).imp ?_
    rintro a b ⟨hab, hne⟩
    exact lt_of_le_of_ne (of_decide_eq_true hab) hne
  have hrounds : ((n + 1 : Nat) : Int).toNat - 1 = n := by omega
  rw [nNeighbor, if_neg (by omega), hrounds]
  generalize (grow g node n).mergeSort (fun a b => a ≤ b) = paths at hpaths hsorted
  split
  · next error hresult =>
    obtain ⟨path, hpath, herror⟩ := mapM_error hresult
    rcases bind_eq_error.mp herror with hweights | ⟨weights, -, h⟩
    · obtain ⟨pair, hpair, hraised⟩ := mapM_error hweights
      exact ⟨path, ((hpaths path).mp hpath).1, pair, hpair, by simp [hraised]⟩
    · cases h
  · next neighbors hresult =>
    have hfst : neighbors.map Prod.fst = paths := by
      have hall := (mapM_ok_iff_forall₂.mp hresult).imp fun path entry h => (withWeights_ok h).1
      exact (forall₂_eq_eq_eq ▸ forall₂_map_right_iff.mpr hall : paths = _).symm
    rw [hfst]
    refine ⟨hsorted, hpaths, ?_⟩
    intro entry hentry
    obtain ⟨path, -, hpath⟩ := (mapM_eq_ok hresult entry).mp hentry
    obtain ⟨rfl, hweights⟩ := withWeights_ok hpath
    exact hweights

/-- A loop that is heavier than any float. -/
def heavyLoop : Graph where
  documents := []
  revision := ""
  nodes := ⟨[("a", ⟨[], .empty⟩), ("b", ⟨[], .empty⟩)], by decide⟩
  edges := ⟨[(("a", "a"), ⟨[], .single ("weight", .float "Infinity")⟩)], by decide⟩
  sorted := by decide
  joins := by decide

/-- The walk of no edge is as long as it can be where a node has none, and is left out. A weight that
    is not finite raises. -/
theorem empty_walk_left_out :
    NHopWalk heavyLoop "b" 2 ["b"] ∧ nNeighbor (fun _ => none) heavyLoop "b" 2 = .ok [] ∧
    nNeighbor (fun _ => none) heavyLoop "a" 2 = .error (.value "N-hop edge weight must be finite") := by
  have hnone : heavyLoop.neighbors "b" = [] := by decide
  have hloop : heavyLoop.neighbors "a" = ["a"] := by decide
  refine ⟨⟨rfl, by simp [pairwise], by simp [edgesOf, pairwise], by decide, nodup_nil, .inr ?_⟩, ?_, ?_⟩
  · intro last hlast
    obtain rfl : last = "b" := (Option.some.inj hlast).symm
    refine .inr fun other hother => ?_
    rw [← Graph.mem_neighbors, hnone] at hother
    cases hother
  · simp [nNeighbor, grow, sortedEdges, hnone, pure, Except.pure]
  · have hedges : sortedEdges heavyLoop "a" = [("a", "a")] := by simp [sortedEdges, hloop]
    have hgrow : grow heavyLoop "a" 1 = [["a", "a"]] := by simp [grow, hedges, mergeTuples, mergeTuple]
    have hweight : edgeWeight (fun _ => none) heavyLoop ("a", "a") = .error (.value "N-hop edge weight must be finite") := by
      rfl
    simp [nNeighbor, withWeights, hgrow, pairwise, hweight, bind, Except.bind]

end MultiRag.GraphRag.NHop
