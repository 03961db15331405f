/-
  **`rebuild_graph` and `get_graph`.**

  `rebuild_graph` composes the per-document subgraphs of the documents that are not
  excluded, one for each document; `get_graph` reads the checkpoint.
-/
import Mathlib.Data.List.Dedup
import MultiRag.Fallible
import MultiRag.GraphRows

namespace MultiRag.GraphRag

open List Table

/-! ### `nx.compose` -/

def sortedSet (sources : List String) : List String :=
  sources.dedup.insertionSort (fun a b => decide (a ≤ b) = true)

def combineNode (old : Option (String × Attrs)) (new : String × Attrs) : String × Attrs :=
  match old with
  | none => new
  | some node =>
    (new.1, { node.2.updated new.2 with sources := sortedSet (node.2.sources ++ new.2.sources) })

def combineEdge (old : Option ((String × String) × Attrs)) (new : (String × String) × Attrs) :
    (String × String) × Attrs :=
  match old with
  | none => new
  | some edge => (new.1, edge.2.updated new.2)

theorem combineNode_key (old : Option (String × Attrs)) (new : String × Attrs) :
    (combineNode old new).1 = new.1 := by
  cases old <;> rfl

theorem combineEdge_key (old : Option ((String × String) × Attrs))
    (new : (String × String) × Attrs) : (combineEdge old new).1 = new.1 := by
  cases old <;> rfl

namespace Graph

variable {pair : String × String}

theorem sorted_of_hasEdge {g : Graph} (h : g.hasEdge pair = true) :
    getFromTo pair.1 pair.2 = pair := by
  obtain ⟨attrs, hmem⟩ := hasEdge_iff.mp h
  exact g.sorted _ hmem

theorem joins_of_hasEdge {g : Graph} (h : g.hasEdge pair = true) :
    g.hasNode pair.1 = true ∧ g.hasNode pair.2 = true := by
  obtain ⟨attrs, hmem⟩ := hasEdge_iff.mp h
  exact g.joins _ hmem

def compose (g next : Graph) (source : String) : Graph where
  documents := g.documents ++ [source]
  revision := next.revision
  nodes := g.nodes.mergeWith combineNode next.nodes
  edges := g.edges.mergeWith combineEdge next.edges
  sorted edge h := by
    have hsome : ((g.edges.mergeWith combineEdge next.edges).get? edge.1).isSome = true := by
      rw [get?_of_mem h]
      rfl
    rcases (isSome_get?_mergeWith combineEdge_key _ _ _).mp hsome with hin | hin
    · exact sorted_of_hasEdge hin
    · exact sorted_of_hasEdge hin
  joins edge h := by
    have hsome : ((g.edges.mergeWith combineEdge next.edges).get? edge.1).isSome = true := by
      rw [get?_of_mem h]
      rfl
    simp only [isSome_get?_mergeWith combineNode_key]
    rcases (isSome_get?_mergeWith combineEdge_key _ _ _).mp hsome with hin | hin
    · exact ⟨.inl (joins_of_hasEdge hin).1, .inl (joins_of_hasEdge hin).2⟩
    · exact ⟨.inr (joins_of_hasEdge hin).1, .inr (joins_of_hasEdge hin).2⟩

variable {g next : Graph} {source : String}

theorem hasNode_compose {name : String} :
    (g.compose next source).hasNode name = true ↔
      g.hasNode name = true ∨ next.hasNode name = true :=
  isSome_get?_mergeWith combineNode_key _ _ _

theorem hasEdge_compose :
    (g.compose next source).hasEdge pair = true ↔
      g.hasEdge pair = true ∨ next.hasEdge pair = true :=
  isSome_get?_mergeWith combineEdge_key _ _ _

end Graph

/-- The loop over the checkpoints of `rebuild_graph`. -/
def composeAll (checkpoints : List (String × Graph)) : Graph :=
  checkpoints.foldl (fun g checkpoint => g.compose checkpoint.2 checkpoint.1) .empty

variable {checkpoints : List (String × Graph)}

theorem composeAll_iff {p : Graph → Bool} (hempty : p Graph.empty = false)
    (hcompose : ∀ g h source, p (g.compose h source) = true ↔ p g = true ∨ p h = true) :
    p (composeAll checkpoints) = true ↔ ∃ c ∈ checkpoints, p c.2 = true := by
  have hfold : ∀ (g : Graph), p (checkpoints.foldl (fun g c => g.compose c.2 c.1) g) = true ↔
      p g = true ∨ ∃ c ∈ checkpoints, p c.2 = true := by
    induction checkpoints with
    | nil => simp
    | cons c rest ih =>
      intro g
      rw [foldl_cons, ih, hcompose, exists_mem_cons_iff, or_assoc]
  rw [composeAll, hfold, hempty]
  simp

theorem hasNode_composeAll {name : String} : (composeAll checkpoints).hasNode name = true ↔
    ∃ c ∈ checkpoints, c.2.hasNode name = true :=
  composeAll_iff (p := fun g => g.hasNode name) rfl fun _ _ _ => Graph.hasNode_compose

theorem hasEdge_composeAll {pair : String × String} : (composeAll checkpoints).hasEdge pair = true ↔
    ∃ c ∈ checkpoints, c.2.hasEdge pair = true :=
  composeAll_iff (p := fun g => g.hasEdge pair) rfl fun _ _ _ => Graph.hasEdge_compose

/-! ### `rebuild_graph` -/

/-- A subgraph row that counts: its documents, its id and its graph. -/
structure Candidate where
  sources : List String
  pk : Id
  data : Graph

def Row.candidate? (excluded : List String) (row : Row) : Option Candidate :=
  match row.subgraph? with
  | none => none
  | some (sources, data) =>
    if row.removed || sources.any (fun source => excluded.contains source) then none
    else some ⟨sources, row.pk, data⟩

def selectCheckpoint (candidates : List Candidate) (source : String) :
    Except String (String × Graph) :=
  let own := candidates.filter fun c => c.sources = [source]
  let stable := own.filter fun c => c.pk = .subgraph source
  match if stable = [] then own else stable with
  | [c] => .ok (source, c.data)
  | _ => .error "Ambiguous subgraph checkpoints during rebuild"

def rebuildGraph (rows : List Row) (excluded : List String) : Except String (Option Graph) :=
  let candidates := rows.filterMap (Row.candidate? excluded)
  if candidates.any (fun c => c.sources.length ≠ 1) then
    .error "Invalid per-document subgraph provenance"
  else do
    let checkpoints ← (sortedSet (candidates.flatMap Candidate.sources)).mapM
      (selectCheckpoint candidates)
    let g := composeAll checkpoints
    pure (if g.nodes.rows.isEmpty then none else some g)

/-! ### Which checkpoints are composed -/

/-- The checkpoint of a document among the live ones: the one with the stable id, or the
    only one. -/
structure Selected (live : Candidate → Prop) (source : String) (c : Candidate) : Prop where
  isLive : live c
  own : c.sources = [source]
  chosen : c.pk = .subgraph source ∨ ∀ c', live c' → c'.sources = [source] → c'.pk = c.pk

theorem eq_singleton_of_key {α β : Type} {key : α → β} {l : List α} (hl : (l.map key).Nodup) {c : α}
    (hc : c ∈ l) (hsame : ∀ d ∈ l, key d = key c) : l = [c] := by
  cases l with
  | nil => cases hc
  | cons first rest =>
    rw [map_cons, nodup_cons] at hl
    rw [forall_mem_cons] at hsame
    have hrest : rest = [] := by
      refine eq_nil_iff_forall_not_mem.mpr fun d hd => hl.1 ?_
      rw [hsame.1, ← hsame.2 d hd]
      exact mem_map_of_mem hd
    rw [hrest, mem_singleton] at hc
    rw [hrest, hc]

variable {source : String} {x : String × Graph}

theorem selectCheckpoint_eq_ok {cs : List Candidate} (hcs : (cs.map Candidate.pk).Nodup) :
    selectCheckpoint cs source = .ok x ↔
      ∃ c, Selected (fun c => c ∈ cs) source c ∧ x = (source, c.data) := by
  have hown : ∀ c, c ∈ cs.filter (fun c => c.sources = [source]) ↔ c ∈ cs ∧ c.sources = [source] := by
    simp
  have hstable : ∀ c, c ∈ (cs.filter fun c => c.sources = [source]).filter
      (fun c => c.pk = .subgraph source) ↔
        (c ∈ cs ∧ c.sources = [source]) ∧ c.pk = .subgraph source := by
    simp only [List.mem_filter, decide_eq_true_eq, implies_true]
  have hownNodup := (Sublist.map Candidate.pk
    (filter_sublist (p := fun c : Candidate => c.sources = [source]) (l := cs))).nodup hcs
  unfold selectCheckpoint
  simp only
  generalize hownEq : cs.filter (fun c => decide (c.sources = [source])) = own at *
  have hstableNodup := (Sublist.map Candidate.pk
    (filter_sublist (p := fun c : Candidate => c.pk = .subgraph source) (l := own))).nodup
      hownNodup
  generalize own.filter (fun c => decide (c.pk = .subgraph source)) = stable at *
  constructor
  · intro h
    split at h
    · next c hlist =>
      refine ⟨c, ?_, (Except.ok.inj h).symm⟩
      by_cases hempty : stable = []
      · rw [if_pos hempty] at hlist
        have hc := (hown c).mp (hlist ▸ mem_singleton_self c)
        refine ⟨hc.1, hc.2, .inr fun c' hlive hsrcs => ?_⟩
        have hin := (hown c').mpr ⟨hlive, hsrcs⟩
        rw [hlist, mem_singleton] at hin
        rw [hin]
      · rw [if_neg hempty] at hlist
        have hc := (hstable c).mp (hlist ▸ mem_singleton_self c)
        exact ⟨hc.1.1, hc.1.2, .inl hc.2⟩
    · cases h
  · rintro ⟨c, ⟨hlive, hsrcs, hchosen⟩, rfl⟩
    have hlist : (if stable = [] then own else stable) = [c] := by
      by_cases hempty : stable = []
      · rw [if_pos hempty]
        have hin := (hown c).mpr ⟨hlive, hsrcs⟩
        refine eq_singleton_of_key hownNodup hin fun d hd => ?_
        rcases hchosen with hpk | hall
        · have hc := (hstable c).mpr ⟨⟨hlive, hsrcs⟩, hpk⟩
          rw [hempty] at hc
          cases hc
        · exact hall d ((hown d).mp hd).1 ((hown d).mp hd).2
      · rw [if_neg hempty]
        obtain ⟨d, hd⟩ := exists_mem_of_ne_nil _ hempty
        have hin := (hstable d).mp hd
        have hsame : d.pk = c.pk := by
          rcases hchosen with hpk | hall
          · rw [hpk, hin.2]
          · exact hall d hin.1.1 hin.1.2
        obtain rfl : d = c := inj_on_of_nodup_map hcs hin.1.1 hlive hsame
        exact eq_singleton_of_key hstableNodup hd fun e he => by rw [((hstable e).mp he).2, hin.2]
    rw [hlist]

def Live (rows : List Row) (excluded : List String) (c : Candidate) : Prop :=
  ∃ row ∈ rows, row.candidate? excluded = some c

variable {excluded : List String}

theorem candidate?_pk {row : Row} {c : Candidate} (h : row.candidate? excluded = some c) :
    c.pk = row.pk := by
  unfold Row.candidate? at h
  split at h
  · cases h
  · split at h
    · cases h
    · cases h
      rfl

theorem nodup_candidates (rows : Store) (excluded : List String) :
    ((rows.rows.filterMap (Row.candidate? excluded)).map Candidate.pk).Nodup := by
  rw [Nodup, pairwise_map, pairwise_filterMap]
  refine (pairwise_map.mp rows.nodup).imp fun hne c hc c' hc' => ?_
  rw [candidate?_pk hc, candidate?_pk hc']
  exact hne

theorem mem_sortedSet {sources : List String} :
    source ∈ sortedSet sources ↔ source ∈ sources := by
  rw [sortedSet, mem_insertionSort, mem_dedup]

theorem mem_candidates {rows : List Row} {c : Candidate} :
    c ∈ rows.filterMap (Row.candidate? excluded) ↔ Live rows excluded c := mem_filterMap

variable {rows : Store}

theorem selectCheckpoint_live :
    selectCheckpoint (rows.rows.filterMap (Row.candidate? excluded)) source = .ok x ↔
      ∃ c, Selected (Live rows.rows excluded) source c ∧ x = (source, c.data) := by
  rw [selectCheckpoint_eq_ok (nodup_candidates rows excluded)]
  simp only [mem_candidates]

theorem mem_liveSources :
    source ∈ sortedSet ((rows.rows.filterMap (Row.candidate? excluded)).flatMap Candidate.sources) ↔
      ∃ c, Live rows.rows excluded c ∧ source ∈ c.sources := by
  rw [mem_sortedSet, mem_flatMap]
  simp only [mem_candidates]

theorem rebuildGraph_ok_iff :
    (∃ r, rebuildGraph rows.rows excluded = .ok r) ↔
      (∀ c, Live rows.rows excluded c → ∃ source, c.sources = [source]) ∧
        ∀ c source, Live rows.rows excluded c → source ∈ c.sources →
          ∃ c', Selected (Live rows.rows excluded) source c' := by
  have hany : (rows.rows.filterMap (Row.candidate? excluded)).any
      (fun c => c.sources.length ≠ 1) = true ↔
        ¬ ∀ c, Live rows.rows excluded c → ∃ source, c.sources = [source] := by
    rw [any_eq_true]
    simp only [mem_candidates, ne_eq, decide_eq_true_eq, length_eq_one_iff, not_forall,
      exists_prop]
  have hmapM : (∃ checkpoints, (sortedSet ((rows.rows.filterMap
      (Row.candidate? excluded)).flatMap Candidate.sources)).mapM
        (selectCheckpoint (rows.rows.filterMap (Row.candidate? excluded))) = .ok checkpoints) ↔
        ∀ c source, Live rows.rows excluded c → source ∈ c.sources →
          ∃ c', Selected (Live rows.rows excluded) source c' := by
    rw [exists_mapM_ok]
    constructor
    · intro h c source hlive hsource
      obtain ⟨x, hx⟩ := h source (mem_liveSources.mpr ⟨c, hlive, hsource⟩)
      obtain ⟨c', hc', -⟩ := selectCheckpoint_live.mp hx
      exact ⟨c', hc'⟩
    · intro h source hsource
      obtain ⟨c, hlive, hin⟩ := mem_liveSources.mp hsource
      obtain ⟨c', hc'⟩ := h c source hlive hin
      exact ⟨_, selectCheckpoint_live.mpr ⟨c', hc', rfl⟩⟩
  rw [← hmapM]
  unfold rebuildGraph
  simp only
  constructor
  · rintro ⟨r, hr⟩
    split at hr
    · cases hr
    · next hnone =>
      obtain ⟨checkpoints, hcheckpoints, -⟩ := bind_eq_ok.mp hr
      exact ⟨not_not.mp fun h => hnone (hany.mpr h), checkpoints, hcheckpoints⟩
  · rintro ⟨hsingle, checkpoints, hcheckpoints⟩
    rw [if_neg (fun h => hany.mp h hsingle), hcheckpoints]
    exact ⟨_, rfl⟩

theorem rebuildGraph_composed {r : Option Graph} (h : rebuildGraph rows.rows excluded = .ok r) :
    ∃ checkpoints : List (String × Graph),
      r = (if (composeAll checkpoints).nodes.rows.isEmpty then none
        else some (composeAll checkpoints)) ∧
      ∀ x, x ∈ checkpoints ↔
        ∃ source c, Selected (Live rows.rows excluded) source c ∧ x = (source, c.data) := by
  unfold rebuildGraph at h
  simp only at h
  split at h
  · cases h
  obtain ⟨checkpoints, hcheckpoints, hr⟩ := bind_eq_ok.mp h
  refine ⟨checkpoints, (Except.ok.inj hr).symm, fun x => ?_⟩
  rw [mapM_eq_ok hcheckpoints]
  constructor
  · rintro ⟨source, -, hx⟩
    exact ⟨source, selectCheckpoint_live.mp hx⟩
  · rintro ⟨source, c, hc, rfl⟩
    refine ⟨source, mem_liveSources.mpr ⟨c, hc.isLive, ?_⟩, selectCheckpoint_live.mpr ⟨c, hc, rfl⟩⟩
    rw [hc.own]
    exact mem_singleton_self source

def rebuiltNode (rows : List Row) (excluded : List String) (name : String) : Bool :=
  match rebuildGraph rows excluded with
  | .ok (some g) => g.hasNode name
  | _ => false

def rebuiltEdge (rows : List Row) (excluded : List String) (pair : String × String) : Bool :=
  match rebuildGraph rows excluded with
  | .ok (some g) => g.hasEdge pair
  | _ => false

theorem hasNode_of_isEmpty {g : Graph} (h : g.nodes.rows.isEmpty = true) (name : String) :
    g.hasNode name = false := by
  rw [Graph.hasNode, Table.get?, List.isEmpty_iff.mp h]
  rfl

theorem rebuiltNode_iff {name : String} (h : ∃ r, rebuildGraph rows.rows excluded = .ok r) :
    rebuiltNode rows.rows excluded name = true ↔
      ∃ source c, Selected (Live rows.rows excluded) source c ∧ c.data.hasNode name = true := by
  obtain ⟨r, hr⟩ := h
  obtain ⟨checkpoints, hcomposed, hmem⟩ := rebuildGraph_composed hr
  have hnode : rebuiltNode rows.rows excluded name = (composeAll checkpoints).hasNode name := by
    rw [rebuiltNode, hr, hcomposed]
    by_cases hempty : (composeAll checkpoints).nodes.rows.isEmpty
    · rw [if_pos hempty, hasNode_of_isEmpty hempty]
    · rw [if_neg hempty]
  rw [hnode, hasNode_composeAll]
  constructor
  · rintro ⟨x, hx, hname⟩
    obtain ⟨source, c, hc, rfl⟩ := (hmem x).mp hx
    exact ⟨source, c, hc, hname⟩
  · rintro ⟨source, c, hc, hname⟩
    exact ⟨_, (hmem _).mpr ⟨source, c, hc, rfl⟩, hname⟩

theorem rebuiltEdge_iff {pair : String × String} (h : ∃ r, rebuildGraph rows.rows excluded = .ok r) :
    rebuiltEdge rows.rows excluded pair = true ↔
      ∃ source c, Selected (Live rows.rows excluded) source c ∧ c.data.hasEdge pair = true := by
  obtain ⟨r, hr⟩ := h
  obtain ⟨checkpoints, hcomposed, hmem⟩ := rebuildGraph_composed hr
  have hedge : rebuiltEdge rows.rows excluded pair = (composeAll checkpoints).hasEdge pair := by
    rw [rebuiltEdge, hr, hcomposed]
    by_cases hempty : (composeAll checkpoints).nodes.rows.isEmpty
    · rw [if_pos hempty, eq_comm, ← Bool.not_eq_true]
      intro hin
      have hfirst := (Graph.joins_of_hasEdge hin).1
      rw [hasNode_of_isEmpty hempty] at hfirst
      cases hfirst
    · rw [if_neg hempty]
  rw [hedge, hasEdge_composeAll]
  constructor
  · rintro ⟨x, hx, hpair⟩
    obtain ⟨source, c, hc, rfl⟩ := (hmem x).mp hx
    exact ⟨source, c, hc, hpair⟩
  · rintro ⟨source, c, hc, hpair⟩
    exact ⟨_, (hmem _).mpr ⟨source, c, hc, rfl⟩, hpair⟩

def getGraph (rows : List Row) (excluded : List String) : Except String (Option Graph) :=
  let graphs := rows.filter Row.isGraph
  if graphs.isEmpty then .ok none
  else
    let stable := graphs.filter fun row => row.pk = .checkpoint
    match if stable.isEmpty then graphs else stable with
    | [row] =>
      if row.removed then rebuildGraph rows excluded
      else match row.content with
        | .graph data => .ok (some data)
        | _ => .ok none
    | _ => .error "Ambiguous persisted graph checkpoints"

end MultiRag.GraphRag
