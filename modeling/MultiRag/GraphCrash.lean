/-
  **Runs of `set_graph` that stop early, and runs after them.**

  `Interrupted` are the stores that some of the writes of a run leave: some upserts,
  in any order of the auxiliary rows, or all of them and some deletions.
-/
import MultiRag.GraphConsistency

namespace MultiRag.GraphRag

open List Table

/-- What a run leaves that stops after some of its writes. -/
def Interrupted (rows : Store) (g : Graph) (change : GraphChange) (store : Store) : Prop :=
  ∃ (auxiliary : List Row) (stale removed : List Id),
    auxiliary.Perm (auxiliaryChunks g change) ∧
    staleIds g change (canonicalIn g change rows.rows) rows.rows = .ok stale ∧
    removed.Perm stale ∧
    ∃ done, done <+: upserts (auxiliary ++ [checkpointChunk g]) ++ removed.map .delete ∧
      store = rows.writeAll done

/-- Nothing stops the run before it writes. -/
def Preparation.Passes (prep : Preparation) (g : Graph) (change : GraphChange) : Prop :=
  prep.raises = none ∧
    (checkpointChunk g :: auxiliaryChunks g change).all prep.fits = true

/-- The same row, or rows of one edge that the change lists in both directions. -/
def Row.Agrees (change : GraphChange) (row other : Row) : Prop :=
  row = other ∨ ∃ source target attrs, (source, target) ∈ change.addedUpdatedEdges ∧
    (target, source) ∈ change.addedUpdatedEdges ∧
    row = graphEdgeToChunk source target attrs ∧ other = graphEdgeToChunk target source attrs

variable {g : Graph} {change : GraphChange} {rows store final : Store}

theorem interrupted_cases (h : Interrupted rows g change store) :
    (∃ part, (∀ row ∈ part, row ∈ auxiliaryChunks g change) ∧
      store = rows.writeAll (upserts part)) ∨
    ∃ (auxiliary : List Row) (stale removed : List Id),
      auxiliary.Perm (auxiliaryChunks g change) ∧
      staleIds g change (canonicalIn g change rows.rows) rows.rows = .ok stale ∧
      (∀ id ∈ removed, id ∈ stale) ∧
      store = (written rows g auxiliary).writeAll (removed.map .delete) := by
  obtain ⟨auxiliary, stale, removed, haux, hstale, hrem, done, hdone, rfl⟩ := h
  have hall := prefix_append (upserts (auxiliary ++ [checkpointChunk g]))
    (removed.map Table.Write.delete)
  rcases prefix_or_prefix_of_prefix hdone hall with hpart | ⟨dels, rfl⟩
  · obtain ⟨part, hsub, rfl⟩ := prefix_map_iff.mp hpart
    rcases prefix_concat_iff.mp hsub with rfl | hsub
    · refine .inr ⟨auxiliary, stale, [], haux, hstale, by simp, ?_⟩
      rfl
    · exact .inl ⟨part, fun row hrow => haux.mem_iff.mp (hsub.subset hrow), rfl⟩
  · rw [prefix_append_right_inj] at hdone
    obtain ⟨part, hpart, rfl⟩ := prefix_map_iff.mp hdone
    refine .inr ⟨auxiliary, stale, part, haux, hstale, fun id hid => ?_, ?_⟩
    · exact hrem.mem_iff.mp (hpart.subset hid)
    · rw [writeAll_append]
      rfl

variable {prep : Preparation} {graph : Graph} {revision : String}

theorem interrupted_setGraph
    (hchecked : ∀ row ∈ rows, ∃ b,
      staleRow (graph.revised revision) change
      (canonicalIn (graph.revised revision) change rows.rows) row = .ok b) :
    Interrupted rows (graph.revised revision) change
      (setGraph prep rows graph change revision).2 := by
  obtain ⟨stale, hstale⟩ := exists_staleIds hchecked
  refine ⟨_, stale, stale, prep.perm _, hstale, .refl _, ?_⟩
  unfold setGraph
  simp only
  split
  · exact ⟨[], nil_prefix, rfl⟩
  · split
    · exact ⟨[], nil_prefix, rfl⟩
    · rw [hstale]
      refine ⟨_, prefix_rfl, ?_⟩
      rw [writeAll_append]
      rfl

variable {row : Row}

theorem getGraph_of_only {data : Graph} (hrow : row ∈ rows) (hcont : row.content = .graph data)
    (hlive : row.removed = false)
    (honly : row.pk = .checkpoint ∨ ∀ other ∈ rows, other.isGraph = true → other.pk = row.pk)
    (excluded : List String) : getGraph rows.rows excluded = .ok (some data) := by
  have hgraph : row.isGraph = true := by
    rw [Row.isGraph, hcont]
  have hin : row ∈ rows.rows.filter Row.isGraph := List.mem_filter.mpr ⟨hrow, hgraph⟩
  have hnodup : ((rows.rows.filter Row.isGraph).map Row.pk).Nodup :=
    (Sublist.map Row.pk filter_sublist).nodup rows.nodup
  have hlist : (if ((rows.rows.filter Row.isGraph).filter fun row => row.pk = .checkpoint).isEmpty
      then rows.rows.filter Row.isGraph
      else (rows.rows.filter Row.isGraph).filter fun row => row.pk = .checkpoint) = [row] := by
    by_cases hpk : row.pk = .checkpoint
    · have hstable : row ∈ (rows.rows.filter Row.isGraph).filter fun row => row.pk = .checkpoint :=
        List.mem_filter.mpr ⟨hin, by simpa using hpk⟩
      rw [if_neg (by simpa using ⟨row, mem_of_mem_filter hin, hpk, hgraph⟩)]
      refine eq_singleton_of_key
        ((Sublist.map Row.pk filter_sublist).nodup hnodup) hstable fun other hother => ?_
      rw [hpk]
      simpa using (List.mem_filter.mp hother).2
    · have hall := honly.resolve_left hpk
      rw [if_pos]
      · refine eq_singleton_of_key hnodup hin fun other hother => ?_
        exact hall other (List.mem_filter.mp hother).1 (List.mem_filter.mp hother).2
      · rw [List.isEmpty_iff, filter_eq_nil_iff]
        intro other hother
        rw [hall other (List.mem_filter.mp hother).1 (List.mem_filter.mp hother).2]
        simpa using hpk
  unfold getGraph
  simp only
  rw [if_neg (by simpa using ⟨row, hrow, hgraph⟩), hlist]
  simp [hlive, hcont]

/-! ### Rows before, rows between -/

/-- A store between the rows before a run and those after it: other ids hold what they held, and
    no row that stays is missing. -/
structure Between (rows : Store) (g : Graph) (change : GraphChange) (store : Store) : Prop where
  old : ∀ id ∉ newIds g change, ∀ row, store.get? id = some row → rows.get? id = some row
  kept : ∀ id ∉ newIds g change, ∀ row, rows.get? id = some row →
    staleRow g change (renewed g change) row = .ok false → store.get? id = some row

theorem Between.refl : Between rows g change rows :=
  ⟨fun _ _ _ hget => hget, fun _ _ _ hget _ => hget⟩

theorem Between.mem_old (h : Between rows g change store) (hrow : row ∈ store)
    (hpk : row.pk ∉ newIds g change) : row ∈ rows :=
  mem_of_get? (h.old _ hpk row (get?_of_mem hrow))

theorem staleRow_congr {canonical canonical' : Id → Bool}
    (h : ∀ id, row.canonical? = some id → (∀ source, id ≠ .subgraph source) →
      (decide (row.pk ≠ id) && canonical id) = (decide (row.pk ≠ id) && canonical' id)) :
    staleRow g change canonical row = staleRow g change canonical' row := by
  by_cases hpk : row.pk ∈ newIds g change
  · rw [staleRow_new hpk, staleRow_new hpk]
  rcases hcont : row.content with data | ⟨sources, data⟩ | ⟨name, attrs⟩ | ⟨from_, to_, attrs⟩
  · rw [staleRow_graph hpk hcont, staleRow_graph hpk hcont]
  · rw [staleRow_subgraph hpk hcont, staleRow_subgraph hpk hcont]
  · unfold staleRow
    rw [if_neg (mt contains_iff_mem.mp hpk), if_neg (mt contains_iff_mem.mp hpk), hcont]
    rcases hvalid : validIdentity name with - | entity
    · simp only [hvalid]
    · obtain ⟨rfl, -⟩ := validIdentity_eq_some.mp hvalid
      have heq := h (entityChunkId entity) (by rw [Row.canonical?, hcont])
        (by simp [entityChunkId])
      simp only [hvalid, heq]
  · unfold staleRow
    rw [if_neg (mt contains_iff_mem.mp hpk), if_neg (mt contains_iff_mem.mp hpk), hcont]
    rcases hsource : validIdentity from_ with - | source
    · simp only [hsource]
    rcases htarget : validIdentity to_ with - | target
    · simp only [hsource, htarget]
    obtain ⟨rfl, -⟩ := validIdentity_eq_some.mp hsource
    obtain ⟨rfl, -⟩ := validIdentity_eq_some.mp htarget
    have heq := h (relationChunkId source target) (by rw [Row.canonical?, hcont])
      (by simp [relationChunkId])
    simp only [hsource, htarget, relationChunkId_getFromTo, heq]

variable {prev : Graph}

section

variable (h : Persisted rows prev)
include h

theorem staleRow_between (hbetween : Between rows g change store)
    (hrow : row ∈ rows) :
    staleRow g change (canonicalIn g change store.rows) row =
      staleRow g change (renewed g change) row := by
  refine staleRow_congr fun id hcanon hid => ?_
  by_cases hpk : row.pk = id
  · simp [hpk]
  by_cases hnew : id ∈ newIds g change
  · simp [canonicalIn, renewed, hnew]
  · have htaken : id ∉ store.rows.map Row.pk := by
      rw [mem_map]
      rintro ⟨other, hother, rfl⟩
      exact hpk (h.pk_of_taken hrow (hbetween.mem_old hother hnew) hcanon hid rfl)
    simp [canonicalIn, renewed, hnew, htaken]

theorem checked_between (hnames : NamesValid prev)
    (hbetween : Between rows g change store) (hrow : row ∈ store) (canonical : Id → Bool) :
    ∃ b, staleRow g change canonical row = .ok b := by
  by_cases hpk : row.pk ∈ newIds g change
  · exact ⟨false, staleRow_new hpk⟩
  have hpresent := h.present row (hbetween.mem_old hrow hpk)
  unfold Row.presentIn at hpresent
  split at hpresent
  · next name attrs hcont =>
    obtain ⟨entity, rfl, hnode⟩ := (Option.any_eq_true _ _).mp hpresent
    exact ⟨_, (staleRow_entity hpk hcont).mpr ⟨entity, rfl, hnames entity hnode, rfl⟩⟩
  · next source target attrs hcont =>
    have hblank : isBlank source = false ∧ isBlank target = false := by
      have hboth := Graph.joins_of_hasEdge hpresent
      rcases getFromTo_eq source target with heq | heq
      · rw [heq] at hboth
        exact ⟨hnames _ hboth.1, hnames _ hboth.2⟩
      · rw [heq] at hboth
        exact ⟨hnames _ hboth.2, hnames _ hboth.1⟩
    exact ⟨_, (staleRow_relation hpk hcont).mpr
      ⟨source, target, rfl, rfl, hblank.1, hblank.2, rfl⟩⟩
  · cases hpresent
  · next hentity hrelation hnone =>
    rcases hcont : row.content with data | ⟨sources, data⟩ | ⟨name, attrs⟩ | ⟨from_, to_, attrs⟩
    · exact ⟨_, staleRow_graph hpk hcont⟩
    · exact ⟨_, staleRow_subgraph hpk hcont⟩
    · exact absurd hcont (hentity name attrs)
    · exact absurd hcont (hnone from_ to_ attrs)

theorem final_of_completed (hbetween : Between rows g change store)
    (hcompl : Completed store g change final) : Final rows g change final where
  kept id hid row := by
    rw [hcompl.kept id hid row]
    constructor
    · rintro ⟨hget, hkept⟩
      have hold := hbetween.old id hid row hget
      rw [staleRow_between h hbetween (mem_of_get? hold)] at hkept
      exact ⟨hold, hkept⟩
    · rintro ⟨hget, hkept⟩
      refine ⟨hbetween.kept id hid row hget hkept, ?_⟩
      rw [staleRow_between h hbetween (mem_of_get? hget)]
      exact hkept
  new := hcompl.new

theorem between_of_interrupted
    (hinterrupted : Interrupted rows g change store) : Between rows g change store := by
  rcases interrupted_cases hinterrupted with ⟨part, hpart, rfl⟩ |
      ⟨auxiliary, stale, removed, haux, hstale, hrem, rfl⟩
  · have hget : ∀ id ∉ newIds g change, (rows.writeAll (upserts part)).get? id = rows.get? id := by
      intro id hid
      have hnone : Table.lastWrite Row.pk id (upserts part) = none :=
        lastWrite_upserts_of_ne fun row hrow hpk =>
          hid (mem_newIds.mpr ⟨row, mem_append_left _ (hpart row hrow), hpk⟩)
      rw [get?_writeAll, hnone]
      rfl
    constructor
    · intro id hid row hrow
      rw [← hget id hid]
      exact hrow
    · intro id hid row hrow _
      rw [hget id hid]
      exact hrow
  · constructor
    · intro id hid row hrow
      rw [get?_pruned, get?_written_old haux rows hid] at hrow
      split at hrow
      · cases hrow
      · exact hrow
    · intro id hid row hrow hkept
      rw [get?_pruned, get?_written_old haux rows hid, if_neg, hrow]
      intro hin
      obtain ⟨other, hother, hpk, htrue⟩ := ((staleIds_ok hstale).2 id).mp (hrem id hin)
      obtain ⟨hmem, hkey⟩ := get?_eq_some.mp hrow
      rw [eq_of_key hother hmem (hpk.trans hkey.symm),
        staleRow_between h Between.refl hmem, hkept] at htrue
      cases htrue

end

theorem isGraph_auxiliary (h : row ∈ auxiliaryChunks g change) :
    row.isGraph = false ∧ row.pk ≠ .checkpoint := by
  simp only [auxiliaryChunks, mem_append, mem_map, relationChunks,
    mem_filterMap, Option.map_eq_some_iff] at h
  rcases h with (⟨source, -, rfl⟩ | hentity) | ⟨pair, -, attrs, -, rfl⟩
  · exact ⟨rfl, by simp [subgraphChunk]⟩
  · unfold entityChunks at hentity
    split at hentity
    · obtain ⟨node, -, rfl⟩ := mem_map.mp hentity
      exact ⟨rfl, by simp [graphNodeToChunk, entityChunkId]⟩
    · cases hentity
  · exact ⟨rfl, by simp [graphEdgeToChunk, relationChunkId]⟩

theorem Persisted.graphRow (h : Persisted rows prev) {other : Row} (hrow : row ∈ rows)
    (hother : other ∈ rows) (hgraph : row.isGraph = true) (hgraph' : other.isGraph = true) :
    row = other := by
  have hcanon : ∀ row : Row, row.isGraph = true → row.canonical? = some .checkpoint := by
    intro row hgraph
    unfold Row.isGraph at hgraph
    split at hgraph
    · next hcont => rw [Row.canonical?, hcont]
    · cases hgraph
  exact h.unique row hrow other hother _ (hcanon row hgraph) (hcanon other hgraph')
    (by simp)

theorem getGraph_interrupted (h : Persisted rows prev)
    (hinterrupted : Interrupted rows g change store) (excluded : List String) :
    getGraph store.rows excluded = .ok (some prev) ∨
      getGraph store.rows excluded = .ok (some g) := by
  rcases interrupted_cases hinterrupted with ⟨part, hpart, rfl⟩ |
      ⟨auxiliary, stale, removed, haux, hstale, hrem, rfl⟩
  · left
    -- auxiliary rows are no graph rows and do not take the id of one
    obtain ⟨row, hrow, hcont, hlive⟩ := h.checkpoint
    have hgraph : row.isGraph = true := by rw [Row.isGraph, hcont]
    have hpk : ∀ other ∈ part, other.pk ≠ row.pk := by
      intro other hother heq
      have haux := isGraph_auxiliary (hpart other hother)
      rcases h.ids row hrow with hown | hlegacy
      · rw [Row.canonical?, hcont] at hown
        exact haux.2 (heq.trans (Option.some.inj hown).symm)
      · rw [← heq, isLegacy_of_mem_newIds (mem_newIds.mpr
          ⟨other, mem_append_left _ (hpart other hother), rfl⟩)] at hlegacy
        cases hlegacy
    have hget : (rows.writeAll (upserts part)).get? row.pk = some row := by
      rw [get?_writeAll, upserts, lastWrite_upserts_of_ne hpk]
      exact get?_of_mem hrow
    refine getGraph_of_only (mem_of_get? hget) hcont hlive (.inr ?_) excluded
    intro other hother hother'
    have hgetOther := get?_of_mem hother
    rw [get?_writeAll] at hgetOther
    by_cases hwritten : ∃ new ∈ part, new.pk = other.pk
    · obtain ⟨new, hnew, -, hlast⟩ := exists_lastWrite_upserts hwritten
      rw [upserts, hlast] at hgetOther
      obtain rfl : new = other := Option.some.inj hgetOther
      rw [(isGraph_auxiliary (hpart new hnew)).1] at hother'
      cases hother'
    · have hnone : ∀ new ∈ part, new.pk ≠ other.pk := fun new hnew heq => hwritten ⟨new, hnew, heq⟩
      rw [upserts, lastWrite_upserts_of_ne hnone] at hgetOther
      rw [h.graphRow (mem_of_get? hgetOther) hrow hother' hgraph]
  · right
    obtain ⟨row, hchunk, hpk, hget⟩ :=
      get?_written_new haux rows checkpoint_mem_newIds
    have hrow : row = checkpointChunk g := eq_checkpointChunk hchunk hpk
    have hkept : ((written rows g auxiliary).writeAll (removed.map .delete)).get? .checkpoint =
        some row := by
      rw [get?_pruned, if_neg, hget]
      intro hin
      obtain ⟨other, -, hother, htrue⟩ := ((staleIds_ok hstale).2 _).mp (hrem _ hin)
      rw [staleRow_new (hother ▸ checkpoint_mem_newIds)] at htrue
      cases htrue
    refine getGraph_of_only (mem_of_get? hkept) ?_ ?_ (.inl hpk) excluded
    · rw [hrow]
      rfl
    · rw [hrow]
      rfl

/-! ### Two runs -/

theorem agrees_of_chunk {other : Row}
    (hrow : row ∈ auxiliaryChunks g change ++ [checkpointChunk g])
    (hother : other ∈ auxiliaryChunks g change ++ [checkpointChunk g]) (hpk : row.pk = other.pk) :
    row.Agrees change other := by
  rcases mem_chunks.mp hrow with ⟨source, -, rfl⟩ | ⟨-, node, hnode, rfl⟩ |
      ⟨pair, hpair, attrs, hattrs, rfl⟩ | rfl
  · rcases mem_chunks.mp hother with ⟨source', -, rfl⟩ | ⟨-, node, -, rfl⟩ |
        ⟨pair, -, attrs, -, rfl⟩ | rfl
    · exact .inl (by rw [Id.subgraph.inj hpk])
    · cases hpk
    · cases hpk
    · cases hpk
  · rcases mem_chunks.mp hother with ⟨source, -, rfl⟩ | ⟨-, node', hnode', rfl⟩ |
        ⟨pair, -, attrs, -, rfl⟩ | rfl
    · cases hpk
    · exact .inl (by rw [eq_of_key hnode hnode' (Id.entity.inj hpk)])
    · cases hpk
    · cases hpk
  · rcases mem_chunks.mp hother with ⟨source, -, rfl⟩ | ⟨-, node, -, rfl⟩ |
        ⟨pair', hpair', attrs', hattrs', rfl⟩ | rfl
    · cases hpk
    · cases hpk
    · have hsame : getFromTo pair.1 pair.2 = getFromTo pair'.1 pair'.2 := Id.relation.inj hpk
      have hin := edgeData_eq_some.mp hattrs
      rw [hsame] at hin
      obtain ⟨-, rfl⟩ := Prod.mk.inj (eq_of_key hin (edgeData_eq_some.mp hattrs') rfl)
      rcases getFromTo_inj hsame with heq | heq
      · exact .inl (by rw [heq])
      · refine .inr ⟨pair.1, pair.2, attrs, hpair, ?_, rfl, ?_⟩
        · rw [heq] at hpair'
          exact hpair'
        · rw [heq]
    · cases hpk
  · rcases mem_chunks.mp hother with ⟨source, -, rfl⟩ | ⟨-, node, -, rfl⟩ |
        ⟨pair, -, attrs, -, rfl⟩ | rfl
    · cases hpk
    · cases hpk
    · cases hpk
    · exact .inl rfl

theorem Final.agrees {final' : Store} (h : Final rows g change final)
    (h' : Final rows g change final') (id : Id) :
    Option.Rel (Row.Agrees change) (final.get? id) (final'.get? id) := by
  by_cases hid : id ∈ newIds g change
  · obtain ⟨row, hchunk, hpk, hget⟩ := h.new id hid
    obtain ⟨row', hchunk', hpk', hget'⟩ := h'.new id hid
    rw [hget, hget']
    exact .some (agrees_of_chunk hchunk hchunk' (hpk.trans hpk'.symm))
  · have heq : final.get? id = final'.get? id := by
      ext row
      rw [h.kept id hid row, h'.kept id hid row]
    rw [heq]
    cases final'.get? id with
    | none => exact .none
    | some row => exact .some (.inl rfl)

theorem setGraph_ok (hpasses : prep.Passes (graph.revised revision) change)
    (hchecked : ∀ row ∈ store, ∃ b,
      staleRow (graph.revised revision) change
      (canonicalIn (graph.revised revision) change store.rows) row = .ok b) :
    (setGraph prep store graph change revision).1 = .ok () := by
  obtain ⟨stale, hstale⟩ := exists_staleIds hchecked
  unfold setGraph
  simp only [hpasses.1, hpasses.2, hstale, Bool.not_true, Bool.false_eq_true, if_false]

theorem final_setGraph (h : Persisted rows prev) (hnames : NamesValid prev)
    (hbetween : Between rows (graph.revised revision) change store)
    (hpasses : prep.Passes (graph.revised revision) change) :
    (setGraph prep store graph change revision).1 = .ok () ∧
      Final rows (graph.revised revision) change
        (setGraph prep store graph change revision).2 := by
  have hok := setGraph_ok hpasses fun row hrow => checked_between h hnames hbetween hrow _
  exact ⟨hok, final_of_completed h hbetween (setGraph_completed hok)⟩

theorem Between.revised {again : String} (h : Between rows (graph.revised revision) change store) :
    Between rows (graph.revised again) change store := by
  have hids : newIds (graph.revised again) change = newIds (graph.revised revision) change := by
    rw [newIds_revised, newIds_revised]
  have hstale : ∀ row : Row, staleRow (graph.revised again) change
      (renewed (graph.revised again) change) row =
        staleRow (graph.revised revision) change (renewed (graph.revised revision) change) row := by
    intro row
    unfold staleRow renewed
    rw [hids]
    rfl
  constructor
  · rw [hids]
    exact h.old
  · intro id hid row hget hkept
    rw [hids] at hid
    rw [hstale] at hkept
    exact h.kept id hid row hget hkept

/-- From the rows of one graph, a run that nothing stops ends in the rows of the next; a run
    that stops anywhere leaves a store that reads as one of the two, and from which a new run
    ends as from the rows before. -/
theorem set_graph_consistent (prev next : Graph) (rows : Store) (change : GraphChange)
    (h : Persisted rows prev) (hnames : NamesValid prev) (hcovers : Covers prev next change)
    (hremovals : RemovalsHold next change) :
    (∀ prep revision,
      Interrupted rows (next.revised revision) change (setGraph prep rows next change revision).2 ∧
        (prep.Passes (next.revised revision) change →
          (setGraph prep rows next change revision).1 = .ok () ∧
            Persisted (setGraph prep rows next change revision).2 (next.revised revision))) ∧
    ∀ revision store, Interrupted rows (next.revised revision) change store →
      (∀ excluded, getGraph store.rows excluded = .ok (some prev) ∨
        getGraph store.rows excluded = .ok (some (next.revised revision))) ∧
      ∀ prep prep' again, prep.Passes (next.revised again) change →
        prep'.Passes (next.revised again) change →
          (setGraph prep store next change again).1 = .ok () ∧
            ∀ id, Option.Rel (Row.Agrees change)
              ((setGraph prep store next change again).2.get? id)
              ((setGraph prep' rows next change again).2.get? id) := by
  refine ⟨fun prep revision => ⟨?_, fun hpasses => ?_⟩, fun revision store hinterrupted => ⟨?_, ?_⟩⟩
  · exact interrupted_setGraph fun row hrow => checked_between h hnames Between.refl hrow _
  · obtain ⟨hok, hfinal⟩ := final_setGraph h hnames Between.refl hpasses
    exact ⟨hok, persisted_of_final hnames (hcovers.revised revision) hremovals h hfinal⟩
  · exact getGraph_interrupted h hinterrupted
  · intro prep prep' again hpasses hpasses'
    have hbetween : Between rows (next.revised again) change store :=
      (between_of_interrupted h hinterrupted).revised
    obtain ⟨hok, hfinal⟩ := final_setGraph h hnames hbetween hpasses
    exact ⟨hok, hfinal.agrees (final_setGraph h hnames Between.refl hpasses').2⟩

/-! ### A stored graph, and changes that go wrong -/

def attrsOf (source : String) : Attrs := ⟨[source], .empty⟩

def pairGraph : Graph where
  documents := ["d"]
  revision := "r0"
  nodes := ⟨[("A", attrsOf "d"), ("B", attrsOf "d")], by decide⟩
  edges := ⟨[(("A", "B"), attrsOf "d")], by decide⟩
  sorted := by decide
  joins := by decide

def pairRows : Store :=
  ⟨[⟨.legacy "g", .graph pairGraph, false⟩, subgraphChunk pairGraph "d",
    graphNodeToChunk ("A", attrsOf "d"), ⟨.legacy "e", .entity (some "B") (attrsOf "d"), false⟩,
    ⟨.legacy "r", .relation (some "B") (some "A") (attrsOf "d"), false⟩], by decide⟩

theorem pairRows_persisted : Persisted pairRows pairGraph where
  ids := by decide
  unique := by
    have hnodup : (pairRows.rows.map Row.canonical?).Nodup := by decide
    intro row hrow other hother id hcanon hcanon' _
    exact inj_on_of_nodup_map hnodup hrow hother (hcanon.trans hcanon'.symm)
  checkpoint := ⟨_, mem_cons_self, rfl, rfl⟩
  subgraphs := by decide
  entities name attrs h := by
    simp only [pairGraph, mem_def, mem_cons, Prod.mk.injEq, not_mem_nil,
      or_false] at h
    rcases h with ⟨rfl, rfl⟩ | ⟨rfl, rfl⟩
    · exact ⟨_, .tail _ (.tail _ (.head _)), rfl⟩
    · exact ⟨_, .tail _ (.tail _ (.tail _ (.head _))), rfl⟩
  relations pair attrs h := by
    simp only [pairGraph, mem_def, mem_singleton, Prod.mk.injEq] at h
    obtain ⟨rfl, rfl⟩ := h
    exact ⟨_, .tail _ (.tail _ (.tail _ (.tail _ (.head _)))), "B", "A", rfl, by decide⟩
  present := by decide

def tripleGraph : Graph where
  documents := ["d"]
  revision := "r0"
  nodes := ⟨[("A", attrsOf "d"), ("B", attrsOf "d"), ("C", attrsOf "d")], by decide⟩
  edges := ⟨[(("A", "B"), attrsOf "d"), (("B", "C"), attrsOf "d")], by decide⟩
  sorted := by decide
  joins := by decide

def thirdNode : GraphChange := ⟨[], ["C"], [], [("C", "B")]⟩

theorem pairGraph_namesValid : NamesValid pairGraph := by
  intro name hname
  obtain ⟨attrs, hmem⟩ := Graph.hasNode_iff.mp hname
  simp only [pairGraph, mem_def, mem_cons, Prod.mk.injEq, not_mem_nil,
    or_false] at hmem
  rcases hmem with ⟨rfl, -⟩ | ⟨rfl, -⟩ <;> decide

theorem thirdNode_covers : Covers pairGraph tripleGraph thirdNode where
  addedNodes name attrs h hnew := by
    simp only [tripleGraph, pairGraph, mem_def, mem_cons, Prod.mk.injEq,
      not_mem_nil, or_false] at h hnew
    rcases h with h | h | h
    · exact absurd (.inl h) hnew
    · exact absurd (.inr h) hnew
    · exact mem_singleton.mpr h.1
  removedNodes name hname hgone := by
    obtain ⟨attrs, hmem⟩ := Graph.hasNode_iff.mp hname
    have hin : (name, attrs) ∈ tripleGraph.nodes := by
      simp only [tripleGraph, pairGraph, mem_def, mem_cons, not_mem_nil,
        or_false] at hmem ⊢
      exact hmem.imp_right .inl
    rw [Graph.hasNode_iff.mpr ⟨attrs, hin⟩] at hgone
    cases hgone
  addedEdges pair attrs h hnew := by
    simp only [tripleGraph, pairGraph, mem_def, mem_cons, Prod.mk.injEq,
      not_mem_nil, or_false] at h hnew
    rcases h with h | h
    · exact absurd h hnew
    · exact ⟨("C", "B"), mem_singleton_self _, by rw [h.1]; decide⟩
  removedEdges pair hpair hgone := by
    obtain ⟨attrs, hmem⟩ := Graph.hasEdge_iff.mp hpair
    have hin : (pair, attrs) ∈ tripleGraph.edges := by
      simp only [tripleGraph, pairGraph, mem_def, mem_cons, not_mem_nil,
        or_false] at hmem ⊢
      exact .inl hmem
    rw [Graph.hasEdge_iff.mpr ⟨attrs, hin⟩] at hgone
    cases hgone

theorem set_graph_consistent_sample :
    (setGraph prepared pairRows tripleGraph thirdNode "r1").1 = .ok () ∧
      Persisted (setGraph prepared pairRows tripleGraph thirdNode "r1").2
        (tripleGraph.revised "r1") :=
  ((set_graph_consistent pairGraph tripleGraph pairRows thirdNode pairRows_persisted
    pairGraph_namesValid thirdNode_covers nofun).1 prepared "r1").2 ⟨rfl, by decide⟩

def blankGraph : Graph where
  documents := []
  revision := "r0"
  nodes := ⟨[(" ", ⟨[], .empty⟩)], by decide⟩
  edges := .empty
  sorted := Graph.empty.sorted
  joins _ h := absurd h (not_mem_empty _)

def blankRows : Store :=
  ⟨[checkpointChunk blankGraph, graphNodeToChunk (" ", ⟨[], .empty⟩)], by decide⟩

theorem blankRows_persisted : Persisted blankRows blankGraph where
  ids := by decide
  unique := by
    have hnodup : (blankRows.rows.map Row.canonical?).Nodup := by decide
    intro row hrow other hother id hcanon hcanon' _
    exact inj_on_of_nodup_map hnodup hrow hother (hcanon.trans hcanon'.symm)
  checkpoint := ⟨_, mem_cons_self, rfl, rfl⟩
  subgraphs := nofun
  entities name attrs h := by
    simp only [blankGraph, mem_def, mem_singleton, Prod.mk.injEq] at h
    obtain ⟨rfl, rfl⟩ := h
    exact ⟨_, .tail _ (.head _), rfl⟩
  relations _ _ h := absurd h (not_mem_empty _)
  present := by decide

/-- A change that lists an edge as removed that stays loses its row, and a stored blank name
    stops the run after the checkpoint. -/
theorem covering_changes_fail :
    (Covers pairGraph pairGraph ⟨[], [], [("A", "B")], []⟩ ∧
      (setGraph prepared pairRows pairGraph ⟨[], [], [("A", "B")], []⟩ "r1").1 = .ok () ∧
      ¬ Persisted (setGraph prepared pairRows pairGraph ⟨[], [], [("A", "B")], []⟩ "r1").2
        (pairGraph.revised "r1")) ∧
    Persisted blankRows blankGraph ∧ Covers blankGraph .empty ⟨[" "], [], [], []⟩ ∧
      (setGraph prepared blankRows .empty ⟨[" "], [], [], []⟩ "r1").1 ≠ .ok () := by
  refine ⟨⟨?_, by decide +kernel, ?_⟩, blankRows_persisted, ?_, by decide +kernel⟩
  · exact Covers.refl pairGraph _
  · intro hpersisted
    obtain ⟨row, hrow, source, target, hcontent, hpair⟩ :=
      hpersisted.relations ("A", "B") (attrsOf "d") (mem_singleton_self _)
    have hnone : ∀ row ∈ (setGraph prepared pairRows pairGraph ⟨[], [], [("A", "B")], []⟩ "r1").2,
        row.canonical? ≠ some (.relation ("A", "B")) := by decide +kernel
    refine hnone row hrow ?_
    rw [Row.canonical?, hcontent, ← hpair]
    rfl
  · refine ⟨fun _ _ h => absurd h (not_mem_empty _), fun name hname _ => ?_,
      fun _ _ h => absurd h (not_mem_empty _), fun pair hpair _ => ?_⟩
    · obtain ⟨attrs, hmem⟩ := Graph.hasNode_iff.mp hname
      simp only [blankGraph, mem_def, mem_singleton, Prod.mk.injEq] at hmem
      exact mem_singleton.mpr hmem.1
    · obtain ⟨attrs, hmem⟩ := Graph.hasEdge_iff.mp hpair
      exact absurd hmem (not_mem_empty _)

end MultiRag.GraphRag
