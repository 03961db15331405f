/-
  **One ranking over several datasets** (`Dealer.search`, `core/nlp/search.py`).

  On Infinity every dataset is a table of its own. A page over several datasets asks each for its
  best rows, as many as the page needs (`poolSize`), sorts them together and cuts the page out. A
  score is a rational number, or the bottom value where `get_float` reads nothing.
-/
import Mathlib.Algebra.Order.Ring.Rat
import Mathlib.Data.List.Dedup
import Mathlib.Data.List.Flatten
import Mathlib.Data.Prod.Lex
import Mathlib.Data.String.Basic
import Mathlib.Order.WithBot
import MultiRag.PyData
import MultiRag.PyText
import MultiRag.RankedMerge

namespace MultiRag.Search

open Ranked List

/-! ### Rows and results -/

/-- A row of the store; what is copied without being read is one value.  The score is
    absent, null or unreadable (`some none`), or a number. -/
structure SearchRow (F : Type) where
  docId : Option Json
  kbId : Option Json
  raptorKwd : Option Json
  score : Option (Option ℚ)
  rest : F

structure SearchResult (F : Type) where
  total : Nat
  ids : List String
  queryVector : List ℚ
  field : List (String × SearchRow F)
  highlight : List (String × String)
  aggregation : List (String × Nat)
  keywords : List String

structure SearchRequest where
  page : Option Int
  topk : Option Int
  size : Option Int
  datasetIndices : Option (List (String × String))

inductive SearchError (ε : Type) where
  | ambiguousBinding
  | conflictingIdentity
  /-- The `KeyError` of `part.field[chunk_id]`. -/
  | missingRow (chunkId : String)
  /-- What the search of a dataset raises. -/
  | dataset (error : ε)

namespace SearchRequest

variable (req : SearchRequest)

def topkOf : Int := req.topk.getD 1024

def limit : Int := req.size.getD req.topkOf

def offset : Int := (req.page.getD 1 - 1) * req.limit

def poolSize : Int := min req.topkOf (req.offset + req.limit)

end SearchRequest

/-- `get_float(row.get("_score", 0))`; the bottom value is `-inf`. -/
def scoreOf {F : Type} (row : SearchRow F) : WithBot ℚ :=
  match row.score with
  | none => (0 : ℚ)
  | some none => ⊥
  | some (some score) => score

def rankKey {F : Type} (hit : String × SearchRow F) : Lex ((WithBot ℚ)ᵒᵈ × String) :=
  toLex (OrderDual.toDual (scoreOf hit.2), hit.1)

def pySlice {α : Type} (items : List α) (start stop : Int) : List α :=
  (pyTake items stop).drop (if 0 ≤ start then start.toNat else items.length - (-start).toNat)

section

variable {F ε : Type}

def boundPairs (indices kbIds : List String) (req : SearchRequest) : Except (SearchError ε) (List (String × String)) :=
  match req.datasetIndices with
  | some pairs => .ok pairs
  | none =>
    match indices with
    | [index] => .ok (kbIds.map fun kbId => (index, kbId))
    | _ => if indices.length = kbIds.length then .ok (indices.zip kbIds) else .error .ambiguousBinding

structure Gathered (F : Type) where
  fields : List (String × SearchRow F)
  highlights : List (String × String)
  keywords : List String
  counts : List (String × Nat)
  total : Nat

def addRow (part : SearchResult F) (fields : List (String × SearchRow F)) (chunkId : String) :
    Except (SearchError ε) (List (String × SearchRow F)) :=
  match part.field.lookup chunkId with
  | none => .error (.missingRow chunkId)
  | some row =>
    match fields.lookup chunkId with
    | none => .ok (dictSet fields chunkId row)
    | some known =>
      if (known.docId, known.kbId) ≠ (row.docId, row.kbId) then .error .conflictingIdentity
      else .ok (dictSet fields chunkId row)

def addCount (counts : List (String × Nat)) (bucket : String × Nat) : List (String × Nat) :=
  dictSet counts bucket.1 ((counts.lookup bucket.1).getD 0 + bucket.2)

def addPart (gathered : Gathered F) (part : SearchResult F) (fields : List (String × SearchRow F)) : Gathered F where
  fields := fields
  highlights := part.highlight.foldl (fun d item => dictSet d item.1 item.2) gathered.highlights
  keywords := gathered.keywords ++ part.keywords
  counts := part.aggregation.foldl addCount gathered.counts
  total := gathered.total + part.total

variable (searchOne : String × String → Int → Except ε (SearchResult F))

def searchPair (poolSize : Int) (gathered : Gathered F) (pair : String × String) :
    Except (SearchError ε) (Gathered F) :=
  match searchOne pair poolSize with
  | .error error => .error (.dataset error)
  | .ok part => (part.ids.foldlM (addRow part) gathered.fields).map (addPart gathered part)

def pageResult (req : SearchRequest) (queryVector : List ℚ) (gathered : Gathered F) : SearchResult F :=
  let ids := pySlice ((rank rankKey gathered.fields).map Prod.fst) req.offset (req.offset + req.limit)
  { total := gathered.total
    ids := ids
    queryVector := queryVector
    field := ids.filterMap fun chunkId => (gathered.fields.lookup chunkId).map (chunkId, ·)
    highlight := ids.filterMap fun chunkId => (gathered.highlights.lookup chunkId).map (chunkId, ·)
    aggregation := gathered.counts
    keywords := gathered.keywords.dedup.insertionSort (· ≤ ·) }

/-- The branch of `Dealer.search` for several datasets on Infinity. -/
def searchDatasets (indices kbIds : List String) (req : SearchRequest) (queryVector : List ℚ) :
    Except (SearchError ε) (SearchResult F) :=
  (boundPairs indices kbIds req).bind fun pairs =>
    (pairs.foldlM (searchPair searchOne req.poolSize) ⟨[], [], [], [], 0⟩).map (pageResult req queryVector)

end

variable {F ε : Type} {searchOne : String × String → Int → Except ε (SearchResult F)}

/-- Each dataset answers with the first rows of a fixed ranking, and no chunk stands in two. -/
structure Ranks (searchOne : String × String → Int → Except ε (SearchResult F)) (pairs : List (String × String))
    (ranking : String × String → List (String × SearchRow F)) : Prop where
  ranked : ∀ pair ∈ pairs, IsRanked rankKey (ranking pair)
  disjoint : ((pairs.flatMap ranking).map Prod.fst).Nodup
  first : ∀ pair ∈ pairs, ∀ n : Int, ∃ part, searchOne pair n = .ok part ∧
    part.ids = ((ranking pair).take n.toNat).map Prod.fst ∧
    ∀ hit ∈ (ranking pair).take n.toNat, part.field.lookup hit.1 = some hit.2

variable {part : SearchResult F}

theorem addRow_new {fields : List (String × SearchRow F)} {hit : String × SearchRow F}
    (hrow : part.field.lookup hit.1 = some hit.2) (hnew : hit.1 ∉ fields.map Prod.fst) :
    addRow (ε := ε) part fields hit.1 = .ok (fields ++ [hit]) := by
  have hnone : fields.lookup hit.1 = none := by
    rw [lookup_eq_none_iff]
    intro item hitem
    have hne : hit.1 ≠ item.1 := by
      intro heq
      exact hnew (heq ▸ mem_map_of_mem hitem)
    simpa using hne
  rw [addRow, hrow]
  simp only [hnone, dictSet_new hit.2 hnew]

theorem foldlM_addRow (hits fields : List (String × SearchRow F))
    (hrows : ∀ hit ∈ hits, part.field.lookup hit.1 = some hit.2)
    (hnodup : ((fields ++ hits).map Prod.fst).Nodup) :
    (hits.map Prod.fst).foldlM (addRow (ε := ε) part) fields = .ok (fields ++ hits) := by
  induction hits generalizing fields with
  | nil =>
    rw [append_nil]
    rfl
  | cons hit hits ih =>
    rw [forall_mem_cons] at hrows
    have hnew : hit.1 ∉ fields.map Prod.fst := by
      rw [map_append, nodup_append] at hnodup
      intro hmem
      exact hnodup.2.2 _ hmem _ (by simp) rfl
    have hrest := ih (fields ++ [hit]) hrows.2 (by simpa using hnodup)
    rw [append_assoc] at hrest
    rw [map_cons, foldlM_cons, addRow_new hrows.1 hnew]
    exact hrest

theorem foldlM_searchPair {ranking : String × String → List (String × SearchRow F)} {n : Int}
    (pairs : List (String × String)) (gathered : Gathered F)
    (hfirst : ∀ pair ∈ pairs, ∃ part, searchOne pair n = .ok part ∧
      part.ids = ((ranking pair).take n.toNat).map Prod.fst ∧
      ∀ hit ∈ (ranking pair).take n.toNat, part.field.lookup hit.1 = some hit.2)
    (hnodup : ((gathered.fields ++ pairs.flatMap fun pair => (ranking pair).take n.toNat).map Prod.fst).Nodup) :
    ∃ gathered', pairs.foldlM (searchPair searchOne n) gathered = .ok gathered' ∧
      gathered'.fields = gathered.fields ++ pairs.flatMap fun pair => (ranking pair).take n.toNat := by
  induction pairs generalizing gathered with
  | nil => exact ⟨gathered, rfl, by simp⟩
  | cons pair pairs ih =>
    rw [forall_mem_cons] at hfirst
    rw [flatMap_cons, ← append_assoc] at hnodup
    obtain ⟨part, hpart, hids, hrows⟩ := hfirst.1
    have hpartNodup : ((gathered.fields ++ (ranking pair).take n.toNat).map Prod.fst).Nodup := by
      rw [map_append] at hnodup
      exact (nodup_append.mp hnodup).1
    have hadded := foldlM_addRow (ε := ε) _ gathered.fields hrows hpartNodup
    obtain ⟨gathered', hrun, hfields⟩ := ih
      (addPart gathered part (gathered.fields ++ (ranking pair).take n.toNat)) hfirst.2 hnodup
    refine ⟨gathered', ?_, ?_⟩
    · rw [foldlM_cons, searchPair, hpart]
      simp only [hids, hadded]
      exact hrun
    · rw [hfields, flatMap_cons, ← append_assoc]
      rfl

variable {pairs : List (String × String)} {ranking : String × String → List (String × SearchRow F)}

def merged (pairs : List (String × String)) (ranking : String × String → List (String × SearchRow F)) (n : Nat) :
    List (String × SearchRow F) :=
  mergeAll rankKey (pairs.map fun pair => (ranking pair).take n)

theorem Ranks.nodup_take (h : Ranks searchOne pairs ranking) (n : Nat) :
    ((pairs.flatMap fun pair => (ranking pair).take n).map Prod.fst).Nodup := by
  have hsub : (pairs.flatMap fun pair => (ranking pair).take n).Sublist (pairs.flatMap ranking) :=
    Sublist.flatMap_right pairs fun pair _ => take_sublist n (ranking pair)
  exact (hsub.map Prod.fst).nodup h.disjoint

theorem Ranks.isRanked_take (h : Ranks searchOne pairs ranking) (n : Nat) :
    ∀ part ∈ pairs.map (fun pair => (ranking pair).take n), IsRanked rankKey part := by
  intro part hpart
  obtain ⟨pair, hpair, rfl⟩ := mem_map.mp hpart
  exact (h.ranked pair hpair).sublist (take_sublist n _)

theorem nodup_rankKey {rows : List (String × SearchRow F)} (h : (rows.map Prod.fst).Nodup) :
    (rows.map rankKey).Nodup := by
  have hids : (rows.map rankKey).map (fun key => (ofLex key).2) = rows.map Prod.fst := by
    rw [map_map]
    rfl
  exact Nodup.of_map _ (hids ▸ h)

theorem Ranks.rank_pool (h : Ranks searchOne pairs ranking) (n : Nat) :
    rank rankKey (pairs.flatMap fun pair => (ranking pair).take n) = merged pairs ranking n := by
  apply eq_mergeAll
  · rw [flatMap_def]
  · exact h.isRanked_take n
  · exact nodup_rankKey (h.nodup_take n)

theorem Ranks.nodup_merged (h : Ranks searchOne pairs ranking) (n : Nat) :
    ((merged pairs ranking n).map Prod.fst).Nodup := by
  rw [← h.rank_pool n]
  exact ((rank_perm _).map Prod.fst).nodup_iff.mpr (h.nodup_take n)

theorem take_merged (n topk : Nat) :
    (merged pairs ranking (min topk n)).take n = (merged pairs ranking topk).take n := by
  by_cases hn : n ≤ topk
  · have hparts : (pairs.map fun pair => (ranking pair).take topk).map (·.take n) =
        pairs.map fun pair => (ranking pair).take n := by
      rw [map_map]
      apply map_congr_left
      intro pair _
      simp [take_take, Nat.min_eq_left hn]
    rw [Nat.min_eq_right hn, merged, merged, ← hparts]
    exact take_mergeAll (Nat.le_refl n) _
  · rw [Nat.min_eq_left (by omega)]

theorem pySlice_of_nonneg {α : Type} (items : List α) {start stop : Int} (hstart : 0 ≤ start) (hstop : 0 ≤ stop) :
    pySlice items start stop = (items.take stop.toNat).drop start.toNat := by
  rw [pySlice, pyTake, if_pos hstart, if_pos hstop]

theorem offset_nonneg {req : SearchRequest} (h : 0 < req.offset + req.limit) : 0 ≤ req.offset := by
  have hend : req.offset + req.limit = req.page.getD 1 * req.limit := by
    rw [SearchRequest.offset, Int.sub_mul, Int.one_mul, Int.sub_add_cancel]
  rw [hend] at h
  rw [SearchRequest.offset]
  rcases Int.lt_trichotomy req.limit 0 with hneg | hzero | hpos
  · have hpage : req.page.getD 1 < 0 := by
      by_contra hpage
      have hle := Int.mul_le_mul_of_nonneg_left hneg.le (not_lt.mp hpage)
      omega
    exact Int.mul_nonneg_of_nonpos_of_nonpos (by omega) hneg.le
  · simp [hzero] at h
  · have hpage : 0 < req.page.getD 1 := Int.pos_of_mul_pos_left h hpos
    exact Int.mul_nonneg (by omega) hpos.le

theorem Ranks.slice_pool (h : Ranks searchOne pairs ranking) (req : SearchRequest) :
    pySlice ((merged pairs ranking req.poolSize.toNat).map Prod.fst) req.offset (req.offset + req.limit) =
      (((merged pairs ranking req.topkOf.toNat).map Prod.fst).take (req.offset + req.limit).toNat).drop
        req.offset.toNat := by
  have hpool : req.poolSize.toNat = min req.topkOf.toNat (req.offset + req.limit).toNat := by
    rw [SearchRequest.poolSize]
    omega
  rw [hpool]
  by_cases hend : 0 < req.offset + req.limit
  · rw [pySlice_of_nonneg _ (offset_nonneg hend) hend.le, ← map_take, take_merged, map_take]
  · have hnone : merged pairs ranking 0 = [] := by
      have hempty := h.rank_pool 0
      simp only [take_zero] at hempty
      rw [← hempty]
      have hrows : (pairs.flatMap fun _ => ([] : List (String × SearchRow F))) = [] := by simp
      rw [hrows]
      rfl
    have hzero : (req.offset + req.limit).toNat = 0 := by omega
    rw [hzero, Nat.min_zero, hnone]
    simp [pySlice, pyTake]

/-- A page is the slice of the merge of every dataset's first `topk` rows, and the pages
    one after another make up the merge, in which no chunk is repeated. -/
theorem searchDatasets_page {indices kbIds : List String} {req : SearchRequest}
    (hpairs : boundPairs (ε := ε) indices kbIds req = .ok pairs) (h : Ranks searchOne pairs ranking)
    (queryVector : List ℚ) :
    (∃ result, searchDatasets searchOne indices kbIds req queryVector = .ok result ∧
      result.ids = (((merged pairs ranking req.topkOf.toNat).map Prod.fst).take (req.offset + req.limit).toNat).drop
        req.offset.toNat) ∧
    (∀ size n : Nat, ∃ results : Nat → SearchResult F,
      (∀ k, searchDatasets searchOne indices kbIds
        { req with page := some (k + 1 : Nat), topk := some req.topkOf, size := some (size : Int) } queryVector =
          .ok (results k)) ∧
      (range n).flatMap (fun k => (results k).ids) =
        ((merged pairs ranking req.topkOf.toNat).map Prod.fst).take (n * size)) ∧
    ((merged pairs ranking req.topkOf.toNat).map Prod.fst).Nodup := by
  have hpage : ∀ req' : SearchRequest, boundPairs (ε := ε) indices kbIds req' = .ok pairs →
      ∃ result, searchDatasets searchOne indices kbIds req' queryVector = .ok result ∧
        result.ids = (((merged pairs ranking req'.topkOf.toNat).map Prod.fst).take
          (req'.offset + req'.limit).toNat).drop req'.offset.toNat := by
    intro req' hbound
    obtain ⟨gathered, hrun, hfields⟩ := foldlM_searchPair (n := req'.poolSize) pairs ⟨[], [], [], [], 0⟩
      (fun pair hpair => h.first pair hpair req'.poolSize) (h.nodup_take req'.poolSize.toNat)
    refine ⟨pageResult req' queryVector gathered, ?_, ?_⟩
    · rw [searchDatasets, hbound]
      simp only [Except.bind, hrun, Except.map]
    · rw [nil_append] at hfields
      rw [← h.slice_pool req', ← h.rank_pool, ← hfields]
      rfl
  refine ⟨hpage req hpairs, ?_, h.nodup_merged _⟩
  intro size n
  have hpages : ∀ k : Nat, ∃ result, searchDatasets searchOne indices kbIds
      { req with page := some (k + 1 : Nat), topk := some req.topkOf, size := some (size : Int) } queryVector =
        .ok result ∧
      result.ids = page size k ((merged pairs ranking req.topkOf.toNat).map Prod.fst) := by
    intro k
    obtain ⟨result, hrun, hids⟩ := hpage
      { req with page := some (k + 1 : Nat), topk := some req.topkOf, size := some (size : Int) } hpairs
    refine ⟨result, hrun, ?_⟩
    have hoffset : SearchRequest.offset { req with page := some (k + 1 : Nat), topk := some req.topkOf, size := some (size : Int) } =
        (k * size : Nat) := by
      simp [SearchRequest.offset, SearchRequest.limit]
    rw [hids, hoffset, page]
    simp only [SearchRequest.limit, SearchRequest.topkOf, Option.getD_some]
    rw [← Int.natCast_add, Int.toNat_natCast, Int.toNat_natCast, drop_take, Nat.add_sub_cancel_left]
  choose results hresults using hpages
  refine ⟨results, fun k => (hresults k).1, ?_⟩
  rw [← flatMap_page]
  exact flatMap_congr fun k _ => (hresults k).2

def searchFirst (ranking : String × String → List (String × SearchRow F)) (pair : String × String) (n : Int) :
    Except ε (SearchResult F) :=
  .ok { total := (ranking pair).length
        ids := ((ranking pair).take n.toNat).map Prod.fst
        queryVector := []
        field := (ranking pair).take n.toNat
        highlight := []
        aggregation := []
        keywords := [] }

theorem ranks_searchFirst (hranked : ∀ pair ∈ pairs, IsRanked rankKey (ranking pair))
    (hdisjoint : ((pairs.flatMap ranking).map Prod.fst).Nodup) :
    Ranks (searchFirst (ε := ε) ranking) pairs ranking where
  ranked := hranked
  disjoint := hdisjoint
  first := by
    intro pair hpair n
    refine ⟨_, rfl, rfl, ?_⟩
    intro hit hhit
    have hnodup : ((ranking pair).map Prod.fst).Nodup := by
      obtain ⟨before, after, rfl⟩ := append_of_mem hpair
      rw [flatMap_append, flatMap_cons, map_append, map_append] at hdisjoint
      exact (nodup_append.mp (nodup_append.mp hdisjoint).2.1).1
    exact (lookup_iff_mem (((take_sublist _ _).map Prod.fst).nodup hnodup)).mpr hhit

def twoRankings (pair : String × String) : List (String × SearchRow Unit) :=
  if pair.2 = "a" then [("c", ⟨none, none, none, some (some 2), ()⟩), ("d", ⟨none, none, none, none, ()⟩)]
  else [("b", ⟨none, none, none, some (some 2), ()⟩)]

theorem ranks_two : Ranks (searchFirst (ε := Unit) twoRankings) [("i", "a"), ("i", "b")] twoRankings := by
  apply ranks_searchFirst
  · simp only [forall_mem_cons, IsRanked]
    exact ⟨by decide +kernel, by decide +kernel, by simp⟩
  · decide +kernel

theorem searchDatasets_page_two :
    ∃ result, searchDatasets (searchFirst (ε := Unit) twoRankings) ["i"] ["a", "b"]
        ⟨some 2, none, some 1, none⟩ [] = .ok result ∧
      result.ids = (((merged [("i", "a"), ("i", "b")] twoRankings 1024).map Prod.fst).take 2).drop 1 := by
  have hpairs : boundPairs (ε := Unit) ["i"] ["a", "b"] ⟨some 2, none, some 1, none⟩ =
      .ok [("i", "a"), ("i", "b")] := rfl
  exact (searchDatasets_page hpairs ranks_two []).1

end MultiRag.Search
