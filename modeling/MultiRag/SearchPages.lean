/-
  **Pages of a retrieval** (`Dealer.retrieval`, `core/nlp/search.py`).

  The candidates are fetched in blocks of `rerankWindow` of them, a block is pruned,
  scored and sorted as a whole, and a page is cut out of it.

  The scores are rational numbers; how a block is scored is a parameter, and so are
  the SQL rows that are live.
-/
import Mathlib.Data.Rat.Floor
import MultiRag.SearchMerge

namespace MultiRag.Search

open Ranked List

/-! ### The source -/

def chunkScalar : Option Json → String
  | some (.str value) => value
  | some (.arr [.str value]) => value
  | _ => ""

section

variable {F ε : Type}

def isDatasetRaptorChunk (chunk : SearchRow F) : Bool :=
  chunkScalar chunk.docId == "graph_raptor_x" && chunkScalar chunk.raptorKwd == "raptor" && chunkScalar chunk.kbId != ""

def SearchResult.chunks (sres : SearchResult F) : List (SearchRow F) := sres.ids.filterMap fun chunkId => sres.field.lookup chunkId

def hasParent (existing existingKbs : List String) (chunk : SearchRow F) : Bool :=
  if isDatasetRaptorChunk chunk then existingKbs.contains (chunkScalar chunk.kbId)
  else existing.contains (chunkScalar chunk.docId)

/-- `_prune_deleted_chunks`; `liveDoc` and `liveKb` tell the rows that SQL finds. -/
def pruneDeletedChunks (liveDoc liveKb : String → Bool) (sres : SearchResult F) (kbIds : Option (List String)) :
    SearchResult F :=
  let docIds := ((sres.chunks.filter (! isDatasetRaptorChunk ·)).map (chunkScalar ·.docId)).filter (· ≠ "")
  let summaryKbIds := (sres.chunks.filter isDatasetRaptorChunk).map (chunkScalar ·.kbId)
  let existing := docIds.filter liveDoc
  let existingKbs := (summaryKbIds.filter liveKb).filter fun kbId => (kbIds.map (·.contains kbId)).getD true
  let ids := sres.ids.filter fun chunkId => (sres.field.lookup chunkId).any (hasParent existing existingKbs)
  if ids.length = sres.ids.length then sres
  else
    { sres with
      ids := ids
      field := ids.filterMap fun chunkId => (sres.field.lookup chunkId).map (chunkId, ·)
      highlight := ids.filterMap fun chunkId => (sres.highlight.lookup chunkId).map (chunkId, ·) }

def rerankWindow (pageSize top : Int) : Int :=
  if pageSize ≤ 1 then
    if 0 < top then min 30 top else 30
  else
    let window := ⌈(64 : ℚ) / pageSize⌉ * pageSize
    if 0 < top then min window (⌈(top : ℚ) / pageSize⌉ * pageSize) else window

/-- How a block is scored: by the external model, or by the store's engine, which may have
    lost a candidate since the search. -/
structure Scoring (F : Type) where
  rerankByModel : SearchResult F → List ℚ
  found : SearchResult F → String → Bool
  simByStore : SearchResult F → List ℚ

structure RetrievalArgs where
  question : Option String
  docIds : Option (List String)
  kbIds : Option (List String)
  idxnms : List String
  page : Int
  pageSize : Int
  similarityThreshold : ℚ
  weightDense : ℚ
  top : Int
  rerankMdl : Bool

structure RetrievalPage where
  total : Nat
  chunks : List (String × ℚ)

def RetrievalPage.none : RetrievalPage := ⟨0, []⟩

namespace RetrievalArgs

variable (args : RetrievalArgs)

def rerankLimit : Int := rerankWindow args.pageSize (if args.rerankMdl then args.top else 0)

def globalOffset : Int := (max args.page 1 - 1) * args.pageSize

def postThreshold : ℚ := if args.weightDense ≤ 0 then 0 else args.similarityThreshold

def asksNothing : Bool := args.docIds == some [] || args.question.getD "" == "" || args.kbIds == some []

def isBound : Bool := (args.kbIds.map fun kbIds => args.idxnms.length == kbIds.length).getD true

def isAsked : Bool := !args.asksNothing && args.isBound && !args.idxnms.isEmpty

end RetrievalArgs

variable (scoring : Scoring F) (liveDoc liveKb : String → Bool)

def scored (args : RetrievalArgs) (sres : SearchResult F) : List (String × ℚ) :=
  if args.rerankMdl ∧ 0 < sres.total then sres.ids.zip (scoring.rerankByModel sres)
  else
    let sres := { sres with ids := sres.ids.filter (scoring.found sres) }
    sres.ids.zip (scoring.simByStore sres)

/-- Stable, in descending order of the score: `np.argsort(sim_np * -1, kind="stable")`. -/
def bestFirst (candidates : List (String × ℚ)) : List (String × ℚ) :=
  rank (fun candidate => OrderDual.toDual candidate.2) candidates

def validCandidates (args : RetrievalArgs) (sres : SearchResult F) : List (String × ℚ) :=
  (bestFirst (scored scoring args (pruneDeletedChunks liveDoc liveKb sres args.kbIds))).filter
    fun candidate => args.postThreshold ≤ candidate.2

inductive RetrievalError (ε : Type) where
  /-- `Each selected dataset must have one tenant/name index binding` -/
  | unboundDataset
  | search (error : ε)

/-- `Dealer.retrieval`: the page of the block that holds it. -/
def retrieval (search : Int → Int → Except ε (SearchResult F)) (args : RetrievalArgs) :
    Except (RetrievalError ε) RetrievalPage :=
  if args.asksNothing then .ok .none
  else if !args.isBound then .error .unboundDataset
  else if args.idxnms.isEmpty then .ok .none
  else
    match search (args.globalOffset / args.rerankLimit + 1) args.rerankLimit with
    | .error error => .error (.search error)
    | .ok sres =>
      let validIdx := validCandidates scoring liveDoc liveKb args sres
      let begin_ := args.globalOffset % args.rerankLimit
      .ok ⟨validIdx.length, pySlice validIdx begin_ (begin_ + args.pageSize)⟩

end

/-! ### The window -/

theorem ceil_div_pos {a b : Int} (ha : 0 < a) (hb : 0 < b) : 0 < ⌈(a : ℚ) / b⌉ := by
  rw [Int.ceil_pos]
  exact div_pos (by exact_mod_cast ha) (by exact_mod_cast hb)

theorem rerankWindow_eq {pageSize : Int} (h : 1 ≤ pageSize) (top : Int) :
    ∃ count : Nat, 0 < count ∧ rerankWindow pageSize top = count * pageSize := by
  have hwindow : ∃ count : Int, 0 < count ∧ rerankWindow pageSize top = count * pageSize := by
    rw [rerankWindow]
    by_cases hone : pageSize ≤ 1
    · obtain rfl : pageSize = 1 := by omega
      rw [if_pos hone]
      by_cases htop : 0 < top
      · exact ⟨min 30 top, by omega, by simp [htop]⟩
      · exact ⟨30, by omega, by simp [htop]⟩
    · have hfull : 0 < ⌈(64 : ℚ) / pageSize⌉ := ceil_div_pos (a := 64) (by omega) (by omega)
      rw [if_neg hone]
      by_cases htop : 0 < top
      · have hcapped : 0 < ⌈(top : ℚ) / pageSize⌉ := ceil_div_pos htop (by omega)
        refine ⟨min ⌈(64 : ℚ) / pageSize⌉ ⌈(top : ℚ) / pageSize⌉, by omega, ?_⟩
        simp only [htop, if_true]
        rw [min_mul_of_nonneg _ _ (by omega : 0 ≤ pageSize)]
      · exact ⟨⌈(64 : ℚ) / pageSize⌉, hfull, by simp [htop]⟩
  obtain ⟨count, hpos, heq⟩ := hwindow
  exact ⟨count.toNat, by omega, by rw [heq, Int.toNat_of_nonneg hpos.le]⟩

variable {F ε : Type} {scoring : Scoring F} {liveDoc liveKb : String → Bool} {args : RetrievalArgs}
  (sres : SearchResult F)

theorem ids_pruneDeletedChunks (kbIds : Option (List String)) :
    (pruneDeletedChunks liveDoc liveKb sres kbIds).ids.Sublist sres.ids := by
  unfold pruneDeletedChunks
  extract_lets
  split_ifs
  · exact Sublist.refl _
  · exact filter_sublist

theorem map_fst_zip_sublist {α β : Type} (ids : List α) (sims : List β) : ((ids.zip sims).map Prod.fst).Sublist ids := by
  induction ids generalizing sims with
  | nil => simp
  | cons id ids ih =>
    cases sims with
    | nil => simp
    | cons sim sims => simpa using ih sims

theorem ids_scored : ((scored scoring args sres).map Prod.fst).Sublist sres.ids := by
  rw [scored]
  split_ifs
  · exact map_fst_zip_sublist _ _
  · exact (map_fst_zip_sublist _ _).trans filter_sublist

def survivors (scoring : Scoring F) (liveDoc liveKb : String → Bool) (args : RetrievalArgs) (sres : SearchResult F) :
    List (String × ℚ) :=
  (scored scoring args (pruneDeletedChunks liveDoc liveKb sres args.kbIds)).filter
    fun candidate => args.postThreshold ≤ candidate.2

theorem ids_survivors :
    ((survivors scoring liveDoc liveKb args sres).map Prod.fst).Sublist sres.ids :=
  ((filter_sublist.map Prod.fst).trans (ids_scored _)).trans (ids_pruneDeletedChunks sres args.kbIds)

theorem validCandidates_perm :
    (validCandidates scoring liveDoc liveKb args sres).Perm (survivors scoring liveDoc liveKb args sres) :=
  (rank_perm _).filter _

theorem validCandidates_sorted :
    (validCandidates scoring liveDoc liveKb args sres).Pairwise fun a b => b.2 ≤ a.2 := by
  have hranked : IsRanked (fun candidate : String × ℚ => OrderDual.toDual candidate.2)
      (bestFirst (scored scoring args (pruneDeletedChunks liveDoc liveKb sres args.kbIds))) := isRanked_rank _
  exact hranked.filter _

theorem length_validCandidates :
    (validCandidates scoring liveDoc liveKb args sres).length ≤ sres.ids.length := by
  have hids : ((survivors scoring liveDoc liveKb args sres).map Prod.fst).Sublist sres.ids := ids_survivors sres
  have hshown := hids.length_le
  rw [length_map] at hshown
  rw [(validCandidates_perm sres).length_eq]
  exact hshown

variable {search : Int → Int → Except ε (SearchResult F)}

def AnswersBlocks (search : Int → Int → Except ε (SearchResult F)) (window : Int) (ranking : List String)
    (block : Nat → SearchResult F) : Prop :=
  ∀ k : Nat, search (k + 1) window = .ok (block k) ∧ (block k).ids = page window.toNat k ranking

variable {block : Nat → SearchResult F} {ranking : List String}

theorem retrieval_page {count size : Nat}
    (hsize : args.pageSize = size) (hsizePos : 0 < size) (hasked : args.isAsked = true)
    (hlimit : args.rerankLimit = count * size) (hblocks : AnswersBlocks search args.rerankLimit ranking block) (p : Nat) :
    ∃ result, retrieval scoring liveDoc liveKb search { args with page := (p + 1 : Nat) } = .ok result ∧
      result.chunks = page size (p % count) (validCandidates scoring liveDoc liveKb args (block (p / count))) := by
  simp only [RetrievalArgs.isAsked, Bool.and_eq_true, Bool.not_eq_true'] at hasked
  generalize hargs : ({ args with page := (p + 1 : Nat) } : RetrievalArgs) = asked
  have hnothing : asked.asksNothing = false := by
    rw [← hargs]
    exact hasked.1.1
  have hbound : asked.isBound = true := by
    rw [← hargs]
    exact hasked.1.2
  have hindex : asked.idxnms.isEmpty = false := by
    rw [← hargs]
    exact hasked.2
  have hwindow : asked.rerankLimit = (count * size : Nat) := by
    rw [← hargs, Nat.cast_mul]
    exact hlimit
  have hoffset : asked.globalOffset = (p * size : Nat) := by
    have hpage : max ((p + 1 : Nat) : Int) 1 - 1 = p := by omega
    rw [← hargs, RetrievalArgs.globalOffset, hsize, Nat.cast_mul, hpage]
  have hsearch : search (asked.globalOffset / asked.rerankLimit + 1) asked.rerankLimit = .ok (block (p / count)) := by
    have hblock := (hblocks (p / count)).1
    rw [hlimit, ← Nat.cast_mul] at hblock
    rw [hoffset, hwindow, ← Int.natCast_ediv, Nat.mul_div_mul_right _ _ hsizePos]
    exact hblock
  have hvalid : validCandidates scoring liveDoc liveKb asked = validCandidates scoring liveDoc liveKb args := by
    rw [← hargs]
    rfl
  have hpageSize : asked.pageSize = size := by rw [← hargs, ← hsize]
  have hresult : retrieval scoring liveDoc liveKb search asked =
      .ok ⟨(validCandidates scoring liveDoc liveKb args (block (p / count))).length,
        pySlice (validCandidates scoring liveDoc liveKb args (block (p / count)))
          (asked.globalOffset % asked.rerankLimit) (asked.globalOffset % asked.rerankLimit + asked.pageSize)⟩ := by
    simp only [retrieval, hnothing, hbound, hindex, hsearch, hvalid, Bool.false_eq_true, if_false, Bool.not_true]
  refine ⟨_, hresult, ?_⟩
  simp only [hoffset, hwindow, hpageSize, ← Int.natCast_emod, Nat.mul_mod_mul_right, ← Int.natCast_add]
  rw [pySlice_of_nonneg _ (Int.natCast_nonneg _) (Int.natCast_nonneg _), Int.toNat_natCast, Int.toNat_natCast,
    drop_take, Nat.add_sub_cancel_left, page]

theorem nodup_shown {N : Nat}
    (hids : (range N).flatMap (fun k => (block k).ids) = ranking) (hranking : ranking.Nodup) :
    (((range N).flatMap fun k => validCandidates scoring liveDoc liveKb args (block k)).map Prod.fst).Nodup := by
  have hperm : ((range N).flatMap fun k => validCandidates scoring liveDoc liveKb args (block k)).Perm
      ((range N).flatMap fun k => survivors scoring liveDoc liveKb args (block k)) :=
    Perm.flatMap_left _ fun k _ => validCandidates_perm (block k)
  have hsub : (((range N).flatMap fun k => survivors scoring liveDoc liveKb args (block k)).map Prod.fst).Sublist
      ((range N).flatMap fun k => (block k).ids) := by
    rw [map_flatMap]
    exact Sublist.flatMap_right _ fun k _ => ids_survivors (block k)
  rw [hids] at hsub
  exact (hperm.map Prod.fst).nodup_iff.mpr (hsub.nodup hranking)

/-- Pages 1 to `n`, as many as the ranking is long, show block by block every candidate that
    is left of the block, once and in descending order of the score. -/
theorem retrieval_pages {ranking : List String} {block : Nat → SearchResult F} (hsize : 1 ≤ args.pageSize)
    (hasked : args.isAsked = true) (hblocks : AnswersBlocks search args.rerankLimit ranking block) {n N : Nat}
    (hn : ranking.length ≤ n * args.pageSize) (hN : ranking.length ≤ N * args.rerankLimit) :
    ∃ pages : Nat → RetrievalPage,
      (∀ p : Nat, retrieval scoring liveDoc liveKb search { args with page := (p + 1 : Nat) } = .ok (pages p)) ∧
      (range n).flatMap (fun p => (pages p).chunks) =
        (range N).flatMap (fun k => validCandidates scoring liveDoc liveKb args (block k)) ∧
      (∀ k, (validCandidates scoring liveDoc liveKb args (block k)).Perm
          (survivors scoring liveDoc liveKb args (block k)) ∧
        (validCandidates scoring liveDoc liveKb args (block k)).Pairwise fun a b => b.2 ≤ a.2) ∧
      (range N).flatMap (fun k => (block k).ids) = ranking ∧
      (ranking.Nodup → (((range n).flatMap fun p => (pages p).chunks).map Prod.fst).Nodup) := by
  obtain ⟨size, hsizeNat⟩ := Int.eq_ofNat_of_zero_le (show 0 ≤ args.pageSize by omega)
  have hsizePos : 0 < size := by omega
  obtain ⟨count, hcount, hwindow⟩ := rerankWindow_eq hsize (if args.rerankMdl then args.top else 0)
  have hlimit : args.rerankLimit = count * size := by rw [← hsizeNat]; exact hwindow
  have hlimitNat : args.rerankLimit.toNat = count * size := by
    rw [hlimit, ← Nat.cast_mul, Int.toNat_natCast]
  rw [hsizeNat, ← Nat.cast_mul, Nat.cast_le] at hn
  rw [hlimit, ← Nat.cast_mul, ← Nat.cast_mul, Nat.cast_le] at hN
  have hpage : ∀ p : Nat, ∃ result,
      retrieval scoring liveDoc liveKb search { args with page := (p + 1 : Nat) } = .ok result ∧
      result.chunks = page size (p % count) (validCandidates scoring liveDoc liveKb args (block (p / count))) :=
    retrieval_page hsizeNat hsizePos hasked hlimit hblocks
  choose pages hrun hchunks using hpage
  have hids : ∀ k, (block k).ids = page (count * size) k ranking := by
    intro k
    rw [← hlimitNat]
    exact (hblocks k).2
  have hshown : ∀ k, (validCandidates scoring liveDoc liveKb args (block k)).length ≤
      min (count * size) (ranking.length - k * (count * size)) := by
    intro k
    refine (length_validCandidates (block k)).trans ?_
    rw [hids, page, length_take, length_drop]
  have hall : (range N).flatMap (fun k => (block k).ids) = ranking := by
    rw [flatMap_congr fun k _ => hids k]
    exact flatMap_page_eq hN
  have hpages : (range n).flatMap (fun p => (pages p).chunks) =
      (range N).flatMap fun k => validCandidates scoring liveDoc liveKb args (block k) := by
    rw [flatMap_congr fun p _ => hchunks p]
    exact flatMap_block_eq hcount hshown hn hN
  refine ⟨pages, hrun, hpages, ?_, hall, ?_⟩
  · intro k
    exact ⟨validCandidates_perm _, validCandidates_sorted _⟩
  · intro hranking
    rw [hpages]
    exact nodup_shown hall hranking

def evenScoring : Scoring Unit := ⟨fun sres => sres.ids.map fun _ => 1, fun _ _ => true, fun sres => sres.ids.map fun _ => 1⟩

def twoPerPage : RetrievalArgs := ⟨some "q", none, none, ["i"], 1, 2, 0, 1, 1024, false⟩

def threeChunks (k : Nat) : SearchResult Unit :=
  ⟨3, page 64 k ["a", "b", "c"], [], ["a", "b", "c"].map fun id => (id, ⟨some (.str "d"), none, none, none, ()⟩),
    [], [], []⟩

theorem retrieval_pages_three :
    ∃ pages : Nat → RetrievalPage,
      (∀ p : Nat, retrieval (ε := Unit) evenScoring (fun _ => true) (fun _ => true)
        (fun page _ => .ok (threeChunks (page - 1).toNat)) { twoPerPage with page := (p + 1 : Nat) } = .ok (pages p)) ∧
      (range 2).flatMap (fun p => (pages p).chunks) =
        (range 1).flatMap fun k =>
          validCandidates evenScoring (fun _ => true) (fun _ => true) twoPerPage (threeChunks k) := by
  have hlimit : twoPerPage.rerankLimit = 64 := by decide +kernel
  have hblocks : AnswersBlocks (ε := Unit) (fun page _ => .ok (threeChunks (page - 1).toNat)) twoPerPage.rerankLimit
      ["a", "b", "c"] threeChunks := by
    intro k
    rw [hlimit]
    exact ⟨by simp, rfl⟩
  have hasked : twoPerPage.isAsked = true := by decide +kernel
  have hn : ((["a", "b", "c"] : List String).length : Int) ≤ (2 : Nat) * twoPerPage.pageSize := by decide
  have hN : ((["a", "b", "c"] : List String).length : Int) ≤ (1 : Nat) * twoPerPage.rerankLimit := by
    rw [hlimit]
    decide
  obtain ⟨pages, hrun, hshown, -⟩ := @retrieval_pages Unit Unit evenScoring (fun _ => true) (fun _ => true)
    twoPerPage _ _ _ (by decide) hasked hblocks 2 1 hn hN
  exact ⟨pages, hrun, hshown⟩

end MultiRag.Search
