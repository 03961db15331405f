/-
  **Parents in place of their matched children** (`Dealer.retrieval_by_children`,
  `core/nlp/search.py`).

  Children of one mother are replaced by the mother, if the store holds her under the same dataset
  and document; otherwise they stay. A list in which no chunk has a mother is returned as it is.
-/
import MultiRag.DictGroups
import MultiRag.SearchPages

namespace MultiRag.Search

open Ranked Dict List

/-! ### The source -/

/-- A retrieved chunk, or the row of a parent; the keys that are not read are one value. -/
structure Chunk where
  chunkId : String
  kbId : Option Json
  docId : Option Json
  momId : Option Json
  similarity : ℚ
  contentLtks : String
  text : Json
  docnmKwd : Json
  importantKwd : List String
  imageId : Json
  vector : Option (List ℚ)
  /-- The values of the keys that end in `_vec`. -/
  vecColumns : List (List ℚ)
  vectorSimilarity : Option ℚ
  termSimilarity : Option ℚ
  citationVectorChunkId : Option String
  positions : Json
  docTypeKwd : Json
  documentMetadata : Option Json
  rest : List (String × Json)

/-- A row of the store as `get` returns it, with what stands for its missing keys. -/
structure ParentRow where
  kbId : Option Json
  docId : Option Json
  contentWithWeight : Json
  docnmKwd : Json
  imgId : Json
  positionInt : Json
  docTypeKwd : Json

structure Knowledgebase where
  id : String
  tenantId : String
  name : String
  status : String

structure Document where
  id : String
  kbId : String
  status : String

structure ParentScope where
  knowledgebases : List Knowledgebase
  documents : List Document
  get : String → String → String → Option ParentRow
  /-- The store is Elasticsearch or OpenSearch. -/
  citesVectors : Bool

namespace Chunk

def kb (chunk : Chunk) : String := chunkScalar chunk.kbId

def doc (chunk : Chunk) : String := chunkScalar chunk.docId

def identity (chunk : Chunk) : String × String × String := (chunk.kb, chunk.doc, chunk.chunkId)

def mother (chunk : Chunk) : Option String :=
  match chunk.momId with
  | some (.str parentId) => if isBlank parentId then none else some parentId
  | _ => none

def parentKey (chunk : Chunk) : String × String × String := (chunk.kb, chunk.doc, chunk.mother.getD "")

end Chunk

def meanComponent (values : List (Option ℚ)) : Option ℚ :=
  if values = [] ∨ values.contains none then none
  else some ((values.map (·.getD 0)).sum / values.length)

def indexNameOne (uid kbName : String) : String := "multirag_" ++ uid ++ "_" ++ kbName

section

variable (scope : ParentScope) (tenantIds : List String) (chunks : List Chunk)

def indices : List (String × String) :=
  ofItems ((scope.knowledgebases.filter fun kb =>
    (chunks.map Chunk.kb).contains kb.id && tenantIds.contains kb.tenantId && kb.status == "1").map
      fun kb => (kb.id, indexNameOne kb.tenantId kb.name))

def liveDocs : List (String × String) :=
  (scope.documents.filter fun doc =>
    (chunks.map Chunk.doc).contains doc.id && ((indices scope tenantIds chunks).lookup doc.kbId).isSome &&
      doc.status == "1").map fun doc => (doc.kbId, doc.id)

def isLive (child : Chunk) : Bool :=
  ((indices scope tenantIds chunks).lookup child.kb).isSome &&
    (liveDocs scope tenantIds chunks).contains (child.kb, child.doc)

structure Collected where
  result : List Chunk
  seen : List (String × String × String)
  parents : List ((String × String × String) × List Chunk)

def collect (st : Collected) (child : Chunk) : Collected :=
  if child.identity ∈ st.seen then st
  else
    let seen := child.identity :: st.seen
    if child.mother.isNone then { st with result := st.result ++ [child], seen := seen }
    else if isLive scope tenantIds chunks child then
      { st with seen := seen, parents := file Chunk.parentKey st.parents child }
    else { st with seen := seen }

def verifiedParent (key : String × String × String) : Option ParentRow :=
  (scope.get key.2.2 (((indices scope tenantIds chunks).lookup key.1).getD "") key.1).filter fun parent =>
    chunkScalar parent.kbId == key.1 && chunkScalar parent.docId == key.2.1

def meanSimilarity (children : List Chunk) : ℚ := (children.map Chunk.similarity).sum / children.length

def parentChunk (key : String × String × String) (parent : ParentRow) (first : Chunk) (children : List Chunk) :
    Chunk where
  chunkId := key.2.2
  kbId := some (.str key.1)
  docId := some (.str key.2.1)
  momId := none
  similarity := meanSimilarity children
  contentLtks := " ".intercalate (children.map Chunk.contentLtks)
  text := parent.contentWithWeight
  docnmKwd := parent.docnmKwd
  importantKwd := children.flatMap Chunk.importantKwd
  imageId := parent.imgId
  vector := some (first.vector.getD (first.vecColumns.head?.getD (replicate 1024 0)))
  vecColumns := []
  vectorSimilarity := meanComponent (children.map Chunk.vectorSimilarity)
  termSimilarity := meanComponent (children.map Chunk.termSimilarity)
  citationVectorChunkId :=
    if scope.citesVectors then some (first.citationVectorChunkId.getD first.chunkId) else none
  positions := parent.positionInt
  docTypeKwd := parent.docTypeKwd
  documentMetadata := first.documentMetadata.filter Json.truthy
  rest := []

def groupRows (group : (String × String × String) × List Chunk) : List Chunk :=
  match verifiedParent scope tenantIds chunks group.1, group.2 with
  | some parent, first :: rest => [parentChunk scope group.1 parent first (first :: rest)]
  | _, children => children

def retrievalByChildren : List Chunk :=
  if !chunks.any (·.mother.isSome) then chunks
  else
    let collected := chunks.foldl (collect scope tenantIds chunks) ⟨[], [], []⟩
    let result := collected.result ++ collected.parents.flatMap (groupRows scope tenantIds chunks)
    firsts Chunk.identity (rank (fun chunk => OrderDual.toDual chunk.similarity) result)

end

variable {scope : ParentScope} {tenantIds : List String} {chunks : List Chunk}

/-- A live document of a dataset that may be read. -/
structure Live (scope : ParentScope) (tenantIds : List String) (chunk : Chunk) : Prop where
  permitted : ∃ kb ∈ scope.knowledgebases, kb.id = chunk.kb ∧ kb.tenantId ∈ tenantIds ∧ kb.status = "1"
  document : ∃ doc ∈ scope.documents, doc.id = chunk.doc ∧ doc.kbId = chunk.kb ∧ doc.status = "1"

theorem lookup_isSome_iff {V : Type} {items : List (String × V)} {key : String} :
    (items.lookup key).isSome = true ↔ key ∈ items.map Prod.fst := by
  simp only [List.lookup_isSome_iff, mem_map, beq_iff_eq, @eq_comm _ key]

theorem keys_ofItems {V : Type} (items : List (String × V)) (key : String) :
    key ∈ (ofItems items).map Prod.fst ↔ key ∈ items.map Prod.fst := by
  have hfold : ∀ dict : List (String × V),
      key ∈ (items.foldl (fun dict item => assign dict item.1 item.2) dict).map Prod.fst ↔
        key ∈ dict.map Prod.fst ∨ key ∈ items.map Prod.fst := by
    induction items with
    | nil => simp
    | cons item items ih =>
      intro dict
      rw [foldl_cons, ih, keys_assign]
      by_cases hmem : item.1 ∈ dict.map Prod.fst
      · rw [if_pos hmem, map_cons, mem_cons]
        constructor
        · exact Or.imp_right .inr
        · rintro (h | rfl | h)
          · exact .inl h
          · exact .inl hmem
          · exact .inr h
      · rw [if_neg hmem, map_cons, mem_cons, mem_append, mem_singleton, or_assoc]
  rw [ofItems, hfold []]
  simp

theorem isSome_indices_iff (key : String) :
    ((indices scope tenantIds chunks).lookup key).isSome = true ↔
      key ∈ chunks.map Chunk.kb ∧ ∃ kb ∈ scope.knowledgebases, kb.id = key ∧ kb.tenantId ∈ tenantIds ∧ kb.status = "1" := by
  rw [lookup_isSome_iff, indices, keys_ofItems, map_map]
  simp only [mem_map, List.mem_filter, Bool.and_eq_true, contains_iff_mem, beq_iff_eq, Function.comp_apply]
  constructor
  · rintro ⟨kb, ⟨hkb, ⟨hchunk, htenant⟩, hstatus⟩, rfl⟩
    exact ⟨hchunk, kb, hkb, rfl, htenant, hstatus⟩
  · rintro ⟨hchunk, kb, hkb, rfl, htenant, hstatus⟩
    exact ⟨kb, ⟨hkb, ⟨hchunk, htenant⟩, hstatus⟩, rfl⟩

theorem mem_liveDocs {kbId docId : String} :
    (kbId, docId) ∈ liveDocs scope tenantIds chunks ↔
      docId ∈ chunks.map Chunk.doc ∧ ((indices scope tenantIds chunks).lookup kbId).isSome = true ∧
        ∃ doc ∈ scope.documents, doc.id = docId ∧ doc.kbId = kbId ∧ doc.status = "1" := by
  simp only [liveDocs, mem_map (f := fun doc : Document => (doc.kbId, doc.id)), List.mem_filter,
    Bool.and_eq_true, contains_iff_mem, beq_iff_eq, Prod.mk.injEq]
  constructor
  · rintro ⟨doc, ⟨hdoc, ⟨hchunk, hindex⟩, hstatus⟩, rfl, rfl⟩
    exact ⟨hchunk, hindex, doc, hdoc, rfl, rfl, hstatus⟩
  · rintro ⟨hchunk, hindex, doc, hdoc, rfl, rfl, hstatus⟩
    exact ⟨doc, ⟨hdoc, ⟨hchunk, hindex⟩, hstatus⟩, rfl, rfl⟩

theorem isLive_iff {chunk : Chunk} (hchunk : chunk ∈ chunks) :
    isLive scope tenantIds chunks chunk = true ↔ Live scope tenantIds chunk := by
  have hkb : chunk.kb ∈ chunks.map Chunk.kb := mem_map_of_mem hchunk
  have hdoc : chunk.doc ∈ chunks.map Chunk.doc := mem_map_of_mem hchunk
  rw [isLive, Bool.and_eq_true, contains_iff_mem, mem_liveDocs, isSome_indices_iff]
  constructor
  · rintro ⟨⟨-, hpermitted⟩, -, -, hdocument⟩
    exact ⟨hpermitted, hdocument⟩
  · rintro ⟨hpermitted, hdocument⟩
    exact ⟨⟨hkb, hpermitted⟩, hdoc, ⟨hkb, hpermitted⟩, hdocument⟩

def distinctChunks (chunks : List Chunk) : List Chunk := firsts Chunk.identity chunks

theorem foldl_collect (scope : ParentScope) (tenantIds : List String) (chunks l : List Chunk) (st : Collected) :
    (l.foldl (collect scope tenantIds chunks) st).result =
        st.result ++ (firstsFrom Chunk.identity st.seen l).filter (·.mother.isNone) ∧
      (l.foldl (collect scope tenantIds chunks) st).parents =
        ((firstsFrom Chunk.identity st.seen l).filter fun child =>
          child.mother.isSome && isLive scope tenantIds chunks child).foldl (file Chunk.parentKey) st.parents := by
  induction l generalizing st with
  | nil => simp [firstsFrom]
  | cons child l ih =>
    rw [foldl_cons, (ih _).1, (ih _).2, firstsFrom, collect]
    by_cases hseen : child.identity ∈ st.seen
    · simp [hseen]
    · by_cases hmother : child.mother.isNone = true
      · simp [hseen, hmother]
      · have hsome : child.mother.isSome = true := by
          rw [Option.isSome_iff_ne_none]
          simpa using hmother
        by_cases hlive : isLive scope tenantIds chunks child = true
        · simp [hseen, hmother, hsome, hlive]
        · simp [hseen, hmother, hsome, hlive]

/-! ### What is returned -/

def filedChildren (scope : ParentScope) (tenantIds : List String) (chunks : List Chunk) : List Chunk :=
  (distinctChunks chunks).filter fun child => child.mother.isSome && isLive scope tenantIds chunks child

def candidateRows (scope : ParentScope) (tenantIds : List String) (chunks : List Chunk) : List Chunk :=
  (distinctChunks chunks).filter (·.mother.isNone) ++
    (groups Chunk.parentKey (filedChildren scope tenantIds chunks)).flatMap (groupRows scope tenantIds chunks)

theorem retrievalByChildren_eq (h : chunks.any (·.mother.isSome) = true) :
    retrievalByChildren scope tenantIds chunks =
      firsts Chunk.identity
        (rank (fun chunk => OrderDual.toDual chunk.similarity) (candidateRows scope tenantIds chunks)) := by
  have hcollected := foldl_collect scope tenantIds chunks chunks ⟨[], [], []⟩
  rw [nil_append] at hcollected
  simp only [retrievalByChildren, h, Bool.not_true, Bool.false_eq_true, if_false, hcollected.1, hcollected.2]
  rfl

theorem retrievalByChildren_motherless (h : chunks.any (·.mother.isSome) = false) :
    retrievalByChildren scope tenantIds chunks = chunks := by
  simp [retrievalByChildren, h]

/-- The identity under which a chunk is shown: its own, or that of its verified parent. -/
def representative (scope : ParentScope) (tenantIds : List String) (chunks : List Chunk) (chunk : Chunk) :
    String × String × String :=
  if chunk.mother.isSome ∧ (verifiedParent scope tenantIds chunks chunk.parentKey).isSome then chunk.parentKey
  else chunk.identity

def childrenOf (scope : ParentScope) (tenantIds : List String) (chunks : List Chunk) (key : String × String × String) :
    List Chunk :=
  (filedChildren scope tenantIds chunks).filter fun child => child.parentKey = key

/-- What the list that comes back promises. -/
structure Recalls (scope : ParentScope) (tenantIds : List String) (chunks result : List Chunk) : Prop where
  distinct : (result.map Chunk.identity).Nodup
  sorted : result.Pairwise fun a b => b.similarity ≤ a.similarity
  represented : ∀ chunk ∈ distinctChunks chunks, chunk.mother = none ∨ Live scope tenantIds chunk →
    ∃! row, row ∈ result ∧ row.identity = representative scope tenantIds chunks chunk
  rows : ∀ row ∈ result,
    (row ∈ distinctChunks chunks ∧ (row.mother = none ∨
      Live scope tenantIds row ∧ verifiedParent scope tenantIds chunks row.parentKey = none)) ∨
    ∃ parent first rest, verifiedParent scope tenantIds chunks row.identity = some parent ∧
      chunkScalar parent.kbId = row.kb ∧ chunkScalar parent.docId = row.doc ∧
      childrenOf scope tenantIds chunks row.identity = first :: rest ∧
      row = parentChunk scope row.identity parent first (first :: rest) ∧
      row.similarity = meanSimilarity (first :: rest)

theorem identity_parentChunk (key : String × String × String) (parent : ParentRow) (first : Chunk)
    (children : List Chunk) : (parentChunk scope key parent first children).identity = key := rfl

theorem mem_filedChildren {child : Chunk} : child ∈ filedChildren scope tenantIds chunks ↔
    child ∈ distinctChunks chunks ∧ child.mother ≠ none ∧ Live scope tenantIds child := by
  rw [filedChildren, List.mem_filter, Bool.and_eq_true, Option.isSome_iff_ne_none]
  constructor
  · rintro ⟨hmem, hmother, hlive⟩
    exact ⟨hmem, hmother, (isLive_iff ((firsts_sublist _).subset hmem)).mp hlive⟩
  · rintro ⟨hmem, hmother, hlive⟩
    exact ⟨hmem, hmother, (isLive_iff ((firsts_sublist _).subset hmem)).mpr hlive⟩

theorem exists_candidateRow {chunk : Chunk} (hchunk : chunk ∈ distinctChunks chunks)
    (h : chunk.mother = none ∨ Live scope tenantIds chunk) :
    ∃ row ∈ candidateRows scope tenantIds chunks, row.identity = representative scope tenantIds chunks chunk := by
  by_cases hmother : chunk.mother = none
  · refine ⟨chunk, ?_, ?_⟩
    · apply mem_append_left
      simp [hchunk, hmother]
    · simp [representative, hmother]
  · have hlive : Live scope tenantIds chunk := h.resolve_left hmother
    have hfiled : chunk ∈ filedChildren scope tenantIds chunks := mem_filedChildren.mpr ⟨hchunk, hmother, hlive⟩
    have hmember : chunk ∈ childrenOf scope tenantIds chunks chunk.parentKey := by
      rw [childrenOf, List.mem_filter]
      exact ⟨hfiled, by simp⟩
    obtain ⟨first, rest, hchildren⟩ := exists_cons_of_ne_nil (ne_nil_of_mem hmember)
    have hgroup : (chunk.parentKey, first :: rest) ∈ groups Chunk.parentKey (filedChildren scope tenantIds chunks) := by
      rw [mem_groups]
      exact ⟨by simp, hchildren.symm⟩
    have hsome : chunk.mother.isSome = true := Option.isSome_iff_ne_none.mpr hmother
    rcases hparent : verifiedParent scope tenantIds chunks chunk.parentKey with - | parent
    · refine ⟨chunk, ?_, ?_⟩
      · apply mem_append_right
        rw [mem_flatMap]
        refine ⟨_, hgroup, ?_⟩
        rw [groupRows, hparent]
        exact hchildren ▸ hmember
      · simp [representative, hparent]
    · refine ⟨parentChunk scope chunk.parentKey parent first (first :: rest), ?_, ?_⟩
      · apply mem_append_right
        rw [mem_flatMap]
        refine ⟨_, hgroup, ?_⟩
        rw [groupRows, hparent]
        exact mem_singleton_self _
      · simp [representative, hparent, hsome, identity_parentChunk]

theorem candidateRow_cases {row : Chunk} (hrow : row ∈ candidateRows scope tenantIds chunks) :
    (row ∈ distinctChunks chunks ∧ (row.mother = none ∨
      Live scope tenantIds row ∧ verifiedParent scope tenantIds chunks row.parentKey = none)) ∨
    ∃ parent first rest, verifiedParent scope tenantIds chunks row.identity = some parent ∧
      childrenOf scope tenantIds chunks row.identity = first :: rest ∧
      row = parentChunk scope row.identity parent first (first :: rest) := by
  rcases mem_append.mp hrow with hplain | hgrouped
  · rw [List.mem_filter] at hplain
    exact .inl ⟨hplain.1, .inl (Option.isNone_iff_eq_none.mp hplain.2)⟩
  · obtain ⟨⟨key, children⟩, hgroup, hmem⟩ := mem_flatMap.mp hgrouped
    obtain ⟨hne, hchildren⟩ := mem_groups.mp hgroup
    obtain ⟨first, rest, rfl⟩ := exists_cons_of_ne_nil hne
    rw [groupRows] at hmem
    rcases hparent : verifiedParent scope tenantIds chunks key with - | parent
    · rw [hparent] at hmem
      have hmember : row ∈ (filedChildren scope tenantIds chunks).filter fun child => child.parentKey = key :=
        hchildren ▸ hmem
      rw [List.mem_filter, mem_filedChildren, decide_eq_true_eq] at hmember
      exact .inl ⟨hmember.1.1, .inr ⟨hmember.1.2.2, hmember.2 ▸ hparent⟩⟩
    · rw [hparent] at hmem
      obtain rfl := mem_singleton.mp hmem
      exact .inr ⟨parent, first, rest, hparent, hchildren.symm, rfl⟩

theorem verifiedParent_scope {key : String × String × String} {parent : ParentRow}
    (h : verifiedParent scope tenantIds chunks key = some parent) :
    chunkScalar parent.kbId = key.1 ∧ chunkScalar parent.docId = key.2.1 := by
  rw [verifiedParent, Option.filter_eq_some_iff] at h
  simpa using h.2

/-- A list with a mother comes back with one row for every chunk that may be shown, sorted,
    and a list without mothers as it is. -/
theorem retrievalByChildren_recalls (scope : ParentScope) (tenantIds : List String) (chunks : List Chunk) :
    (chunks.any (·.mother.isSome) = true →
      Recalls scope tenantIds chunks (retrievalByChildren scope tenantIds chunks)) ∧
    (chunks.any (·.mother.isSome) = false → retrievalByChildren scope tenantIds chunks = chunks) := by
  refine ⟨?_, retrievalByChildren_motherless⟩
  intro hmother
  rw [retrievalByChildren_eq hmother]
  have hsub : (firsts Chunk.identity (rank (fun chunk => OrderDual.toDual chunk.similarity)
      (candidateRows scope tenantIds chunks))).Sublist _ := firsts_sublist _
  have hranked : IsRanked (fun chunk : Chunk => OrderDual.toDual chunk.similarity)
      (rank (fun chunk => OrderDual.toDual chunk.similarity) (candidateRows scope tenantIds chunks)) := isRanked_rank _
  constructor
  · exact nodup_firsts _
  · exact hranked.sublist hsub
  · intro chunk hchunk hshown
    obtain ⟨candidate, hcandidate, hidentity⟩ := exists_candidateRow hchunk hshown
    have hsorted : candidate ∈ rank (fun chunk => OrderDual.toDual chunk.similarity)
        (candidateRows scope tenantIds chunks) := (rank_perm _).mem_iff.mpr hcandidate
    have hfirst : ∃ row ∈ firsts Chunk.identity (rank (fun chunk => OrderDual.toDual chunk.similarity)
        (candidateRows scope tenantIds chunks)), row.identity = candidate.identity := exists_firsts hsorted
    obtain ⟨row, hrow, hkey⟩ := hfirst
    refine ⟨row, ⟨hrow, hkey.trans hidentity⟩, ?_⟩
    rintro other ⟨hother, hotherKey⟩
    exact inj_on_of_nodup_map (nodup_firsts _) hother hrow (hotherKey.trans (hkey.trans hidentity).symm)
  · intro row hrow
    have hcandidate : row ∈ candidateRows scope tenantIds chunks := (rank_perm _).mem_iff.mp (hsub.subset hrow)
    rcases candidateRow_cases hcandidate with hstays | ⟨parent, first, rest, hparent, hchildren, heq⟩
    · exact .inl hstays
    · obtain ⟨hkb, hdoc⟩ := verifiedParent_scope hparent
      exact .inr ⟨parent, first, rest, hparent, hkb, hdoc, hchildren, heq, congrArg Chunk.similarity heq⟩

/-- A chunk of document `d` in dataset `k`. -/
def foundChunk (chunkId : String) (momId : Option Json) (similarity : ℚ) : Chunk :=
  ⟨chunkId, some (.str "k"), some (.str "d"), momId, similarity, "tokens", .str "text", .null, [], .null, none, [],
    none, none, none, .null, .null, none, []⟩

def oneDocument : ParentScope :=
  ⟨[⟨"k", "t", "n", "1"⟩], [⟨"d", "k", "1"⟩],
    fun _ _ _ => some ⟨some (.str "k"), some (.str "d"), .str "mother", .null, .null, .null, .null⟩, false⟩

theorem retrievalByChildren_recalls_siblings :
    Recalls oneDocument ["t"] [foundChunk "a" (some (.str "m")) 1, foundChunk "b" (some (.str "m")) 2]
      (retrievalByChildren oneDocument ["t"]
        [foundChunk "a" (some (.str "m")) 1, foundChunk "b" (some (.str "m")) 2]) :=
  (retrievalByChildren_recalls oneDocument ["t"] _).1 (by decide +kernel)

/-- Without mothers neither the order nor the repetitions change. -/
theorem motherless_unsorted :
    ¬ (retrievalByChildren oneDocument ["t"] [foundChunk "a" none 1, foundChunk "b" none 2]).Pairwise
        (fun a b => b.similarity ≤ a.similarity) ∧
      ¬ ((retrievalByChildren oneDocument ["t"] [foundChunk "a" none 1, foundChunk "a" none 1]).map
        Chunk.identity).Nodup := by
  rw [retrievalByChildren_motherless (by decide +kernel), retrievalByChildren_motherless (by decide +kernel)]
  decide +kernel

end MultiRag.Search
