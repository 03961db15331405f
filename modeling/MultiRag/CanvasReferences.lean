/-
  **Citations of a canvas: the IDs a prompt shows and the chunks they stand for.**

  `kb_prompt` writes an ID in front of every chunk it shows to the model, and
  `add_reference` stores the same chunks under such an ID for the answer's citations.
  Both take the SHA-1 of the chunk id modulo 500 (`sha1` is the number of the
  digest), each from its own reading of the chunk.
-/
import Mathlib.Data.List.AList
import MultiRag.PyValue

namespace MultiRag.Agent

open List

/-! ### Chunks -/

def getValue (d : Json) (k1 k2 : String) : Json := ((d.get? k1).or (d.get? k2)).getD .null

/-- A chunk as `chunks_format` lays it out. -/
structure ReferenceChunk where
  id : Json
  content : Json
  documentId : Json
  documentName : Json
  datasetId : Json
  imageId : Json
  positions : Json
  url : Json
  similarity : Json
  vectorSimilarity : Json
  termSimilarity : Json
  rowId : Json
  docType : Json
  documentMetadata : Option Json
deriving DecidableEq

def formatChunk (chunk : Json) : ReferenceChunk where
  id := getValue chunk "chunk_id" "id"
  content := ((chunk.getD "content").pyOr (chunk.getD "text")).pyOr (chunk.getD "content_with_weight")
  documentId := getValue chunk "doc_id" "document_id"
  documentName := getValue chunk "docnm_kwd" "document_name"
  datasetId := getValue chunk "kb_id" "dataset_id"
  imageId := getValue chunk "image_id" "img_id"
  positions := getValue chunk "positions" "position_int"
  url := chunk.getD "url"
  similarity := chunk.getD "similarity"
  vectorSimilarity := chunk.getD "vector_similarity"
  termSimilarity := chunk.getD "term_similarity"
  rowId := chunk.getD "row_id"
  docType := getValue chunk "doc_type_kwd" "doc_type"
  documentMetadata :=
    if (chunk.getD "document_metadata").truthy then some (chunk.getD "document_metadata") else none

def chunksFormat (chunks : List Json) : List ReferenceChunk :=
  (chunks.filter Json.isObj).map formatChunk

def hashStr2int (sha1 : String → Nat) (line : Json) (mod : Nat) : Option Nat :=
  match line with
  | .str text => some (sha1 text % mod)
  | _ => none

/-! ### `Canvas.add_reference` -/

structure DocAgg where
  docName : String
  fields : Json

/-- An element of `Canvas.retrieval`: the dictionary of `chunks` and `doc_aggs`. -/
structure Reference where
  chunks : AList (fun _ : Nat => ReferenceChunk)
  docAggs : AList (fun _ : String => DocAgg)

def Reference.empty : Reference := ⟨∅, ∅⟩

def Reference.has (_ : Reference) (key : Json) : Bool :=
  key = .str "chunks" || key = .str "doc_aggs"

section

variable (sha1 : String → Nat)

/-- The loop over the chunks; `false` when an id cannot be hashed. -/
def storeChunks : List ReferenceChunk → Reference → Bool × Reference
  | [], r => (true, r)
  | ck :: rest, r =>
      match hashStr2int sha1 ck.id 500 with
      | none => (false, r)
      | some cid =>
          storeChunks rest
            (if r.has (.int cid) then r else { r with chunks := r.chunks.insert cid ck })

def storeDocs : List DocAgg → Reference → Reference
  | [], r => r
  | doc :: rest, r =>
      storeDocs rest
        (if r.has (.str doc.docName) then r
          else { r with docAggs := r.docAggs.insert doc.docName doc })

/-- The body of `add_reference`, on the last entry of `retrieval`. -/
def Reference.add (chunks : List Json) (docInfos : List DocAgg) (r : Reference) : Bool × Reference :=
  match storeChunks sha1 (chunksFormat chunks) r with
  | (true, r) => (true, storeDocs docInfos r)
  | (false, r) => (false, r)

def addReference (chunks : List Json) (docInfos : List DocAgg) (retrieval : List Reference) :
    Bool × List Reference :=
  let retrieval := if retrieval.isEmpty then [Reference.empty] else retrieval
  let result := (retrieval.getLastD Reference.empty).add sha1 chunks docInfos
  (result.1, retrieval.dropLast ++ [result.2])

def getReference (retrieval : List Reference) : Reference := retrieval.getLastD Reference.empty

/-- `run` opens an entry of its own. -/
def startRun (retrieval : List Reference) : List Reference := retrieval ++ [Reference.empty]

/-- The arguments of one call of `add_reference`. -/
structure CitationCall where
  chunks : List Json
  docInfos : List DocAgg

def addReferences (calls : List CitationCall) (retrieval : List Reference) : List Reference :=
  calls.foldl (fun retrieval call => (addReference sha1 call.chunks call.docInfos retrieval).2)
    retrieval

/-- Every entry that `calls` pass through, from `r` on: between two calls, and inside
    one after some of its chunks. -/
inductive Later : Reference → List CitationCall → Reference → Prop
  | here {r : Reference} {calls : List CitationCall} : Later r calls r
  | within {r : Reference} {part more : List Json} {docInfos : List DocAgg}
      {rest : List CitationCall} :
      Later r (⟨part ++ more, docInfos⟩ :: rest) (storeChunks sha1 (chunksFormat part) r).2
  | next {r r' : Reference} {call : CitationCall} {rest : List CitationCall}
      (after : Later (r.add sha1 call.chunks call.docInfos).2 rest r') : Later r (call :: rest) r'

end

/-! ### `kb_prompt` -/

/-- One text of `kb_prompt`: the ID it shows and what follows it. -/
structure PromptEntry where
  shownId : Nat
  body : String
deriving DecidableEq

def PromptEntry.text (entry : PromptEntry) : String :=
  "\nID: " ++ toString entry.shownId ++ entry.body

def joinLines : List Char → List Char
  | [] => []
  | '\n' :: '\n' :: rest => joinLines ('\n' :: rest)
  | '\n' :: rest => ' ' :: joinLines rest
  | c :: rest => c :: joinLines rest

section

variable (sha1 : String → Nat) (isPrintable : Char → Bool)

def drawNode (k : String) (line : Json) : String :=
  let text := if line = .null then "" else pyStr isPrintable line
  if text = "" then "" else "\n├── " ++ k ++ ": " ++ String.ofList (joinLines text.toList)

def knowledge (ck : Json) : Json :=
  (((ck.getD "text").pyOr (ck.getD "content_with_weight")).pyOr (.str "")).pyOr
    (getValue ck "content" "content_with_weight")

/-- `num_tokens_from_string`, which counts nothing for what it cannot encode. -/
def knowledgeTokens (numTokens : String → Nat) : Json → Nat
  | .str text => numTokens text
  | _ => 0

/-- How many chunks are shown.  A chunk without text does not count, and the one that
    crosses the budget does; `full` is `max_tokens * 0.97 < used`. -/
def chunksNum (numTokens : String → Nat) (full : Nat → Bool) : Nat → List Json → Nat
  | _, [] => 0
  | used, c :: rest =>
      if !c.truthy then chunksNum numTokens full used rest
      else
        let used := used + knowledgeTokens numTokens c
        if full used then 1 else 1 + chunksNum numTokens full used rest

def promptId (hashId : Bool) (i : Nat) (ck : Json) : Option Nat :=
  if hashId then hashStr2int sha1 (getValue ck "id" "chunk_id") 500 else some i

def metadataItems (ck : Json) : Option (List (String × Json)) :=
  match (ck.getD "document_metadata").pyOr (.obj []) with
  | .obj fields => some fields
  | _ => none

def knowledgeText (ck : Json) : Option String :=
  match knowledge ck with
  | .str text => some text
  | _ => none

/-- The text of one chunk; `none` is an exception. -/
def promptEntry (hashId : Bool) (i : Nat) (ck : Json) : Option PromptEntry := do
  let shownId ← promptId sha1 hashId i ck
  let metadata ← metadataItems ck
  let content ← knowledgeText ck
  some ⟨shownId,
    drawNode isPrintable "Title" (getValue ck "docnm_kwd" "document_name") ++
      (if (ck.get? "url").isSome then drawNode isPrintable "URL" (ck.getD "url") else "") ++
      String.join (metadata.map fun field => drawNode isPrintable field.1 field.2) ++
      "\n└── Content:\n" ++ content⟩

def kbPrompt (numTokens : String → Nat) (full : Nat → Bool) (hashId : Bool) (chunks : List Json) :
    Option (List PromptEntry) :=
  if chunks.all Json.isObj then
    (chunks.take (chunksNum numTokens full 0 (chunks.map knowledge))).zipIdx.mapM fun shown =>
      promptEntry sha1 isPrintable hashId shown.2 shown.1
  else none

end

section

variable {sha1 : String → Nat} {r r' : Reference} {ck : Json} {n : Nat}

/-- A chunk both functions can hash: an object whose id is a string under either name. -/
structure Identified (ck : Json) : Prop where
  isObj : ck.isObj = true
  stored : ∃ text, getValue ck "chunk_id" "id" = .str text

/-- The ID `add_reference` stores a chunk under. -/
def storedId (sha1 : String → Nat) (ck : Json) : Option Nat :=
  hashStr2int sha1 (getValue ck "chunk_id" "id") 500

theorem storedId_eq (sha1 : String → Nat) (ck : Json) :
    storedId sha1 ck = hashStr2int sha1 (formatChunk ck).id 500 := rfl

theorem storedId_of_format {ck' : Json} (h : formatChunk ck = formatChunk ck') :
    storedId sha1 ck = storedId sha1 ck' := by
  rw [storedId_eq, storedId_eq, h]

theorem exists_storedId (sha1 : String → Nat) (h : Identified ck) : ∃ n, storedId sha1 ck = some n := by
  obtain ⟨text, htext⟩ := h.stored
  exact ⟨_, by rw [storedId, htext, hashStr2int]⟩

@[simp] theorem has_int (cid : Nat) : r.has (.int cid) = false := by
  simp [Reference.has]

@[simp] theorem chunksFormat_nil : chunksFormat [] = [] := rfl

theorem chunksFormat_cons (h : ck.isObj = true) (rest : List Json) :
    chunksFormat (ck :: rest) = formatChunk ck :: chunksFormat rest := by
  simp [chunksFormat, h]

theorem store_eq (hn : storedId sha1 ck = some n) (rest : List ReferenceChunk) :
    storeChunks sha1 (formatChunk ck :: rest) r =
      storeChunks sha1 rest { r with chunks := r.chunks.insert n (formatChunk ck) } := by
  rw [storedId_eq] at hn
  simp [storeChunks, hn]

def newest (sha1 : String → Nat) (n : Nat) (chunks : List Json) : Option Json :=
  chunks.reverse.find? (fun ck => storedId sha1 ck == some n)

theorem newest_cons (ck : Json) (rest : List Json) :
    newest sha1 n (ck :: rest) =
      (newest sha1 n rest).or (if storedId sha1 ck = some n then some ck else none) := by
  by_cases h : storedId sha1 ck = some n
  · simp [newest, find?_append, h]
  · simp [newest, find?_append, h]

theorem lookup_storeChunks (sha1 : String → Nat) {chunks : List Json} (hids : ∀ ck ∈ chunks, Identified ck) :
    (storeChunks sha1 (chunksFormat chunks) r).1 = true ∧
      (storeChunks sha1 (chunksFormat chunks) r).2.chunks.lookup n =
        ((newest sha1 n chunks).map formatChunk).or (r.chunks.lookup n) := by
  induction chunks generalizing r with
  | nil => simp [storeChunks, newest]
  | cons ck rest ih =>
    obtain ⟨m, hm⟩ := exists_storedId sha1 (hids ck mem_cons_self)
    rw [chunksFormat_cons (hids ck mem_cons_self).isObj, store_eq hm, newest_cons]
    obtain ⟨hok, hlookup⟩ := ih (r := { r with chunks := r.chunks.insert m (formatChunk ck) })
      (fun x hx => hids x (mem_cons_of_mem _ hx))
    refine ⟨hok, ?_⟩
    rw [hlookup]
    by_cases hmn : m = n
    · subst hmn
      simp [hm]
    · have hne : storedId sha1 ck ≠ some n := by simp [hm, hmn]
      simp [hne, AList.lookup_insert_ne (Ne.symm hmn)]

theorem chunks_storeDocs (docInfos : List DocAgg) :
    (storeDocs docInfos r).chunks = r.chunks := by
  induction docInfos generalizing r with
  | nil => rfl
  | cons doc rest ih =>
    rw [storeDocs, ih]
    split
    · rfl
    · rfl

theorem lookup_add (sha1 : String → Nat) {chunks : List Json} (docInfos : List DocAgg)
    (hids : ∀ ck ∈ chunks, Identified ck) :
    (r.add sha1 chunks docInfos).2.chunks.lookup n =
      ((newest sha1 n chunks).map formatChunk).or (r.chunks.lookup n) := by
  obtain ⟨hok, hlookup⟩ := lookup_storeChunks sha1 (r := r) (n := n) hids
  unfold Reference.add
  split
  · next r' hstore =>
    rw [chunks_storeDocs, ← hlookup, hstore]
  · next r' hstore => simp [hstore] at hok

theorem newest_append (chunks more : List Json) :
    newest sha1 n (chunks ++ more) = (newest sha1 n more).or (newest sha1 n chunks) := by
  simp [newest, find?_append]

theorem newest_eq_some {chunks : List Json} (h : newest sha1 n chunks = some ck) :
    ck ∈ chunks ∧ storedId sha1 ck = some n := by
  have hmem := mem_of_find?_eq_some h
  have hid := find?_some h
  exact ⟨mem_reverse.mp hmem, by simpa using hid⟩

end

section

variable {sha1 : String → Nat} {r r' : Reference} {n : Nat} {calls : List CitationCall}

@[simp] theorem getReference_startRun (retrieval : List Reference) :
    getReference (startRun retrieval) = Reference.empty := by
  simp [getReference, startRun]

theorem getReference_addReference (chunks : List Json) (docInfos : List DocAgg)
    (retrieval : List Reference) :
    getReference (addReference sha1 chunks docInfos retrieval).2 =
      ((getReference retrieval).add sha1 chunks docInfos).2 := by
  cases retrieval with
  | nil => simp [addReference, getReference]
  | cons first rest => simp [addReference, getReference]

def addedChunks (calls : List CitationCall) : List Json := calls.flatMap CitationCall.chunks

theorem lookup_addReferences (hids : ∀ ck ∈ addedChunks calls, Identified ck)
    (retrieval : List Reference) :
    (getReference (addReferences sha1 calls retrieval)).chunks.lookup n =
      ((newest sha1 n (addedChunks calls)).map formatChunk).or
        ((getReference retrieval).chunks.lookup n) := by
  induction calls generalizing retrieval with
  | nil => simp [addReferences, addedChunks, newest]
  | cons call rest ih =>
    have hcall : ∀ ck ∈ call.chunks, Identified ck := fun ck hck =>
      hids ck (mem_append_left _ hck)
    have hrest : ∀ ck ∈ addedChunks rest, Identified ck := fun ck hck =>
      hids ck (mem_append_right _ hck)
    have hadded : addedChunks (call :: rest) = call.chunks ++ addedChunks rest := rfl
    rw [hadded, newest_append, Option.map_or, Option.or_assoc,
      ← lookup_add sha1 (r := getReference retrieval) call.docInfos hcall,
      ← getReference_addReference]
    exact ih hrest _

theorem lookup_later (hids : ∀ ck ∈ addedChunks calls, Identified ck)
    (h : Later sha1 r calls r') :
    ∃ part, part <+: addedChunks calls ∧ ∀ n, r'.chunks.lookup n =
      ((newest sha1 n part).map formatChunk).or (r.chunks.lookup n) := by
  induction h with
  | here => exact ⟨[], nil_prefix, fun n => by simp [newest]⟩
  | @within r part more docInfos rest =>
    refine ⟨part, ?_, fun n => (lookup_storeChunks sha1 ?_).2⟩
    · exact ⟨more ++ addedChunks rest, by simp [addedChunks]⟩
    · intro ck hck
      exact hids ck (by simp [addedChunks, hck])
  | @next r r' call rest after ih =>
    have hcall : ∀ ck ∈ call.chunks, Identified ck := fun ck hck =>
      hids ck (mem_append_left _ hck)
    obtain ⟨part, ⟨more, hpart⟩, hlookup⟩ := ih (fun ck hck =>
      hids ck (mem_append_right _ hck))
    refine ⟨call.chunks ++ part, ⟨more, ?_⟩, fun n => ?_⟩
    · rw [append_assoc, hpart]
      rfl
    · rw [hlookup, lookup_add sha1 call.docInfos hcall, newest_append, Option.map_or, Option.or_assoc]

theorem exists_later {before after : List Json} {ck : Json}
    (h : addedChunks calls = before ++ ck :: after) (hids : ∀ ck ∈ addedChunks calls, Identified ck)
    (r : Reference) :
    ∃ r', Later sha1 r calls r' ∧ (∀ n, r'.chunks.lookup n =
      ((newest sha1 n (before ++ [ck])).map formatChunk).or (r.chunks.lookup n)) := by
  induction calls generalizing r before with
  | nil => simp [addedChunks] at h
  | cons call rest ih =>
    obtain ⟨chunks, docInfos⟩ := call
    have hadded : addedChunks (⟨chunks, docInfos⟩ :: rest) = chunks ++ addedChunks rest := rfl
    rw [hadded] at h
    have hcall : ∀ x ∈ chunks, Identified x := fun x hx => hids x (mem_append_left _ hx)
    rcases append_eq_append_iff.mp h with ⟨middle, rfl, hrest⟩ | ⟨middle, rfl, hrest⟩
    · -- the chunk belongs to a later call
      obtain ⟨r', hlater, hlookup⟩ := ih hrest (fun x hx => hids x (mem_append_right _ hx))
        (r.add sha1 chunks docInfos).2
      refine ⟨r', Later.next hlater, fun n => ?_⟩
      rw [hlookup, lookup_add sha1 docInfos hcall, append_assoc, newest_append _ (middle ++ _),
        Option.map_or, Option.or_assoc]
    · cases middle with
      | nil =>
        have hfirst : addedChunks rest = [] ++ ck :: after := hrest.symm
        obtain ⟨r', hlater, hlookup⟩ := ih hfirst
          (fun x hx => hids x (mem_append_right _ hx))
          (r.add sha1 (before ++ []) docInfos).2
        refine ⟨r', Later.next hlater, fun n => ?_⟩
        rw [hlookup, lookup_add sha1 docInfos hcall, nil_append, append_nil,
          newest_append _ [ck], Option.map_or, Option.or_assoc]
      | cons first middle =>
        rw [cons_append, List.cons.injEq] at hrest
        obtain ⟨rfl, -⟩ := hrest
        have hsplit : before ++ ck :: middle = (before ++ [ck]) ++ middle := by simp
        rw [hsplit] at hcall ⊢
        refine ⟨_, Later.within, fun n => (lookup_storeChunks sha1 fun x hx => ?_).2⟩
        exact hcall x (mem_append_left _ hx)

end

section

variable (sha1 : String → Nat) (isPrintable : Char → Bool) (numTokens : String → Nat) (full : Nat → Bool)

/-- `kb_prompt(…, hash_id=True)` shows chunk `ck` of a call as its text number `i`. -/
structure Shows (chunks : List Json) (i : Nat) (entry : PromptEntry) (ck : Json) : Prop where
  shown : ∃ entries, kbPrompt sha1 isPrintable numTokens full true chunks = some entries ∧
    entries[i]? = some entry
  chunk : chunks[i]? = some ck

theorem getElem?_of_mapM {α β : Type} {f : α → Option β} {l : List α} {out : List β} {i : Nat} {b : β}
    (h : l.mapM f = some out) (hb : out[i]? = some b) : ∃ a, l[i]? = some a ∧ f a = some b := by
  induction l generalizing out i with
  | nil =>
    simp only [mapM_nil, Option.pure_def, Option.some.injEq] at h
    simp [← h] at hb
  | cons a l ih =>
    simp only [mapM_cons, Option.bind_eq_bind, Option.bind_eq_some_iff, Option.pure_def,
      Option.some.injEq] at h
    obtain ⟨first, hfirst, rest, hrest, rfl⟩ := h
    cases i with
    | zero =>
      simp only [getElem?_cons_zero, Option.some.injEq] at hb
      exact ⟨a, rfl, by rw [hfirst, hb]⟩
    | succ i =>
      exact ih hrest hb

variable {sha1 isPrintable numTokens full} {chunks : List Json} {i : Nat} {entry : PromptEntry} {ck : Json}

theorem Shows.promptId (h : Shows sha1 isPrintable numTokens full chunks i entry ck) :
    promptId sha1 true i ck = some entry.shownId := by
  obtain ⟨entries, hprompt, hentry⟩ := h.shown
  unfold kbPrompt at hprompt
  split at hprompt
  · obtain ⟨shown, hshown, hmade⟩ := getElem?_of_mapM hprompt hentry
    rw [getElem?_zipIdx, Option.map_eq_some_iff] at hshown
    obtain ⟨ck', hck', rfl⟩ := hshown
    have hsame : ck' = ck := by
      have hchunk := h.chunk
      rw [getElem?_take] at hck'
      split at hck'
      · rw [hchunk] at hck'
        exact (Option.some.inj hck').symm
      · cases hck'
    subst hsame
    simp only [promptEntry, Option.bind_eq_bind, Option.bind_eq_some_iff] at hmade
    obtain ⟨shownId, hid, metadata, -, content, -, hentry⟩ := hmade
    rw [← Option.some.inj hentry, ← hid]
    rfl
  · cases hprompt

theorem eq_split_of_getElem? {α : Type} {l : List α} {a : α} (h : l[i]? = some a) :
    l = l.take i ++ a :: l.drop (i + 1) := by
  obtain ⟨hlt, rfl⟩ := List.getElem?_eq_some_iff.mp h
  rw [← drop_eq_getElem_cons hlt, take_append_drop]

theorem newest_split {before after : List Json} {n : Nat} (hck : storedId sha1 ck = some n)
    (hafter : ∀ other ∈ after, storedId sha1 other = storedId sha1 ck →
      formatChunk other = formatChunk ck) :
    (newest sha1 n (before ++ ck :: after)).map formatChunk = some (formatChunk ck) := by
  have hsplit : before ++ ck :: after = before ++ ([ck] ++ after) := rfl
  rw [hsplit, newest_append, newest_append]
  rcases hnewest : newest sha1 n after with _ | other
  · simp [newest, hck]
  · obtain ⟨hmem, hid⟩ := newest_eq_some hnewest
    simp [hafter other hmem (hid.trans hck.symm)]

/-- **The ID in a prompt keeps its chunk** through the rest of the run exactly when both
    functions read the same id from the chunk and no chunk that is added later, in the
    same call or another, has an id of the same hash without being the same chunk. -/
theorem citations_kept_iff (sha1 : String → Nat) (isPrintable : Char → Bool)
    (numTokens : String → Nat) (full : Nat → Bool) {calls : List CitationCall} (retrieval : List Reference)
    (hids : ∀ ck ∈ addedChunks calls, Identified ck)
    (hdistinct : ∀ call ∈ calls,
      (call.chunks.map fun ck => getValue ck "chunk_id" "id").Nodup) :
    (∀ before call after, calls = before ++ call :: after → ∀ i entry ck,
      Shows sha1 isPrintable numTokens full call.chunks i entry ck → ∀ r,
        Later sha1 (getReference (addReferences sha1 (before ++ [call]) (startRun retrieval)))
          after r → r.chunks.lookup entry.shownId = some (formatChunk ck)) ↔
    (∀ before call after, calls = before ++ call :: after → ∀ i entry ck,
      Shows sha1 isPrintable numTokens full call.chunks i entry ck →
        promptId sha1 true i ck = storedId sha1 ck ∧
          ∀ other ∈ call.chunks.drop (i + 1) ++ addedChunks after,
            storedId sha1 other = storedId sha1 ck → formatChunk other = formatChunk ck) := by
  have hadded : ∀ before call after, addedChunks (before ++ call :: after) =
      addedChunks before ++ call.chunks ++ addedChunks after := fun before call after => by
    simp [addedChunks]
  -- what the entry holds when the call of the chunk is over
  have hstart : ∀ before call after, calls = before ++ call :: after → ∀ n,
      (getReference (addReferences sha1 (before ++ [call]) (startRun retrieval))).chunks.lookup n =
        (newest sha1 n (addedChunks before ++ call.chunks)).map formatChunk := by
    rintro before call after rfl n
    have hsome : ∀ ck ∈ addedChunks (before ++ [call]), Identified ck := fun ck hck =>
      hids ck (by rw [hadded] at hck ⊢; simp only [mem_append] at hck ⊢; tauto)
    rw [lookup_addReferences hsome, hadded]
    simp [Reference.empty, addedChunks]
  constructor
  · intro hkept before call after hcalls i entry ck hshows
    have hat := hstart before call after hcalls
    have hid := hshows.promptId
    have hsplit := eq_split_of_getElem? hshows.chunk
    have hcall : call ∈ calls := by rw [hcalls]; simp
    -- the moment the call is over
    have hhere := hkept before call after hcalls i entry ck hshows _ Later.here
    rw [hat, Option.map_eq_some_iff] at hhere
    obtain ⟨found, hfound, hformat⟩ := hhere
    have hstored : storedId sha1 ck = some entry.shownId := by
      rw [← storedId_of_format hformat]
      exact (newest_eq_some hfound).2
    refine ⟨hid.trans hstored.symm, fun other hother hsame => ?_⟩
    rcases mem_append.mp hother with hright | hlater
    · -- the newest of the call is another chunk with the id of this one
      have hnewest : (newest sha1 entry.shownId (call.chunks.drop (i + 1))).isSome := by
        rw [newest, find?_isSome]
        exact ⟨other, mem_reverse.mpr hright, by simp [hsame, hstored]⟩
      obtain ⟨last, hlast⟩ := Option.isSome_iff_exists.mp hnewest
      have heq : found = last := by
        rw [hsplit, newest_append, append_cons, newest_append, hlast] at hfound
        simpa using hfound.symm
      have hrepeat : getValue last "chunk_id" "id" = getValue ck "chunk_id" "id" := by
        rw [← heq]
        exact congrArg ReferenceChunk.id hformat
      have hnodup := hdistinct call hcall
      rw [hsplit, map_append, map_cons] at hnodup
      have hfresh := (nodup_cons.mp (nodup_append.mp hnodup).2.1).1
      refine absurd (mem_map.mpr ⟨last, (newest_eq_some hlast).1, hrepeat⟩) hfresh
    · -- the moment the other chunk is stored
      obtain ⟨left, right, hafter⟩ := append_of_mem hlater
      have hrest : ∀ ck ∈ addedChunks after, Identified ck := fun ck hck =>
        hids ck (by rw [hcalls, hadded]; simp [hck])
      obtain ⟨r, hreached, hlookup⟩ := exists_later hafter hrest
        (getReference (addReferences sha1 (before ++ [call]) (startRun retrieval)))
      have hthen := hkept before call after hcalls i entry ck hshows r hreached
      rw [hlookup, newest_append] at hthen
      simpa [newest, hsame, hstored] using hthen
  · intro hstable before call after hcalls i entry ck hshows r hreached
    obtain ⟨hsame, hlater⟩ := hstable before call after hcalls i entry ck hshows
    have hstored : storedId sha1 ck = some entry.shownId := hsame.symm.trans hshows.promptId
    have hrest : ∀ ck ∈ addedChunks after, Identified ck := fun ck hck =>
      hids ck (by rw [hcalls, hadded]; simp [hck])
    obtain ⟨part, ⟨more, hpart⟩, hlookup⟩ := lookup_later hrest hreached
    rw [hlookup, hstart before call after hcalls, ← Option.map_or, ← newest_append,
      eq_split_of_getElem? hshows.chunk, ← append_assoc, append_assoc (_ ++ _),
      cons_append]
    refine newest_split hstored fun other hother => hlater other ?_
    rw [← hpart]
    simp only [mem_append] at hother ⊢
    tauto

/-- The real hashes of `c1`, `c2` and `c7`: the first and the last agree modulo 500. -/
def sampleSha1 : String → Nat
  | "c1" => 269091102467551277743152918922349485847942081917
  | "c2" => 611560582310284473242133128695432496389718954211
  | "c7" => 1263864916400313295079836913959749833670033175917
  | _ => 0

def sampleChunk (id content : String) : Json :=
  .obj [("chunk_id", .str id), ("content", .str content)]

def samplePrompt (ck : Json) : Option (List PromptEntry) :=
  kbPrompt sampleSha1 (fun _ => false) (fun _ => 1) (fun used => 194000 < used) true [ck]

def firstCall : CitationCall := ⟨[sampleChunk "c1" "one"], []⟩

def secondCall : CitationCall := ⟨[sampleChunk "c2" "two"], []⟩

def collidingCall : CitationCall := ⟨[sampleChunk "c7" "seven"], []⟩

def sampleEntry : PromptEntry := ⟨417, "\n└── Content:\none"⟩

/-- The ID of `c1` keeps it when `c2` has been added. -/
theorem citations_kept_iff_sample :
    (getReference (addReferences sampleSha1 [firstCall, secondCall] (startRun []))).chunks.lookup
      sampleEntry.shownId = some (formatChunk (sampleChunk "c1" "one")) := by
  have hall : ∀ ck ∈ addedChunks [firstCall, secondCall],
      promptId sampleSha1 true 0 ck = storedId sampleSha1 ck ∧
        ∀ other ∈ addedChunks [firstCall, secondCall],
          storedId sampleSha1 other = storedId sampleSha1 ck → formatChunk other = formatChunk ck := by
    decide +kernel
  have hids : ∀ ck ∈ addedChunks [firstCall, secondCall], Identified ck := by
    intro ck hck
    simp only [addedChunks, firstCall, secondCall, flatMap_cons, flatMap_nil,
      append_nil, mem_append, mem_singleton] at hck
    rcases hck with rfl | rfl
    · exact ⟨rfl, "c1", rfl⟩
    · exact ⟨rfl, "c2", rfl⟩
  have hstable := (citations_kept_iff sampleSha1 (fun _ => false) (fun _ => 1)
    (fun used => 194000 < used) [] hids (by decide +kernel)).mpr
  refine hstable ?_ [] firstCall [secondCall] rfl 0 sampleEntry _ ⟨⟨[sampleEntry], ?_, rfl⟩, rfl⟩ _
    (Later.next Later.here)
  · intro before call after hcalls i entry ck hshows
    have hmem : ∀ x ∈ call.chunks ++ addedChunks after, x ∈ addedChunks [firstCall, secondCall] := by
      intro x hx
      rw [hcalls]
      simp only [addedChunks, flatMap_append, flatMap_cons, mem_append] at hx ⊢
      exact .inr hx
    have hck := mem_of_getElem? hshows.chunk
    obtain ⟨hsame, hother⟩ := hall ck (hmem ck (mem_append_left _ hck))
    refine ⟨hsame, fun other hmore => hother other (hmem other ?_)⟩
    rcases mem_append.mp hmore with hright | hlater
    · exact mem_append_left _ (mem_of_mem_drop hright)
    · exact mem_append_right _ hlater
  · decide +kernel

/-- `c7` has the hash of `c1` modulo 500: it replaces the chunk that the prompt showed. -/
theorem citation_replaced :
    samplePrompt (sampleChunk "c1" "one") = some [sampleEntry] ∧
    (getReference (addReferences sampleSha1 [firstCall] (startRun []))).chunks.lookup
      sampleEntry.shownId = some (formatChunk (sampleChunk "c1" "one")) ∧
    (getReference (addReferences sampleSha1 [firstCall, collidingCall] (startRun []))).chunks.lookup
      sampleEntry.shownId = some (formatChunk (sampleChunk "c7" "seven")) ∧
    formatChunk (sampleChunk "c7" "seven") ≠ formatChunk (sampleChunk "c1" "one") := by
  decide +kernel

end

end MultiRag.Agent
