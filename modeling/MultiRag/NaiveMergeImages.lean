/-
  **`naive_merge_with_images` keeps in step with `naive_merge`.**

  The sections of each chunk are recorded next to the run (`Groups`); a chunk consists of them
  (`Assembled`, `Cut`), and its image is what `concat_img` makes of theirs from left to right
  (`combine`).
-/
import MultiRag.Fallible
import MultiRag.NaiveMerge

namespace MultiRag.NaiveMerge

open Bullets Regex List

/-! ### `concat_img` -/

/-- Images of the imaging library, and the data of images that are opened when needed. -/
inductive Image (P B : Type) where
  | pil (image : P)
  | lazy (blobs : List B)

/-- What the imaging library does: open data, compare the pixels, put one image under another. -/
structure Imaging (P B : Type) where
  openBlob : B → Option P
  samePixels : P → P → Bool
  stack : P → P → P

inductive AttributeError where
  | size

variable {P B : Type}

def truthy : Option (Image P B) → Bool
  | none => false
  | some (.pil _) => true
  | some (.lazy blobs) => ! blobs.isEmpty

def isPil : Option (Image P B) → Bool
  | some (.pil _) => true
  | _ => false

namespace Imaging

variable (imaging : Imaging P B)

/-- `concat_img` of two images of the library. -/
def joined (image1 image2 : P) : P :=
  if imaging.samePixels image1 image2 then image1 else imaging.stack image1 image2

/-- `LazyImage.to_pil`; data that cannot be opened are skipped. -/
def toPil (blobs : List B) : Option P :=
  (blobs.filterMap imaging.openBlob).foldl
    (fun result image => some (result.elim image (imaging.joined · image))) none

def ensured : Option (Image P B) → Option (Image P B)
  | some (.lazy blobs) => some ((imaging.toPil blobs).elim (.lazy blobs) .pil)
  | img => img

def whenBoth (img1 img2 : Option (Image P B)) (both : Except AttributeError (Option (Image P B))) :
    Except AttributeError (Option (Image P B)) :=
  if truthy img1 ∧ ¬ truthy img2 then .ok img1
  else if ¬ truthy img1 ∧ truthy img2 then .ok img2
  else if ¬ truthy img1 ∧ ¬ truthy img2 then .ok none
  else both

def mergeLazy : Option (Image P B) → Option (Image P B) → Option (Image P B)
  | some (.lazy blobs1), some (.lazy blobs2) => some (.lazy (blobs1 ++ blobs2))
  | _, _ => none

/-- What `concat_img` does with two images that it could open. -/
def paste : Option (Image P B) → Option (Image P B) → Except AttributeError (Option (Image P B))
  | some (.pil image1), some (.pil image2) => .ok (some (.pil (imaging.joined image1 image2)))
  | _, _ => .error .size

def concatImg (img1 img2 : Option (Image P B)) : Except AttributeError (Option (Image P B)) :=
  if ¬ isPil img1 ∧ ¬ isPil img2 then whenBoth img1 img2 (.ok (mergeLazy img1 img2))
  else
    let img1 := imaging.ensured img1
    let img2 := imaging.ensured img2
    whenBoth img1 img2 (imaging.paste img1 img2)

def addImage (img image : Option (Image P B)) : Except AttributeError (Option (Image P B)) :=
  match img with
  | none => .ok image
  | some img => imaging.concatImg (some img) image

def combine (images : List (Option (Image P B))) : Except AttributeError (Option (Image P B)) :=
  images.foldlM imaging.addImage none

end Imaging

/-! ### `naive_merge_with_images` -/

structure Item where
  text : Option String
  position : Option String

def Item.textStr (item : Item) : String := item.text.getD ""

def Item.textPos (item : Item) : String := item.position.getD ""

variable (tokens : String → Nat) (chunkTokenNum : Int) (overlappedPercent : ℚ)
  (imaging : Imaging P B)

/-- The chunks and their images before the last ones, and the last ones with the counter. -/
structure ImagedChunks (P B : Type) where
  closed : List String
  closedImages : List (Option (Image P B))
  last : String
  lastImage : Option (Image P B)
  tokenCount : Nat

def addChunkImage (chunks : ImagedChunks P B) (t : String) (image : Option (Image P B)) (pos : String) :
    Except AttributeError (ImagedChunks P B) :=
  let tnum := tokens t
  let pos := shownPosition tokens t pos
  if chunks.last = "" ∨ limit chunkTokenNum overlappedPercent < chunks.tokenCount then
    let t := overlap overlappedPercent chunks.last ++ t
    .ok ⟨chunks.closed ++ [chunks.last], chunks.closedImages ++ [chunks.lastImage], located t t pos, image, tnum⟩
  else
    (imaging.addImage chunks.lastImage image).map fun merged =>
      ⟨chunks.closed, chunks.closedImages, chunks.last ++ located chunks.last t pos, merged,
        chunks.tokenCount + tnum⟩

def naiveMergeWithImages (delimiter : String) (texts : List Item) (images : List (Option (Image P B))) :
    Except AttributeError (List String × List (Option (Image P B))) :=
  if texts = [] ∨ texts.length ≠ images.length then .ok ([], [])
  else
    let delimiters := customDelimiters delimiter
    if delimiters ≠ [] then
      let cut := (texts.zip images).flatMap fun pair =>
        (cutSection tokens (customPattern delimiters) (pair.1.textStr, pair.1.textPos)).map (·, pair.2)
      .ok (cut.map Prod.fst, cut.map Prod.snd)
    else
      ((texts.zip images).foldlM
        (fun chunks pair =>
          addChunkImage tokens chunkTokenNum overlappedPercent imaging chunks ("\n" ++ pair.1.textStr) pair.2
            pair.1.textPos)
        ⟨[], [], "", none, 0⟩).map fun chunks =>
          (chunks.closed ++ [chunks.last], chunks.closedImages ++ [chunks.lastImage])

/-! ### Groups -/

/-- The sections of the chunks before the last one, and of the last one. -/
structure Groups where
  closed : List (List Nat)
  last : List Nat

/-- The chunk is what it repeats of the chunk before it, then the texts of its sections, each
    with or without its position. -/
def Assembled (overlappedPercent : ℚ) (pairs : List (String × String)) (previous chunk : String)
    (members : List Nat) : Prop :=
  ∃ parts : List String,
    Forall₂ (fun i part => ∃ sec, pairs[i]? = some sec ∧ (part = "\n" ++ sec.1 ∨ part = "\n" ++ sec.1 ++ sec.2))
      members parts ∧
    chunk = overlap overlappedPercent previous ++ String.join parts

def AllAssembled (overlappedPercent : ℚ) (pairs : List (String × String)) :
    String → List String → List (List Nat) → Prop
  | _, [], [] => True
  | previous, chunk :: chunks, members :: groups =>
    Assembled overlappedPercent pairs previous chunk members ∧ AllAssembled overlappedPercent pairs chunk chunks groups
  | _, _, _ => False

def Cut (tokens : String → Nat) (pattern : Regex) (pairs : List (String × String)) (chunk : String)
    (members : List Nat) : Prop :=
  ∃ i sec, members = [i] ∧ pairs[i]? = some sec ∧ chunk ∈ cutSection tokens pattern sec

variable (imageOf : Nat → Option (Image P B))

def number (chunks : Chunks) (groups : Groups) (i : Nat) : Groups :=
  if chunks.last = "" ∨ limit chunkTokenNum overlappedPercent < chunks.tokenCount then
    ⟨groups.closed ++ [groups.last], [i]⟩
  else ⟨groups.closed, groups.last ++ [i]⟩

def numberedStep (state : Chunks × Groups) (entry : (String × String) × Nat) : Chunks × Groups :=
  (addChunk tokens chunkTokenNum overlappedPercent state.1 ("\n" ++ entry.1.1) entry.1.2,
    number chunkTokenNum overlappedPercent state.1 state.2 entry.2)

def groupImage (members : List Nat) : Except AttributeError (Option (Image P B)) :=
  imaging.combine (members.map imageOf)

def groupImages (groups : Groups) : Except AttributeError (List (Option (Image P B)) × Option (Image P B)) := do
  let closed ← groups.closed.mapM (groupImage imaging imageOf)
  let last ← groupImage imaging imageOf groups.last
  pure (closed, last)

def withImages (chunks : Chunks) (images : List (Option (Image P B)) × Option (Image P B)) : ImagedChunks P B :=
  ⟨chunks.closed, images.1, chunks.last, images.2, chunks.tokenCount⟩

theorem groupImage_append (members : List Nat) (i : Nat) :
    groupImage imaging imageOf (members ++ [i]) =
      (groupImage imaging imageOf members >>= fun image => imaging.addImage image (imageOf i)) := by
  rw [groupImage, Imaging.combine, map_append, foldlM_append]
  simp [groupImage, Imaging.combine]

theorem groupImages_eq (closed : List (List Nat)) (last : List Nat) :
    groupImages imaging imageOf ⟨closed, last⟩ =
      (closed.mapM (groupImage imaging imageOf) >>= fun slots =>
        groupImage imaging imageOf last >>= fun image => pure (slots, image)) := rfl

theorem map_eq_bind {ε α β : Type} (x : Except ε α) (f : α → β) : x.map f = (x >>= fun a => pure (f a)) := by
  cases x with
  | error error => rfl
  | ok a => rfl

variable {chunks : Chunks}

theorem addChunkImage_open
    (h : chunks.last = "" ∨ limit chunkTokenNum overlappedPercent < chunks.tokenCount)
    (images : List (Option (Image P B)) × Option (Image P B)) (t pos : String)
    (image : Option (Image P B)) :
    addChunkImage tokens chunkTokenNum overlappedPercent imaging (withImages chunks images) t image pos =
      pure (withImages (addChunk tokens chunkTokenNum overlappedPercent chunks t pos)
        (images.1 ++ [images.2], image)) := by
  rw [addChunk, if_pos h]
  exact if_pos h

theorem addChunkImage_extend
    (h : ¬ (chunks.last = "" ∨ limit chunkTokenNum overlappedPercent < chunks.tokenCount))
    (images : List (Option (Image P B)) × Option (Image P B)) (t pos : String)
    (image : Option (Image P B)) :
    addChunkImage tokens chunkTokenNum overlappedPercent imaging (withImages chunks images) t image pos =
      (imaging.addImage images.2 image >>= fun merged =>
        pure (withImages (addChunk tokens chunkTokenNum overlappedPercent chunks t pos) (images.1, merged))) := by
  rw [addChunk, if_neg h]
  exact (if_neg h).trans (map_eq_bind _ _)

theorem addChunkImage_eq (chunks : Chunks) (groups : Groups) (t pos : String) (i : Nat) :
    (groupImages imaging imageOf groups >>= fun images =>
        addChunkImage tokens chunkTokenNum overlappedPercent imaging (withImages chunks images) t (imageOf i) pos) =
      (groupImages imaging imageOf (number chunkTokenNum overlappedPercent chunks groups i) >>= fun images =>
        pure (withImages (addChunk tokens chunkTokenNum overlappedPercent chunks t pos) images)) := by
  by_cases hopen : chunks.last = "" ∨ limit chunkTokenNum overlappedPercent < chunks.tokenCount
  · have hsingle : groupImage imaging imageOf [i] = pure (imageOf i) := rfl
    rw [number, if_pos hopen, groupImages_eq, groupImages_eq, mapM_append, hsingle]
    simp only [addChunkImage_open _ _ _ _ hopen, mapM_cons, mapM_nil, bind_assoc, pure_bind]
  · rw [number, if_neg hopen, groupImages_eq, groupImages_eq, groupImage_append]
    simp only [addChunkImage_extend _ _ _ _ hopen, bind_assoc, pure_bind]

theorem foldlM_addChunkImage (entries : List ((String × String) × Nat)) (state : Chunks × Groups) :
    (groupImages imaging imageOf state.2 >>= fun images =>
        entries.foldlM
          (fun chunks entry =>
            addChunkImage tokens chunkTokenNum overlappedPercent imaging chunks ("\n" ++ entry.1.1) (imageOf entry.2)
              entry.1.2)
          (withImages state.1 images)) =
      (groupImages imaging imageOf
          (entries.foldl (numberedStep tokens chunkTokenNum overlappedPercent) state).2 >>= fun images =>
        pure (withImages (entries.foldl (numberedStep tokens chunkTokenNum overlappedPercent) state).1 images)) := by
  induction entries generalizing state with
  | nil => rfl
  | cons entry entries ih =>
    simp only [foldlM_cons, foldl_cons]
    rw [← ih, numberedStep, ← bind_assoc, addChunkImage_eq, bind_assoc]
    rfl

/-! ### What the groups are -/

theorem numbered_fst (pairs : List (String × String)) (start : Nat) (state : Chunks × Groups) :
    ((pairs.zipIdx start).foldl (numberedStep tokens chunkTokenNum overlappedPercent) state).1 =
      pairs.foldl (fun chunks sec => addChunk tokens chunkTokenNum overlappedPercent chunks ("\n" ++ sec.1) sec.2)
        state.1 := by
  induction pairs generalizing start state with
  | nil => rfl
  | cons sec pairs ih => rw [zipIdx_cons, foldl_cons, foldl_cons, ih, numberedStep]

variable {pairs : List (String × String)} {previous chunk : String} {members : List Nat} {sec : String × String}

theorem assembled_append {part : String} {i : Nat}
    (h : Assembled overlappedPercent pairs previous chunk members) (hsec : pairs[i]? = some sec)
    (hpart : part = "\n" ++ sec.1 ∨ part = "\n" ++ sec.1 ++ sec.2) :
    Assembled overlappedPercent pairs previous (chunk ++ part) (members ++ [i]) := by
  obtain ⟨parts, hparts, rfl⟩ := h
  refine ⟨parts ++ [part], ?_, ?_⟩
  · apply rel_append hparts
    exact Forall₂.cons ⟨sec, hsec, hpart⟩ Forall₂.nil
  · rw [String.join_append, String.append_assoc]
    simp

theorem allAssembled_concat {chunks : List String} {groups : List (List Nat)}
    (hlength : chunks.length = groups.length) :
    AllAssembled overlappedPercent pairs previous (chunks ++ [chunk]) (groups ++ [members]) ↔
      AllAssembled overlappedPercent pairs previous chunks groups ∧
        Assembled overlappedPercent pairs (chunks.getLast?.getD previous) chunk members := by
  induction chunks generalizing previous groups with
  | nil =>
    obtain rfl := length_eq_zero_iff.mp hlength.symm
    simp [AllAssembled]
  | cons first chunks ih =>
    cases groups with
    | nil => cases hlength
    | cons group groups =>
      have hlength : chunks.length = groups.length := Nat.succ.inj hlength
      rw [cons_append, cons_append, AllAssembled, AllAssembled, ih hlength, and_assoc,
        getLast?_cons, Option.getD_some]

theorem located_shown (context t pos : String) :
    located context t (shownPosition tokens t pos) = t ∨ located context t (shownPosition tokens t pos) = t ++ pos := by
  rw [located]
  split
  · exact .inl rfl
  · rw [shownPosition]
    split
    · exact .inl String.append_empty
    · exact .inr rfl

theorem assembled_single (previous : String) {i : Nat} (hsec : pairs[i]? = some sec) :
    Assembled overlappedPercent pairs previous
      (located (overlap overlappedPercent previous ++ ("\n" ++ sec.1))
        (overlap overlappedPercent previous ++ ("\n" ++ sec.1)) (shownPosition tokens ("\n" ++ sec.1) sec.2)) [i] := by
  have hpart : ∃ part, (part = "\n" ++ sec.1 ∨ part = "\n" ++ sec.1 ++ sec.2) ∧
      located (overlap overlappedPercent previous ++ ("\n" ++ sec.1))
        (overlap overlappedPercent previous ++ ("\n" ++ sec.1)) (shownPosition tokens ("\n" ++ sec.1) sec.2) =
        overlap overlappedPercent previous ++ part := by
    rw [located]
    split
    · exact ⟨_, .inl rfl, rfl⟩
    · rw [shownPosition]
      split
      · exact ⟨_, .inl rfl, String.append_empty⟩
      · exact ⟨_, .inr rfl, by rw [String.append_assoc]⟩
  obtain ⟨part, hpart, heq⟩ := hpart
  rw [heq]
  refine ⟨[part], Forall₂.cons ⟨sec, hsec, hpart⟩ Forall₂.nil, ?_⟩
  simp

/-- After the first sections: the chunks consist of them, each in one chunk. -/
structure Grouping (pairs : List (String × String)) (count : Nat) (state : Chunks × Groups) : Prop where
  lengths : state.1.closed.length = state.2.closed.length
  assembled : AllAssembled overlappedPercent pairs "" state.1.all (state.2.closed ++ [state.2.last])
  numbers : (state.2.closed ++ [state.2.last]).flatten = range count

theorem Grouping.start (pairs : List (String × String)) :
    Grouping overlappedPercent pairs 0 (⟨[], "", 0⟩, ⟨[], []⟩) where
  lengths := rfl
  assembled := by
    refine ⟨⟨[], Forall₂.nil, ?_⟩, trivial⟩
    simp [overlap, removeTag, Regex.remove, Regex.scan, Regex.scanFrom, pyDrop]
  numbers := rfl

variable {state : Chunks × Groups}

theorem Grouping.step {count : Nat} (h : Grouping overlappedPercent pairs count state)
    (hsec : pairs[count]? = some sec) :
    Grouping overlappedPercent pairs (count + 1)
      (numberedStep tokens chunkTokenNum overlappedPercent state (sec, count)) := by
  obtain ⟨⟨closed, last, tokenCount⟩, ⟨groups, members⟩⟩ := state
  obtain ⟨hlengths, hassembled, hnumbers⟩ := h
  rw [Chunks.all, allAssembled_concat overlappedPercent hlengths] at hassembled
  rw [numberedStep, addChunk, number]
  by_cases hopen : last = "" ∨ limit chunkTokenNum overlappedPercent < tokenCount
  · rw [if_pos hopen, if_pos hopen]
    refine ⟨by simp [hlengths], ?_, ?_⟩
    · rw [Chunks.all, allAssembled_concat overlappedPercent (by simp [hlengths]),
        allAssembled_concat overlappedPercent hlengths, getLast?_append]
      exact ⟨hassembled, assembled_single tokens overlappedPercent last hsec⟩
    · rw [flatten_append, hnumbers, range_succ]
      simp
  · rw [if_neg hopen, if_neg hopen]
    refine ⟨hlengths, ?_, ?_⟩
    · rw [Chunks.all, allAssembled_concat overlappedPercent hlengths]
      exact ⟨hassembled.1, assembled_append overlappedPercent hassembled.2 hsec (located_shown tokens _ _ _)⟩
    · rw [flatten_append] at hnumbers ⊢
      rw [range_succ, ← hnumbers]
      simp

theorem Grouping.run (before rest : List (String × String))
    (h : Grouping overlappedPercent pairs before.length state) (hpairs : pairs = before ++ rest) :
    Grouping overlappedPercent pairs pairs.length
      ((rest.zipIdx before.length).foldl (numberedStep tokens chunkTokenNum overlappedPercent) state) := by
  induction rest generalizing before state with
  | nil =>
    rw [hpairs, append_nil]
    rw [hpairs, append_nil] at h
    exact h
  | cons sec rest ih =>
    have hsec : pairs[before.length]? = some sec := by simp [hpairs]
    have hnext := h.step tokens chunkTokenNum overlappedPercent hsec
    rw [zipIdx_cons, foldl_cons]
    have hlength : before.length + 1 = (before ++ [sec]).length := by simp
    rw [hlength] at hnext ⊢
    exact ih (before ++ [sec]) hnext (by simp [hpairs])

/-! ### Both runs -/

theorem zip_images {images : List (Option (Image P B))} (hlength : images.length = pairs.length) :
    (pairs.map fun pair => Item.mk (some pair.1) (some pair.2)).zip images =
      pairs.zipIdx.map fun entry => (Item.mk (some entry.1.1) (some entry.1.2), images.getD entry.2 none) := by
  apply ext_getElem
  · simp [hlength]
  · intro i hi hi'
    have himage : i < images.length := by
      rw [length_zip] at hi
      omega
    simp [himage]

def Consists (delimiter : String) (pairs : List (String × String)) (chunks : List String)
    (groups : List (List Nat)) : Prop :=
  if customDelimiters delimiter = [] then
    AllAssembled overlappedPercent pairs "" chunks groups ∧ groups.flatten = range pairs.length
  else
    Forall₂ (Cut tokens (customPattern (customDelimiters delimiter)) pairs) chunks groups

theorem mapM_single (entries : List (String × Nat)) :
    (entries.map fun entry => [entry.2]).mapM (groupImage imaging imageOf) =
      pure (entries.map fun entry => imageOf entry.2) := by
  induction entries with
  | nil => rfl
  | cons entry entries ih =>
    have hsingle : groupImage imaging imageOf [entry.2] = pure (imageOf entry.2) := rfl
    rw [map_cons, mapM_cons, hsingle, ih, pure_bind, pure_bind, map_cons]

def cutEntries (pattern : Regex) (pairs : List (String × String)) : List (String × Nat) :=
  pairs.zipIdx.flatMap fun entry => (cutSection tokens pattern entry.1).map (·, entry.2)

theorem cutEntries_fst (pattern : Regex) (pairs : List (String × String)) :
    (cutEntries tokens pattern pairs).map Prod.fst = pairs.flatMap (cutSection tokens pattern) := by
  have hfst : pairs = pairs.zipIdx.map Prod.fst := by rw [zipIdx_map_fst]
  rw [cutEntries, map_flatMap]
  conv_rhs => rw [hfst, flatMap_map]
  apply flatMap_congr
  intro entry _
  rw [map_map]
  exact map_id _

theorem cut_of_mem {pattern : Regex} {entry : String × Nat}
    (h : entry ∈ cutEntries tokens pattern pairs) : Cut tokens pattern pairs entry.1 [entry.2] := by
  obtain ⟨⟨sec, i⟩, hsec, hchunk⟩ := mem_flatMap.mp h
  obtain ⟨chunk, hmem, rfl⟩ := mem_map.mp hchunk
  exact ⟨i, sec, rfl, mem_zipIdx_iff_getElem?.mp hsec, hmem⟩

/-- `naive_merge_with_images` gives the chunks of `naive_merge`, and for each of them one image:
    what `concat_img` makes of the images of its sections, from left to right. -/
theorem naive_merges_agree (delimiter : String) (pairs : List (String × String))
    (images : List (Option (Image P B))) (hlength : images.length = pairs.length) :
    ∃ groups : List (List Nat),
      Consists tokens overlappedPercent delimiter pairs
        (naiveMerge tokens chunkTokenNum overlappedPercent delimiter (.laidOut pairs)) groups ∧
      groups.length = (naiveMerge tokens chunkTokenNum overlappedPercent delimiter (.laidOut pairs)).length ∧
      naiveMergeWithImages tokens chunkTokenNum overlappedPercent imaging delimiter
          (pairs.map fun pair => ⟨some pair.1, some pair.2⟩) images =
        (groups.mapM (groupImage imaging fun i => images.getD i none) >>= fun slots =>
          pure (naiveMerge tokens chunkTokenNum overlappedPercent delimiter (.laidOut pairs), slots)) := by
  by_cases hempty : pairs = []
  · subst hempty
    refine ⟨[], ?_, rfl, rfl⟩
    rw [Consists]
    split
    · exact ⟨trivial, rfl⟩
    · exact Forall₂.nil
  · have hnonempty : ¬ (Sections.laidOut pairs).isEmpty = true := by simpa [Sections.isEmpty] using hempty
    have hproceeds : ¬ (pairs.map (fun pair => Item.mk (some pair.1) (some pair.2)) = [] ∨
        (pairs.map (fun pair => Item.mk (some pair.1) (some pair.2))).length ≠ images.length) := by
      simp [hempty, hlength]
    by_cases hcustom : customDelimiters delimiter = []
    · have hmerged : naiveMerge tokens chunkTokenNum overlappedPercent delimiter (.laidOut pairs) =
          ((pairs.zipIdx).foldl (numberedStep tokens chunkTokenNum overlappedPercent) (⟨[], "", 0⟩, ⟨[], []⟩)).1.all := by
        rw [naiveMerge, if_neg hnonempty, numbered_fst]
        exact if_neg (by simpa using hcustom)
      have hgrouping := Grouping.run tokens chunkTokenNum overlappedPercent [] pairs
        (Grouping.start overlappedPercent pairs) rfl
      have himages := foldlM_addChunkImage tokens chunkTokenNum overlappedPercent imaging
        (fun i => images.getD i none) pairs.zipIdx (⟨[], "", 0⟩, ⟨[], []⟩)
      rw [hmerged]
      rw [length_nil] at hgrouping
      generalize pairs.zipIdx.foldl (numberedStep tokens chunkTokenNum overlappedPercent)
        (⟨[], "", 0⟩, ⟨[], []⟩) = state at hgrouping himages ⊢
      refine ⟨state.2.closed ++ [state.2.last], ?_, ?_, ?_⟩
      · rw [Consists, if_pos hcustom]
        exact ⟨hgrouping.assembled, hgrouping.numbers⟩
      · rw [Chunks.all, length_append, length_append, hgrouping.lengths]
        rfl
      · rw [naiveMergeWithImages, if_neg hproceeds, zip_images hlength]
        refine (if_neg (by simpa using hcustom)).trans ?_
        have hstart : groupImages imaging (fun i => images.getD i none) ⟨[], []⟩ = pure ([], none) := rfl
        rw [hstart, pure_bind] at himages
        rw [foldlM_map, map_eq_bind]
        refine (congrArg (· >>= _) himages).trans ?_
        rw [bind_assoc, mapM_append]
        simp only [groupImages, bind_assoc, pure_bind, mapM_cons, mapM_nil]
        rfl
    · have hmerged : naiveMerge tokens chunkTokenNum overlappedPercent delimiter (.laidOut pairs) =
          (cutEntries tokens (customPattern (customDelimiters delimiter)) pairs).map Prod.fst := by
        rw [naiveMerge, if_neg hnonempty, cutEntries_fst]
        exact if_pos hcustom
      rw [hmerged]
      refine ⟨(cutEntries tokens (customPattern (customDelimiters delimiter)) pairs).map fun entry => [entry.2],
        ?_, by simp, ?_⟩
      · rw [Consists, if_neg hcustom, forall₂_map_left_iff, forall₂_map_right_iff, forall₂_same]
        intro entry hentry
        exact cut_of_mem tokens hentry
      · rw [mapM_single, pure_bind, naiveMergeWithImages, if_neg hproceeds, zip_images hlength]
        refine (if_pos hcustom).trans ?_
        have hcut : (cutEntries tokens (customPattern (customDelimiters delimiter)) pairs).map
            (fun entry => (entry.1, images.getD entry.2 none)) =
            (pairs.zipIdx.map fun entry =>
              (Item.mk (some entry.1.1) (some entry.1.2), images.getD entry.2 none)).flatMap fun pair =>
                (cutSection tokens (customPattern (customDelimiters delimiter)) (pair.1.textStr, pair.1.textPos)).map
                  (·, pair.2) := by
          rw [cutEntries, map_flatMap, flatMap_map]
          apply flatMap_congr
          intro entry _
          rw [map_map]
          rfl
        dsimp only
        rw [← hcut, map_map, map_map]
        rfl

def rowImaging : Imaging (List Nat) (List Nat) := ⟨some, (· == ·), (· ++ ·)⟩

def nonBlanks (text : String) : Nat := (text.toList.filter (· ≠ ' ')).length

theorem naive_merges_agree_sample : ∃ groups : List (List Nat),
    Consists nonBlanks 0 "\n" [("a b", ""), ("c", "")]
      (naiveMerge nonBlanks 128 0 "\n" (.laidOut [("a b", ""), ("c", "")])) groups ∧
    groups.length = (naiveMerge nonBlanks 128 0 "\n" (.laidOut [("a b", ""), ("c", "")])).length ∧
    naiveMergeWithImages nonBlanks 128 0 rowImaging "\n"
        ([("a b", ""), ("c", "")].map fun pair => ⟨some pair.1, some pair.2⟩) [some (.pil [1]), some (.lazy [[2]])] =
      (groups.mapM (groupImage rowImaging fun i => [some (.pil [1]), some (.lazy [[2]])].getD i none) >>= fun slots =>
        pure (naiveMerge nonBlanks 128 0 "\n" (.laidOut [("a b", ""), ("c", "")]), slots)) :=
  naive_merges_agree nonBlanks 128 0 rowImaging "\n" [("a b", ""), ("c", "")]
    [some (.pil [1]), some (.lazy [[2]])] rfl

end MultiRag.NaiveMerge
