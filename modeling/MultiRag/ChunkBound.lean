/-
  **How large the chunks of `naive_merge` get.**

  A section *fits* when the tokens of both are within the limit. The code compares
  neither: its counter leaves out the overlap, and is compared before the section is
  added.
-/
import MultiRag.NaiveMergeImages

namespace MultiRag.NaiveMerge

open Bullets Regex List

variable (tokens : String → Nat) (chunkTokenNum : Int) (overlappedPercent : ℚ)

def plainTokens (text : String) : Nat := tokens (removeTag text)

def base (chunks : Chunks) : String :=
  if chunks.last = "" ∨ limit chunkTokenNum overlappedPercent < chunks.tokenCount then
    overlap overlappedPercent chunks.last
  else chunks.last

def addedPart (chunks : Chunks) (sec : String × String) : String :=
  let t := "\n" ++ sec.1
  if chunks.last = "" ∨ limit chunkTokenNum overlappedPercent < chunks.tokenCount then
    located (overlap overlappedPercent chunks.last ++ t) t (shownPosition tokens t sec.2)
  else located chunks.last t (shownPosition tokens t sec.2)

/-- The section and what it is added to are within the limit. -/
def Fits (chunks : Chunks) (sec : String × String) : Prop :=
  (plainTokens tokens (base chunkTokenNum overlappedPercent chunks) : Int) +
    plainTokens tokens (addedPart tokens chunkTokenNum overlappedPercent chunks sec) ≤ chunkTokenNum

def mergeStep (chunks : Chunks) (sec : String × String) : Chunks :=
  addChunk tokens chunkTokenNum overlappedPercent chunks ("\n" ++ sec.1) sec.2

def mergeRun (sections : List (String × String)) : Chunks :=
  sections.foldl (mergeStep tokens chunkTokenNum overlappedPercent) ⟨[], "", 0⟩

def AllFit (sections : List (String × String)) : Prop :=
  ∀ before sec after, sections = before ++ sec :: after →
    Fits tokens chunkTokenNum overlappedPercent (mergeRun tokens chunkTokenNum overlappedPercent before) sec

def Bounded (chunks : List String) : Prop := ∀ chunk ∈ chunks, (plainTokens tokens chunk : Int) ≤ chunkTokenNum

/-! ### One section -/

theorem tagPattern_avoids : tagPattern.Avoids '\n' := by
  simp [tagPattern, Regex.all, lit, plus, oneOf, char, Avoids]

theorem removeTag_append (front back : String) :
    removeTag (front ++ ("\n" ++ back)) = removeTag front ++ removeTag ("\n" ++ back) := by
  have hback : "\n" ++ back = String.ofList ('\n' :: back.toList) := by
    rw [← String.toList_inj]
    simp
  rw [hback]
  exact remove_append tagPattern_avoids front back

section

variable (chunks : Chunks) (sec : String × String)
include chunks sec

theorem exists_addedPart :
    ∃ rest, addedPart tokens chunkTokenNum overlappedPercent chunks sec = "\n" ++ rest := by
  have hpart : ∀ context, ∃ rest,
      located context ("\n" ++ sec.1) (shownPosition tokens ("\n" ++ sec.1) sec.2) = "\n" ++ rest := by
    intro context
    rcases located_shown tokens context ("\n" ++ sec.1) sec.2 with h | h
    · exact ⟨sec.1, h⟩
    · exact ⟨sec.1 ++ sec.2, by rw [h, String.append_assoc]⟩
  rw [addedPart]
  split
  · exact hpart _
  · exact hpart _

theorem mergeStep_last :
    (mergeStep tokens chunkTokenNum overlappedPercent chunks sec).last =
      base chunkTokenNum overlappedPercent chunks ++ addedPart tokens chunkTokenNum overlappedPercent chunks sec := by
  rw [mergeStep, addChunk, base, addedPart]
  by_cases hopen : chunks.last = "" ∨ limit chunkTokenNum overlappedPercent < chunks.tokenCount
  · simp only [if_pos hopen, located]
    split
    · rfl
    · rw [String.append_assoc]
  · simp only [if_neg hopen]

theorem mergeStep_closed :
    (mergeStep tokens chunkTokenNum overlappedPercent chunks sec).closed =
      if chunks.last = "" ∨ limit chunkTokenNum overlappedPercent < chunks.tokenCount then
        chunks.closed ++ [chunks.last]
      else chunks.closed := by
  rw [mergeStep, addChunk]
  by_cases hopen : chunks.last = "" ∨ limit chunkTokenNum overlappedPercent < chunks.tokenCount
  · simp only [if_pos hopen]
  · simp only [if_neg hopen]

theorem removeTag_mergeStep :
    removeTag (mergeStep tokens chunkTokenNum overlappedPercent chunks sec).last =
      removeTag (base chunkTokenNum overlappedPercent chunks) ++
        removeTag (addedPart tokens chunkTokenNum overlappedPercent chunks sec) := by
  obtain ⟨rest, hrest⟩ := exists_addedPart tokens chunkTokenNum overlappedPercent chunks sec
  rw [mergeStep_last, hrest, removeTag_append]

end

variable {tokens chunkTokenNum overlappedPercent}

theorem Bounded.step {chunks : Chunks} {sec : String × String}
    (hsub : ∀ a b, tokens (a ++ b) ≤ tokens a + tokens b) (h : Bounded tokens chunkTokenNum chunks.all)
    (hfits : Fits tokens chunkTokenNum overlappedPercent chunks sec) :
    Bounded tokens chunkTokenNum (mergeStep tokens chunkTokenNum overlappedPercent chunks sec).all := by
  intro chunk hchunk
  rw [Chunks.all, mem_append, mergeStep_closed] at hchunk
  rcases hchunk with hclosed | hlast
  · apply h
    split at hclosed
    · exact hclosed
    · exact mem_append_left _ hclosed
  · rw [mem_singleton.mp hlast, plainTokens, removeTag_mergeStep]
    have hle := hsub (removeTag (base chunkTokenNum overlappedPercent chunks))
      (removeTag (addedPart tokens chunkTokenNum overlappedPercent chunks sec))
    rw [Fits, plainTokens, plainTokens] at hfits
    omega

theorem Bounded.run {sections before rest : List (String × String)}
    (hsub : ∀ a b, tokens (a ++ b) ≤ tokens a + tokens b)
    (hfit : AllFit tokens chunkTokenNum overlappedPercent sections) (hsecs : sections = before ++ rest)
    (h : Bounded tokens chunkTokenNum (mergeRun tokens chunkTokenNum overlappedPercent before).all) :
    Bounded tokens chunkTokenNum (mergeRun tokens chunkTokenNum overlappedPercent sections).all := by
  induction rest generalizing before with
  | nil =>
    rw [hsecs, append_nil]
    exact h
  | cons sec rest ih =>
    have hnext : Bounded tokens chunkTokenNum
        (mergeRun tokens chunkTokenNum overlappedPercent (before ++ [sec])).all := by
      rw [mergeRun, foldl_append]
      exact h.step hsub (hfit before sec rest hsecs)
    exact ih (by simp [hsecs]) hnext

theorem exists_grown (hadd : ∀ a b, tokens (a ++ b) = tokens a + tokens b) (rest : List (String × String))
    (chunks : Chunks) :
    ∃ chunk ∈ (rest.foldl (mergeStep tokens chunkTokenNum overlappedPercent) chunks).all,
      plainTokens tokens chunks.last ≤ plainTokens tokens chunk := by
  have hclosed : ∀ (rest : List (String × String)) (chunks : Chunks), ∀ chunk ∈ chunks.closed,
      chunk ∈ (rest.foldl (mergeStep tokens chunkTokenNum overlappedPercent) chunks).closed := by
    intro rest
    induction rest with
    | nil => exact fun _ chunk hchunk => hchunk
    | cons sec rest ih =>
      intro chunks chunk hchunk
      apply ih
      rw [mergeStep_closed]
      split
      · exact mem_append_left _ hchunk
      · exact hchunk
  induction rest generalizing chunks with
  | nil => exact ⟨chunks.last, mem_append_right _ mem_cons_self, le_rfl⟩
  | cons sec rest ih =>
    rw [foldl_cons]
    by_cases hopen : chunks.last = "" ∨ limit chunkTokenNum overlappedPercent < chunks.tokenCount
    · refine ⟨chunks.last, mem_append_left _ (hclosed rest _ _ ?_), le_rfl⟩
      rw [mergeStep_closed, if_pos hopen]
      exact mem_append_right _ mem_cons_self
    · obtain ⟨chunk, hchunk, hle⟩ := ih (mergeStep tokens chunkTokenNum overlappedPercent chunks sec)
      refine ⟨chunk, hchunk, Nat.le_trans ?_ hle⟩
      rw [plainTokens, plainTokens, removeTag_mergeStep, hadd, base, if_neg hopen]
      exact Nat.le_add_right _ _

theorem allFit_of_bounded {sections : List (String × String)} (hadd : ∀ a b, tokens (a ++ b) = tokens a + tokens b)
    (h : Bounded tokens chunkTokenNum (mergeRun tokens chunkTokenNum overlappedPercent sections).all) :
    AllFit tokens chunkTokenNum overlappedPercent sections := by
  intro before sec after hsecs
  obtain ⟨chunk, hchunk, hle⟩ := exists_grown hadd after
    (mergeStep tokens chunkTokenNum overlappedPercent (mergeRun tokens chunkTokenNum overlappedPercent before) sec)
  have hbound := h chunk (by rw [hsecs, mergeRun, foldl_append, foldl_cons]; exact hchunk)
  rw [plainTokens, removeTag_mergeStep, hadd] at hle
  rw [Fits, plainTokens, plainTokens]
  omega

/-! ### The bound -/

variable {sections : Sections} {delimiter : String}

theorem naiveMerge_eq_run (hdelimiter : customDelimiters delimiter = [])
    (hsecs : sections.isEmpty = false) :
    naiveMerge tokens chunkTokenNum overlappedPercent delimiter sections =
      (mergeRun tokens chunkTokenNum overlappedPercent sections.paired).all := by
  rw [naiveMerge, if_neg (by simp [hsecs])]
  exact if_neg (by simpa using hdelimiter)

theorem paired_eq_nil : sections.paired = [] ↔ sections.isEmpty = true := by
  cases sections with
  | plain texts => simp [Sections.paired, Sections.isEmpty]
  | laidOut pairs => simp [Sections.paired, Sections.isEmpty]

theorem bounded_start (hempty : tokens "" = 0) (hlimit : 0 ≤ chunkTokenNum) :
    Bounded tokens chunkTokenNum (mergeRun tokens chunkTokenNum overlappedPercent []).all := by
  intro chunk hchunk
  have hnoTag : removeTag "" = "" := rfl
  obtain rfl : chunk = "" := mem_singleton.mp hchunk
  rw [plainTokens, hnoTag, hempty]
  exact hlimit

theorem bounded_of_allFit (hdelimiter : customDelimiters delimiter = [])
    (hempty : tokens "" = 0) (hsub : ∀ a b, tokens (a ++ b) ≤ tokens a + tokens b)
    (hsecs : ∀ sec ∈ sections.paired, (tokens sec.1 : Int) ≤ chunkTokenNum)
    (hfit : AllFit tokens chunkTokenNum overlappedPercent sections.paired) :
    Bounded tokens chunkTokenNum (naiveMerge tokens chunkTokenNum overlappedPercent delimiter sections) := by
  cases hnone : sections.isEmpty with
  | true =>
    rw [naiveMerge, if_pos hnone]
    rintro chunk ⟨⟩
  | false =>
    rw [naiveMerge_eq_run hdelimiter hnone]
    have hpaired : sections.paired ≠ [] := by
      intro hnil
      rw [paired_eq_nil.mp hnil] at hnone
      cases hnone
    obtain ⟨sec, hsec⟩ := exists_mem_of_ne_nil _ hpaired
    have hlimit := hsecs sec hsec
    exact Bounded.run hsub hfit rfl (bounded_start hempty (by omega))

/-- Without custom delimiters every chunk is within the limit, if every section fits when it is
    added; where the tokens of texts add up, only if. -/
theorem naive_merge_bounded (tokens : String → Nat) (chunkTokenNum : Int) (overlappedPercent : ℚ)
    (delimiter : String) (sections : Sections) (hdelimiter : customDelimiters delimiter = [])
    (hempty : tokens "" = 0) (hsub : ∀ a b, tokens (a ++ b) ≤ tokens a + tokens b)
    (hsections : ∀ sec ∈ sections.paired, (tokens sec.1 : Int) ≤ chunkTokenNum) :
    (AllFit tokens chunkTokenNum overlappedPercent sections.paired →
        Bounded tokens chunkTokenNum (naiveMerge tokens chunkTokenNum overlappedPercent delimiter sections)) ∧
      ((∀ a b, tokens (a ++ b) = tokens a + tokens b) →
        (Bounded tokens chunkTokenNum (naiveMerge tokens chunkTokenNum overlappedPercent delimiter sections) ↔
          AllFit tokens chunkTokenNum overlappedPercent sections.paired)) := by
  have hsufficient : AllFit tokens chunkTokenNum overlappedPercent sections.paired →
      Bounded tokens chunkTokenNum (naiveMerge tokens chunkTokenNum overlappedPercent delimiter sections) :=
    bounded_of_allFit hdelimiter hempty hsub hsections
  refine ⟨hsufficient, fun hadd => ⟨?_, hsufficient⟩⟩
  intro hbounded
  cases hnone : sections.isEmpty with
  | true =>
    intro before sec after hsplit
    rw [paired_eq_nil.mpr hnone] at hsplit
    simp at hsplit
  | false =>
    rw [naiveMerge_eq_run hdelimiter hnone] at hbounded
    exact allFit_of_bounded hadd hbounded

def letterSections : Sections := .plain ["a b c d e f g h", "i j k l m n o p"]

theorem nonBlanks_append (a b : String) : nonBlanks (a ++ b) = nonBlanks a + nonBlanks b := by
  simp [nonBlanks]

theorem naive_merge_bounded_sample :
    (AllFit nonBlanks 20 0 letterSections.paired →
        Bounded nonBlanks 20 (naiveMerge nonBlanks 20 0 "\n" letterSections)) ∧
      ((∀ a b, nonBlanks (a ++ b) = nonBlanks a + nonBlanks b) →
        (Bounded nonBlanks 20 (naiveMerge nonBlanks 20 0 "\n" letterSections) ↔
          AllFit nonBlanks 20 0 letterSections.paired)) :=
  naive_merge_bounded nonBlanks 20 0 "\n" letterSections (by decide +kernel) rfl
    (fun a b => Nat.le_of_eq (nonBlanks_append a b)) (by decide +kernel)

/-- Both sections are within the limit of ten tokens, and are put into one chunk of eighteen. -/
theorem sections_exceed :
    (∀ a b, nonBlanks (a ++ b) ≤ nonBlanks a + nonBlanks b) ∧ customDelimiters "\n" = [] ∧
      (∀ sec ∈ letterSections.paired, (nonBlanks sec.1 : Int) ≤ 10) ∧
      ∃ chunk ∈ naiveMerge nonBlanks 10 0 "\n" letterSections, 10 < plainTokens nonBlanks chunk := by
  refine ⟨fun a b => Nat.le_of_eq (nonBlanks_append a b), ?_⟩
  decide +kernel

end MultiRag.NaiveMerge
