/-
  **`tree_merge` of a list of sections** (`core/nlp/__init__.py`).

  The kept sections are lines with the level of their heading; the depth of the tree
  is one of the levels that occur.
-/
import Mathlib.Data.List.Dedup
import Mathlib.Data.List.Sort
import MultiRag.BulletPatterns
import MultiRag.PyText
import MultiRag.TreeChunks

namespace MultiRag.TreeMerge

open Bullets Node List

def lineText (text : String) : String := pyStrip (text.map fun c => if c = '\u3000' then ' ' else c)

def getLevel (patterns : List Regex) : String × String → Int × String
  | (text, layout) =>
    match firstMatch patterns (pyStrip (lineText text)) with
    | some i => (i + 1, lineText text)
    | none =>
      if isTitleLayout layout ∧ ¬ notTitle (lineText text) then (patterns.length + 1, lineText text)
      else (patterns.length + 2, lineText text)

def leveledLines (patterns : List Regex) (sections : List (String × String)) : List (Int × String) :=
  (sections.map (getLevel patterns)).filter fun line => stripLines line.2 ≠ ""

def sortedLevels (lines : List (Int × String)) : List Int :=
  (lines.map Prod.fst).dedup.insertionSort (· ≤ ·)

/-- The level at the depth, or the last one; `none` is the `IndexError`. -/
def levelAt (sorted : List Int) (depth : Int) : Option Int :=
  if depth ≤ sorted.length then pyItem sorted (depth - 1) else pyItem sorted (-1)

/-- `target_level`: not the level of the body text, where there is another. -/
def targetLevel (patterns : List Regex) (sorted : List Int) (depth : Int) : Option Int := do
  let target ← levelAt sorted depth
  if target = patterns.length + 2 then
    if 1 < sorted.length then pyItem sorted (-2) else pyItem sorted 0
  else some target

/-- What `tree_merge` returns: the sections as they came, or chunks. -/
inductive Merged where
  | given (sections : Sections)
  | chunked (chunks : List String)

/-- `tree_merge`; `none` is the `IndexError`. -/
def treeMerge (bull : Int) (sections : Sections) (depth : Int) : Option Merged :=
  if sections.isEmpty ∨ bull < 0 then some (.given sections)
  else do
    let patterns ← pyItem bulletPattern bull
    let lines := leveledLines patterns (kept sections)
    let target ← targetLevel patterns (sortedLevels lines) depth
    some (.chunked (((buildTree target lines).getTree target).filter (· ≠ "")))

/-! ### Lines -/

variable {text layout : String}

theorem exists_of_isKept (h : isKept (text, layout) = true) :
    ∃ c ∈ text.toList, isPySpace c = false := by
  simp only [isKept, Bool.and_eq_true, decide_eq_true_eq] at h
  have hlong := h.1.2
  have hstripped : stripChars isPySpace (text.toList.takeWhile (· ≠ '@')) ≠ [] := by
    intro hnil
    rw [untagged, ← String.length_toList, pyStrip_toList, String.toList_ofList, hnil] at hlong
    simp at hlong
  obtain ⟨c, hc, hspace⟩ := exists_of_stripChars_ne_nil hstripped
  exact ⟨c, (takeWhile_sublist _).mem hc, hspace⟩

theorem mem_lineText {c : Char} (hc : c ∈ text.toList) (hspace : isPySpace c = false) :
    c ∈ (lineText text).toList := by
  rw [lineText, pyStrip_toList]
  apply mem_stripChars _ hspace
  rw [String.toList_map, mem_map]
  refine ⟨c, hc, ?_⟩
  rw [if_neg]
  rintro rfl
  revert hspace
  decide

theorem stripLines_lineText (h : isKept (text, layout) = true) :
    stripLines (lineText text) ≠ "" := by
  obtain ⟨c, hc, hspace⟩ := exists_of_isKept h
  have hmem : c ∈ stripChars (· == '\n') (lineText text).toList := by
    apply mem_stripChars (mem_lineText hc hspace)
    rw [beq_eq_false_iff_ne]
    rintro rfl
    revert hspace
    decide
  intro hempty
  rw [stripLines, String.ofList_eq_empty_iff] at hempty
  rw [hempty] at hmem
  cases hmem

theorem lineText_ne_empty (h : isKept (text, layout) = true) : lineText text ≠ "" := by
  obtain ⟨c, hc, hspace⟩ := exists_of_isKept h
  intro hempty
  have hmem := mem_lineText hc hspace
  rw [hempty] at hmem
  cases hmem

variable (patterns : List Regex)

theorem getLevel_snd (sec : String × String) :
    (getLevel patterns sec).2 = lineText sec.1 := by
  rw [getLevel]
  split
  · rfl
  · split <;> rfl

theorem one_le_getLevel (sec : String × String) :
    1 ≤ (getLevel patterns sec).1 := by
  rw [getLevel]
  split
  · dsimp only
    omega
  · split
    · dsimp only
      omega
    · dsimp only
      omega

theorem leveledLines_kept (sections : Sections) :
    leveledLines patterns (kept sections) = (kept sections).map (getLevel patterns) := by
  rw [leveledLines, List.filter_eq_self]
  intro line hline
  obtain ⟨⟨text, layout⟩, hsec, rfl⟩ := mem_map.mp hline
  rw [getLevel_snd, decide_eq_true_eq]
  exact stripLines_lineText (List.mem_filter.mp hsec).2

/-! ### Levels -/

variable {lines : List (Int × String)}

theorem mem_sortedLevels {level : Int} :
    level ∈ sortedLevels lines ↔ ∃ line ∈ lines, line.1 = level := by
  rw [sortedLevels, (perm_insertionSort _ _).mem_iff, mem_dedup, mem_map]

variable {sorted : List Int} {depth : Int}

theorem mem_of_targetLevel {patterns : List Regex} {target : Int}
    (h : targetLevel patterns sorted depth = some target) : target ∈ sorted := by
  rw [targetLevel, Option.bind_eq_bind, Option.bind_eq_some_iff] at h
  obtain ⟨level, hlevel, h⟩ := h
  have hmem : level ∈ sorted := by
    rw [levelAt] at hlevel
    split at hlevel
    · exact mem_of_pyItem hlevel
    · exact mem_of_pyItem hlevel
  split at h
  · split at h
    · exact mem_of_pyItem h
    · exact mem_of_pyItem h
  · rw [← Option.some.inj h]
    exact hmem

theorem exists_targetLevel (hdepth : 1 ≤ depth) (hsorted : sorted ≠ []) :
    ∃ target, targetLevel patterns sorted depth = some target := by
  have hlength : 0 < sorted.length := length_pos_iff.mpr hsorted
  have hlevel : ∃ level, levelAt sorted depth = some level := by
    rw [levelAt]
    split
    · exact exists_pyItem (by omega) (by omega)
    · exact exists_pyItem (by omega) (by omega)
  obtain ⟨level, hlevel⟩ := hlevel
  rw [targetLevel, hlevel, Option.bind_eq_bind, Option.bind_some]
  split
  · split
    · exact exists_pyItem (by omega) (by omega)
    · exact exists_pyItem (by omega) (by omega)
  · exact ⟨level, rfl⟩

theorem targetLevel_nil (hdepth : 1 ≤ depth) :
    targetLevel patterns [] depth = none := by
  rw [targetLevel, levelAt, if_neg (by rw [length_nil]; omega)]
  rfl

/-! ### Chunks -/

def Covers (texts chunks : List String) : Prop :=
  ∃ numbers : List (List (Fin texts.length)),
    chunks = numbers.map (fun chunk => "\n".intercalate (chunk.map fun i => texts[i])) ∧
    ∀ i, ∃ chunk ∈ numbers, i ∈ chunk

theorem Covers.filter {texts chunks : List String} (h : Covers texts chunks) (htexts : ∀ text ∈ texts, text ≠ "") :
    Covers texts (chunks.filter (· ≠ "")) := by
  obtain ⟨numbers, rfl, hall⟩ := h
  refine ⟨_, List.filter_map, ?_⟩
  intro i
  obtain ⟨chunk, hchunk, hi⟩ := hall i
  refine ⟨chunk, List.mem_filter.mpr ⟨hchunk, ?_⟩, hi⟩
  rw [Function.comp_apply, decide_eq_true_eq]
  exact intercalate_ne_empty (mem_map_of_mem hi) (htexts _ (getElem_mem _))

theorem covers_getTree (hdepth : 1 ≤ depth) (hlevels : ∀ line ∈ lines, 1 ≤ line.1) :
    Covers (lines.map Prod.snd) ((buildTree depth lines).getTree depth) := by
  have hlength : lines.length = (lines.map Prod.snd).length := (length_map _).symm
  refine ⟨((buildTree depth (numbered lines)).chunks depth).map (List.map (Fin.cast hlength)), ?_, ?_⟩
  · rw [getTree_numbered, map_map]
    apply map_congr_left
    intro chunk _
    rw [Function.comp_apply, map_map]
    congr 1
    apply map_congr_left
    intro i _
    simp
  · intro i
    obtain ⟨chunk, hchunk, hi⟩ := exists_chunk_mem hdepth hlevels (Fin.cast hlength.symm i)
    exact ⟨_, mem_map_of_mem hchunk, mem_map.mpr ⟨_, hi, rfl⟩⟩

/-! ### The result -/

def Merged.Keeps (sections : Sections) : Merged → Prop
  | .given returned => returned = sections
  | .chunked chunks => Covers ((kept sections).map fun sec => lineText sec.1) chunks

variable {sections : Sections}

theorem treeMerge_kept {bull : Int} (hsecs : ¬ sections.isEmpty) (hlow : 0 ≤ bull)
    (hhigh : bull < bulletPattern.length) (hdepth : 1 ≤ depth) (hkept : kept sections ≠ []) :
    ∃ chunks, treeMerge bull sections depth = some (.chunked chunks) ∧
      Covers ((kept sections).map fun sec => lineText sec.1) chunks := by
  obtain ⟨patterns, hpatterns⟩ : ∃ patterns, pyItem bulletPattern bull = some patterns :=
    exists_pyItem (by omega) hhigh
  have hlines := leveledLines_kept patterns sections
  have hsorted : sortedLevels ((kept sections).map (getLevel patterns)) ≠ [] := by
    obtain ⟨sec, hsec⟩ := exists_mem_of_ne_nil _ hkept
    exact ne_nil_of_mem (mem_sortedLevels.mpr ⟨_, mem_map_of_mem hsec, rfl⟩)
  obtain ⟨target, htarget⟩ := exists_targetLevel patterns hdepth hsorted
  let lines := (kept sections).map (getLevel patterns)
  refine ⟨((buildTree target lines).getTree target).filter (· ≠ ""), ?_, ?_⟩
  · rw [treeMerge, if_neg (by simp [hsecs, hlow])]
    simp only [hpatterns, hlines, htarget, Option.bind_eq_bind, Option.bind_some]
    rfl
  · have hlevels : ∀ line ∈ (kept sections).map (getLevel patterns), 1 ≤ line.1 := by
      intro line hline
      obtain ⟨sec, -, rfl⟩ := mem_map.mp hline
      exact one_le_getLevel patterns sec
    have htargetLevel : 1 ≤ target := by
      obtain ⟨line, hline, rfl⟩ := mem_sortedLevels.mp (mem_of_targetLevel htarget)
      exact hlevels line hline
    have hcovers := covers_getTree htargetLevel hlevels
    rw [map_map] at hcovers
    simp only [Function.comp_def, getLevel_snd] at hcovers
    apply hcovers.filter
    intro text htext
    obtain ⟨⟨text, layout⟩, hsec, rfl⟩ := mem_map.mp htext
    exact lineText_ne_empty (List.mem_filter.mp hsec).2

theorem treeMerge_eq_none {bull : Int} (hsecs : ¬ sections.isEmpty) (hlow : 0 ≤ bull)
    (hhigh : bull < bulletPattern.length) (hdepth : 1 ≤ depth) (hkept : kept sections = []) :
    treeMerge bull sections depth = none := by
  obtain ⟨patterns, hpatterns⟩ : ∃ patterns, pyItem bulletPattern bull = some patterns :=
    exists_pyItem (by omega) hhigh
  have hlevels : sortedLevels (leveledLines patterns []) = [] := rfl
  rw [treeMerge, if_neg (by simp [hsecs, hlow])]
  simp only [hpatterns, hkept, hlevels, targetLevel_nil patterns hdepth, Option.bind_eq_bind, Option.bind_some,
    Option.bind_none]

/-- `tree_merge` returns, and keeps every section that passes the filter, exactly where some
    section passes, or no tree is built. -/
theorem tree_merge_total_iff (bull depth : Int) (sections : Sections) (hhigh : bull < bulletPattern.length)
    (hdepth : 1 ≤ depth) :
    (∃ merged, treeMerge bull sections depth = some merged ∧ merged.Keeps sections) ↔
      bull < 0 ∨ sections.isEmpty ∨ kept sections ≠ [] := by
  by_cases hreturned : sections.isEmpty ∨ bull < 0
  · constructor
    · intro _
      rcases hreturned with hempty | hbull
      · exact .inr (.inl hempty)
      · exact .inl hbull
    · intro _
      exact ⟨.given sections, if_pos hreturned, rfl⟩
  · obtain ⟨hsections, hbull⟩ := not_or.mp hreturned
    have hbull : 0 ≤ bull := by omega
    by_cases hkept : kept sections = []
    · rw [treeMerge_eq_none hsections hbull hhigh hdepth hkept]
      simp [hkept, hsections, hbull]
    · obtain ⟨chunks, hmerge, hcovers⟩ := treeMerge_kept hsections hbull hhigh hdepth hkept
      constructor
      · intro _
        exact .inr (.inr hkept)
      · intro _
        exact ⟨.chunked chunks, hmerge, hcovers⟩

def sampleSections : Sections := .plain ["第一章 总则", "一条正文", "12"]

theorem tree_merge_total_iff_sample :
    (∃ merged, treeMerge 0 sampleSections 2 = some merged ∧ merged.Keeps sampleSections) ↔
      (0 : Int) < 0 ∨ sampleSections.isEmpty ∨ kept sampleSections ≠ [] :=
  tree_merge_total_iff 0 2 sampleSections (by decide) (by decide)

/-- The filter keeps no page number, and there is nothing else. -/
theorem page_numbers_raise : treeMerge 0 (.plain ["12", "13"]) 2 = none := by decide +kernel

end MultiRag.TreeMerge
