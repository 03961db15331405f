/-
  **Splitting at delimiters** (`core/flow/chunker/token_chunker.py`).

  A text is split at the delimiters of a pattern and each delimiter is joined to the
  text before it. A delimiter without text before it is passed over: at the start of
  the text and directly after another delimiter (`leading`).
-/
import Mathlib.Algebra.GroupWithZero.Nat
import MultiRag.NaiveMerge

namespace MultiRag.TokenChunker

open Regex NaiveMerge List

/-! ### The source -/

def compileDelimiterPattern (delimiters : List String) : Option Regex :=
  let customDelimiters := customDelimiters (String.join delimiters)
  if customDelimiters = [] then none else some (customPattern customDelimiters)

/-- `_compile_children_pattern`, and the same pattern in `TokenChunker._invoke`, where the
    parameter check has left out the empty delimiters. -/
def compileChildrenPattern (childrenDelimiters : List String) : Option Regex :=
  let texts := childrenDelimiters.filter (· ≠ "")
  if texts = [] then none else some (customPattern texts)

/-- The loop over the parts of `re.split`: text and delimiter by turns. -/
def joinDelimiters : List String → List String
  | [] => []
  | [chunk] => if chunk = "" then [] else if isBlank chunk then [] else [chunk]
  | chunk :: delimiter :: rest =>
    if chunk = "" then joinDelimiters rest
    else if isBlank (chunk ++ delimiter) then joinDelimiters rest
    else (chunk ++ delimiter) :: joinDelimiters rest

def splitTextByPattern (text : String) : Option Regex → List String
  | none => [text]
  | some pattern => joinDelimiters (pattern.split text)

/-- A chunk document; what the splitting copies without reading is one value. -/
structure Doc (α : Type) where
  text : Option String
  docTypeKwd : Option String
  mom : Option String
  rest : α

namespace Doc

variable {α : Type}

def isText (chunk : Doc α) : Bool := chunk.docTypeKwd.getD "text" == "text"

def children (pattern : Regex) (chunk : Doc α) : List (Doc α) :=
  if chunk.isText then
    ((splitTextByPattern (chunk.text.getD "") (some pattern)).filter (! isBlank ·)).map fun text =>
      { chunk with mom := some (chunk.text.getD ""), text := some text }
  else [chunk]

end Doc

def splitChunkDocsByChildren {α : Type} (chunks : List (Doc α)) : Option Regex → List (Doc α)
  | none => chunks
  | some pattern => chunks.flatMap (Doc.children pattern)

/-! ### What is kept -/

/-- The pieces are the segments of the text in their order, without the blank ones. -/
def Covers (text : String) (pieces : List String) : Prop :=
  ∃ segments : List String, String.join segments = text ∧ segments.filter (! isBlank ·) = pieces

/-- The matches at the start and directly after another match; `fresh` tells that no text
    has been read since the last match. -/
def leadingFrom : Bool → List (Char ⊕ List Char) → List String
  | _, [] => []
  | _, .inl _ :: parts => leadingFrom false parts
  | true, .inr found :: parts => String.ofList found :: leadingFrom true parts
  | false, .inr _ :: parts => leadingFrom true parts

def leading (pattern : Regex) (text : String) : List String := leadingFrom true (pattern.scan text.toList)

/-- All of them are white space. -/
def LeadingBlank (pattern : Regex) (text : String) : Prop := ∀ delimiter ∈ leading pattern text, isBlank delimiter = true

instance (pattern : Regex) (text : String) : Decidable (LeadingBlank pattern text) := by
  unfold LeadingBlank
  infer_instance

/-! ### Counting what is not blank -/

def inked (text : String) : Nat := text.toList.countP (! isPySpace ·)

@[simp] theorem inked_empty : inked "" = 0 := rfl

@[simp] theorem inked_append (s t : String) : inked (s ++ t) = inked s + inked t := by
  simp [inked]

theorem inked_eq_zero {text : String} : inked text = 0 ↔ isBlank text = true := by
  simp [inked, isBlank, countP_eq_zero]

theorem inked_join (segments : List String) :
    inked (String.join segments) = ((segments.filter (! isBlank ·)).map inked).sum := by
  induction segments with
  | nil => simp
  | cons first rest ih =>
    by_cases hblank : isBlank first = true
    · have hzero := inked_eq_zero.mpr hblank
      simp [hblank, hzero, ih]
    · simp [hblank, ih]

theorem Covers.inked_eq {text : String} {pieces : List String} (h : Covers text pieces) :
    inked text = (pieces.map inked).sum := by
  obtain ⟨segments, rfl, rfl⟩ := h
  exact inked_join segments

/-! ### The segments of a split -/

/-- The parts of `re.split`, each text with its delimiter. -/
def segments : List String → List String
  | [] => []
  | [chunk] => [chunk]
  | chunk :: delimiter :: rest => (chunk ++ delimiter) :: segments rest

def passed : List String → List String
  | [] => []
  | [_] => []
  | chunk :: delimiter :: rest => if chunk = "" then delimiter :: passed rest else passed rest

theorem join_segments (parts : List String) : String.join (segments parts) = String.join parts := by
  induction parts using segments.induct with
  | case1 => simp [segments]
  | case2 chunk => simp [segments]
  | case3 chunk delimiter rest ih => simp [segments, ih, String.append_assoc]

theorem joinDelimiters_eq_filter {parts : List String} (h : ∀ delimiter ∈ passed parts, isBlank delimiter = true) :
    joinDelimiters parts = (segments parts).filter (! isBlank ·) := by
  induction parts using segments.induct with
  | case1 => simp [joinDelimiters, segments]
  | case2 chunk =>
    by_cases hchunk : chunk = ""
    · subst hchunk
      have hblank : isBlank "" = true := rfl
      simp [joinDelimiters, segments, hblank]
    · by_cases hblank : isBlank chunk = true <;> simp [joinDelimiters, segments, hchunk, hblank]
  | case3 chunk delimiter rest ih =>
    by_cases hchunk : chunk = ""
    · have hpassed : passed (chunk :: delimiter :: rest) = delimiter :: passed rest := by simp [passed, hchunk]
      rw [hpassed, forall_mem_cons] at h
      simp [joinDelimiters, segments, hchunk, h.1, ih h.2]
    · have hpassed : passed (chunk :: delimiter :: rest) = passed rest := by simp [passed, hchunk]
      rw [hpassed] at h
      by_cases hblank : isBlank (chunk ++ delimiter) = true <;>
        simp [joinDelimiters, segments, hchunk, hblank, ih h]

theorem inked_parts (parts : List String) :
    inked (String.join parts) = ((joinDelimiters parts).map inked).sum + ((passed parts).map inked).sum := by
  induction parts using segments.induct with
  | case1 => simp [joinDelimiters, passed]
  | case2 chunk =>
    by_cases hblank : isBlank chunk = true
    · have hzero := inked_eq_zero.mpr hblank
      by_cases hchunk : chunk = "" <;> simp [joinDelimiters, passed, hchunk, hblank, hzero]
    · have hchunk : chunk ≠ "" := by
        rintro rfl
        exact hblank rfl
      simp [joinDelimiters, passed, hchunk, hblank]
  | case3 chunk delimiter rest ih =>
    by_cases hchunk : chunk = ""
    · simp [joinDelimiters, passed, hchunk, ih]
      omega
    · by_cases hblank : isBlank (chunk ++ delimiter) = true
      · have hzero := inked_eq_zero.mpr hblank
        rw [inked_append] at hzero
        have hchunkZero : inked chunk = 0 := by omega
        have hdelimiterZero : inked delimiter = 0 := by omega
        simp [joinDelimiters, passed, hchunk, hblank, ih, hchunkZero, hdelimiterZero]
      · simp [joinDelimiters, passed, hchunk, hblank, ih]
        omega

theorem covers_joinDelimiters_iff (parts : List String) :
    Covers (String.join parts) (joinDelimiters parts) ↔ ∀ delimiter ∈ passed parts, isBlank delimiter = true := by
  constructor
  · intro hcovers delimiter hdelimiter
    have hcount := hcovers.inked_eq
    rw [inked_parts] at hcount
    have hzero : ((passed parts).map inked).sum = 0 := by omega
    rw [← inked_eq_zero]
    exact List.sum_eq_zero_iff_forall_eq_nat.mp hzero _ (mem_map_of_mem hdelimiter)
  · intro hblank
    exact ⟨segments parts, join_segments parts, (joinDelimiters_eq_filter hblank).symm⟩

/-! ### The delimiters of the text -/

theorem passed_pieces (before : List Char) (parts : List (Char ⊕ List Char)) :
    passed (((pieces parts).modifyHead (before ++ ·)).map String.ofList) =
      leadingFrom (decide (before = [])) parts := by
  induction parts generalizing before with
  | nil => simp [pieces, passed, leadingFrom]
  | cons part parts ih =>
    cases part with
    | inl c =>
      have hmove : ((pieces parts).modifyHead (c :: ·)).modifyHead (before ++ ·) =
          (pieces parts).modifyHead ((before ++ [c]) ++ ·) := by
        rw [modifyHead_modifyHead]
        congr 1
        funext text
        simp
      rw [pieces, hmove, ih]
      simp [leadingFrom]
    | inr found =>
      have hrest := ih []
      have hsame : (pieces parts).modifyHead (([] : List Char) ++ ·) = pieces parts := by
        cases pieces parts <;> rfl
      rw [hsame] at hrest
      by_cases hbefore : before = []
      · subst hbefore
        simpa [pieces, passed, leadingFrom] using hrest
      · have hne : String.ofList before ≠ "" := by
          rw [Ne, ← String.toList_inj]
          simpa using hbefore
        simpa [pieces, passed, leadingFrom, hbefore, hne] using hrest

theorem passed_split (pattern : Regex) (text : String) : passed (pattern.split text) = leading pattern text := by
  have hpassed := passed_pieces [] (pattern.scan text.toList)
  have hsame : (pieces (pattern.scan text.toList)).modifyHead (([] : List Char) ++ ·) =
      pieces (pattern.scan text.toList) := by
    cases pieces (pattern.scan text.toList) <;> rfl
  rw [hsame] at hpassed
  exact hpassed

theorem covers_split_iff (pattern : Regex) (text : String) :
    Covers text (splitTextByPattern text (some pattern)) ↔ LeadingBlank pattern text := by
  have hparts := covers_joinDelimiters_iff (pattern.split text)
  rw [split_join, passed_split] at hparts
  exact hparts

variable {α : Type} (pattern : Regex) (chunk : Doc α)

theorem texts_children (h : chunk.isText = true) :
    (chunk.children pattern).map (·.text.getD "") =
      (splitTextByPattern (chunk.text.getD "") (some pattern)).filter (! isBlank ·) := by
  rw [Doc.children, if_pos h, map_map]
  exact map_id' _

theorem joinDelimiters_not_blank (parts : List String) :
    (joinDelimiters parts).filter (! isBlank ·) = joinDelimiters parts := by
  induction parts using segments.induct with
  | case1 => simp [joinDelimiters]
  | case2 chunk =>
    by_cases hchunk : chunk = ""
    · simp [joinDelimiters, hchunk]
    · by_cases hblank : isBlank chunk = true <;> simp [joinDelimiters, hchunk, hblank]
  | case3 chunk delimiter rest ih =>
    by_cases hchunk : chunk = ""
    · simp [joinDelimiters, hchunk, ih]
    · by_cases hblank : isBlank (chunk ++ delimiter) = true <;> simp [joinDelimiters, hchunk, hblank, ih]

theorem covers_children_iff (h : chunk.isText = true) :
    Covers (chunk.text.getD "") ((chunk.children pattern).map (·.text.getD "")) ↔
      LeadingBlank pattern (chunk.text.getD "") := by
  rw [texts_children pattern chunk h, ← covers_split_iff]
  rw [splitTextByPattern, joinDelimiters_not_blank]

/-- The pieces make up the text, and the children of a chunk its text, exactly where every
    delimiter at the start or directly after another one is blank. -/
theorem split_keeps_text {α : Type} {delimiters childrenDelimiters : List String} {pattern childrenPattern : Regex}
    (hpattern : compileDelimiterPattern delimiters = some pattern)
    (hchildren : compileChildrenPattern childrenDelimiters = some childrenPattern) :
    (∀ text, Covers text (splitTextByPattern text (compileDelimiterPattern delimiters)) ↔ LeadingBlank pattern text) ∧
    (∀ chunks : List (Doc α), splitChunkDocsByChildren chunks (compileChildrenPattern childrenDelimiters) =
      chunks.flatMap fun chunk => splitChunkDocsByChildren [chunk] (compileChildrenPattern childrenDelimiters)) ∧
    ∀ chunk : Doc α, chunk.isText = true →
      (Covers (chunk.text.getD "")
          ((splitChunkDocsByChildren [chunk] (compileChildrenPattern childrenDelimiters)).map (·.text.getD "")) ↔
        LeadingBlank childrenPattern (chunk.text.getD "")) := by
  rw [hpattern, hchildren]
  refine ⟨covers_split_iff pattern, ?_, ?_⟩
  · intro chunks
    simp [splitChunkDocsByChildren]
  · intro chunk htext
    simpa [splitChunkDocsByChildren] using covers_children_iff childrenPattern chunk htext

/-- Split at semicolons: the text begins with one. -/
theorem split_keeps_text_semicolon :
    Covers "a;;" (splitTextByPattern "a;;" (compileDelimiterPattern ["`;`"])) ↔
      LeadingBlank (customPattern [";"]) "a;;" := by
  have hpattern : compileDelimiterPattern ["`;`"] = some (customPattern [";"]) := rfl
  have hchildren : compileChildrenPattern [";"] = some (customPattern [";"]) := rfl
  exact (split_keeps_text (α := Unit) hpattern hchildren).1 "a;;"

/-- A semicolon at the start of the text is in no piece. -/
theorem leading_delimiter_lost :
    splitTextByPattern ";a" (compileDelimiterPattern ["`;`"]) = ["a"] ∧
      ¬ Covers ";a" (splitTextByPattern ";a" (compileDelimiterPattern ["`;`"])) := by
  have hpieces : splitTextByPattern ";a" (compileDelimiterPattern ["`;`"]) = ["a"] := by decide +kernel
  refine ⟨hpieces, ?_⟩
  intro hcovers
  have hcount := hcovers.inked_eq
  rw [hpieces] at hcount
  revert hcount
  decide +kernel

end MultiRag.TokenChunker
