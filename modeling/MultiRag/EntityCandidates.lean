/-
  **Candidate pairs and answers of entity resolution** (`core/graphrag/entity_resolution.py`).

  The nodes of a type are compared pairwise, in batches of a hundred, and the model answers each
  question of a batch under its number.
-/
import Mathlib.Data.Finset.Dedup
import MultiRag.EntityMerging
import MultiRag.PyNumerals
import MultiRag.Regex

namespace MultiRag.GraphRag

open List

/-! ### Names -/

/-- All `s[i : i + 2]` -/
def twoGrams : List Char → List (Char × Char)
  | a :: b :: rest => (a, b) :: twoGrams (b :: rest)
  | _ => []

/-- `[...]` of `is_english`, without white space, which is stripped before the match. -/
def isEnglishChar (c : Char) : Bool :=
  ('a' ≤ c && c ≤ 'z') || ('A' ≤ c && c ≤ 'Z') || ('0' ≤ c && c ≤ '9') ||
    (Char.ofNat 96 :: ".,':;/\"?<>!()-".toList).contains c

/-- `is_english`: more than four fifths of the characters are. -/
def isEnglish (text : String) : Bool :=
  4 * text.length < 5 * (text.toList.filter isEnglishChar).length

variable (isDigit : Char → Bool) (editDistance : String → String → Nat)

def hasDigitIn2gramDiff (a b : String) : Bool :=
  let setA := twoGrams a.toList
  let setB := twoGrams b.toList
  (setA.filter (! setB.contains ·) ++ setB.filter (! setA.contains ·)).any fun pair =>
    isDigit pair.1 || isDigit pair.2

def isSimilarity (a b : String) : Bool :=
  if hasDigitIn2gramDiff isDigit a b then false
  else if isEnglish a && isEnglish b then decide (editDistance a b ≤ min a.length b.length / 2)
  else
    let setA := a.toList.dedup
    let setB := b.toList.dedup
    let common := (setA.filter setB.contains).length
    let maxL := max setA.length setB.length
    if maxL < 4 then decide (1 < common) else decide (4 * maxL ≤ 5 * common)

/-! ### Batches -/

abbrev Batch := String × List (String × String)

/-- `get("entity_type", "-")`; a type that is no text is refused. -/
def Attrs.entityType (attrs : Attrs) : Option String :=
  match attrs.field? "entity_type" with
  | none => some "-"
  | some (.str entityType) => some entityType
  | some _ => none

def Graph.typedNodes (g : Graph) : Option (List (String × String)) :=
  (sortedSet (g.nodes.rows.map Prod.fst)).mapM fun node =>
    ((g.nodeData node).bind Attrs.entityType).map fun entityType => (entityType, node)

def combinations : List String → List (String × String)
  | [] => []
  | node :: rest => rest.map (fun other => (node, other)) ++ combinations rest

def slices {α : Type} (size : Nat) (items : List α) : List (List α) :=
  (range ((items.length + size - 1) / size)).map fun i => (items.drop (i * size)).take size

/-- What entity resolution takes as given: `str.isdigit`, the decimal digits of Unicode,
    `editdistance.eval`, the fingerprint of a batch, what the model answers to it, and the
    delimiters. -/
structure Resolver where
  isDigit : Char → Bool
  unicodeDecimal : Char → Option Nat
  editDistance : String → String → Nat
  /-- `resolution_checkpoint_key` -/
  fingerprint : Batch → String
  chat : Batch → Except String String
  recordDelimiter : String
  entityIndexDelimiter : String
  resolutionResultDelimiter : String

namespace Resolver

variable (R : Resolver)

def candidates (subgraphNodes nodes : List String) : List (String × String) :=
  (combinations nodes).filter fun pair =>
    (subgraphNodes.contains pair.1 || subgraphNodes.contains pair.2) && isSimilarity R.isDigit R.editDistance pair.1 pair.2

def resolutionBatchSize : Nat := 100

/-- The batches of `EntityResolution.__call__`; `none` is an exception. -/
def batches (g : Graph) (subgraphNodes : List String) : Option (List Batch) :=
  g.typedNodes.map fun typed =>
    (sortedSet (typed.map Prod.fst)).flatMap fun entityType =>
      let nodes := (typed.filter fun node => node.1 = entityType).map Prod.snd
      (slices resolutionBatchSize (R.candidates subgraphNodes nodes)).map fun pairs => (entityType, pairs)

/-! ### Answers -/

/-- `re.findall` of a run of such characters between two delimiters: the runs. -/
def findGroup (delimiter : String) (accepts : Char → Bool) (record : String) : List (List Char) :=
  ((Regex.seq (Regex.lit delimiter) (Regex.seq (Regex.plus (Regex.one accepts)) (Regex.lit delimiter))).findAll
    record).map fun found => (found.toList.drop delimiter.length).take (found.length - 2 * delimiter.length)

def fields : List (Char ⊕ List Char) → List (List Char)
  | [] => [[]]
  | .inl c :: rest => (fields rest).modifyHead (c :: ·)
  | .inr _ :: rest => [] :: fields rest

def splitText (delimiter text : String) : List String :=
  (fields ((Regex.lit delimiter).scan text.toList)).map String.ofList

def isLetter (c : Char) : Bool := ('a' ≤ c && c ≤ 'z') || ('A' ≤ c && c ≤ 'Z')

/-- `int(...)` of decimal digits; Python refuses more than 4300. -/
def intOfDigits (digits : List Char) : Except String Nat :=
  if 4300 < digits.length then
    .error ("Exceeds the limit (4300 digits) for integer string conversion: value has " ++ toString digits.length ++
      " digits; use sys.set_int_max_str_digits() to increase the limit")
  else .ok (digitsValue (digits.filterMap (decimalDigit R.unicodeDecimal)))

def readRecord (recordsLength : Nat) (answers : List (Nat × String)) (record : String) :
    Except String (List (Nat × String)) :=
  match findGroup R.entityIndexDelimiter (fun c => (decimalDigit R.unicodeDecimal c).isSome) record,
    findGroup R.resolutionResultDelimiter isLetter record with
  | [], [] => .ok answers
  | [digits], [choice] =>
    match R.intOfDigits digits with
    | .error message => .error message
    | .ok index =>
      let answer := String.ofList (choice.map Char.toLower)
      if 1 ≤ index ∧ index ≤ recordsLength ∧ index ∉ answers.map Prod.fst ∧ (answer = "yes" ∨ answer = "no") then
        .ok (answers ++ [(index, answer)])
      else .error "Invalid entity resolution response"
  | _, _ => .error "Invalid entity resolution response"

def processResults (recordsLength : Nat) (results : String) : Except String (List (Nat × String)) :=
  match (splitText R.recordDelimiter results).foldlM (R.readRecord recordsLength) [] with
  | .error message => .error message
  | .ok answers =>
    if (answers.map Prod.fst).toFinset = (List.range' 1 recordsLength).toFinset then
      .ok (answers.filter fun answer => answer.2 = "yes")
    else .error "Incomplete entity resolution response"

def selectPairs (pairs : List (String × String)) (result : List (Nat × String)) : Except String (List (String × String)) :=
  result.mapM fun answer =>
    match pairs[answer.1 - 1]? with
    | some pair => .ok pair
    | none => .error "list index out of range"

def resolveCandidate (batch : Batch) : Except String (List (String × String)) :=
  match R.chat batch with
  | .error message => .error message
  | .ok response =>
    match R.processResults batch.2.length response with
    | .error message => .error message
    | .ok result => selectPairs batch.2 result

/-! ### One answer for every question -/

/-- Answers to different questions of a batch. -/
structure Answers (recordsLength : Nat) (answers : List (Nat × String)) : Prop where
  nodup : (answers.map Prod.fst).Nodup
  inRange : ∀ answer ∈ answers, 1 ≤ answer.1 ∧ answer.1 ≤ recordsLength
  yesOrNo : ∀ answer ∈ answers, answer.2 = "yes" ∨ answer.2 = "no"

theorem answers_nil (recordsLength : Nat) : Answers recordsLength [] :=
  ⟨nodup_nil, by simp, by simp⟩

variable {R : Resolver} {recordsLength : Nat}

theorem readRecord_answers {answers answers' : List (Nat × String)} {record : String}
    (hanswers : Answers recordsLength answers) (h : R.readRecord recordsLength answers record = .ok answers') :
    Answers recordsLength answers' := by
  rw [readRecord] at h
  split at h
  · obtain rfl := Except.ok.inj h
    exact hanswers
  · split at h
    · cases h
    · next index _ =>
      dsimp only at h
      split at h
      · next hvalid =>
        obtain ⟨hlow, hhigh, hnew, hanswer⟩ := hvalid
        obtain rfl := Except.ok.inj h
        refine ⟨?_, ?_, ?_⟩
        · rw [map_append, nodup_append']
          refine ⟨hanswers.nodup, nodup_singleton _, ?_⟩
          intro other hother hin
          rw [map_singleton, mem_singleton] at hin
          rw [hin] at hother
          exact hnew hother
        · rw [forall_mem_append, forall_mem_singleton]
          exact ⟨hanswers.inRange, hlow, hhigh⟩
        · rw [forall_mem_append, forall_mem_singleton]
          exact ⟨hanswers.yesOrNo, hanswer⟩
      · cases h
  · cases h

theorem foldlM_readRecord_answers {records : List String} {answers answers' : List (Nat × String)}
    (hanswers : Answers recordsLength answers)
    (h : records.foldlM (R.readRecord recordsLength) answers = .ok answers') : Answers recordsLength answers' := by
  induction records generalizing answers with
  | nil =>
    obtain rfl := Except.ok.inj h
    exact hanswers
  | cons record records ih =>
    rw [foldlM_cons] at h
    rcases hstep : R.readRecord recordsLength answers record with message | next
    · rw [hstep] at h
      cases h
    · rw [hstep] at h
      exact ih (readRecord_answers hanswers hstep) h

variable {result : List (Nat × String)}

theorem processResults_answers {results : String}
    (h : R.processResults recordsLength results = .ok result) :
    ∃ answers, Answers recordsLength answers ∧ (∀ index, 1 ≤ index → index ≤ recordsLength → index ∈ answers.map Prod.fst) ∧
      result = answers.filter fun answer => answer.2 = "yes" := by
  rw [processResults] at h
  split at h
  · cases h
  · next answers hread =>
    split at h
    · next hcomplete =>
      refine ⟨answers, foldlM_readRecord_answers (answers_nil recordsLength) hread, ?_, (Except.ok.inj h).symm⟩
      intro index hlow hhigh
      rw [← mem_toFinset, hcomplete, mem_toFinset, mem_range'_1]
      omega
    · cases h

theorem selectPairs_ok {pairs : List (String × String)}
    (h : ∀ answer ∈ result, 1 ≤ answer.1 ∧ answer.1 ≤ pairs.length) :
    ∃ selected, selectPairs pairs result = .ok selected ∧ selected ⊆ pairs := by
  rw [selectPairs]
  induction result with
  | nil => exact ⟨[], rfl, nil_subset _⟩
  | cons answer result ih =>
    rw [forall_mem_cons] at h
    obtain ⟨selected, hsel, hsubset⟩ := ih h.2
    have hlt : answer.1 - 1 < pairs.length := by omega
    refine ⟨pairs[answer.1 - 1] :: selected, ?_, cons_subset.mpr ⟨getElem_mem hlt, hsubset⟩⟩
    rw [mapM_cons, hsel, getElem?_eq_getElem hlt]
    rfl

theorem resolveCandidate_subset {batch : Batch} {selected : List (String × String)}
    (h : R.resolveCandidate batch = .ok selected) : selected ⊆ batch.2 := by
  rw [resolveCandidate] at h
  split at h
  · cases h
  · split at h
    · cases h
    · next result hresult =>
      obtain ⟨answers, hanswers, -, rfl⟩ := processResults_answers hresult
      have hrange : ∀ answer ∈ answers.filter (fun answer => answer.2 = "yes"),
          1 ≤ answer.1 ∧ answer.1 ≤ batch.2.length :=
        fun answer hanswer => hanswers.inRange answer (mem_of_mem_filter hanswer)
      obtain ⟨selected', hsel, hsubset⟩ := selectPairs_ok hrange
      rw [hsel] at h
      obtain rfl := Except.ok.inj h
      exact hsubset

end Resolver

end MultiRag.GraphRag
