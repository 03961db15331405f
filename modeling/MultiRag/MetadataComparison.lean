/-
  **Metadata filters with comparisons** (`common/metadata_utils.py`).

  `=`, `≠`, `>`, `<`, `≥` and `≤` read literals: where the text of a stored value is one, the
  operand is read as one too, and the loop goes on with the operand that it has read.
-/
import MultiRag.DictGroups
import MultiRag.MetadataMatcher
import MultiRag.PyText

namespace MultiRag.Metadata

open Dict List

/-! ### The source -/

/-- The operators that `stream_metadata_matches` leaves to the aggregate. -/
inductive Comparison where
  | eq | ne | gt | lt | ge | le
deriving DecidableEq

structure ComparisonFilter where
  key : String
  op : Comparison
  value : Json

inductive AnyFilter where
  | listed (flt : MetaFilter)
  | comparison (flt : ComparisonFilter)

structure Literals (V : Type) where
  ofJson : Json → V
  text : V → Option String
  str : V → String
  literalEval : String → Option V
  /-- What raises does not match. -/
  compare : Comparison → V → V → Bool
  text_str : ∀ s, text (ofJson (.str s)) = some s
  str_str : ∀ s, str (ofJson (.str s)) = s

/-- The body of `valid_metadata_conditions`. -/
def ComparisonFilter.valid (flt : ComparisonFilter) : Bool :=
  match flt.value with
  | .arr items => items.all validItem
  | .float text => isFinite text
  | _ => true

def AnyFilter.valid : AnyFilter → Bool
  | .listed flt => flt.valid
  | .comparison flt => flt.valid

section

variable (lower : String → String) (isPrintable : Char → Bool) (isDigit : Char → Bool)

def isDate (text : String) : Bool :=
  match text.toList with
  | [y₁, y₂, y₃, y₄, '-', m₁, m₂, '-', d₁, d₂] => [y₁, y₂, y₃, y₄, m₁, m₂, d₁, d₂].all isDigit
  | _ => false

variable {V : Type} (py : Literals V)

def Literals.ofText (text : String) : V := py.ofJson (.str text)

def Literals.lowered (value : V) : V :=
  match py.text value with
  | some text => py.ofText (lower text)
  | none => value

/-- `ast.literal_eval(value)`; a value that it rejects stays. -/
def Literals.coerced (value : V) : V := ((py.text value).bind py.literalEval).getD value

/-- One entry of the loop: the operand that the next entry finds, and whether this one matches. -/
def compareEntry (op : Comparison) (value : V) (input : String) : V × Bool :=
  let inputStr := pyStrip input
  let valueStr := pyStrip (py.str value)
  if isDate isDigit valueStr then
    if isDate isDigit inputStr then
      (py.ofText valueStr, py.compare op (py.ofText inputStr) (py.ofText valueStr))
    else (value, false)
  else
    match py.literalEval input with
    | none =>
      let value := py.lowered lower value
      (value, py.compare op (py.lowered lower (py.ofText input)) value)
    | some literal =>
      let value := py.lowered lower (py.coerced value)
      (value, py.compare op (py.lowered lower literal) value)

/-- The loop of `filter_out`. -/
def compareLoop (op : Comparison) : V → List (String × List String) → List String
  | _, [] => []
  | value, (input, docids) :: rest =>
    let (value, matched) := compareEntry lower isDigit py op value input
    (if matched then docids else []) ++ compareLoop op value rest

def textEntries (values : List (Json × String)) : List (String × List String) :=
  (groups Prod.fst (values.map fun item => (pyStr isPrintable item.1, item.2))).map fun entry =>
    (entry.1, entry.2.map Prod.snd)

def anyFilterIds (rows : List MetadataRow) : AnyFilter → List String
  | .listed flt => filterIds lower isPrintable (aggregateMetadataRows lower isPrintable rows) flt
  | .comparison flt =>
    compareLoop lower isDigit py flt.op (py.ofJson flt.value) (textEntries isPrintable (valuesOf rows flt.key))

def metaFilterRows (rows : List MetadataRow) (filters : List AnyFilter) (logic : FilterLogic) : List String :=
  if filters.all AnyFilter.valid then matchAll logic (anyFilterIds lower isPrintable isDigit py rows) none filters
  else []

end

variable {lower : String → String} {isPrintable isDigit : Char → Bool} {V : Type} {py : Literals V}

/-- A stored value that is read after another one is compared as if it came first, and leaves
    the same operand. -/
def Undisturbed (lower : String → String) (isDigit : Char → Bool) (py : Literals V) (op : Comparison) (value : V)
    (inputs : List String) : Prop :=
  ∀ first ∈ inputs, ∀ next ∈ inputs, first ≠ next →
    compareEntry lower isDigit py op (compareEntry lower isDigit py op value first).1 next =
      compareEntry lower isDigit py op value next

variable {op : Comparison} {value : V}

theorem compareLoop_after {inputs : List String} (h : Undisturbed lower isDigit py op value inputs)
    {last : String} (hlast : last ∈ inputs) (entries : List (String × List String))
    (hentries : ∀ entry ∈ entries, entry.1 ∈ inputs)
    (hnodup : (last :: entries.map Prod.fst).Nodup) :
    compareLoop lower isDigit py op (compareEntry lower isDigit py op value last).1 entries =
      entries.flatMap fun entry => if (compareEntry lower isDigit py op value entry.1).2 then entry.2 else [] := by
  induction entries generalizing last with
  | nil => rfl
  | cons entry entries ih =>
    obtain ⟨input, docids⟩ := entry
    rw [forall_mem_cons] at hentries
    rw [map_cons, nodup_cons] at hnodup
    have hne : last ≠ input := by
      rintro rfl
      exact hnodup.1 mem_cons_self
    have hentry := h last hlast input hentries.1 hne
    rw [compareLoop, flatMap_cons, hentry]
    dsimp only
    rw [ih hentries.1 hentries.2 hnodup.2]

theorem compareLoop_eq {entries : List (String × List String)}
    (h : Undisturbed lower isDigit py op value (entries.map Prod.fst))
    (hnodup : (entries.map Prod.fst).Nodup) :
    compareLoop lower isDigit py op value entries =
      entries.flatMap fun entry => if (compareEntry lower isDigit py op value entry.1).2 then entry.2 else [] := by
  cases entries with
  | nil => rfl
  | cons entry entries =>
    obtain ⟨input, docids⟩ := entry
    have hinputs : ∀ entry ∈ entries, entry.1 ∈ ((input, docids) :: entries).map Prod.fst :=
      fun entry hentry => mem_cons_of_mem _ (mem_map_of_mem hentry)
    rw [compareLoop, flatMap_cons]
    dsimp only
    rw [compareLoop_after h mem_cons_self entries hinputs hnodup]

theorem nodup_textEntries (values : List (Json × String)) : ((textEntries isPrintable values).map Prod.fst).Nodup := by
  rw [textEntries, map_map]
  exact nodup_groups _

variable {input docId : String}

theorem mem_textEntries {values : List (Json × String)} :
    (∃ docids, (input, docids) ∈ textEntries isPrintable values ∧ docId ∈ docids) ↔
      ∃ value, (value, docId) ∈ values ∧ pyStr isPrintable value = input := by
  simp only [textEntries, mem_map]
  constructor
  · rintro ⟨docids, ⟨⟨text, members⟩, hgroup, heq⟩, hdoc⟩
    obtain ⟨rfl, rfl⟩ := Prod.mk.inj heq
    obtain ⟨member, hmember, rfl⟩ := mem_map.mp hdoc
    rw [(mem_groups.mp hgroup).2, List.mem_filter, mem_map] at hmember
    obtain ⟨⟨item, hitem, rfl⟩, htext⟩ := hmember
    exact ⟨item.1, hitem, of_decide_eq_true htext⟩
  · rintro ⟨value, hvalue, rfl⟩
    have hmember : (pyStr isPrintable value, docId) ∈
        (values.map fun item => (pyStr isPrintable item.1, item.2)).filter
          fun item => item.1 = pyStr isPrintable value := by
      rw [List.mem_filter]
      exact ⟨mem_map_of_mem (f := fun item : Json × String => (pyStr isPrintable item.1, item.2)) hvalue, by simp⟩
    refine ⟨_, ⟨(pyStr isPrintable value, _), mem_groups.mpr ⟨ne_nil_of_mem hmember, rfl⟩, rfl⟩, ?_⟩
    exact mem_map_of_mem (f := Prod.snd) hmember

def fieldTexts (isPrintable : Char → Bool) (rows : List MetadataRow) (key : String) : List String :=
  (valuesOf rows key).map fun item => pyStr isPrintable item.1

variable {rows : List MetadataRow}

theorem mem_fieldTexts {key : String}
    (h : input ∈ (textEntries isPrintable (valuesOf rows key)).map Prod.fst) :
    input ∈ fieldTexts isPrintable rows key := by
  simp only [textEntries, map_map, mem_map] at h
  obtain ⟨⟨text, members⟩, hgroup, rfl⟩ := h
  obtain ⟨hne, hmembers⟩ := mem_groups.mp hgroup
  obtain ⟨member, hmember⟩ := exists_mem_of_ne_nil members hne
  rw [hmembers, List.mem_filter, mem_map] at hmember
  obtain ⟨⟨item, hitem, rfl⟩, htext⟩ := hmember
  rw [fieldTexts, mem_map]
  exact ⟨item, hitem, of_decide_eq_true htext⟩

def DateOperand (isDigit : Char → Bool) (py : Literals V) (value : V) : Prop :=
  isDate isDigit (pyStrip (py.str value)) = true

/-- The operand is a date, or no stored value of the field disturbs the comparison of another one. -/
def AnyFilter.Steady (lower : String → String) (isPrintable isDigit : Char → Bool) (py : Literals V)
    (rows : List MetadataRow) : AnyFilter → Prop
  | .listed _ => True
  | .comparison flt => DateOperand isDigit py (py.ofJson flt.value) ∨
    Undisturbed lower isDigit py flt.op (py.ofJson flt.value) (fieldTexts isPrintable rows flt.key)

def AnyFieldMatches (lower : String → String) (isPrintable isDigit : Char → Bool) (py : Literals V)
    (row : MetadataRow) : AnyFilter → Prop
  | .listed flt => FieldMatches lower isPrintable row flt
  | .comparison flt => ∃ field, row.fields.get? flt.key = some field ∧ ∃ value ∈ expanded field,
      (compareEntry lower isDigit py flt.op (py.ofJson flt.value) (pyStr isPrintable value)).2 = true

theorem compareLoop_date (h : DateOperand isDigit py value) (entries : List (String × List String)) :
    compareLoop lower isDigit py op value entries =
      entries.flatMap fun entry => if (compareEntry lower isDigit py op value entry.1).2 then entry.2 else [] := by
  have hloop : ∀ current : V, pyStrip (py.str current) = pyStrip (py.str value) →
      compareLoop lower isDigit py op current entries =
        entries.flatMap fun entry => if (compareEntry lower isDigit py op value entry.1).2 then entry.2 else [] := by
    induction entries with
    | nil => intros; rfl
    | cons entry entries ih =>
      obtain ⟨input, docids⟩ := entry
      intro current hcur
      rw [DateOperand] at h
      rw [compareLoop, flatMap_cons]
      by_cases hdate : isDate isDigit (pyStrip input) = true
      · have hkept : pyStrip (py.str (py.ofText (pyStrip (py.str value)))) = pyStrip (py.str value) := by
          rw [Literals.ofText, py.str_str, pyStrip_pyStrip]
        simp only [compareEntry, hcur, h, hdate, if_true, ih _ hkept]
      · simp only [compareEntry, hcur, h, hdate, if_true, if_false, Bool.false_eq_true, ih current hcur]
  exact hloop value rfl

variable {flt : ComparisonFilter}

section

variable (h : (AnyFilter.comparison flt).Steady lower isPrintable isDigit py rows)
include h

theorem AnyFilter.Steady.loop :
    compareLoop lower isDigit py flt.op (py.ofJson flt.value) (textEntries isPrintable (valuesOf rows flt.key)) =
      (textEntries isPrintable (valuesOf rows flt.key)).flatMap fun entry =>
        if (compareEntry lower isDigit py flt.op (py.ofJson flt.value) entry.1).2 then entry.2 else [] := by
  rcases h with hdate | hundisturbed
  · exact compareLoop_date hdate _
  · refine compareLoop_eq ?_ (nodup_textEntries _)
    exact fun first hfirst next hnext => hundisturbed first (mem_fieldTexts hfirst) next (mem_fieldTexts hnext)

theorem mem_comparison :
    docId ∈ anyFilterIds lower isPrintable isDigit py rows (.comparison flt) ↔
      ∃ value, (value, docId) ∈ valuesOf rows flt.key ∧
        (compareEntry lower isDigit py flt.op (py.ofJson flt.value) (pyStr isPrintable value)).2 = true := by
  rw [anyFilterIds, h.loop, mem_flatMap]
  constructor
  · rintro ⟨⟨input, docids⟩, hentry, hdoc⟩
    by_cases hmatched : (compareEntry lower isDigit py flt.op (py.ofJson flt.value) input).2 = true
    · rw [if_pos hmatched] at hdoc
      obtain ⟨value, hvalue, rfl⟩ := mem_textEntries.mp ⟨docids, hentry, hdoc⟩
      exact ⟨value, hvalue, hmatched⟩
    · rw [if_neg hmatched] at hdoc
      cases hdoc
  · rintro ⟨value, hvalue, hmatched⟩
    obtain ⟨docids, hentry, hdoc⟩ := mem_textEntries.mpr ⟨value, hvalue, rfl⟩
    refine ⟨_, hentry, ?_⟩
    rw [if_pos hmatched]
    exact hdoc

end

theorem mem_anyFilterIds (hlower : ∀ text, lower (lower text) = lower text) {flt : AnyFilter}
    (h : flt.Steady lower isPrintable isDigit py rows) :
    docId ∈ anyFilterIds lower isPrintable isDigit py rows flt ↔
      ∃ row ∈ rows, row.docId = docId ∧ AnyFieldMatches lower isPrintable isDigit py row flt := by
  cases flt with
  | listed flt => exact mem_filterIds hlower
  | comparison flt =>
    rw [mem_comparison h]
    simp only [mem_valuesOf, AnyFieldMatches]
    constructor
    · rintro ⟨value, ⟨row, hrow, hid, field, hfield, hvalue⟩, hmatched⟩
      exact ⟨row, hrow, hid, field, hfield, value, hvalue, hmatched⟩
    · rintro ⟨row, hrow, hid, field, hfield, value, hvalue, hmatched⟩
      exact ⟨value, ⟨row, hrow, hid, field, hfield, hvalue⟩, hmatched⟩

theorem mem_metaFilterRows (hlower : ∀ text, lower (lower text) = lower text)
    {filters : List AnyFilter}
    (hsteady : ∀ flt ∈ filters, flt.Steady lower isPrintable isDigit py rows)
    (hfilters : filters ≠ []) {logic : FilterLogic} :
    docId ∈ metaFilterRows lower isPrintable isDigit py rows filters logic ↔
      filters.all AnyFilter.valid = true ∧ logic.holdsOf filters fun flt =>
        ∃ row ∈ rows, row.docId = docId ∧ AnyFieldMatches lower isPrintable isDigit py row flt := by
  rw [metaFilterRows]
  split
  · next hvalid =>
    rw [mem_matchAll hfilters]
    simp only [hvalid, true_and]
    cases logic with
    | and => exact forall₂_congr fun flt hflt => mem_anyFilterIds hlower (hsteady flt hflt)
    | or => exact exists_congr fun flt => and_congr_right fun hflt => mem_anyFilterIds hlower (hsteady flt hflt)
  · next hvalid => simp [hvalid]

theorem AnyFilter.Steady.mono {rows' : List MetadataRow} {flt : AnyFilter}
    (h : flt.Steady lower isPrintable isDigit py rows) (hsub : rows' ⊆ rows) :
    flt.Steady lower isPrintable isDigit py rows' := by
  cases flt with
  | listed flt => trivial
  | comparison flt =>
    have htexts : ∀ input, input ∈ fieldTexts isPrintable rows' flt.key →
        input ∈ fieldTexts isPrintable rows flt.key := by
      intro input hinput
      obtain ⟨⟨value, docId⟩, hvalue, rfl⟩ := mem_map.mp hinput
      obtain ⟨row, hrow, hfield⟩ := mem_valuesOf.mp hvalue
      exact mem_map_of_mem (f := fun item : Json × String => pyStr isPrintable item.1)
        (mem_valuesOf.mpr ⟨row, hsub hrow, hfield⟩)
    exact h.imp id fun hundisturbed first hfirst next hnext =>
      hundisturbed first (htexts first hfirst) next (htexts next hnext)

/-- The set of documents is that of every permutation of the rows, and whether a document
    belongs to it depends on its own values, where no comparison is disturbed. -/
theorem metaFilter_perm (hlower : ∀ text, lower (lower text) = lower text) {rows : List MetadataRow}
    {filters : List AnyFilter} (hsteady : ∀ flt ∈ filters, flt.Steady lower isPrintable isDigit py rows)
    (logic : FilterLogic) (docId : String) :
    (∀ rows', rows.Perm rows' →
      (docId ∈ metaFilterRows lower isPrintable isDigit py rows filters logic ↔
        docId ∈ metaFilterRows lower isPrintable isDigit py rows' filters logic)) ∧
    (docId ∈ metaFilterRows lower isPrintable isDigit py rows filters logic ↔
      docId ∈ metaFilterRows lower isPrintable isDigit py (rows.filter fun row => row.docId = docId) filters logic) := by
  by_cases hfilters : filters = []
  · subst hfilters
    simp [metaFilterRows, matchAll]
  · constructor
    · intro rows' hperm
      have hsteady' : ∀ flt ∈ filters, flt.Steady lower isPrintable isDigit py rows' :=
        fun flt hflt => (hsteady flt hflt).mono hperm.symm.subset
      rw [mem_metaFilterRows hlower hsteady hfilters, mem_metaFilterRows hlower hsteady' hfilters]
      simp only [hperm.mem_iff]
    · have hown : ∀ flt ∈ filters, flt.Steady lower isPrintable isDigit py (rows.filter fun row => row.docId = docId) :=
        fun flt hflt => (hsteady flt hflt).mono filter_sublist.subset
      rw [mem_metaFilterRows hlower hsteady hfilters, mem_metaFilterRows hlower hown hfilters]
      simp only [List.mem_filter, decide_eq_true_eq, and_assoc, and_self_left]

variable {inputs : List String}

section

variable (hdate : isDate isDigit (pyStrip (py.str value)) = false)
include hdate

theorem operand_eq (input : String) :
    (compareEntry lower isDigit py op value input).1 =
      py.lowered lower (if (py.literalEval input).isSome then py.coerced value else value) := by
  rw [compareEntry]
  simp only [hdate, Bool.false_eq_true, if_false]
  cases py.literalEval input <;> rfl

theorem undisturbed_of_kept
    (hlowered : py.lowered lower value = value)
    (hcoerced : ∀ input ∈ inputs, (py.literalEval input).isSome → py.lowered lower (py.coerced value) = value) :
    Undisturbed lower isDigit py op value inputs := by
  intro first hfirst next _ _
  have hkept : (compareEntry lower isDigit py op value first).1 = value := by
    rw [operand_eq hdate]
    split
    · next hliteral => exact hcoerced first hfirst hliteral
    · exact hlowered
  rw [hkept]

theorem undisturbed_of_text_none
    (htext : py.text value = none) : Undisturbed lower isDigit py op value inputs := by
  have hcoerced : py.coerced value = value := by simp [Literals.coerced, htext]
  have hlowered : py.lowered lower value = value := by simp [Literals.lowered, htext]
  exact undisturbed_of_kept hdate hlowered fun _ _ _ => by rw [hcoerced, hlowered]

end

theorem undisturbed_of_no_literal {text : String} (hdate : isDate isDigit (pyStrip text) = false)
    (hlower : lower text = text)
    (hliteral : py.literalEval text = none ∨ ∀ input ∈ inputs, py.literalEval input = none) :
    Undisturbed lower isDigit py op (py.ofText text) inputs := by
  have hlowered : py.lowered lower (py.ofText text) = py.ofText text := by
    simp [Literals.lowered, Literals.ofText, py.text_str, hlower]
  refine undisturbed_of_kept (by rw [Literals.ofText, py.str_str]; exact hdate) hlowered ?_
  intro input hinput hsome
  rcases hliteral with hnone | hnone
  · have hcoerced : py.coerced (py.ofText text) = py.ofText text := by
      simp [Literals.coerced, Literals.ofText, py.text_str, hnone]
    rw [hcoerced, hlowered]
  · rw [hnone input hinput] at hsome
    cases hsome

theorem undisturbed_of_literals {text : String} {literal : V} (hdate : isDate isDigit (pyStrip text) = false)
    (heval : py.literalEval text = some literal) (htext : py.text literal = none)
    (hliteralDate : isDate isDigit (pyStrip (py.str literal)) = false)
    (hliterals : ∀ input ∈ inputs, (py.literalEval input).isSome) :
    Undisturbed lower isDigit py op (py.ofText text) inputs := by
  intro first hfirst next hnext _
  have hcoerced : py.coerced (py.ofText text) = literal := by
    simp [Literals.coerced, Literals.ofText, py.text_str, heval]
  have hagain : py.coerced literal = literal := by simp [Literals.coerced, htext]
  have hlowered : py.lowered lower literal = literal := by simp [Literals.lowered, htext]
  have hdateText : isDate isDigit (pyStrip (py.str (py.ofText text))) = false := by
    rw [Literals.ofText, py.str_str]
    exact hdate
  have hafter : (compareEntry lower isDigit py op (py.ofText text) first).1 = literal := by
    rw [operand_eq hdateText, if_pos (hliterals first hfirst), hcoerced, hlowered]
  obtain ⟨found, hfound⟩ := Option.isSome_iff_exists.mp (hliterals next hnext)
  rw [hafter]
  simp only [compareEntry, hdateText, hliteralDate, Bool.false_eq_true, if_false, hfound, hcoerced, hagain, hlowered]

/-! ### A comparison that is disturbed -/

def comparisonHolds (op : Comparison) (order : Ordering) : Bool :=
  match op with
  | .eq => order == .eq
  | .ne => order != .eq
  | .gt => order == .gt
  | .lt => order == .lt
  | .ge => order != .lt
  | .le => order != .gt

def decimals : Literals Json where
  ofJson := id
  text
    | .str text => some text
    | _ => none
  str := pyStr fun _ => true
  literalEval text :=
    if text ≠ "" ∧ text.toList.all Char.isDigit then some (.int (digitsValue text.toList)) else none
  compare op
    | .int m, .int n => comparisonHolds op (compare m n)
    | .str s, .str t => comparisonHolds op (compare s t)
    | _, _ => op == .ne
  text_str := fun _ => rfl
  str_str := fun _ => rfl

def textRow : MetadataRow := ⟨"d1", "kb", .obj [("k", .str "abc")], by decide⟩

def numberRow : MetadataRow := ⟨"d2", "kb", .obj [("k", .str "7")], by decide⟩

/-- `k > "5"` -/
def aboveFive : AnyFilter := .comparison ⟨"k", .gt, .str "5"⟩

/-- `k > 5` disturbs nothing: both orders of the rows give the same documents. -/
theorem metaFilter_perm_number :
    "d2" ∈ metaFilterRows id (fun _ => true) Char.isDigit decimals [textRow, numberRow]
        [.comparison ⟨"k", .gt, .int 5⟩] .and ↔
      "d2" ∈ metaFilterRows id (fun _ => true) Char.isDigit decimals [numberRow, textRow]
        [.comparison ⟨"k", .gt, .int 5⟩] .and := by
  have hdate : isDate Char.isDigit (pyStrip (decimals.str (decimals.ofJson (.int 5)))) = false := by decide +kernel
  have hsteady : ∀ flt ∈ [AnyFilter.comparison ⟨"k", .gt, .int 5⟩],
      flt.Steady id (fun _ => true) Char.isDigit decimals [textRow, numberRow] := by
    intro flt hflt
    rw [mem_singleton.mp hflt]
    exact .inr (undisturbed_of_text_none hdate rfl)
  exact (metaFilter_perm (fun _ => rfl) hsteady .and "d2").1 _ (Perm.swap numberRow textRow [])

/-- The text is compared with the text "5" if it comes first, and with the number 5 after a number. -/
theorem comparison_order :
    metaFilterRows id (fun _ => true) Char.isDigit decimals [textRow, numberRow] [aboveFive] .and = ["d1", "d2"] ∧
      metaFilterRows id (fun _ => true) Char.isDigit decimals [numberRow, textRow] [aboveFive] .and = ["d2"] := by
  decide +kernel

end MultiRag.Metadata
