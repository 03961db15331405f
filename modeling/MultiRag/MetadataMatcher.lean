/-
  **Metadata filters over an aggregate and over a stream of rows.**

  `meta_filter` matches the index of all rows, `stream_metadata_matches` one row at a time. Both
  run the same matcher over value indexes: list membership looks at the typed keys, every other
  operator at the texts, and a negated operator asks for one value that does not match.
-/
import MultiRag.MetadataIndex

namespace MultiRag.Metadata

open List

/-! ### Filters -/

/-- `STREAMABLE_METADATA_OPERATORS` -/
inductive MetaOperator where
  | isIn | notIn | contains | notContains | startWith | endWith | empty | notEmpty
deriving DecidableEq

inductive FilterLogic where
  | and | or

structure MetaFilter where
  key : String
  op : MetaOperator
  value : Json

/-- `math.isfinite`, on the text of a float. -/
def isFinite (text : String) : Bool := text != "NaN" && text != "Infinity" && text != "-Infinity"

def validItem : Json → Bool
  | .str _ | .bool _ | .int _ => true
  | .float text => isFinite text
  | _ => false

/-- The body of `valid_metadata_conditions`. -/
def MetaFilter.valid (flt : MetaFilter) : Bool :=
  match flt.value with
  | .arr items => items.all validItem
  | value =>
      if (flt.op = .isIn ∨ flt.op = .notIn) ∧ !value.isStr then false
      else
        match value with
        | .float text => isFinite text
        | _ => true

def validMetadataConditions (filters : List MetaFilter) : Bool := filters.all MetaFilter.valid

def hasInfix (needle hay : String) : Bool := hay.toList.tails.any (needle.toList.isPrefixOf ·)

section

variable (lower : String → String) (isPrintable : Char → Bool)

def normalizeStringValues : Json → Json
  | .str text => .str (lower text)
  | .arr items => .arr (items.map fun item =>
      match item with
      | .str text => .str (lower text)
      | item => item)
  | value => value

def textMatched (op : MetaOperator) (input : String) (value : Json) : Bool :=
  match op, value with
  | .contains, .str needle => hasInfix needle input
  | .notContains, .str needle => !hasInfix needle input
  | .contains, _ | .notContains, _ => false
  | .isIn, .str hay => hasInfix input hay
  | .isIn, .obj fields => decide (input ∈ fields.map Prod.fst)
  | .notIn, .str hay => !hasInfix input hay
  | .notIn, .obj fields => decide (input ∉ fields.map Prod.fst)
  | .isIn, _ | .notIn, _ => false
  | .startWith, value => (lower (pyStr isPrintable value)).toList.isPrefixOf (lower input).toList
  | .endWith, value => (lower (pyStr isPrintable value)).toList.isSuffixOf (lower input).toList
  | .empty, _ => input == ""
  | .notEmpty, _ => input != ""

def memberHolds (op : MetaOperator) (members : List MembershipKey) (key : MembershipKey) : Bool :=
  match op with
  | .isIn => decide (key ∈ members)
  | .notIn => decide (key ∉ members)
  | _ => false

def membershipMatched (op : MetaOperator) (members : List MembershipKey) (value : Json) : Bool :=
  match value with
  | .arr items => items.all fun item => memberHolds op members (membershipKey lower item)
  | value => memberHolds op members (membershipKey lower value)

def MetaFilter.members (flt : MetaFilter) : Option (List Json) :=
  match flt.op, flt.value with
  | .isIn, .arr items => some items
  | .notIn, .arr items => some items
  | _, _ => none

/-- The loop of `filter_out` over texts; the operand is normalized again at every entry. -/
def filterTexts (op : MetaOperator) : Json → List (Sigma fun _ : String => String × List String) →
    List String
  | _, [] => []
  | value, entry :: rest =>
      let value := normalizeStringValues lower value
      (if textMatched lower isPrintable op (lower entry.2.1) value then entry.2.2 else []) ++
        filterTexts op value rest

def filterOut (flt : MetaFilter) (v2docs : MetadataValueIndex) : List String :=
  match flt.members with
  | some items =>
      v2docs.typedValues.scan (membershipMatched lower flt.op (items.map (membershipKey lower)))
  | none => filterTexts lower isPrintable flt.op flt.value v2docs.texts.entries

def filterIds (metas : Metas) (flt : MetaFilter) : List String :=
  match metas.lookup flt.key with
  | none => []
  | some v2docs => filterOut lower isPrintable flt v2docs

def matchLoop (logic : FilterLogic) (metas : Metas) : Option (List String) → List MetaFilter →
    List String
  | docIds, [] => docIds.getD []
  | none, flt :: rest => matchLoop logic metas (some (filterIds lower isPrintable metas flt)) rest
  | some docIds, flt :: rest =>
      let ids := filterIds lower isPrintable metas flt
      match logic with
      | .and =>
          let docIds := docIds.filter fun docId => decide (docId ∈ ids)
          if docIds.isEmpty then [] else matchLoop logic metas (some docIds) rest
      | .or => matchLoop logic metas (some (docIds ++ ids)) rest

def metaFilter (metas : Metas) (filters : List MetaFilter) (logic : FilterLogic) : List String :=
  if validMetadataConditions filters then matchLoop lower isPrintable logic metas none filters
  else []

def streamMetadataMatches (rows : List MetadataRow) (filters : List MetaFilter)
    (logic : FilterLogic) : List String :=
  if filters.isEmpty || !validMetadataConditions filters then []
  else
    (rows.filter fun row => !(matchLoop lower isPrintable logic
      (aggregateMetadataRows lower isPrintable [row]) none filters).isEmpty).map MetadataRow.docId

/-! ### What a row needs to match -/

def ItemMatches (flt : MetaFilter) (value : Json) : Bool :=
  match flt.members with
  | some items => membershipMatched lower flt.op (items.map (membershipKey lower)) value
  | none => textMatched lower isPrintable flt.op (lower (pyStr isPrintable value))
      (normalizeStringValues lower flt.value)

def FieldMatches (row : MetadataRow) (flt : MetaFilter) : Prop :=
  ∃ field, row.fields.get? flt.key = some field ∧
    ∃ value ∈ expanded field, ItemMatches lower isPrintable flt value = true

end

def FilterLogic.holds (logic : FilterLogic) (filters : List MetaFilter) (p : MetaFilter → Prop) :
    Prop :=
  match logic with
  | .and => ∀ flt ∈ filters, p flt
  | .or => ∃ flt ∈ filters, p flt

def RowMatches (lower : String → String) (isPrintable : Char → Bool) (logic : FilterLogic)
    (filters : List MetaFilter) (row : MetadataRow) : Prop :=
  logic.holds filters (FieldMatches lower isPrintable row)

variable {lower : String → String} {isPrintable : Char → Bool}

theorem normalizeStringValues_idem (hlower : ∀ text, lower (lower text) = lower text) (value : Json) :
    normalizeStringValues lower (normalizeStringValues lower value) =
      normalizeStringValues lower value := by
  cases value with
  | str text => simp [normalizeStringValues, hlower]
  | arr items =>
    simp only [normalizeStringValues, map_map, Json.arr.injEq, map_inj_left]
    intro item _
    cases item <;> simp [hlower]
  | _ => rfl

theorem filterTexts_eq (hlower : ∀ text, lower (lower text) = lower text) (op : MetaOperator)
    (value : Json) (entries : List (Sigma fun _ : String => String × List String)) :
    filterTexts lower isPrintable op value entries =
      entries.flatMap fun entry =>
        if textMatched lower isPrintable op (lower entry.2.1) (normalizeStringValues lower value)
        then entry.2.2 else [] := by
  induction entries generalizing value with
  | nil => rfl
  | cons entry rest ih =>
    simp only [filterTexts, ih, normalizeStringValues_idem hlower, flatMap_cons]

theorem membershipMatched_key (op : MetaOperator) (members : List MembershipKey) (value value' : Json)
    (h : membershipKey lower value = membershipKey lower value') :
    membershipMatched lower op members value = membershipMatched lower op members value' := by
  by_cases harr : ∃ items, value = .arr items
  · rw [membershipKey_arr lower h harr]
  by_cases harr' : ∃ items, value' = .arr items
  · rw [membershipKey_arr lower h.symm harr']
  · unfold membershipMatched
    split
    · next items => exact absurd ⟨items, rfl⟩ harr
    · split
      · next items => exact absurd ⟨items, rfl⟩ harr'
      · simp only [h]

variable {docId : String}

theorem mem_filterOut (hlower : ∀ text, lower (lower text) = lower text) (flt : MetaFilter)
    {items : List (Json × String)} :
    docId ∈ filterOut lower isPrintable flt (indexOf lower isPrintable items) ↔
      ∃ value, (value, docId) ∈ items ∧ ItemMatches lower isPrintable flt value = true := by
  unfold filterOut ItemMatches
  cases flt.members with
  | some members =>
    exact Buckets.mem_scan _ _ _ (membershipMatched_key flt.op (members.map (membershipKey lower)))
  | none =>
    have hscan := Buckets.mem_scan id (items.map fun item => (pyStr isPrintable item.1, item.2))
      (fun input => textMatched lower isPrintable flt.op (lower input)
        (normalizeStringValues lower flt.value)) (fun a a' h => by rw [show a = a' from h])
      (d := docId)
    rw [filterTexts_eq hlower]
    refine hscan.trans ?_
    simp only [mem_map, Prod.mk.injEq]
    constructor
    · rintro ⟨text, ⟨⟨value, _⟩, hitem, rfl, rfl⟩, htest⟩
      exact ⟨value, hitem, htest⟩
    · rintro ⟨value, hitem, htest⟩
      exact ⟨_, ⟨(value, docId), hitem, rfl, rfl⟩, htest⟩

variable {rows : List MetadataRow}

theorem mem_filterIds (hlower : ∀ text, lower (lower text) = lower text) {flt : MetaFilter} :
    docId ∈ filterIds lower isPrintable (aggregateMetadataRows lower isPrintable rows) flt ↔
      ∃ row ∈ rows, row.docId = docId ∧ FieldMatches lower isPrintable row flt := by
  have hvalues : (∃ value, (value, docId) ∈ valuesOf rows flt.key ∧
      ItemMatches lower isPrintable flt value = true) ↔
        ∃ row ∈ rows, row.docId = docId ∧ FieldMatches lower isPrintable row flt := by
    simp only [mem_valuesOf, FieldMatches]
    constructor
    · rintro ⟨value, ⟨row, hrow, hid, field, hfield, hvalue⟩, hmatch⟩
      exact ⟨row, hrow, hid, field, hfield, value, hvalue, hmatch⟩
    · rintro ⟨row, hrow, hid, field, hfield, value, hvalue, hmatch⟩
      exact ⟨value, ⟨row, hrow, hid, field, hfield, hvalue⟩, hmatch⟩
  rw [← hvalues, filterIds, lookup_aggregate]
  by_cases hnone : valuesOf rows flt.key = []
  · simp [hnone]
  · rw [if_neg hnone]
    exact mem_filterOut hlower flt

/-- The loop of `match` over filters of any kind. -/
def matchAll {α : Type} (logic : FilterLogic) (ids : α → List String) : Option (List String) → List α → List String
  | docIds, [] => docIds.getD []
  | none, flt :: rest => matchAll logic ids (some (ids flt)) rest
  | some docIds, flt :: rest =>
    match logic with
    | .and =>
      let docIds := docIds.filter fun docId => decide (docId ∈ ids flt)
      if docIds.isEmpty then [] else matchAll logic ids (some docIds) rest
    | .or => matchAll logic ids (some (docIds ++ ids flt)) rest

def FilterLogic.holdsOf {α : Type} (logic : FilterLogic) (filters : List α) (p : α → Prop) : Prop :=
  match logic with
  | .and => ∀ flt ∈ filters, p flt
  | .or => ∃ flt ∈ filters, p flt

variable {logic : FilterLogic}

theorem mem_matchAll_some {α : Type} {ids : α → List String} {filters : List α}
    {docIds : List String} :
    docId ∈ matchAll logic ids (some docIds) filters ↔
      match logic with
      | .and => docId ∈ docIds ∧ ∀ flt ∈ filters, docId ∈ ids flt
      | .or => docId ∈ docIds ∨ ∃ flt ∈ filters, docId ∈ ids flt := by
  induction filters generalizing docIds with
  | nil => cases logic <;> simp [matchAll]
  | cons flt rest ih =>
    cases logic with
    | and =>
      simp only [matchAll, forall_mem_cons]
      split
      · next hempty =>
        rw [List.isEmpty_iff, filter_eq_nil_iff] at hempty
        simp only [decide_eq_true_eq] at hempty
        constructor
        · exact nofun
        · rintro ⟨hmem, hfirst, -⟩
          exact absurd hfirst (hempty docId hmem)
      · rw [ih]
        simp [and_assoc]
    | or =>
      simp only [matchAll, ih, mem_append, exists_mem_cons_iff, or_assoc]

theorem mem_matchAll {α : Type} {ids : α → List String} {filters : List α}
    (hfilters : filters ≠ []) :
    docId ∈ matchAll logic ids none filters ↔ logic.holdsOf filters fun flt => docId ∈ ids flt := by
  cases filters with
  | nil => exact absurd rfl hfilters
  | cons flt rest =>
    rw [matchAll, mem_matchAll_some]
    cases logic <;> simp [FilterLogic.holdsOf]

theorem matchLoop_eq_matchAll (logic : FilterLogic) (metas : Metas) (docIds : Option (List String))
    (filters : List MetaFilter) :
    matchLoop lower isPrintable logic metas docIds filters =
      matchAll logic (filterIds lower isPrintable metas) docIds filters := by
  induction filters generalizing docIds with
  | nil => cases docIds <;> rfl
  | cons flt rest ih =>
    cases docIds with
    | none => simp only [matchLoop, matchAll, ih]
    | some docIds => cases logic <;> simp only [matchLoop, matchAll, ih]

variable {filters : List MetaFilter}

theorem mem_matchLoop {metas : Metas} (hfilters : filters ≠ []) :
    docId ∈ matchLoop lower isPrintable logic metas none filters ↔
      logic.holds filters fun flt => docId ∈ filterIds lower isPrintable metas flt := by
  rw [matchLoop_eq_matchAll, mem_matchAll hfilters]
  cases logic <;> rfl

def DistinctDocs (rows : List MetadataRow) : Prop := (rows.map MetadataRow.docId).Nodup

section

variable (hlower : ∀ text, lower (lower text) = lower text)
include hlower

theorem mem_metaFilter
    (hrows : DistinctDocs rows) (hfilters : filters ≠ []) :
    docId ∈ metaFilter lower isPrintable (aggregateMetadataRows lower isPrintable rows) filters logic ↔
      validMetadataConditions filters = true ∧
        ∃ row ∈ rows, row.docId = docId ∧ RowMatches lower isPrintable logic filters row := by
  unfold metaFilter
  split
  · next hvalid =>
    rw [mem_matchLoop hfilters]
    simp only [hvalid, true_and, RowMatches]
    cases logic with
    | or =>
      simp only [FilterLogic.holds, mem_filterIds hlower]
      constructor
      · rintro ⟨flt, hflt, row, hrow, hid, hmatch⟩
        exact ⟨row, hrow, hid, flt, hflt, hmatch⟩
      · rintro ⟨row, hrow, hid, flt, hflt, hmatch⟩
        exact ⟨flt, hflt, row, hrow, hid, hmatch⟩
    | and =>
      simp only [FilterLogic.holds, mem_filterIds hlower]
      constructor
      · intro hall
        obtain ⟨first, hfirst⟩ := exists_mem_of_ne_nil filters hfilters
        obtain ⟨row, hrow, hid, -⟩ := hall first hfirst
        refine ⟨row, hrow, hid, fun flt hflt => ?_⟩
        obtain ⟨row', hrow', hid', hmatch⟩ := hall flt hflt
        rwa [inj_on_of_nodup_map hrows hrow hrow' (hid.trans hid'.symm)]
      · rintro ⟨row, hrow, hid, hall⟩ flt hflt
        exact ⟨row, hrow, hid, hall flt hflt⟩
  · next hvalid => simp [hvalid]

theorem mem_streamMetadataMatches
    (hfilters : filters ≠ []) :
    docId ∈ streamMetadataMatches lower isPrintable rows filters logic ↔
      validMetadataConditions filters = true ∧
        ∃ row ∈ rows, row.docId = docId ∧ RowMatches lower isPrintable logic filters row := by
  have hone : ∀ row : MetadataRow, (matchLoop lower isPrintable logic
      (aggregateMetadataRows lower isPrintable [row]) none filters).isEmpty = false ↔
        RowMatches lower isPrintable logic filters row := by
    intro row
    rw [isEmpty_eq_false_iff_exists_mem]
    simp only [mem_matchLoop hfilters, mem_filterIds hlower, mem_singleton, exists_eq_left,
      RowMatches]
    cases logic with
    | or =>
      constructor
      · rintro ⟨docId, flt, hflt, -, hmatch⟩
        exact ⟨flt, hflt, hmatch⟩
      · rintro ⟨flt, hflt, hmatch⟩
        exact ⟨row.docId, flt, hflt, rfl, hmatch⟩
    | and =>
      constructor
      · rintro ⟨docId, hall⟩ flt hflt
        exact (hall flt hflt).2
      · intro hall
        exact ⟨row.docId, fun flt hflt => ⟨rfl, hall flt hflt⟩⟩
  unfold streamMetadataMatches
  cases hvalid : validMetadataConditions filters with
  | false => simp
  | true =>
    have hne : filters.isEmpty = false := by simpa using hfilters
    simp only [hne, Bool.not_true, Bool.or_self, Bool.false_eq_true, if_false, mem_map,
      List.mem_filter, Bool.not_eq_true', hone, true_and]
    constructor
    · rintro ⟨row, ⟨hrow, hmatch⟩, hid⟩
      exact ⟨row, hrow, hid, hmatch⟩
    · rintro ⟨row, hrow, hid, hmatch⟩
      exact ⟨row, ⟨hrow, hmatch⟩, hid⟩

theorem stream_eq_metaFilter
    (hrows : DistinctDocs rows) (hfilters : filters ≠ []) (docId : String) :
    docId ∈ streamMetadataMatches lower isPrintable rows filters logic ↔
      docId ∈ metaFilter lower isPrintable (aggregateMetadataRows lower isPrintable rows) filters
        logic :=
  (mem_streamMetadataMatches hlower hfilters).trans (mem_metaFilter hlower hrows hfilters).symm

end

end MultiRag.Metadata
