/-
  **Document metadata and its value indexes.**

  `aggregate_metadata_rows` turns the metadata of documents into one value index per field. An
  index is kept twice: by the text of a value, and by a typed key that tells numbers, booleans and
  text apart and folds the case of text (`lower` is `str.lower`).
-/
import Mathlib.Algebra.Group.Nat.Defs
import Mathlib.Data.Nat.Log
import MultiRag.Buckets
import MultiRag.PyValue

namespace MultiRag.Metadata

open List

/-! ### Keys -/

/-- `_membership_key(value)`.  The `repr` of a value that is neither text, boolean nor
    number stands only for that value. -/
inductive MembershipKey where
  | string (text : String)
  | boolean (b : Bool)
  | integer (n : Int)
  | float (text : String)
  | other (value : Json)
deriving DecidableEq

def roundDouble (n : Nat) : Nat :=
  if n < 2 ^ 53 then n
  else
    let unit := 2 ^ (Nat.log2 n - 52)
    if 2 * (n % unit) < unit ∨ (2 * (n % unit) = unit ∧ n / unit % 2 = 0) then n / unit * unit
    else (n / unit + 1) * unit

def digitsValue (text : List Char) : Nat :=
  text.foldl (fun n c => if c.isDigit then 10 * n + (c.toNat - '0'.toNat) else n) 0

/-- The integer a float is equal to; `none` when it has a fraction.  The text is the
    `repr`: an optional sign, digits with an optional point, an optional exponent. -/
def floatInt (text : String) : Option Int :=
  let chars := text.toList
  let mantissa := chars.takeWhile (fun c => c != 'e')
  let exponent := (chars.dropWhile (fun c => c != 'e')).drop 1
  let fraction := ((mantissa.dropWhile (fun c => c != '.')).drop 1).length
  let digits := digitsValue mantissa
  let shift : Int := (if exponent.contains '-' then -(digitsValue exponent : Int)
    else digitsValue exponent) - fraction
  let magnitude : Option Nat :=
    if 0 ≤ shift then some (digits * 10 ^ shift.toNat)
    else if digits % 10 ^ (-shift).toNat = 0 then some (digits / 10 ^ (-shift).toNat)
    else none
  magnitude.map fun n =>
    if chars.contains '-' && mantissa.contains '-' then -(roundDouble n : Int) else roundDouble n

def numberKey (text : String) : MembershipKey :=
  match floatInt text with
  | some n => .integer n
  | none => .float text

variable (lower : String → String)

def membershipKey : Json → MembershipKey
  | .str text => .string (lower text)
  | .bool b => .boolean b
  | .int n => .integer n
  | .float text => numberKey text
  | value => .other value

variable {value : Json}

theorem membershipKey_arr {value' : Json} (h : membershipKey lower value = membershipKey lower value')
    (harr : ∃ items, value = .arr items) : value' = value := by
  obtain ⟨items, rfl⟩ := harr
  cases value' with
  | float text =>
    simp only [membershipKey, numberKey] at h
    split at h
    · cases h
    · cases h
  | _ => simp_all [membershipKey]

/-! ### `MetadataValueIndex` -/

structure MetadataValueIndex where
  /-- The dictionary itself: documents by the text of the value. -/
  texts : Buckets String String String
  /-- `_typed_values` -/
  typedValues : Buckets MembershipKey Json String

structure MetadataRow where
  docId : String
  kbId : String
  fields : Json
  /-- A dictionary has a key once. -/
  distinct : fields.keys.Nodup

variable (isPrintable : Char → Bool)

def MetadataValueIndex.empty : MetadataValueIndex := ⟨∅, ∅⟩

def MetadataValueIndex.add (index : MetadataValueIndex) (value : Json) (docId : String) :
    MetadataValueIndex where
  texts := index.texts.add id (pyStr isPrintable value) docId
  typedValues := index.typedValues.add (membershipKey lower) value docId

abbrev Metas := AList fun _ : String => MetadataValueIndex

/-- `value if isinstance(value, list) else [value]`, without what is `None`. -/
def expanded (value : Json) : List Json :=
  (match value with
    | .arr items => items
    | value => [value]).filter fun item => decide (item ≠ Json.null)

/-- What the loops of `aggregate_metadata_rows` visit: field, value and document. -/
def cells (rows : List MetadataRow) : List (String × Json × String) :=
  rows.flatMap fun row =>
    match row.fields with
    | .obj fields => fields.flatMap fun field =>
        (expanded field.2).map fun item => (field.1, item, row.docId)
    | _ => []

def addCell (metas : Metas) (cell : String × Json × String) : Metas :=
  metas.insert cell.1
    (((metas.lookup cell.1).getD MetadataValueIndex.empty).add lower isPrintable cell.2.1 cell.2.2)

def aggregateMetadataRows (rows : List MetadataRow) : Metas :=
  (cells rows).foldl (addCell lower isPrintable) ∅

def valuesOf (rows : List MetadataRow) (key : String) : List (Json × String) :=
  (cells rows).filterMap fun cell => if cell.1 = key then some cell.2 else none

def indexOf (items : List (Json × String)) : MetadataValueIndex where
  texts := Buckets.addAll id (items.map fun item => (pyStr isPrintable item.1, item.2))
  typedValues := Buckets.addAll (membershipKey lower) items

theorem indexOf_snoc (items : List (Json × String)) (value : Json) (docId : String) :
    indexOf lower isPrintable (items ++ [(value, docId)]) =
      (indexOf lower isPrintable items).add lower isPrintable value docId := by
  simp [indexOf, MetadataValueIndex.add, Buckets.addAll]

theorem lookup_aggregate (rows : List MetadataRow) (key : String) :
    (aggregateMetadataRows lower isPrintable rows).lookup key =
      if valuesOf rows key = [] then none
      else some (indexOf lower isPrintable (valuesOf rows key)) := by
  unfold aggregateMetadataRows valuesOf
  induction cells rows using reverseRecOn with
  | nil => simp
  | append_singleton before cell ih =>
    obtain ⟨name, value, docId⟩ := cell
    rw [foldl_append, foldl_cons, foldl_nil, addCell, filterMap_append]
    by_cases hname : name = key
    · subst hname
      rw [AList.lookup_insert, ih]
      simp only [filterMap_cons, filterMap_nil, if_true, append_eq_nil_iff,
        cons_ne_nil, and_false, if_false, indexOf_snoc]
      split
      · next hnone =>
        rw [hnone]
        rfl
      · rfl
    · have hnone : List.filterMap (fun cell : String × Json × String =>
          if cell.1 = key then some cell.2 else none) [(name, value, docId)] = [] := by
        simp [hname]
      rw [AList.lookup_insert_ne (Ne.symm hname), ih, hnone, append_nil]

/-! ### Values of one document -/

variable {rows : List MetadataRow}

theorem mem_cells {key docId : String} :
    (key, value, docId) ∈ cells rows ↔
      ∃ row ∈ rows, row.docId = docId ∧ ∃ field, row.fields.get? key = some field ∧
        value ∈ expanded field := by
  simp only [cells, mem_flatMap]
  refine exists_congr fun row => and_congr_right fun _ => ?_
  have hdist := row.distinct
  cases hrow : row.fields with
  | obj fields =>
    rw [hrow] at hdist
    simp only [mem_flatMap, mem_map, Prod.mk.injEq, Json.get?_obj hdist]
    constructor
    · rintro ⟨⟨name, field⟩, hfield, item, hitem, rfl, rfl, rfl⟩
      exact ⟨rfl, field, hfield, hitem⟩
    · rintro ⟨rfl, field, hfield, hvalue⟩
      exact ⟨(key, field), hfield, value, hvalue, rfl, rfl, rfl⟩
  | _ => simp [Json.get?]

theorem mem_valuesOf {key docId : String} :
    (value, docId) ∈ valuesOf rows key ↔
      ∃ row ∈ rows, row.docId = docId ∧ ∃ field, row.fields.get? key = some field ∧
        value ∈ expanded field := by
  rw [← mem_cells]
  simp only [valuesOf, mem_filterMap]
  constructor
  · rintro ⟨⟨name, cell⟩, hcell, hkey⟩
    split at hkey
    · next hname =>
      simp only [Option.some.injEq] at hkey
      exact hname ▸ hkey ▸ hcell
    · cases hkey
  · intro hcell
    exact ⟨(key, value, docId), hcell, by simp⟩

end MultiRag.Metadata
