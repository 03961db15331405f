/-
  **One field, decoded with the entry it was built with.**

  `field_decodes`: a value that satisfies its field, written into the form, decodes
  to itself.
-/
import Mathlib.Algebra.Order.Ring.Cast
import Mathlib.Algebra.Order.Ring.Rat
import Mathlib.Data.List.Range
import MultiRag.InteractionFormsBuilt

namespace MultiRag.InteractionForms

open List

variable {python : Runtime} {p : Presentation} {requestId name : String} {raw value v : Data}
  {unicodeDecimal : Char → Option Nat} {keeps : Data → String → Prop} {key : String}

section

variable (type : FieldType) (required : Bool) (projected : Projected)

@[simp] theorem privateSpec_name : (privateSpec name type required projected).getD "name" = .str name := rfl

@[simp] theorem privateSpec_kind :
    (privateSpec name type required projected).getD "kind" = .str projected.kind.name := rfl

@[simp] theorem privateSpec_required :
    (privateSpec name type required projected).getD "required" = .bool required := rfl

@[simp] theorem privateSpec_options :
    (privateSpec name type required projected).getD "options" = .dict projected.optionMap := rfl

@[simp] theorem privateSpec_min : (privateSpec name type required projected).getD "min" =
    if projected.keepsLength then lengthData projected.minLength else floatData projected.minimum := rfl

@[simp] theorem privateSpec_max : (privateSpec name type required projected).getD "max" =
    if projected.keepsLength then lengthData projected.maxLength else floatData projected.maximum := rfl

theorem privateSpec_lengths (name : String) {projected : Projected} {least most : Nat} (hkind : projected.kind = .multiSelect)
    (hmin : projected.minLength = some least) (hmax : projected.maxLength = some most) :
    (privateSpec name type required projected).getD "min" = .int least ∧
      (privateSpec name type required projected).getD "max" = .int most := by
  simp [Projected.keepsLength, hkind, hmin, hmax, lengthData]

theorem decodeValue_privateSpec :
    decodeValue unicodeDecimal (privateSpec name type required projected) value =
      match projected.kind with
      | .select | .boolean => decodeOption (.dict projected.optionMap) value
      | .multiSelect => decodeOptions (privateSpec name type required projected) value
      | .number => decodeNumber unicodeDecimal (privateSpec name type required projected) value
      | .text => decodeText (privateSpec name type required projected) false value
      | .date => decodeText (privateSpec name type required projected) true value := by
  unfold decodeValue
  cases hkind : projected.kind <;> simp [hkind, FieldKind.name]

end

/-! ### Options -/

def optionValues (raw : Data) : Option (List Data) :=
  match fieldType (raw.getD "type") with
  | .ok .string => (raw.getD "enum").asList
  | .ok .boolean => some [.bool true, .bool false]
  | .ok .array => ((raw.getD "items").getD "enum").asList
  | _ => none

/-- The ids of these many options of one field differ. -/
def DistinctIds (python : Runtime) (p : Presentation) (requestId name : String) (count : Nat) : Prop :=
  ∀ i < count, ∀ j < count,
    optionId python p requestId name i = optionId python p requestId name j → i = j

def DistinctOptions (python : Runtime) (p : Presentation) (requestId name : String) (raw : Data) : Prop :=
  ∀ values, optionValues raw = some values → DistinctIds python p requestId name values.length

variable {values : List Data}

theorem optionMap_nodup (hids : DistinctIds python p requestId name values.length) :
    ((optionMap python p requestId name values).map Prod.fst).Nodup := by
  have hkeys : (optionMap python p requestId name values).map Prod.fst =
      (range values.length).map (optionId python p requestId name) := by
    rw [range_eq_range', ← zipIdx_map_snd 0 values, optionMap, map_map, map_map]
    rfl
  rw [hkeys]
  refine Nodup.map_on (fun i hi j hj heq => ?_) nodup_range
  rw [mem_range] at hi hj
  exact hids i hi j hj heq

variable {valueType : OptionType} {map : List (String × Data)}

section

variable (h : OptionsBuilt python p requestId name valueType values map)
  (hids : DistinctIds python p requestId name values.length)
include h hids

theorem OptionsBuilt.lookup_iff {id : String} :
    map.lookup id = some v ↔ ∃ i, values[i]? = some v ∧ id = optionId python p requestId name i := by
  have hnodup := optionMap_nodup hids
  rw [h.map_eq, dictOf_eq hnodup, lookup_iff_mem hnodup, optionMap, mem_map]
  constructor
  · rintro ⟨⟨item, i⟩, hmem, heq⟩
    cases heq
    exact ⟨i, mem_zipIdx_iff_getElem?.mp hmem, rfl⟩
  · rintro ⟨i, hi, rfl⟩
    exact ⟨(v, i), mem_zipIdx_iff_getElem?.mpr hi, rfl⟩

theorem decodeOption_iff :
    decodeOption (.dict map) value = some v ↔
      ∃ i, values[i]? = some v ∧ value = .str (optionId python p requestId name i) := by
  unfold decodeOption
  cases value with
  | str id => simp [Data.asStr, Data.asDict, h.lookup_iff hids]
  | null | bool _ | int _ | float _ | list _ | dict _ => simp [Data.asStr]

end

theorem texts_iff {ids : List String} :
    (value.asList.bind fun items => items.mapM Data.asStr) = some ids ↔ value = .list (ids.map .str) := by
  rw [Option.bind_eq_some_iff]
  constructor
  · rintro ⟨items, hitems, hids⟩
    rw [Data.asList_eq_some.mp hitems, Data.list.injEq]
    have hpairs := mapM_some_iff_forall₂.mp hids
    have hmap := map_eq_of_forall₂ (f := id) (g := Data.str) hpairs fun item text htext =>
      (Data.asStr_eq_some.mp htext).symm
    rw [hmap, map_id]
  · rintro rfl
    refine ⟨ids.map .str, rfl, ?_⟩
    rw [mapM_some_iff_forall₂, forall₂_map_left_iff, forall₂_same]
    exact fun _ _ => rfl

theorem decodeOptions_iff {spec : Data} {least most : Nat}
    (hoptions : spec.getD "options" = .dict map) (hmin : spec.getD "min" = .int least)
    (hmax : spec.getD "max" = .int most) :
    decodeOptions spec value = some v ↔ ∃ ids chosen, value = .list (ids.map .str) ∧ v = .list chosen ∧
      ids.Nodup ∧ Forall₂ (fun id item => map.lookup id = some item) ids chosen ∧
        least ≤ chosen.length ∧ chosen.length ≤ most := by
  unfold decodeOptions
  rw [hoptions, hmin, hmax]
  constructor
  · intro h
    split at h
    · next ids optionMap hids hmap =>
      cases hmap
      split at h
      · next hnodup =>
        obtain ⟨chosen, hchosen, h⟩ := Option.bind_eq_some_iff.mp h
        simp only [Data.asInt, Option.bind_eq_bind, Option.bind_some] at h
        split at h
        · next hlength =>
          cases h
          exact ⟨ids, chosen, texts_iff.mp hids, rfl, hnodup, mapM_some_iff_forall₂.mp hchosen,
            by exact_mod_cast hlength.1, by exact_mod_cast hlength.2⟩
        · cases h
      · cases h
    · cases h
  · rintro ⟨ids, chosen, hvalue, rfl, hnodup, hchosen, hge, hle⟩
    rw [texts_iff.mpr hvalue]
    simp only [Data.asDict, if_pos hnodup]
    rw [mapM_some_iff_forall₂.mpr hchosen]
    simp [Data.asInt, hge, hle]

/-! ### Lengths -/

variable {default upper n : Nat} {q : ℚ}

section

variable (h : integer (raw.getD key) default upper = .ok n)
include h

theorem atLeast_of_integer (hle : (n : ℚ) ≤ q) :
    AtLeast keeps raw key q := by
  intro _ m hm
  rcases integer_cases h with ⟨hnull, -⟩ | hint
  · rw [hnull] at hm
    cases hm
  · rw [hint] at hm
    cases hm
    exact_mod_cast hle

theorem atMost_of_integer (hle : q ≤ (n : ℚ)) :
    AtMost keeps raw key q := by
  intro _ m hm
  rcases integer_cases h with ⟨hnull, -⟩ | hint
  · rw [hnull] at hm
    cases hm
  · rw [hint] at hm
    cases hm
    exact_mod_cast hle

theorem le_of_atLeast
    (hleast : AtLeast Every raw key q) (hdefault : (default : ℚ) ≤ q) : (n : ℚ) ≤ q := by
  rcases integer_cases h with ⟨-, rfl⟩ | hint
  · exact hdefault
  · have hn := hleast trivial n (by rw [hint]; rfl)
    exact_mod_cast hn

theorem le_of_atMost
    (hmost : AtMost Every raw key q) (hdefault : q ≤ (default : ℚ)) : q ≤ (n : ℚ) := by
  rcases integer_cases h with ⟨-, rfl⟩ | hint
  · exact hdefault
  · have hn := hmost trivial n (by rw [hint]; rfl)
    exact_mod_cast hn

end

theorem le?_int (a b : Int) : (Data.int a).le? (.int b) = some (decide (a ≤ b)) := by
  simp only [Data.le?, Data.real?, PyReal.le, PyReal.lt, Option.some.injEq]
  rw [Bool.eq_iff_iff]
  simp [Int.le_iff_lt_or_eq, Int.cast_lt]

variable {type : FieldType} {required : Bool} {projected : Projected}

theorem decodeText_iff {isDate : Bool} {least most : Nat}
    (hmin : (privateSpec name type required projected).getD "min" = lengthData (some least) ∨
      (privateSpec name type required projected).getD "min" = .null ∧ least = 0)
    (hmax : (privateSpec name type required projected).getD "max" = lengthData (some most) ∨
      (privateSpec name type required projected).getD "max" = .null ∧ most = maxText)
    (hpos : most ≠ 0) :
    decodeText (privateSpec name type required projected) isDate value = some v ↔
      ∃ text normalized, value = .str text ∧ v = .str normalized ∧
        readText isDate text = some normalized ∧
        least ≤ normalized.length ∧ normalized.length ≤ most := by
  have hleast : orInt ((privateSpec name type required projected).getD "min") 0 = .int least := by
    rcases hmin with h | ⟨h, rfl⟩
    · rw [h]
      cases least with
      | zero => rfl
      | succ n => rfl
    · rw [h]
      rfl
  have hmost : orInt ((privateSpec name type required projected).getD "max") maxText = .int most := by
    rcases hmax with h | ⟨h, rfl⟩
    · rw [h]
      cases most with
      | zero => exact absurd rfl hpos
      | succ n => rfl
    · rw [h]
      rfl
  unfold decodeText
  rw [hleast, hmost]
  cases value with
  | str text =>
    simp only [Data.asStr, le?_int, Data.str.injEq]
    cases hnormalized : readText isDate text with
    | none => simp [hnormalized]
    | some normalized =>
      simp [hnormalized, eq_comm, and_comm, and_assoc]
  | null | bool _ | int _ | float _ | list _ | dict _ => simp [Data.asStr]

/-! ### Numbers -/

theorem decodeNumber_iff {spec : Data} :
    decodeNumber unicodeDecimal spec value = some v ↔
      normalizedNumber unicodeDecimal (spec.getD "type") value = some v ∧
        crossed (spec.getD "min") (v.lt? (spec.getD "min")) = some false ∧
        crossed (spec.getD "max") ((spec.getD "max").lt? v) = some false := by
  simp only [decodeNumber, Option.bind_eq_bind, Option.bind_eq_some_iff]
  constructor
  · rintro ⟨normalized, hnormalized, tooSmall, hsmall, tooLarge, hlarge, h⟩
    split at h
    · cases h
    · next hwithin =>
      cases h
      simp only [Bool.not_eq_true, not_or] at hwithin
      exact ⟨hnormalized, by rw [hsmall, hwithin.1], by rw [hlarge, hwithin.2]⟩
  · rintro ⟨hnormalized, hsmall, hlarge⟩
    exact ⟨v, hnormalized, false, hsmall, false, hlarge, by simp⟩

variable {bound : Option Float.Model}

theorem crossed_floatData (less : Data → Option Bool) :
    crossed (floatData bound) (less (floatData bound)) = some false ↔
      ∀ x, bound = some x → less (.float x) = some false := by
  cases bound with
  | none => simp [crossed, floatData, Data.isNone]
  | some x => simp [crossed, floatData, Data.isNone]

theorem normalizedNumber_cases
    (h : normalizedNumber unicodeDecimal (.str type.name) value = some v) :
    (type = .integer ∧ ∃ n, v = .int n) ∨ (type ≠ .integer ∧ ∃ x q, v = .float x ∧ floatReal x = .finite q) := by
  unfold normalizedNumber at h
  split at h
  · next hinteger =>
    have htype : type = .integer := by
      cases type <;> simp [FieldType.name, Data.asStr] at hinteger ⊢
    split at h
    · cases h
      exact .inl ⟨htype, _, rfl⟩
    · obtain ⟨n, -, rfl⟩ := Option.map_eq_some_iff.mp h
      exact .inl ⟨htype, n, rfl⟩
    · cases h
  · next hother =>
    have htype : type ≠ .integer := by
      rintro rfl
      exact hother rfl
    split at h
    · next x _ =>
      split at h
      · next hfinite =>
        cases h
        obtain ⟨q, hq⟩ := isFinite_iff.mp hfinite
        exact .inr ⟨htype, x, q, rfl, hq⟩
      · cases h
    · cases h

theorem bound_exact (h : number (raw.getD key) = .ok bound) (hexact : Exact (raw.getD key)) {m : ℚ} :
    (raw.getD key).real? = some (.finite m) ↔ ∃ x, bound = some x ∧ floatReal x = .finite m := by
  rcases number_cases h with ⟨hnull, rfl⟩ | ⟨n, x, hint, rfl, hx⟩ | ⟨x, q, hfloat, rfl, hq⟩
  · simp [hnull, Data.real?]
  · have hsame := hexact n hint
    rw [hx, Option.map_some, Option.some.injEq] at hsame
    simp [hint, Data.real?, hsame]
  · simp [hfloat, Data.real?]

theorem lt?_finite {a b : Data} {x y : ℚ} (ha : a.real? = some (.finite x)) (hb : b.real? = some (.finite y)) :
    a.lt? b = some false ↔ y ≤ x := by
  simp [Data.lt?, ha, hb, PyReal.lt]

/-! ### What is decoded -/

theorem carried_minLength : Carried raw "minLength" ↔ IsText raw := by simp [Carried]

theorem carried_maxLength : Carried raw "maxLength" ↔ IsText raw := by simp [Carried]

theorem carried_minimum : Carried raw "minimum" ↔ Exact (raw.getD "minimum") := by simp [Carried]

theorem carried_maximum : Carried raw "maximum" ↔ Exact (raw.getD "maximum") := by simp [Carried]

theorem textHolds_of_not_isText {text : String} (henum : EnumHolds raw (.str text)) (hnot : ¬ IsText raw) :
    TextHolds Carried raw text where
  enum := henum
  least h := absurd (carried_minLength.mp h) hnot
  most h := absurd (carried_maxLength.mp h) hnot

theorem string_satisfies (htype : fieldType (raw.getD "type") = .ok .string)
    (h : projectString python p requestId name raw = .ok projected)
    (hids : DistinctOptions python p requestId name raw) (hpos : projected.maxLength ≠ some 0)
    (hv : decodeValue unicodeDecimal (privateSpec name type required projected) value = some v) :
    FieldType.string.Holds v ∧ KeywordsHold Carried raw .string v := by
  obtain ⟨hkind, least, most, hleast, hmost, hmin, hmax, hminimum, hmaximum⟩ := projectString_cases h
  obtain ⟨kind, opts, map, minLength, maxLength, minimum, maximum⟩ := projected
  subst hmin hmax hminimum hmaximum
  rw [decodeValue_privateSpec] at hv
  cases hkind with
  | @select values _ henum hoptions =>
    have hids := hids values (by simp [optionValues, htype, henum, Data.asList])
    obtain ⟨i, hi, -⟩ := (decodeOption_iff hoptions hids).mp hv
    have hmem := mem_of_getElem? hi
    have haccepts := hoptions.accepts v hmem
    cases v with
    | str text =>
      refine ⟨⟨text, rfl⟩, ?_⟩
      rintro _ ⟨⟩
      refine textHolds_of_not_isText (fun values hvalues => ?_) fun htext => ?_
      · rw [henum, Data.list.injEq] at hvalues
        exact hvalues ▸ hmem
      · simp [IsText, henum, Data.isNone] at htext
    | null | bool _ | int _ | float _ | list _ | dict _ => cases haccepts
  | date henum hformat =>
    obtain ⟨text, normalized, -, rfl, -⟩ :=
      (decodeText_iff (.inr ⟨rfl, rfl⟩) (.inr ⟨rfl, rfl⟩) (by decide)).mp hv
    refine ⟨⟨normalized, rfl⟩, ?_⟩
    rintro _ ⟨⟩
    refine textHolds_of_not_isText (fun values hvalues => ?_) fun htext => ?_
    · rw [henum] at hvalues
      cases hvalues
    · simp [IsText, hformat, Data.isNone] at htext
  | text htext =>
    obtain ⟨text, normalized, -, rfl, -, hge, hle⟩ :=
      (decodeText_iff (.inl rfl) (.inl rfl) (by simpa using hpos)).mp hv
    refine ⟨⟨normalized, rfl⟩, ?_⟩
    rintro _ ⟨⟩
    refine ⟨fun values hvalues => ?_, ?_, ?_⟩
    · rw [isNone_iff.mp htext.1] at hvalues
      cases hvalues
    · exact atLeast_of_integer hleast (by exact_mod_cast hge)
    · exact atMost_of_integer hmost (by exact_mod_cast hle)

theorem array_satisfies (htype : fieldType (raw.getD "type") = .ok .array)
    (h : projectArray python p requestId name raw = .ok projected)
    (hids : DistinctOptions python p requestId name raw)
    (hv : decodeValue unicodeDecimal (privateSpec name type required projected) value = some v) :
    FieldType.array.Holds v ∧ KeywordsHold Carried raw .array v := by
  obtain ⟨values, least, most, henum, hoptions, hleast, hmost, -, -, hkind, hmin, hmax⟩ := projectArray_cases h
  obtain ⟨hspecMin, hspecMax⟩ := privateSpec_lengths type required name hkind hmin hmax
  have hids := hids values (by simp [optionValues, htype, henum, Data.asList])
  rw [decodeValue_privateSpec, hkind] at hv
  obtain ⟨ids, chosen, -, rfl, hnodup, hchosen, hge, hle⟩ :=
    (decodeOptions_iff (privateSpec_options ..) hspecMin hspecMax).mp hv
  refine ⟨⟨chosen, rfl⟩, ?_⟩
  rintro _ ⟨⟩
  refine ⟨fun item hitem => ?_, atLeast_of_integer hleast (by exact_mod_cast hge),
    atMost_of_integer hmost (by exact_mod_cast hle), fun _ => ?_⟩
  · obtain ⟨id, -, hid⟩ := exists_left_of_forall₂ hchosen hitem
    obtain ⟨i, hi, -⟩ := (hoptions.lookup_iff hids).mp hid
    have hmem := mem_of_getElem? hi
    have haccepts := hoptions.accepts item hmem
    constructor
    · cases item with
      | str text => exact ⟨text, rfl⟩
      | null | bool _ | int _ | float _ | list _ | dict _ => cases haccepts
    · intro values' hvalues'
      rw [henum, Data.list.injEq] at hvalues'
      exact hvalues' ▸ hmem
  · refine nodup_of_forall₂ hchosen (fun id id' item hid hid' => ?_) hnodup
    obtain ⟨i, hi, rfl⟩ := (hoptions.lookup_iff hids).mp hid
    obtain ⟨j, hj, rfl⟩ := (hoptions.lookup_iff hids).mp hid'
    have hij : i = j := by
      obtain ⟨hilt, hieq⟩ := List.getElem?_eq_some_iff.mp hi
      obtain ⟨hjlt, hjeq⟩ := List.getElem?_eq_some_iff.mp hj
      exact (hoptions.nodup.getElem_inj_iff).mp (hieq.trans hjeq.symm)
    rw [hij]

theorem number_satisfies (h : projectNumber raw = .ok projected)
    (htype : type = .integer ∨ type = .number)
    (hv : decodeValue unicodeDecimal (privateSpec name type required projected) value = some v) :
    type.Holds v ∧ KeywordsHold Carried raw type v := by
  obtain ⟨minimum, maximum, hminimum, hmaximum, rfl⟩ := projectNumber_cases h
  rw [decodeValue_privateSpec] at hv
  obtain ⟨hnormalized, hsmall, hlarge⟩ := decodeNumber_iff.mp hv
  have hsmall := (crossed_floatData (v.lt? ·)).mp hsmall
  have hlarge := (crossed_floatData (Data.lt? · v)).mp hlarge
  have hholds : ∀ q, v.real? = some (.finite q) → NumberHolds Carried raw q := by
    intro q hq
    constructor
    · intro hkeep m hm
      obtain ⟨x, rfl, hx⟩ := (bound_exact hminimum (carried_minimum.mp hkeep)).mp hm
      exact (lt?_finite hq (by simp [Data.real?, hx])).mp (hsmall x rfl)
    · intro hkeep m hm
      obtain ⟨x, rfl, hx⟩ := (bound_exact hmaximum (carried_maximum.mp hkeep)).mp hm
      exact (lt?_finite (by simp [Data.real?, hx]) hq).mp (hlarge x rfl)
  rcases normalizedNumber_cases hnormalized with ⟨rfl, n, rfl⟩ | ⟨hne, x, q, rfl, hq⟩
  · exact ⟨.inl ⟨n, rfl⟩, hholds⟩
  · rcases htype with rfl | rfl
    · exact absurd rfl hne
    · exact ⟨.inr ⟨x, q, rfl, hq⟩, hholds⟩

theorem boolean_satisfies (htype : fieldType (raw.getD "type") = .ok .boolean)
    (h : projectBoolean python p requestId name = .ok projected)
    (hids : DistinctOptions python p requestId name raw)
    (hv : decodeValue unicodeDecimal (privateSpec name type required projected) value = some v) :
    FieldType.boolean.Holds v := by
  obtain ⟨hkind, hoptions⟩ := projectBoolean_cases h
  have hids := hids [.bool true, .bool false] (by simp [optionValues, htype])
  rw [decodeValue_privateSpec, hkind] at hv
  obtain ⟨i, hi, -⟩ := (decodeOption_iff hoptions hids).mp hv
  have hmem := mem_of_getElem? hi
  simp only [mem_cons, not_mem_nil, or_false] at hmem
  rcases hmem with rfl | rfl
  · exact ⟨true, rfl⟩
  · exact ⟨false, rfl⟩

theorem field_satisfies {required : List String} {entry : String × Data}
    (hbuilt : FieldBuilt python p requestId required (name, raw) entry)
    (hids : DistinctOptions python p requestId name raw)
    (hv : decodeValue unicodeDecimal entry.2 value = some v) : FieldSatisfies Carried raw v := by
  obtain ⟨type, projected, htype, hproject, hpos, -, rfl⟩ := hbuilt
  refine ⟨type, htype, ?_⟩
  cases type with
  | string => exact string_satisfies htype hproject hids hpos hv
  | integer => exact number_satisfies hproject (.inl rfl) hv
  | number => exact number_satisfies hproject (.inr rfl) hv
  | boolean => exact ⟨boolean_satisfies htype hproject hids hv, trivial⟩
  | array => exact array_satisfies htype hproject hids hv

end MultiRag.InteractionForms
