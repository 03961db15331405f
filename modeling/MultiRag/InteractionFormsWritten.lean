/-
  **Contents written into a form.**

  A value is written as it is, or as the ids of its options.
-/
import Mathlib.Data.List.Perm.Subperm
import MultiRag.InteractionFormsFields

namespace MultiRag.InteractionForms

variable {python : Runtime} {p : Presentation} {requestId name : String} {raw v w : Data}
  {unicodeDecimal : Char → Option Nat}

def IsOption (python : Runtime) (p : Presentation) (requestId name : String) (values : List Data) (v : Data)
    (id : String) : Prop :=
  ∃ i, values[i]? = some v ∧ id = optionId python p requestId name i

inductive Written (python : Runtime) (p : Presentation) (requestId name : String) (raw : Data) : Data → Data → Prop
  | asIs {v : Data} (hvalues : optionValues raw = none) : Written python p requestId name raw v v
  | option {values : List Data} {v : Data} {id : String} (hvalues : optionValues raw = some values)
      (hid : IsOption python p requestId name values v id) : Written python p requestId name raw v (.str id)
  | options {values items : List Data} {ids : List String} (hvalues : optionValues raw = some values)
      (hids : List.Forall₂ (IsOption python p requestId name values) items ids) :
      Written python p requestId name raw (.list items) (.list (ids.map .str))

/-- What the form can hold: texts that are not empty and not too long, dates of the calendar,
    integers that are integers and numbers that are floats, items that differ. -/
structure Writable (raw v : Data) : Prop where
  text : IsText raw → ∀ text, v = .str text → text ≠ "" ∧ text.length ≤ maxText
  date : (raw.getD "enum").isNone = true → raw.getD "format" = .str "date" → ∀ text, v = .str text →
    isDateShape text.toList = true ∧ isCalendarDate text.toList = true
  integer : fieldType (raw.getD "type") = .ok .integer → ∃ n, v = .int n
  number : fieldType (raw.getD "type") = .ok .number → Exact v
  minimum : Exact (raw.getD "minimum")
  maximum : Exact (raw.getD "maximum")
  items : ∀ items, v = .list items → items.Nodup

/-- The decoded value equals the one that was written. -/
def Same (decoded v : Data) : Prop :=
  decoded = v ∨ ∃ n x, v = .int n ∧ decoded = .float x ∧ floatReal x = .finite n

/-- The form holds an answer there. -/
def Answered (w : Data) : Prop := w ≠ .null ∧ w ≠ .str ""

theorem answered_optionId (i : Nat) : Answered (.str (optionId python p requestId name i)) := by
  refine ⟨nofun, fun h => ?_⟩
  rw [Data.str.injEq, optionId, opaqueId, String.append_eq_empty_iff, String.append_eq_empty_iff] at h
  exact absurd h.1.1 (by decide)

theorem exact_real {n : Int} (h : Exact (.int n)) : ∃ x, floatOfInt n = some x ∧ floatReal x = .finite n := by
  have hn := h n rfl
  rw [Option.map_eq_some_iff] at hn
  exact hn

variable {projected : Projected} {required : Bool}

theorem string_decodes (htype : fieldType (raw.getD "type") = .ok .string)
    (h : projectString python p requestId name raw = .ok projected)
    (hids : DistinctOptions python p requestId name raw) (hpos : projected.maxLength ≠ some 0)
    (hholds : FieldType.string.Holds v) (hkws : KeywordsHold Every raw .string v)
    (hwritable : Writable raw v) (hwritten : Written python p requestId name raw v w) :
    Answered w ∧ decodeValue unicodeDecimal (privateSpec name .string required projected) w = some v := by
  obtain ⟨hkind, least, most, hleast, hmost, hmin, hmax, hminimum, hmaximum⟩ := projectString_cases h
  obtain ⟨kind, opts, map, minLength, maxLength, minimum, maximum⟩ := projected
  subst hmin hmax hminimum hmaximum
  rw [decodeValue_privateSpec]
  obtain ⟨text, rfl⟩ := hholds
  cases hkind with
  | select henum hoptions =>
    cases hwritten with
    | asIs hvalues => simp [optionValues, htype, henum, Data.asList] at hvalues
    | option hvalues hid =>
      have hids := hids _ hvalues
      rw [optionValues, htype, henum] at hvalues
      cases hvalues
      obtain ⟨i, hi, rfl⟩ := hid
      exact ⟨answered_optionId i, (decodeOption_iff hoptions hids).mpr ⟨i, hi, rfl⟩⟩
  | date henum hformat =>
    have hvalues : optionValues raw = none := by simp [optionValues, htype, henum, Data.asList]
    cases hwritten with
    | asIs =>
      obtain ⟨hshape, hcalendar⟩ := hwritable.date (isNone_iff.mpr henum) hformat text rfl
      have hlength : text.length = 10 := by
        rw [← String.length_toList]
        unfold isDateShape at hshape
        split at hshape
        · next heq => rw [heq]; rfl
        · cases hshape
      refine ⟨⟨by simp, fun hempty => ?_⟩, ?_⟩
      · cases hempty
        cases hshape
      · refine (decodeText_iff (.inr ⟨rfl, rfl⟩) (.inr ⟨rfl, rfl⟩) (by decide)).mpr
          ⟨text, text, rfl, rfl, ?_, Nat.zero_le _, by rw [hlength]; decide⟩
        simp [readText, normalizedDate, hshape, hcalendar]
    | option hsome => rw [hvalues] at hsome; cases hsome
  | text htext =>
    have hvalues : optionValues raw = none := by
      simp [optionValues, htype, isNone_iff.mp htext.1, Data.asList]
    cases hwritten with
    | asIs =>
      obtain ⟨hne, hshort⟩ := hwritable.text htext text rfl
      have hholds := hkws text rfl
      have hge := le_of_atLeast hleast hholds.least (by exact_mod_cast Nat.zero_le _)
      have hle := le_of_atMost hmost hholds.most (by exact_mod_cast hshort)
      refine ⟨⟨by simp, fun hempty => hne (Data.str.inj hempty)⟩, ?_⟩
      exact (decodeText_iff (.inl rfl) (.inl rfl) (by simpa using hpos)).mpr
        ⟨text, text, rfl, rfl, rfl, by exact_mod_cast hge, by exact_mod_cast hle⟩
    | option hsome => rw [hvalues] at hsome; cases hsome

theorem bound_finite {key : String} {x : Float.Model} (h : number (raw.getD key) = .ok (some x))
    (hexact : Exact (raw.getD key)) : ∃ m, floatReal x = .finite m ∧ (raw.getD key).real? = some (.finite m) := by
  rcases number_cases h with ⟨-, hnone⟩ | ⟨n, y, hint, hsome, hy⟩ | ⟨y, q, hfloat, hsome, hq⟩
  · cases hnone
  · cases hsome
    have hreal := (bound_exact (m := n) h hexact).mp (by rw [hint]; rfl)
    obtain ⟨z, hz, hm⟩ := hreal
    cases hz
    exact ⟨n, hm, by rw [hint]; rfl⟩
  · cases hsome
    exact ⟨q, hq, by rw [hfloat, Data.real?, hq]⟩

theorem number_decodes {type : FieldType} {decoded : Data} {q : ℚ}
    (h : projectNumber raw = .ok projected) (hwritable : Writable raw v)
    (hnormalized : normalizedNumber unicodeDecimal (.str type.name) w = some decoded)
    (hreal : decoded.real? = some (.finite q)) (hholds : NumberHolds Every raw q) :
    decodeValue unicodeDecimal (privateSpec name type required projected) w = some decoded := by
  obtain ⟨minimum, maximum, hminimum, hmaximum, rfl⟩ := projectNumber_cases h
  rw [decodeValue_privateSpec]
  refine decodeNumber_iff.mpr ⟨hnormalized, ?_, ?_⟩
  · refine (crossed_floatData (decoded.lt? ·)).mpr fun x hx => ?_
    subst hx
    obtain ⟨m, hm, hraw⟩ := bound_finite hminimum hwritable.minimum
    exact (lt?_finite hreal (by simp [Data.real?, hm])).mpr (hholds.least trivial m hraw)
  · refine (crossed_floatData (Data.lt? · decoded)).mpr fun x hx => ?_
    subst hx
    obtain ⟨m, hm, hraw⟩ := bound_finite hmaximum hwritable.maximum
    exact (lt?_finite (by simp [Data.real?, hm]) hreal).mpr (hholds.most trivial m hraw)

theorem written_number (hvalues : optionValues raw = none)
    (hwritten : Written python p requestId name raw v w) : w = v := by
  cases hwritten with
  | asIs => rfl
  | option hsome => rw [hvalues] at hsome; cases hsome
  | options hsome => rw [hvalues] at hsome; cases hsome

theorem integer_decodes (htype : fieldType (raw.getD "type") = .ok .integer)
    (h : projectNumber raw = .ok projected) (hkws : KeywordsHold Every raw .integer v)
    (hwritable : Writable raw v) (hwritten : Written python p requestId name raw v w) :
    Answered w ∧ decodeValue unicodeDecimal (privateSpec name .integer required projected) w = some v := by
  obtain rfl := written_number (by simp [optionValues, htype]) hwritten
  obtain ⟨n, rfl⟩ := hwritable.integer htype
  exact ⟨⟨by simp, by simp⟩, number_decodes h hwritable rfl rfl (hkws n rfl)⟩

theorem float_decodes (htype : fieldType (raw.getD "type") = .ok .number)
    (h : projectNumber raw = .ok projected) (hholds : FieldType.number.Holds v)
    (hkws : KeywordsHold Every raw .number v) (hwritable : Writable raw v)
    (hwritten : Written python p requestId name raw v w) :
    Answered w ∧ ∃ decoded,
      decodeValue unicodeDecimal (privateSpec name .number required projected) w = some decoded ∧ Same decoded v := by
  obtain rfl := written_number (by simp [optionValues, htype]) hwritten
  rcases hholds with ⟨n, rfl⟩ | ⟨x, q, rfl, hq⟩
  · obtain ⟨x, hx, hreal⟩ := exact_real (hwritable.number htype)
    refine ⟨⟨by simp, by simp⟩, .float x, ?_, .inr ⟨n, x, rfl, rfl, hreal⟩⟩
    refine number_decodes h hwritable ?_ (by rw [Data.real?, hreal]) (hkws n rfl)
    simp [normalizedNumber, Data.asStr, FieldType.name, toFloat, hx, isFinite_iff, hreal]
  · refine ⟨⟨by simp, by simp⟩, .float x, ?_, .inl rfl⟩
    refine number_decodes h hwritable ?_ (by rw [Data.real?, hq]) (hkws q (by rw [Data.real?, hq]))
    simp [normalizedNumber, Data.asStr, FieldType.name, toFloat, isFinite_iff, hq]

theorem boolean_decodes (htype : fieldType (raw.getD "type") = .ok .boolean)
    (h : projectBoolean python p requestId name = .ok projected)
    (hids : DistinctOptions python p requestId name raw) (hholds : FieldType.boolean.Holds v)
    (hwritten : Written python p requestId name raw v w) :
    Answered w ∧ decodeValue unicodeDecimal (privateSpec name .boolean required projected) w = some v := by
  obtain ⟨hkind, hoptions⟩ := projectBoolean_cases h
  have hvalues : optionValues raw = some [.bool true, .bool false] := by simp [optionValues, htype]
  have hids := hids _ hvalues
  obtain ⟨b, rfl⟩ := hholds
  rw [decodeValue_privateSpec, hkind]
  cases hwritten with
  | asIs hnone => rw [hvalues] at hnone; cases hnone
  | option hsome hid =>
    rw [hvalues, Option.some.injEq] at hsome
    subst hsome
    obtain ⟨i, hi, rfl⟩ := hid
    exact ⟨answered_optionId i, (decodeOption_iff hoptions hids).mpr ⟨i, hi, rfl⟩⟩

theorem array_decodes (htype : fieldType (raw.getD "type") = .ok .array)
    (h : projectArray python p requestId name raw = .ok projected)
    (hids : DistinctOptions python p requestId name raw) (hholds : FieldType.array.Holds v)
    (hkws : KeywordsHold Every raw .array v) (hwritable : Writable raw v)
    (hwritten : Written python p requestId name raw v w) :
    Answered w ∧ decodeValue unicodeDecimal (privateSpec name .array required projected) w = some v := by
  obtain ⟨values, least, most, henum, hoptions, hleast, -, hfull, -, hkind, hmin, hmax⟩ := projectArray_cases h
  obtain ⟨hspecMin, hspecMax⟩ := privateSpec_lengths .array required name hkind hmin hmax
  have hvalues : optionValues raw = some values := by simp [optionValues, htype, henum, Data.asList]
  have hids := hids _ hvalues
  obtain ⟨items, rfl⟩ := hholds
  rw [decodeValue_privateSpec, hkind]
  cases hwritten with
  | asIs hnone => rw [hvalues] at hnone; cases hnone
  | option hsome hid =>
    rw [hvalues, Option.some.injEq] at hsome
    subst hsome
    obtain ⟨i, hi, -⟩ := hid
    have haccepts := hoptions.accepts _ (List.mem_of_getElem? hi)
    cases haccepts
  | @options _ _ ids hsome hwritten =>
    rw [hvalues, Option.some.injEq] at hsome
    subst hsome
    have hnodup := hwritable.items items rfl
    have hitems := hkws items rfl
    have hsub : items ⊆ values := by
      intro item hitem
      obtain ⟨id, -, i, hi, -⟩ := exists_right_of_forall₂ hwritten hitem
      exact List.mem_of_getElem? hi
    have hge := le_of_atLeast hleast hitems.least (by exact_mod_cast Nat.zero_le _)
    refine ⟨⟨by simp, by simp⟩, (decodeOptions_iff (privateSpec_options ..) hspecMin hspecMax).mpr
      ⟨ids, items, rfl, rfl, ?_, ?_, by exact_mod_cast hge, ?_⟩⟩
    · refine nodup_of_forall₂ hwritten (fun item item' id hitem hitem' => ?_) hnodup
      obtain ⟨i, hi, rfl⟩ := hitem
      obtain ⟨j, hj, heq⟩ := hitem'
      have hilt := (List.getElem?_eq_some_iff.mp hi).1
      have hjlt := (List.getElem?_eq_some_iff.mp hj).1
      have hij := hids i hilt j hjlt heq
      rw [hij, hj, Option.some.injEq] at hi
      exact hi.symm
    · refine hwritten.flip.imp fun id item hid => ?_
      exact (hoptions.lookup_iff hids).mpr hid
    · rw [hfull]
      exact (hnodup.subperm hsub).length_le

theorem field_decodes (unicodeDecimal : Char → Option Nat) {required : List String} {entry : String × Data}
    (hbuilt : FieldBuilt python p requestId required (name, raw) entry)
    (hids : DistinctOptions python p requestId name raw) (hsat : FieldSatisfies Every raw v)
    (hwritable : Writable raw v) (hwritten : Written python p requestId name raw v w) :
    Answered w ∧ ∃ decoded, decodeValue unicodeDecimal entry.2 w = some decoded ∧ Same decoded v := by
  obtain ⟨type, projected, htype, hproject, hpos, -, rfl⟩ := hbuilt
  obtain ⟨type', htype', hholds, hkws⟩ := hsat
  rw [htype, Except.ok.injEq] at htype'
  subst htype'
  cases type with
  | string =>
    obtain ⟨hanswered, hdec⟩ :=
      string_decodes htype hproject hids hpos hholds hkws hwritable hwritten
    exact ⟨hanswered, v, hdec, .inl rfl⟩
  | integer =>
    obtain ⟨hanswered, hdec⟩ := integer_decodes htype hproject hkws hwritable hwritten
    exact ⟨hanswered, v, hdec, .inl rfl⟩
  | number => exact float_decodes htype hproject hholds hkws hwritable hwritten
  | boolean =>
    obtain ⟨hanswered, hdec⟩ := boolean_decodes htype hproject hids hholds hwritten
    exact ⟨hanswered, v, hdec, .inl rfl⟩
  | array =>
    obtain ⟨hanswered, hdec⟩ :=
      array_decodes htype hproject hids hholds hkws hwritable hwritten
    exact ⟨hanswered, v, hdec, .inl rfl⟩

end MultiRag.InteractionForms
