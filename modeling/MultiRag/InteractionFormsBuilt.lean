/-
  **What a projection was built from.**

  One lemma for each builder: when it succeeds, what it returned and which checks
  passed.  The private mapping follows the requests and their properties in order.
-/
import Mathlib.Data.List.Nodup
import MultiRag.InteractionSchemas

namespace MultiRag.InteractionForms

open List

variable {python : Runtime} {p : Presentation} {requestId name : String} {raw : Data}

theorem validated_eq_ok {α : Type} {valid : α → Bool} {a b : α} (h : validated valid a = .ok b) :
    b = a ∧ valid a = true := by
  unfold validated at h
  split at h
  · next hvalid =>
    cases h
    exact ⟨rfl, hvalid⟩
  · cases h

/-! ### Options -/

theorem rawLabels_length {values out : List Data} {labels : Data} (h : rawLabels values labels = .ok out) :
    out.length = values.length := by
  unfold rawLabels at h
  split at h
  · cases h
    rfl
  · split at h
    · next heq =>
      cases h
      exact heq
    · cases h
  · cases h

variable {valueType : OptionType} {value : Data}

theorem buildOption_cases {index : Nat} {rawLabel : Data}
    {out : InteractionFormOption × String × Data}
    (h : buildOption python p requestId name valueType index value rawLabel = .ok out) :
    valueType.accepts value = true ∧ out.2 = (optionId python p requestId name index, value) := by
  unfold buildOption at h
  split at h
  · next haccepts =>
    obtain ⟨built, hbuilt, h⟩ := bind_eq_ok.mp h
    obtain ⟨rfl, -⟩ := validated_eq_ok hbuilt
    cases h
    exact ⟨haccepts, rfl⟩
  · cases h

def optionMap (python : Runtime) (p : Presentation) (requestId name : String) (values : List Data) :
    List (String × Data) :=
  values.zipIdx.map fun item => (optionId python p requestId name item.2, item.1)

structure OptionsBuilt (python : Runtime) (p : Presentation) (requestId name : String) (valueType : OptionType)
    (values : List Data) (map : List (String × Data)) : Prop where
  length : values.length ≤ maxOptions
  nodup : values.Nodup
  accepts : ∀ value ∈ values, valueType.accepts value = true
  map_eq : map = dictOf (optionMap python p requestId name values)

theorem options_cases {values labels : Data}
    {out : List InteractionFormOption × List (String × Data)}
    (h : options python p requestId name values labels valueType = .ok out) :
    ∃ items, values = .list items ∧ out.1.length = items.length ∧
      OptionsBuilt python p requestId name valueType items out.2 := by
  unfold options at h
  split at h
  · cases h
  · next items hitems =>
    split at h
    · cases h
    · next hcheck =>
      push Not at hcheck
      obtain ⟨-, hlength, hnodup⟩ := hcheck
      obtain ⟨labels', hlabels, h⟩ := bind_eq_ok.mp h
      obtain ⟨built, hbuilt, h⟩ := bind_eq_ok.mp h
      cases h
      have hpairs := mapM_ok_iff_forall₂.mp hbuilt
      have hlen := rawLabels_length hlabels
      have hfst : (items.zip labels').map Prod.fst = items := map_fst_zip (by omega)
      have hzip : ((items.zip labels').zipIdx.map fun item => (item.1.1, item.2)) = items.zipIdx := by
        conv_rhs => rw [← hfst, zipIdx_map]
        rfl
      refine ⟨items, Data.asList_eq_some.mp hitems, ?_, hlength, Nodup.of_map _ hnodup, ?_, ?_⟩
      · rw [length_map, ← hpairs.length_eq]
        simp [hlen]
      · intro value hvalue
        obtain ⟨index, hindex, rfl⟩ := getElem_of_mem hvalue
        have hmem : ((items[index], labels'[index]), index) ∈ (items.zip labels').zipIdx := by
          rw [mem_zipIdx_iff_getElem?]
          simp [hindex, hlen]
        obtain ⟨out, -, hout⟩ := exists_right_of_forall₂ hpairs hmem
        exact (buildOption_cases hout).1
      · have hmap := map_eq_of_forall₂ (g := Prod.snd) hpairs fun item out hout => (buildOption_cases hout).2
        rw [optionMap, ← hzip, map_map]
        exact congrArg dictOf hmap

/-! ### Fields -/

theorem integer_cases {default upper n : Nat} (h : integer value default upper = .ok n) :
    (value = .null ∧ n = default) ∨ value = .int n := by
  unfold integer at h
  split at h
  · cases h
    exact .inl ⟨rfl, rfl⟩
  · next m =>
    split at h
    · cases h
    · next hrange =>
      push Not at hrange
      cases h
      exact .inr (by rw [Int.toNat_of_nonneg hrange.1])
  · cases h

theorem number_cases {bound : Option Float.Model} (h : number value = .ok bound) :
    (value = .null ∧ bound = none) ∨
      (∃ m x, value = .int m ∧ bound = some x ∧ floatOfInt m = some x) ∨
      (∃ x q, value = .float x ∧ bound = some x ∧ floatReal x = .finite q) := by
  unfold number at h
  split at h
  · cases h
    exact .inl ⟨rfl, rfl⟩
  · next m =>
    split at h
    · cases h
    · next x hx =>
      cases h
      exact .inr (.inl ⟨m, x, rfl, rfl, hx⟩)
  · next x =>
    split at h
    · next hfinite =>
      cases h
      obtain ⟨q, hq⟩ := isFinite_iff.mp hfinite
      exact .inr (.inr ⟨x, q, rfl, rfl, hq⟩)
    · cases h
  · cases h

theorem isNone_iff : value.isNone = true ↔ value = .null := by
  cases value <;> simp [Data.isNone]

inductive StringBuilt (python : Runtime) (p : Presentation) (requestId name : String) (raw : Data) :
    FieldKind → List (String × Data) → Prop
  | select {values : List Data} {map : List (String × Data)} (henum : raw.getD "enum" = .list values)
      (hoptions : OptionsBuilt python p requestId name .string values map) :
      StringBuilt python p requestId name raw .select map
  | date (henum : raw.getD "enum" = .null) (hformat : raw.getD "format" = .str "date") :
      StringBuilt python p requestId name raw .date []
  | text (htext : IsText raw) : StringBuilt python p requestId name raw .text []

theorem stringKind_cases {out : FieldKind × List InteractionFormOption × List (String × Data)}
    (h : stringKind python p requestId name raw = .ok out) :
    StringBuilt python p requestId name raw out.1 out.2.2 := by
  unfold stringKind at h
  split at h
  · next henum =>
    split at h
    · next hdate =>
      cases h
      exact .date (isNone_iff.mp henum) (Data.asStr_eq_some.mp hdate)
    · split at h
      · next hformat =>
        cases h
        exact .text ⟨henum, hformat⟩
      · cases h
  · obtain ⟨built, hbuilt, h⟩ := bind_eq_ok.mp h
    cases h
    obtain ⟨items, henum, -, hoptions⟩ := options_cases hbuilt
    exact .select henum hoptions

variable {projected : Projected}

theorem projectString_cases (h : projectString python p requestId name raw = .ok projected) :
    StringBuilt python p requestId name raw projected.kind projected.optionMap ∧
      ∃ least most, integer (raw.getD "minLength") 0 maxText = .ok least ∧
        integer (raw.getD "maxLength") maxText maxText = .ok most ∧
        projected.minLength = some least ∧ projected.maxLength = some most ∧
        projected.minimum = none ∧ projected.maximum = none := by
  obtain ⟨kind, hkind, h⟩ := bind_eq_ok.mp h
  split at h
  · cases h
  · obtain ⟨least, hleast, h⟩ := bind_eq_ok.mp h
    obtain ⟨most, hmost, h⟩ := bind_eq_ok.mp h
    split at h
    · cases h
    · cases h
      exact ⟨stringKind_cases hkind, least, most, hleast, hmost, rfl, rfl, rfl, rfl⟩

theorem projectNumber_cases (h : projectNumber raw = .ok projected) :
    ∃ minimum maximum, number (raw.getD "minimum") = .ok minimum ∧
      number (raw.getD "maximum") = .ok maximum ∧
      projected = ⟨.number, [], [], none, none, minimum, maximum⟩ := by
  obtain ⟨minimum, hminimum, h⟩ := bind_eq_ok.mp h
  obtain ⟨maximum, hmaximum, h⟩ := bind_eq_ok.mp h
  split at h
  · cases h
  · cases h
    exact ⟨minimum, maximum, hminimum, hmaximum, rfl⟩

theorem projectBoolean_cases (h : projectBoolean python p requestId name = .ok projected) :
    projected.kind = .boolean ∧
      OptionsBuilt python p requestId name .boolean [.bool true, .bool false] projected.optionMap := by
  obtain ⟨built, hbuilt, h⟩ := bind_eq_ok.mp h
  cases h
  obtain ⟨items, hitems, -, hoptions⟩ := options_cases hbuilt
  cases hitems
  exact ⟨rfl, hoptions⟩

theorem projectArray_cases (h : projectArray python p requestId name raw = .ok projected) :
    ∃ values least most, (raw.getD "items").getD "enum" = .list values ∧
      OptionsBuilt python p requestId name .string values projected.optionMap ∧
      integer (raw.getD "minItems") 0 maxOptions = .ok least ∧
      integer (raw.getD "maxItems") values.length maxOptions = .ok most ∧ most = values.length ∧ least ≤ 1 ∧
      projected.kind = .multiSelect ∧ projected.minLength = some least ∧ projected.maxLength = some most := by
  unfold projectArray at h
  split at h
  · cases h
  · split at h
    · cases h
    · obtain ⟨built, hbuilt, h⟩ := bind_eq_ok.mp h
      obtain ⟨least, hleast, h⟩ := bind_eq_ok.mp h
      obtain ⟨most, hmost, h⟩ := bind_eq_ok.mp h
      obtain ⟨unique, -, h⟩ := bind_eq_ok.mp h
      split at h
      · cases h
      · next hcheck =>
        push Not at hcheck
        obtain ⟨values, hvalues, hlength, hoptions⟩ := options_cases hbuilt
        cases h
        rw [hlength] at hmost hcheck
        exact ⟨values, least, most, hvalues, hoptions, hleast, hmost, hcheck.2.2, hcheck.2.1, rfl, rfl, rfl⟩

def FieldBuilt (python : Runtime) (p : Presentation) (requestId : String) (required : List String)
    (property entry : String × Data) : Prop :=
  ∃ type projected, fieldType (property.2.getD "type") = .ok type ∧
    project python p type requestId property.1 property.2 = .ok projected ∧
    projected.maxLength ≠ some 0 ∧ property.1 ≠ "" ∧
    entry = (fieldId python p requestId property.1,
      privateSpec property.1 type (required.contains property.1) projected)

variable {requestIndex count : Nat}

theorem buildField_cases {index : Nat} {required : List String}
    {out : InteractionFormField × String × Data}
    (h : buildField python p requestIndex requestId required count index name raw = .ok out) :
    FieldBuilt python p requestId required (name, raw) out.2 := by
  unfold buildField at h
  split at h
  · cases h
  · split at h
    · cases h
    · next hcheck =>
      push Not at hcheck
      obtain ⟨type, htype, h⟩ := bind_eq_ok.mp h
      split at h
      · cases h
      · obtain ⟨projected, hprojected, h⟩ := bind_eq_ok.mp h
        obtain ⟨field, hfield, h⟩ := bind_eq_ok.mp h
        obtain ⟨rfl, hvalid⟩ := validated_eq_ok hfield
        cases h
        refine ⟨type, projected, htype, hprojected, ?_, ?_, rfl⟩
        · intro hzero
          simp [InteractionFormField.valid, hzero] at hvalid
        · rintro rfl
          exact hcheck.2 rfl

/-! ### Requests -/

def RequestBuilt (python : Runtime) (p : Presentation) (item entry : String × Data) : Prop :=
  ∃ required entries, checkRequest item.1 item.2 = .ok required ∧
    entry = (item.1, .dict (dictOf entries)) ∧
    Forall₂ (FieldBuilt python p item.1 required) (schemaProperties (requestedSchema item.2)) entries

theorem buildRequest_cases {request : Data} {built : BuiltRequest}
    (h : buildRequest python p requestIndex count requestId request = .ok built) :
    RequestBuilt python p (requestId, request) (built.requestId, .dict built.entries) := by
  obtain ⟨required, hreqd, h⟩ := bind_eq_ok.mp h
  obtain ⟨fields, hfields, h⟩ := bind_eq_ok.mp h
  cases h
  refine ⟨required, fields.map Prod.snd, hreqd, rfl, ?_⟩
  have hpairs := mapM_ok_iff_forall₂.mp hfields
  rw [forall₂_map_right_iff]
  have hfst : (schemaProperties (requestedSchema request)).zipIdx.map Prod.fst =
      schemaProperties (requestedSchema request) := by simp
  rw [← hfst, forall₂_map_left_iff]
  exact hpairs.imp fun item out hout => buildField_cases hout

variable {inputRequests : List (String × Data)}

theorem buildRequests_cases {built : List BuiltRequest}
    (h : buildRequests python p requestIndex count inputRequests = .ok built) :
    Forall₂ (RequestBuilt python p) inputRequests
      (built.map fun b => (b.requestId, Data.dict b.entries)) := by
  induction inputRequests generalizing requestIndex count built with
  | nil =>
    cases h
    exact .nil
  | cons item rest ih =>
    obtain ⟨first, hfirst, h⟩ := bind_eq_ok.mp h
    obtain ⟨others, hothers, h⟩ := bind_eq_ok.mp h
    cases h
    exact .cons (buildRequest_cases hfirst) (ih hothers)

theorem buildFormProjection_cases {projection : InteractionFormProjection} {mapping : Data}
    (h : buildFormProjection python p inputRequests = .ok (projection, mapping)) :
    ∃ requests, mapping = .dict [("requests", .dict (dictOf requests))] ∧
      Forall₂ (RequestBuilt python p) inputRequests requests := by
  unfold buildFormProjection at h
  split at h
  · cases h
  · obtain ⟨built, hbuilt, h⟩ := bind_eq_ok.mp h
    obtain ⟨projection', -, h⟩ := bind_eq_ok.mp h
    cases h
    exact ⟨_, rfl, buildRequests_cases hbuilt⟩

end MultiRag.InteractionForms
