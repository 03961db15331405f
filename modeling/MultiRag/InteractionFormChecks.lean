/-
  **When a form projection raises something else than a rejection.**

  `build_form_projection` checks one keyword after the other. Five of them raise
  instead of rejecting: `additionalProperties`, the `type` of a field and
  `uniqueItems` are looked up in a set, so a list or an object there is not hashable;
  an integer for `minimum` or `maximum` can be too large for a float; and the public
  field takes no `maxLength` of zero.
-/
import MultiRag.InteractionFormsAgree

namespace MultiRag.InteractionForms

open List

/-! ### Checks -/

inductive Check where
  | accepts | rejects | raises

namespace Check

def failure? : Check → Option Failure
  | accepts => none
  | rejects => some .payloadInvalid
  | raises => some .raised

def of (accepted : Bool) : Check := if accepted then accepts else rejects

def ReachRaise (checks : List Check) : Prop :=
  ∃ before after, checks = before ++ raises :: after ∧ ∀ check ∈ before, check = accepts

end Check

def isUnhashable : Data → Bool
  | .list _ | .dict _ => true
  | _ => false

def noneOrCheck (flag : Bool) (value : Data) : Check :=
  if isUnhashable value then .raises
  else .of (value.isNone || value.real? = some (.finite (if flag then 1 else 0)))

def knownType (value : Data) : Option FieldType :=
  value.asStr.bind fun name => [FieldType.string, .integer, .number, .boolean, .array].find? fun t => t.name = name

def typeCheck (value : Data) : Check :=
  if isUnhashable value then .raises else .of (knownType value).isSome

def lengthCheck (value : Data) (upper : Nat) : Check :=
  match value with
  | .null => .accepts
  | .int n => .of (0 ≤ n && n ≤ upper)
  | _ => .rejects

def lengthOr (value : Data) (default : Nat) : Nat :=
  match value with
  | .int n => n.toNat
  | _ => default

def numberCheck (value : Data) : Check :=
  match value with
  | .null => .accepts
  | .int n => if (floatOfInt n).isSome then .accepts else .raises
  | .float x => .of x.isFinite
  | _ => .rejects

def boundOf (value : Data) : Option Float.Model :=
  match value with
  | .int n => floatOfInt n
  | .float x => some x
  | _ => none

section

variable (python : Runtime)

def labelsFit (labels : Data) (count : Nat) : Bool :=
  match labels with
  | .null => true
  | .list labels => labels.length = count
  | _ => false

def optionsChecks (values labels : Data) (valueType : OptionType) : List Check :=
  match values.asList with
  | none => [.rejects]
  | some values =>
    [.of (1 ≤ values.length && values.length ≤ maxOptions && (values.map python.repr).Nodup),
      .of (labelsFit labels values.length)] ++ values.map fun value => .of (valueType.accepts value)

def stringKindChecks (raw : Data) : List Check :=
  if (raw.getD "enum").isNone then [.of ((raw.getD "format").asStr = some "date" || (raw.getD "format").isNone)]
  else optionsChecks python (raw.getD "enum") (raw.getD "enumNames") .string

def stringChecks (raw : Data) : List Check :=
  stringKindChecks python raw ++
    [.of (raw.getD "pattern").isNone,
      lengthCheck (raw.getD "minLength") maxText,
      lengthCheck (raw.getD "maxLength") maxText,
      .of (lengthOr (raw.getD "minLength") 0 ≤ lengthOr (raw.getD "maxLength") maxText)]

def numberChecks (raw : Data) : List Check :=
  [numberCheck (raw.getD "minimum"), numberCheck (raw.getD "maximum"),
    .of !exceeds (boundOf (raw.getD "minimum")) (boundOf (raw.getD "maximum"))]

def itemCount (values : Data) : Nat := (values.asList.getD []).length

def arrayChecks (raw : Data) : List Check :=
  let items := raw.getD "items"
  [.of items.asDict.isSome,
    .of ((items.asDict.getD []).map Prod.fst ⊆ ["type", "enum", "enumNames"] && (items.getD "type").asStr = some "string")] ++
    optionsChecks python (items.getD "enum") (items.getD "enumNames") .string ++
    [lengthCheck (raw.getD "minItems") maxOptions,
      lengthCheck (raw.getD "maxItems") maxOptions,
      noneOrCheck true (raw.getD "uniqueItems"),
      .of (lengthOr (raw.getD "minItems") 0 ≤ 1 &&
        lengthOr (raw.getD "maxItems") (itemCount (items.getD "enum")) = itemCount (items.getD "enum"))]

def kindChecks (type : FieldType) (raw : Data) : List Check :=
  match type with
  | .string => stringChecks python raw
  | .integer | .number => numberChecks raw
  | .boolean => []
  | .array => arrayChecks python raw

def publicCheck (type : FieldType) (raw : Data) : Check :=
  if type = .string ∧ lengthOr (raw.getD "maxLength") maxText = 0 then .raises else .accepts

def fieldChecks (count : Nat) (propertyName : String) (raw : Data) : List Check :=
  [.of raw.asDict.isSome, .of (count < maxFields && !isBlank propertyName), typeCheck (raw.getD "type")] ++
    match knownType (raw.getD "type") with
    | none => []
    | some type =>
      .of (((raw.asDict).getD []).map Prod.fst ⊆ type.allowedKeys) :: (kindChecks python type raw ++ [publicCheck type raw])

def requestChecks (requestId : String) (request : Data) : List Check :=
  let params := request.getD "params"
  let schema := requestedSchema request
  [.of (!isBlank requestId && request.asDict.isSome),
    .of ((request.getD "method").asStr = some "elicitation/create" && params.asDict.isSome &&
      (requestMode params).asStr = some "form"),
    .of schema.asDict.isSome,
    .of ((schema.asDict.getD []).map Prod.fst ⊆ rootKeys && (schema.getD "type").asStr = some "object"),
    noneOrCheck false (schema.getD "additionalProperties"),
    .of ((schema.getD "properties").asDict.any fun properties =>
      ((schemaRequired schema).asList.bind (·.mapM Data.asStr)).any fun required =>
        properties ≠ [] && required.Nodup && required ⊆ properties.map Prod.fst)]

def requestsChecks (count : Nat) : List (String × Data) → List Check
  | [] => []
  | (requestId, request) :: rest =>
    let properties := schemaProperties (requestedSchema request)
    requestChecks requestId request ++
      properties.zipIdx.flatMap (fun item => fieldChecks python (count + item.2) item.1.1 item.1.2) ++
      requestsChecks (count + properties.length) rest

def inputChecks (inputRequests : Data) : List Check :=
  match inputRequests with
  | .dict requests => .of (1 ≤ requests.length && requests.length ≤ maxRequests) :: requestsChecks python 0 requests
  | .list items => [if 1 ≤ items.length ∧ items.length ≤ maxRequests then .raises else .rejects]
  | .str text => [if 1 ≤ text.length ∧ text.length ≤ maxRequests then .raises else .rejects]
  | _ => [.raises]

/-- The call with any value: only a mapping has items, and only texts, lists and mappings a
    length. -/
def buildFormProjectionOf (p : Presentation) (inputRequests : Data) :
    Except Failure (InteractionFormProjection × Data) :=
  match inputRequests with
  | .dict requests => buildFormProjection python p requests
  | .list items => if 1 ≤ items.length ∧ items.length ≤ maxRequests then .error .raised else reject
  | .str text => if 1 ≤ text.length ∧ text.length ≤ maxRequests then .error .raised else reject
  | _ => .error .raised

end

/-! ### The helpers -/

theorem firstFailure_cons (check : Check) (checks : List Check) :
    (check :: checks).findSome? Check.failure? = check.failure?.or (checks.findSome? Check.failure?) := by
  rw [findSome?_cons]
  cases check.failure? with
  | none => rfl
  | some e => rfl

theorem firstFailure_singleton (check : Check) : [check].findSome? Check.failure? = check.failure? := by
  rw [firstFailure_cons, findSome?_nil, Option.or_none]

variable {accepted : Bool}

theorem firstFailure_of_true (h : accepted = true) (checks : List Check) :
    (Check.of accepted :: checks).findSome? Check.failure? = checks.findSome? Check.failure? := by
  rw [firstFailure_cons, h]
  rfl

variable {α : Type} {checks : List Check} {x : Except Failure α}

theorem failure?_guard {c : Prop} [Decidable c] (hc : accepted = true ↔ ¬ c)
    (hx : ¬ c → failure? x = checks.findSome? Check.failure?) :
    failure? (if c then reject else x) = (Check.of accepted :: checks).findSome? Check.failure? := by
  by_cases h : c
  · have hnot : accepted = false := Bool.eq_false_iff.mpr fun hacc => hc.mp hacc h
    rw [if_pos h, firstFailure_cons, hnot]
    rfl
  · rw [if_neg h, firstFailure_of_true (hc.mpr h), hx h]

variable {check : Check}

theorem failure?_bind_one {β : Type} {f : α → Except Failure β} (hx : failure? x = check.failure?)
    (hf : ∀ a, x = .ok a → failure? (f a) = checks.findSome? Check.failure?) :
    failure? (x >>= f) = (check :: checks).findSome? Check.failure? := by
  rw [← firstFailure_singleton] at hx
  exact failure?_bind hx hf

theorem failure?_ite_of {c : Prop} [Decidable c] (hc : accepted = true ↔ c) (a : α) :
    failure? (if c then .ok a else reject) = (Check.of accepted).failure? := by
  by_cases h : c
  · rw [if_pos h, hc.mpr h]
    rfl
  · have hnot : accepted = false := Bool.eq_false_iff.mpr fun hacc => h (hc.mp hacc)
    rw [if_neg h, hnot]
    rfl

theorem failure?_integer (value : Data) (default upper : Nat) :
    failure? (integer value default upper) = (lengthCheck value upper).failure? := by
  cases value with
  | int n =>
    rw [integer, lengthCheck, ← ite_not]
    refine failure?_ite_of ?_ _
    rw [Bool.and_eq_true, decide_eq_true_eq, decide_eq_true_eq, not_or, not_lt, not_lt]
  | _ => rfl

theorem lengthOr_of_integer {default upper n : Nat} (h : integer value default upper = .ok n) :
    lengthOr value default = n := by
  rcases integer_cases h with ⟨rfl, rfl⟩ | rfl
  · rfl
  · exact Int.toNat_natCast n

theorem integer_le {default upper n : Nat} (h : integer value default upper = .ok n)
    (hdefault : default ≤ upper) : n ≤ upper := by
  rw [integer.eq_def] at h
  split at h
  · rw [← Except.ok.inj h]
    exact hdefault
  · split at h
    · cases h
    · next hrange =>
      rw [← Except.ok.inj h]
      omega
  · cases h

theorem failure?_number (value : Data) : failure? (number value) = (numberCheck value).failure? := by
  cases value with
  | int n =>
    rw [number, numberCheck]
    rcases hn : floatOfInt n with - | x
    · rfl
    · rfl
  | float x => exact failure?_ite_of Iff.rfl _
  | _ => rfl

theorem boundOf_of_number {bound : Option Float.Model} (h : number value = .ok bound) :
    boundOf value = bound := by
  rcases number_cases h with ⟨rfl, rfl⟩ | ⟨m, x, rfl, rfl, hx⟩ | ⟨x, q, rfl, rfl, -⟩
  · rfl
  · exact hx
  · rfl

theorem failure?_fieldType (value : Data) : failure? (fieldType value) = (typeCheck value).failure? := by
  rcases value with - | b | n | x | name | items | items
  case str =>
    have hcheck : typeCheck (.str name) = .of (knownType (.str name)).isSome := rfl
    rw [fieldType, hcheck, knownType, Data.asStr, Option.bind_some]
    split
    · next t ht =>
      rw [ht]
      rfl
    · next hnone =>
      rw [hnone]
      rfl
  all_goals rfl

variable {type : FieldType}

theorem knownType_of_fieldType (h : fieldType value = .ok type) :
    knownType value = some type := by
  rw [fieldType.eq_def] at h
  split at h
  · split at h
    · next t ht =>
      rw [← Except.ok.inj h]
      exact ht
    · cases h
  · cases h
  · cases h
  · cases h

variable {flag : Bool}

theorem isNoneOr_of_hashable (h : isUnhashable value = false) :
    isNoneOr flag value = .ok (value.isNone || value.real? = some (.finite (if flag then 1 else 0))) := by
  rcases value with - | b | n | x | text | items | items
  case list => cases h
  case dict => cases h
  all_goals rfl

theorem isNoneOr_of_unhashable (h : isUnhashable value = true) :
    isNoneOr flag value = .error .raised := by
  rcases value with - | b | n | x | text | items | items
  case list => rfl
  case dict => rfl
  all_goals cases h

theorem failure?_isNoneOr {f : Bool → Except Failure α}
    (hf : ∀ b, failure? (f b) = (Check.of b :: checks).findSome? Check.failure?) :
    failure? (isNoneOr flag value >>= f) = (noneOrCheck flag value :: checks).findSome? Check.failure? := by
  by_cases h : isUnhashable value = true
  · rw [isNoneOr_of_unhashable h, noneOrCheck, if_pos h]
    rfl
  · rw [isNoneOr_of_hashable (Bool.eq_false_iff.mpr h), noneOrCheck, if_neg h]
    exact hf _

/-! ### Texts that fit -/

theorem validated_of_valid {valid : α → Bool} {a : α} (h : valid a = true) :
    validated valid a = .ok a :=
  if_pos h

theorem length_hexDigits (count n : Nat) : (hexDigits count n).length = count := by
  induction count generalizing n with
  | zero => rfl
  | succ count ih => rw [hexDigits, length_append, ih, length_singleton]

theorem length_opaqueId (python : Runtime) (kind : String) (parts : List String) :
    (opaqueId python kind parts).length = kind.length + 25 := by
  simp only [opaqueId, String.length_append, String.length_ofList, length_hexDigits]
  rfl

theorem boundedPlain_within {fallback : String} {limit : Nat} (h : lengthWithin fallback 1 limit = true) (value : Data) :
    lengthWithin (boundedPlain value fallback limit) 1 limit = true := by
  rw [boundedPlain]
  split
  · exact h
  · next text _ =>
    dsimp only
    split
    · exact h
    · next hfits =>
      rw [not_or, not_lt] at hfits
      have hpositive : 0 < (joinWords text).length := by
        rw [Nat.pos_iff_ne_zero, ne_eq, String.length_eq_zero_iff]
        exact hfits.1
      rw [lengthWithin, Bool.and_eq_true, decide_eq_true_eq, decide_eq_true_eq]
      exact ⟨hpositive, hfits.2⟩

variable {index : Nat}

theorem optionLabel_within (h : index < maxOptions) :
    lengthWithin ("选项 " ++ toString (index + 1)) 1 maxLabel = true := by
  have hall : ∀ i < maxOptions, lengthWithin ("选项 " ++ toString (i + 1)) 1 maxLabel = true := by decide +kernel
  exact hall index h

variable {requestIndex : Nat}

theorem fieldLabel_within (hreq : requestIndex < maxRequests)
    (h : index < maxFields) :
    lengthWithin ("字段 " ++ toString (requestIndex + 1) ++ "." ++ toString (index + 1)) 1 maxLabel = true := by
  have hall : ∀ i < maxRequests, ∀ j < maxFields,
      lengthWithin ("字段 " ++ toString (i + 1) ++ "." ++ toString (j + 1)) 1 maxLabel = true := by decide +kernel
  exact hall requestIndex hreq index h

variable {python : Runtime} {p : Presentation} {requestId name : String}

theorem failure?_buildOption {valueType : OptionType} (hindex : index < maxOptions) (value rawLabel : Data) :
    failure? (buildOption python p requestId name valueType index value rawLabel) =
      (Check.of (valueType.accepts value)).failure? := by
  have hvalid : InteractionFormOption.valid ⟨optionId python p requestId name index,
      boundedPlain rawLabel ("选项 " ++ toString (index + 1)) maxLabel⟩ = true := by
    rw [InteractionFormOption.valid, Bool.and_eq_true, optionId]
    refine ⟨?_, boundedPlain_within (optionLabel_within hindex) rawLabel⟩
    rw [lengthWithin, length_opaqueId]
    rfl
  rw [buildOption]
  by_cases haccepts : valueType.accepts value = true
  · rw [if_pos haccepts, haccepts]
    dsimp only
    rw [validated_of_valid hvalid]
    rfl
  · rw [if_neg haccepts, Bool.eq_false_iff.mpr haccepts]
    rfl

theorem failure?_rawLabels (values : List Data) (labels : Data) :
    failure? (rawLabels values labels) = (Check.of (labelsFit labels values.length)).failure? := by
  rcases labels with - | b | n | x | text | labels | items
  case list => exact failure?_ite_of decide_eq_true_iff _
  all_goals rfl

theorem failure?_options (values labels : Data) (valueType : OptionType) :
    failure? (options python p requestId name values labels valueType) =
      (optionsChecks python values labels valueType).findSome? Check.failure? := by
  rw [options, optionsChecks]
  rcases values.asList with - | values
  · rfl
  · refine failure?_guard ?_ fun hcheck => ?_
    · simp only [Bool.and_eq_true, decide_eq_true_eq, not_or, not_lt, not_not, and_assoc]
      rw [Nat.one_le_iff_ne_zero, ne_eq, length_eq_zero_iff]
    · push Not at hcheck
      refine failure?_bind ?_ fun labels' hlabels => ?_
      · rw [firstFailure_singleton]
        exact failure?_rawLabels values labels
      · have hlength := rawLabels_length hlabels
        have hvalues : (values.zip labels').zipIdx.map (fun item => item.1.1) = values :=
          calc (values.zip labels').zipIdx.map (fun item => item.1.1)
            _ = ((values.zip labels').zipIdx.map Prod.fst).map Prod.fst := by
              rw [map_map]
              rfl
            _ = values := by rw [zipIdx_map_fst, map_fst_zip (by omega)]
        have hchecks : values.map (fun value => Check.of (valueType.accepts value)) =
            (values.zip labels').zipIdx.flatMap fun item => [Check.of (valueType.accepts item.1.1)] := by
          conv_lhs => rw [← hvalues]
          rw [map_map, map_eq_flatMap]
          rfl
        rw [hchecks, ← append_nil (List.flatMap _ _)]
        refine failure?_bind ?_ fun _ _ => rfl
        refine failure?_mapM fun item hitem => ?_
        rw [firstFailure_singleton]
        apply failure?_buildOption
        have hlt := snd_lt_of_mem_zipIdx hitem
        rw [length_zip] at hlt
        omega

/-! ### Fields -/

theorem failure?_stringKind (raw : Data) :
    failure? (stringKind python p requestId name raw) = (stringKindChecks python raw).findSome? Check.failure? := by
  rw [stringKind, stringKindChecks]
  by_cases henum : (raw.getD "enum").isNone = true
  · rw [if_pos henum, if_pos henum, firstFailure_singleton]
    by_cases hdate : (raw.getD "format").asStr = some "date"
    · simp only [hdate, if_true, decide_true, Bool.true_or]
      rfl
    · rw [if_neg hdate, decide_eq_false hdate, Bool.false_or]
      exact failure?_ite_of Iff.rfl _
  · rw [if_neg henum, if_neg henum, ← append_nil (optionsChecks _ _ _ _)]
    exact failure?_bind (failure?_options _ _ _) fun _ _ => rfl

theorem failure?_projectString (raw : Data) :
    failure? (projectString python p requestId name raw) = (stringChecks python raw).findSome? Check.failure? := by
  rw [projectString, stringChecks]
  refine failure?_bind (failure?_stringKind raw) fun kind _ => failure?_guard ?_ fun _ => ?_
  · rw [Bool.not_eq_true', Bool.not_eq_false]
  · refine failure?_bind_one (failure?_integer _ _ _) fun least hleast => ?_
    refine failure?_bind_one (failure?_integer _ _ _) fun most hmost => ?_
    rw [lengthOr_of_integer hleast, lengthOr_of_integer hmost]
    exact failure?_guard (by rw [decide_eq_true_eq, not_lt]) fun _ => rfl

theorem failure?_projectNumber (raw : Data) :
    failure? (projectNumber raw) = (numberChecks raw).findSome? Check.failure? := by
  rw [projectNumber, numberChecks]
  refine failure?_bind_one (failure?_number _) fun minimum hminimum => ?_
  refine failure?_bind_one (failure?_number _) fun maximum hmaximum => ?_
  rw [boundOf_of_number hminimum, boundOf_of_number hmaximum]
  exact failure?_guard (by rw [Bool.not_eq_true', Bool.not_eq_true]) fun _ => rfl

theorem failure?_projectBoolean : failure? (projectBoolean python p requestId name) = none := by
  have hchecks : (optionsChecks python (.list [.bool true, .bool false]) (.list [.str "是", .str "否"])
      .boolean).findSome? Check.failure? = none := by
    rw [optionsChecks, Data.asList]
    rfl
  rw [projectBoolean, ← hchecks, ← append_nil (optionsChecks _ _ _ _)]
  exact failure?_bind (failure?_options _ _ _) fun _ _ => rfl

theorem failure?_projectArray (raw : Data) :
    failure? (projectArray python p requestId name raw) = (arrayChecks python raw).findSome? Check.failure? := by
  rw [projectArray, arrayChecks]
  rcases hitems : (raw.getD "items").asDict with - | entries
  · rfl
  · rw [append_assoc, cons_append, firstFailure_of_true (Option.isSome_some), cons_append, nil_append]
    refine failure?_guard ?_ fun _ => failure?_bind (failure?_options _ _ _) fun built hbuilt => ?_
    · simp only [Option.getD_some, Bool.and_eq_true, decide_eq_true_eq, not_or, not_not]
    · obtain ⟨values, hvalues, hlength, -⟩ := options_cases hbuilt
      have hcount : itemCount ((raw.getD "items").getD "enum") = built.1.length := by
        rw [hvalues, hlength]
        rfl
      rw [hcount]
      refine failure?_bind_one (failure?_integer _ _ _) fun least hleast => ?_
      refine failure?_bind_one (failure?_integer _ _ _) fun most hmost => ?_
      rw [lengthOr_of_integer hleast, lengthOr_of_integer hmost]
      refine failure?_isNoneOr fun unique => ?_
      rcases unique with - | -
      · rfl
      · refine (failure?_guard ?_ fun _ => rfl).trans (firstFailure_of_true rfl _).symm
        rw [Bool.and_eq_true, decide_eq_true_eq, decide_eq_true_eq]
        simp

theorem failure?_project (type : FieldType) (raw : Data) :
    failure? (project python p type requestId name raw) = (kindChecks python type raw).findSome? Check.failure? := by
  rcases type with - | - | - | - | -
  · exact failure?_projectString raw
  · exact failure?_projectNumber raw
  · exact failure?_projectNumber raw
  · exact failure?_projectBoolean
  · exact failure?_projectArray raw

variable {raw : Data} {projected : Projected}

theorem itemCount_pos (h : projectArray python p requestId name raw = .ok projected) :
    1 ≤ itemCount ((raw.getD "items").getD "enum") := by
  have hchecks : (arrayChecks python raw).findSome? Check.failure? = none := by
    rw [← failure?_projectArray, h]
    rfl
  rw [findSome?_eq_none_iff] at hchecks
  obtain ⟨values, least, most, hvalues, -⟩ := projectArray_cases h
  have henum : Check.of (1 ≤ values.length && values.length ≤ maxOptions && (values.map python.repr).Nodup) ∈
      arrayChecks python raw := by
    rw [arrayChecks, optionsChecks, hvalues]
    simp [Data.asList]
  have hpasses := hchecks _ henum
  rw [hvalues, itemCount, Data.asList, Option.getD_some]
  by_contra hshort
  rw [decide_eq_false hshort, Bool.false_and, Bool.false_and] at hpasses
  cases hpasses

theorem project_lengths
    (h : project python p type requestId name raw = .ok projected) :
    projected.minLength.all (· ≤ maxText) = true ∧
      (projected.maxLength.all (fun n => 1 ≤ n && n ≤ maxText) = true ↔
        ¬ (type = .string ∧ lengthOr (raw.getD "maxLength") maxText = 0)) := by
  have hnumber : projectNumber raw = .ok projected →
      projected.minLength = none ∧ projected.maxLength = none := by
    intro hnumber
    obtain ⟨minimum, maximum, -, -, rfl⟩ := projectNumber_cases hnumber
    exact ⟨rfl, rfl⟩
  rcases type with - | - | - | - | -
  · obtain ⟨-, least, most, hleast, hmost, hmin, hmax, -, -⟩ := projectString_cases h
    have hle := integer_le hleast (Nat.zero_le _)
    have hle' := integer_le hmost le_rfl
    rw [hmin, hmax, lengthOr_of_integer hmost, Option.all_some, Option.all_some, decide_eq_true_eq]
    refine ⟨hle, ?_⟩
    simp only [Bool.and_eq_true, decide_eq_true_eq, true_and, hle', and_true, Nat.one_le_iff_ne_zero, ne_eq]
  · obtain ⟨hmin, hmax⟩ := hnumber h
    simp [hmin, hmax]
  · obtain ⟨hmin, hmax⟩ := hnumber h
    simp [hmin, hmax]
  · obtain ⟨built, -, h⟩ := bind_eq_ok.mp h
    obtain rfl := Except.ok.inj h
    simp
  · obtain ⟨values, least, most, hvalues, hoptions, -, -, hcount, hone, -, hmin, hmax⟩ := projectArray_cases h
    have hpos := itemCount_pos h
    rw [hvalues, itemCount, Data.asList, Option.getD_some] at hpos
    have hmany := hoptions.length
    have hbound : maxOptions ≤ maxText := by decide
    rw [hmin, hmax, Option.all_some, Option.all_some, decide_eq_true_eq]
    refine ⟨by omega, ?_⟩
    simp only [Bool.and_eq_true, decide_eq_true_eq, reduceCtorEq, false_and, not_false_eq_true, iff_true]
    omega

theorem failure?_buildField {count : Nat} {required : List String}
    (hreq : requestIndex < maxRequests) (hindex : index ≤ count) :
    failure? (buildField python p requestIndex requestId required count index name raw) =
      (fieldChecks python count name raw).findSome? Check.failure? := by
  rw [buildField, fieldChecks]
  rcases raw.asDict with - | entries
  · rfl
  · rw [cons_append, firstFailure_of_true (Option.isSome_some), cons_append]
    refine failure?_guard ?_ fun hcheck => failure?_bind_one (failure?_fieldType _) fun type htype => ?_
    · simp only [Bool.and_eq_true, decide_eq_true_eq, Bool.not_eq_true', not_or, not_le, Bool.not_eq_true]
    · rw [not_or, not_le] at hcheck
      rw [knownType_of_fieldType htype]
      refine failure?_guard (by simp) fun _ => failure?_bind (failure?_project type raw) fun projected hprojected => ?_
      obtain ⟨hmin, hmax⟩ := project_lengths hprojected
      have hname : lengthWithin (fieldId python p requestId name) 1 64 = true := by
        rw [fieldId, lengthWithin, length_opaqueId]
        rfl
      have hlabel := boundedPlain_within (fieldLabel_within hreq (Nat.lt_of_le_of_lt hindex hcheck.1)) (raw.getD "title")
      dsimp only
      rw [validated, InteractionFormField.valid]
      rw [hname, hlabel, hmin, Bool.true_and, Bool.true_and, Bool.true_and, firstFailure_singleton, publicCheck]
      by_cases hzero : type = .string ∧ lengthOr (raw.getD "maxLength") maxText = 0
      · rw [if_neg (mt hmax.mp (not_not.mpr hzero)), if_pos hzero]
        rfl
      · rw [if_pos (hmax.mpr hzero), if_neg hzero]
        rfl

/-! ### Requests -/

theorem failure?_checkRequest (requestId : String) (request : Data) :
    failure? (checkRequest requestId request) = (requestChecks requestId request).findSome? Check.failure? := by
  rw [checkRequest, requestChecks]
  refine failure?_guard ?_ fun _ => failure?_guard ?_ fun _ => ?_
  · simp [Option.isSome_iff_ne_none]
  · simp [Option.isSome_iff_ne_none, and_assoc]
  · rcases (requestedSchema request).asDict with - | entries
    · rfl
    · rw [firstFailure_of_true Option.isSome_some]
      refine failure?_guard (by simp) fun _ => failure?_isNoneOr fun closed => failure?_guard (by simp) fun _ => ?_
      rw [firstFailure_singleton]
      rcases ((requestedSchema request).getD "properties").asDict with - | properties
      · rfl
      · rcases (schemaRequired (requestedSchema request)).asList with - | names
        · rfl
        · dsimp only
          rw [Option.any_some, Option.bind_some]
          rcases names.mapM Data.asStr with - | required
          · rfl
          · rw [Option.any_some]
            dsimp only
            rw [← ite_not]
            exact failure?_ite_of (by simp [and_assoc]) _

variable {built : BuiltRequest}

theorem length_fields {count : Nat} {request : Data}
    (h : buildRequest python p requestIndex count requestId request = .ok built) :
    built.fields.length = (schemaProperties (requestedSchema request)).length := by
  obtain ⟨required, -, h⟩ := bind_eq_ok.mp h
  obtain ⟨fields, hfields, h⟩ := bind_eq_ok.mp h
  obtain rfl := Except.ok.inj h
  rw [length_map, ← (mapM_ok_iff_forall₂.mp hfields).length_eq, length_zipIdx]

theorem failure?_buildRequest (count : Nat) (hreq : requestIndex < maxRequests)
    (requestId : String) (request : Data) :
    failure? (buildRequest python p requestIndex count requestId request) =
      (requestChecks requestId request ++ (schemaProperties (requestedSchema request)).zipIdx.flatMap fun item =>
        fieldChecks python (count + item.2) item.1.1 item.1.2).findSome? Check.failure? := by
  rw [buildRequest]
  refine failure?_bind (failure?_checkRequest requestId request) fun required _ => ?_
  rw [← append_nil (List.flatMap _ _)]
  refine failure?_bind ?_ fun _ _ => rfl
  exact failure?_mapM fun item _ => failure?_buildField hreq (Nat.le_add_left _ _)

theorem failure?_buildRequests (requestIndex count : Nat) (requests : List (String × Data))
    (hreqs : requestIndex + requests.length ≤ maxRequests) :
    failure? (buildRequests python p requestIndex count requests) =
      (requestsChecks python count requests).findSome? Check.failure? := by
  induction requests generalizing requestIndex count with
  | nil => rfl
  | cons item rest ih =>
    rw [length_cons] at hreqs
    rw [buildRequests, requestsChecks]
    refine failure?_bind (failure?_buildRequest count (by omega) item.1 item.2) fun built hbuilt => ?_
    rw [length_fields hbuilt, ← append_nil (requestsChecks _ _ _)]
    exact failure?_bind (ih _ _ (by omega)) fun _ _ => rfl

variable {request : Data} {required : List String}

theorem properties_ne_nil (h : checkRequest requestId request = .ok required) :
    schemaProperties (requestedSchema request) ≠ [] := by
  have hchecks : (requestChecks requestId request).findSome? Check.failure? = none := by
    rw [← failure?_checkRequest, h]
    rfl
  rw [findSome?_eq_none_iff] at hchecks
  have hlast := hchecks _ (getLast_mem (cons_ne_nil _ _))
  rw [schemaProperties]
  rcases hprops : ((requestedSchema request).getD "properties").asDict with - | properties
  · simp [hprops, Check.of, Check.failure?] at hlast
  · rw [Option.getD_some]
    rintro rfl
    simp [hprops, Check.of, Check.failure?] at hlast

variable {count : Nat}

theorem count_lt_of_buildField
    {out : InteractionFormField × String × Data}
    (h : buildField python p requestIndex requestId required count index name raw = .ok out) :
    count < maxFields := by
  rw [buildField] at h
  split at h
  · cases h
  · split at h
    · cases h
    · next hcheck =>
      rw [not_or, not_le] at hcheck
      exact hcheck.1

theorem buildRequest_bounds
    (h : buildRequest python p requestIndex count requestId request = .ok built) :
    1 ≤ built.fields.length ∧ count + built.fields.length ≤ maxFields ∧ 1 ≤ built.message.length := by
  have hlength := length_fields h
  obtain ⟨required, hreqd, h⟩ := bind_eq_ok.mp h
  obtain ⟨fields, hfields, h⟩ := bind_eq_ok.mp h
  have hpos := length_pos_iff.mpr (properties_ne_nil hreqd)
  have hfallback : lengthWithin "请补充以下信息" 1 maxMessage = true := by decide +kernel
  have hmsg := boundedPlain_within hfallback ((request.getD "params").getD "message")
  obtain rfl := Except.ok.inj h
  rw [hlength]
  rw [lengthWithin, Bool.and_eq_true, decide_eq_true_eq] at hmsg
  refine ⟨hpos, ?_, hmsg.1⟩
  have hlast : ((schemaProperties (requestedSchema request))[(schemaProperties (requestedSchema request)).length - 1],
      (schemaProperties (requestedSchema request)).length - 1) ∈ (schemaProperties (requestedSchema request)).zipIdx := by
    rw [mem_zipIdx_iff_getElem?]
    simp
  obtain ⟨out, -, hout⟩ := exists_right_of_forall₂ (mapM_ok_iff_forall₂.mp hfields) hlast
  have hlt := count_lt_of_buildField hout
  omega

theorem buildRequests_bounds {requests : List (String × Data)} {built : List BuiltRequest}
    (h : buildRequests python p requestIndex count requests = .ok built) (hne : requests ≠ []) :
    built ≠ [] ∧ (∀ b ∈ built, 1 ≤ b.message.length) ∧ 1 ≤ (built.flatMap BuiltRequest.fields).length ∧
      count + (built.flatMap BuiltRequest.fields).length ≤ maxFields := by
  induction requests generalizing requestIndex count built with
  | nil => exact absurd rfl hne
  | cons item rest ih =>
    obtain ⟨first, hfirst, h⟩ := bind_eq_ok.mp h
    obtain ⟨others, hothers, h⟩ := bind_eq_ok.mp h
    obtain rfl := Except.ok.inj h
    obtain ⟨hsome, hmany, hmsg⟩ := buildRequest_bounds hfirst
    rw [flatMap_cons, length_append, forall_mem_cons]
    by_cases hrest : rest = []
    · subst hrest
      obtain rfl := Except.ok.inj hothers
      rw [flatMap_nil, length_nil, Nat.add_zero]
      exact ⟨cons_ne_nil _ _, ⟨hmsg, by simp⟩, hsome, hmany⟩
    · obtain ⟨-, hmessages, -, hmany'⟩ := ih hothers hrest
      exact ⟨cons_ne_nil _ _, ⟨hmsg, hmessages⟩, by omega, by omega⟩

theorem length_intercalate {separator : String} {texts : List String} (hne : texts ≠ [])
    (h : ∀ text ∈ texts, 1 ≤ text.length) : 1 ≤ (separator.intercalate texts).length := by
  obtain ⟨first, rest, rfl⟩ := exists_cons_of_ne_nil hne
  have hfirst := h first mem_cons_self
  by_cases hrest : rest = []
  · rw [hrest, String.intercalate_singleton]
    exact hfirst
  · rw [String.intercalate_cons_of_ne_nil hrest, String.length_append, String.length_append]
    omega

theorem failure?_inputChecks (inputRequests : Data) :
    failure? (buildFormProjectionOf python p inputRequests) =
      (inputChecks python inputRequests).findSome? Check.failure? := by
  rcases inputRequests with - | b | n | x | text | items | requests
  case str =>
    rw [buildFormProjectionOf, inputChecks, firstFailure_singleton]
    split
    · rfl
    · rfl
  case list =>
    rw [buildFormProjectionOf, inputChecks, firstFailure_singleton]
    split
    · rfl
    · rfl
  case dict =>
    rw [buildFormProjectionOf, inputChecks, buildFormProjection]
    refine failure?_guard ?_ fun hcheck => ?_
    · simp [Nat.one_le_iff_ne_zero]
    · rw [not_or, not_lt] at hcheck
      rw [← append_nil (requestsChecks _ _ _)]
      refine failure?_bind (failure?_buildRequests 0 0 requests (by omega)) fun built hbuilt => ?_
      obtain ⟨hne, hmessages, hsome, hmany⟩ := buildRequests_bounds hbuilt hcheck.1
      have hdist : ((built.map BuiltRequest.message).eraseDups) ≠ [] := by
        obtain ⟨first, rest, rfl⟩ := exists_cons_of_ne_nil hne
        rw [map_cons, eraseDups_cons]
        exact cons_ne_nil _ _
      have htexts : ∀ text ∈ (built.map BuiltRequest.message).eraseDups, 1 ≤ text.length := by
        intro text htext
        obtain ⟨b, hb, rfl⟩ := mem_map.mp (mem_eraseDups.mp htext)
        exact hmessages b hb
      have hmsg : 1 ≤ (" / ".intercalate (built.map BuiltRequest.message).eraseDups).length :=
        length_intercalate hdist htexts
      have hvalid : InteractionFormProjection.valid
          ⟨String.ofList ((" / ".intercalate (built.map BuiltRequest.message).eraseDups).toList.take maxMessage),
            built.flatMap BuiltRequest.fields⟩ = true := by
        have hpos : 1 ≤ maxMessage := by decide
        rw [Nat.zero_add] at hmany
        simp only [InteractionFormProjection.valid, lengthWithin, String.length_ofList, length_take,
          String.length_toList, Bool.and_eq_true, decide_eq_true_eq]
        omega
      dsimp only
      rw [validated_of_valid hvalid]
      rfl
  all_goals rfl

theorem Check.failure?_eq_none : check.failure? = none ↔ check = .accepts := by
  rcases check with - | - | - <;> simp [failure?]

theorem Check.failure?_eq_raised : check.failure? = some .raised ↔ check = .raises := by
  rcases check with - | - | - <;> simp [failure?]

theorem firstFailure_eq_raised :
    checks.findSome? Check.failure? = some .raised ↔ Check.ReachRaise checks := by
  rw [findSome?_eq_some_iff, Check.ReachRaise]
  constructor
  · rintro ⟨before, check, after, heq, hcheck, hbefore⟩
    obtain rfl := Check.failure?_eq_raised.mp hcheck
    exact ⟨before, after, heq, fun check hin => Check.failure?_eq_none.mp (hbefore check hin)⟩
  · rintro ⟨before, after, heq, hbefore⟩
    exact ⟨before, .raises, after, heq, rfl, fun check hin => Check.failure?_eq_none.mpr (hbefore check hin)⟩

theorem firstFailure_ne_responseInvalid (checks : List Check) :
    checks.findSome? Check.failure? ≠ some .responseInvalid := by
  intro h
  obtain ⟨check, -, hcheck⟩ := exists_of_findSome?_eq_some h
  rcases check with - | - | - <;> cases hcheck

/-- A projection is returned or rejected exactly when no check that raises is reached. -/
theorem projection_rejects_iff (python : Runtime) (p : Presentation) (inputRequests : Data) :
    (∀ failure, buildFormProjectionOf python p inputRequests = .error failure → failure = .payloadInvalid) ↔
      ¬ Check.ReachRaise (inputChecks python inputRequests) := by
  rw [← firstFailure_eq_raised, ← failure?_inputChecks (p := p)]
  have hother := firstFailure_ne_responseInvalid (inputChecks python inputRequests)
  rw [← failure?_inputChecks (p := p)] at hother
  generalize buildFormProjectionOf python p inputRequests = result at hother ⊢
  rcases result with failure | built
  · rcases failure with - | - | -
    · simp [failure?]
    · exact absurd rfl hother
    · simp [failure?]
  · simp [failure?]

def openSchema : Data :=
  .dict [("r", .dict [("method", .str "elicitation/create"), ("params", .dict [("requestedSchema",
    .dict [("type", .str "object"), ("additionalProperties", .dict []),
      ("properties", .dict [("a", .dict [("type", .str "boolean")])])])])])]

theorem openSchema_raises :
    ¬ ∀ failure, buildFormProjectionOf sampleRuntime samplePresentation openSchema = .error failure →
      failure = .payloadInvalid := by
  intro h
  have hraised : Failure.raised = .payloadInvalid := h .raised rfl
  cases hraised

end MultiRag.InteractionForms
