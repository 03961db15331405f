/-
  **Candidate queries for metadata filters.**

  Two stores can select candidates before the stream matches them:
  `build_meta_filter_query` compiles a search query of field presence,
  `build_infinity_filter` an SQL predicate that also asks for a listed number or
  boolean.  What the stores do with them is stated by `selects`.
-/
import MultiRag.MetadataMatcher

namespace MultiRag.Metadata

open List Function

/-! ### `build_meta_filter_query` -/

def getObj (d : Json) (key : String) : Json := (d.get? key).getD (.obj [])

def esFieldTypes : List String :=
  ["text", "keyword", "boolean", "long", "integer", "short", "byte", "double", "float",
    "half_float", "scaled_float", "date"]

/-- The query: a scope and the fields that must exist, all or one of them. -/
structure EsQuery where
  kbIds : List String
  keys : List String
  logic : FilterLogic

def EsQuery.toJson (query : EsQuery) : Json :=
  let clauses := query.keys.map fun key =>
    Json.obj [("exists", .obj [("field", .str ("meta_fields." ++ key))])]
  let scope := Json.obj [("terms", .obj [("kb_id", .arr (query.kbIds.map Json.str))])]
  let combined :=
    match query.logic with
    | .and => Json.obj [("bool", .obj [("must", .arr clauses)])]
    | .or => Json.obj [("bool", .obj [("should", .arr clauses), ("minimum_should_match", .int 1)])]
  .obj [("bool", .obj [("filter", .arr (scope :: if clauses.isEmpty then [] else [combined]))])]

/-- The body of the loop; `none` is `UnsupportedMetaFilter`. -/
def esClause (metadata : Json) (flt : MetaFilter) : Option String :=
  let field := getObj (getObj metadata "properties") flt.key
  if flt.key = "" ∨ flt.key.toList.any (fun c => ['.', '*', '?', '\\'].contains c) then none
  else if !esFieldTypes.any (fun type => field.get? "type" == some (.str type)) then none
  else if field.get? "index" = some (.bool false) ∨ (field.getD "ignore_malformed").truthy ∨
      (field.get? "ignore_above").isSome then none
  else some flt.key

def buildMetaFilterQuery (filters : List MetaFilter) (logic : FilterLogic) (kbIds : List String)
    (mapping : Json) : Option EsQuery :=
  let metadata := getObj (getObj mapping "properties") "meta_fields"
  if metadata.get? "enabled" = some (.bool false) then none
  else (filters.mapM (esClause metadata)).map fun keys => ⟨kbIds, keys, logic⟩

def present (row : MetadataRow) (key : String) : Bool :=
  (row.fields.get? key).any fun field => decide (field ≠ Json.null)

def EsQuery.selects (query : EsQuery) (row : MetadataRow) : Bool :=
  query.kbIds.contains row.kbId &&
    (query.keys.isEmpty ||
      match query.logic with
      | .and => query.keys.all (present row)
      | .or => query.keys.any (present row))

/-! ### `build_infinity_filter` -/

def literalKey (key : String) : Bool :=
  match key.toList with
  | [] => false
  | first :: rest =>
      (first.isAlpha || first == '_') && rest.all fun c => c.isAlphanum || c == '_'

/-- `_sql_string` refuses the other ids. -/
def scopeLiteral (kbId : String) : Bool :=
  kbId != "" && kbId.toList.all fun c => 32 ≤ c.toNat && c != '\\'

def sqlString (value : String) : String :=
  "'" ++ String.join (value.toList.map fun c => if c = '\'' then "''" else String.singleton c) ++ "'"

def smallScalar : Json → Bool
  | .bool _ => true
  | .int n => n.natAbs ≤ 2 ^ 53
  | .float text => isFinite text && (floatInt text).all fun n => n.natAbs ≤ 2 ^ 53
  | _ => false

inductive InfinityClause where
  | present (key : String)
  | containsAny (key : String) (items : List Json)

inductive InfinityPredicate where
  | never
  | scoped (kbIds : List String) (logic : FilterLogic) (clauses : List InfinityClause)

def containsLiteral : Json → String
  | .bool true => "'true'"
  | .bool false => "'false'"
  | value => pyStr (fun _ => false) value

def InfinityClause.toSql : InfinityClause → String
  | .present key => "JSON_EXTRACT_STRING(meta_fields, '$." ++ key ++ "') != 'null'"
  | .containsAny key items =>
      "(" ++ " OR ".intercalate ((items.map containsLiteral).eraseDups.map fun literal =>
        "JSON_CONTAINS(meta_fields, '$." ++ key ++ "', " ++ literal ++ ")") ++ ")"

def InfinityPredicate.toSql : InfinityPredicate → String
  | .never => "1 = 0"
  | .scoped kbIds logic clauses =>
      let scope := "kb_id IN (" ++ ", ".intercalate (kbIds.eraseDups.map sqlString) ++ ")"
      if clauses.isEmpty then scope
      else
        scope ++ " AND (" ++ (match logic with | .and => " AND " | .or => " OR ").intercalate
          (clauses.map InfinityClause.toSql) ++ ")"

def MetaFilter.prunedItems (flt : MetaFilter) : Option (List Json) :=
  match flt.op, flt.value with
  | .isIn, .arr items => if !items.isEmpty && items.all smallScalar then some items else none
  | _, _ => none

def infinityClause (flt : MetaFilter) : InfinityClause :=
  match flt.prunedItems with
  | some items => .containsAny flt.key items
  | none => .present flt.key

/-- The loop over the filters; `none` is the return of the bare scope. -/
def infinityClauses (logic : FilterLogic) : List MetaFilter → Option (List InfinityClause)
  | [] => some []
  | flt :: rest =>
      if literalKey flt.key then (infinityClauses logic rest).map (infinityClause flt :: ·)
      else
        match logic with
        | .or => none
        | .and => infinityClauses logic rest

/-- `none` is the `ValueError` of a knowledge base id that cannot be quoted. -/
def buildInfinityFilter (filters : List MetaFilter) (logic : FilterLogic) (kbIds : List String) :
    Option InfinityPredicate :=
  if kbIds.isEmpty then some .never
  else if kbIds.all scopeLiteral then
    some (.scoped kbIds logic ((infinityClauses logic filters).getD []))
  else none

def typedScalar : Json → Option MembershipKey
  | .bool b => some (.boolean b)
  | .int n => some (.integer n)
  | .float text => some (numberKey text)
  | _ => none

/-- `JSON_CONTAINS(field, item)` for a number or boolean: the field is equal to it or an
    array with an item that is. -/
def jsonContains (field item : Json) : Bool :=
  match field with
  | .arr values => values.any fun value => typedScalar value == typedScalar item
  | field => typedScalar field == typedScalar item

def InfinityClause.selects (row : MetadataRow) : InfinityClause → Bool
  | .present key => Metadata.present row key
  | .containsAny key items =>
      (row.fields.get? key).any fun field => items.any fun item => jsonContains field item

def InfinityPredicate.selects (row : MetadataRow) : InfinityPredicate → Bool
  | .never => false
  | .scoped kbIds logic clauses =>
      kbIds.contains row.kbId &&
        (clauses.isEmpty ||
          match logic with
          | .and => clauses.all fun clause => clause.selects row
          | .or => clauses.any fun clause => clause.selects row)

example : (buildInfinityFilter [⟨"x", .isIn, .arr [.int 0, .bool false]⟩] .and ["O'Reilly"]).map
    InfinityPredicate.toSql = some ("kb_id IN ('O''Reilly') AND ((JSON_CONTAINS(meta_fields, '$.x', 0)"
      ++ " OR JSON_CONTAINS(meta_fields, '$.x', 'false')))") := by decide +kernel

section

variable {lower : String → String} {isPrintable : Char → Bool}
  {row : MetadataRow} {flt : MetaFilter} {items : List Json}

theorem present_of_fieldMatches (h : FieldMatches lower isPrintable row flt) :
    present row flt.key = true := by
  obtain ⟨field, hfield, value, hvalue, -⟩ := h
  have hne : field ≠ .null := by
    rintro rfl
    simp [expanded] at hvalue
  simp [present, hfield, hne]

variable {item : Json}

theorem typedScalar_key (lower : String → String) {key : MembershipKey} (h : typedScalar item = some key) :
    membershipKey lower item = key ∧ (∀ text, key ≠ .string text) ∧ ∀ value, key ≠ .other value := by
  cases item with
  | bool b =>
    cases h
    simp [membershipKey]
  | int n =>
    cases h
    simp [membershipKey]
  | float text =>
    cases h
    refine ⟨rfl, ?_⟩
    unfold numberKey
    split <;> simp
  | _ => cases h

theorem membershipKey_typedScalar {value : Json} (hitem : (typedScalar item).isSome)
    (h : membershipKey lower value = membershipKey lower item) :
    typedScalar value = typedScalar item := by
  obtain ⟨key, hkey⟩ := Option.isSome_iff_exists.mp hitem
  obtain ⟨hitemKey, htext, hother⟩ := typedScalar_key lower hkey
  rw [hitemKey] at h
  rcases hvalue : typedScalar value with _ | key'
  · cases value with
    | str text => exact absurd h.symm (htext _)
    | null => exact absurd h.symm (hother _)
    | arr items => exact absurd h.symm (hother _)
    | obj fields => exact absurd h.symm (hother _)
    | _ => cases hvalue
  · rw [hkey, ← h, (typedScalar_key lower hvalue).1]

theorem typedScalar_of_small (h : smallScalar item = true) :
    (typedScalar item).isSome := by
  cases item <;> simp_all [smallScalar, typedScalar]

theorem prunedItems_eq_some (h : flt.prunedItems = some items) :
    flt.op = .isIn ∧ flt.value = .arr items ∧ flt.members = some items ∧
      ∀ item ∈ items, smallScalar item = true := by
  unfold MetaFilter.prunedItems at h
  split at h
  · next hop hvalue =>
    split at h
    · next hsmall =>
      cases h
      simp only [Bool.and_eq_true, all_eq_true] at hsmall
      exact ⟨hop, hvalue, by simp [MetaFilter.members, hop, hvalue], hsmall.2⟩
    · cases h
  · cases h

/-- The field meets a list of numbers and booleans only by an array inside it: all items
    of that array are listed, and no listed item stands in the field itself. -/
structure NestedOnly (lower : String → String) (row : MetadataRow) (flt : MetaFilter) : Prop where
  covered : ∃ items field inner, flt.prunedItems = some items ∧
    row.fields.get? flt.key = some field ∧ .arr inner ∈ expanded field ∧
    ∀ value ∈ inner, membershipKey lower value ∈ items.map (membershipKey lower)
  uncontained : (infinityClause flt).selects row = false

theorem mem_expanded {field value : Json} (h : value ∈ expanded field) :
    (∃ values, field = .arr values ∧ value ∈ values) ∨
      (field = value ∧ ∀ values, field ≠ .arr values) := by
  unfold expanded at h
  rw [List.mem_filter] at h
  obtain ⟨hmem, -⟩ := h
  split at hmem
  · next values => exact .inl ⟨values, rfl, hmem⟩
  · next hne => exact .inr ⟨(mem_singleton.mp hmem).symm, fun values h => hne values h⟩

theorem NestedOnly.fieldMatches (h : NestedOnly lower row flt) :
    FieldMatches lower isPrintable row flt := by
  obtain ⟨items, field, inner, hitems, hfield, hinner, hall⟩ := h.covered
  obtain ⟨hop, -, hmembers, -⟩ := prunedItems_eq_some hitems
  refine ⟨field, hfield, .arr inner, hinner, ?_⟩
  simp only [ItemMatches, hmembers, hop, membershipMatched, memberHolds, all_eq_true,
    decide_eq_true_eq]
  exact hall

/-- **A clause keeps every row that meets its filter**, but for what stands in an array
    inside an array. -/
theorem selects_or_nested (h : FieldMatches lower isPrintable row flt) :
    (infinityClause flt).selects row = true ∨ NestedOnly lower row flt := by
  rcases hselects : (infinityClause flt).selects row with _ | _
  · right
    refine ⟨?_, hselects⟩
    rcases hitems : flt.prunedItems with _ | items
    · have hpresent := present_of_fieldMatches h
      simp only [infinityClause, hitems, InfinityClause.selects] at hselects
      simp [hpresent] at hselects
    · obtain ⟨field, hfield, value, hvalue, hmatch⟩ := h
      obtain ⟨hop, -, hmembers, hsmall⟩ := prunedItems_eq_some hitems
      simp only [infinityClause, hitems, InfinityClause.selects, hfield, Option.any_some,
        any_eq_false] at hselects
      simp only [ItemMatches, hmembers, hop, membershipMatched, memberHolds] at hmatch
      split at hmatch
      · next inner =>
        simp only [all_eq_true, decide_eq_true_eq] at hmatch
        exact ⟨items, field, inner, rfl, hfield, hvalue, hmatch⟩
      · next hne =>
        -- a listed scalar of the field is what containment asks for
        simp only [decide_eq_true_eq, mem_map] at hmatch
        obtain ⟨item, hitem, hkey⟩ := hmatch
        have hsame : typedScalar value = typedScalar item :=
          membershipKey_typedScalar (typedScalar_of_small (hsmall item hitem)) hkey.symm
        refine absurd ?_ (hselects item hitem)
        unfold jsonContains
        rcases mem_expanded hvalue with ⟨values, rfl, hmem⟩ | ⟨rfl, hfieldNe⟩
        · exact any_eq_true.mpr ⟨value, hmem, by simp [hsame]⟩
        · split
          · next values => exact absurd rfl (hfieldNe values)
          · simp [hsame]
  · exact .inl rfl

end

section

variable {lower : String → String} {isPrintable : Char → Bool} {rows : List MetadataRow}
  {filters : List MetaFilter} {logic : FilterLogic} {kbIds : List String}

theorem mapM_esClause {metadata : Json} {keys : List String}
    (h : filters.mapM (esClause metadata) = some keys) : keys = filters.map MetaFilter.key := by
  induction filters generalizing keys with
  | nil =>
    simp only [mapM_nil, Option.pure_def, Option.some.injEq] at h
    exact h.symm
  | cons flt rest ih =>
    simp only [mapM_cons, Option.bind_eq_bind, Option.bind_eq_some_iff, Option.pure_def,
      Option.some.injEq] at h
    obtain ⟨key, hkey, others, hothers, rfl⟩ := h
    rw [ih hothers, map_cons, List.cons.injEq]
    refine ⟨?_, rfl⟩
    unfold esClause at hkey
    dsimp only at hkey
    split at hkey
    · cases hkey
    split at hkey
    · cases hkey
    split at hkey
    · cases hkey
    · exact (Option.some.inj hkey).symm

theorem esQuery_selects {mapping : Json} {query : EsQuery}
    (h : buildMetaFilterQuery filters logic kbIds mapping = some query) {row : MetadataRow}
    (hkb : row.kbId ∈ kbIds) (hmatch : RowMatches lower isPrintable logic filters row) :
    query.selects row = true := by
  unfold buildMetaFilterQuery at h
  dsimp only at h
  split at h
  · cases h
  · rw [Option.map_eq_some_iff] at h
    obtain ⟨keys, hkeys, rfl⟩ := h
    rw [mapM_esClause hkeys]
    simp only [EsQuery.selects, contains_iff_mem.mpr hkb, Bool.true_and, Bool.or_eq_true]
    right
    cases logic with
    | and =>
      simp only [all_map, all_eq_true, comp_apply]
      exact fun flt hflt => present_of_fieldMatches (hmatch flt hflt)
    | or =>
      obtain ⟨flt, hflt, hfield⟩ := hmatch
      simp only [any_map, any_eq_true, comp_apply]
      exact ⟨flt, hflt, present_of_fieldMatches hfield⟩

def Lost (lower : String → String) (isPrintable : Char → Bool) (logic : FilterLogic)
    (filters : List MetaFilter) (row : MetadataRow) : Prop :=
  match logic with
  | .and => (∀ flt ∈ filters, FieldMatches lower isPrintable row flt) ∧
      ∃ flt ∈ filters, literalKey flt.key = true ∧ NestedOnly lower row flt
  | .or => (∃ flt ∈ filters, NestedOnly lower row flt) ∧
      ∀ flt ∈ filters, literalKey flt.key = true ∧ (infinityClause flt).selects row = false

theorem infinityClauses_and (filters : List MetaFilter) :
    infinityClauses .and filters =
      some ((filters.filter fun flt => literalKey flt.key).map infinityClause) := by
  induction filters with
  | nil => rfl
  | cons flt rest ih =>
    unfold infinityClauses
    split
    · next hkey => simp [ih, hkey]
    · next hkey => simp [ih, hkey]

theorem infinityClauses_or (filters : List MetaFilter) :
    infinityClauses .or filters =
      if ∀ flt ∈ filters, literalKey flt.key = true then some (filters.map infinityClause)
      else none := by
  induction filters with
  | nil => rfl
  | cons flt rest ih =>
    unfold infinityClauses
    split
    · next hkey =>
      rw [ih]
      by_cases hrest : ∀ flt ∈ rest, literalKey flt.key = true
      · simp [hkey, if_pos hrest]
      · simp [hkey, if_neg hrest]
    · next hkey => simp [hkey]

theorem infinity_selects_iff {row : MetadataRow} (hfilters : filters ≠ []) (hkb : row.kbId ∈ kbIds)
    (hmatch : RowMatches lower isPrintable logic filters row) :
    InfinityPredicate.selects row (.scoped kbIds logic ((infinityClauses logic filters).getD [])) = true
      ↔ ¬ Lost lower isPrintable logic filters row := by
  simp only [InfinityPredicate.selects, contains_iff_mem.mpr hkb, Bool.true_and]
  cases logic with
  | and =>
    have hlost : Lost lower isPrintable .and filters row ↔
        ∃ flt ∈ filters, literalKey flt.key = true ∧ NestedOnly lower row flt := by
      simp only [Lost, and_iff_right_iff_imp]
      exact fun _ => hmatch
    rw [hlost, infinityClauses_and]
    simp only [Option.getD_some, Bool.or_eq_true, List.isEmpty_iff, map_eq_nil_iff,
      all_map, all_eq_true, List.mem_filter, comp_apply, and_imp]
    constructor
    · rintro hselects ⟨flt, hflt, hkey, hnested⟩
      rcases hselects with hnone | hall
      · rw [filter_eq_nil_iff] at hnone
        exact hnone flt hflt hkey
      · exact absurd hnested.uncontained (by simp [hall flt hflt hkey])
    · intro hnone
      right
      intro flt hflt hkey
      rcases selects_or_nested (hmatch flt hflt) with hselects | hnested
      · exact hselects
      · exact absurd ⟨flt, hflt, hkey, hnested⟩ hnone
  | or =>
    rw [infinityClauses_or]
    by_cases hkeys : ∀ flt ∈ filters, literalKey flt.key = true
    · rw [if_pos hkeys]
      simp only [Option.getD_some, Bool.or_eq_true, List.isEmpty_iff, map_eq_nil_iff,
        hfilters, false_or, any_map, any_eq_true, comp_apply, Lost, not_and]
      constructor
      · rintro ⟨flt, hflt, hselects⟩ - hall
        rw [(hall flt hflt).2] at hselects
        cases hselects
      · intro hlost
        by_contra hnone
        have hall : ∀ flt ∈ filters, (infinityClause flt).selects row = false := fun flt hflt =>
          Bool.eq_false_iff.mpr fun hselects => hnone ⟨flt, hflt, hselects⟩
        obtain ⟨flt, hflt, hfield⟩ := hmatch
        rcases selects_or_nested hfield with hselects | hnested
        · exact hnone ⟨flt, hflt, hselects⟩
        · exact hlost ⟨flt, hflt, hnested⟩ fun other hother =>
            ⟨hkeys other hother, hall other hother⟩
    · rw [if_neg hkeys]
      simp only [Option.getD_none, isEmpty_nil, Bool.true_or, true_iff]
      rintro ⟨-, hall⟩
      exact hkeys fun flt hflt => (hall flt hflt).1

end

section

variable (lower : String → String) (isPrintable : Char → Bool)

/-- The stream over all rows, over the candidates of the search query (where the mapping
    supports one) and over those of the SQL predicate return the documents of the
    aggregate. -/
structure FilterPathsAgree (rows : List MetadataRow) (filters : List MetaFilter) (logic : FilterLogic)
    (kbIds : List String) (mapping : Json) : Prop where
  stream : ∀ docId, docId ∈ streamMetadataMatches lower isPrintable rows filters logic ↔
    docId ∈ metaFilter lower isPrintable (aggregateMetadataRows lower isPrintable rows) filters logic
  search : ∀ query, buildMetaFilterQuery filters logic kbIds mapping = some query → ∀ docId,
    docId ∈ streamMetadataMatches lower isPrintable (rows.filter query.selects) filters logic ↔
      docId ∈ metaFilter lower isPrintable (aggregateMetadataRows lower isPrintable rows) filters logic
  infinity : ∀ predicate, buildInfinityFilter filters logic kbIds = some predicate → ∀ docId,
    docId ∈ streamMetadataMatches lower isPrintable
        (rows.filter fun row => predicate.selects row) filters logic ↔
      docId ∈ metaFilter lower isPrintable (aggregateMetadataRows lower isPrintable rows) filters logic

variable {lower isPrintable} {rows : List MetadataRow} {filters : List MetaFilter}
  {logic : FilterLogic} {kbIds : List String}

theorem stream_filter_iff (hlower : ∀ text, lower (lower text) = lower text)
    (hrows : DistinctDocs rows) (hfilters : filters ≠ []) (keep : MetadataRow → Bool) :
    (∀ docId, docId ∈ streamMetadataMatches lower isPrintable (rows.filter keep) filters logic ↔
      docId ∈ metaFilter lower isPrintable (aggregateMetadataRows lower isPrintable rows) filters
        logic) ↔
    (validMetadataConditions filters = true → ∀ row ∈ rows,
      RowMatches lower isPrintable logic filters row → keep row = true) := by
  simp only [mem_streamMetadataMatches hlower hfilters, mem_metaFilter hlower hrows hfilters,
    List.mem_filter]
  constructor
  · intro hsame hvalid row hrow hmatch
    obtain ⟨-, row', ⟨hrow', hkeep⟩, hid, -⟩ :=
      (hsame row.docId).mpr ⟨hvalid, row, hrow, rfl, hmatch⟩
    rwa [← inj_on_of_nodup_map hrows hrow' hrow hid]
  · intro hkeep docId
    constructor
    · rintro ⟨hvalid, row, ⟨hrow, -⟩, hid, hmatch⟩
      exact ⟨hvalid, row, hrow, hid, hmatch⟩
    · rintro ⟨hvalid, row, hrow, hid, hmatch⟩
      exact ⟨hvalid, row, ⟨hrow, hkeep hvalid row hrow hmatch⟩, hid, hmatch⟩

/-- **The filter paths agree exactly when no row is lost**: no row that matches has, under a
    list of numbers and booleans, only an array inside its field for it. -/
theorem filter_paths_agree_iff (hlower : ∀ text, lower (lower text) = lower text)
    (hrows : DistinctDocs rows) (hscope : ∀ row ∈ rows, row.kbId ∈ kbIds) (hfilters : filters ≠ [])
    (mapping : Json) :
    FilterPathsAgree lower isPrintable rows filters logic kbIds mapping ↔
      ((∀ kbId ∈ kbIds, scopeLiteral kbId = true) → validMetadataConditions filters = true →
        ∀ row ∈ rows, ¬ Lost lower isPrintable logic filters row) := by
  have hlost : ∀ row ∈ rows, Lost lower isPrintable logic filters row →
      RowMatches lower isPrintable logic filters row := by
    intro row _ hlost
    cases logic with
    | and => exact hlost.1
    | or =>
      obtain ⟨⟨flt, hflt, hnested⟩, -⟩ := hlost
      exact ⟨flt, hflt, hnested.fieldMatches⟩
  constructor
  · intro hagree hkbs hvalid row hrow hrowLost
    have hne : kbIds.isEmpty = false := by
      rw [isEmpty_eq_false_iff_exists_mem]
      exact ⟨row.kbId, hscope row hrow⟩
    have hbuild : buildInfinityFilter filters logic kbIds =
        some (.scoped kbIds logic ((infinityClauses logic filters).getD [])) := by
      simp only [buildInfinityFilter, hne, Bool.false_eq_true, if_false,
        all_eq_true.mpr hkbs, if_true]
    have hkeep := (stream_filter_iff hlower hrows hfilters _).mp (hagree.infinity _ hbuild) hvalid
      row hrow (hlost row hrow hrowLost)
    exact (infinity_selects_iff hfilters (hscope row hrow) (hlost row hrow hrowLost)).mp hkeep hrowLost
  · intro hnone
    refine ⟨stream_eq_metaFilter hlower hrows hfilters, ?_, ?_⟩
    · intro query hquery
      rw [stream_filter_iff hlower hrows hfilters]
      exact fun _ row hrow hmatch => esQuery_selects hquery (hscope row hrow) hmatch
    · intro predicate hpredicate
      rw [stream_filter_iff hlower hrows hfilters]
      intro hvalid row hrow hmatch
      unfold buildInfinityFilter at hpredicate
      split at hpredicate
      · next hempty =>
        rw [List.isEmpty_iff] at hempty
        simp [hempty] at hscope
        exact absurd hrow (hscope row)
      split at hpredicate
      · next hkbs =>
        rw [← Option.some.inj hpredicate, infinity_selects_iff hfilters (hscope row hrow) hmatch]
        exact hnone (all_eq_true.mp hkbs) hvalid row hrow
      · cases hpredicate

def sampleRow (docId : String) (value : Json) : MetadataRow where
  docId := docId
  kbId := "kb"
  fields := .obj [("x", value)]
  distinct := by simp [Json.keys]

def sampleFilter : MetaFilter := ⟨"x", .isIn, .arr [.int 1]⟩

def sampleMapping : Json :=
  .obj [("properties", .obj [("meta_fields", .obj [("properties",
    .obj [("x", .obj [("type", .str "long")])])])])]

def containedRows : List MetadataRow :=
  [sampleRow "a" (.arr [.int 1, .str "b"]), sampleRow "b" (.arr [.arr [.int 1], .int 1])]

theorem filter_paths_agree_iff_sample :
    FilterPathsAgree id (fun _ => false) containedRows [sampleFilter] .and ["kb"] sampleMapping := by
  refine (filter_paths_agree_iff (fun _ => rfl) (by unfold DistinctDocs; decide) ?_ (by simp)
    sampleMapping).mpr ?_
  · decide
  · intro _ _ row hrow hlost
    obtain ⟨-, flt, hflt, -, hnested⟩ := hlost
    rw [mem_singleton] at hflt
    subst hflt
    simp only [containedRows, mem_cons, not_mem_nil, or_false] at hrow
    rcases hrow with rfl | rfl
    · exact absurd hnested.uncontained (by decide +kernel)
    · exact absurd hnested.uncontained (by decide +kernel)

/-- An array with an empty array matches every list membership, and contains no number. -/
theorem nested_array_lost :
    ¬ FilterPathsAgree id (fun _ => false) [sampleRow "d" (.arr [.arr []])] [sampleFilter] .and
      ["kb"] sampleMapping := by
  intro h
  have hfound := (h.infinity (.scoped ["kb"] .and [.containsAny "x" [.int 1]]) (by rfl) "d").mpr
    (by decide +kernel)
  revert hfound
  decide +kernel

end

end MultiRag.Metadata
