/-
  **Form projection and decoding agree with the schema.**

  `Agrees` collects both directions: what a submission decodes to answers every
  request as its schema asks, as far as the private mapping carries it, and contents
  that the form can hold decode to themselves.
-/
import MultiRag.InteractionFormsWritten

namespace MultiRag.InteractionForms

open List

variable {python : Runtime} {p : Presentation} {inputRequests : List (String × Data)}
  {unicodeDecimal : Char → Option Nat}

def Declares (inputRequests : List (String × Data)) (requestId name : String) (raw : Data) : Prop :=
  ∃ request, (requestId, request) ∈ inputRequests ∧ (name, raw) ∈ schemaProperties (requestedSchema request)

/-- The ids of the fields differ, and those of the options of each field. -/
structure CollisionFree (python : Runtime) (p : Presentation) (inputRequests : List (String × Data)) : Prop where
  fields : ∀ requestId name raw requestId' name' raw', Declares inputRequests requestId name raw →
    Declares inputRequests requestId' name' raw' →
    fieldId python p requestId name = fieldId python p requestId' name' → requestId = requestId' ∧ name = name'
  options : ∀ requestId name raw, Declares inputRequests requestId name raw →
    DistinctOptions python p requestId name raw

structure Requests (inputRequests : List (String × Data)) : Prop where
  distinct : (inputRequests.map Prod.fst).Nodup
  wellFormed : ∀ item ∈ inputRequests, item.2.WellFormed

/-- The form holds the contents and nothing else. -/
structure Submits (python : Runtime) (p : Presentation) (inputRequests : List (String × Data))
    (contents : String → List (String × Data)) (formValue : List (String × Data)) : Prop where
  known : ∀ key ∈ formValue.map Prod.fst, ∃ requestId name raw, Declares inputRequests requestId name raw ∧
    key = fieldId python p requestId name
  written : ∀ requestId name raw v, Declares inputRequests requestId name raw →
    (contents requestId).lookup name = some v →
    ∃ w, formValue.lookup (fieldId python p requestId name) = some w ∧
      Written python p requestId name raw v w
  absent : ∀ requestId name raw, Declares inputRequests requestId name raw →
    (contents requestId).lookup name = none → formValue.lookup (fieldId python p requestId name) = none

/-- Two contents are equal as dictionaries. -/
def SameContent (decoded content : List (String × Data)) : Prop :=
  ∀ name, Option.Rel Same (decoded.lookup name) (content.lookup name)

/-! ### The mapping -/

variable {request : Data}

theorem mem_schemaProperties_nodup (h : request.WellFormed) :
    ((schemaProperties (requestedSchema request)).map Prod.fst).Nodup := by
  have hprops : ((requestedSchema request).getD "properties").WellFormed :=
    ((h.getD "params").getD "requestedSchema").getD "properties"
  unfold schemaProperties
  cases hdata : (requestedSchema request).getD "properties" with
  | dict items =>
    rw [hdata, Data.WellFormed] at hprops
    exact hprops.1
  | null | bool _ | int _ | float _ | str _ | list _ => exact nodup_nil

variable {required : List String} {entries : List (String × Data)} {requestId : String}

theorem entries_nodup (hfree : CollisionFree python p inputRequests)
    (hreqs : Requests inputRequests) (hmem : (requestId, request) ∈ inputRequests)
    (hentries : Forall₂ (FieldBuilt python p requestId required) (schemaProperties (requestedSchema request)) entries) : (entries.map Prod.fst).Nodup := by
  have hkeys : entries.map Prod.fst =
      (schemaProperties (requestedSchema request)).map fun property => fieldId python p requestId property.1 := by
    refine map_eq_of_forall₂ hentries ?_
    rintro property entry ⟨type, projected, -, -, -, -, rfl⟩
    rfl
  have hnames := mem_schemaProperties_nodup (hreqs.wellFormed _ hmem)
  rw [hkeys]
  refine Nodup.map_on ?_ (Nodup.of_map _ hnames)
  rintro ⟨name, raw⟩ hname ⟨name', raw'⟩ hname' heq
  obtain ⟨-, rfl⟩ := hfree.fields requestId name raw requestId name' raw' ⟨request, hmem, hname⟩
    ⟨request, hmem, hname'⟩ heq
  have hraw := (lookup_iff_mem hnames).mpr hname
  rw [(lookup_iff_mem hnames).mpr hname', Option.some.injEq] at hraw
  rw [hraw]

theorem checkRequest_cases (h : checkRequest requestId request = .ok required) :
    schemaRequired (requestedSchema request) = .list (required.map .str) ∧
      required ⊆ (schemaProperties (requestedSchema request)).map Prod.fst := by
  unfold checkRequest at h
  simp only at h
  split at h
  · cases h
  · split at h
    · cases h
    · split at h
      · cases h
      · split at h
        · cases h
        · obtain ⟨closed, -, h⟩ := bind_eq_ok.mp h
          split at h
          · cases h
          · split at h
            · next properties names hprops hnames =>
              split at h
              · cases h
              · next texts htexts =>
                split at h
                · cases h
                · next hcheck =>
                  push Not at hcheck
                  cases h
                  constructor
                  · exact texts_iff.mp (by rw [hnames]; exact htexts)
                  · rw [schemaProperties, hprops]
                    exact hcheck.2.2
            · cases h

variable {name : String}

theorem requires_iff (h : checkRequest requestId request = .ok required) :
    Requires (requestedSchema request) name ↔ name ∈ required := by
  constructor
  · rintro ⟨names, hnames, hmem⟩
    rw [(checkRequest_cases h).1, Data.list.injEq] at hnames
    subst hnames
    simpa using hmem
  · intro hmem
    exact ⟨required.map .str, (checkRequest_cases h).1, mem_map_of_mem hmem⟩

/-! ### One submission -/

variable {formValue : List (String × Data)}

theorem decodeField_privateSpec {fieldId : String} {type : FieldType}
    {required : Bool} {projected : Projected} (hname : name ≠ "") :
    decodeField unicodeDecimal formValue fieldId (privateSpec name type required projected) =
      match answerOf formValue fieldId with
      | none => if required = true then .error .responseInvalid else .ok none
      | some w =>
        match decodeValue unicodeDecimal (privateSpec name type required projected) w with
        | none => .error .responseInvalid
        | some v => .ok (some (name, v)) := by
  have hdict : ∃ items, (privateSpec name type required projected).asDict = some items := ⟨_, rfl⟩
  obtain ⟨items, hitems⟩ := hdict
  unfold decodeField
  rw [hitems, privateSpec_name, privateSpec_required]
  cases answerOf formValue fieldId with
  | none => simp [Data.asBool]
  | some w =>
    cases hv : decodeValue unicodeDecimal (privateSpec name type required projected) w with
    | none => simp [hv]
    | some v => simp [hv, Data.asStr, hname]

theorem decodeField_cases
    {property entry : String × Data} {out : Option (String × Data)}
    (hbuilt : FieldBuilt python p requestId required property entry)
    (h : decodeField unicodeDecimal formValue entry.1 entry.2 = .ok out) :
    (out = none ∧ property.1 ∉ required) ∨
      ∃ w v, out = some (property.1, v) ∧ decodeValue unicodeDecimal entry.2 w = some v := by
  obtain ⟨type, projected, -, -, -, hname, rfl⟩ := hbuilt
  rw [decodeField_privateSpec hname] at h
  split at h
  · split at h
    · cases h
    · next hreqd =>
      cases h
      exact .inl ⟨rfl, by simpa using hreqd⟩
  · next w _ =>
    split at h
    · cases h
    · next v hv =>
      cases h
      exact .inr ⟨w, v, rfl, hv⟩

theorem keys_sublist {α : Type} {R : String × Data → Option (String × α) → Prop} {l : List (String × Data)}
    {out : List (Option (String × α))} (h : Forall₂ R l out)
    (hkey : ∀ x key v, R x (some (key, v)) → key = x.1) :
    ((out.filterMap id).map Prod.fst).Sublist (l.map Prod.fst) := by
  induction h with
  | nil => exact .slnil
  | @cons x y _ _ hfirst _ ih =>
    cases y with
    | none => exact ih.cons x.1
    | some item =>
      rw [filterMap_cons_some (by rfl), map_cons, map_cons, hkey x item.1 item.2 hfirst]
      exact ih.cons_cons x.1

variable {out : String × Data}

section

variable (hfree : CollisionFree python p inputRequests)
  (hreqs : Requests inputRequests)
  (hmem : (requestId, request) ∈ inputRequests)
include hfree hreqs hmem

theorem decodeRequest_cases
    (hentries : Forall₂ (FieldBuilt python p requestId required) (schemaProperties (requestedSchema request)) entries)
    (h : decodeRequest unicodeDecimal formValue requestId (.dict (dictOf entries)) = .ok out) :
    ∃ results, Forall₂ (fun property result => ∃ entry,
        FieldBuilt python p requestId required property entry ∧
          decodeField unicodeDecimal formValue entry.1 entry.2 = .ok result)
        (schemaProperties (requestedSchema request)) results ∧
      ((results.filterMap id).map Prod.fst).Nodup ∧ out = (requestId, accepted (results.filterMap id)) := by
  have hnames := mem_schemaProperties_nodup (hreqs.wellFormed _ hmem)
  rw [dictOf_eq (entries_nodup hfree hreqs hmem hentries)] at h
  obtain ⟨results, hresults, h⟩ := bind_eq_ok.mp h
  cases h
  have hboth := forall₂_comp hentries (mapM_ok_iff_forall₂.mp hresults)
  have hnodup : ((results.filterMap id).map Prod.fst).Nodup := by
    refine (keys_sublist hboth ?_).nodup hnames
    rintro property key v ⟨entry, hbuilt, hentry⟩
    rcases decodeField_cases hbuilt hentry with ⟨hnone, -⟩ | ⟨w, v', hsome, -⟩
    · cases hnone
    · cases hsome
      rfl
  exact ⟨results, hboth, hnodup, by rw [accepted, dictOf_eq hnodup]⟩

theorem decodeRequest_satisfies
    (hreqd : checkRequest requestId request = .ok required)
    (hentries : Forall₂ (FieldBuilt python p requestId required) (schemaProperties (requestedSchema request)) entries)
    (h : decodeRequest unicodeDecimal formValue requestId (.dict (dictOf entries)) = .ok out) :
    ∃ content, out = (requestId, accepted content) ∧ Satisfies Carried (requestedSchema request) content := by
  obtain ⟨results, hresults, hnodup, rfl⟩ := decodeRequest_cases hfree hreqs hmem hentries h
  refine ⟨_, rfl, hnodup, ?_, ?_⟩
  · intro name v hv
    rw [mem_filterMap] at hv
    obtain ⟨result, hresult, hsome⟩ := hv
    obtain rfl : result = some (name, v) := hsome
    obtain ⟨⟨name', raw⟩, hprop, entry, hbuilt, hentry⟩ := exists_left_of_forall₂ hresults hresult
    rcases decodeField_cases hbuilt hentry with ⟨hnone, -⟩ | ⟨w, v', hsome, hdec⟩
    · cases hnone
    · cases hsome
      exact ⟨raw, hprop, field_satisfies hbuilt
        (hfree.options requestId name' raw ⟨request, hmem, hprop⟩) hdec⟩
  · intro name hname
    rw [requires_iff hreqd] at hname
    obtain ⟨⟨name', raw⟩, hprop, rfl⟩ := mem_map.mp ((checkRequest_cases hreqd).2 hname)
    obtain ⟨result, hresult, entry, hbuilt, hentry⟩ := exists_right_of_forall₂ hresults hprop
    rcases decodeField_cases hbuilt hentry with ⟨-, hnot⟩ | ⟨w, v, rfl, -⟩
    · exact absurd hname hnot
    · exact ⟨v, mem_filterMap.mpr ⟨_, hresult, rfl⟩⟩

end

/-! ### All requests -/

variable {requests : List (String × Data)}

theorem requests_keys
    (h : Forall₂ (RequestBuilt python p) inputRequests requests) :
    requests.map Prod.fst = inputRequests.map Prod.fst := by
  refine map_eq_of_forall₂ h ?_
  rintro item entry ⟨required, entries, -, rfl, -⟩
  rfl

theorem decodeRequest_key {fields : Data} (h : decodeRequest unicodeDecimal formValue requestId fields = .ok out) :
    out.1 = requestId := by
  unfold decodeRequest at h
  split at h
  · cases h
  · obtain ⟨results, -, h⟩ := bind_eq_ok.mp h
    cases h
    rfl

theorem decodeFormSubmission_accept :
    decodeFormSubmission unicodeDecimal (.dict [("requests", .dict requests)]) .accept formValue =
      decodeAccepted unicodeDecimal formValue requests := rfl

variable {projection : InteractionFormProjection} {mapping : Data}

theorem decoded_answers
    {responses : List (String × Data)} (hfree : CollisionFree python p inputRequests)
    (hreqs : Requests inputRequests)
    (hbuild : buildFormProjection python p inputRequests = .ok (projection, mapping))
    (hdecode : decodeFormSubmission unicodeDecimal mapping .accept formValue = .ok responses) :
    Answers Carried inputRequests responses := by
  obtain ⟨requests, rfl, hbuilt⟩ := buildFormProjection_cases hbuild
  have hkeys := requests_keys hbuilt
  rw [dictOf_eq (hkeys ▸ hreqs.distinct), decodeFormSubmission_accept, decodeAccepted] at hdecode
  split at hdecode
  · cases hdecode
  · obtain ⟨out, hout, hdecode⟩ := bind_eq_ok.mp hdecode
    cases hdecode
    have hpairs := mapM_ok_iff_forall₂.mp hout
    have hout_keys : out.map Prod.fst = inputRequests.map Prod.fst := by
      rw [← hkeys]
      exact map_eq_of_forall₂ hpairs fun request response hresp => decodeRequest_key hresp
    rw [dictOf_eq (hout_keys ▸ hreqs.distinct)]
    refine ⟨hout_keys, fun requestId request hmem => ?_⟩
    obtain ⟨response, hresp, entry, ⟨required, entries, hreqd, rfl, hentries⟩, hdec⟩ :=
      exists_right_of_forall₂ (forall₂_comp hbuilt hpairs) hmem
    obtain ⟨content, rfl, hsat⟩ :=
      decodeRequest_satisfies hfree hreqs hmem hreqd hentries hdec
    exact ⟨content, hresp, hsat⟩

theorem decoded_field {responses : List (String × Data)} {spec : Data} {fieldId : String}
    (h : decodeFormSubmission unicodeDecimal (.dict [("requests", .dict requests)]) .accept formValue =
      .ok responses)
    (hreq : (requestId, .dict entries) ∈ requests) (hentry : (fieldId, spec) ∈ entries) :
    ∃ result, decodeField unicodeDecimal formValue fieldId spec = .ok result := by
  rw [decodeFormSubmission_accept, decodeAccepted] at h
  split at h
  · cases h
  · obtain ⟨out, hout, -⟩ := bind_eq_ok.mp h
    obtain ⟨response, -, hresp⟩ := exists_right_of_forall₂ (mapM_ok_iff_forall₂.mp hout) hreq
    obtain ⟨results, hresults, -⟩ := bind_eq_ok.mp hresp
    obtain ⟨result, -, hresult⟩ := exists_right_of_forall₂ (mapM_ok_iff_forall₂.mp hresults) hentry
    exact ⟨result, hresult⟩

theorem decodeField_error {fieldId : String} {spec : Data} {e : Failure}
    (h : decodeField unicodeDecimal formValue fieldId spec = .error e) : e ≠ .raised := by
  unfold decodeField at h
  split at h
  · cases h
    nofun
  · split at h
    · split at h
      · cases h
        nofun
      · cases h
    · split at h
      · cases h
        nofun
      · split at h
        · cases h
          nofun
        · split at h
          · cases h
            nofun
          · cases h

theorem decode_error {e : Failure}
    (h : decodeFormSubmission unicodeDecimal mapping .accept formValue = .error e) : e ≠ .raised := by
  unfold decodeFormSubmission at h
  split at h
  · cases h
    nofun
  · simp only [decodeAccepted] at h
    split at h
    · cases h
      nofun
    · rcases bind_eq_error.mp h with h | ⟨out, -, h⟩
      · obtain ⟨request, -, h⟩ := mapM_error h
        unfold decodeRequest at h
        split at h
        · cases h
          nofun
        · rcases bind_eq_error.mp h with h | ⟨content, -, h⟩
          · obtain ⟨field, -, h⟩ := mapM_error h
            exact decodeField_error h
          · cases h
      · cases h

/-! ### Contents that are written -/

theorem answerOf_some {fieldId : String} {w : Data}
    (h : formValue.lookup fieldId = some w) (hanswered : Answered w) : answerOf formValue fieldId = some w := by
  unfold answerOf
  rw [h]
  cases w with
  | null => exact absurd rfl hanswered.1
  | str text =>
    have hne : text ≠ "" := by
      rintro rfl
      exact hanswered.2 rfl
    simp [hne]
  | bool _ | int _ | float _ | list _ | dict _ => rfl

variable {contents : String → List (String × Data)}

theorem submitted_field
    {property entry : String × Data} (hfree : CollisionFree python p inputRequests)
    (hmem : (requestId, request) ∈ inputRequests)
    (hreqd : checkRequest requestId request = .ok required)
    (hprop : property ∈ schemaProperties (requestedSchema request))
    (hnames : ((schemaProperties (requestedSchema request)).map Prod.fst).Nodup)
    (hbuilt : FieldBuilt python p requestId required property entry)
    (hsat : Satisfies Every (requestedSchema request) (contents requestId))
    (hwritable : ∀ v, (contents requestId).lookup property.1 = some v → Writable property.2 v)
    (hsubmits : Submits python p inputRequests contents formValue) :
    ∃ result, decodeField unicodeDecimal formValue entry.1 entry.2 = .ok result ∧
      match (contents requestId).lookup property.1 with
      | none => result = none
      | some v => ∃ decoded, result = some (property.1, decoded) ∧ Same decoded v := by
  obtain ⟨name, raw⟩ := property
  have hdeclares : Declares inputRequests requestId name raw := ⟨request, hmem, hprop⟩
  have hfield := hbuilt
  obtain ⟨type, projected, -, -, -, hname, rfl⟩ := hbuilt
  rw [decodeField_privateSpec hname]
  cases hlookup : (contents requestId).lookup name with
  | none =>
    have habsent := hsubmits.absent requestId name raw hdeclares hlookup
    have hnot : name ∉ required := by
      intro hin
      obtain ⟨v, hv⟩ := hsat.required name ((requires_iff hreqd).mpr hin)
      rw [(lookup_iff_mem hsat.distinct).mpr hv] at hlookup
      cases hlookup
    exact ⟨none, by simp [answerOf, habsent, hnot], rfl⟩
  | some v =>
    obtain ⟨w, hw, hwritten⟩ := hsubmits.written requestId name raw v hdeclares hlookup
    obtain ⟨raw', hraw', hholds⟩ := hsat.declared name v ((lookup_iff_mem hsat.distinct).mp hlookup)
    have hsame : raw' = raw := by
      have hraw := (lookup_iff_mem hnames).mpr hprop
      rw [(lookup_iff_mem hnames).mpr hraw', Option.some.injEq] at hraw
      exact hraw
    subst hsame
    obtain ⟨hanswered, decoded, hdec, hsame⟩ :=
      field_decodes unicodeDecimal hfield (hfree.options requestId name raw' hdeclares) hholds
        (hwritable v hlookup) hwritten
    refine ⟨some (name, decoded), ?_, decoded, rfl, hsame⟩
    rw [answerOf_some hw hanswered]
    simp only [hdec]

/-- The contents of all requests satisfy their schemas, and the form can hold them. -/
structure Contents (inputRequests : List (String × Data)) (contents : String → List (String × Data)) : Prop where
  satisfies : ∀ requestId request, (requestId, request) ∈ inputRequests →
    Satisfies Every (requestedSchema request) (contents requestId)
  writable : ∀ requestId name raw v, Declares inputRequests requestId name raw →
    (contents requestId).lookup name = some v → Writable raw v

theorem submitted_request (unicodeDecimal : Char → Option Nat) (hfree : CollisionFree python p inputRequests)
    (hreqs : Requests inputRequests) (hmem : (requestId, request) ∈ inputRequests)
    (hreqd : checkRequest requestId request = .ok required)
    (hentries : Forall₂ (FieldBuilt python p requestId required) (schemaProperties (requestedSchema request)) entries)
    (hcontents : Contents inputRequests contents)
    (hsubmits : Submits python p inputRequests contents formValue) :
    ∃ content, decodeRequest unicodeDecimal formValue requestId (.dict (dictOf entries)) =
      .ok (requestId, accepted content) ∧ SameContent content (contents requestId) := by
  have hnames := mem_schemaProperties_nodup (hreqs.wellFormed _ hmem)
  have hsat := hcontents.satisfies requestId request hmem
  have hfield : ∀ property ∈ schemaProperties (requestedSchema request), ∀ entry,
      FieldBuilt python p requestId required property entry →
      ∃ result, decodeField unicodeDecimal formValue entry.1 entry.2 = .ok result ∧
        match (contents requestId).lookup property.1 with
        | none => result = none
        | some v => ∃ decoded, result = some (property.1, decoded) ∧ Same decoded v :=
    fun property hprop entry hbuilt =>
      submitted_field hfree hmem hreqd hprop hnames hbuilt hsat
        (fun v => hcontents.writable requestId property.1 property.2 v ⟨request, hmem, hprop⟩) hsubmits
  have hdecodes : ∃ out, decodeRequest unicodeDecimal formValue requestId (.dict (dictOf entries)) = .ok out := by
    have hall : ∀ entry ∈ entries, ∃ result,
        decodeField unicodeDecimal formValue entry.1 entry.2 = .ok result := by
      intro entry hentry
      obtain ⟨property, hprop, hbuilt⟩ := exists_left_of_forall₂ hentries hentry
      obtain ⟨result, hresult, -⟩ := hfield property hprop entry hbuilt
      exact ⟨result, hresult⟩
    obtain ⟨results, hresults⟩ := exists_mapM_ok.mpr hall
    rw [dictOf_eq (entries_nodup hfree hreqs hmem hentries)]
    exact ⟨_, bind_eq_ok.mpr ⟨results, hresults, rfl⟩⟩
  obtain ⟨out, hout⟩ := hdecodes
  obtain ⟨results, hresults, hnodup, rfl⟩ := decodeRequest_cases hfree hreqs hmem hentries hout
  refine ⟨results.filterMap id, hout, fun name => ?_⟩
  cases hdec : (results.filterMap id).lookup name with
  | some decoded =>
    obtain ⟨result, hresult, hsome⟩ := mem_filterMap.mp ((lookup_iff_mem hnodup).mp hdec)
    obtain rfl : result = some (name, decoded) := hsome
    obtain ⟨property, hprop, entry, hbuilt, hentry⟩ := exists_left_of_forall₂ hresults hresult
    obtain ⟨result', hresult', hmatch⟩ := hfield property hprop entry hbuilt
    rw [hentry, Except.ok.injEq] at hresult'
    subst hresult'
    cases hlookup : (contents requestId).lookup property.1 with
    | none =>
      rw [hlookup] at hmatch
      cases hmatch
    | some v =>
      rw [hlookup] at hmatch
      obtain ⟨decoded', hsome, hsame⟩ := hmatch
      cases hsome
      rw [hlookup]
      exact .some hsame
  | none =>
    cases hlookup : (contents requestId).lookup name with
    | none => exact .none
    | some v =>
      -- a value of the content is decoded, so the lookup would find it
      obtain ⟨raw, hprop, -⟩ := hsat.declared name v ((lookup_iff_mem hsat.distinct).mp hlookup)
      obtain ⟨result, hresult, entry, hbuilt, hentry⟩ := exists_right_of_forall₂ hresults hprop
      obtain ⟨result', hresult', hmatch⟩ := hfield (name, raw) hprop entry hbuilt
      rw [hentry, Except.ok.injEq] at hresult'
      subst hresult'
      rw [hlookup] at hmatch
      obtain ⟨decoded, rfl, -⟩ := hmatch
      rw [(lookup_iff_mem hnodup).mpr (mem_filterMap.mpr ⟨_, hresult, rfl⟩)] at hdec
      cases hdec

section

variable (hfree : CollisionFree python p inputRequests) (hreqs : Requests inputRequests)
include hfree hreqs

theorem submits_known
    (hbuilt : Forall₂ (RequestBuilt python p) inputRequests requests)
    (hsubmits : Submits python p inputRequests contents formValue) :
    formValue.map Prod.fst ⊆ knownFields requests := by
  intro key hkey
  obtain ⟨requestId, name, raw, ⟨request, hmem, hprop⟩, rfl⟩ := hsubmits.known key hkey
  obtain ⟨entry, hentry, required, entries, -, rfl, hentries⟩ := exists_right_of_forall₂ hbuilt hmem
  obtain ⟨field, hfield, type, projected, -, -, -, -, rfl⟩ := exists_right_of_forall₂ hentries hprop
  refine mem_flatMap.mpr ⟨_, hentry, ?_⟩
  rw [dictOf_eq (entries_nodup hfree hreqs hmem hentries)]
  exact mem_map_of_mem (f := Prod.fst) hfield

theorem submission_decodes
    (hbuild : buildFormProjection python p inputRequests = .ok (projection, mapping))
    (hcontents : Contents inputRequests contents)
    (hsubmits : Submits python p inputRequests contents formValue) :
    ∃ responses, decodeFormSubmission unicodeDecimal mapping .accept formValue = .ok responses ∧
      responses.map Prod.fst = inputRequests.map Prod.fst ∧
      ∀ requestId request, (requestId, request) ∈ inputRequests →
        ∃ content, (requestId, accepted content) ∈ responses ∧ SameContent content (contents requestId) := by
  obtain ⟨requests, rfl, hbuilt⟩ := buildFormProjection_cases hbuild
  have hkeys := requests_keys hbuilt
  rw [dictOf_eq (hkeys ▸ hreqs.distinct), decodeFormSubmission_accept, decodeAccepted,
    if_neg (not_not.mpr (submits_known hfree hreqs hbuilt hsubmits))]
  have hall : ∀ entry ∈ requests, ∃ response,
      decodeRequest unicodeDecimal formValue entry.1 entry.2 = .ok response := by
    intro entry hentry
    obtain ⟨item, hitem, required, entries, hreqd, rfl, hentries⟩ := exists_left_of_forall₂ hbuilt hentry
    obtain ⟨content, hdec, -⟩ :=
      submitted_request unicodeDecimal hfree hreqs hitem hreqd hentries hcontents hsubmits
    exact ⟨_, hdec⟩
  obtain ⟨out, hout⟩ := exists_mapM_ok.mpr hall
  have hpairs := mapM_ok_iff_forall₂.mp hout
  have hout_keys : out.map Prod.fst = inputRequests.map Prod.fst := by
    rw [← hkeys]
    exact map_eq_of_forall₂ hpairs fun request response hresp => decodeRequest_key hresp
  refine ⟨dictOf out, bind_eq_ok.mpr ⟨out, hout, rfl⟩, ?_⟩
  rw [dictOf_eq (hout_keys ▸ hreqs.distinct)]
  refine ⟨hout_keys, fun requestId request hmem => ?_⟩
  obtain ⟨response, hresp, entry, ⟨required, entries, hreqd, rfl, hentries⟩, hdec⟩ :=
    exists_right_of_forall₂ (forall₂_comp hbuilt hpairs) hmem
  obtain ⟨content, hcont, hsame⟩ :=
    submitted_request unicodeDecimal hfree hreqs hmem hreqd hentries hcontents hsubmits
  rw [hcont, Except.ok.injEq] at hdec
  exact ⟨content, hdec ▸ hresp, hsame⟩

end

structure Agrees (python : Runtime) (p : Presentation) (inputRequests : List (String × Data)) (mapping : Data) :
    Prop where
  decoded : ∀ formValue, match decodeFormSubmission python.unicodeDecimal mapping .accept formValue with
    | .error e => e ≠ .raised
    | .ok responses => Answers Carried inputRequests responses
  written : ∀ contents formValue, Contents inputRequests contents →
    Submits python p inputRequests contents formValue →
    ∃ responses, decodeFormSubmission python.unicodeDecimal mapping .accept formValue = .ok responses ∧
      responses.map Prod.fst = inputRequests.map Prod.fst ∧
      ∀ requestId request, (requestId, request) ∈ inputRequests →
        ∃ content, (requestId, accepted content) ∈ responses ∧ SameContent content (contents requestId)

/-- Every projection agrees with its schemas. -/
theorem forms_agree (python : Runtime) (p : Presentation) (inputRequests : List (String × Data))
    (projection : InteractionFormProjection) (mapping : Data) (hrequests : Requests inputRequests)
    (hfree : CollisionFree python p inputRequests)
    (hbuild : buildFormProjection python p inputRequests = .ok (projection, mapping)) :
    Agrees python p inputRequests mapping where
  decoded formValue := by
    split
    · next e herror => exact decode_error herror
    · next responses hdecode => exact decoded_answers hfree hrequests hbuild hdecode
  written contents formValue hcontents hsubmits :=
    submission_decodes hfree hrequests hbuild hcontents hsubmits

/-! ### One form -/

def declared (inputRequests : List (String × Data)) : List (String × String × Data) :=
  inputRequests.flatMap fun item =>
    (schemaProperties (requestedSchema item.2)).map fun property => (item.1, property)

variable {raw : Data}

theorem declares_iff :
    Declares inputRequests requestId name raw ↔ (requestId, name, raw) ∈ declared inputRequests := by
  simp [Declares, declared]

theorem collisionFree_of_nodup
    (hfields : ((declared inputRequests).map fun d => fieldId python p d.1 d.2.1).Nodup)
    (hoptions : ∀ d ∈ declared inputRequests, ∀ values ∈ optionValues d.2.2,
      ((range values.length).map (optionId python p d.1 d.2.1)).Nodup) :
    CollisionFree python p inputRequests where
  fields requestId name raw requestId' name' raw' h h' heq := by
    have hsame := inj_on_of_nodup_map hfields (declares_iff.mp h) (declares_iff.mp h') heq
    cases hsame
    exact ⟨rfl, rfl⟩
  options requestId name raw h values hvalues i hi j hj heq :=
    inj_on_of_nodup_map (hoptions _ (declares_iff.mp h) values hvalues) (mem_range.mpr hi)
      (mem_range.mpr hj) heq

def sampleDigests : List (String × Nat) :=
  [("i1rlevel", 0x12108b00d9d228652fb8d74e242ab3753e18a4679473c1c7a43fb87cad827698),
    ("i1rtags", 0x915f7db410e9e6f0868504079e67c8bb63f92cfd1056293950771e94a7b03bc2),
    ("i1rnote", 0x0e124157eb4861c20d6ab8e5953ff945f5aa51f375f4a7c752499f79b2861830),
    ("i1ramount", 0x6bfd5d0e66935a932466f6f8b8652fe534cd974d9d61579e206c9f7a2919c299),
    ("i1rcount", 0xb1a1f3f1be17011085d744332b2323621602dee2cb013a1d72a453bf11228d32),
    ("i1rday", 0x4662b80bce754619fdcaaabe8cc6ddcd97dc022e915eee87027c88148505d729),
    ("i1rlevel0", 0x647c1636ae02f9674bdd6ddde486f458a42b11f2300503f9bec07229805ea8f8),
    ("i1rlevel1", 0x1d0c68eff4d88ab30453052cce2e7bf0cb196ca5a0a686b20a55c5a0ce5934be),
    ("i1rtags0", 0xefdaf1010d44cecd058aee56005f82da58f3fe1abee709cb716eef1d3899faa5),
    ("i1rtags1", 0xed375e8dd03de2cea521fb3bb28136e9592890c65de14713c63331fd64bfb18c)]

def sampleRuntime : Runtime where
  isPrintable _ := true
  unicodeDecimal _ := none
  floatRepr _ := "0.0"
  sha256 bytes :=
    let text := String.ofList ((bytes.filter (32 ≤ ·)).map fun byte => Char.ofNat byte.toNat)
    (sampleDigests.lookup text).getD 0

def samplePresentation : Presentation := ⟨"i", 1⟩

def sampleLevel : Data :=
  .dict [("type", .str "string"), ("enum", .list [.str "a", .str "long"]), ("minLength", .int 2)]

def sampleTags : Data :=
  .dict [("type", .str "array"),
    ("items", .dict [("type", .str "string"), ("enum", .list [.str "x", .str "y"])])]

def sampleProperties : List (String × Data) :=
  [("level", sampleLevel), ("tags", sampleTags), ("note", .dict [("type", .str "string")]),
    ("amount", .dict [("type", .str "number")]), ("count", .dict [("type", .str "integer")]),
    ("day", .dict [("type", .str "string"), ("format", .str "date")])]

def sampleRequest : Data :=
  .dict [("method", .str "elicitation/create"), ("params", .dict [("requestedSchema",
    .dict [("type", .str "object"), ("properties", .dict sampleProperties)])])]

def sampleRequests : List (String × Data) := [("r", sampleRequest)]

theorem sampleRequests_requests : Requests sampleRequests := by
  refine ⟨by decide, fun item hitem => ?_⟩
  rw [mem_singleton.mp hitem]
  simp [sampleRequest, sampleProperties, sampleLevel, sampleTags, Data.WellFormed, Data.WellFormedFields,
    Data.WellFormedItems]

theorem sample_fieldIds :
    fieldId sampleRuntime samplePresentation "r" "note" = "f_0e124157eb4861c20d6ab8e5" ∧
    fieldId sampleRuntime samplePresentation "r" "day" = "f_4662b80bce754619fdcaaabe" ∧
    fieldId sampleRuntime samplePresentation "r" "tags" = "f_915f7db410e9e6f086850407" ∧
    fieldId sampleRuntime samplePresentation "r" "count" = "f_b1a1f3f1be17011085d74433" ∧
    fieldId sampleRuntime samplePresentation "r" "amount" = "f_6bfd5d0e66935a932466f6f8" ∧
    optionId sampleRuntime samplePresentation "r" "tags" 0 = "o_efdaf1010d44cecd058aee56" := by
  decide +kernel

theorem sampleRequests_collisionFree : CollisionFree sampleRuntime samplePresentation sampleRequests :=
  collisionFree_of_nodup (by decide +kernel) (by decide +kernel)

def sampleMapping : Data :=
  .dict [("requests", .dict [("r", .dict
    [("f_12108b00d9d228652fb8d74e", privateSpec "level" .string false
        ⟨.select, [], [("o_647c1636ae02f9674bdd6ddd", .str "a"), ("o_1d0c68eff4d88ab30453052c", .str "long")],
          some 2, some 1000, none, none⟩),
      ("f_915f7db410e9e6f086850407", privateSpec "tags" .array false
        ⟨.multiSelect, [], [("o_efdaf1010d44cecd058aee56", .str "x"), ("o_ed375e8dd03de2cea521fb3b", .str "y")],
          some 0, some 2, none, none⟩),
      ("f_0e124157eb4861c20d6ab8e5", privateSpec "note" .string false
        ⟨.text, [], [], some 0, some 1000, none, none⟩),
      ("f_6bfd5d0e66935a932466f6f8", privateSpec "amount" .number false
        ⟨.number, [], [], none, none, none, none⟩),
      ("f_b1a1f3f1be17011085d74433", privateSpec "count" .integer false
        ⟨.number, [], [], none, none, none, none⟩),
      ("f_4662b80bce754619fdcaaabe", privateSpec "day" .string false
        ⟨.date, [], [], some 0, some 1000, none, none⟩)])])]

theorem sample_built : ∃ projection,
    buildFormProjection sampleRuntime samplePresentation sampleRequests = .ok (projection, sampleMapping) := by
  have h : (buildFormProjection sampleRuntime samplePresentation sampleRequests).toOption.map Prod.snd =
      some sampleMapping := by decide +kernel
  cases hbuild : buildFormProjection sampleRuntime samplePresentation sampleRequests with
  | error e =>
    rw [hbuild] at h
    cases h
  | ok out =>
    rw [hbuild, Except.toOption, Option.map_some, Option.some.injEq] at h
    exact ⟨out.1, by rw [← h]⟩

theorem forms_agree_sample : ∃ projection,
    buildFormProjection sampleRuntime samplePresentation sampleRequests = .ok (projection, sampleMapping) ∧
      Agrees sampleRuntime samplePresentation sampleRequests sampleMapping := by
  obtain ⟨projection, hbuild⟩ := sample_built
  exact ⟨projection, hbuild, forms_agree sampleRuntime samplePresentation sampleRequests projection sampleMapping
    sampleRequests_requests sampleRequests_collisionFree hbuild⟩

/-! ### What the form cannot hold, and what it does not carry -/

theorem declares_sample
    (h : Declares sampleRequests requestId name raw) : requestId = "r" ∧ (name, raw) ∈ sampleProperties := by
  obtain ⟨request, hreq, hprop⟩ := h
  cases mem_singleton.mp hreq
  exact ⟨rfl, hprop⟩

theorem sampleProperties_nodup : (sampleProperties.map Prod.fst).Nodup := by decide

theorem satisfies_single {v : Data} (hmem : (name, raw) ∈ sampleProperties)
    (h : FieldSatisfies Every raw v) : Satisfies Every (requestedSchema sampleRequest) [(name, v)] where
  distinct := nodup_singleton name
  declared name' v' hmem' := by
    cases mem_singleton.mp hmem'
    exact ⟨raw, hmem, h⟩
  required name' hreqd := by
    obtain ⟨names, hnames, hin⟩ := hreqd
    cases hnames
    cases hin

theorem submits_single {id : String} {v w : Data}
    (hid : fieldId sampleRuntime samplePresentation "r" name = id) (hmem : (name, raw) ∈ sampleProperties)
    (hwritten : Written sampleRuntime samplePresentation "r" name raw v w) :
    Submits sampleRuntime samplePresentation sampleRequests (fun _ => [(name, v)]) [(id, w)] := by
  have hdeclares : Declares sampleRequests "r" name raw := ⟨sampleRequest, mem_singleton_self _, hmem⟩
  subst hid
  constructor
  · intro key hkey
    exact ⟨"r", name, raw, hdeclares, mem_singleton.mp hkey⟩
  · intro requestId name' raw' v' hdeclares' hlookup
    obtain ⟨rfl, hmem'⟩ := declares_sample hdeclares'
    have hdist : ([(name, v)].map Prod.fst).Nodup := nodup_singleton name
    obtain ⟨rfl, rfl⟩ : name' = name ∧ v' = v := by
      simpa using (lookup_iff_mem hdist).mp hlookup
    have hraw := (lookup_iff_mem sampleProperties_nodup).mpr hmem
    rw [(lookup_iff_mem sampleProperties_nodup).mpr hmem', Option.some.injEq] at hraw
    exact ⟨w, by simp, hraw ▸ hwritten⟩
  · intro requestId name' raw' hdeclares' hlookup
    have hne : name' ≠ name := by
      rintro rfl
      simp at hlookup
    have hids : fieldId sampleRuntime samplePresentation requestId name' ≠
        fieldId sampleRuntime samplePresentation "r" name := fun heq =>
      hne (sampleRequests_collisionFree.fields _ _ _ _ _ _ hdeclares' hdeclares heq).2
    simp [List.lookup_cons, beq_eq_false_iff_ne.mpr hids]

/-- A content that satisfies the schema, with no empty string, is written and does not decode
    to itself. -/
def Lost (contents : String → List (String × Data)) : Prop :=
  (∀ requestId request, (requestId, request) ∈ sampleRequests →
    Satisfies Every (requestedSchema request) (contents requestId)) ∧
  (∀ requestId name v, (name, v) ∈ contents requestId → v ≠ .str "") ∧
  ∃ formValue, Submits sampleRuntime samplePresentation sampleRequests contents formValue ∧
    ∀ responses, decodeFormSubmission sampleRuntime.unicodeDecimal sampleMapping .accept formValue = .ok responses →
      ∀ content, ("r", accepted content) ∈ responses → ¬ SameContent content (contents "r")

theorem lost_single (id : String) {v w : Data} (hmem : (name, raw) ∈ sampleProperties)
    (hid : fieldId sampleRuntime samplePresentation "r" name = id) (hne : v ≠ .str "")
    (hsat : FieldSatisfies Every raw v)
    (hwritten : Written sampleRuntime samplePresentation "r" name raw v w)
    (hlost : ∀ responses,
      decodeFormSubmission sampleRuntime.unicodeDecimal sampleMapping .accept [(id, w)] = .ok responses →
      ∀ content, ("r", accepted content) ∈ responses → ¬ SameContent content [(name, v)]) :
    Lost fun _ => [(name, v)] := by
  refine ⟨fun requestId request hreq => ?_, fun requestId name' v' hmem' => ?_,
    [(id, w)], submits_single hid hmem hwritten, hlost⟩
  · cases mem_singleton.mp hreq
    exact satisfies_single hmem hsat
  · cases mem_singleton.mp hmem'
    exact hne

variable {keeps : Data → String → Prop}

theorem atLeast_null {key : String} {q : ℚ}
    (h : raw.getD key = .null) : AtLeast keeps raw key q := by
  intro _ m hm
  rw [h] at hm
  cases hm

theorem atMost_null {key : String} {q : ℚ}
    (h : raw.getD key = .null) : AtMost keeps raw key q := by
  intro _ m hm
  rw [h] at hm
  cases hm

theorem enumHolds_null {schema v : Data} (h : schema.getD "enum" = .null) : EnumHolds schema v := by
  intro values hvalues
  rw [h] at hvalues
  cases hvalues

theorem textHolds_null {text : String} (henum : raw.getD "enum" = .null)
    (hleast : raw.getD "minLength" = .null) (hmost : raw.getD "maxLength" = .null) : TextHolds Every raw text :=
  ⟨enumHolds_null henum, atLeast_null hleast, atMost_null hmost⟩

theorem note_refused {text : String} (hne : text ≠ "") (hlong : maxText < text.length)
    (responses : List (String × Data)) :
    decodeFormSubmission sampleRuntime.unicodeDecimal sampleMapping .accept
      [("f_0e124157eb4861c20d6ab8e5", .str text)] ≠ .ok responses := by
  intro h
  obtain ⟨result, hresult⟩ := decoded_field h mem_cons_self (mem_of_getElem? (i := 2) rfl)
  rw [decodeField_privateSpec (by decide), answerOf_some (w := .str text) (by simp) ⟨nofun, by simpa⟩] at hresult
  simp only at hresult
  split at hresult
  · cases hresult
  · next v hv =>
    rw [decodeValue_privateSpec] at hv
    obtain ⟨_, normalized, htext, -, hread, -, hle⟩ := (decodeText_iff (.inl rfl) (.inl rfl) (by decide)).mp hv
    cases htext
    cases hread
    exact absurd hle (Nat.not_le.mpr hlong)

theorem lost_note : Lost fun _ => [("note", .str (String.ofList (replicate 1001 'a')))] := by
  have hlength : (String.ofList (replicate 1001 'a')).length = 1001 := by
    rw [String.length_ofList, length_replicate]
  have hne : String.ofList (replicate 1001 'a') ≠ "" := by
    intro h
    rw [h] at hlength
    cases hlength
  refine lost_single "f_0e124157eb4861c20d6ab8e5" (mem_of_getElem? (i := 2) rfl) sample_fieldIds.1
    (fun h => hne (Data.str.inj h)) ⟨.string, rfl, ⟨_, rfl⟩, fun _ _ => textHolds_null rfl rfl rfl⟩ (.asIs rfl) ?_
  intro responses hresps
  exact absurd hresps (note_refused hne (by rw [hlength]; decide) responses)

/-- What is decoded from the form: a day that is no date, a selection that repeats an item and an
integer that is written as a float are refused, an integer that is no float is decoded as another
number, and a choice that is shorter than its field allows is accepted. -/
theorem sample_decoded :
    let decoded := decodeFormSubmission sampleRuntime.unicodeDecimal sampleMapping .accept
    decoded [("f_4662b80bce754619fdcaaabe", .str "soon")] = .error .responseInvalid ∧
    decoded [("f_915f7db410e9e6f086850407", .list (["o_efdaf1010d44cecd058aee56",
      "o_efdaf1010d44cecd058aee56"].map .str))] = .error .responseInvalid ∧
    decoded [("f_b1a1f3f1be17011085d74433", .float (.ofInt 3))] = .error .responseInvalid ∧
    decoded [("f_6bfd5d0e66935a932466f6f8", .int (2 ^ 53 + 1))] =
      .ok [("r", accepted [("amount", .float (.ofInt (2 ^ 53)))])] ∧
    decoded [("f_12108b00d9d228652fb8d74e", .str "o_647c1636ae02f9674bdd6ddd")] =
      .ok [("r", accepted [("level", .str "a")])] := by
  decide +kernel

theorem lost_day : Lost fun _ => [("day", .str "soon")] := by
  refine lost_single "f_4662b80bce754619fdcaaabe" (mem_of_getElem? (i := 5) rfl) sample_fieldIds.2.1
    (by decide) ⟨.string, rfl, ⟨_, rfl⟩, fun _ _ => textHolds_null rfl rfl rfl⟩ (.asIs rfl) ?_
  intro responses hresps
  rw [sample_decoded.1] at hresps
  cases hresps

theorem lost_tags : Lost fun _ => [("tags", .list [.str "x", .str "x"])] := by
  have hoption : IsOption sampleRuntime samplePresentation "r" "tags" [.str "x", .str "y"] (.str "x")
      "o_efdaf1010d44cecd058aee56" := ⟨0, rfl, sample_fieldIds.2.2.2.2.2.symm⟩
  have hitems : ItemsHold Every sampleTags [.str "x", .str "x"] := by
    refine ⟨?_, atLeast_null rfl, atMost_null rfl, nofun⟩
    intro item hitem
    obtain rfl : item = .str "x" := by simpa using hitem
    refine ⟨⟨_, rfl⟩, fun values hvalues => ?_⟩
    cases hvalues
    exact mem_cons_self
  refine lost_single "f_915f7db410e9e6f086850407" (mem_of_getElem? (i := 1) rfl) sample_fieldIds.2.2.1
    (by decide) ⟨.array, rfl, ⟨_, rfl⟩, ?_⟩ (.options rfl (.cons hoption (.cons hoption .nil))) ?_
  · rintro _ ⟨⟩
    exact hitems
  · intro responses hresps
    rw [sample_decoded.2.1] at hresps
    cases hresps

theorem sample_reals : floatReal (Float.Model.ofInt 3) = .finite ((3 : Int) : ℚ) ∧
    floatReal (Float.Model.ofInt (2 ^ 53)) ≠ .finite ((2 ^ 53 + 1 : Int) : ℚ) := by
  decide +kernel

theorem lost_count : Lost fun _ => [("count", .float (.ofInt 3))] := by
  refine lost_single "f_b1a1f3f1be17011085d74433" (w := .float (.ofInt 3))
    (mem_of_getElem? (i := 4) rfl) sample_fieldIds.2.2.2.1 (by decide)
    ⟨.integer, rfl, .inr ⟨_, 3, rfl, sample_reals.1⟩, fun _ _ => ⟨atLeast_null rfl, atMost_null rfl⟩⟩
    (.asIs rfl) ?_
  intro responses hresps
  rw [sample_decoded.2.2.1] at hresps
  cases hresps

theorem lost_amount : Lost fun _ => [("amount", .int (2 ^ 53 + 1))] := by
  refine lost_single "f_6bfd5d0e66935a932466f6f8" (w := .int (2 ^ 53 + 1))
    (mem_of_getElem? (i := 3) rfl) sample_fieldIds.2.2.2.2.1 (by decide)
    ⟨.number, rfl, .inl ⟨_, rfl⟩, fun _ _ => ⟨atLeast_null rfl, atMost_null rfl⟩⟩ (.asIs rfl) ?_
  intro responses hresps content hcont hsame
  rw [sample_decoded.2.2.2.1, Except.ok.injEq] at hresps
  subst hresps
  cases mem_singleton.mp hcont
  cases hsame "amount" with
  | some hamount =>
    rcases hamount with heq | ⟨n, x, hn, hx, hreal⟩
    · nomatch heq
    · rw [Data.int.injEq] at hn
      rw [Data.float.injEq] at hx
      subst hn hx
      exact sample_reals.2 hreal

/-- Five contents that satisfy the schema are lost, and a choice is decoded that does not. -/
theorem forms_disagree :
    (∃ projection, buildFormProjection sampleRuntime samplePresentation sampleRequests =
      .ok (projection, sampleMapping)) ∧
    (Lost fun _ => [("note", .str (String.ofList (replicate 1001 'a')))]) ∧
    (Lost fun _ => [("day", .str "soon")]) ∧ (Lost fun _ => [("tags", .list [.str "x", .str "x"])]) ∧
    (Lost fun _ => [("count", .float (.ofInt 3))]) ∧ (Lost fun _ => [("amount", .int (2 ^ 53 + 1))]) ∧
    ∃ formValue responses,
      decodeFormSubmission sampleRuntime.unicodeDecimal sampleMapping .accept formValue = .ok responses ∧
        ¬ Answers Every sampleRequests responses := by
  refine ⟨sample_built, lost_note, lost_day, lost_tags, lost_count, lost_amount, _, _, sample_decoded.2.2.2.2, ?_⟩
  rintro ⟨-, hanswers⟩
  obtain ⟨content, hcontent, hsatisfies⟩ := hanswers "r" sampleRequest (mem_singleton_self _)
  cases mem_singleton.mp hcontent
  obtain ⟨raw, hmem, type, htype, -, hkeywords⟩ := hsatisfies.declared "level" (.str "a") (mem_singleton_self _)
  have hraw := (lookup_iff_mem sampleProperties_nodup).mpr hmem
  cases hraw
  cases htype
  have hleast := (hkeywords "a" rfl).least trivial 2 rfl
  exact absurd hleast (by decide)

end MultiRag.InteractionForms
