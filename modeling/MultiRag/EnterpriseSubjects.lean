/-
  **Enterprise subject links: persisting the outcomes of a resolver.**

  `persistResolution` applies one outcome in one transaction. A link belongs to a
  resolver slot and holds one subject value of its tenant; a positive proof may meet
  another row that holds the subject, and then both rows are quarantined.
-/
import MultiRag.Json
import MultiRag.Run
import MultiRag.Table

namespace MultiRag.EnterpriseSubjects

open List Table

/-! ### Contracts -/

inductive EnterpriseSubjectResolutionStatus where
  | resolved | notFound | ambiguous | unavailable | inactive
deriving DecidableEq

inductive EnterpriseSubjectState where
  | active | inactive | conflict
deriving DecidableEq

inductive EnterpriseSubjectErrorCode where
  | repositoryUnavailable | persistenceInvalid

/-- `value == value.strip()`, not empty, and not too long. -/
def validText (text : String) (maxLength : Nat) : Bool :=
  decide (pyStrip text = text) && decide (text ≠ "") && decide (text.length ≤ maxLength)

def subjectTypes : List String := ["employee_no", "talent_id", "workcode"]

structure EnterpriseSubjectSlot where
  subjectType : String
  issuer : String
  issuerTenant : String
deriving DecidableEq

structure EnterpriseSubject where
  subjectType : String
  subject : String
  issuer : String
  issuerTenant : String
  verifiedAt : Int

structure EnterpriseSubjectResolution where
  status : EnterpriseSubjectResolutionStatus
  subject : Option EnterpriseSubject
  verifiedAt : Option Int
  sourceRevision : Option String

def validSlot (slot : EnterpriseSubjectSlot) : Bool :=
  decide (slot.subjectType ∈ subjectTypes) && validText slot.subjectType 64 &&
    validText slot.issuer 128 && validText slot.issuerTenant 255

def validSubject (subject : EnterpriseSubject) : Bool :=
  decide (subject.subjectType ∈ subjectTypes) && validText subject.subjectType 64 &&
    validText subject.subject 255 && validText subject.issuer 128 && validText subject.issuerTenant 255

def validResolution (r : EnterpriseSubjectResolution) : Bool :=
  r.sourceRevision.all (validText · 255) &&
    match r.status with
    | .resolved =>
      match r.subject with
      | some subject => validSubject subject && decide (r.verifiedAt = some subject.verifiedAt)
      | none => false
    | .unavailable => r.subject.isNone && r.verifiedAt.isNone && r.sourceRevision.isNone
    | _ => r.subject.isNone && r.verifiedAt.isSome

def subjectMatchesSlot (subject : EnterpriseSubject) (slot : EnterpriseSubjectSlot) : Bool :=
  decide (subject.subjectType = slot.subjectType) && decide (subject.issuer = slot.issuer) &&
    decide (subject.issuerTenant = slot.issuerTenant)

def validCommand (platformUserId tenantId : String) (slot : EnterpriseSubjectSlot)
    (resolution : EnterpriseSubjectResolution) : Bool :=
  validText platformUserId 32 && validText tenantId 32 && validSlot slot && validResolution resolution &&
    resolution.subject.all (subjectMatchesSlot · slot)

structure VerifiedEnterpriseSubjectCommand where
  platformUserId : String
  tenantId : String
  slot : EnterpriseSubjectSlot
  resolution : EnterpriseSubjectResolution
  valid : validCommand platformUserId tenantId slot resolution = true

/-! ### The table -/

structure EnterpriseSubjectLink where
  id : String
  tenantId : String
  userId : String
  subjectType : String
  subjectValue : String
  issuer : String
  issuerTenant : String
  state : EnterpriseSubjectState
  verifiedAt : Option Int
  sourceRevision : Option String
deriving DecidableEq

abbrev Links := Table EnterpriseSubjectLink EnterpriseSubjectLink.id

def slotColumns (row : EnterpriseSubjectLink) : String × String × EnterpriseSubjectSlot :=
  (row.tenantId, row.userId, ⟨row.subjectType, row.issuer, row.issuerTenant⟩)

def subjectColumns (row : EnterpriseSubjectLink) : String × String × String :=
  (row.tenantId, row.subjectType, row.subjectValue)

def VerifiedEnterpriseSubjectCommand.slotKey (command : VerifiedEnterpriseSubjectCommand) :
    String × String × EnterpriseSubjectSlot :=
  (command.tenantId, command.platformUserId, command.slot)

def VerifiedEnterpriseSubjectCommand.subjectKey (command : VerifiedEnterpriseSubjectCommand)
    (subject : EnterpriseSubject) : String × String × String :=
  (command.tenantId, command.slot.subjectType, subject.subject)

def slotForUpdate (command : VerifiedEnterpriseSubjectCommand) (links : Links) :
    Option EnterpriseSubjectLink :=
  links.rows.find? fun row => decide (slotColumns row = command.slotKey)

def subjectForUpdate (command : VerifiedEnterpriseSubjectCommand) (subject : EnterpriseSubject)
    (links : Links) : Option EnterpriseSubjectLink :=
  links.rows.find? fun row => decide (subjectColumns row = command.subjectKey subject)

def proofIsNewer (row : EnterpriseSubjectLink) (proofAt : Int) : Bool :=
  row.verifiedAt.all fun verifiedAt => decide (verifiedAt < proofAt)

def proofIsNotOlder (row : EnterpriseSubjectLink) (proofAt : Int) : Bool :=
  row.verifiedAt.all fun verifiedAt => decide (verifiedAt ≤ proofAt)

def advanceProof (row : EnterpriseSubjectLink) (proofAt : Int) (sourceRevision : Option String) :
    EnterpriseSubjectLink :=
  { row with verifiedAt := some proofAt, sourceRevision := sourceRevision.or row.sourceRevision }

def advanceIfNewer (row : EnterpriseSubjectLink) (proofAt : Int) (sourceRevision : Option String) :
    EnterpriseSubjectLink :=
  if proofIsNewer row proofAt then advanceProof row proofAt sourceRevision else row

def conflictingRows (slotRow subjectRow : Option EnterpriseSubjectLink) (desiredSubject : String) :
    List EnterpriseSubjectLink :=
  (slotRow.filter fun row => decide (row.subjectValue ≠ desiredSubject)).toList ++
    (subjectRow.filter fun row => decide (∀ slot ∈ slotRow, row.id ≠ slot.id)).toList

/-! ### Results -/

def EnterpriseSubjectResolution.create (r : EnterpriseSubjectResolution) :
    Except EnterpriseSubjectErrorCode EnterpriseSubjectResolution :=
  if validResolution r then .ok r else .error .persistenceInvalid

def laterProof (row : EnterpriseSubjectLink) (fallback : EnterpriseSubjectResolution) :
    Option Int × Option String :=
  match row.verifiedAt, fallback.verifiedAt with
  | none, fallbackAt => (fallbackAt, fallback.sourceRevision)
  | some rowAt, none => (some rowAt, row.sourceRevision)
  | some rowAt, some fallbackAt =>
    if rowAt < fallbackAt then (some fallbackAt, fallback.sourceRevision)
    else (some rowAt, row.sourceRevision)

def subjectOfRow (row : EnterpriseSubjectLink) (verifiedAt : Int) : EnterpriseSubject :=
  ⟨row.subjectType, row.subjectValue, row.issuer, row.issuerTenant, verifiedAt⟩

def resolutionFromRow (row : EnterpriseSubjectLink) (fallback : EnterpriseSubjectResolution) :
    Except EnterpriseSubjectErrorCode EnterpriseSubjectResolution :=
  let later := laterProof row fallback
  match row.state with
  | .active =>
    match row.verifiedAt with
    | none => .error .persistenceInvalid
    | some rowAt => EnterpriseSubjectResolution.create
        ⟨.resolved, some (subjectOfRow row rowAt), some rowAt, row.sourceRevision⟩
  | .inactive => EnterpriseSubjectResolution.create ⟨.inactive, none, later.1, later.2⟩
  | .conflict => EnterpriseSubjectResolution.create ⟨.ambiguous, none, later.1, later.2⟩

/-- `max` with the key `verified_at or fallback_at`: the first of the largest. -/
def latestRow (fallbackAt : Int) (row : EnterpriseSubjectLink) (rows : List EnterpriseSubjectLink) :
    EnterpriseSubjectLink :=
  rows.foldl (fun best row =>
    if best.verifiedAt.getD fallbackAt < row.verifiedAt.getD fallbackAt then row else best) row

def ambiguousResult (rows : List EnterpriseSubjectLink) (fallback : EnterpriseSubjectResolution) :
    Except EnterpriseSubjectErrorCode EnterpriseSubjectResolution :=
  match rows, fallback.verifiedAt with
  | row :: rest, some fallbackAt =>
    let later := laterProof (latestRow fallbackAt row rest) fallback
    EnterpriseSubjectResolution.create ⟨.ambiguous, none, later.1, later.2⟩
  | _, _ => .error .persistenceInvalid

/-! ### One transaction -/

/-- What a transaction raises: an error of the repository, or a violated key. -/
inductive Failure where
  | repository (code : EnterpriseSubjectErrorCode)
  | integrity

/-- What one attempt finds: `inScope` is the locked check of user, membership and tenant, `now`
    the clock after the locks, `id` the new uuid. -/
structure Attempt where
  inScope : Bool
  now : Int
  id : String

abbrev Transaction := Links → Except Failure EnterpriseSubjectResolution × Links

def returning (r : Except EnterpriseSubjectErrorCode EnterpriseSubjectResolution) (links : Links) :
    Except Failure EnterpriseSubjectResolution × Links :=
  (r.mapError .repository, links)

def quarantine (rows : List EnterpriseSubjectLink) (proofAt : Int) (links : Links) : Links :=
  (rows.filter (proofIsNotOlder · proofAt)).foldl
    (fun links row => links.put { row with state := .conflict }) links

def newLink (command : VerifiedEnterpriseSubjectCommand) (subject : EnterpriseSubject) (proofAt : Int)
    (id : String) : EnterpriseSubjectLink :=
  { id := id, tenantId := command.tenantId, userId := command.platformUserId,
    subjectType := command.slot.subjectType, subjectValue := subject.subject,
    issuer := command.slot.issuer, issuerTenant := command.slot.issuerTenant, state := .active,
    verifiedAt := some proofAt, sourceRevision := command.resolution.sourceRevision }

/-- The row of the slot under a positive proof of its own subject; an inactive row has no way
    back. -/
def confirmRow (row : EnterpriseSubjectLink) (proofAt : Int) (sourceRevision : Option String) :
    EnterpriseSubjectLink :=
  match row.state with
  | .inactive => row
  | .active | .conflict => advanceIfNewer row proofAt sourceRevision

def persistResolved (command : VerifiedEnterpriseSubjectCommand) (subject : EnterpriseSubject)
    (proofAt : Int) (attempt : Attempt) : Transaction := fun links =>
  let slotRow := slotForUpdate command links
  let subjectRow := subjectForUpdate command subject links
  if attempt.now < proofAt then (.error (.repository .persistenceInvalid), links)
  else
    match conflictingRows slotRow subjectRow subject.subject with
    | [] =>
      match slotRow with
      | none =>
        match links.insert? (newLink command subject proofAt attempt.id) with
        | none => (.error .integrity, links)
        | some links' => returning
            (resolutionFromRow (newLink command subject proofAt attempt.id) command.resolution) links'
      | some row =>
        let row' := confirmRow row proofAt command.resolution.sourceRevision
        returning (resolutionFromRow row' command.resolution) (links.put row')
    | row :: rest =>
      returning (ambiguousResult (row :: rest) command.resolution) (quarantine (row :: rest) proofAt links)

def tightenRow (row : EnterpriseSubjectLink) (status : EnterpriseSubjectResolutionStatus) (proofAt : Int)
    (sourceRevision : Option String) : Except EnterpriseSubjectErrorCode EnterpriseSubjectLink :=
  match status with
  | .ambiguous =>
    if proofIsNotOlder row proofAt then
      .ok (advanceIfNewer { row with state := .conflict } proofAt sourceRevision)
    else .ok row
  | .notFound | .inactive =>
    if row.state ≠ .conflict ∧ proofIsNotOlder row proofAt = true then
      .ok (advanceIfNewer { row with state := .inactive } proofAt sourceRevision)
    else .ok row
  | .resolved | .unavailable => .error .persistenceInvalid

def persistNegative (command : VerifiedEnterpriseSubjectCommand) (proofAt : Int) (attempt : Attempt) :
    Transaction := fun links =>
  if attempt.now < proofAt then (.error (.repository .persistenceInvalid), links)
  else
    match slotForUpdate command links with
    | none => (.ok command.resolution, links)
    | some row =>
      match tightenRow row command.resolution.status proofAt command.resolution.sourceRevision with
      | .error code => (.error (.repository code), links)
      | .ok row' => (.ok command.resolution, links.put row')

def apply (command : VerifiedEnterpriseSubjectCommand) (attempt : Attempt) : Transaction :=
  inTransaction fun links =>
    if attempt.inScope then
      match command.resolution.verifiedAt with
      | none => (.error (.repository .persistenceInvalid), links)
      | some proofAt =>
        if command.resolution.status = .resolved then
          match command.resolution.subject with
          | none => (.error (.repository .persistenceInvalid), links)
          | some subject => persistResolved command subject proofAt attempt links
        else persistNegative command proofAt attempt links
    else (.error (.repository .persistenceInvalid), links)

def Failure.code : Failure → EnterpriseSubjectErrorCode
  | .repository code => code
  | .integrity => .repositoryUnavailable

def persistResolution (command : VerifiedEnterpriseSubjectCommand) (first retry : Attempt) (links : Links) :
    Except EnterpriseSubjectErrorCode EnterpriseSubjectResolution × Links :=
  if command.resolution.status = .unavailable then (.ok command.resolution, links)
  else
    match apply command first links with
    | (.ok r, links') => (.ok r, links')
    | (.error (.repository code), links') => (.error code, links')
    | (.error .integrity, links') =>
      let (r, links'') := apply command retry links'
      (r.mapError Failure.code, links'')

/-! ### What a call does to a row -/

/-- A state never becomes weaker. -/
def EnterpriseSubjectState.TightensTo : EnterpriseSubjectState → EnterpriseSubjectState → Prop
  | .active, _ => True
  | .inactive, state => state ≠ .active
  | .conflict, state => state = .conflict

/-- The row keeps its columns, its state does not weaken and its proof does not age. -/
structure Tightened (row row' : EnterpriseSubjectLink) : Prop where
  id : row'.id = row.id
  slot : slotColumns row' = slotColumns row
  subject : row'.subjectValue = row.subjectValue
  state : row.state.TightensTo row'.state
  verifiedAt : ∀ v, row.verifiedAt = some v → ∃ v', row'.verifiedAt = some v' ∧ v ≤ v'

def LinkStep (proofAt : Int) (row row' : EnterpriseSubjectLink) : Prop :=
  row' = row ∨ proofIsNotOlder row proofAt = true ∧ Tightened row row'

variable {row row' row'' : EnterpriseSubjectLink} {proofAt : Int} {sourceRevision : Option String}

theorem EnterpriseSubjectState.TightensTo.refl (state : EnterpriseSubjectState) : state.TightensTo state := by
  cases state <;> simp [EnterpriseSubjectState.TightensTo]

theorem EnterpriseSubjectState.TightensTo.trans {a b c : EnterpriseSubjectState} (h : a.TightensTo b)
    (h' : b.TightensTo c) : a.TightensTo c := by
  cases a <;> cases b <;> simp_all [EnterpriseSubjectState.TightensTo]

theorem Tightened.refl (row : EnterpriseSubjectLink) : Tightened row row :=
  ⟨rfl, rfl, rfl, .refl _, fun v hv => ⟨v, hv, Int.le_refl v⟩⟩

theorem Tightened.trans (h : Tightened row row') (h' : Tightened row' row'') : Tightened row row'' where
  id := by rw [h'.id, h.id]
  slot := by rw [h'.slot, h.slot]
  subject := by rw [h'.subject, h.subject]
  state := h.state.trans h'.state
  verifiedAt v hv := by
    obtain ⟨v', hv', hle⟩ := h.verifiedAt v hv
    obtain ⟨v'', hv'', hle'⟩ := h'.verifiedAt v' hv'
    exact ⟨v'', hv'', Int.le_trans hle hle'⟩

theorem Tightened.columns (h : Tightened row row') : subjectColumns row' = subjectColumns row := by
  have hslot := h.slot
  simp only [slotColumns, Prod.mk.injEq, EnterpriseSubjectSlot.mk.injEq] at hslot
  simp [subjectColumns, h.subject, hslot]

theorem LinkStep.refl (row : EnterpriseSubjectLink) : LinkStep proofAt row row := .inl rfl

section

variable (h : LinkStep proofAt row row')
include h

theorem LinkStep.tightened : Tightened row row' := by
  rcases h with rfl | ⟨-, h⟩
  · exact Tightened.refl _
  · exact h

theorem LinkStep.trans (h' : LinkStep proofAt row' row'') :
    LinkStep proofAt row row'' := by
  rcases h with rfl | ⟨hage, h⟩
  · exact h'
  · exact .inr ⟨hage, h.trans h'.tightened⟩

theorem LinkStep.eq_of_lt {v : Int} (hv : row.verifiedAt = some v)
    (hlt : proofAt < v) : row' = row := by
  rcases h with heq | ⟨hage, -⟩
  · exact heq
  · simp only [proofIsNotOlder, hv, Option.all_some, decide_eq_true_eq] at hage
    omega

end

theorem notOlder_of_newer (h : proofIsNewer row proofAt = true) : proofIsNotOlder row proofAt = true := by
  cases hv : row.verifiedAt with
  | none => simp [proofIsNotOlder, hv]
  | some v =>
    simp only [proofIsNewer, hv, Option.all_some, decide_eq_true_eq] at h
    simp only [proofIsNotOlder, hv, Option.all_some, decide_eq_true_eq]
    omega

theorem tightened_advance (h : proofIsNewer row proofAt = true) :
    Tightened row (advanceProof row proofAt sourceRevision) where
  id := rfl
  slot := rfl
  subject := rfl
  state := .refl _
  verifiedAt v hv := by
    simp only [proofIsNewer, hv, Option.all_some, decide_eq_true_eq] at h
    exact ⟨proofAt, rfl, by omega⟩

theorem linkStep_advance (row : EnterpriseSubjectLink) :
    LinkStep proofAt row (advanceIfNewer row proofAt sourceRevision) := by
  unfold advanceIfNewer
  split
  · next hnewer => exact .inr ⟨notOlder_of_newer hnewer, tightened_advance hnewer⟩
  · exact LinkStep.refl row

theorem linkStep_state {state : EnterpriseSubjectState} (hage : proofIsNotOlder row proofAt = true)
    (hstate : row.state.TightensTo state) : LinkStep proofAt row { row with state := state } :=
  .inr ⟨hage, rfl, rfl, rfl, hstate, fun v hv => ⟨v, hv, Int.le_refl v⟩⟩

theorem tightensTo_conflict (state : EnterpriseSubjectState) : state.TightensTo .conflict := by
  cases state <;> simp [EnterpriseSubjectState.TightensTo]

theorem linkStep_confirm (row : EnterpriseSubjectLink) :
    LinkStep proofAt row (confirmRow row proofAt sourceRevision) := by
  unfold confirmRow
  split
  · exact LinkStep.refl row
  · exact linkStep_advance row
  · exact linkStep_advance row

theorem linkStep_tighten {status : EnterpriseSubjectResolutionStatus}
    (h : tightenRow row status proofAt sourceRevision = .ok row') : LinkStep proofAt row row' := by
  unfold tightenRow at h
  split at h
  · split at h
    · next hage =>
      cases h
      exact (linkStep_state hage (tightensTo_conflict _)).trans (linkStep_advance _)
    · cases h
      exact LinkStep.refl row
  iterate 2
    · split at h
      · next hage =>
        cases h
        have hstate : row.state.TightensTo .inactive := by
          cases hstate : row.state <;> simp_all [EnterpriseSubjectState.TightensTo]
        exact (linkStep_state hage.2 hstate).trans (linkStep_advance _)
      · cases h
        exact LinkStep.refl row
  · cases h
  · cases h

variable {command : VerifiedEnterpriseSubjectCommand} {attempt first retry : Attempt}
  {links links' : Links} {subject : EnterpriseSubject}

theorem slotForUpdate_some (h : slotForUpdate command links = some row) :
    row ∈ links ∧ slotColumns row = command.slotKey :=
  ⟨mem_of_find?_eq_some h, by simpa using find?_some h⟩

theorem slotForUpdate_none (h : slotForUpdate command links = none) :
    ∀ row ∈ links, slotColumns row ≠ command.slotKey := by
  intro row hrow
  simpa using find?_eq_none.mp h row hrow

theorem subjectForUpdate_some (h : subjectForUpdate command subject links = some row) :
    row ∈ links ∧ subjectColumns row = command.subjectKey subject :=
  ⟨mem_of_find?_eq_some h, by simpa using find?_some h⟩

theorem subjectForUpdate_none (h : subjectForUpdate command subject links = none) :
    ∀ row ∈ links, subjectColumns row ≠ command.subjectKey subject := by
  intro row hrow
  simpa using find?_eq_none.mp h row hrow

variable {slotRow subjectRow : Option EnterpriseSubjectLink} {desired : String}

theorem mem_conflictingRows (h : row ∈ conflictingRows slotRow subjectRow desired) :
    (slotRow = some row ∧ row.subjectValue ≠ desired) ∨
      (subjectRow = some row ∧ ∀ slot ∈ slotRow, row.id ≠ slot.id) := by
  simpa [conflictingRows, Option.mem_toList, Option.filter_eq_some_iff, mem_append] using h

theorem conflictingRows_nodup (slotRow subjectRow : Option EnterpriseSubjectLink) (desired : String) :
    ((conflictingRows slotRow subjectRow desired).map (·.id)).Nodup := by
  cases slotRow with
  | none => cases subjectRow <;> simp [conflictingRows, Option.filter]
  | some slot =>
    cases subjectRow with
    | none => by_cases h : slot.subjectValue = desired <;> simp [conflictingRows, Option.filter, h]
    | some other =>
      by_cases h : slot.subjectValue = desired <;> by_cases hid : slot.id = other.id <;>
        simp [conflictingRows, Option.filter, h, hid, eq_comm]

variable {rows : List EnterpriseSubjectLink}

theorem quarantine_evolves (hmem : ∀ row ∈ rows, row ∈ links) (hnodup : (rows.map (·.id)).Nodup) :
    Table.Evolves (LinkStep proofAt) links (quarantine rows proofAt links) := by
  unfold quarantine
  induction rows generalizing links with
  | nil => exact Table.Evolves.refl (fun _ => LinkStep.refl _) links
  | cons row rest ih =>
    rw [map_cons, nodup_cons] at hnodup
    rw [filter_cons]
    split
    · next hage =>
      have hrow : row ∈ links := hmem row mem_cons_self
      have hput : Table.Evolves (LinkStep proofAt) links (links.put { row with state := .conflict }) :=
        Table.Evolves.of_put (fun _ => LinkStep.refl _) hrow rfl
          (linkStep_state hage (tightensTo_conflict _))
      have hrest : ∀ r ∈ rest, r ∈ links.put { row with state := .conflict } := by
        intro r hr
        refine (mem_put_of_mem (r := { row with state := .conflict }) hrow rfl).mpr
          (.inr ⟨hmem r (mem_cons_of_mem _ hr), ?_⟩)
        intro hid
        exact hnodup.1 (mem_map.mpr ⟨r, hr, hid⟩)
      exact Table.Evolves.trans (fun _ _ _ => LinkStep.trans) hput (ih hrest hnodup.2)
    · exact ih (fun r hr => hmem r (mem_cons_of_mem _ hr)) hnodup.2

/-- All that a call can do to the table: rows move along `LinkStep`, or a new active row takes
    a free slot and a free subject. -/
inductive Change (command : VerifiedEnterpriseSubjectCommand) (links links' : Links) : Prop where
  | kept : links' = links → Change command links links'
  | moved (proofAt : Int) : command.resolution.verifiedAt = some proofAt →
      Table.Evolves (LinkStep proofAt) links links' → Change command links links'
  | inserted (subject : EnterpriseSubject) (proofAt : Int) (id : String) :
      slotForUpdate command links = none → subjectForUpdate command subject links = none →
      links.insert? (newLink command subject proofAt id) = some links' → Change command links links'

def ReadBack (command : VerifiedEnterpriseSubjectCommand) (links' : Links)
    (r : EnterpriseSubjectResolution) : Prop :=
  r.status = .resolved → ∃ row ∈ links', slotColumns row = command.slotKey ∧ row.state = .active ∧
    ∃ subject s, command.resolution.subject = some subject ∧ r.subject = some s ∧
      subject.subject = row.subjectValue ∧ s.subject = row.subjectValue

variable {r : EnterpriseSubjectResolution}

theorem create_ok {r' : EnterpriseSubjectResolution} (h : r.create = .ok r') : r' = r := by
  unfold EnterpriseSubjectResolution.create at h
  split at h
  · simpa using h.symm
  · cases h

variable {fallback : EnterpriseSubjectResolution}

theorem resolutionFromRow_resolved (h : resolutionFromRow row fallback = .ok r)
    (hstatus : r.status = .resolved) :
    row.state = .active ∧ ∃ s, r.subject = some s ∧ s.subject = row.subjectValue := by
  simp only [resolutionFromRow] at h
  split at h
  · next hactive =>
    split at h
    · cases h
    · next rowAt hrowAt =>
      rw [create_ok h]
      exact ⟨hactive, _, rfl, rfl⟩
  · rw [create_ok h] at hstatus
    cases hstatus
  · rw [create_ok h] at hstatus
    cases hstatus

theorem ambiguousResult_status (h : ambiguousResult rows fallback = .ok r) :
    r.status = .ambiguous := by
  unfold ambiguousResult at h
  split at h
  · rw [create_ok h]
  · cases h

variable {result : Except EnterpriseSubjectErrorCode EnterpriseSubjectResolution}

theorem returning_ok (h : returning result links = (.ok r, links')) :
    result = .ok r ∧ links' = links := by
  cases result with
  | error code => simp [returning, Except.mapError] at h
  | ok value =>
    simp only [returning, Except.mapError, Prod.mk.injEq, Except.ok.injEq] at h
    exact ⟨by rw [h.1], h.2.symm⟩

theorem conflictingRows_nil (h : conflictingRows slotRow subjectRow desired = []) :
    (∀ row ∈ slotRow, row.subjectValue = desired) ∧
      ∀ other ∈ subjectRow, ∃ slot ∈ slotRow, other.id = slot.id := by
  constructor
  · intro row hrow
    by_contra hne
    have hmem : row ∈ conflictingRows slotRow subjectRow desired := by
      simp_all [conflictingRows, Option.filter]
    rw [h] at hmem
    cases hmem
  · intro other hother
    by_contra hnone
    push Not at hnone
    have hkeep : subjectRow.filter (fun row => decide (∀ slot ∈ slotRow, row.id ≠ slot.id)) = some other := by
      rw [Option.filter_eq_some_iff]
      exact ⟨hother, by simpa using hnone⟩
    have hmem : other ∈ conflictingRows slotRow subjectRow desired := by
      rw [conflictingRows, hkeep]
      exact mem_append_right _ (mem_singleton.mpr rfl)
    rw [h] at hmem
    cases hmem

theorem confirmRow_columns (row : EnterpriseSubjectLink) (proofAt : Int) (sourceRevision : Option String) :
    (confirmRow row proofAt sourceRevision).id = row.id ∧
      slotColumns (confirmRow row proofAt sourceRevision) = slotColumns row ∧
      (confirmRow row proofAt sourceRevision).subjectValue = row.subjectValue := by
  have h : LinkStep proofAt row (confirmRow row proofAt sourceRevision) := linkStep_confirm row
  exact ⟨h.tightened.id, h.tightened.slot, h.tightened.subject⟩

theorem persistResolved_ok (hproof : command.resolution.verifiedAt = some proofAt)
    (hsubj : command.resolution.subject = some subject)
    (h : persistResolved command subject proofAt attempt links = (.ok r, links')) :
    Change command links links' ∧ ReadBack command links' r := by
  simp only [persistResolved] at h
  split at h
  · cases h
  · split at h
    · next hfree =>
      obtain ⟨hsame, hheld⟩ := conflictingRows_nil hfree
      split at h
      · next hslot =>
        have hnone : subjectForUpdate command subject links = none := by
          rw [Option.eq_none_iff_forall_not_mem]
          intro other hother
          obtain ⟨slot, hmem, -⟩ := hheld other hother
          rw [hslot] at hmem
          cases hmem
        split at h
        · cases h
        · next next hinsert =>
          obtain ⟨hresult, rfl⟩ := returning_ok h
          refine ⟨Change.inserted subject proofAt attempt.id hslot hnone hinsert, fun hstatus => ?_⟩
          obtain ⟨hactive, s, hs, hvalue⟩ := resolutionFromRow_resolved hresult hstatus
          exact ⟨_, (mem_insert? hinsert).mpr (.inl rfl), rfl, hactive, subject, s, hsubj, hs,
            rfl, hvalue⟩
      · next row hslot =>
        obtain ⟨hresult, rfl⟩ := returning_ok h
        obtain ⟨hrow, hkey⟩ := slotForUpdate_some hslot
        obtain ⟨hid, hcolumns, hvalue⟩ := confirmRow_columns row proofAt command.resolution.sourceRevision
        refine ⟨Change.moved proofAt hproof (Table.Evolves.of_put (fun _ => LinkStep.refl _) hrow hid
          (linkStep_confirm row)), fun hstatus => ?_⟩
        obtain ⟨hactive, s, hs, hread⟩ := resolutionFromRow_resolved hresult hstatus
        refine ⟨_, (mem_put_of_mem hrow hid).mpr (.inl rfl), by rw [hcolumns, hkey], hactive, subject,
          s, hsubj, hs, ?_, hread⟩
        rw [hvalue, hsame row hslot]
    · next conflicting rest hrows =>
      obtain ⟨hresult, rfl⟩ := returning_ok h
      have hnodup := conflictingRows_nodup (slotForUpdate command links)
        (subjectForUpdate command subject links) subject.subject
      rw [hrows] at hnodup
      have hmem : ∀ row ∈ conflicting :: rest, row ∈ links := by
        intro row hrow
        rw [← hrows] at hrow
        rcases mem_conflictingRows hrow with ⟨hslot, -⟩ | ⟨hheld, -⟩
        · exact (slotForUpdate_some hslot).1
        · exact (subjectForUpdate_some hheld).1
      refine ⟨Change.moved proofAt hproof (quarantine_evolves hmem hnodup), fun hstatus => ?_⟩
      rw [ambiguousResult_status hresult] at hstatus
      cases hstatus

theorem persistNegative_ok (hproof : command.resolution.verifiedAt = some proofAt)
    (h : persistNegative command proofAt attempt links = (.ok r, links')) :
    Change command links links' ∧ r = command.resolution := by
  unfold persistNegative at h
  split at h
  · cases h
  · split at h
    · cases h
      exact ⟨Change.kept rfl, rfl⟩
    · next row hslot =>
      split at h
      · cases h
      · next row' hrow' =>
        cases h
        have hstep := linkStep_tighten hrow'
        exact ⟨Change.moved proofAt hproof (Table.Evolves.of_put (fun _ => LinkStep.refl _)
          (slotForUpdate_some hslot).1 hstep.tightened.id hstep), rfl⟩

theorem apply_ok (h : apply command attempt links = (.ok r, links')) :
    Change command links links' ∧ ReadBack command links' r := by
  rcases inTransaction_cases h with ⟨value, hvalue, hbody⟩ | ⟨error, herror, -⟩
  · cases hvalue
    split at hbody
    · split at hbody
      · cases hbody
      · next proofAt hproof =>
        split at hbody
        · split at hbody
          · cases hbody
          · next subject hsubj => exact persistResolved_ok hproof hsubj hbody
        · next hstatus =>
          obtain ⟨hchange, rfl⟩ := persistNegative_ok hproof hbody
          exact ⟨hchange, fun hreso => absurd hreso hstatus⟩
    · cases hbody
  · cases herror

theorem apply_error {failure : Failure} (h : apply command attempt links = (.error failure, links')) :
    links' = links := by
  rcases inTransaction_cases h with ⟨value, hvalue, -⟩ | ⟨error, -, hsame⟩
  · cases hvalue
  · exact hsame

theorem persist_cases (h : persistResolution command first retry links = (result, links')) :
    Change command links links' ∧ ∀ r, result = .ok r → ReadBack command links' r := by
  simp only [persistResolution] at h
  split at h
  · next hunavailable =>
    cases h
    refine ⟨Change.kept rfl, fun r hr hreso => ?_⟩
    cases hr
    rw [hunavailable] at hreso
    cases hreso
  · split at h
    · next r links'' happly =>
      cases h
      obtain ⟨hchange, hread⟩ := apply_ok happly
      refine ⟨hchange, fun r' hr' => ?_⟩
      cases hr'
      exact hread
    · next code links'' happly =>
      cases h
      exact ⟨Change.kept (apply_error happly), nofun⟩
    · next links'' happly =>
      have hsame := apply_error happly
      subst hsame
      rcases hretry : apply command retry links'' with ⟨r | r, links'''⟩
      · rw [hretry] at h
        cases h
        exact ⟨Change.kept (apply_error hretry), nofun⟩
      · rw [hretry] at h
        cases h
        obtain ⟨hchange, hread⟩ := apply_ok hretry
        refine ⟨hchange, fun r' hr' => ?_⟩
        cases hr'
        exact hread

/-! ### Runs -/

structure Persisted where
  command : VerifiedEnterpriseSubjectCommand
  first : Attempt
  retry : Attempt
  result : Except EnterpriseSubjectErrorCode EnterpriseSubjectResolution

def Step (links : Links) (e : Persisted) (links' : Links) : Prop :=
  persistResolution e.command e.first e.retry links = (e.result, links')

/-- A call leaves the rows that are newer than its proof alone, and reports a subject only for
    an active row of its slot. -/
structure Obeyed (links : Links) (e : Persisted) (links' : Links) : Prop where
  newer : ∀ row ∈ links, ∀ p v, e.command.resolution.verifiedAt = some p → row.verifiedAt = some v →
    p < v → row ∈ links'
  readBack : ∀ r, e.result = .ok r → ReadBack e.command links' r

variable {start : Links} {e : Persisted} {hist : List Persisted}

theorem Change.tightened (h : Change command links links') (hrow : row ∈ links) :
    ∃ row' ∈ links', Tightened row row' := by
  rcases h with rfl | ⟨p, -, hmoved⟩ | ⟨subject, p, id, -, -, hinsert⟩
  · exact ⟨row, hrow, Tightened.refl row⟩
  · obtain ⟨row', hrow', hstep⟩ := hmoved.exists_of_mem hrow
    exact ⟨row', hrow', hstep.tightened⟩
  · exact ⟨row, (mem_insert? hinsert).mpr (.inr hrow), Tightened.refl row⟩

theorem Change.newer (h : Change command links links') (hrow : row ∈ links) {p v : Int}
    (hp : command.resolution.verifiedAt = some p) (hv : row.verifiedAt = some v) (hlt : p < v) :
    row ∈ links' := by
  rcases h with rfl | ⟨q, hq, hmoved⟩ | ⟨subject, q, id, -, -, hinsert⟩
  · exact hrow
  · rw [hp, Option.some.injEq] at hq
    subst hq
    obtain ⟨row', hrow', hstep⟩ := hmoved.exists_of_mem hrow
    rw [hstep.eq_of_lt hv hlt] at hrow'
    exact hrow'
  · exact (mem_insert? hinsert).mpr (.inr hrow)

theorem unique_moved {β : Type} {columns : EnterpriseSubjectLink → β}
    (hcolumns : ∀ row row', Tightened row row' → columns row' = columns row)
    (h : links.Unique columns) (hmoved : Table.Evolves (LinkStep proofAt) links links') :
    links'.Unique columns := by
  obtain ⟨f, hrows, hf⟩ := hmoved
  have hback : ∀ row' ∈ links', ∃ row ∈ links, row' = f row ∧ columns row' = columns row := by
    intro row' hrow'
    rw [mem_def, hrows] at hrow'
    obtain ⟨row, hrow, rfl⟩ := mem_map.mp hrow'
    exact ⟨row, hrow, rfl, hcolumns _ _ (hf row hrow).tightened⟩
  intro a ha b hb heq
  obtain ⟨a', ha', rfl, hca⟩ := hback a ha
  obtain ⟨b', hb', rfl, hcb⟩ := hback b hb
  rw [h a' ha' b' hb' (by rw [← hca, ← hcb, heq])]

theorem Change.unique_slot (h : Change command links links') (hslot : links.Unique slotColumns) :
    links'.Unique slotColumns := by
  rcases h with rfl | ⟨p, -, hmoved⟩ | ⟨subject, p, id, hfree, -, hinsert⟩
  · exact hslot
  · exact unique_moved (fun _ _ ht => ht.slot) hslot hmoved
  · exact hslot.insert? hinsert (slotForUpdate_none hfree)

theorem Change.unique_subject (h : Change command links links') (hsubj : links.Unique subjectColumns) :
    links'.Unique subjectColumns := by
  rcases h with rfl | ⟨p, -, hmoved⟩ | ⟨subject, p, id, -, hfree, hinsert⟩
  · exact hsubj
  · exact unique_moved (fun _ _ ht => ht.columns) hsubj hmoved
  · exact hsubj.insert? hinsert (subjectForUpdate_none hfree)

theorem step_change (h : Step links e links') : Change e.command links links' := (persist_cases h).1

theorem step_obeyed (h : Step links e links') : Obeyed links e links' where
  newer _ hrow _ _ hp hv hlt := (step_change h).newer hrow hp hv hlt
  readBack := (persist_cases h).2

theorem tightened_run (hrun : Run Step start hist links) :
    ∀ row ∈ start, ∃ row' ∈ links, Tightened row row' := by
  refine Run.rel (I := fun _ => True) (R := fun a b : Links => ∀ row ∈ a, ∃ row' ∈ b, Tightened row row')
    (fun a row hrow => ⟨row, hrow, Tightened.refl row⟩) ?_ trivial (fun _ _ _ _ _ => trivial)
    (fun _ _ _ _ hstep row hrow => (step_change hstep).tightened hrow) hrun
  intro a b c hab hbc row hrow
  obtain ⟨row', hrow', h⟩ := hab row hrow
  obtain ⟨row'', hrow'', h'⟩ := hbc row' hrow'
  exact ⟨row'', hrow'', h.trans h'⟩

/-- Over any sequence of calls the two keys stay unique, links are only tightened, and every
    call obeys the age of the links and the state of its slot. -/
theorem links_fail_closed (hrun : Run Step start hist links) (hslot : start.Unique slotColumns)
    (hsubject : start.Unique subjectColumns) :
    links.Unique slotColumns ∧ links.Unique subjectColumns ∧
      (∀ later earlier, hist = later ++ earlier → ∃ m, Run Step start earlier m ∧ Run Step m later links ∧
        ∀ row ∈ m, ∃ row' ∈ links, Tightened row row') ∧
      (∀ later e earlier, hist = later ++ e :: earlier → ∃ a b, Run Step start earlier a ∧ Step a e b ∧
        Run Step b later links ∧ Obeyed a e b) := by
  refine ⟨?_, ?_, ?_, ?_⟩
  · exact Run.invariant (P := fun links : Links => links.Unique slotColumns) hslot
      (fun _ _ _ h hstep => (step_change hstep).unique_slot h) hrun
  · exact Run.invariant (P := fun links : Links => links.Unique subjectColumns) hsubject
      (fun _ _ _ h hstep => (step_change hstep).unique_subject h) hrun
  · rintro later earlier rfl
    obtain ⟨m, hbefore, hafter⟩ := hrun.of_append
    exact ⟨m, hbefore, hafter, tightened_run hafter⟩
  · rintro later e earlier rfl
    obtain ⟨a, b, hbefore, hstep, hafter⟩ := hrun.split
    exact ⟨a, b, hbefore, hstep, hafter, step_obeyed hstep⟩

/-! ### A sample run -/

def perform (c : VerifiedEnterpriseSubjectCommand × Attempt) (links : Links) : Persisted × Links :=
  let (result, links') := persistResolution c.1 c.2 c.2 links
  (⟨c.1, c.2, c.2, result⟩, links')

theorem perform_step (c : VerifiedEnterpriseSubjectCommand × Attempt) (links : Links) :
    Step links (perform c links).1 (perform c links).2 := rfl

theorem run_perform (calls : List (VerifiedEnterpriseSubjectCommand × Attempt)) (links : Links) :
    Run Step links (execute perform calls [] links).1 (execute perform calls [] links).2 :=
  execute_steps Run.nil (allowed_true perform calls links) fun c links _ => perform_step c links

def talentSlot : EnterpriseSubjectSlot := ⟨"talent_id", "hr", "acme"⟩

def resolvedAt (user subject : String) (at_ : Int) (h : validCommand user "t" talentSlot
    ⟨.resolved, some ⟨"talent_id", subject, "hr", "acme", at_⟩, some at_, none⟩ = true) :
    VerifiedEnterpriseSubjectCommand :=
  ⟨user, "t", talentSlot, _, h⟩

def inactiveAt (user : String) (at_ : Int)
    (h : validCommand user "t" talentSlot ⟨.inactive, none, some at_, none⟩ = true) :
    VerifiedEnterpriseSubjectCommand :=
  ⟨user, "t", talentSlot, _, h⟩

def contested : List (VerifiedEnterpriseSubjectCommand × Attempt) :=
  [(resolvedAt "u" "p1" 10 (by decide +kernel), ⟨true, 11, "r1"⟩),
    (resolvedAt "v" "p1" 20 (by decide +kernel), ⟨true, 21, "r2"⟩),
    (inactiveAt "u" 30 (by decide +kernel), ⟨true, 31, "r3"⟩)]

theorem links_fail_closed_sample :
    (execute perform contested [] Table.empty).2.Unique slotColumns ∧
      (execute perform contested [] Table.empty).2.Unique subjectColumns :=
  have h := links_fail_closed (run_perform contested Table.empty)
    (unique_of_forall_not_mem not_mem_empty)
    (unique_of_forall_not_mem not_mem_empty)
  ⟨h.1, h.2.1⟩

end MultiRag.EnterpriseSubjects
