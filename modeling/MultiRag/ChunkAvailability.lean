/-
  **Four rules for the availability of a document's chunks.**

  The insertion, the two status updates of the stores and the recovery each compute
  `available_int` on their own: a parent is a row that names itself as its mother, a
  row that another one names, or either; table-of-contents rows and generated rows
  have rules of their own in two of the four.
-/
import Mathlib.Data.List.Dedup
import MultiRag.Fallible

namespace MultiRag.Availability

open List

/-! ### Rows -/

structure Chunk where
  id : String
  docId : String
  momId : Option String
  tocKwd : Option String
  raptorKwd : Option String
  knowledgeGraphKwd : Option String
  compileKwd : Option String
  availableInt : Option Int
deriving DecidableEq

def given (text : Option String) : Bool := text.any (· ≠ "")

def Chunk.derived (chunk : Chunk) : Bool :=
  given chunk.raptorKwd || given chunk.knowledgeGraphKwd || given chunk.compileKwd

def Chunk.ownMother (chunk : Chunk) : Bool := given chunk.momId && chunk.momId = some chunk.id

def Chunk.tableOfContents (chunk : Chunk) : Bool := chunk.tocKwd = some "toc"

inductive Status where
  | wasted | valid
deriving DecidableEq

def Status.toInt : Status → Int
  | .wasted => 0
  | .valid => 1

def assign (rule : Chunk → Option Int) (rows : List Chunk) : List Chunk :=
  rows.map fun row => { row with availableInt := rule row }

variable {f : Chunk → Option Int} {rows : List Chunk}

theorem assign_eq_iff {g : Chunk → Option Int} :
    assign f rows = assign g rows ↔ ∀ row ∈ rows, f row = g row := by
  rw [assign, assign, map_inj_left]
  constructor
  · intro h row hrow
    exact congrArg Chunk.availableInt (h row hrow)
  · intro h row hrow
    rw [h row hrow]

theorem assign_eq_self (h : ∀ row ∈ rows, f row = row.availableInt) : assign f rows = rows := by
  rw [assign_eq_iff.mpr h, assign, map_id'']
  intro row
  rfl

/-! ### `source_document_availability` -/

def graphRaptorX : String := "graph_raptor_x"

def grouped (withTask : Bool) (chunk : Chunk) : Bool :=
  !((chunk.derived || chunk.docId = graphRaptorX) && (!withTask || chunk.docId = graphRaptorX))

def insertedRule (status : Status) (chunk : Chunk) : Option Int :=
  if chunk.derived then chunk.availableInt
  else some (if chunk.ownMother || chunk.tableOfContents || status = .wasted then 0 else 1)

/-- `taskDocument` is the document of the task that inserts, where there is one; the checks that
    the task is still current are not part of the rule. -/
def sourceDocumentAvailability (documents : String → Option Status) (taskDocument : Option String)
    (chunks : List Chunk) : Except String (List Chunk) :=
  let groups := chunks.filter (grouped taskDocument.isSome)
  if groups.any (·.docId = "") then .error "Source document ID unavailable."
  else if groups = [] then .ok chunks
  else if groups.any fun chunk => (documents chunk.docId).isNone then
    .error "Source document status unavailable."
  else if taskDocument = some graphRaptorX && chunks.all Chunk.derived then .ok chunks
  else if taskDocument.isSome && (groups.map Chunk.docId).dedup.length ≠ 1 then
    .error "A source task must belong to one document."
  else .ok (assign (fun chunk =>
    match grouped taskDocument.isSome chunk, documents chunk.docId with
    | true, some status => insertedRule status chunk
    | _, _ => chunk.availableInt) chunks)

/-! ### Relations between rows -/

/-- A row of the document names `id` as its mother. -/
def referenced (rows : List Chunk) (docId id : String) : Bool :=
  rows.any fun row => row.docId = docId && given row.momId && row.momId = some id

def checkRelations : List Chunk → List Chunk → Except String Unit
  | _, [] => .ok ()
  | earlier, row :: rows =>
    if row.docId = "" || row.id = "" then .error "Invalid availability relationship row"
    else if earlier.any fun other => other.docId = row.docId && other.id = row.id then
      .error "Duplicate availability relationship row"
    else checkRelations (row :: earlier) rows

/-- The ids of a document that are mothers; the order in which they are sorted is never read. -/
def parentsOf (rows : List Chunk) (docId : String) : List String :=
  ((rows.filter (·.docId = docId)).map Chunk.id).filter (referenced rows docId)

def availabilityParentIds (rows : List Chunk) : Except String (List (String × List String)) := do
  checkRelations [] rows
  .ok ((rows.map Chunk.docId).dedup.map fun docId => (docId, parentsOf rows docId))

/-! ### Status updates of the stores -/

def scriptRule (status : Int) (parents : List (String × List String)) (row : Chunk) : Option Int :=
  if row.ownMother || (parents.find? (·.1 = row.docId)).any (·.2.contains row.id) then some 0
  else some status

/-- `ESConnection.update` of `available_int` on the rows of a document -/
def elasticsearchUpdate (status : Int) (rows : List Chunk) : Except String (List Chunk) := do
  let parents ← availabilityParentIds rows
  .ok (assign (scriptRule status parents) rows)

def milvusRule (status : Int) (results : List Chunk) (record : Chunk) : Option Int :=
  if status = 1 && results.any (fun other => given other.momId && other.momId = some record.id) then some 0
  else some status

/-- `MilvusConnection.update` of `available_int` on the rows of a document -/
def milvusUpdate (status : Int) (results : List Chunk) : List Chunk :=
  assign (milvusRule status results) results

inductive Store where
  | elasticsearch | milvus

def Store.switch (store : Store) (status : Status) (rows : List Chunk) : Except String (List Chunk) :=
  match store with
  | .elasticsearch => elasticsearchUpdate status.toInt rows
  | .milvus => .ok (milvusUpdate status.toInt rows)

def restoredRule (status : Status) (parents : List String) (row : Chunk) : Option Int :=
  if row.derived then row.availableInt
  else some (if status = .wasted || parents.contains row.id || row.tableOfContents then 0 else 1)

def historyForStatus (rows : List Chunk) (status : Status) : Except String (List Chunk) := do
  let parents ← availabilityParentIds rows
  .ok (assign (restoredRule status (parents.map Prod.snd).flatten) rows)

/-! ### The rows of a document -/

/-- The rows that a store holds of one document, told apart by their ids. -/
structure DocumentRows where
  docId : String
  rows : List Chunk
  named : docId ≠ ""
  plain : docId ≠ graphRaptorX
  same : ∀ row ∈ rows, row.docId = docId
  identified : ∀ row ∈ rows, row.id ≠ ""
  distinct : (rows.map Chunk.id).Nodup

namespace DocumentRows

def names (d : DocumentRows) (id : String) : Bool := d.rows.any fun row => row.momId = some id

/-- The rows on which the four rules agree at a status: a generated row holds what the stores
    write, and, where the document is not wasted, a table of contents is a mother, and a mother
    names itself or is a table of contents. -/
def AgreesOn (d : DocumentRows) (status : Status) (row : Chunk) : Prop :=
  if row.derived then row.availableInt = some (if status = .wasted || d.names row.id then 0 else 1)
  else status = .wasted ∨ (row.tableOfContents = true → d.names row.id = true) ∧
    (d.names row.id = true → row.ownMother = true ∨ row.tableOfContents = true)

instance (d : DocumentRows) (status : Status) (row : Chunk) : Decidable (d.AgreesOn status row) :=
  inferInstanceAs (Decidable (if row.derived = true then
      row.availableInt = some (if status = .wasted || d.names row.id then 0 else 1)
    else status = .wasted ∨ (row.tableOfContents = true → d.names row.id = true) ∧
      (d.names row.id = true → row.ownMother = true ∨ row.tableOfContents = true)))

def Agrees (d : DocumentRows) (status : Status) : Prop := ∀ row ∈ d.rows, d.AgreesOn status row

instance (d : DocumentRows) (status : Status) : Decidable (d.Agrees status) :=
  inferInstanceAs (Decidable (∀ row ∈ d.rows, d.AgreesOn status row))

/-- The insertion, the two stores and the recovery give the rows the same availability. -/
def OneRule (d : DocumentRows) (status : Status) : Prop :=
  ∀ documents taskDocument, documents d.docId = some status →
    ∃ inserted, sourceDocumentAvailability documents taskDocument d.rows = .ok inserted ∧
      (∀ store : Store, store.switch status d.rows = .ok inserted) ∧
      historyForStatus d.rows status = .ok inserted

/-- Rows that were inserted at a status have the same availability again when the document is
    switched back to it, after any switches, and when they are recovered. -/
def GivenBack (d : DocumentRows) (status : Status) : Prop :=
  ∀ documents taskDocument inserted, documents d.docId = some status →
    sourceDocumentAvailability documents taskDocument d.rows = .ok inserted →
    (∀ (store : Store) (switches : List Status),
      (switches ++ [status]).foldlM (fun rows next => store.switch next rows) inserted = .ok inserted) ∧
    historyForStatus inserted status = .ok inserted

/-! ### The rules on the rows of a document -/

def switchedRule (d : DocumentRows) (status : Status) (row : Chunk) : Option Int :=
  some (if d.names row.id then 0 else status.toInt)

def recoveredRule (d : DocumentRows) (status : Status) (row : Chunk) : Option Int :=
  if row.derived then row.availableInt
  else some (if status = .wasted || d.names row.id || row.tableOfContents then 0 else 1)

variable {d : DocumentRows} {id : String}

theorem names_iff :
    d.names id = true ↔ ∃ row ∈ d.rows, row.momId = some id := by
  simp [names]

variable {row : Chunk}

theorem given_of_momId (hid : id ≠ "") (h : row.momId = some id) :
    given row.momId = true := by
  simp [given, h, hid]

theorem referenced_eq (hid : id ≠ "") :
    referenced d.rows d.docId id = d.names id := by
  rw [Bool.eq_iff_iff, names_iff]
  simp only [referenced, any_eq_true, Bool.and_eq_true, decide_eq_true_eq]
  constructor
  · rintro ⟨row, hrow, -, hmom⟩
    exact ⟨row, hrow, hmom⟩
  · rintro ⟨row, hrow, hmom⟩
    exact ⟨row, hrow, ⟨d.same row hrow, given_of_momId hid hmom⟩, hmom⟩

theorem names_of_ownMother (hrow : row ∈ d.rows) (h : row.ownMother = true) :
    d.names row.id = true := by
  simp only [Chunk.ownMother, Bool.and_eq_true, decide_eq_true_eq] at h
  exact names_iff.mpr ⟨row, hrow, h.2⟩

theorem mem_parentsOf (hrow : row ∈ d.rows) :
    row.id ∈ parentsOf d.rows d.docId ↔ d.names row.id = true := by
  rw [parentsOf, List.mem_filter, referenced_eq (d.identified row hrow)]
  apply and_iff_right
  exact mem_map_of_mem (List.mem_filter.mpr ⟨hrow, decide_eq_true (d.same row hrow)⟩)

variable {rows : List Chunk}

theorem checkRelations_ok {earlier : List Chunk} (hdoc : ∀ row ∈ rows, row.docId ≠ "")
    (hid : ∀ row ∈ rows, row.id ≠ "") (hnodup : (rows.map Chunk.id).Nodup)
    (hearlier : ∀ row ∈ rows, ∀ other ∈ earlier, other.id ≠ row.id) :
    checkRelations earlier rows = .ok () := by
  induction rows generalizing earlier with
  | nil => rfl
  | cons row rows ih =>
    obtain ⟨hnew, hrest⟩ := nodup_cons.mp hnodup
    have hnot : ¬ (earlier.any fun other => other.docId = row.docId && other.id = row.id) = true := by
      simp only [any_eq_true, Bool.and_eq_true, decide_eq_true_eq, not_exists, not_and]
      intro other hother _
      exact hearlier row mem_cons_self other hother
    have hnamed : ¬ (row.docId = "" || row.id = "") = true := by
      simp [hdoc row mem_cons_self, hid row mem_cons_self]
    rw [checkRelations, if_neg hnamed, if_neg hnot]
    apply ih (fun r hr => hdoc r (mem_cons_of_mem _ hr)) (fun r hr => hid r (mem_cons_of_mem _ hr))
      hrest
    intro r hr other hother
    rcases mem_cons.mp hother with rfl | hother
    · intro hsame
      exact hnew (hsame ▸ mem_map_of_mem hr)
    · exact hearlier r (mem_cons_of_mem _ hr) other hother

theorem availabilityParentIds_eq (d : DocumentRows) : availabilityParentIds d.rows =
    .ok ((d.rows.map Chunk.docId).dedup.map fun docId => (docId, parentsOf d.rows docId)) := by
  have hchecked : checkRelations [] d.rows = .ok () := by
    apply checkRelations_ok _ d.identified d.distinct
    · intro row _ other hother
      cases hother
    · intro row hrow
      rw [d.same row hrow]
      exact d.named
  rw [availabilityParentIds, hchecked]
  rfl

theorem find?_pairs {κ : Type} [DecidableEq κ] {β : Type} (g : κ → β) {keys : List κ} {key : κ}
    (hkey : key ∈ keys) : (keys.map fun k => (k, g k)).find? (·.1 = key) = some (key, g key) := by
  induction keys with
  | nil => cases hkey
  | cons first keys ih =>
    by_cases hfirst : first = key
    · subst hfirst
      rw [map_cons, find?_cons_of_pos (by simp)]
    · rw [map_cons, find?_cons_of_neg (by simpa using hfirst)]
      exact ih ((mem_cons.mp hkey).resolve_left (Ne.symm hfirst))

variable (hrow : row ∈ d.rows)
include hrow

theorem docId_mem :
    d.docId ∈ (d.rows.map Chunk.docId).dedup := by
  rw [mem_dedup, ← d.same row hrow]
  exact mem_map_of_mem hrow

variable {status : Status}

theorem scriptRule_eq :
    scriptRule status.toInt ((d.rows.map Chunk.docId).dedup.map fun docId =>
      (docId, parentsOf d.rows docId)) row = d.switchedRule status row := by
  rw [scriptRule, d.same row hrow, find?_pairs (parentsOf d.rows) (docId_mem hrow), Option.any_some,
    switchedRule]
  by_cases hnames : d.names row.id = true
  · rw [if_pos, if_pos hnames]
    simp [mem_parentsOf hrow, hnames]
  · have hown : row.ownMother = false := by
      rw [← Bool.not_eq_true]
      exact fun h => hnames (names_of_ownMother hrow h)
    rw [if_neg, if_neg hnames]
    simp [hown, mem_parentsOf hrow, hnames]

theorem milvusRule_eq :
    milvusRule status.toInt d.rows row = d.switchedRule status row := by
  have hany : (d.rows.any fun other => given other.momId && other.momId = some row.id) = d.names row.id := by
    rw [Bool.eq_iff_iff, names_iff, any_eq_true]
    simp only [Bool.and_eq_true, decide_eq_true_eq]
    constructor
    · rintro ⟨other, hother, -, hmom⟩
      exact ⟨other, hother, hmom⟩
    · rintro ⟨other, hother, hmom⟩
      exact ⟨other, hother, given_of_momId (d.identified row hrow) hmom, hmom⟩
  rw [milvusRule, hany, switchedRule]
  cases status with
  | wasted => simp [Status.toInt]
  | valid =>
    cases d.names row.id with
    | false => simp [Status.toInt]
    | true => simp [Status.toInt]

theorem restoredRule_eq :
    restoredRule status (((d.rows.map Chunk.docId).dedup.map fun docId =>
      (docId, parentsOf d.rows docId)).map Prod.snd).flatten row = d.recoveredRule status row := by
  have hparent : (((d.rows.map Chunk.docId).dedup.map fun docId =>
      (docId, parentsOf d.rows docId)).map Prod.snd).flatten.contains row.id = d.names row.id := by
    rw [Bool.eq_iff_iff, contains_iff_mem, ← mem_parentsOf hrow, map_map, mem_flatten]
    constructor
    · rintro ⟨ids, hids, hmem⟩
      obtain ⟨docId, hdocId, rfl⟩ := mem_map.mp hids
      rw [mem_dedup] at hdocId
      obtain ⟨other, hother, rfl⟩ := mem_map.mp hdocId
      rw [Function.comp_apply, d.same other hother] at hmem
      exact hmem
    · intro hmem
      exact ⟨_, mem_map.mpr ⟨d.docId, docId_mem hrow, rfl⟩, hmem⟩
  rw [restoredRule, recoveredRule, hparent]

omit hrow

theorem switch_eq (d : DocumentRows) (store : Store) (status : Status) :
    store.switch status d.rows = .ok (assign (d.switchedRule status) d.rows) := by
  cases store with
  | elasticsearch =>
    rw [Store.switch, elasticsearchUpdate, availabilityParentIds_eq]
    refine congrArg Except.ok (assign_eq_iff.mpr ?_)
    intro row hrow
    exact scriptRule_eq hrow
  | milvus =>
    rw [Store.switch, milvusUpdate]
    refine congrArg Except.ok (assign_eq_iff.mpr ?_)
    intro row hrow
    exact milvusRule_eq hrow

theorem historyForStatus_eq (d : DocumentRows) (status : Status) :
    historyForStatus d.rows status = .ok (assign (d.recoveredRule status) d.rows) := by
  rw [historyForStatus, availabilityParentIds_eq]
  refine congrArg Except.ok (assign_eq_iff.mpr ?_)
  intro row hrow
  exact restoredRule_eq hrow

theorem derived_of_not_grouped {withTask : Bool} (hrow : row ∈ d.rows)
    (h : grouped withTask row = false) : row.derived = true := by
  have hplain : ¬ row.docId = graphRaptorX := by
    rw [d.same row hrow]
    exact d.plain
  simp only [grouped, hplain, decide_false, Bool.or_false, Bool.not_eq_false', Bool.and_eq_true] at h
  exact h.1

theorem insertedRule_of_derived (h : row.derived = true) :
    insertedRule status row = row.availableInt := by
  rw [insertedRule, if_pos h]

theorem inserted_eq (d : DocumentRows) {documents : String → Option Status}
    (taskDocument : Option String) (hstatus : documents d.docId = some status) :
    sourceDocumentAvailability documents taskDocument d.rows = .ok (assign (insertedRule status) d.rows) := by
  have hdocId : ∀ row ∈ d.rows.filter (grouped taskDocument.isSome), row.docId = d.docId :=
    fun row hrow => d.same row (List.mem_filter.mp hrow).1
  have hnamed : ¬ ((d.rows.filter (grouped taskDocument.isSome)).any (·.docId = "")) = true := by
    simp only [any_eq_true, decide_eq_true_eq, not_exists, not_and]
    intro row hrow
    rw [hdocId row hrow]
    exact d.named
  rw [sourceDocumentAvailability, if_neg hnamed]
  split
  · -- without groups all rows are generated ones
    next hempty =>
    refine congrArg Except.ok (assign_eq_self ?_).symm
    intro row hrow
    have hnot : grouped taskDocument.isSome row = false := by
      rw [← Bool.not_eq_true]
      exact filter_eq_nil_iff.mp hempty row hrow
    exact insertedRule_of_derived (derived_of_not_grouped hrow hnot)
  next hgroups =>
  have hknown : ¬ ((d.rows.filter (grouped taskDocument.isSome)).any
      fun chunk => (documents chunk.docId).isNone) = true := by
    simp only [any_eq_true, not_exists, not_and]
    intro row hrow
    simp [hdocId row hrow, hstatus]
  rw [if_neg hknown]
  split
  · next hall =>
    rw [Bool.and_eq_true, all_eq_true] at hall
    refine congrArg Except.ok (assign_eq_self ?_).symm
    intro row hrow
    exact insertedRule_of_derived (hall.2 row hrow)
  · have hsingle : ((d.rows.filter (grouped taskDocument.isSome)).map Chunk.docId).dedup = [d.docId] := by
      have hreplicate : (d.rows.filter (grouped taskDocument.isSome)).map Chunk.docId =
          replicate (d.rows.filter (grouped taskDocument.isSome)).length d.docId := by
        rw [map_congr_left hdocId, map_const']
      rw [hreplicate]
      exact replicate_dedup (fun hlength => hgroups (length_eq_zero_iff.mp hlength))
    rw [if_neg (by simp [hsingle])]
    refine congrArg Except.ok (assign_eq_iff.mpr ?_)
    intro row hrow
    cases hgrouped : grouped taskDocument.isSome row with
    | true => simp only [d.same row hrow, hstatus]
    | false => exact (insertedRule_of_derived (derived_of_not_grouped hrow hgrouped)).symm

/-! ### Agreement -/

theorem agreesOn_iff (hrow : row ∈ d.rows) :
    d.AgreesOn status row ↔ d.switchedRule status row = insertedRule status row ∧
      d.recoveredRule status row = insertedRule status row := by
  have hown := names_of_ownMother hrow
  simp only [AgreesOn, switchedRule, recoveredRule, insertedRule]
  by_cases hderived : row.derived = true
  · rw [if_pos hderived, if_pos hderived, if_pos hderived, and_iff_left rfl]
    cases status with
    | wasted =>
      rw [Status.toInt, ite_self]
      exact eq_comm
    | valid => exact eq_comm
  · rw [if_neg hderived, if_neg hderived, if_neg hderived]
    revert hown
    generalize row.ownMother = own
    generalize row.tableOfContents = toc
    generalize d.names row.id = named
    cases status with
    | wasted => simp [Status.toInt]
    | valid =>
      revert own toc named
      decide

theorem oneRule_iff : d.OneRule status ↔ d.Agrees status := by
  constructor
  · intro h row hrow
    obtain ⟨inserted, hins, hswitched, hrecovered⟩ := h (fun _ => some status) none rfl
    rw [d.inserted_eq none rfl, Except.ok.injEq] at hins
    subst hins
    have hstore := hswitched .milvus
    rw [d.switch_eq, Except.ok.injEq] at hstore
    rw [d.historyForStatus_eq, Except.ok.injEq] at hrecovered
    exact (agreesOn_iff hrow).mpr ⟨assign_eq_iff.mp hstore row hrow, assign_eq_iff.mp hrecovered row hrow⟩
  · intro h documents taskDocument hstatus
    refine ⟨_, d.inserted_eq taskDocument hstatus, fun store => ?_, ?_⟩
    · rw [d.switch_eq]
      exact congrArg Except.ok (assign_eq_iff.mpr fun row hrow => ((agreesOn_iff hrow).mp (h row hrow)).1)
    · rw [d.historyForStatus_eq]
      exact congrArg Except.ok (assign_eq_iff.mpr fun row hrow => ((agreesOn_iff hrow).mp (h row hrow)).2)

def assigned (d : DocumentRows) (rule : Chunk → Option Int) : DocumentRows where
  docId := d.docId
  rows := assign rule d.rows
  named := d.named
  plain := d.plain
  same := by
    intro row hrow
    obtain ⟨old, hold, rfl⟩ := mem_map.mp hrow
    exact d.same old hold
  identified := by
    intro row hrow
    obtain ⟨old, hold, rfl⟩ := mem_map.mp hrow
    exact d.identified old hold
  distinct := by
    rw [assign, map_map]
    exact d.distinct

variable (rule : Chunk → Option Int)

theorem names_assigned (d : DocumentRows) (id : String) :
    (d.assigned rule).names id = d.names id := by
  simp only [names, assigned, assign, any_map, Function.comp_def]

theorem assign_assign {g h : Chunk → Option Int}
    (hrule : ∀ row ∈ rows, g { row with availableInt := f row } = h row) :
    assign g (assign f rows) = assign h rows := by
  rw [assign, assign, assign, map_map, map_inj_left]
  intro row hrow
  simp only [Function.comp_apply, hrule row hrow]

theorem switch_assigned (d : DocumentRows) (store : Store) (status : Status) :
    store.switch status (assign rule d.rows) = .ok (assign (d.switchedRule status) d.rows) := by
  rw [show assign rule d.rows = (d.assigned rule).rows from rfl, switch_eq]
  refine congrArg Except.ok (assign_assign fun row _ => ?_)
  simp only [switchedRule, names_assigned]

theorem switches_eq (d : DocumentRows) (store : Store) (switches : List Status) (status : Status) :
    (switches ++ [status]).foldlM (fun rows next => store.switch next rows) (assign rule d.rows) =
      .ok (assign (d.switchedRule status) d.rows) := by
  induction switches generalizing rule with
  | nil =>
    rw [nil_append, foldlM_cons, switch_assigned]
    rfl
  | cons first switches ih =>
    rw [cons_append, foldlM_cons, switch_assigned]
    exact ih (d.switchedRule first)

theorem givenBack_of_agrees (h : d.Agrees status) :
    d.GivenBack status := by
  intro documents taskDocument inserted hstatus hins
  rw [d.inserted_eq taskDocument hstatus, Except.ok.injEq] at hins
  subst hins
  have hswitched : assign (d.switchedRule status) d.rows = assign (insertedRule status) d.rows :=
    assign_eq_iff.mpr fun row hrow => ((agreesOn_iff hrow).mp (h row hrow)).1
  have hrecovered : assign (d.recoveredRule status) d.rows = assign (insertedRule status) d.rows :=
    assign_eq_iff.mpr fun row hrow => ((agreesOn_iff hrow).mp (h row hrow)).2
  refine ⟨fun store switches => ?_, ?_⟩
  · rw [d.switches_eq, hswitched]
  · rw [show assign (insertedRule status) d.rows = (d.assigned (insertedRule status)).rows from rfl,
      historyForStatus_eq]
    refine congrArg Except.ok (Eq.trans ?_ hrecovered)
    refine assign_assign fun row hrow => ?_
    rw [recoveredRule, recoveredRule, names_assigned]
    by_cases hderived : row.derived = true
    · rw [if_pos hderived]
      exact (if_pos hderived).trans (insertedRule_of_derived hderived)
    · rw [if_neg hderived]
      exact if_neg hderived

end DocumentRows

/-- The four rules agree at a status exactly on the rows of `Agrees`, and there the availability of
    the insertion comes back. -/
theorem availability_one_rule_iff (d : DocumentRows) (status : Status) :
    (d.OneRule status ↔ d.Agrees status) ∧ (d.Agrees status → d.GivenBack status) :=
  ⟨DocumentRows.oneRule_iff, DocumentRows.givenBack_of_agrees⟩

def sampleDocument : DocumentRows where
  docId := "d"
  rows := [⟨"m", "d", some "m", none, none, none, none, none⟩, ⟨"c", "d", some "m", none, none, none, none, none⟩]
  named := by decide
  plain := by decide
  same := by decide
  identified := by decide
  distinct := by decide

theorem availability_one_rule_sample : sampleDocument.OneRule .valid ∧ sampleDocument.GivenBack .valid :=
  ⟨(availability_one_rule_iff sampleDocument .valid).1.mpr (by decide),
    (availability_one_rule_iff sampleDocument .valid).2 (by decide)⟩

def unequalDocument : DocumentRows where
  docId := "d"
  rows := [⟨"t", "d", none, some "toc", none, none, none, none⟩, ⟨"m", "d", none, none, none, none, none, none⟩,
    ⟨"c", "d", some "m", none, none, none, none, none⟩]
  named := by decide
  plain := by decide
  same := by decide
  identified := by decide
  distinct := by decide

def availabilities (rows : List Chunk) : List (Option Int) := rows.map Chunk.availableInt

/-- The insertion, the stores and the recovery give the rows three different availabilities, and
    the one of the insertion does not come back. -/
theorem availability_rules_differ :
    (sourceDocumentAvailability (fun _ => some .valid) none unequalDocument.rows).map availabilities =
      .ok [some 0, some 1, some 1] ∧
    (Store.elasticsearch.switch .valid unequalDocument.rows).map availabilities = .ok [some 1, some 0, some 1] ∧
    (Store.milvus.switch .valid unequalDocument.rows).map availabilities = .ok [some 1, some 0, some 1] ∧
    (historyForStatus unequalDocument.rows .valid).map availabilities = .ok [some 0, some 0, some 1] ∧
    ¬ unequalDocument.OneRule .valid ∧ ¬ unequalDocument.GivenBack .valid := by
  refine ⟨by decide, by decide, by decide, by decide, fun h => ?_, fun h => ?_⟩
  · exact absurd (DocumentRows.oneRule_iff.mp h) (by decide)
  · have hback := (h (fun _ => some .valid) none _ rfl (unequalDocument.inserted_eq none rfl)).1 .milvus []
    revert hback
    decide

end MultiRag.Availability
