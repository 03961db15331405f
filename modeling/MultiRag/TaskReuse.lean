/-
  **Re-parsing a document: which chunks its new tasks take over, and which are deleted.**

  A new task takes the chunks of the first previous task with its page and digest, if that task
  is finished and has any; taking blanks the list in place.  What is left is deleted by id.
  Deletion works on ids and reuse on tasks, so an id that two previous tasks name can be taken
  and deleted (`chunks_conserved_iff`).
-/
import Mathlib.Data.List.ReduceOption
import MultiRag.Json
import MultiRag.SourceRecovery

namespace MultiRag.TaskReuse

open List

open SourceRecovery (Digest)
open Availability

/-- `chunk_ids` is empty where the source has `None`. -/
structure PrevTask where
  taskType : String
  fromPage : Int
  progress : Rat
  digest : Digest
  chunkIds : String

structure NewTask where
  fromPage : Int
  digest : Digest

/-- A new task as it is stored. -/
structure Planned where
  fromPage : Int
  digest : Digest
  progress : Rat
  chunkIds : String
deriving DecidableEq

/-- `chunk_ids.split()` -/
def ids (chunkIds : String) : List String :=
  ((chunkIds.toList.splitOnP isPySpace).filter (· ≠ [])).map String.ofList

def NewTask.matches (task : NewTask) (prev : PrevTask) : Bool :=
  prev.fromPage = task.fromPage && prev.digest.base = task.digest.base

def NewTask.fresh (task : NewTask) : Planned := ⟨task.fromPage, task.digest, 0, ""⟩

/-- The tokens of the previous task go into the digest, if it has counted any. -/
def NewTask.reusing (task : NewTask) (prev : PrevTask) : Planned :=
  ⟨task.fromPage, { task.digest with accounted := prev.digest.accounted <|> task.digest.accounted }, 1,
    prev.chunkIds⟩

def PrevTask.blank (prev : PrevTask) : PrevTask := { prev with chunkIds := "" }

def PrevTask.reusable (prev : PrevTask) : Bool := 1 ≤ prev.progress && prev.chunkIds ≠ ""

structure Reuse where
  task : Planned
  prevTasks : List PrevTask
  chunks : Nat

def reusePrevTaskChunks (task : NewTask) (prevTasks : List PrevTask) : Reuse :=
  match prevTasks.findIdx? task.matches with
  | none => ⟨task.fresh, prevTasks, 0⟩
  | some idx => match prevTasks[idx]? with
    | none => ⟨task.fresh, prevTasks, 0⟩
    | some prev =>
      if prev.progress < 1 ∨ prev.chunkIds = "" then ⟨task.fresh, prevTasks, 0⟩
      else ⟨task.reusing prev, prevTasks.set idx prev.blank, (ids prev.chunkIds).length⟩

/-- The loop over the new tasks. -/
def reuseAll : List NewTask → List PrevTask → List Planned × List PrevTask
  | [], prevTasks => ([], prevTasks)
  | task :: tasks, prevTasks =>
    let reuse := reusePrevTaskChunks task prevTasks
    let rest := reuseAll tasks reuse.prevTasks
    (reuse.task :: rest.1, rest.2)

inductive Deletion where
  | ids (chunkIds : List String)
  | document

def Deletion.Deletes : Deletion → String → Prop
  | .ids chunkIds, id => id ∈ chunkIds
  | .document, _ => True

structure Outcome where
  tasks : List Planned
  deletion : Deletion
  queued : List Planned

def unfinished (tasks : List Planned) : List Planned := tasks.filter (·.progress < 1)

def queueTasks (prevTasks : List PrevTask) (tasks : List NewTask) : Outcome :=
  let reused := reuseAll tasks prevTasks
  ⟨reused.1, .ids (reused.2.flatMap fun prev => ids prev.chunkIds), unfinished reused.1⟩

/-- Analyzer tasks keep JSON in `chunk_ids`. -/
def PrevTask.parses (prev : PrevTask) : Bool := prev.taskType ∈ ["", "dataflow", "dataflow_rerun"]

def plan (oldTasks : List PrevTask) (tasks : List NewTask) : Except String (List Planned × List String) :=
  if tasks = [] then .error "Document has no parseable task ranges."
  else
    let reused := reuseAll tasks (oldTasks.filter PrevTask.parses)
    .ok (reused.1, (reused.2.flatMap fun prev => ids prev.chunkIds).eraseDups)

/-- The mothers that no row names after the deletion are deleted with it. -/
def withMothers (docId : String) (snapshot : List Chunk) (obsolete : List String) :
    Except String (List String) :=
  if snapshot ≠ [] ∧ obsolete ≠ [] then do
    let parentIds ← availabilityParentIds snapshot
    let parents := ((parentIds.find? (·.1 = docId)).map Prod.snd).getD []
    let retainedChildren := snapshot.filter fun row => row.id ∉ parents ++ obsolete
    let referenced := (retainedChildren.filter fun row => given row.momId).filterMap Chunk.momId
    .ok (obsolete ++ parents.filter (· ∉ referenced)).eraseDups
  else .ok obsolete

/-- `_operate` for a run of the document, from the plan to the queue. -/
def operate (clear : Bool) (docId : String) (snapshot : List Chunk) (oldTasks : List PrevTask)
    (tasks : List NewTask) : Except String Outcome := do
  let (planned, found) ← plan (if clear then [] else oldTasks) tasks
  let obsolete ← withMothers docId snapshot (if clear then [] else found)
  .ok ⟨planned, if clear then .document else .ids obsolete, unfinished planned⟩

/-! ### Conservation -/

/-- The plan of a new task that takes the chunks of the previous task at a position, or none. -/
def NewTask.planned (prevTasks : List PrevTask) (task : NewTask) (source : Option Nat) : Planned :=
  match source.bind (prevTasks[·]?) with
  | none => task.fresh
  | some prev => task.reusing prev

structure Conserved (prevTasks : List PrevTask) (tasks : List NewTask) (outcome : Outcome) : Prop where
  kept : ∀ prev ∈ prevTasks, ∀ id ∈ ids prev.chunkIds,
    (∃ task ∈ outcome.tasks, 1 ≤ task.progress ∧ id ∈ ids task.chunkIds) ∨ outcome.deletion.Deletes id
  spared : ∀ task ∈ outcome.tasks, 1 ≤ task.progress → ∀ id ∈ ids task.chunkIds, ¬ outcome.deletion.Deletes id
  /-- The new tasks take from different finished tasks, and those that take nothing are queued. -/
  sources : ∃ sources : List (Option Nat), sources.length = tasks.length ∧ sources.reduceOption.Nodup ∧
    outcome.tasks = (tasks.zip sources).map (fun pair => pair.1.planned prevTasks pair.2) ∧
    (∀ task i, (task, some i) ∈ tasks.zip sources →
      ∃ prev, prevTasks[i]? = some prev ∧ task.matches prev ∧ 1 ≤ prev.progress) ∧
    outcome.queued = ((tasks.zip sources).filter (·.2 = none)).map (·.1.fresh)

/-- A new task is for the previous task at `i`, which is the first such, and finished with chunks. -/
def Taken (prevTasks : List PrevTask) (tasks : List NewTask) (i : Nat) : Prop :=
  (prevTasks[i]?).any PrevTask.reusable ∧ ∃ task ∈ tasks, prevTasks.findIdx? task.matches = some i

/-- A previous task that is not taken names the id. -/
def Leftover (prevTasks : List PrevTask) (tasks : List NewTask) (id : String) : Prop :=
  ∃ i prev, prevTasks[i]? = some prev ∧ ¬ Taken prevTasks tasks i ∧ id ∈ ids prev.chunkIds

def TakenId (prevTasks : List PrevTask) (tasks : List NewTask) (id : String) : Prop :=
  ∃ i prev, prevTasks[i]? = some prev ∧ Taken prevTasks tasks i ∧ id ∈ ids prev.chunkIds

/-- No id is named both by a task that is taken and by one that is not. -/
def Apart (prevTasks : List PrevTask) (tasks : List NewTask) : Prop :=
  ∀ id, TakenId prevTasks tasks id → ¬ Leftover prevTasks tasks id

/-- If anything is left over, every mother among the ids that are taken is named by a row that is
    no mother and not left over. -/
def MothersNamed (docId : String) (snapshot : List Chunk) (prevTasks : List PrevTask) (tasks : List NewTask) :
    Prop :=
  (∃ id, Leftover prevTasks tasks id) → ∀ id ∈ parentsOf snapshot docId, TakenId prevTasks tasks id →
    ∃ row ∈ snapshot, given row.momId ∧ row.momId = some id ∧ row.id ∉ parentsOf snapshot docId ∧
      ¬ Leftover prevTasks tasks row.id

/-! ### Runs of the loop -/

variable {prevTasks : List PrevTask} {tasks : List NewTask} {task : NewTask} {prev : PrevTask}
  {taken : List Nat} {i : Nat} {id : String}

/-- The previous tasks after those at some positions were taken. -/
def blanked (prevTasks : List PrevTask) (taken : List Nat) : List PrevTask :=
  prevTasks.mapIdx fun i prev => if i ∈ taken then prev.blank else prev

theorem getElem?_blanked : (blanked prevTasks taken)[i]? =
    prevTasks[i]?.map fun prev => if i ∈ taken then prev.blank else prev := by
  rw [blanked, getElem?_mapIdx]

theorem blanked_nil : blanked prevTasks [] = prevTasks := by
  apply ext_getElem?
  intro i
  rw [getElem?_blanked]
  simp

theorem set_blanked (h : prevTasks[i]? = some prev) :
    (blanked prevTasks taken).set i prev.blank = blanked prevTasks (i :: taken) := by
  apply ext_getElem?
  intro j
  rw [getElem?_set, getElem?_blanked, getElem?_blanked]
  by_cases hij : i = j
  · subst hij
    have hlt : i < (blanked prevTasks taken).length := by
      rw [blanked, length_mapIdx]
      exact (List.getElem?_eq_some_iff.mp h).1
    rw [if_pos rfl, if_pos hlt, h]
    simp
  · have hji : j ≠ i := Ne.symm hij
    rw [if_neg hij]
    simp [hji]

/-- The search looks at keys only, which blanking keeps. -/
theorem findIdx?_blanked : (blanked prevTasks taken).findIdx? task.matches = prevTasks.findIdx? task.matches := by
  have hkeys : (blanked prevTasks taken).map task.matches = prevTasks.map task.matches := by
    apply ext_getElem?
    intro i
    rw [getElem?_map, getElem?_map, getElem?_blanked, Option.map_map]
    congr 1
    funext prev
    simp only [Function.comp_apply]
    split <;> rfl
  have hfind := congrArg (List.findIdx? id) hkeys
  rwa [findIdx?_map, findIdx?_map] at hfind

/-- The position a task takes from when those in `taken` are blank. -/
def sourceOf (prevTasks : List PrevTask) (taken : List Nat) (task : NewTask) : Option Nat :=
  (prevTasks.findIdx? task.matches).filter fun i => i ∉ taken ∧ (prevTasks[i]?).any PrevTask.reusable

theorem sourceOf_eq_some : sourceOf prevTasks taken task = some i ↔
    prevTasks.findIdx? task.matches = some i ∧ i ∉ taken ∧ (prevTasks[i]?).any PrevTask.reusable := by
  rw [sourceOf, Option.filter_eq_some_iff]
  simp

theorem not_reusable : prev.reusable = false ↔ prev.progress < 1 ∨ prev.chunkIds = "" := by
  rw [PrevTask.reusable, Bool.and_eq_false_iff, decide_eq_false_iff_not, decide_eq_false_iff_not, not_le, not_not]

theorem reusePrevTaskChunks_blanked : ∃ chunks,
    reusePrevTaskChunks task (blanked prevTasks taken) =
      ⟨task.planned prevTasks (sourceOf prevTasks taken task),
        blanked prevTasks ((sourceOf prevTasks taken task).toList ++ taken), chunks⟩ := by
  rw [reusePrevTaskChunks, findIdx?_blanked, sourceOf]
  cases prevTasks.findIdx? task.matches with
  | none => exact ⟨0, rfl⟩
  | some i =>
    simp only [getElem?_blanked, Option.filter_some]
    cases hprev : prevTasks[i]? with
    | none => exact ⟨0, by simp [NewTask.planned]⟩
    | some prev =>
      by_cases htaken : i ∈ taken
      · exact ⟨0, by simp [htaken, PrevTask.blank, NewTask.planned]⟩
      · cases hreusable : prev.reusable with
        | false =>
          refine ⟨0, ?_⟩
          simp [htaken, hreusable, not_reusable.mp hreusable, NewTask.planned]
        | true =>
          have hnot : ¬ (prev.progress < 1 ∨ prev.chunkIds = "") := by
            rw [← not_reusable, hreusable]
            decide
          refine ⟨(ids prev.chunkIds).length, ?_⟩
          simp [htaken, hprev, hreusable, hnot, NewTask.planned, set_blanked hprev]

/-- What the tasks take from, one after the other. -/
def sourcesOf (prevTasks : List PrevTask) : List Nat → List NewTask → List (Option Nat)
  | _, [] => []
  | taken, task :: tasks =>
    let source := sourceOf prevTasks taken task
    source :: sourcesOf prevTasks (source.toList ++ taken) tasks

theorem length_sourcesOf : (sourcesOf prevTasks taken tasks).length = tasks.length := by
  induction tasks generalizing taken with
  | nil => rfl
  | cons task tasks ih => exact congrArg Nat.succ ih

theorem reuseAll_blanked : ∃ after, reuseAll tasks (blanked prevTasks taken) =
    ((tasks.zip (sourcesOf prevTasks taken tasks)).map (fun pair => pair.1.planned prevTasks pair.2),
      blanked prevTasks after) ∧
    ∀ i, i ∈ after ↔ some i ∈ sourcesOf prevTasks taken tasks ∨ i ∈ taken := by
  induction tasks generalizing taken with
  | nil => exact ⟨taken, rfl, by simp [sourcesOf]⟩
  | cons task tasks ih =>
    obtain ⟨chunks, hfirst⟩ := @reusePrevTaskChunks_blanked prevTasks task taken
    obtain ⟨after, hrest, hafter⟩ := @ih ((sourceOf prevTasks taken task).toList ++ taken)
    refine ⟨after, ?_, ?_⟩
    · simp only [reuseAll, hfirst, hrest, sourcesOf, zip_cons_cons, map_cons]
    · intro i
      rw [hafter i, sourcesOf]
      simp only [mem_cons, mem_append, Option.mem_toList]
      rw [eq_comm (a := some i)]
      tauto

theorem nodup_sourcesOf : (sourcesOf prevTasks taken tasks).reduceOption.Nodup ∧
    ∀ i, some i ∈ sourcesOf prevTasks taken tasks → i ∉ taken := by
  induction tasks generalizing taken with
  | nil => simp [sourcesOf]
  | cons task tasks ih =>
    obtain ⟨hnodup, hnew⟩ := @ih ((sourceOf prevTasks taken task).toList ++ taken)
    rw [sourcesOf]
    cases hsource : sourceOf prevTasks taken task with
    | none =>
      rw [hsource] at hnodup hnew
      simpa using ⟨hnodup, hnew⟩
    | some i =>
      rw [hsource] at hnodup hnew
      simp only [Option.toList_some, singleton_append, mem_cons, not_or] at hnodup hnew
      simp only [reduceOption_cons_of_some, nodup_cons, reduceOption_mem_iff, mem_cons,
        Option.some.injEq]
      refine ⟨⟨?_, hnodup⟩, ?_⟩
      · intro hagain
        exact (hnew i hagain).1 rfl
      · rintro j (rfl | hj)
        · exact (sourceOf_eq_some.mp hsource).2.1
        · exact (hnew j hj).2

theorem mem_sourcesOf : some i ∈ sourcesOf prevTasks taken tasks ↔ Taken prevTasks tasks i ∧ i ∉ taken := by
  induction tasks generalizing taken with
  | nil => simp [sourcesOf, Taken]
  | cons task tasks ih =>
    rw [sourcesOf, mem_cons, ih, eq_comm]
    simp only [Taken, mem_append, Option.mem_toList, mem_cons, exists_eq_or_imp,
      sourceOf_eq_some]
    tauto

theorem mem_zip_sourcesOf (h : (task, some i) ∈ tasks.zip (sourcesOf prevTasks taken tasks)) :
    ∃ prev, prevTasks[i]? = some prev ∧ task.matches prev ∧ prev.reusable := by
  induction tasks generalizing taken with
  | nil => cases h
  | cons first tasks ih =>
    rw [sourcesOf, zip_cons_cons, mem_cons] at h
    rcases h with hfirst | hrest
    · obtain ⟨rfl, hsource⟩ := Prod.mk.inj hfirst
      obtain ⟨hfind, -, hreusable⟩ := sourceOf_eq_some.mp hsource.symm
      obtain ⟨hlt, hmatches, -⟩ := findIdx?_eq_some_iff_getElem.mp hfind
      have hget := getElem?_eq_getElem hlt
      rw [hget] at hreusable
      exact ⟨prevTasks[i], hget, hmatches, by simpa using hreusable⟩
    · exact ih hrest

theorem planned_some (h : prevTasks[i]? = some prev) : task.planned prevTasks (some i) = task.reusing prev := by
  simp [NewTask.planned, h]

/-! ### What is taken and what is left over -/

theorem recorded_iff : (∃ planned ∈ (reuseAll tasks prevTasks).1, 1 ≤ planned.progress ∧ id ∈ ids planned.chunkIds) ↔
    TakenId prevTasks tasks id := by
  obtain ⟨after, hall, -⟩ := @reuseAll_blanked prevTasks tasks []
  rw [blanked_nil] at hall
  rw [hall]
  constructor
  · rintro ⟨planned, hplanned, hdone, hid⟩
    obtain ⟨⟨task, source⟩, hpair, rfl⟩ := mem_map.mp hplanned
    cases source with
    | none =>
      simp only [NewTask.planned, Option.bind_none, NewTask.fresh] at hdone
      exact absurd hdone (by decide)
    | some i =>
      obtain ⟨prev, hprev, -, -⟩ := mem_zip_sourcesOf hpair
      rw [planned_some hprev] at hid
      exact ⟨i, prev, hprev, (mem_sourcesOf.mp (of_mem_zip hpair).2).1, hid⟩
  · rintro ⟨i, prev, hprev, htaken, hid⟩
    have hsource : some i ∈ (tasks.zip (sourcesOf prevTasks [] tasks)).map Prod.snd := by
      rw [map_snd_zip length_sourcesOf.le]
      exact mem_sourcesOf.mpr ⟨htaken, not_mem_nil⟩
    obtain ⟨⟨task, source⟩, hpair, rfl⟩ := mem_map.mp hsource
    refine ⟨_, mem_map_of_mem hpair, ?_⟩
    rw [planned_some hprev]
    exact ⟨le_rfl, hid⟩

theorem left_iff : id ∈ (reuseAll tasks prevTasks).2.flatMap (fun prev => ids prev.chunkIds) ↔
    Leftover prevTasks tasks id := by
  obtain ⟨after, hall, hafter⟩ := @reuseAll_blanked prevTasks tasks []
  rw [blanked_nil] at hall
  have htaken : ∀ i, i ∈ after ↔ Taken prevTasks tasks i := by
    intro i
    rw [hafter i, mem_sourcesOf]
    simp
  rw [hall, mem_flatMap]
  constructor
  · rintro ⟨prev, hprev, hid⟩
    obtain ⟨i, hi⟩ := mem_iff_getElem?.mp hprev
    rw [getElem?_blanked, Option.map_eq_some_iff] at hi
    obtain ⟨original, horiginal, rfl⟩ := hi
    split at hid
    · cases hid
    · next hnot => exact ⟨i, original, horiginal, fun h => hnot ((htaken i).mpr h), hid⟩
  · rintro ⟨i, prev, hprev, hnot, hid⟩
    refine ⟨prev, mem_iff_getElem?.mpr ⟨i, ?_⟩, hid⟩
    rw [getElem?_blanked, hprev, Option.map_some, if_neg fun h => hnot ((htaken i).mp h)]

theorem sources_reuseAll : ∃ sources : List (Option Nat), sources.length = tasks.length ∧
    sources.reduceOption.Nodup ∧
    (reuseAll tasks prevTasks).1 = (tasks.zip sources).map (fun pair => pair.1.planned prevTasks pair.2) ∧
    (∀ task i, (task, some i) ∈ tasks.zip sources →
      ∃ prev, prevTasks[i]? = some prev ∧ task.matches prev ∧ 1 ≤ prev.progress) ∧
    unfinished (reuseAll tasks prevTasks).1 = ((tasks.zip sources).filter (·.2 = none)).map (·.1.fresh) := by
  obtain ⟨after, hall, -⟩ := @reuseAll_blanked prevTasks tasks []
  rw [blanked_nil] at hall
  rw [hall]
  refine ⟨sourcesOf prevTasks [] tasks, length_sourcesOf, nodup_sourcesOf.1, rfl, ?_, ?_⟩
  · intro task i hpair
    obtain ⟨prev, hprev, hmatches, hreusable⟩ := mem_zip_sourcesOf hpair
    simp only [PrevTask.reusable, Bool.and_eq_true, decide_eq_true_eq] at hreusable
    exact ⟨prev, hprev, hmatches, hreusable.1⟩
  · rw [unfinished, List.filter_map, Function.comp_def]
    have hnone : ∀ pair ∈ tasks.zip (sourcesOf prevTasks [] tasks),
        decide ((pair.1.planned prevTasks pair.2).progress < 1) = decide (pair.2 = none) := by
      rintro ⟨task, source⟩ hpair
      cases source with
      | none => simp [NewTask.planned, NewTask.fresh]
      | some i =>
        obtain ⟨prev, hprev, -, -⟩ := mem_zip_sourcesOf hpair
        simp [planned_some hprev, NewTask.reusing]
    rw [filter_congr hnone]
    apply map_congr_left
    rintro ⟨task, source⟩ hpair
    obtain rfl : source = none := by simpa using (List.mem_filter.mp hpair).2
    rfl

theorem conserved_iff (deletion : Deletion) (hleft : ∀ id, Leftover prevTasks tasks id → deletion.Deletes id) :
    Conserved prevTasks tasks ⟨(reuseAll tasks prevTasks).1, deletion, unfinished (reuseAll tasks prevTasks).1⟩ ↔
      ∀ id, TakenId prevTasks tasks id → ¬ deletion.Deletes id := by
  constructor
  · intro h id hid
    obtain ⟨planned, hplanned, hdone, hid⟩ := recorded_iff.mpr hid
    exact h.spared planned hplanned hdone id hid
  · intro h
    refine ⟨?_, ?_, sources_reuseAll⟩
    · intro prev hprev id hid
      obtain ⟨i, hi⟩ := mem_iff_getElem?.mp hprev
      by_cases htaken : Taken prevTasks tasks i
      · exact .inl (recorded_iff.mpr ⟨i, prev, hi, htaken, hid⟩)
      · exact .inr (hleft id ⟨i, prev, hi, htaken, hid⟩)
    · intro planned hplanned hdone id hid
      exact h id (recorded_iff.mp ⟨planned, hplanned, hdone, hid⟩)

/-! ### The two paths -/

theorem reuseAll_nil (tasks : List NewTask) : reuseAll tasks [] = (tasks.map NewTask.fresh, []) := by
  induction tasks with
  | nil => rfl
  | cons task tasks ih =>
    simp only [reuseAll, reusePrevTaskChunks, findIdx?_nil, ih, map_cons]

/-- Where the history is cleared, nothing is reused. -/
theorem conserved_clear : Conserved prevTasks tasks
    ⟨tasks.map NewTask.fresh, .document, unfinished (tasks.map NewTask.fresh)⟩ := by
  have hzip : tasks.zip (tasks.map fun _ => (none : Option Nat)) = tasks.map fun task => (task, none) := by
    simpa using @zip_map' _ _ _ id (fun _ => (none : Option Nat)) tasks
  refine ⟨?_, ?_, tasks.map fun _ => none, by simp, by simp, ?_, ?_, ?_⟩
  · intro prev _ id _
    exact .inr trivial
  · intro planned hplanned hdone
    obtain ⟨task, -, rfl⟩ := mem_map.mp hplanned
    exact absurd hdone (by simp [NewTask.fresh])
  · rw [hzip, map_map]
    rfl
  · intro task i hpair
    rw [hzip] at hpair
    simp at hpair
  · rw [hzip, unfinished]
    simp [List.filter_map, Function.comp_def, NewTask.fresh]

variable {docId : String} {snapshot : List Chunk}

theorem find?_parents {parentIds : List (String × List String)}
    (h : availabilityParentIds snapshot = .ok parentIds) :
    ((parentIds.find? (·.1 = docId)).map Prod.snd).getD [] = parentsOf snapshot docId := by
  obtain ⟨-, -, hparents⟩ := bind_eq_ok.mp h
  cases hparents
  by_cases hdoc : docId ∈ (snapshot.map Chunk.docId).dedup
  · rw [DocumentRows.find?_pairs _ hdoc]
    rfl
  · have hnone : (snapshot.filter (·.docId = docId)) = [] := by
      rw [filter_eq_nil_iff]
      intro row hrow hsame
      rw [mem_dedup] at hdoc
      exact hdoc (of_decide_eq_true hsame ▸ mem_map_of_mem hrow)
    have hfind : ((snapshot.map Chunk.docId).dedup.map fun docId => (docId, parentsOf snapshot docId)).find?
        (·.1 = docId) = none := by
      rw [find?_eq_none]
      intro pair hpair hsame
      obtain ⟨other, hother, rfl⟩ := mem_map.mp hpair
      exact hdoc (of_decide_eq_true hsame ▸ hother)
    rw [hfind, parentsOf, hnone]
    rfl

theorem withMothers_deletes {obsolete deleted : List String} (h : withMothers docId snapshot obsolete = .ok deleted) :
    id ∈ deleted ↔ id ∈ obsolete ∨ obsolete ≠ [] ∧ id ∈ parentsOf snapshot docId ∧
      ¬ ∃ row ∈ snapshot, given row.momId ∧ row.momId = some id ∧ row.id ∉ parentsOf snapshot docId ∧
        row.id ∉ obsolete := by
  rw [withMothers] at h
  split at h
  · next hboth =>
    obtain ⟨parentIds, hparents, hdeleted⟩ := bind_eq_ok.mp h
    rw [find?_parents hparents] at hdeleted
    cases hdeleted
    rw [mem_eraseDups, mem_append, List.mem_filter, decide_eq_true_iff, mem_filterMap]
    simp only [List.mem_filter, decide_eq_true_eq, mem_append, not_or]
    have hreferenced : (∃ row, ((row ∈ snapshot ∧ row.id ∉ parentsOf snapshot docId ∧ row.id ∉ obsolete) ∧
        given row.momId = true) ∧ row.momId = some id) ↔
        ∃ row ∈ snapshot, given row.momId = true ∧ row.momId = some id ∧ row.id ∉ parentsOf snapshot docId ∧
          row.id ∉ obsolete := by
      apply exists_congr
      intro row
      tauto
    rw [hreferenced]
    simp only [ne_eq, hboth.2, not_false_eq_true, true_and]
  · next hone =>
    cases h
    rw [or_iff_left]
    rintro ⟨hsome, hparent, -⟩
    have hempty : snapshot = [] := by
      by_contra hsnapshot
      exact hone ⟨hsnapshot, hsome⟩
    rw [hempty] at hparent
    cases hparent

theorem operate_conserved {oldTasks : List PrevTask} {outcome : Outcome}
    (h : operate false docId snapshot oldTasks tasks = .ok outcome) :
    Conserved (oldTasks.filter PrevTask.parses) tasks outcome ↔
      Apart (oldTasks.filter PrevTask.parses) tasks ∧
        MothersNamed docId snapshot (oldTasks.filter PrevTask.parses) tasks := by
  obtain ⟨⟨planned, found⟩, hplan, hrest⟩ := bind_eq_ok.mp h
  obtain ⟨deleted, hmothers, hout⟩ := bind_eq_ok.mp hrest
  rw [plan] at hplan
  split at hplan
  · cases hplan
  · cases hplan
    cases hout
    have hfound : ∀ id, id ∈ ((reuseAll tasks (oldTasks.filter PrevTask.parses)).2.flatMap
        fun prev => ids prev.chunkIds).eraseDups ↔ Leftover (oldTasks.filter PrevTask.parses) tasks id := by
      intro id
      rw [mem_eraseDups]
      exact left_iff
    have hsome : ((reuseAll tasks (oldTasks.filter PrevTask.parses)).2.flatMap
        fun prev => ids prev.chunkIds).eraseDups ≠ [] ↔ ∃ id, Leftover (oldTasks.filter PrevTask.parses) tasks id := by
      rw [Ne, eq_nil_iff_forall_not_mem]
      simp only [hfound, not_forall, not_not]
    have hdeleted := fun id => @withMothers_deletes id docId snapshot _ _ hmothers
    simp only [Bool.false_eq_true, if_false, hfound, hsome] at hdeleted
    refine (conserved_iff (.ids deleted) fun id hid => (hdeleted id).mpr (.inl hid)).trans ?_
    constructor
    · intro h
      refine ⟨fun id hid hleft => h id hid ((hdeleted id).mpr (.inl hleft)), ?_⟩
      intro hleft id hparent hid
      by_contra hnone
      exact h id hid ((hdeleted id).mpr (.inr ⟨hleft, hparent, hnone⟩))
    · rintro ⟨hapart, hnamed⟩ id hid hdelete
      rcases (hdeleted id).mp hdelete with hleft | ⟨hleft, hparent, hnone⟩
      · exact hapart id hid hleft
      · exact hnone (hnamed hleft id hparent hid)

/-- The chunks of a document are conserved exactly when no id is both taken and left over, and, where
    the mothers without children are deleted as well, none of these is taken. -/
theorem chunks_conserved_iff (oldTasks : List PrevTask) (tasks : List NewTask) :
    (Conserved oldTasks tasks (queueTasks oldTasks tasks) ↔ Apart oldTasks tasks) ∧
    ∀ clear docId snapshot outcome, operate clear docId snapshot oldTasks tasks = .ok outcome →
      (Conserved (oldTasks.filter PrevTask.parses) tasks outcome ↔
        clear = true ∨ Apart (oldTasks.filter PrevTask.parses) tasks ∧
          MothersNamed docId snapshot (oldTasks.filter PrevTask.parses) tasks) := by
  refine ⟨?_, ?_⟩
  · apply (conserved_iff (.ids _) fun id hid => left_iff.mpr hid).trans
    simp only [Deletion.Deletes, left_iff]
    rfl
  · intro clear docId snapshot outcome h
    cases clear with
    | false => simpa using operate_conserved h
    | true =>
      obtain ⟨⟨planned, found⟩, hplan, hrest⟩ := bind_eq_ok.mp h
      obtain ⟨deleted, -, hout⟩ := bind_eq_ok.mp hrest
      rw [plan] at hplan
      split at hplan
      · cases hplan
      · cases hplan
        cases hout
        simp only [if_true, filter_nil, reuseAll_nil, true_or, iff_true]
        exact conserved_clear

def parsedOnce : List PrevTask :=
  [⟨"", 0, 1, ⟨"a", some 7⟩, "x y"⟩, ⟨"", 0, 1, ⟨"b", some 5⟩, "z"⟩, ⟨"raptor", 0, 1, ⟨"c", none⟩, "\x7b\x7d"⟩]

def reparsed : List NewTask := [⟨0, ⟨"a", none⟩⟩, ⟨12, ⟨"d", none⟩⟩]

theorem chunks_conserved_once :
    (Conserved parsedOnce reparsed (queueTasks parsedOnce reparsed) ↔ Apart parsedOnce reparsed) ∧
    (Conserved (parsedOnce.filter PrevTask.parses) reparsed
        ⟨[⟨0, ⟨"a", some 7⟩, 1, "x y"⟩, ⟨12, ⟨"d", none⟩, 0, ""⟩], .ids ["z"], [⟨12, ⟨"d", none⟩, 0, ""⟩]⟩ ↔
      false = true ∨ Apart (parsedOnce.filter PrevTask.parses) reparsed ∧
        MothersNamed "doc" [] (parsedOnce.filter PrevTask.parses) reparsed) := by
  obtain ⟨hqueue, hoperate⟩ := chunks_conserved_iff parsedOnce reparsed
  exact ⟨hqueue, hoperate false "doc" [] _ rfl⟩

/-- Two finished tasks name the chunk `x`, and one of them is taken. -/
def sharedChunk : List PrevTask := [⟨"", 0, 1, ⟨"a", none⟩, "x"⟩, ⟨"", 12, 1, ⟨"b", none⟩, "x"⟩]

theorem shared_chunk_deleted :
    ¬ Conserved sharedChunk reparsed (queueTasks sharedChunk reparsed) ∧
    ∃ outcome, operate false "doc" [] sharedChunk reparsed = .ok outcome ∧
      ¬ Conserved (sharedChunk.filter PrevTask.parses) reparsed outcome := by
  refine ⟨?_, _, rfl, ?_⟩
  · intro h
    exact h.spared ⟨0, ⟨"a", none⟩, 1, "x"⟩ (by decide +kernel) (by decide) "x" (by decide +kernel)
      (by decide +kernel : "x" ∈ _)
  · intro h
    exact h.spared ⟨0, ⟨"a", none⟩, 1, "x"⟩ (by decide +kernel) (by decide) "x" (by decide +kernel)
      (by decide +kernel : "x" ∈ _)

end MultiRag.TaskReuse
