/-
  **`Canvas.run`: batches, post-processing, pauses.**

  One turn of the main loop runs the pending part of the path as a batch
  (`_run_batch`), hands over the successors of what has run, and then fails, pauses,
  finishes or goes on. `turn` computes it from the outcomes of the components;
  `RunStep` adds the turns that an exception ends.
-/
import MultiRag.CanvasContracts
import MultiRag.Run

namespace MultiRag.Agent

open List

/-- `self.path[0].lower().find("userfillup") >= 0` -/
def fillUpHead (path : List String) : Bool := path.head?.any fillUpId

/-- The test of `_run_batch` for a component with `passed` in front of it on the
    path and `rest` from it on. -/
def Component.ready (cpn : Component) (passed rest : List String) : Bool :=
  cpn.kind.takesRunInputs ||
    cpn.references.all (fun ref => passed.contains ref || fillUpHead (passed ++ rest))

/-- The loop of `_run_batch`, from `self.path[:i]` and what is left of the batch; a
    component that is not ready is popped.  The result is the path. -/
def runBatch (canvas : Canvas) : List String → List String → Option (List String)
  | passed, [] => some passed
  | passed, cpnId :: rest =>
      match canvas.get? cpnId with
      | none => none
      | some cpn =>
          if cpn.ready passed (cpnId :: rest) then runBatch canvas (passed ++ [cpnId]) rest
          else runBatch canvas passed rest

/-! ### Post-processing -/

def appendPath (path : List String) (cpnId : String) : List String :=
  if path.getLast? = some cpnId then path else path ++ [cpnId]

def extendPath (path cpnIds : List String) : List String := cpnIds.foldl appendPath path

/-- `self.path` and whether `self.error` is set. -/
structure PostState where
  path : List String
  error : Bool

/-- The exception branch of a failed component; `true` is `other_branch`. -/
def handleError (cpn : Component) (outcome : Outcome) (state : PostState) : PostState × Bool :=
  if outcome.error then
    match cpn.exceptionHandler with
    | none => ({ state with error := true }, false)
    | some handler =>
        if handler.goto ≠ [] then ({ state with path := state.path ++ handler.goto }, true)
        else if truthy handler.defaultValue then (state, false)
        else ({ state with error := true }, false)
  else (state, false)

def appendSuccessors (ids : List (Option String)) (state : PostState) : Option PostState :=
  if ids.all Option.isSome then some { state with path := extendPath state.path (ids.filterMap id) }
  else none

def postProcessOne (canvas : Canvas) (cpnId : String) (outcome : Outcome) (state : PostState) :
    Option PostState :=
  match canvas.get? cpnId with
  | none => none
  | some cpn =>
      match canvas.successors cpn outcome with
      | none => none
      | some ids =>
          let handled := handleError cpn outcome state
          if handled.2 then some handled.1 else appendSuccessors ids handled.1

def postProcess (canvas : Canvas) : List String → List Outcome → PostState → Option PostState
  | [], [], state => some state
  | cpnId :: ids, outcome :: outcomes, state =>
      match postProcessOne canvas cpnId outcome state with
      | none => none
      | some state' => postProcess canvas ids outcomes state'
  | _, _, _ => none

/-! ### Turns -/

inductive RunStatus where
  | running
  | finished
  /-- `self.error` is set. -/
  | failed
  /-- `user_inputs` -/
  | paused
  /-- The generator has raised. -/
  | raised
deriving DecidableEq

structure RunState where
  path : List String
  idx : Nat
  status : RunStatus
deriving DecidableEq

def RunState.passed (s : RunState) : List String := s.path.take s.idx

def RunState.pending (s : RunState) : List String := s.path.drop s.idx

/-- A turn of the main loop: the state it began in, the ids the loop of `_run_batch`
    came to, those it started, and those that post-processing put on the path. -/
structure Turn where
  before : RunState
  batch : List String
  ran : List String
  outcomes : List Outcome
  put : List String
deriving DecidableEq

def Canvas.isFillUp (canvas : Canvas) (cpnId : String) : Bool :=
  (canvas.get? cpnId).any (fun cpn => decide (cpn.kind = .userFillUp))

def Turn.done (t : Turn) : List (String × Outcome) := t.ran.zip t.outcomes

def pausePath (canvas : Canvas) (pending : List String) : List String :=
  pending.filter canvas.isFillUp ++ pending.filter (fun cpnId => !canvas.isFillUp cpnId)

def continueFrom (canvas : Canvas) (path : List String) (idx : Nat) : Option RunState :=
  if (path.drop idx).all (fun cpnId => (canvas.get? cpnId).isSome) then
    if (path.drop idx).any canvas.isFillUp then
      some ⟨pausePath canvas (path.drop idx), idx, .paused⟩
    else if idx < path.length then some ⟨path, idx, .running⟩
    else
      -- the outputs of `self.path[-1]` are reported
      match (path.take idx).getLast?.bind canvas.get? with
      | none => none
      | some _ => some ⟨path.take idx, idx, .finished⟩
  else none

def endTurn (canvas : Canvas) (s : RunState) (path : List String) (after : PostState) :
    Option RunState :=
  if after.error then some ⟨after.path.take s.idx, s.idx, .failed⟩
  else continueFrom canvas after.path path.length

def turn (canvas : Canvas) (s : RunState) (outcomes : List Outcome) : Option (Turn × RunState) :=
  match runBatch canvas s.passed s.pending with
  | none => none
  | some path =>
      match postProcess canvas (path.drop s.idx) outcomes ⟨path, false⟩ with
      | none => none
      | some after =>
          (endTurn canvas s path after).map (fun s' =>
            (⟨s, s.pending, path.drop s.idx, outcomes, after.path.drop path.length⟩, s'))

def startState (path : List String) : RunState :=
  let path := if path.getLast?.any fillUpId then path else path ++ ["begin"]
  ⟨path, path.length - 1, .running⟩

/-- A turn, or a part of one that an exception ends: the loop of `_run_batch` came
    to some of the pending components, or to all of them and the exception is of a
    later place. -/
inductive RunStep (canvas : Canvas) : RunState → Turn → RunState → Prop
  | turn {s s' : RunState} {t : Turn} {outcomes : List Outcome} (running : s.status = .running)
      (computed : turn canvas s outcomes = some (t, s')) : RunStep canvas s t s'
  | raised {s s' : RunState} {batch ran : List String} (running : s.status = .running)
      (reached : batch <+: s.pending)
      (computed : runBatch canvas s.passed batch = some (s.passed ++ ran))
      (status : s'.status = .raised) : RunStep canvas s ⟨s, batch, ran, [], []⟩ s'

/-! ### What a batch starts -/

inductive Batch (canvas : Canvas) : List String → List String → List String → Prop
  | nil {passed : List String} : Batch canvas passed [] []
  | started {passed rest ran : List String} {cpnId : String} {cpn : Component}
      (known : canvas.get? cpnId = some cpn) (ready : cpn.ready passed (cpnId :: rest) = true)
      (next : Batch canvas (passed ++ [cpnId]) rest ran) :
      Batch canvas passed (cpnId :: rest) (cpnId :: ran)
  | deferred {passed rest ran : List String} {cpnId : String} {cpn : Component}
      (known : canvas.get? cpnId = some cpn) (unready : cpn.ready passed (cpnId :: rest) = false)
      (next : Batch canvas passed rest ran) : Batch canvas passed (cpnId :: rest) ran

variable {canvas : Canvas} {passed rest path : List String}

theorem runBatch_spec (h : runBatch canvas passed rest = some path) :
    ∃ ran, path = passed ++ ran ∧ Batch canvas passed rest ran := by
  induction rest generalizing passed with
  | nil =>
    simp only [runBatch, Option.some.injEq] at h
    exact ⟨[], by simp [h], Batch.nil⟩
  | cons cpnId rest ih =>
    unfold runBatch at h
    split at h
    · cases h
    · next cpn hknown =>
      split at h
      · next hready =>
        obtain ⟨ran, rfl, hbatch⟩ := ih h
        exact ⟨cpnId :: ran, by simp, Batch.started hknown hready hbatch⟩
      · next hunready =>
        obtain ⟨ran, rfl, hbatch⟩ := ih h
        exact ⟨ran, rfl, Batch.deferred hknown (by simpa using hunready) hbatch⟩

variable {ran : List String}

theorem Batch.sublist (h : Batch canvas passed rest ran) :
    ran.Sublist rest := by
  induction h with
  | nil => exact Sublist.refl _
  | started known ready next ih => exact ih.cons_cons _
  | deferred known unready next ih => exact ih.cons _

theorem Batch.known (h : Batch canvas passed rest ran) :
    ∀ cpnId ∈ rest, ∃ cpn, canvas.get? cpnId = some cpn := by
  induction h with
  | nil => simp
  | started known ready next ih | deferred known unready next ih =>
    intro x hx
    rcases mem_cons.mp hx with rfl | hx
    · exact ⟨_, known⟩
    · exact ih x hx

theorem ready_congr (cpn : Component) (passed : List String) (cpnId : String)
    (rest rest' : List String) : cpn.ready passed (cpnId :: rest) = cpn.ready passed (cpnId :: rest') := by
  cases passed with
  | nil => rfl
  | cons first passed => rfl

theorem Batch.runBatch (h : Batch canvas passed rest ran) :
    runBatch canvas passed rest = some (passed ++ ran) := by
  induction h with
  | nil => simp [Agent.runBatch]
  | started known ready next ih => simp [Agent.runBatch, known, ready, ih]
  | deferred known unready next ih => simp [Agent.runBatch, known, unready, ih]

theorem Batch.unique {ran' : List String} (h : Batch canvas passed rest ran)
    (h' : Batch canvas passed rest ran') : ran = ran' := by
  have heq := h.runBatch.symm.trans h'.runBatch
  exact append_cancel_left (Option.some.inj heq)

theorem Batch.split {front : List String} (h : Batch canvas passed (front ++ rest) ran) :
    ∃ kept ran', ran = kept ++ ran' ∧ Batch canvas passed front kept ∧
      Batch canvas (passed ++ kept) rest ran' := by
  induction front generalizing passed ran with
  | nil => exact ⟨[], ran, rfl, Batch.nil, by simpa using h⟩
  | cons cpnId front ih =>
    cases h with
    | started known ready next =>
      obtain ⟨kept, ran', rfl, hfront, hrest⟩ := ih next
      refine ⟨cpnId :: kept, ran', rfl, ?_, by simpa using hrest⟩
      exact Batch.started known (by rw [ready_congr]; exact ready) hfront
    | deferred known unready next =>
      obtain ⟨kept, ran', rfl, hfront, hrest⟩ := ih next
      exact ⟨kept, ran', rfl, Batch.deferred known (by rw [ready_congr]; exact unready) hfront, hrest⟩

theorem Batch.place (h : Batch canvas passed rest ran) :
    ∀ cpnId ∈ ran, ∃ front back kept, rest = front ++ cpnId :: back ∧
      Batch canvas passed front kept ∧ ∃ cpn, canvas.get? cpnId = some cpn ∧
        cpn.ready (passed ++ kept) (cpnId :: back) = true := by
  induction h with
  | nil => simp
  | @started passed rest ran first cpn known ready next ih =>
    intro cpnId hmem
    rcases mem_cons.mp hmem with rfl | hmem
    · exact ⟨[], rest, [], rfl, Batch.nil, cpn, known, by simpa using ready⟩
    · obtain ⟨front, back, kept, rfl, hfront, cpn', hknown, hready⟩ := ih cpnId hmem
      refine ⟨first :: front, back, first :: kept, rfl, ?_, cpn', hknown, by simpa using hready⟩
      exact Batch.started known (by rw [ready_congr]; exact ready) hfront
  | @deferred passed rest ran first cpn known unready next ih =>
    intro cpnId hmem
    obtain ⟨front, back, kept, rfl, hfront, hplace⟩ := ih cpnId hmem
    refine ⟨first :: front, back, kept, rfl, ?_, hplace⟩
    exact Batch.deferred known (by rw [ready_congr]; exact unready) hfront

variable {x : String}

theorem Batch.count_of_ready (h : Batch canvas passed rest ran) (P : String → Prop)
    (hready : ∀ front x back kept, rest = front ++ x :: back → P x →
      Batch canvas passed front kept → ∀ cpn, canvas.get? x = some cpn →
      cpn.ready (passed ++ kept) (x :: back) = true)
    (hx : P x) : ran.count x = rest.count x := by
  induction h with
  | nil => rfl
  | @started passed rest ran cpnId cpn known ready next ih =>
    rw [count_cons, count_cons, ih]
    intro front y back kept hrest hy hfront cpn' hget
    have hnext := hready (cpnId :: front) y back (cpnId :: kept) (by simp [hrest]) hy
      (Batch.started known (by rw [ready_congr]; exact ready) hfront) cpn' hget
    simpa using hnext
  | @deferred passed rest ran cpnId cpn known unready next ih =>
    have hne : cpnId ≠ x := by
      rintro rfl
      have hnext := hready [] cpnId rest [] rfl hx Batch.nil cpn known
      rw [append_nil, unready] at hnext
      cases hnext
    rw [count_cons_of_ne hne, ih]
    intro front y back kept hrest hy hfront cpn' hget
    exact hready (cpnId :: front) y back kept (by simp [hrest]) hy
      (Batch.deferred known (by rw [ready_congr]; exact unready) hfront) cpn' hget

/-! ### What post-processing puts on the path -/

/-- The component has failed and goes to its `exception_goto`. -/
def jumps (canvas : Canvas) (cpnId : String) (outcome : Outcome) : Bool :=
  (canvas.get? cpnId).any (fun cpn => (handleError cpn outcome ⟨[], false⟩).2)

def handed (canvas : Canvas) (cpnId : String) (outcome : Outcome) : List String :=
  match canvas.get? cpnId with
  | none => []
  | some cpn =>
      if jumps canvas cpnId outcome then cpn.exceptionGoto
      else ((canvas.successors cpn outcome).getD []).filterMap id

def pathAfter (canvas : Canvas) (path : List String) (done : String × Outcome) : List String :=
  if jumps canvas done.1 done.2 then path ++ handed canvas done.1 done.2
  else extendPath path (handed canvas done.1 done.2)

def pathAfterAll (canvas : Canvas) (path : List String) (done : List (String × Outcome)) :
    List String :=
  done.foldl (pathAfter canvas) path

theorem handleError_spec (cpn : Component) (outcome : Outcome) (state : PostState) :
    (handleError cpn outcome state).2 = (handleError cpn outcome ⟨[], false⟩).2 ∧
      (handleError cpn outcome state).1.path =
        if (handleError cpn outcome ⟨[], false⟩).2 then state.path ++ cpn.exceptionGoto
        else state.path := by
  unfold handleError
  split
  · split
    · simp
    · next handler hhandler =>
      have hgoto : handler.goto = cpn.exceptionGoto := by
        unfold Component.exceptionHandler at hhandler
        split at hhandler
        · cases hhandler
          rfl
        · cases hhandler
      split
      · simp [hgoto]
      · split
        · simp
        · simp
  · simp

variable {outcome : Outcome} {state after : PostState}

theorem postProcessOne_spec {cpnId : String}
    (h : postProcessOne canvas cpnId outcome state = some after) :
    after.path = pathAfter canvas state.path (cpnId, outcome) := by
  unfold postProcessOne at h
  split at h
  · cases h
  · next cpn hknown =>
    split at h
    · cases h
    · next ids hids =>
      obtain ⟨hother, hpath⟩ := handleError_spec cpn outcome state
      have hjumps : jumps canvas cpnId outcome = (handleError cpn outcome ⟨[], false⟩).2 := by
        simp [jumps, hknown]
      simp only [pathAfter, handed, hknown, hjumps, hids, Option.getD_some]
      simp only [hother] at h
      split at h
      · next hjump =>
        cases h
        simp [hpath, hjump]
      · next hjump =>
        unfold appendSuccessors at h
        split at h
        · cases h
          simp [hpath, hjump]
        · cases h

variable {ids : List String} {outcomes : List Outcome}

theorem postProcess_spec
    (h : postProcess canvas ids outcomes state = some after) :
    ids.length = outcomes.length ∧
      after.path = pathAfterAll canvas state.path (ids.zip outcomes) := by
  induction ids generalizing outcomes state with
  | nil =>
    cases outcomes with
    | nil =>
      cases h
      exact ⟨rfl, rfl⟩
    | cons outcome outcomes => cases h
  | cons cpnId ids ih =>
    cases outcomes with
    | nil => cases h
    | cons outcome outcomes =>
      unfold postProcess at h
      split at h
      · cases h
      · next state' hone =>
        obtain ⟨hlength, hpath⟩ := ih h
        refine ⟨by simp [hlength], ?_⟩
        rw [hpath, postProcessOne_spec hone]
        rfl

theorem handed_containerStart {cpn container : Component} (hknown : canvas.get? cpn.id = some cpn)
    (hkind : cpn.kind = .iterationItem ∨ cpn.kind = .loopItem)
    (hwithin : canvas.getParent cpn = some (some container))
    (hstart : canvas.getStart container = some (some cpn.id)) (herror : outcome.error = false) :
    jumps canvas cpn.id outcome = false ∧
    handed canvas cpn.id outcome =
      if outcome.ended = true then container.downstream
      else if cpn.downstream = [] then [cpn.id] else cpn.downstream := by
  have hjumps : jumps canvas cpn.id outcome = false := by
    simp [jumps, hknown, handleError, herror]
  refine ⟨hjumps, ?_⟩
  simp only [handed, hknown, hjumps, Bool.false_eq_true, if_false]
  by_cases hended : outcome.ended = true
  · rw [if_pos hended, Canvas.successors, if_pos ⟨hkind, hended⟩, Canvas.parentDownstream, hwithin]
    simp
  · have hown : canvas.successors cpn outcome = canvas.ownSuccessors cpn := by
      rcases hkind with hkind | hkind
      · simp [Canvas.successors, hkind, hended]
      · simp [Canvas.successors, hkind, hended]
    rw [if_neg hended, hown, Canvas.ownSuccessors]
    by_cases hleaf : cpn.downstream = []
    · simp [hleaf, hwithin, hstart]
    · simp [hleaf]

/-! ### Appended ids -/

/-- `path'` is `path` with ids of `ids` behind it; an id of `ids` that is not among
    them was the last of `path`. -/
def Extends (path ids path' : List String) : Prop :=
  ∃ put, path' = path ++ put ∧ (∀ x ∈ put, x ∈ ids) ∧
    ∀ x ∈ ids, x ∈ put ∨ path.getLast? = some x

theorem Extends.refl (path : List String) : Extends path [] path := ⟨[], by simp⟩

theorem Extends.trans {path' path'' ids' : List String} (h : Extends path ids path')
    (h' : Extends path' ids' path'') : Extends path (ids ++ ids') path'' := by
  obtain ⟨put, rfl, hwithin, hall⟩ := h
  obtain ⟨put', rfl, hwithin', hall'⟩ := h'
  refine ⟨put ++ put', by simp, ?_, ?_⟩
  · intro x hx
    rw [mem_append] at hx ⊢
    exact hx.imp (hwithin x) (hwithin' x)
  · intro x hx
    rw [mem_append] at hx ⊢
    rcases hx with hx | hx
    · exact (hall x hx).imp .inl id
    · rcases hall' x hx with hput | hlast
      · exact .inl (.inr hput)
      · rw [getLast?_append] at hlast
        cases hput : put.getLast? with
        | none =>
          rw [hput] at hlast
          exact .inr hlast
        | some y =>
          rw [hput] at hlast
          cases hlast
          exact .inl (.inl (mem_of_getLast? hput))

theorem extends_appendPath (path : List String) (cpnId : String) :
    Extends path [cpnId] (appendPath path cpnId) := by
  unfold appendPath
  split
  · next hlast => exact ⟨[], by simp [hlast]⟩
  · exact ⟨[cpnId], by simp⟩

theorem extends_extendPath (path cpnIds : List String) :
    Extends path cpnIds (extendPath path cpnIds) := by
  induction cpnIds generalizing path with
  | nil => exact Extends.refl path
  | cons cpnId cpnIds ih => exact (extends_appendPath path cpnId).trans (ih _)

theorem extends_pathAfter (canvas : Canvas) (path : List String) (done : String × Outcome) :
    Extends path (handed canvas done.1 done.2) (pathAfter canvas path done) := by
  unfold pathAfter
  split
  · exact ⟨handed canvas done.1 done.2, rfl, fun _ hx => hx, fun _ hx => .inl hx⟩
  · exact extends_extendPath path _

theorem extends_pathAfterAll (canvas : Canvas) (path : List String) (done : List (String × Outcome)) :
    Extends path (done.flatMap (fun p => handed canvas p.1 p.2)) (pathAfterAll canvas path done) := by
  induction done generalizing path with
  | nil => exact Extends.refl path
  | cons p done ih =>
    rw [flatMap_cons]
    exact (extends_pathAfter canvas path p).trans (ih _)

variable {put : List String} {done : List (String × Outcome)}

theorem not_mem_put (hpath : pathAfterAll canvas path done = path ++ put)
    (hnever : ∀ d ∈ done, x ∉ handed canvas d.1 d.2) : x ∉ put := by
  obtain ⟨put', hput, hwithin, -⟩ := extends_pathAfterAll canvas path done
  obtain rfl := append_cancel_left (hpath.symm.trans hput)
  intro hx
  obtain ⟨d, hd, hhanded⟩ := mem_flatMap.mp (hwithin x hx)
  exact hnever d hd hhanded

/-- The component hands over `x` and nothing else, or nothing at all. -/
def HandsOnly (canvas : Canvas) (x : String) (d : String × Outcome) : Prop :=
  (handed canvas d.1 d.2 = [x] ∧ jumps canvas d.1 d.2 = false) ∨ handed canvas d.1 d.2 = []

theorem pathAfter_of_nil {d : String × Outcome} (h : handed canvas d.1 d.2 = []) :
    pathAfter canvas path d = path := by
  simp [pathAfter, h, extendPath]

theorem pathAfterAll_again (hlast : path.getLast? = some x)
    (hdone : ∀ d ∈ done, HandsOnly canvas x d) :
    pathAfterAll canvas path done = path := by
  induction done with
  | nil => rfl
  | cons d done ih =>
    have hfirst : pathAfter canvas path d = path := by
      rcases hdone d mem_cons_self with ⟨hx, hjumps⟩ | hnil
      · simp [pathAfter, hx, hjumps, extendPath, appendPath, hlast]
      · exact pathAfter_of_nil hnil
    rw [pathAfterAll, foldl_cons, hfirst]
    exact ih (fun d' hd' => hdone d' (mem_cons_of_mem _ hd'))

theorem pathAfterAll_together (hlast : path.getLast? ≠ some x)
    (hdone : ∀ d ∈ done, HandsOnly canvas x d) (hsome : ∃ d ∈ done, x ∈ handed canvas d.1 d.2) :
    pathAfterAll canvas path done = path ++ [x] := by
  induction done with
  | nil => simp at hsome
  | cons d done ih =>
    have hrest : ∀ d' ∈ done, HandsOnly canvas x d' :=
      fun d' hd' => hdone d' (mem_cons_of_mem _ hd')
    rw [pathAfterAll, foldl_cons]
    rcases hdone d mem_cons_self with ⟨hx, hjumps⟩ | hnil
    · have hfirst : pathAfter canvas path d = path ++ [x] := by
        simp [pathAfter, hx, hjumps, extendPath, appendPath, hlast]
      rw [hfirst]
      exact pathAfterAll_again (by simp) hrest
    · rw [pathAfter_of_nil hnil]
      apply ih hrest
      obtain ⟨d', hd', hx⟩ := hsome
      rcases mem_cons.mp hd' with rfl | hd'
      · rw [hnil] at hx
        cases hx
      · exact ⟨d', hd', hx⟩

theorem count_put_eq_one {front mid back : List (String × Outcome)}
    (hpath : pathAfterAll canvas path (front ++ mid ++ back) = path ++ put)
    (hlast : path.getLast? ≠ some x) (hapart : ∀ d ∈ front ++ back, x ∉ handed canvas d.1 d.2)
    (hmid : ∀ d ∈ mid, HandsOnly canvas x d) (hsome : ∃ d ∈ mid, x ∈ handed canvas d.1 d.2) :
    put.count x = 1 := by
  obtain ⟨put₁, hfront, -, -⟩ := extends_pathAfterAll canvas path front
  have hnot₁ := not_mem_put hfront (fun d hd => hapart d (mem_append_left _ hd))
  have hlast₁ : (path ++ put₁).getLast? ≠ some x := by
    intro h
    rw [getLast?_append] at h
    cases hput : put₁.getLast? with
    | none =>
      rw [hput] at h
      exact hlast h
    | some y =>
      rw [hput] at h
      cases h
      exact hnot₁ (mem_of_getLast? hput)
  have hmid' := pathAfterAll_together hlast₁ hmid hsome
  obtain ⟨put₃, hback, -, -⟩ := extends_pathAfterAll canvas (path ++ put₁ ++ [x]) back
  have hnot₃ := not_mem_put hback (fun d hd => hapart d (mem_append_right _ hd))
  have hall : pathAfterAll canvas path (front ++ mid ++ back) = path ++ put₁ ++ [x] ++ put₃ := by
    rw [← hback, ← hmid', ← hfront]
    simp [pathAfterAll, foldl_append]
  have hput : put = put₁ ++ [x] ++ put₃ := by
    apply append_cancel_left (hpath.symm.trans (hall.trans _))
    simp
  rw [hput]
  simp [count_eq_zero.mpr hnot₁, count_eq_zero.mpr hnot₃]

/-! ### What a turn does -/

/-- How a turn without an error ends, from the path of what has run and the ids put
    behind it. -/
inductive TurnEnd (canvas : Canvas) (path put : List String) : RunState → Prop
  | paused (form : ∃ cpnId ∈ put, canvas.isFillUp cpnId = true) :
      TurnEnd canvas path put ⟨pausePath canvas put, path.length, .paused⟩
  | running (pending : put ≠ []) (noForm : ∀ cpnId ∈ put, canvas.isFillUp cpnId = false) :
      TurnEnd canvas path put ⟨path ++ put, path.length, .running⟩
  | finished (done : put = []) : TurnEnd canvas path put ⟨path, path.length, .finished⟩

theorem continueFrom_spec {s' : RunState}
    (h : continueFrom canvas (path ++ put) path.length = some s') : TurnEnd canvas path put s' := by
  unfold continueFrom at h
  simp only [drop_left, take_left, length_append] at h
  split at h
  · split at h
    · next hform =>
      cases h
      exact TurnEnd.paused (any_eq_true.mp hform)
    · next hform =>
      split at h
      · next hpend =>
        cases h
        refine TurnEnd.running ?_ ?_
        · rintro rfl
          simp at hpend
        · intro cpnId hmem
          by_contra hfill
          exact hform (any_eq_true.mpr ⟨cpnId, hmem, by simpa using hfill⟩)
      · next hdone =>
        split at h
        · cases h
        · cases h
          apply TurnEnd.finished
          rw [← length_eq_zero_iff]
          omega
  · cases h

structure StepSpec (canvas : Canvas) (s : RunState) (t : Turn) (s' : RunState) : Prop where
  before : t.before = s
  running : s.status = .running
  reached : t.batch <+: s.pending
  ran : Batch canvas s.passed t.batch t.ran
  ends : (s'.status = .raised ∧ t.put = []) ∨
    (t.batch = s.pending ∧ t.ran.length = t.outcomes.length ∧
      pathAfterAll canvas (s.passed ++ t.ran) t.done = s.passed ++ t.ran ++ t.put ∧
      (s'.status = .failed ∨ TurnEnd canvas (s.passed ++ t.ran) t.put s'))

variable {s : RunState}

theorem RunState.drop_passed (h : ran.Sublist s.pending) :
    (s.passed ++ ran).drop s.idx = ran := by
  unfold RunState.passed
  by_cases hidx : s.idx ≤ s.path.length
  · rw [drop_left' (length_take_of_le hidx)]
  · have hpend : s.pending = [] := drop_of_length_le (by omega)
    rw [hpend, sublist_nil] at h
    rw [h, append_nil]
    apply drop_of_length_le
    rw [length_take]
    omega

theorem turn_spec {s' : RunState} {t : Turn}
    (hrunning : s.status = .running) (h : turn canvas s outcomes = some (t, s')) :
    StepSpec canvas s t s' := by
  unfold turn at h
  split at h
  · cases h
  · next path hbatch =>
    obtain ⟨ran, rfl, hran⟩ := runBatch_spec hbatch
    rw [RunState.drop_passed hran.sublist] at h
    split at h
    · cases h
    · next after hpost =>
      obtain ⟨hlength, hpath⟩ := postProcess_spec hpost
      obtain ⟨put, hput, -⟩ := extends_pathAfterAll canvas (s.passed ++ ran)
        (ran.zip outcomes)
      have hafter : after.path = s.passed ++ ran ++ put := hpath.trans hput
      rw [Option.map_eq_some_iff] at h
      obtain ⟨end', hend, heq⟩ := h
      rw [hafter, drop_left] at heq
      cases heq
      refine ⟨rfl, hrunning, prefix_rfl, hran, .inr ⟨rfl, hlength, hput, ?_⟩⟩
      unfold endTurn at hend
      split at hend
      · cases hend
        exact .inl rfl
      · rw [hafter] at hend
        exact .inr (continueFrom_spec hend)

theorem RunStep.spec {s' : RunState} {t : Turn} (h : RunStep canvas s t s') :
    StepSpec canvas s t s' := by
  cases h with
  | turn running computed => exact turn_spec running computed
  | raised running reached computed status =>
    obtain ⟨ran, heq, hbatch⟩ := runBatch_spec computed
    obtain rfl := append_cancel_left heq
    exact ⟨rfl, running, reached, hbatch, .inl ⟨status, rfl⟩⟩

variable {s₀ s' : RunState} {t : Turn} {hist older : List Turn}

theorem StepSpec.next (h : StepSpec canvas s t s') (hrunning : s'.status = .running) :
    t.batch = s.pending ∧ s'.passed = s.passed ++ t.ran ∧ s'.pending = t.put ∧ t.put ≠ [] ∧
      t.ran ≠ [] ∧ ∀ cpnId ∈ t.put, canvas.isFillUp cpnId = false := by
  rcases h.ends with ⟨hraised, -⟩ | ⟨hbatch, -, hpath, hfailed | hend⟩
  · rw [hrunning] at hraised
    cases hraised
  · rw [hrunning] at hfailed
    cases hfailed
  · cases hend with
    | paused form => cases hrunning
    | finished done => cases hrunning
    | running pending noForm =>
      refine ⟨hbatch, take_left, drop_left, pending, ?_, noForm⟩
      intro hran
      rw [hran] at hpath
      simp only [Turn.done, hran, zip_nil_left, pathAfterAll, foldl_nil] at hpath
      exact pending (append_cancel_left (hpath.symm.trans (append_nil _).symm))

theorem not_raised_of_run {newer : List Turn} (hrest : Run (RunStep canvas) s' newer s)
    (hresult : s.status ≠ .raised) : s'.status ≠ .raised := by
  intro hraised
  rcases eq_nil_or_concat newer with rfl | ⟨later, next, rfl⟩
  · cases hrest
    exact hresult hraised
  · rw [concat_eq_append] at hrest
    obtain ⟨a, b, hbefore, hnext, -⟩ := Run.split hrest
    cases hbefore
    have hrunning := hnext.spec.running
    rw [hraised] at hrunning
    cases hrunning

theorem batch_eq_pending (hstep : RunStep canvas s t s') (hresult : s'.status ≠ .raised) :
    t.batch = s.pending := by
  rcases hstep.spec.ends with ⟨hraised, -⟩ | ⟨hbatch, -⟩
  · exact absurd hraised hresult
  · exact hbatch

theorem put_eq_nil_of_finished (hstep : RunStep canvas s t s') (hfin : s'.status = .finished) :
    t.put = [] := by
  rcases hstep.spec.ends with ⟨-, hput⟩ | ⟨-, -, -, hfailed | hend⟩
  · exact hput
  · rw [hfin] at hfailed
    cases hfailed
  · cases hend with
    | paused form => cases hfin
    | running pending noForm => cases hfin
    | finished done => exact done

structure Turn.Whole (canvas : Canvas) (t : Turn) : Prop where
  length : t.ran.length = t.outcomes.length
  path : pathAfterAll canvas (t.before.passed ++ t.ran) t.done = t.before.passed ++ t.ran ++ t.put

theorem whole_of_step (hstep : RunStep canvas s t s') (hresult : s'.status ≠ .raised) :
    t.Whole canvas := by
  obtain ⟨rfl, -, -, -, hends⟩ := hstep.spec
  rcases hends with ⟨hraised, -⟩ | ⟨-, hlength, hpath, -⟩
  · exact absurd hraised hresult
  · exact ⟨hlength, hpath⟩

variable {d : String × Outcome}

theorem Turn.mem_ran_of_done (hd : d ∈ t.done) : d.1 ∈ t.ran :=
  (of_mem_zip hd).1

theorem Turn.Whole.exists_done (h : t.Whole canvas) (hx : x ∈ t.ran) :
    ∃ d ∈ t.done, d.1 = x := by
  have hmap : t.done.map Prod.fst = t.ran := map_fst_zip (Nat.le_of_eq h.length)
  rw [← hmap, mem_map] at hx
  exact hx

theorem Turn.Whole.put_within (h : t.Whole canvas) (hx : x ∈ t.put) :
    ∃ d ∈ t.done, x ∈ handed canvas d.1 d.2 := by
  by_contra hnever
  push Not at hnever
  exact not_mem_put h.path hnever hx

theorem Turn.Whole.split (h : t.Whole canvas) (hran : t.ran.count x = 1) :
    ∃ front outcome back, t.done = front ++ [(x, outcome)] ++ back ∧
      ∀ d ∈ front ++ back, d.1 ≠ x := by
  have hmem : x ∈ t.ran := by
    rw [← count_pos_iff]
    omega
  obtain ⟨⟨y, outcome⟩, hd, rfl : y = x⟩ := h.exists_done hmem
  obtain ⟨front, back, hsplit⟩ := append_of_mem hd
  refine ⟨front, outcome, back, by simp [hsplit], ?_⟩
  have hmap : t.done.map Prod.fst = t.ran := map_fst_zip (Nat.le_of_eq h.length)
  rw [← hmap, hsplit, map_append, map_cons, count_append, count_cons_self] at hran
  intro d hd' hsame
  have hnone : ∀ part : List (String × Outcome), d ∈ part → 0 < (part.map Prod.fst).count y := by
    intro part hpart
    rw [count_pos_iff, ← hsame]
    exact mem_map_of_mem hpart
  rcases mem_append.mp hd' with hd' | hd'
  · have := hnone front hd'
    omega
  · have := hnone back hd'
    omega

theorem Turn.Whole.put_or_last (h : t.Whole canvas) (hd : d ∈ t.done)
    (hx : x ∈ handed canvas d.1 d.2) : x ∈ t.put ∨ t.ran.getLast? = some x := by
  obtain ⟨put, hput, -, hall⟩ := extends_pathAfterAll canvas (t.before.passed ++ t.ran) t.done
  obtain rfl := append_cancel_left (h.path.symm.trans hput)
  refine (hall x (mem_flatMap.mpr ⟨d, hd, hx⟩)).imp id ?_
  intro hlast
  have hran : t.ran ≠ [] := ne_nil_of_mem (Turn.mem_ran_of_done hd)
  rw [getLast?_append, getLast?_eq_some_getLast hran] at hlast
  rw [getLast?_eq_some_getLast hran]
  exact hlast

theorem passed_of_run (hrun : Run (RunStep canvas) s₀ hist s) (hrunning : s.status = .running) :
    s.passed = s₀.passed ++ hist.reverse.flatMap Turn.ran := by
  induction hrun with
  | nil => simp
  | cons hprev hstep ih =>
    obtain ⟨-, hpassed, -⟩ := hstep.spec.next hrunning
    rw [hpassed, ih hstep.spec.running]
    simp [flatMap_append]

theorem startState_pending (path : List String) :
    ∃ cpnId, (startState path).pending = [cpnId] ∧
      (startState path).passed.length = (startState path).idx := by
  have hsplit : ∀ front : List String, ∀ cpnId,
      (RunState.mk (front ++ [cpnId]) ((front ++ [cpnId]).length - 1) .running).pending = [cpnId] ∧
      (RunState.mk (front ++ [cpnId]) ((front ++ [cpnId]).length - 1) .running).passed.length =
        (front ++ [cpnId]).length - 1 := by
    intro front cpnId
    simp [RunState.pending, RunState.passed]
  unfold startState
  split
  · next hlast =>
    rcases eq_nil_or_concat path with rfl | ⟨front, cpnId, rfl⟩
    · cases hlast
    · rw [concat_eq_append]
      exact ⟨cpnId, hsplit front cpnId⟩
  · exact ⟨"begin", hsplit path "begin"⟩

/-! ### Executed turns -/

def takeTurn (canvas : Canvas) (outcomes : List Outcome) (s : RunState) : Turn × RunState :=
  (turn canvas s outcomes).getD (⟨s, [], [], [], []⟩, s)

def canTurn (canvas : Canvas) (outcomes : List Outcome) (s : RunState) : Bool :=
  decide (s.status = .running) && (turn canvas s outcomes).isSome

theorem turns_run {calls : List (List Outcome)}
    (hallowed : allowed (takeTurn canvas) (canTurn canvas) calls s = true) :
    Run (RunStep canvas) s (execute (takeTurn canvas) calls [] s).1
      (execute (takeTurn canvas) calls [] s).2 := by
  apply execute_steps Run.nil hallowed
  intro outcomes s hcan
  simp only [canTurn, Bool.and_eq_true, decide_eq_true_eq] at hcan
  obtain ⟨hrunning, hsome⟩ := hcan
  obtain ⟨result, hresult⟩ := Option.isSome_iff_exists.mp hsome
  rw [takeTurn, hresult]
  exact RunStep.turn hrunning hresult

def plainComponent (cpnId : String) (kind : ComponentKind) (downstream references : List String) :
    Component :=
  ⟨cpnId, kind, downstream, none, references, none, [], none, [], nodup_nil⟩

def quiet : Outcome := ⟨false, [], false⟩

end MultiRag.Agent
