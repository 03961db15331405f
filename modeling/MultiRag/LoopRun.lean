/-
  **How often a Loop starts its body.**

  A run with one Loop in view: its start component counts the rounds, and every call of
  `end` that returns false starts the body once.  The counter belongs to the component,
  not to the entry, so what an entry can do depends on where the last one left it.
-/
import MultiRag.LoopItem
import Mathlib.Algebra.GroupWithZero.Nat

namespace MultiRag.Agent

open List

/-! ### Runs with one Loop in view -/

structure LoopState where
  run : RunState
  item : LoopItemState

structure LoopTurn where
  turn : Turn
  checks : List CancelChecks
  reads : List LoopReads
  ends : List Bool
  /-- `_ERROR` of the start component after the batch. -/
  error : Bool

/-- A step of the run.  The start component is invoked, and then asked for its end, as often as it stands in
    what has run; a cancellation it has seen stays, and the next batch raises. -/
structure LoopStep (canvas : Canvas) (cmp : Comparisons) (cpn : Component) (params : LoopParams) (s : LoopState)
    (e : LoopTurn) (s' : LoopState) : Prop where
  turn : RunStep canvas s.run e.turn s'.run
  canceled : s.item.error = true → s'.run.status = .raised
  raised : s'.run.status = .raised → e.reads = [] ∧ e.ends = []
  checks : s'.run.status ≠ .raised → e.checks.length = e.turn.ran.count cpn.id
  reads : s'.run.status ≠ .raised → e.reads.length = e.turn.ran.count cpn.id
  item : s'.run.status ≠ .raised →
    loopItemEnds cmp params e.reads (invokeLoopItems params e.checks s.item) = some (e.ends, s'.item)
  error : s'.run.status ≠ .raised → e.error = s'.item.error
  outcomes : s'.run.status ≠ .raised →
    (e.turn.done.filter (fun done => done.1 = cpn.id)).map (fun done => done.2.ended) = e.ends
  failed : ∀ done ∈ e.turn.done, done.1 = cpn.id → done.2.error = e.error

structure IsLoop (canvas : Canvas) (cpn parent : Component) : Prop where
  known : canvas.get? cpn.id = some cpn
  kind : cpn.kind = .loopItem
  within : canvas.getParent cpn = some (some parent)
  container : parent.kind = .loop
  start : canvas.getStart parent = some (some cpn.id)

/-- How often the turn starts the body: the calls of `end` that return false.  Where the start component is
    canceled the next batch raises, and nothing of the body runs. -/
def LoopTurn.started (e : LoopTurn) : Nat := if e.error then 0 else e.ends.count false

def LoopTurn.enters (parent : Component) (e : LoopTurn) : Bool := e.turn.ran.contains parent.id

def entered (parent : Component) (hist : List LoopTurn) : Bool := hist.head?.any (LoopTurn.enters parent)

/-- How often the body was started in the turns after the latest entry before this one. -/
def starts (parent : Component) : List LoopTurn → Nat
  | [] => 0
  | e :: hist => (if entered parent hist then 0 else starts parent hist) + e.started

def current (parent : Component) (hist : List LoopTurn) : Nat :=
  if entered parent hist then 0 else starts parent hist

def allStarts (hist : List LoopTurn) : Nat := (hist.map LoopTurn.started).sum

/-! ### When the counter is fresh -/

/-- The condition on the state before a turn: no invocation finds the counter at −1.  A Loop without conditions
    has the operator "or", is entered at 0, and has its start component once on the path where it ends. -/
structure Fresh (cpn parent : Component) (params : LoopParams) (s : LoopState) : Prop where
  notOver : cpn.id ∈ s.run.pending → s.item.idx ≠ -1
  room : s.run.pending.count cpn.id ≤ 1 ∨
    s.item.idx + s.run.pending.count cpn.id ≤ params.maximumLoopCount + 1
  operator : params.loopTerminationCondition = [] → params.logicalOperator = some "or"
  rounds : params.loopTerminationCondition = [] → s.run.pending.count cpn.id ≤ 1 ∨
    s.item.idx + s.run.pending.count cpn.id ≤ params.maximumLoopCount
  entry : params.loopTerminationCondition = [] → parent.id ∈ s.run.pending →
    s.item.idx = 0 ∧ cpn.id ∉ s.run.pending

section

variable {canvas : Canvas} {cmp : Comparisons} {cpn parent : Component} {params : LoopParams}
  {s₀ s s' : LoopState} {e : LoopTurn} {hist : List LoopTurn}

theorem starts_le_allStarts (parent : Component) (hist : List LoopTurn) : starts parent hist ≤ allStarts hist := by
  induction hist with
  | nil => exact le_rfl
  | cons e hist ih =>
    rw [starts, allStarts, map_cons, sum_cons]
    rw [allStarts] at ih
    split
    · omega
    · omega

/-- The rounds so far are covered by the counter, unless it has been set to −1. -/
structure Covered (params : LoopParams) (hist : List LoopTurn) (s : LoopState) : Prop where
  total : allStarts hist ≤ params.maximumLoopCount.toNat
  counter : s.run.status ≠ .raised → -1 ≤ s.item.idx ∧ s.item.idx ≤ params.maximumLoopCount.toNat ∧
    (s.item.idx ≠ -1 → allStarts hist ≤ s.item.idx)

section

variable (hstep : LoopStep canvas cmp cpn params s e s')
include hstep

theorem checks_le (hresult : s'.run.status ≠ .raised) :
    e.checks.length ≤ s.run.pending.count cpn.id := by
  obtain ⟨-, -, hreached, hbatch, -⟩ := hstep.turn.spec
  rw [hstep.checks hresult]
  exact ((hbatch.sublist.trans hreached.sublist).count_le cpn.id)

theorem started_of_raised (hraised : s'.run.status = .raised) :
    e.started = 0 := by
  rw [LoopTurn.started, (hstep.raised hraised).2]
  split
  · rfl
  · rfl

theorem idle_of_not_ran (hresult : s'.run.status ≠ .raised)
    (hcount : e.turn.ran.count cpn.id = 0) : e.ends = [] ∧ s'.item = s.item := by
  have hchecks : e.checks = [] := length_eq_zero_iff.mp ((hstep.checks hresult).trans hcount)
  have hreads : e.reads = [] := length_eq_zero_iff.mp ((hstep.reads hresult).trans hcount)
  have hitem := hstep.item hresult
  rw [hchecks, hreads] at hitem
  obtain ⟨hends, hstate⟩ := Prod.mk.inj (Option.some.inj hitem)
  exact ⟨hends.symm, hstate.symm⟩

end

theorem started_of_idle (hends : e.ends = []) : e.started = 0 := by
  rw [LoopTurn.started, hends]
  split
  · rfl
  · rfl

theorem counted_turn (hstep : LoopStep canvas cmp cpn params s e s') (hfresh : Fresh cpn parent params s)
    (hresult : s'.run.status ≠ .raised) (hlow : -1 ≤ s.item.idx)
    (hhigh : s.item.idx ≤ params.maximumLoopCount.toNat) (hran : e.turn.ran.count cpn.id ≠ 0) :
    0 ≤ s.item.idx ∧
      Counted params s.item (invokeLoopItems params e.checks s.item) (e.turn.ran.count cpn.id) := by
  have hle := checks_le hstep hresult
  have hchecks := hstep.checks hresult
  have hpend : cpn.id ∈ s.run.pending := by
    rw [← count_pos_iff]
    omega
  have hnotOver := hfresh.notOver hpend
  have hroom := hfresh.room
  have hcounted := invokeLoopItems_counted params e.checks s.item (by omega) hhigh (by omega)
  rw [hchecks] at hcounted
  exact ⟨by omega, hcounted⟩

theorem Covered.step (hcov : Covered params hist s) (hstep : LoopStep canvas cmp cpn params s e s')
    (hfresh : Fresh cpn parent params s) : Covered params (e :: hist) s' := by
  have hall : allStarts (e :: hist) = e.started + allStarts hist := by
    rw [allStarts, map_cons, sum_cons, allStarts]
  have htotal := hcov.total
  by_cases hresult : s'.run.status = .raised
  · constructor
    · rw [hall, started_of_raised hstep hresult, Nat.zero_add]
      exact htotal
    · intro hnot
      exact absurd hresult hnot
  · have hrunning := hstep.turn.spec.running
    obtain ⟨hlow, hhigh, hcovers⟩ := hcov.counter (by rw [hrunning]; simp)
    by_cases hran : e.turn.ran.count cpn.id = 0
    · obtain ⟨hends, hsame⟩ := idle_of_not_ran hstep hresult hran
      rw [started_of_idle hends, Nat.zero_add] at hall
      rw [← hall] at htotal hcovers
      exact ⟨htotal, fun _ => by rw [hsame]; exact ⟨hlow, hhigh, hcovers⟩⟩
    · obtain ⟨hnonneg, hcounted⟩ := counted_turn hstep hfresh hresult hlow hhigh hran
      have hended := loopItemEnds_spec (hstep.item hresult)
      have hstart := hended.started
      rw [hstep.reads hresult] at hstart
      have hmid : e.started = 0 ∨ (e.started ≤ e.turn.ran.count cpn.id ∧
          (invokeLoopItems params e.checks s.item).idx ≠ -1 ∧
          (invokeLoopItems params e.checks s.item).idx = s.item.idx + (e.turn.ran.count cpn.id : Nat)) := by
        rw [LoopTurn.started, hstep.error hresult, hended.error]
        by_cases herror : (invokeLoopItems params e.checks s.item).error = true
        · left
          rw [if_pos herror]
        · rw [if_neg herror]
          by_cases hover : (invokeLoopItems params e.checks s.item).idx = -1
          · left
            exact hended.closed hover
          · right
            exact ⟨hstart, hover, hcounted.counts hover (by simpa using herror)⟩
      have hmax := hcounted.high
      have hgrows := hcounted.grows
      have hidx := hended.idx
      constructor
      · rw [hall]
        omega
      · intro _
        refine ⟨by omega, by omega, ?_⟩
        intro hne
        rw [hall]
        omega

/-- Without conditions the counter is the number of rounds of the entry, unless it has been set to −1. -/
def Exact (parent : Component) (hist : List LoopTurn) (s : LoopState) : Prop :=
  s.run.status ≠ .raised → s.item.error = false → s.item.idx ≠ -1 → (current parent hist : Int) = s.item.idx

theorem exact_rounds (hnil : params.loopTerminationCondition = []) (hor : params.logicalOperator = some "or")
    {checks : List CancelChecks} {reads : List LoopReads} {before after : LoopItemState} {ends : List Bool}
    (hlow : 0 ≤ before.idx) (hhigh : before.idx ≤ params.maximumLoopCount.toNat)
    (hlength : reads.length = checks.length)
    (hroom : checks.length = 1 ∨ before.idx + checks.length ≤ params.maximumLoopCount)
    (h : loopItemEnds cmp params reads (invokeLoopItems params checks before) = some (ends, after)) :
    (ends.count false = 0 ∧ after.idx = -1 ∧ params.maximumLoopCount ≤ before.idx) ∨
      (ends = replicate checks.length false ∧
        (after.error = false → after.idx = before.idx + checks.length)) := by
  have hcounted := invokeLoopItems_counted params checks before hlow hhigh (by omega)
  by_cases hopen : (invokeLoopItems params checks before).idx = -1
  · left
    have hended := loopItemEnds_spec h
    have hidx := hended.idx
    refine ⟨hended.closed hopen, by omega, ?_⟩
    by_contra hbelow
    have hgoes := invokeLoopItems_open params checks hlow (by omega)
    omega
  · right
    have hafterLow := hcounted.low
    rw [loopItemEnds_open hnil hor reads (by omega), hlength] at h
    obtain ⟨rfl, rfl⟩ := Prod.mk.inj (Option.some.inj h)
    exact ⟨rfl, hcounted.counts hopen⟩

theorem exact_turn (hstep : LoopStep canvas cmp cpn params s e s') (hfresh : Fresh cpn parent params s)
    (hnil : params.loopTerminationCondition = []) (hresult : s'.run.status ≠ .raised) (hlow : 0 ≤ s.item.idx)
    (hhigh : s.item.idx ≤ params.maximumLoopCount.toNat) (hran : e.turn.ran.count cpn.id ≠ 0) :
    (e.started = 0 ∧ s'.item.idx = -1 ∧ params.maximumLoopCount ≤ s.item.idx) ∨
      (true ∉ e.ends ∧ (s'.item.error = false → s'.item.idx = s.item.idx + e.started)) := by
  have hle := checks_le hstep hresult
  have hchecks := hstep.checks hresult
  have hreads := hstep.reads hresult
  have hroom := hfresh.rounds hnil
  rcases exact_rounds hnil (hfresh.operator hnil) hlow hhigh (by omega) (by omega) (hstep.item hresult) with
    ⟨hnone, hidx, hmax⟩ | ⟨hends, hidx⟩
  · left
    refine ⟨?_, hidx, hmax⟩
    rw [LoopTurn.started, hnone, ite_self]
  · right
    refine ⟨by simp [hends], ?_⟩
    intro herror
    rw [LoopTurn.started, hstep.error hresult, herror, hidx herror, hends]
    simp

/-- The start component ends the entry after exactly the maximum of rounds. -/
def EndsExactly (parent : Component) (params : LoopParams) (hist : List LoopTurn) (e : LoopTurn) : Prop :=
  true ∈ e.ends → starts parent (e :: hist) = params.maximumLoopCount.toNat

theorem current_cons (parent : Component) (e : LoopTurn) (hist : List LoopTurn) :
    current parent (e :: hist) = if e.enters parent then 0 else current parent hist + e.started := by
  rw [current, starts, ← current]
  rfl

theorem not_canceled (hstep : LoopStep canvas cmp cpn params s e s') (hresult : s'.run.status ≠ .raised) :
    s.item.error = false := by
  by_contra hcanceled
  exact hresult (hstep.canceled (by simpa using hcanceled))

theorem Exact.step (hexact : Exact parent hist s) (hcov : Covered params hist s)
    (hstep : LoopStep canvas cmp cpn params s e s') (hfresh : Fresh cpn parent params s)
    (hnil : params.loopTerminationCondition = []) :
    Exact parent (e :: hist) s' ∧ EndsExactly parent params hist e := by
  by_cases hresult : s'.run.status = .raised
  · constructor
    · intro hnot
      exact absurd hresult hnot
    · intro hended
      rw [(hstep.raised hresult).2] at hended
      cases hended
  · obtain ⟨-, hrunning, hreached, hbatch, -⟩ := hstep.turn.spec
    have hran := hbatch.sublist.trans hreached.sublist
    have hnotRaised : s.run.status ≠ .raised := by
      rw [hrunning]
      simp
    have hsofar := hexact hnotRaised (not_canceled hstep hresult)
    by_cases hidle : e.turn.ran.count cpn.id = 0
    · obtain ⟨hends, hsame⟩ := idle_of_not_ran hstep hresult hidle
      constructor
      · intro _ _ hne
        rw [hsame] at hne ⊢
        rw [current_cons, started_of_idle hends]
        split
        · next hentered =>
          -- an entry begins at 0
          have hparent : parent.id ∈ e.turn.ran := by simpa [LoopTurn.enters] using hentered
          rw [(hfresh.entry hnil (hran.subset hparent)).1]
          rfl
        · exact hsofar hne
      · intro hended
        rw [hends] at hended
        cases hended
    · obtain ⟨hlow, hhigh, -⟩ := hcov.counter hnotRaised
      obtain ⟨hnonneg, -⟩ := counted_turn hstep hfresh hresult hlow hhigh hidle
      have hcount := hsofar (by omega)
      rcases exact_turn hstep hfresh hnil hresult hnonneg hhigh hidle with
        ⟨hstart, hidx, hmax⟩ | ⟨hopen, hidx⟩
      · constructor
        · intro _ _ hne
          exact absurd hidx hne
        · intro _
          rw [starts, ← current, hstart]
          omega
      · have hgoesOn : e.enters parent = false := by
          -- the Loop and its start component are not pending together
          rw [LoopTurn.enters, contains_eq_mem, decide_eq_false_iff_not]
          intro hparent
          have hpend : cpn.id ∈ e.turn.ran := by
            rw [← count_pos_iff]
            omega
          exact (hfresh.entry hnil (hran.subset hparent)).2 (hran.subset hpend)
        constructor
        · intro _ herror _
          rw [current_cons, hgoesOn, hidx herror, ← hcount]
          simp
        · intro hended
          exact absurd hended hopen

/-! ### The law -/

/-- **What a Loop promises of a run.** -/
structure LoopLaw (canvas : Canvas) (cmp : Comparisons) (cpn parent : Component) (params : LoopParams)
    (hist : List LoopTurn) : Prop where
  /-- Every entry starts the body at most as often as the maximum says. -/
  atMost : ∀ newer older, hist = newer ++ older → starts parent older ≤ params.maximumLoopCount.toNat
  /-- The body is not started where the termination condition holds. -/
  condition : ∀ e ∈ hist,
    Forall₂ (fun reads ended => ended = false → params.shouldEnd cmp reads = some false) e.reads e.ends
  /-- Without conditions an entry is ended by its start component after the maximum of rounds. -/
  exactly : params.loopTerminationCondition = [] →
    ∀ newer e older, hist = newer ++ e :: older → EndsExactly parent params older e
  /-- The start component hands over its own successors to start the body, and those of the Loop to end it. -/
  handsOver : ∀ e ∈ hist, ∀ done ∈ e.turn.done, done.1 = cpn.id → done.2.error = false →
    handed canvas cpn.id done.2 =
      if done.2.ended = true then parent.downstream
      else if cpn.downstream = [] then [cpn.id] else cpn.downstream

theorem condition_of_step (hstep : LoopStep canvas cmp cpn params s e s') :
    Forall₂ (fun reads ended => ended = false → params.shouldEnd cmp reads = some false) e.reads e.ends := by
  by_cases hresult : s'.run.status = .raised
  · obtain ⟨hreads, hends⟩ := hstep.raised hresult
    rw [hreads, hends]
    exact .nil
  · exact (loopItemEnds_spec (hstep.item hresult)).condition

/-- A step of a run in which the counter is fresh before every turn. -/
abbrev FreshStep (canvas : Canvas) (cmp : Comparisons) (cpn parent : Component) (params : LoopParams)
    (s : LoopState) (e : LoopTurn) (s' : LoopState) : Prop :=
  LoopStep canvas cmp cpn params s e s' ∧ Fresh cpn parent params s

theorem covered_of_run (hrun : Run (FreshStep canvas cmp cpn parent params) s₀ hist s)
    (hstart : s₀.item = ⟨0, false⟩) : Covered params hist s := by
  apply hrun.history
  · constructor
    · exact Nat.zero_le _
    · intro _
      rw [hstart]
      exact ⟨by simp, by simp, fun _ => le_rfl⟩
  · intro hist s e s' hcov hstep
    exact hcov.step hstep.1 hstep.2

theorem exact_of_run (hnil : params.loopTerminationCondition = []) (hstart : s₀.item = ⟨0, false⟩)
    (hrun : Run (FreshStep canvas cmp cpn parent params) s₀ hist s) : Exact parent hist s := by
  induction hrun with
  | nil =>
    intro _ _ _
    rw [hstart]
    rfl
  | cons hbefore hstep ih => exact (ih.step (covered_of_run hbefore hstart) hstep.1 hstep.2 hnil).1

end

section

variable (canvas : Canvas) (cmp : Comparisons) (cpn parent : Component) (params : LoopParams) {s : LoopState}

/-- Outcomes of the components of a turn, and what the start component is asked in it. -/
structure LoopCall where
  outcomes : List Outcome
  checks : List CancelChecks
  reads : List LoopReads

def askLoopItem (call : LoopCall) (s : LoopState) : Option (List Bool × LoopItemState) :=
  loopItemEnds cmp params call.reads (invokeLoopItems params call.checks s.item)

def takeLoop (call : LoopCall) (s : LoopState) : LoopTurn × LoopState :=
  let next := takeTurn canvas call.outcomes s.run
  let asked := (askLoopItem cmp params call s).getD ([], s.item)
  (⟨next.1, call.checks, call.reads, asked.1, asked.2.error⟩, ⟨next.2, asked.2⟩)

def canLoop (call : LoopCall) (s : LoopState) : Bool :=
  let next := takeLoop canvas cmp params call s
  canTurn canvas call.outcomes s.run && (askLoopItem cmp params call s).isSome &&
    decide (s.item.error = false ∧ next.2.run.status ≠ .raised ∧
      call.checks.length = next.1.turn.ran.count cpn.id ∧ call.reads.length = next.1.turn.ran.count cpn.id ∧
      (next.1.turn.done.filter (fun done => done.1 = cpn.id)).map (fun done => done.2.ended) = next.1.ends ∧
      ∀ done ∈ next.1.turn.done, done.1 = cpn.id → done.2.error = next.1.error)

instance : Decidable (Fresh cpn parent params s) :=
  decidable_of_iff ((cpn.id ∈ s.run.pending → s.item.idx ≠ -1) ∧
    (s.run.pending.count cpn.id ≤ 1 ∨ s.item.idx + s.run.pending.count cpn.id ≤ params.maximumLoopCount + 1) ∧
    (params.loopTerminationCondition = [] → params.logicalOperator = some "or") ∧
    (params.loopTerminationCondition = [] → s.run.pending.count cpn.id ≤ 1 ∨
      s.item.idx + s.run.pending.count cpn.id ≤ params.maximumLoopCount) ∧
    (params.loopTerminationCondition = [] → parent.id ∈ s.run.pending →
      s.item.idx = 0 ∧ cpn.id ∉ s.run.pending))
    ⟨fun ⟨notOver, room, operator, rounds, entry⟩ => ⟨notOver, room, operator, rounds, entry⟩,
      fun ⟨notOver, room, operator, rounds, entry⟩ => ⟨notOver, room, operator, rounds, entry⟩⟩

def canFreshLoop (call : LoopCall) (s : LoopState) : Bool :=
  canLoop canvas cmp cpn params call s && decide (Fresh cpn parent params s)

variable {canvas cmp cpn parent params}

theorem canLoop_step {call : LoopCall} (hcan : canLoop canvas cmp cpn params call s = true) :
    LoopStep canvas cmp cpn params s (takeLoop canvas cmp params call s).1
      (takeLoop canvas cmp params call s).2 := by
  simp only [canLoop, Bool.and_eq_true, decide_eq_true_eq, canTurn] at hcan
  obtain ⟨⟨⟨hrunning, hsome⟩, hasked⟩, herror, hresult, hchecks, hreads, hends, hfailed⟩ := hcan
  obtain ⟨next, hnext⟩ := Option.isSome_iff_exists.mp hsome
  obtain ⟨asked, hask⟩ := Option.isSome_iff_exists.mp hasked
  have hturn : RunStep canvas s.run (takeLoop canvas cmp params call s).1.turn
      (takeLoop canvas cmp params call s).2.run := by
    rw [takeLoop, takeTurn, hnext]
    exact RunStep.turn hrunning hnext
  refine ⟨hturn, ?_, fun h => absurd h hresult, fun _ => hchecks, fun _ => hreads, ?_, fun _ => rfl,
    fun _ => hends, hfailed⟩
  · intro hcanceled
    rw [herror] at hcanceled
    cases hcanceled
  · intro _
    rw [takeLoop, hask]
    exact hask

variable {calls : List LoopCall}

theorem loops_run
    (hallowed : allowed (takeLoop canvas cmp params) (canLoop canvas cmp cpn params) calls s = true) :
    Run (LoopStep canvas cmp cpn params) s (execute (takeLoop canvas cmp params) calls [] s).1
      (execute (takeLoop canvas cmp params) calls [] s).2 := by
  apply execute_steps Run.nil hallowed
  intro call s hcan
  exact canLoop_step hcan

theorem freshLoops_run
    (hallowed : allowed (takeLoop canvas cmp params) (canFreshLoop canvas cmp cpn parent params) calls s = true) :
    Run (FreshStep canvas cmp cpn parent params) s (execute (takeLoop canvas cmp params) calls [] s).1
      (execute (takeLoop canvas cmp params) calls [] s).2 := by
  apply execute_steps Run.nil hallowed
  intro call s hcan
  rw [canFreshLoop, Bool.and_eq_true, decide_eq_true_eq] at hcan
  exact ⟨canLoop_step hcan.1, hcan.2⟩

end

def loopStart : Component :=
  { plainComponent "LoopItem:s" .loopItem ["Message:a"] [] with parentId := some "Loop:l" }

def sampleLoop (downstream : List String) : Component := plainComponent "Loop:l" .loop downstream []

/-- A Loop with one component in its body and a switch behind it that can lead back to it. -/
def loopCanvas : Canvas :=
  ⟨[plainComponent "begin" .begin ["Loop:l"] [], sampleLoop ["Switch:w"], loopStart,
    { plainComponent "Message:a" .other [] [] with parentId := some "Loop:l" },
    plainComponent "Switch:w" .switch [] []], by decide⟩

def sampleComparisons : Comparisons := ⟨fun a b => a = b, fun _ _ => none, fun _ _ => none⟩

def freshLoop : LoopState := ⟨startState [], ⟨0, false⟩⟩

def plainCall : LoopCall := ⟨[quiet], [], []⟩

def startCall (ended : Bool) : LoopCall :=
  ⟨[⟨false, [], ended⟩], [⟨false, false⟩], [⟨fun _ => some (.str "more")⟩]⟩

def onceParams : LoopParams := ⟨1, [], some "or"⟩

def onceTurns : List LoopTurn × LoopState :=
  execute (takeLoop loopCanvas sampleComparisons onceParams)
    [plainCall, plainCall, startCall false, plainCall, startCall true, plainCall] [] freshLoop

theorem sampleIsLoop : IsLoop loopCanvas loopStart (sampleLoop ["Switch:w"]) where
  known := by decide +kernel
  kind := rfl
  within := by decide +kernel
  container := rfl
  start := by decide +kernel

def andParams : LoopParams := ⟨1, [], none⟩

def andTurns : List LoopTurn × LoopState :=
  execute (takeLoop loopCanvas sampleComparisons andParams) [plainCall, plainCall, startCall true] [] freshLoop

def doneParams : LoopParams := ⟨1, [⟨"sys.query", "is", "constant", .str "done"⟩], none⟩

def againTurns : List LoopTurn × LoopState :=
  execute (takeLoop loopCanvas sampleComparisons doneParams)
    [plainCall, plainCall, startCall false, plainCall, startCall true,
      ⟨[⟨false, ["Loop:l"], false⟩], [], []⟩, plainCall, startCall false, plainCall, startCall false] []
    freshLoop

end MultiRag.Agent
