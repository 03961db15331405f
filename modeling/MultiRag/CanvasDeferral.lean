/-
  **What becomes of a deferred component.**

  A component that `_run_batch` does not find ready leaves the path, and it comes
  back only if post-processing puts it there again.
-/
import MultiRag.CanvasRun

namespace MultiRag.Agent

open List

variable {canvas : Canvas} {s₀ s s' : RunState} {t : Turn} {hist newer older : List Turn}

/-- What a turn puts on the path is run later, and what it hands over without putting
    it there has just run. -/
structure NothingLost (canvas : Canvas) (newer : List Turn) (t : Turn) : Prop where
  put : ∀ cpnId ∈ t.put, ∃ t' ∈ newer, cpnId ∈ t'.ran
  dropped : ∀ done ∈ t.done, ∀ cpnId ∈ handed canvas done.1 done.2,
    cpnId ∈ t.put ∨ cpnId ∈ t.ran

def PassesTest (canvas : Canvas) (t : Turn) (cpnId : String) : Prop :=
  ∃ front back kept cpn, t.batch = front ++ cpnId :: back ∧
    Batch canvas t.before.passed front kept ∧ canvas.get? cpnId = some cpn ∧
    cpn.ready (t.before.passed ++ kept) (cpnId :: back) = true

/-- A component that stands in a batch after the first and in no later one passes the
    test there. -/
def ReadyAtLast (canvas : Canvas) (newer : List Turn) (t : Turn) (older : List Turn) : Prop :=
  older ≠ [] → ∀ cpnId ∈ t.batch, (∀ t' ∈ newer, cpnId ∉ t'.batch) → PassesTest canvas t cpnId

variable {cpnId : String}

theorem passesTest_iff (hstep : RunStep canvas s t s') :
    PassesTest canvas t cpnId ↔ cpnId ∈ t.ran := by
  obtain ⟨rfl, -, -, hbatch, -⟩ := hstep.spec
  constructor
  · rintro ⟨front, back, kept, cpn, hsplit, hfront, hknown, hready⟩
    rw [hsplit] at hbatch
    obtain ⟨kept', ran', hran, hfront', hrest⟩ := hbatch.split
    obtain rfl := hfront.unique hfront'
    cases hrest with
    | started known ready next => simp [hran]
    | deferred known unready next =>
      rw [known] at hknown
      cases hknown
      rw [unready] at hready
      cases hready
  · intro hmem
    obtain ⟨front, back, kept, hsplit, hfront, cpn, hknown, hready⟩ := hbatch.place cpnId hmem
    exact ⟨front, back, kept, cpn, hsplit, hfront, hknown, hready⟩

theorem handed_put_or_ran (hwhole : t.Whole canvas) :
    ∀ done ∈ t.done, ∀ cpnId ∈ handed canvas done.1 done.2, cpnId ∈ t.put ∨ cpnId ∈ t.ran := by
  intro done hdone cpnId hmem
  exact (hwhole.put_or_last hdone hmem).imp id mem_of_getLast?

theorem next_batch {next : Turn} (hrun : Run (RunStep canvas) s₀ (newer ++ next :: t :: older) s)
    (hresult : s.status ≠ .raised) : next.batch = t.put := by
  obtain ⟨a, b, hprev, hnext, hrest⟩ := hrun.split
  cases hprev with
  | cons hprev' hstep =>
    obtain ⟨-, -, hpend, -⟩ := hstep.spec.next hnext.spec.running
    rw [batch_eq_pending hnext (not_raised_of_run hrest hresult), hpend]

theorem exists_last_batch {turns : List Turn} (h : ∃ t ∈ turns, cpnId ∈ t.batch) :
    ∃ newer t older, turns = newer ++ t :: older ∧ cpnId ∈ t.batch ∧
      ∀ t' ∈ newer, cpnId ∉ t'.batch := by
  obtain ⟨t, hmem, hbatch⟩ := h
  have hsome : (turns.find? (fun t => decide (cpnId ∈ t.batch))).isSome := by
    rw [find?_isSome]
    exact ⟨t, hmem, by simpa using hbatch⟩
  obtain ⟨last, hlast⟩ := Option.isSome_iff_exists.mp hsome
  obtain ⟨hlastBatch, newer, older, heq, hnewer⟩ := find?_eq_some_iff_append.mp hlast
  exact ⟨newer, last, older, heq, by simpa using hlastBatch, by simpa using hnewer⟩

/-- **Nothing is lost exactly when every component is ready in its last batch.** -/
theorem nothing_lost_iff {path : List String}
    (hrun : Run (RunStep canvas) (startState path) hist s) (hfinished : s.status = .finished) :
    (∀ newer t older, hist = newer ++ t :: older → NothingLost canvas newer t) ↔
      ∀ newer t older, hist = newer ++ t :: older → ReadyAtLast canvas newer t older := by
  have hresult : s.status ≠ .raised := by simp [hfinished]
  constructor
  · rintro hlost newer t older rfl hnotFirst cpnId hbatch hlater
    obtain ⟨previous, older', rfl⟩ := exists_cons_of_ne_nil hnotFirst
    have hput : cpnId ∈ previous.put := by
      rw [← next_batch hrun hresult]
      exact hbatch
    obtain ⟨t', hmem, hran⟩ := (hlost (newer ++ [t]) previous older' (by simp)).put cpnId hput
    obtain ⟨a, b, -, hstep, -⟩ := hrun.split
    rw [passesTest_iff hstep]
    rcases mem_append.mp hmem with hnewer | hsame
    · obtain ⟨front, back, heq⟩ := append_of_mem hnewer
      rw [heq, append_assoc, cons_append] at hrun
      obtain ⟨a', b', -, hstep', -⟩ := hrun.split
      exact absurd (hstep'.spec.ran.sublist.subset hran) (hlater t' hnewer)
    · rw [mem_singleton.mp hsame] at hran
      exact hran
  · rintro hready newer t older rfl
    obtain ⟨a, b, hprev, hstep, hrest⟩ := hrun.split
    refine ⟨?_, handed_put_or_ran (whole_of_step hstep (not_raised_of_run hrest hresult))⟩
    intro cpnId hput
    -- a later batch has the component, and it is ready in the last one
    have hlater : ∃ t' ∈ newer, cpnId ∈ t'.batch := by
      rcases eq_nil_or_concat newer with rfl | ⟨later, next, rfl⟩
      · cases hrest
        rw [put_eq_nil_of_finished hstep hfinished] at hput
        cases hput
      · rw [concat_eq_append] at hrun ⊢
        rw [append_assoc] at hrun
        refine ⟨next, by simp, ?_⟩
        rw [next_batch hrun hresult]
        exact hput
    obtain ⟨newest, last, between, rfl, hlast, hnewest⟩ := exists_last_batch hlater
    have hsplit : newest ++ last :: between ++ t :: older =
        newest ++ last :: (between ++ t :: older) := by simp
    have hpasses := hready newest last (between ++ t :: older) hsplit (by simp) cpnId hlast hnewest
    rw [hsplit] at hrun
    obtain ⟨a', b', -, hstep', -⟩ := hrun.split
    exact ⟨last, by simp, (passesTest_iff hstep').mp hpasses⟩

/-! ### A run -/

/-- `Message:m` is put on the path with `Agent:a` and reads `Message:b`, which comes
    after `Agent:a`. -/
def deferringCanvas : Canvas :=
  ⟨[plainComponent "begin" .begin ["Agent:a", "Message:m"] [],
    plainComponent "Agent:a" .other ["Message:b"] [],
    plainComponent "Message:b" .other [] [],
    plainComponent "Message:m" .other [] ["Message:b"]], by decide⟩

def retryingCanvas : Canvas :=
  ⟨[plainComponent "begin" .begin ["Agent:a", "Message:m"] [],
    plainComponent "Agent:a" .other ["Message:b"] [],
    plainComponent "Message:b" .other ["Message:m"] [],
    plainComponent "Message:m" .other [] ["Message:b"]], by decide⟩

def deferringTurns : List Turn × RunState :=
  execute (takeTurn deferringCanvas) [[quiet], [quiet], [quiet]] [] (startState [])

def retryingTurns : List Turn × RunState :=
  execute (takeTurn retryingCanvas) [[quiet], [quiet], [quiet], [quiet]] [] (startState [])

theorem nothing_lost_iff_retrying :
    retryingTurns.1.map Turn.ran = [["Message:m"], ["Message:b"], ["Agent:a"], ["begin"]] ∧
    ((∀ newer t older, retryingTurns.1 = newer ++ t :: older →
        NothingLost retryingCanvas newer t) ↔
      ∀ newer t older, retryingTurns.1 = newer ++ t :: older →
        ReadyAtLast retryingCanvas newer t older) :=
  ⟨by decide +kernel, nothing_lost_iff (turns_run (by decide +kernel)) (by decide +kernel)⟩

/-- `Message:m` is deferred, and the run finishes without it. -/
theorem deferred_and_lost :
    Run (RunStep deferringCanvas) (startState []) deferringTurns.1 deferringTurns.2 ∧
    deferringTurns.2.status = .finished ∧
    ¬ ∀ newer t older, deferringTurns.1 = newer ++ t :: older →
      NothingLost deferringCanvas newer t := by
  refine ⟨turns_run (by decide +kernel), by decide +kernel, ?_⟩
  intro h
  have hhist : ∃ newer t, deferringTurns.1 = newer ++ [t] ∧ "Message:m" ∈ t.put ∧
      ∀ t' ∈ newer, "Message:m" ∉ t'.ran :=
    ⟨deferringTurns.1.take 2, ⟨startState [], ["begin"], ["begin"], [quiet],
      ["Agent:a", "Message:m"]⟩, by decide +kernel⟩
  obtain ⟨newer, t, heq, hput, hnever⟩ := hhist
  obtain ⟨t', hmem, hran⟩ := (h newer t [] heq).put "Message:m" hput
  exact hnever t' hmem hran

end MultiRag.Agent
