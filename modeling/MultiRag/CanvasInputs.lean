/-
  **When a batch takes the inputs of a component.**

  The test of `_run_batch` looks for the references of a component anywhere in front
  of it on the path. That part of the path also holds what an earlier run of the
  canvas left there and what the same batch has only just started; and the test is
  off while the path begins with a form.
-/
import MultiRag.CanvasRun

namespace MultiRag.Agent

open List

variable {canvas : Canvas} {passed rest ran : List String} {start : Nat} {t : Turn}

/-! ### Finished inputs -/

/-- Every component whose inputs the batch takes refers only to components that an
    earlier batch of the run has run. -/
def InputsFinished (canvas : Canvas) (t : Turn) (older : List Turn) : Prop :=
  ∀ cpnId ∈ t.ran, ∀ cpn, canvas.get? cpnId = some cpn → cpn.kind.takesRunInputs = false →
    ∀ ref ∈ cpn.references, ∃ t' ∈ older, ref ∈ t'.ran

/-- The part of the path that this run has finished; `start` is where it began. -/
def Turn.finished (start : Nat) (t : Turn) : List String := t.before.passed.drop start

/-- The component takes no inputs of its own, or they have all finished. -/
def Supplied (canvas : Canvas) (start : Nat) (t : Turn) (cpnId : String) : Prop :=
  ∃ cpn, canvas.get? cpnId = some cpn ∧
    (cpn.kind.takesRunInputs = true ∨ ∀ ref ∈ cpn.references, ref ∈ t.finished start)

/-- A component of the batch is supplied when the path begins with a form or when its
    references are all on the path before the batch or are supplied components in
    front of it in the batch. -/
def NoneEarly (canvas : Canvas) (start : Nat) (t : Turn) : Prop :=
  ∀ front cpnId back cpn, t.batch = front ++ cpnId :: back → canvas.get? cpnId = some cpn →
    (fillUpHead t.before.path = true ∨ ∀ ref ∈ cpn.references,
      ref ∈ t.before.passed ∨ (ref ∈ front ∧ Supplied canvas start t ref)) →
    Supplied canvas start t cpnId

/-! ### One batch -/

/-- `NoneEarly` for what is left of a batch; `seen` are components in front of it. -/
def NoneEarlyFrom (canvas : Canvas) (start : Nat) (t : Turn) (seen rest : List String) : Prop :=
  ∀ front cpnId back cpn, rest = front ++ cpnId :: back → canvas.get? cpnId = some cpn →
    (fillUpHead t.before.path = true ∨ ∀ ref ∈ cpn.references,
      ref ∈ t.before.passed ∨ (ref ∈ seen ++ front ∧ Supplied canvas start t ref)) →
    Supplied canvas start t cpnId

/-- The path begins the same at every test of the batch. -/
def HeadFixed (t : Turn) (passed rest : List String) : Prop :=
  ∀ front kept cpnId back, rest = front ++ cpnId :: back → kept.Sublist front →
    fillUpHead (passed ++ kept ++ cpnId :: back) = fillUpHead t.before.path

variable {cpnId : String}

section

variable (h : HeadFixed t passed (cpnId :: rest))
include h

theorem HeadFixed.started :
    HeadFixed t (passed ++ [cpnId]) rest := by
  intro front kept next back hrest hkept
  have hhead := h (cpnId :: front) (cpnId :: kept) next back (by simp [hrest]) (hkept.cons_cons _)
  simpa using hhead

theorem HeadFixed.deferred :
    HeadFixed t passed rest := by
  intro front kept next back hrest hkept
  exact h (cpnId :: front) kept next back (by simp [hrest]) (hkept.cons _)

theorem ready_iff {cpn : Component} :
    cpn.ready passed (cpnId :: rest) = true ↔ cpn.kind.takesRunInputs = true ∨
      fillUpHead t.before.path = true ∨ ∀ ref ∈ cpn.references, ref ∈ passed := by
  have hhead := h [] [] cpnId rest rfl (Sublist.refl _)
  rw [append_nil] at hhead
  unfold Component.ready
  rw [Bool.or_eq_true, hhead]
  apply or_congr Iff.rfl
  by_cases hfill : fillUpHead t.before.path = true
  · simp [hfill]
  · simp [hfill]

end

theorem supplied_of_noneEarly (kept seen : List String) (hbatch : Batch canvas passed rest ran)
    (hpassed : passed = t.before.passed ++ kept) (hhead : HeadFixed t passed rest)
    (hkept : ∀ x ∈ kept, x ∈ seen ∧ Supplied canvas start t x)
    (hearly : NoneEarlyFrom canvas start t seen rest) :
    ∀ cpnId ∈ ran, Supplied canvas start t cpnId := by
  induction hbatch generalizing kept seen with
  | nil => simp
  | @started passed rest ran cpnId cpn known ready next ih =>
    have hsupplied : Supplied canvas start t cpnId := by
      rcases (ready_iff hhead).mp ready with htakes | hready
      · exact ⟨cpn, known, .inl htakes⟩
      · refine hearly [] cpnId rest cpn rfl known (hready.imp id ?_)
        intro hrefs ref href
        rw [hpassed] at hrefs
        rcases mem_append.mp (hrefs ref href) with hold | hnew
        · exact .inl hold
        · exact .inr (by simpa using hkept ref hnew)
    intro x hx
    rcases mem_cons.mp hx with rfl | hx
    · exact hsupplied
    · refine ih (kept ++ [cpnId]) (seen ++ [cpnId]) (by simp [hpassed]) hhead.started ?_ ?_ x hx
      · intro y hy
        rcases mem_append.mp hy with hy | hy
        · exact ⟨mem_append_left _ (hkept y hy).1, (hkept y hy).2⟩
        · rw [mem_singleton.mp hy]
          exact ⟨by simp, hsupplied⟩
      · intro front c back cpn' hrest hget hrefs
        apply hearly (cpnId :: front) c back cpn' (by simp [hrest]) hget
        simpa using hrefs
  | @deferred passed rest ran cpnId cpn known unready next ih =>
    refine ih kept (seen ++ [cpnId]) hpassed hhead.deferred ?_ ?_
    · exact fun y hy => ⟨mem_append_left _ (hkept y hy).1, (hkept y hy).2⟩
    · intro front c back cpn' hrest hget hrefs
      apply hearly (cpnId :: front) c back cpn' (by simp [hrest]) hget
      simpa using hrefs

theorem noneEarly_of_supplied (kept : List String) (hbatch : Batch canvas passed rest ran)
    (hpassed : passed = t.before.passed ++ kept) (hhead : HeadFixed t passed rest)
    (hfin : ∀ x ∈ t.finished start, x ∈ t.before.passed)
    (hran : ∀ cpnId ∈ ran, Supplied canvas start t cpnId) :
    NoneEarlyFrom canvas start t kept rest := by
  induction hbatch generalizing kept with
  | nil =>
    intro front cpnId back cpn hrest
    simp at hrest
  | @started passed rest ran cpnId cpn known ready next ih =>
    have hnext := ih (kept ++ [cpnId]) (by simp [hpassed]) hhead.started
      (fun x hx => hran x (mem_cons_of_mem _ hx))
    intro front c back cpn' hrest hget hrefs
    rcases cons_eq_append_iff.mp hrest with ⟨rfl, hback⟩ | ⟨front', rfl, hrest'⟩
    · cases hback
      exact hran _ mem_cons_self
    · exact hnext front' c back cpn' hrest' hget (by simpa using hrefs)
  | @deferred passed rest ran cpnId cpn known unready next ih =>
    have hunready : ¬ Supplied canvas start t cpnId := by
      rintro ⟨cpn', hget, hsupplied⟩
      rw [known] at hget
      cases hget
      rw [Bool.eq_false_iff] at unready
      apply unready
      rw [ready_iff hhead]
      refine hsupplied.imp id (fun hrefs => .inr ?_)
      intro ref href
      rw [hpassed]
      exact mem_append_left _ (hfin ref (hrefs ref href))
    have hnext := ih kept hpassed hhead.deferred hran
    intro front c back cpn' hrest hget hrefs
    rcases cons_eq_append_iff.mp hrest with ⟨rfl, hback⟩ | ⟨front', rfl, hrest'⟩
    · -- a component that would get through does not fail the test
      cases hback
      rw [known] at hget
      cases hget
      exfalso
      rw [Bool.eq_false_iff] at unready
      apply unready
      rw [ready_iff hhead]
      refine .inr (hrefs.imp id ?_)
      intro hrefs ref href
      rw [hpassed]
      rcases hrefs ref href with hold | ⟨hkept, -⟩
      · exact mem_append_left _ hold
      · exact mem_append_right _ (by simpa using hkept)
    · refine hnext front' c back cpn' hrest' hget (hrefs.imp id ?_)
      intro hrefs ref href
      refine (hrefs ref href).imp id (fun hmem => ⟨?_, hmem.2⟩)
      have hne : ref ≠ cpnId := by
        rintro rfl
        exact hunready hmem.2
      simpa [hne] using hmem.1

variable {s₀ s s' : RunState} {hist newer older : List Turn}

theorem headFixed_of_step (hstep : RunStep canvas s t s')
    (hfirst : s.passed ≠ [] ∨ ∃ cpnId, s.pending = [cpnId]) : HeadFixed t s.passed t.batch := by
  obtain ⟨hbefore, -, hreached, -, -⟩ := hstep.spec
  have hpath : t.before.path = s.passed ++ s.pending := by
    rw [hbefore]
    exact (take_append_drop s.idx s.path).symm
  intro front kept cpnId back hrest hkept
  rw [hpath]
  rcases hfirst with hpassed | ⟨first, hpend⟩
  · obtain ⟨head, tail, heq⟩ := exists_cons_of_ne_nil hpassed
    simp [heq, fillUpHead]
  · -- the first batch of a run has one component
    rw [hpend, hrest] at hreached
    have hlength := hreached.length_le
    simp only [length_append, length_cons, length_nil] at hlength
    obtain rfl : front = [] := length_eq_zero_iff.mp (by omega)
    obtain rfl : back = [] := length_eq_zero_iff.mp (by omega)
    obtain rfl : kept = [] := sublist_nil.mp hkept
    obtain rfl : cpnId = first := by simpa using hreached
    simp [hpend]

theorem first_of_run (hrun : Run (RunStep canvas) s₀ hist s) (hrunning : s.status = .running)
    (hstart : ∃ cpnId, s₀.pending = [cpnId]) :
    s.passed ≠ [] ∨ ∃ cpnId, s.pending = [cpnId] := by
  cases hrun with
  | nil => exact .inr hstart
  | cons hprev hstep =>
    obtain ⟨-, hpassed, -, -, hran, -⟩ := hstep.spec.next hrunning
    left
    rw [hpassed]
    simp [hran]

theorem mem_finished_iff (hprev : Run (RunStep canvas) s₀ older s) (hstep : RunStep canvas s t s')
    {ref : String} : ref ∈ t.finished s₀.passed.length ↔ ∃ t' ∈ older, ref ∈ t'.ran := by
  obtain ⟨hbefore, hrunning, -, -, -⟩ := hstep.spec
  rw [Turn.finished, hbefore, passed_of_run hprev hrunning, drop_left]
  simp

theorem inputsFinished_iff_of_step (hstart : ∃ cpnId, s₀.pending = [cpnId])
    (hprev : Run (RunStep canvas) s₀ older s) (hstep : RunStep canvas s t s') :
    InputsFinished canvas t older ↔ NoneEarly canvas s₀.passed.length t := by
  obtain ⟨hbefore, hrunning, -, hbatch, -⟩ := hstep.spec
  have hhead := headFixed_of_step hstep (first_of_run hprev hrunning hstart)
  have hpassed : s.passed = t.before.passed ++ [] := by simp [hbefore]
  have hfin : InputsFinished canvas t older ↔
      ∀ cpnId ∈ t.ran, Supplied canvas s₀.passed.length t cpnId := by
    constructor
    · intro h cpnId hmem
      obtain ⟨cpn, hknown⟩ := hbatch.known cpnId (hbatch.sublist.subset hmem)
      refine ⟨cpn, hknown, ?_⟩
      by_cases htakes : cpn.kind.takesRunInputs = true
      · exact .inl htakes
      · refine .inr (fun ref href => (mem_finished_iff hprev hstep).mpr ?_)
        exact h cpnId hmem cpn hknown (by simpa using htakes) ref href
    · intro h cpnId hmem cpn hknown htakes ref href
      obtain ⟨cpn', hknown', hsupplied⟩ := h cpnId hmem
      rw [hknown] at hknown'
      cases hknown'
      rcases hsupplied with htakes' | hrefs
      · rw [htakes] at htakes'
        cases htakes'
      · exact (mem_finished_iff hprev hstep).mp (hrefs ref href)
  rw [hfin]
  constructor
  · intro h
    exact noneEarly_of_supplied [] hbatch hpassed hhead (fun x hx => mem_of_mem_drop hx) h
  · intro h
    exact supplied_of_noneEarly [] [] hbatch hpassed hhead (by simp) h

/-- **Inputs are finished exactly when no component gets through early.** -/
theorem inputs_finished_iff {path : List String}
    (hrun : Run (RunStep canvas) (startState path) hist s) :
    (∀ newer t older, hist = newer ++ t :: older → InputsFinished canvas t older) ↔
      ∀ t ∈ hist, NoneEarly canvas (startState path).idx t := by
  obtain ⟨first, hpending, hlength⟩ := startState_pending path
  have hstep : ∀ newer t older, hist = newer ++ t :: older →
      (InputsFinished canvas t older ↔ NoneEarly canvas (startState path).idx t) := by
    rintro newer t older rfl
    obtain ⟨a, b, hprev, hstep, -⟩ := hrun.split
    rw [← hlength]
    exact inputsFinished_iff_of_step ⟨first, hpending⟩ hprev hstep
  constructor
  · intro h t hmem
    obtain ⟨newer, older, heq⟩ := append_of_mem hmem
    exact (hstep newer t older heq).mp (h newer t older heq)
  · intro h newer t older heq
    exact (hstep newer t older heq).mpr (h t (by simp [heq]))

/-! ### A run -/

/-- `Message:m` reads `Agent:a`, which Begin starts in an earlier batch. -/
def chainCanvas : Canvas :=
  ⟨[plainComponent "begin" .begin ["Agent:a"] [],
    plainComponent "Agent:a" .other ["Message:m"] [],
    plainComponent "Message:m" .other [] ["Agent:a"]], by decide⟩

/-- Begin starts `Agent:a` and `Message:m`, which reads it, in one batch. -/
def togetherCanvas : Canvas :=
  ⟨[plainComponent "begin" .begin ["Agent:a", "Message:m"] [],
    plainComponent "Agent:a" .other [] [],
    plainComponent "Message:m" .other [] ["Agent:a"]], by decide⟩

def chainTurns : List Turn × RunState :=
  execute (takeTurn chainCanvas) [[quiet], [quiet], [quiet]] [] (startState [])

def togetherTurns : List Turn × RunState :=
  execute (takeTurn togetherCanvas) [[quiet], [quiet, quiet]] [] (startState [])

theorem inputs_finished_iff_chain :
    chainTurns.1.map Turn.ran = [["Message:m"], ["Agent:a"], ["begin"]] ∧
    ((∀ newer t older, chainTurns.1 = newer ++ t :: older → InputsFinished chainCanvas t older) ↔
      ∀ t ∈ chainTurns.1, NoneEarly chainCanvas (startState []).idx t) :=
  ⟨by decide +kernel, inputs_finished_iff (turns_run (by decide +kernel))⟩

/-- The batch that starts `Agent:a` takes the inputs of `Message:m` from it. -/
theorem started_together :
    Run (RunStep togetherCanvas) (startState []) togetherTurns.1 togetherTurns.2 ∧
    ¬ ∀ newer t older, togetherTurns.1 = newer ++ t :: older →
      InputsFinished togetherCanvas t older := by
  refine ⟨turns_run (by decide +kernel), ?_⟩
  intro h
  have hhist : togetherTurns.1 =
      [] ++ ⟨⟨["begin", "Agent:a", "Message:m"], 1, .running⟩, ["Agent:a", "Message:m"],
        ["Agent:a", "Message:m"], [quiet, quiet], []⟩ ::
      [⟨startState [], ["begin"], ["begin"], [quiet], ["Agent:a", "Message:m"]⟩] := by
    decide +kernel
  have hread := h _ _ _ hhist "Message:m" (by simp)
    (plainComponent "Message:m" .other [] ["Agent:a"]) (by decide +kernel) rfl "Agent:a"
    (by simp [plainComponent])
  simp at hread

end MultiRag.Agent
