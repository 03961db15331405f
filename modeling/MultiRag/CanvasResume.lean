/-
  **Pause and resume.**

  A pause saves the pending components as the path, forms first. The next run looks
  at the last of them only: if its id names a form the run goes on there, and it
  starts again at `begin` otherwise.
-/
import MultiRag.CanvasRun

namespace MultiRag.Agent

open List

variable {canvas : Canvas} {s₀ s s' : RunState} {t : Turn} {hist newer older : List Turn}

/-- The resumed run runs every pending component once, before what is downstream of
    it, and does not begin with Begin.  (An edge back to Begin is the canvas's own.) -/
structure ResumesAll (canvas : Canvas) (pending : List String) (hist : List Turn) : Prop where
  once : ∀ cpnId ∈ pending, (hist.flatMap Turn.ran).count cpnId = 1
  before : ∀ cpnId ∈ pending, ∀ cpn, canvas.get? cpnId = some cpn →
    ∀ next ∈ cpn.downstream, next ≠ cpnId →
      ∀ newer t older, hist = newer ++ t :: older → next ∈ t.ran → ∃ t' ∈ older, cpnId ∈ t'.ran
  notBegin : ∀ newer t, hist = newer ++ [t] → "begin" ∉ t.ran

/-! ### The first batch of a run -/

variable {path : List String}

theorem startState_pending_of_fillUp {last : String}
    (hlast : path.getLast? = some last) (hfill : fillUpId last = true) :
    (startState path).pending = [last] := by
  obtain ⟨front, rfl⟩ := getLast?_eq_some_iff.mp hlast
  simp [startState, hfill, RunState.pending]

theorem startState_pending_of_other
    (hother : path.getLast?.any fillUpId = false) : (startState path).pending = ["begin"] := by
  simp [startState, hother, RunState.pending]

theorem isFillUp_of_later (hrun : Run (RunStep canvas) s₀ (newer ++ t :: older) s)
    (hlater : older ≠ []) : ∀ cpnId ∈ t.ran, canvas.isFillUp cpnId = false := by
  obtain ⟨a, b, hprev, hstep, -⟩ := hrun.split
  cases hprev with
  | nil => exact absurd rfl hlater
  | cons hprev' hbefore =>
    obtain ⟨-, -, hpend, -, -, hforms⟩ := hbefore.spec.next hstep.spec.running
    intro cpnId hmem
    apply hforms
    rw [← hpend]
    exact hstep.spec.reached.subset (hstep.spec.ran.sublist.subset hmem)

variable {cpnId : String}

theorem ran_first_of_isFillUp (hrun : Run (RunStep canvas) s₀ hist s)
    (hform : canvas.isFillUp cpnId = true) (hmem : t ∈ hist) (hran : cpnId ∈ t.ran) :
    ∃ newer, hist = newer ++ [t] := by
  obtain ⟨newer, older, rfl⟩ := append_of_mem hmem
  by_cases holder : older = []
  · exact ⟨newer, by rw [holder]⟩
  · rw [isFillUp_of_later hrun holder cpnId hran] at hform
    cases hform

theorem first_ran_of_isFillUp (hstep : RunStep canvas s t s') (hresult : s'.status ≠ .raised) (hpend : s.pending = [cpnId]) (hform : canvas.isFillUp cpnId = true) :
    t.ran = [cpnId] := by
  have hbatch := hstep.spec.ran
  rw [batch_eq_pending hstep hresult, hpend] at hbatch
  generalize t.ran = ran at hbatch ⊢
  cases hbatch with
  | started known ready next =>
    cases next
    rfl
  | @deferred _ _ _ _ cpn known unready next =>
    simp only [Canvas.isFillUp, known, Option.any_some, decide_eq_true_eq] at hform
    simp [Component.ready, hform, ComponentKind.takesRunInputs] at unready

/-! ### Pauses -/

theorem paused_path (hrun : Run (RunStep canvas) s₀ (t :: older) s) (hpaused : s.status = .paused) :
    s.path = pausePath canvas t.put ∧ ∃ form ∈ t.put, canvas.isFillUp form = true := by
  cases hrun with
  | cons hprev hstep =>
    rcases hstep.spec.ends with ⟨hraised, -⟩ | ⟨-, -, -, hfailed | hend⟩
    · rw [hpaused] at hraised
      cases hraised
    · rw [hpaused] at hfailed
      cases hfailed
    · cases hend with
      | running pending noForm => cases hpaused
      | finished done => cases hpaused
      | paused form => exact ⟨rfl, form⟩

theorem isFillUp_of_last {pending : List String} {form : String}
    (hlast : (pausePath canvas pending).getLast? = some form) (hform : canvas.isFillUp form = true) :
    ∀ cpnId ∈ pending, canvas.isFillUp cpnId = true := by
  intro cpnId hmem
  by_contra hother
  have hnonempty : pending.filter (fun cpnId => !canvas.isFillUp cpnId) ≠ [] :=
    ne_nil_of_mem (List.mem_filter.mpr ⟨hmem, by simpa using hother⟩)
  rw [pausePath, getLast?_append, getLast?_eq_some_getLast hnonempty] at hlast
  cases hlast
  have hlastOther := getLast_mem hnonempty
  rw [List.mem_filter, hform] at hlastOther
  simp at hlastOther

theorem mem_pausePath (canvas : Canvas) {pending : List String} :
    cpnId ∈ pausePath canvas pending ↔ cpnId ∈ pending := by
  rw [pausePath, mem_append, List.mem_filter, List.mem_filter]
  by_cases hform : canvas.isFillUp cpnId = true
  · simp [hform]
  · simp [hform]

variable {pending : List String} {form : String}

theorem exists_first (hrun : Run (RunStep canvas) s₀ hist s) (hstart : s₀.status = .running)
    (hended : s.status ≠ .running) (hresult : s.status ≠ .raised) :
    ∃ newer t s', hist = newer ++ [t] ∧ RunStep canvas s₀ t s' ∧ s'.status ≠ .raised := by
  rcases eq_nil_or_concat hist with rfl | ⟨newer, t, rfl⟩
  · cases hrun
    exact absurd hstart hended
  · rw [concat_eq_append] at hrun ⊢
    obtain ⟨a, b, hprev, hstep, hrest⟩ := Run.split hrun
    cases hprev
    exact ⟨newer, t, b, rfl, hstep, not_raised_of_run hrest hresult⟩

theorem resumesAll_of_form (hrun : Run (RunStep canvas) s₀ (newer ++ [t]) s)
    (hform : canvas.isFillUp form = true) (hran : t.ran = [form]) (hfill : fillUpId form = true)
    (hpend : ∀ cpnId ∈ pending, cpnId = form) : ResumesAll canvas pending (newer ++ [t]) := by
  have hnever : form ∉ newer.flatMap Turn.ran := by
    intro hmem
    obtain ⟨t', ht', hran'⟩ := mem_flatMap.mp hmem
    obtain ⟨front, back, rfl⟩ := append_of_mem ht'
    have hrun' : Run (RunStep canvas) s₀ (front ++ t' :: (back ++ [t])) s := by simpa using hrun
    have hlater := isFillUp_of_later hrun' (by simp) form hran'
    rw [hform] at hlater
    cases hlater
  refine ⟨?_, ?_, ?_⟩
  · intro cpnId hmem
    rw [hpend cpnId hmem, flatMap_append, count_append, count_eq_zero.mpr hnever]
    simp [hran]
  · intro cpnId hmem cpn hknown next hnext hne newer' t' older' heq hnextRan
    rw [hpend cpnId hmem] at hne ⊢
    rcases eq_nil_or_concat older' with rfl | ⟨front, first, rfl⟩
    · obtain ⟨-, hsame⟩ := append_inj' heq rfl
      cases hsame
      rw [hran, mem_singleton] at hnextRan
      exact absurd hnextRan hne
    · rw [concat_eq_append] at heq ⊢
      rw [← cons_append, ← append_assoc] at heq
      obtain ⟨-, hsame⟩ := append_inj' heq rfl
      cases hsame
      exact ⟨t, by simp, by simp [hran]⟩
  · intro newer' t' heq
    obtain ⟨-, hsame⟩ := append_inj' heq rfl
    cases hsame
    rw [hran, mem_singleton]
    rintro rfl
    revert hfill
    decide +kernel

/-- **A resume runs what was pending exactly when that is one form with the id of
    one.** -/
theorem resumes_all_iff {path : List String} {paused : RunState}
    (hpause : Run (RunStep canvas) (startState path) (t :: older) paused)
    (hpaused : paused.status = .paused)
    (hresume : Run (RunStep canvas) (startState paused.path) hist s)
    (hended : s.status ≠ .running) (hresult : s.status ≠ .raised) :
    ResumesAll canvas t.put hist ↔
      ∃ form, fillUpId form = true ∧ ∀ cpnId ∈ t.put, cpnId = form := by
  obtain ⟨hpath, form, hmem, hform⟩ := paused_path hpause hpaused
  obtain ⟨newer, first, s', rfl, hstep, hfirstResult⟩ := exists_first hresume rfl hended hresult
  constructor
  · intro hall
    -- a form that runs is what the first batch begins with
    have hfirst : ∀ cpnId ∈ t.put, canvas.isFillUp cpnId = true → cpnId ∈ first.ran := by
      intro cpnId hmem hform
      have hcount := hall.once cpnId hmem
      have hran : cpnId ∈ (newer ++ [first]).flatMap Turn.ran := by
        rw [← count_pos_iff]
        omega
      obtain ⟨t', ht', hran'⟩ := mem_flatMap.mp hran
      obtain ⟨front, heq⟩ := ran_first_of_isFillUp hresume hform ht' hran'
      obtain ⟨-, hsame⟩ := append_inj' heq rfl
      cases hsame
      exact hran'
    have hstarts : ∀ cpnId ∈ first.ran, cpnId ∈ (startState paused.path).pending :=
      fun cpnId hran => hstep.spec.reached.subset (hstep.spec.ran.sublist.subset hran)
    cases hlast : paused.path.getLast?.any fillUpId with
    | false =>
      have hbegin := hstarts form (hfirst form hmem hform)
      rw [startState_pending_of_other hlast, mem_singleton] at hbegin
      have hnotBegin := hall.notBegin newer first rfl
      rw [← hbegin] at hnotBegin
      exact absurd (hfirst form hmem hform) hnotBegin
    | true =>
      obtain ⟨last, hlastEq, hfill⟩ := (Option.any_eq_true _ _).mp hlast
      rw [startState_pending_of_fillUp hlastEq hfill] at hstarts
      have hsame : ∀ cpnId ∈ t.put, canvas.isFillUp cpnId = true → cpnId = last :=
        fun cpnId hmem hform => mem_singleton.mp (hstarts cpnId (hfirst cpnId hmem hform))
      rw [hpath] at hlastEq
      have hforms : ∀ cpnId ∈ t.put, canvas.isFillUp cpnId = true :=
        isFillUp_of_last hlastEq (hsame form hmem hform ▸ hform)
      exact ⟨last, hfill, fun cpnId hcpn => hsame cpnId hcpn (hforms cpnId hcpn)⟩
  · rintro ⟨only, hfill, hpending⟩
    obtain rfl : form = only := hpending form hmem
    have hnonempty : paused.path ≠ [] := by
      rw [hpath]
      exact ne_nil_of_mem ((mem_pausePath canvas).mpr hmem)
    have hlast : paused.path.getLast? = some form := by
      rw [getLast?_eq_some_getLast hnonempty, Option.some.injEq]
      apply hpending
      rw [← mem_pausePath canvas, ← hpath]
      exact getLast_mem hnonempty
    have hran := first_ran_of_isFillUp hstep hfirstResult
      (startState_pending_of_fillUp hlast hfill) hform
    exact resumesAll_of_form hresume hform hran hfill hpending

/-! ### Two forms -/

def twoFormsCanvas : Canvas :=
  ⟨[plainComponent "begin" .begin ["UserFillUp:a", "UserFillUp:b"] [],
    plainComponent "UserFillUp:a" .userFillUp ["Message:a"] [],
    plainComponent "UserFillUp:b" .userFillUp [] [],
    plainComponent "Message:a" .other [] []], by decide⟩

def oneFormCanvas : Canvas :=
  ⟨[plainComponent "begin" .begin ["UserFillUp:a"] [],
    plainComponent "UserFillUp:a" .userFillUp ["Message:a"] [],
    plainComponent "Message:a" .other [] []], by decide⟩

def pausedTurns (canvas : Canvas) : List Turn × RunState :=
  execute (takeTurn canvas) [[quiet]] [] (startState [])

def resumedTurns (canvas : Canvas) (calls : List (List Outcome)) : List Turn × RunState :=
  execute (takeTurn canvas) calls [] (startState (pausedTurns canvas).2.path)

theorem resumes_all_iff_oneForm :
    (resumedTurns oneFormCanvas [[quiet], [quiet]]).1.map Turn.ran =
      [["Message:a"], ["UserFillUp:a"]] ∧
    (ResumesAll oneFormCanvas ["UserFillUp:a"] (resumedTurns oneFormCanvas [[quiet], [quiet]]).1 ↔
      ∃ form, fillUpId form = true ∧ ∀ cpnId ∈ ["UserFillUp:a"], cpnId = form) := by
  refine ⟨by decide +kernel, ?_⟩
  have hpause : Run (RunStep oneFormCanvas) (startState [])
      [⟨startState [], ["begin"], ["begin"], [quiet], ["UserFillUp:a"]⟩]
      (pausedTurns oneFormCanvas).2 := by
    have hhist : (pausedTurns oneFormCanvas).1 =
        [⟨startState [], ["begin"], ["begin"], [quiet], ["UserFillUp:a"]⟩] := by decide +kernel
    rw [← hhist]
    exact turns_run (by decide +kernel)
  exact resumes_all_iff hpause (by decide +kernel) (turns_run (by decide +kernel))
    (by decide +kernel) (by decide +kernel)

/-- Of two pending forms the resumed run runs the second only. -/
theorem second_form_only :
    Run (RunStep twoFormsCanvas) (startState []) (pausedTurns twoFormsCanvas).1
      (pausedTurns twoFormsCanvas).2 ∧
    (pausedTurns twoFormsCanvas).2.status = .paused ∧
    (pausedTurns twoFormsCanvas).1.map Turn.put = [["UserFillUp:a", "UserFillUp:b"]] ∧
    Run (RunStep twoFormsCanvas) (startState (pausedTurns twoFormsCanvas).2.path)
      (resumedTurns twoFormsCanvas [[quiet]]).1 (resumedTurns twoFormsCanvas [[quiet]]).2 ∧
    (resumedTurns twoFormsCanvas [[quiet]]).2.status = .finished ∧
    ¬ ResumesAll twoFormsCanvas ["UserFillUp:a", "UserFillUp:b"]
      (resumedTurns twoFormsCanvas [[quiet]]).1 := by
  refine ⟨turns_run (by decide +kernel), by decide +kernel, by decide +kernel,
    turns_run (by decide +kernel), by decide +kernel, ?_⟩
  intro hall
  have honce := hall.once "UserFillUp:a" (by simp)
  have hnever : ((resumedTurns twoFormsCanvas [[quiet]]).1.flatMap Turn.ran).count
      "UserFillUp:a" = 0 := by decide +kernel
  omega

end MultiRag.Agent
