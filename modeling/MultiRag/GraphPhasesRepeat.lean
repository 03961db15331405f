/-
  **A run that is repeated performs no phase again.**

  `Ready` is what a finished run leaves. Read back, the stored graph has the digest of its
  markers, so a run with the same inputs builds and merges nothing and skips every phase it is
  asked for (`Quiet`), unless a marker cannot be read.
-/
import MultiRag.GraphPhasesLive

namespace MultiRag.GraphRag.Phases

open List Function
open Option (some.inj)

variable {δ : Type} {D : Deployment δ} {s s' s₀ : KbState δ} {cur : Option Graph} {inputs : Inputs}

/-! ### The next run -/

def RunStep [DecidableEq δ] (D : Deployment δ) (s : KbState δ) (a : Action) (s' : KbState δ) : Prop :=
  KbState.Step D s a s' ∧ a.ofRuns = true

/-- A step of runs with these inputs whose reads of the markers are answered. -/
def RepeatStep [DecidableEq δ] (D : Deployment δ) (inputs : Inputs) (s : KbState δ) (a : Action)
    (s' : KbState δ) : Prop :=
  KbState.Step D s a s' ∧ a.Repeats inputs

/-- What a finished run leaves to the next one with the same inputs. -/
structure Ready (D : Deployment δ) (s : KbState δ) (cur : Option Graph) (inputs : Inputs) : Prop where
  checkpointed : Checkpointed s.store cur
  covered : inputs.documents ≠ [] → ∀ docId ∈ inputs.documents, Covered s.store cur inputs docId
  found : inputs.documents ≠ [] → ∀ g, cur = some g → ∀ phase, Found D s.markers inputs phase (D.reread g)

theorem ready_of_finished {final : Option Graph} (h : LiveInv D s)
    (hproc : s.process = some (inputs, .finished final)) : ∃ cur, Ready D s cur inputs := by
  obtain ⟨cur, hlive, hstage⟩ := h
  have hfin := hstage _ _ hproc
  refine ⟨cur, hlive.checkpointed, ?_, ?_⟩
  · intro hne
    cases final with
    | none => exact (hfin.resolve_left hne).2
    | some final => exact hfin.1.covered
  · intro hne g hcur phase
    cases final with
    | none =>
      rw [(hfin.resolve_left hne).1] at hcur
      cases hcur
    | some final =>
      obtain ⟨g', hcur', hsame⟩ := hfin.1.same
      obtain rfl : g' = g := some.inj (hcur'.symm.trans hcur)
      intro hreq
      rw [phaseRevision_congr D ((D.rereadSame g').trans hsame.symm)]
      cases phase with
      | resolution => exact hfin.1.found rfl hreq
      | community => exact hfin.2 hreq

def QuietStage (D : Deployment δ) (cur : Option Graph) (inputs : Inputs) : Stage → Prop
  | .building persisted build => inputs.documents ≠ [] ∧ persisted = cur.map D.reread ∧
      ∀ docId, build docId = .waiting ∨ build docId = .done none
  | .merging final _ remaining failed _ attempt => inputs.documents ≠ [] ∧ remaining = [] ∧
      failed = false ∧ attempt = none ∧ ∃ g, cur = some g ∧ final = some (D.reread g)
  | .checking _ final => inputs.documents ≠ [] ∧ ∃ g, cur = some g ∧ final = D.reread g
  | .finished _ => True
  | _ => False

/-- Nothing has been written since `s₀`, and the run is on its way to the end. -/
structure Quiet (D : Deployment δ) (s₀ : KbState δ) (cur : Option Graph) (inputs : Inputs) (s : KbState δ) :
    Prop where
  store : s.store = s₀.store
  reports : s.reports = s₀.reports
  markers : s.markers = s₀.markers
  completions : s.completions = s₀.completions
  process : ∀ inputs' stage, s.process = some (inputs', stage) → inputs' = inputs ∧ QuietStage D cur inputs stage

theorem Quiet.goOn (h : Quiet D s₀ cur inputs s) {stage : Stage} (hstage : QuietStage D cur inputs stage) :
    Quiet D s₀ cur inputs (s.goOn inputs stage) := { h with
  process inputs' stage' hproc := by
    obtain ⟨rfl, rfl⟩ := hproc
    exact ⟨rfl, hstage⟩ }

theorem Quiet.ended (h : Quiet D s₀ cur inputs s) : Quiet D s₀ cur inputs s.ended :=
  ⟨h.store, h.reports, h.markers, h.completions, fun _ _ hproc => by cases hproc⟩

theorem quiet_start (hready : Ready D s₀ cur inputs) (h : Quiet D s₀ cur inputs s)
    (hstep : KbState.start D inputs s = some s') : Quiet D s₀ cur inputs s' := by
  unfold KbState.start at hstep
  split at hstep
  · cases hstep
  · split at hstep
    · cases hstep
      exact h.goOn trivial
    · next hne =>
      rw [h.store, getGraph_checkpointed hready.checkpointed] at hstep
      cases hstep
      exact h.goOn ⟨by simpa using hne, rfl, fun _ => .inl rfl⟩

variable {docId : String}

theorem quiet_load (hready : Ready D s₀ cur inputs) (h : Quiet D s₀ cur inputs s)
    (hstep : s.load docId = some s') : Quiet D s₀ cur inputs s' := by
  unfold KbState.load at hstep
  split at hstep
  · next inputs' persisted build hproc =>
    obtain ⟨rfl, hne, rfl, hbuild⟩ := h.process _ _ hproc
    split at hstep
    · next hwait =>
      rw [Bool.and_eq_true, contains_iff_mem] at hwait
      have hdone : Quiet D s₀ cur inputs'
          (s.goOn inputs' (.building (cur.map D.reread) (update build docId (.done none)))) := by
        refine h.goOn ⟨hne, rfl, fun other => ?_⟩
        by_cases heq : other = docId
        · subst heq
          exact .inr (Function.update_self ..)
        · rw [Function.update_of_ne heq]
          exact hbuild other
      split at hstep
      · exact some.inj hstep ▸ hdone
      · next hnew =>
        rw [(reads_reread cur).documents, contains_iff_mem] at hnew
        obtain ⟨hchunks, hnone⟩ := (hready.covered hne docId hwait.1).resolve_left hnew
        rw [h.store, loadSubgraph_eq_none.mpr hnone] at hstep
        simp only [hchunks, Bool.false_eq_true, if_false] at hstep
        exact some.inj hstep ▸ hdone
    · cases hstep
  · cases hstep

theorem quiet_merge (h : Quiet D s₀ cur inputs s) (hstep : s.merge = some s') :
    Quiet D s₀ cur inputs s' := by
  unfold KbState.merge at hstep
  split at hstep
  · next inputs' persisted build hproc =>
    obtain ⟨rfl, hne, rfl, hbuild⟩ := h.process _ _ hproc
    have hok : (inputs'.documents.filter fun docId => (build docId).subgraph?.isSome) = [] := by
      rw [filter_eq_nil_iff]
      intro docId _
      rcases hbuild docId with heq | heq <;> simp [heq, Build.subgraph?]
    have hfailed : (inputs'.documents.any fun docId => (build docId).isFailed) = false := by
      rw [any_eq_false]
      intro docId _
      rcases hbuild docId with heq | heq <;> simp [heq, Build.isFailed]
    simp only [hok, hfailed] at hstep
    split at hstep
    · cases cur with
      | none =>
        cases hstep
        exact h.goOn trivial
      | some g =>
        cases hstep
        exact h.goOn ⟨hne, rfl, rfl, rfl, g, rfl, rfl⟩
    · cases hstep
  · cases hstep

theorem quiet_conclude (h : Quiet D s₀ cur inputs s) (hstep : s.conclude = some s') :
    Quiet D s₀ cur inputs s' := by
  unfold KbState.conclude at hstep
  split at hstep
  · next inputs' final subgraphs cleared hproc =>
    obtain ⟨rfl, hne, -, -, -, g, hcur, hfinal⟩ := h.process _ _ hproc
    cases hstep
    exact h.goOn ⟨hne, g, hcur, some.inj hfinal⟩
  · next inputs' subgraphs cleared hproc =>
    obtain ⟨-, -, -, -, -, g, -, hfinal⟩ := h.process _ _ hproc
    cases hfinal
  · cases hstep

theorem quiet_after (h : Quiet D s₀ cur inputs s) {phase : Phase} {final : Graph}
    (hproc : s.process = some (inputs, .checking phase final)) :
    Quiet D s₀ cur inputs (s.goOn inputs (KbState.after phase final)) := by
  obtain ⟨-, hstage⟩ := h.process _ _ hproc
  cases phase with
  | resolution => exact h.goOn hstage
  | community => exact h.goOn trivial

theorem found_of_quiet (hready : Ready D s₀ cur inputs) (h : Quiet D s₀ cur inputs s) {phase : Phase}
    {final : Graph} (hproc : s.process = some (inputs, .checking phase final)) :
    Found D s.markers inputs phase final := by
  obtain ⟨-, hne, g, hcur, rfl⟩ := h.process _ _ hproc
  rw [h.markers]
  exact hready.found hne g hcur phase

theorem Quiet.stages (h : Quiet D s₀ cur inputs s) :
    s.process = none ∨
    (∃ persisted build, s.process = some (inputs, .building persisted build) ∧
      ∀ docId, build docId = .waiting ∨ build docId = .done none) ∨
    (∃ g subgraphs cleared, s.process = some (inputs, .merging (some g) subgraphs [] false cleared none)) ∨
    (∃ phase g, s.process = some (inputs, .checking phase g)) ∨
    ∃ final, s.process = some (inputs, .finished final) := by
  cases hproc : s.process with
  | none => exact .inl rfl
  | some running =>
    obtain ⟨inputs', stage⟩ := running
    obtain ⟨rfl, hstage⟩ := h.process _ _ hproc
    cases stage with
    | building persisted build => exact .inr (.inl ⟨_, _, rfl, hstage.2.2⟩)
    | merging final subgraphs remaining failed cleared attempt =>
      obtain ⟨-, rfl, rfl, rfl, g, -, rfl⟩ := hstage
      exact .inr (.inr (.inl ⟨_, _, _, rfl⟩))
    | checking phase final => exact .inr (.inr (.inr (.inl ⟨_, _, rfl⟩)))
    | finished final => exact .inr (.inr (.inr (.inr ⟨_, rfl⟩)))
    | _ => exact hstage.elim

theorem quiet_pass (h : Quiet D s₀ cur inputs s) (hstep : s.pass = some s') : Quiet D s₀ cur inputs s' := by
  unfold KbState.pass at hstep
  split at hstep
  · next inputs' phase final hproc =>
    obtain ⟨rfl, -⟩ := h.process _ _ hproc
    split at hstep
    · cases hstep
    · exact some.inj hstep ▸ quiet_after h hproc
  · cases hstep

variable [DecidableEq δ]

theorem quiet_skip (h : Quiet D s₀ cur inputs s) (hstep : KbState.skip D s = some s') :
    Quiet D s₀ cur inputs s' := by
  unfold KbState.skip at hstep
  split at hstep
  · next inputs' phase final hproc =>
    obtain ⟨rfl, -⟩ := h.process _ _ hproc
    split at hstep
    · exact some.inj hstep ▸ quiet_after h hproc
    · cases hstep
  · cases hstep

theorem quiet_proceed (hready : Ready D s₀ cur inputs) (h : Quiet D s₀ cur inputs s) :
    KbState.proceed D s = none := by
  unfold KbState.proceed
  split
  · next inputs' phase final hproc =>
    obtain ⟨rfl, -⟩ := h.process _ _ hproc
    have hfound := found_of_quiet hready h hproc
    apply if_neg
    rw [Bool.and_eq_true, decide_eq_true_eq]
    rintro ⟨hreq, hne⟩
    exact hne (hfound hreq)
  · rfl

theorem quiet_step {a : Action} (hready : Ready D s₀ cur inputs) (h : Quiet D s₀ cur inputs s)
    (hstep : RepeatStep D inputs s a s') : Quiet D s₀ cur inputs s' := by
  obtain ⟨hstep, hrepeats⟩ := hstep
  unfold KbState.Step at hstep
  cases a with
  | start inputs' =>
    obtain rfl : inputs' = inputs := hrepeats
    exact quiet_start hready h hstep
  | load docId => exact quiet_load hready h hstep
  | merge => exact quiet_merge h hstep
  | conclude => exact quiet_conclude h hstep
  | pass => exact quiet_pass h hstep
  | skip => exact quiet_skip h hstep
  | proceed => simp [KbState.perform, quiet_proceed hready h] at hstep
  | unreadable => exact hrepeats.elim
  | extract docId _ | discard docId | fail docId =>
    rcases h.stages with hproc | ⟨_, build, hproc, hbuild⟩ | ⟨_, _, _, hproc⟩ | ⟨_, _, hproc⟩ | ⟨_, hproc⟩
    case inr.inl =>
      cases hget : getGraph s.store.rows [] <;> rcases hbuild docId with heq | heq <;>
        simp [KbState.perform, KbState.extract, KbState.discard, KbState.fail, hproc, hget, heq] at hstep
    all_goals simp [KbState.perform, KbState.extract, KbState.discard, KbState.fail, hproc] at hstep
  | kill =>
    obtain rfl := some.inj hstep
    exact h.ended
  | outside store reports => exact hrepeats.elim
  | _ =>
    rcases h.stages with hproc | ⟨_, _, hproc, -⟩ | ⟨_, _, _, hproc⟩ | ⟨_, _, hproc⟩ | ⟨_, hproc⟩
    all_goals simp [KbState.perform, KbState.clear, KbState.attempt, KbState.write, KbState.finish, KbState.retry,
      KbState.resolve, KbState.report, KbState.mark, KbState.markLost, hproc] at hstep

theorem quiet_progress (hready : Ready D s₀ cur inputs) (h : Quiet D s₀ cur inputs s) {stage : Stage}
    (hproc : s.process = some (inputs, stage)) :
    (∃ final, stage = .finished final) ∨ ∃ a s', a ≠ .kill ∧ RepeatStep D inputs s a s' := by
  obtain ⟨-, hstage⟩ := h.process _ _ hproc
  cases stage with
  | building persisted build =>
    right
    obtain ⟨hne, rfl, hbuild⟩ := hstage
    by_cases hwait : ∃ docId ∈ inputs.documents, build docId = .waiting
    · obtain ⟨docId, hdoc, heq⟩ := hwait
      have hcontains : (inputs.documents.contains docId && (build docId).isWaiting) = true := by
        simp [heq, Build.isWaiting, hdoc]
      refine ⟨.load docId, s.goOn inputs (.building (cur.map D.reread) (update build docId (.done none))),
        by simp, ?_, trivial⟩
      simp only [KbState.Step, KbState.perform, KbState.load, hproc, hcontains, if_true]
      split
      · rfl
      · next hnew =>
        rw [(reads_reread cur).documents, contains_iff_mem] at hnew
        obtain ⟨hchunks, hnone⟩ := (hready.covered hne docId hdoc).resolve_left hnew
        rw [h.store, loadSubgraph_eq_none.mpr hnone]
        simp [hchunks]
    · have hsettled : (inputs.documents.all fun docId => (build docId).isSettled) = true := by
        rw [all_eq_true]
        intro docId hdoc
        rcases hbuild docId with heq | heq
        · exact absurd ⟨docId, hdoc, heq⟩ hwait
        · simp [heq, Build.isSettled]
      have hmerge : ∃ s', s.merge = some s' := by
        simp only [KbState.merge, hproc, hsettled, if_true]
        split
        · exact ⟨_, rfl⟩
        · exact ⟨_, rfl⟩
      obtain ⟨s', hs'⟩ := hmerge
      exact ⟨.merge, s', by simp, hs', trivial⟩
  | merging final subgraphs remaining failed cleared attempt =>
    right
    obtain ⟨-, rfl, rfl, rfl, g, -, rfl⟩ := hstage
    refine ⟨.conclude, s.goOn inputs (.checking .resolution (D.reread g)), by simp, ?_, trivial⟩
    simp [KbState.Step, KbState.perform, KbState.conclude, hproc]
  | checking phase final =>
    right
    have hfound := found_of_quiet hready h hproc
    cases hreq : inputs.requests phase with
    | true =>
      refine ⟨.skip, s.goOn inputs (KbState.after phase final), by simp, ?_, trivial⟩
      simp [KbState.Step, KbState.perform, KbState.skip, hproc, hreq, hfound hreq]
    | false =>
      refine ⟨.pass, s.goOn inputs (KbState.after phase final), by simp, ?_, trivial⟩
      simp [KbState.Step, KbState.perform, KbState.pass, hproc, hreq]
  | finished final => exact .inl ⟨final, rfl⟩
  | _ => exact hstage.elim

/-- A run that did nothing but to find the markers, or is about to. -/
structure RepeatsNothing (D : Deployment δ) (s : KbState δ) (inputs : Inputs) (t : KbState δ) : Prop where
  store : t.store = s.store
  reports : t.reports = s.reports
  completions : t.completions = s.completions
  performs : ∀ inputs' stage, t.process = some (inputs', stage) → inputs' = inputs ∧ stage.performs = false
  found : ∀ phase final, t.process = some (inputs, .checking phase final) →
    Found D t.markers inputs phase final
  progress : ∀ stage, t.process = some (inputs, stage) →
    (∃ final, stage = .finished final) ∨ ∃ a t', a ≠ .kill ∧ RepeatStep D inputs t a t'

theorem repeatsNothing_of_quiet {t : KbState δ} (hready : Ready D s cur inputs) (h : Quiet D s cur inputs t) :
    RepeatsNothing D s inputs t := { h with
  performs inputs' stage hproc := by
    obtain ⟨rfl, hstage⟩ := h.process _ _ hproc
    refine ⟨rfl, ?_⟩
    cases stage with
    | building | merging | checking | finished => rfl
    | _ => exact hstage.elim
  found _ _ hproc := found_of_quiet hready h hproc
  progress _ hproc := quiet_progress hready h hproc }

theorem phase_markers_sound_and_complete {δ : Type} [DecidableEq δ] (D : Deployment δ)
    (hinjective : Injective D.fingerprint) :
    (∀ (store : Store) (reports : Reports) (actions : List Action) (s s' : KbState δ),
      Run (KbState.Step D) (KbState.idle store reports) actions s → KbState.Step D s .skip s' →
        ∃ inputs phase final stored, s.process = some (inputs, .checking phase final) ∧
          getGraph s.store.rows [] = .ok (some stored) ∧ CarriedOut s inputs phase stored) ∧
    (∀ (s₀ : KbState δ) (cur : Option Graph), s₀.process = none → Live s₀.store cur →
      ∀ (actions : List Action) (s : KbState δ) (inputs : Inputs) (final : Option Graph),
        Run (RunStep D) s₀ actions s → s.process = some (inputs, .finished final) →
          ∀ (again : List Action) (t : KbState δ), Run (RepeatStep D inputs) s.ended again t →
            RepeatsNothing D s inputs t) := by
  constructor
  · intro store reports actions s s' hrun hskip
    exact carriedOut_of_skip hinjective (inv_run hrun) hskip
  · intro s₀ cur hidle hlive actions s inputs final hrun hfinished again t hagain
    have hinv : LiveInv D s := by
      apply Run.invariant _ _ hrun
      · exact ⟨cur, hlive, fun _ _ hprocess => by simp [hidle] at hprocess⟩
      · exact fun _ _ _ h hstep => liveInv_step h hstep.2 hstep.1
    obtain ⟨stored, hready⟩ := ready_of_finished hinv hfinished
    apply repeatsNothing_of_quiet hready
    apply Run.invariant _ _ hagain
    · exact ⟨rfl, rfl, rfl, rfl, fun _ _ hprocess => by cases hprocess⟩
    · exact fun _ _ _ h hstep => quiet_step hready h hstep

/-! ### One graph, twice -/

/-- The actions one after the other; `none` if one is not possible. -/
def performAll (D : Deployment δ) (s : KbState δ) : List Action → Option (KbState δ)
  | [] => some s
  | a :: rest => (KbState.perform D a s).bind fun s' => performAll D s' rest

variable {P : Action → Prop}

theorem run_performAll {actions : List Action} (hactions : ∀ a ∈ actions, P a)
    (h : performAll D s actions = some s') :
    Run (fun s a s' => KbState.Step D s a s' ∧ P a) s actions.reverse s' := by
  have hall : ∀ (earlier : List Action) (t : KbState δ),
      Run (fun s a s' => KbState.Step D s a s' ∧ P a) s earlier t → performAll D t actions = some s' →
        Run (fun s a s' => KbState.Step D s a s' ∧ P a) s (actions.reverse ++ earlier) s' := by
    clear h
    induction actions with
    | nil =>
      intro earlier t hrun h
      obtain rfl := some.inj h
      exact hrun
    | cons a rest ih =>
      rw [forall_mem_cons] at hactions
      intro earlier t hrun h
      obtain ⟨t', hstep, hrest⟩ := Option.bind_eq_some_iff.mp h
      rw [reverse_cons, append_assoc, singleton_append]
      exact ih hactions.2 (a :: earlier) t' (hrun.cons ⟨hstep, hactions.1⟩) hrest
  have hrun := hall [] s .nil h
  rwa [append_nil] at hrun

def plainDigests : Deployment Material where
  fingerprint := id
  reread := id
  rereadSame := SameData.refl
  prompts := []
  sums := integers
  pagerank _ _ := .int 1

def oneGraph : Graph := oneEntity "a" "x"

def oneGraphRows : Store := .single (checkpointChunk oneGraph)

def bothPhases : Inputs := ⟨["a"], ["a"], .null, .null, true, true⟩

def toPhases (inputs : Inputs) : List Action := [.start inputs, .load "a", .merge, .conclude]

def phaseActions : List Action :=
  [.proceed, .resolve prepared oneGraph ⟨[], [], [], []⟩ "r" fun _ => false, .write, .write, .finish, .mark,
    .proceed, .report [], .finish, .mark]

def firstRun : List Action := toPhases bothPhases ++ phaseActions

def secondRun : List Action := firstRun ++ .kill :: toPhases bothPhases

theorem live_oneGraphRows : Live oneGraphRows (some oneGraph) where
  keyed row hrow := by
    rw [mem_singleton.mp hrow]
    exact .inl rfl
  checkpointed := ⟨_, mem_singleton.mpr rfl, rfl, rfl, .inl rfl⟩

def finishedWith (inputs : Inputs) (s : KbState δ) : Bool :=
  s.process.any fun p => decide (p.1 = inputs) && p.2.isFinished

omit [DecidableEq δ] in
theorem finished_of_finishedWith (h : finishedWith inputs s = true) :
    ∃ final, s.process = some (inputs, .finished final) := by
  obtain ⟨⟨inputs', stage⟩, hproc, hboth⟩ := Option.any_eq_true _ _ |>.mp h
  rw [Bool.and_eq_true, decide_eq_true_eq] at hboth
  obtain ⟨rfl, hfin⟩ := hboth
  cases stage with
  | finished final => exact ⟨final, hproc⟩
  | _ => cases hfin

theorem exists_run (s : KbState δ) (actions : List Action) (check : KbState δ → Bool)
    (hactions : ∀ a ∈ actions, P a) (h : (performAll D s actions).any check = true) :
    ∃ s', Run (fun s a s' => KbState.Step D s a s' ∧ P a) s actions.reverse s' ∧ check s' = true := by
  obtain ⟨s', hall, hcheck⟩ := Option.any_eq_true _ _ |>.mp h
  exact ⟨s', run_performAll hactions hall, hcheck⟩

theorem phase_markers_sample :
    ∃ s final, Run (RunStep plainDigests) (.idle oneGraphRows .empty) firstRun.reverse s ∧
      s.process = some (bothPhases, .finished final) ∧
      (∀ again t, Run (RepeatStep plainDigests bothPhases) s.ended again t →
        RepeatsNothing plainDigests s bothPhases t) ∧
      ∃ s₁ s₁' inputs phase stored, KbState.Step plainDigests s₁ .skip s₁' ∧
        getGraph s₁.store.rows [] = .ok (some stored) ∧ CarriedOut s₁ inputs phase stored := by
  obtain ⟨hsound, hcomplete⟩ := phase_markers_sound_and_complete plainDigests Function.injective_id
  obtain ⟨s, hrun, hfinished⟩ := exists_run (.idle oneGraphRows .empty) firstRun (finishedWith bothPhases)
    (D := plainDigests) (P := fun a => a.ofRuns = true) (by decide) (by decide +kernel)
  obtain ⟨final, hprocess⟩ := finished_of_finishedWith hfinished
  obtain ⟨s₁, hrun₁, hskip⟩ := exists_run (.idle oneGraphRows .empty) secondRun
    (fun s => (KbState.skip plainDigests s).isSome) (D := plainDigests) (P := fun a => a.ofRuns = true)
    (by decide) (by decide +kernel)
  obtain ⟨s₁', hskip⟩ := Option.isSome_iff_exists.mp hskip
  have hsteps : Run (KbState.Step plainDigests) (.idle oneGraphRows .empty) secondRun.reverse s₁ := by
    apply Run.mono (I := fun _ => True) trivial _ _ hrun₁
    · exact fun _ _ _ _ _ => trivial
    · exact fun _ _ _ _ hstep => hstep.1
  obtain ⟨inputs, phase, -, stored, -, hgraph, hout⟩ := hsound _ _ _ s₁ s₁' hsteps hskip
  exact ⟨s, final, hrun, hprocess, hcomplete _ _ rfl live_oneGraphRows _ s _ final hrun hprocess,
    s₁, s₁', inputs, phase, stored, hskip, hgraph, hout⟩

def Action.SameInputs (inputs : Inputs) : Action → Prop
  | .start inputs' => inputs' = inputs
  | .outside _ _ => False
  | _ => True

def onlyResolution : Inputs := { bothPhases with withCommunity := false }

/-- A marker that cannot be read counts as none, so the phase is carried out again; and a run
    that is not asked for the communities leaves no marker for them. -/
theorem marker_not_found :
    (∃ actions s, Run (RunStep plainDigests) (.idle oneGraphRows .empty) actions s ∧
      (∃ final, s.process = some (bothPhases, .finished final)) ∧
      ∃ again t, Run (fun s a s' => KbState.Step plainDigests s a s' ∧ a.SameInputs bothPhases) s.ended again t ∧
        ∃ inputs stage, t.process = some (inputs, stage) ∧ stage.performs = true) ∧
    ∃ actions s, Run (RunStep plainDigests) (.idle oneGraphRows .empty) actions s ∧
      (∃ final, s.process = some (onlyResolution, .finished final)) ∧ s.markers .community = none := by
  constructor
  · have hall : (performAll plainDigests (.idle oneGraphRows .empty) firstRun).any (fun s =>
        finishedWith bothPhases s &&
          (performAll plainDigests s.ended (toPhases bothPhases ++ [.unreadable])).any fun t =>
            t.process.any fun p => p.2.performs) = true := by
      decide +kernel
    obtain ⟨s, hrun, hchecks⟩ := exists_run _ _ _ (P := fun a => a.ofRuns = true) (by decide) hall
    rw [Bool.and_eq_true] at hchecks
    obtain ⟨t, hagain, hperforms⟩ := exists_run _ _ _ (P := Action.SameInputs bothPhases)
      (by simp [toPhases, Action.SameInputs]) hchecks.2
    obtain ⟨⟨inputs, stage⟩, hprocess, hstage⟩ := Option.any_eq_true _ _ |>.mp hperforms
    exact ⟨_, s, hrun, finished_of_finishedWith hchecks.1, _, t, hagain, inputs, stage, hprocess, hstage⟩
  · have hall : (performAll plainDigests (.idle oneGraphRows .empty)
        (toPhases onlyResolution ++ phaseActions.take 6 ++ [.pass])).any (fun s =>
          finishedWith onlyResolution s && decide (s.markers .community = none)) = true := by
      decide +kernel
    obtain ⟨s, hrun, hchecks⟩ := exists_run _ _ _ (P := fun a => a.ofRuns = true) (by decide) hall
    rw [Bool.and_eq_true, decide_eq_true_eq] at hchecks
    exact ⟨_, s, hrun, finished_of_finishedWith hchecks.1, hchecks.2⟩

end MultiRag.GraphRag.Phases
