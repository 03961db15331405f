/-
  **Which interactions an expired form may expire.**

  `register`, `receive_callback` and `reconcile` look at the state of the interaction before they
  expire it, or take the write back; `claim_delivery` does not. In a run in which it never picks
  up an expired form of an interaction that is settled or past the form's round (`InTimeRun`), a
  settled interaction stays as it is and every interaction is expired with a form of its own
  round.
-/
import MultiRag.PresentationLedger
import MultiRag.InteractionResponses

namespace MultiRag.ChannelExecution

open McpInteractions Table

/-! ### Settled interactions -/

structure Closed (s : InteractionStore) : Prop where
  one_job : s.jobs.Unique jobRound
  answered : ∀ row ∈ s.interactions, row.state ∈ settledStates → ¬ Unanswered s row
  closed : ∀ row ∈ s.interactions, row.state ∈ settledStates → ∀ job, CurrentRound s row job →
    ¬ job.open

def SettledKept (s s' : InteractionStore) : Prop :=
  ∀ row ∈ s.interactions, row.state ∈ settledStates →
    ∃ row' ∈ s'.interactions, row'.id = row.id ∧ row'.state = row.state

section

variable {s s' : InteractionStore} {maxRounds : Nat} {row row' : McpInteraction} {job job' : McpInteractionResumeJob}

theorem expired_not_settled : InteractionState.expired ∉ settledStates := by decide

theorem closed_of_fresh (h : Fresh s) : Closed s where
  one_job := unique_of_forall_not_mem h.jobs
  answered row hrow hsettled := by
    rw [(h.rows row hrow).1] at hsettled
    exact absurd hsettled (by decide)
  closed _ _ _ job hround := absurd hround.job_mem (h.jobs job)

theorem SettledKept.refl (s : InteractionStore) : SettledKept s s :=
  fun row hrow _ => ⟨row, hrow, rfl, rfl⟩

theorem SettledKept.trans {a b c : InteractionStore} (hab : SettledKept a b)
    (hbc : SettledKept b c) : SettledKept a c := by
  intro row hrow hsettled
  obtain ⟨row₁, hrow₁, hid₁, hstate₁⟩ := hab row hrow hsettled
  obtain ⟨row₂, hrow₂, hid₂, hstate₂⟩ := hbc row₁ hrow₁ (hstate₁ ▸ hsettled)
  exact ⟨row₂, hrow₂, hid₂.trans hid₁, hstate₂.trans hstate₁⟩

variable {jobs : Table McpInteractionResumeJob McpInteractionResumeJob.id}

theorem settledKept_put
    (mem : row ∈ s.interactions) (id : row'.id = row.id)
    (state : row.state ∈ settledStates → row'.state = row.state) :
    SettledKept s ⟨s.interactions.put row', jobs⟩ := by
  intro x hx hsettled
  by_cases hid : x.id = row.id
  · have heq : x = row := eq_of_key hx mem hid
    subst heq
    exact ⟨row', (mem_put_of_mem mem id).mpr (.inl rfl), id, state hsettled⟩
  · exact ⟨x, (mem_put_of_mem mem id).mpr (.inr ⟨hx, hid⟩), rfl, rfl⟩

theorem Closed.putRow (h : Closed s) (mem : row ∈ s.interactions) (id : row'.id = row.id)
    (revision : row'.revision = row.revision)
    (state : row'.state ∈ settledStates → row.state ∈ settledStates) :
    Closed (s.putRow row') := by
  have hmem x := mem_putRow (x := x) mem id
  refine ⟨h.one_job, ?_, ?_⟩
  · intro x hx hsettled hunanswered
    rcases (hmem x).mp hx with rfl | ⟨hold, -⟩
    · refine h.answered row mem (state hsettled) ?_
      intro job hjob hid hrev
      exact hunanswered job hjob (hid.trans id.symm) (hrev.trans revision.symm)
    · exact h.answered x hold hsettled hunanswered
  · intro x hx hsettled job round
    rcases (hmem x).mp hx with rfl | ⟨hold, -⟩
    · exact h.closed row mem (state hsettled) job
        ⟨mem, round.job_mem, round.interaction.trans id, round.revision.trans revision⟩
    · exact h.closed x hold hsettled job ⟨hold, round.job_mem, round.interaction, round.revision⟩

theorem Closed.not_settled (h : Closed s) (round : CurrentRound s row job) (hopen : job.open) :
    row.state ∉ settledStates :=
  fun hsettled => h.closed row round.row_mem hsettled job round hopen

theorem Closed.answer (h : Closed s)
    {state : InteractionState} {now : Int} (mem : row ∈ s.interactions)
    (unanswered : Unanswered s row) (insert : s.jobs.insert? job = some jobs)
    (interaction : job.interactionId = row.id) (revision : job.revision = row.revision)
    (ended : state ∈ settledStates → ¬ job.open) :
    Closed (InteractionStore.putRow { s with jobs := jobs } (row.withState state now)) := by
  have hrows := mem_withState (s := { s with jobs := jobs }) mem state now
  have hjobs y := mem_insert? (x := y) insert
  refine ⟨h.one_job.insert? insert ?_, ?_, ?_⟩
  · intro y hy heq
    exact unanswered y hy ((congrArg Prod.fst heq).trans interaction)
      ((congrArg Prod.snd heq).trans revision)
  · intro x hx hsettled hnone
    rcases (hrows x).mp hx with rfl | ⟨hold, -⟩
    · exact hnone job ((hjobs job).mpr (.inl rfl)) interaction revision
    · exact h.answered x hold hsettled
        (fun y hy hid hrev => hnone y ((hjobs y).mpr (.inr hy)) hid hrev)
  · intro x hx hsettled y round
    rcases (hjobs y).mp round.job_mem with rfl | hyold
    · rcases (hrows x).mp hx with rfl | ⟨-, hne⟩
      · exact ended hsettled
      · exact absurd (round.interaction.symm.trans interaction) hne
    · rcases (hrows x).mp hx with rfl | ⟨hold, -⟩
      · exact absurd round.revision (unanswered y hyold round.interaction)
      · exact h.closed x hold hsettled y ⟨hold, hyold, round.interaction, round.revision⟩

variable {event : RoundEvent}

theorem PairChange.settles
    (change : PairChange s maxRounds row job event row' job') (hsettled : row'.state ∈ settledStates) :
    row'.revision = row.revision ∧ ¬ job'.open := by
  rcases change.result with ⟨hrev, -, hagree⟩ | ⟨-, -, -, hstate, -⟩
  · refine ⟨hrev, ?_⟩
    simp only [settledStates, List.mem_cons, List.not_mem_nil, or_false] at hsettled
    rintro (hopen | hopen) <;> rw [hopen] at hagree <;>
      rcases hsettled with hstate | hstate | hstate | hstate <;> simp [hstate, Agree] at hagree
  · rw [hstate] at hsettled
    exact absurd hsettled (by decide)

theorem Closed.pair (h : Closed s) (round : CurrentRound s row job)
    (change : PairChange s maxRounds row job event row' job') :
    Closed ((s.putRow row').putJob job') := by
  have hrow := change.sameRow
  have hjob := change.sameJob
  have hrows x := mem_putRow (x := x) round.row_mem hrow.id
  have hjobs y := mem_putJob (y := y) round.job_mem hjob.id
  have hround : jobRound job' = jobRound job := Prod.ext hjob.interactionId hjob.revision
  refine ⟨h.one_job.put round.job_mem hjob.id hround, ?_, ?_⟩
  · intro x hx hsettled hnone
    rcases (hrows x).mp hx with rfl | ⟨hold, hne⟩
    · obtain ⟨hrev, -⟩ := PairChange.settles change hsettled
      exact hnone job' ((hjobs job').mpr (.inl rfl))
        (hjob.interactionId.trans (round.interaction.trans hrow.id.symm))
        (hjob.revision.trans (round.revision.trans hrev.symm))
    · refine h.answered x hold hsettled ?_
      intro y hy hid
      by_cases hyid : y.id = job.id
      · have heq : y = job := eq_of_key hy round.job_mem hyid
        subst heq
        exact absurd (hid.symm.trans round.interaction) hne
      · exact hnone y ((hjobs y).mpr (.inr ⟨hy, hyid⟩)) hid
  · intro x hx hsettled y hcur
    rcases (hrows x).mp hx with rfl | ⟨hold, hne⟩
    · obtain ⟨hrev, hended⟩ := PairChange.settles change hsettled
      rcases (hjobs y).mp hcur.job_mem with rfl | ⟨hyold, hyne⟩
      · exact hended
      · -- no other job answers the round of the row
        have heq := h.one_job y hyold job round.job_mem (Prod.ext
          (hcur.interaction.trans (hrow.id.trans round.interaction.symm))
          (hcur.revision.trans (hrev.trans round.revision.symm)))
        exact absurd (heq ▸ rfl) hyne
    · rcases (hjobs y).mp hcur.job_mem with rfl | ⟨hyold, -⟩
      · exact absurd (hcur.interaction.symm.trans
          (hjob.interactionId.trans round.interaction)) hne
      · exact h.closed x hold hsettled y ⟨hold, hyold, hcur.interaction, hcur.revision⟩

theorem Closed.orphan (h : Closed s) (mem : job ∈ s.jobs) (now : Int) (code : InteractionErrorCode) :
    Closed (s.putJob (job.terminalJob now code)) := by
  have hjobs : ∀ y, y ∈ (s.putJob (job.terminalJob now code)).jobs ↔
      y = job.terminalJob now code ∨ (y ∈ s.jobs ∧ y.id ≠ job.id) := fun y => mem_putJob mem rfl
  refine ⟨h.one_job.put mem rfl rfl, ?_, ?_⟩
  · intro x hx hsettled hnone
    refine h.answered x hx hsettled ?_
    intro y hy hid hrev
    by_cases hyid : y.id = job.id
    · have heq : y = job := eq_of_key hy mem hyid
      subst heq
      exact hnone _ ((hjobs _).mpr (.inl rfl)) hid hrev
    · exact hnone y ((hjobs y).mpr (.inr ⟨hy, hyid⟩)) hid hrev
  · intro x hx hsettled y round
    rcases (hjobs y).mp round.job_mem with rfl | ⟨hyold, -⟩
    · simp [McpInteractionResumeJob.open, McpInteractionResumeJob.terminalJob]
    · exact h.closed x hx hsettled y ⟨hx, hyold, round.interaction, round.revision⟩

theorem closed_round (h : Closed s) (step : RoundStep maxRounds s event s') :
    Closed s' ∧ SettledKept s s' := by
  cases step with
  | @opened row interactions insert state revision roundCount effect =>
    have hmem x := mem_insert? (x := x) insert
    refine ⟨⟨h.one_job, ?_, ?_⟩, ?_⟩
    · intro x hx hsettled
      rcases (hmem x).mp hx with rfl | hold
      · rw [state] at hsettled
        exact absurd hsettled (by decide)
      · exact h.answered x hold hsettled
    · intro x hx hsettled job round
      rcases (hmem x).mp hx with rfl | hold
      · rw [state] at hsettled
        exact absurd hsettled (by decide)
      · exact h.closed x hold hsettled job ⟨hold, round.job_mem, round.interaction, round.revision⟩
    · intro x hx _
      exact ⟨x, (hmem x).mpr (.inr hx), rfl, rfl⟩
  | lapsed mem unanswered late =>
    refine ⟨h.putRow mem rfl rfl (fun hsettled => absurd hsettled expired_not_settled), ?_⟩
    exact settledKept_put mem rfl (fun hsettled => absurd unanswered (h.answered _ mem hsettled))
  | answered mem awaiting live unanswered insert interaction tenant revision attempt states =>
    refine ⟨h.answer mem unanswered insert interaction revision ?_, ?_⟩
    · intro hsettled
      rcases states with ⟨-, rfl⟩ | ⟨hstate, -⟩
      · exact absurd hsettled (by decide)
      · simp [McpInteractionResumeJob.open, hstate]
    · refine settledKept_put mem rfl ?_
      intro hsettled
      rw [awaiting] at hsettled
      exact absurd hsettled (by decide)
  | paired round change =>
    exact ⟨h.pair round change, settledKept_put round.row_mem change.sameRow.id
      (fun hsettled => absurd hsettled (h.not_settled round change.open_job))⟩
  | orphaned mem due none => exact ⟨h.orphan mem _ _, fun row hrow _ => ⟨row, hrow, rfl, rfl⟩⟩

theorem closed_rounds {events : List RoundEvent} (h : Closed s)
    (hrun : Run (RoundStep maxRounds) s events s') : Closed s' ∧ SettledKept s s' := by
  induction hrun with
  | nil => exact ⟨h, SettledKept.refl _⟩
  | cons _ hstep ih =>
    obtain ⟨hclosed, hkept⟩ := closed_round ih.1 hstep
    exact ⟨hclosed, ih.2.trans hkept⟩

end

/-! ### Writes of the presentation store -/

/-- The form may take its interaction along when it expires. -/
def OwnRound (form : McpInteractionPresentation) (interaction : McpInteraction) : Prop :=
  interaction.state ∉ settledStates ∧ interaction.revision ≤ form.revision

instance (form : McpInteractionPresentation) (interaction : McpInteraction) :
    Decidable (OwnRound form interaction) :=
  inferInstanceAs (Decidable (_ ∧ _))

variable {sha256 : String → String} {s s' : ChannelStore}

theorem closed_form {event : FormEvent} (h : Closed s.toInteractionStore)
    (step : FormStep sha256 OwnRound s event s') :
    Closed s'.toInteractionStore ∧ SettledKept s.toInteractionStore s'.toInteractionStore := by
  have hsame : s'.toInteractionStore = s.toInteractionStore →
      Closed s'.toInteractionStore ∧ SettledKept s.toInteractionStore s'.toInteractionStore := by
    intro heq
    rw [heq]
    exact ⟨h, SettledKept.refl _⟩
  cases step with
  | opened insert state delivery nonce token =>
    obtain ⟨-, presentations, -, rfl⟩ := ChannelStore.insertPresentation_eq_ok insert
    exact hsame rfl
  | touched mem => exact ⟨h.putRow mem rfl rfl id, settledKept_put mem rfl (fun _ => rfl)⟩
  | lapsed mem interaction_mem interactionId late _ =>
    exact ⟨h.putRow interaction_mem rfl rfl (fun hsettled => absurd hsettled expired_not_settled),
      settledKept_put interaction_mem rfl (fun hsettled => absurd hsettled late.1)⟩
  | received mem waiting delivered shown insert presentation binding event state =>
    obtain ⟨-, receipts, -, rfl⟩ := ChannelStore.insertReceipt_eq_ok insert
    exact hsame rfl
  | _ => exact hsame rfl

theorem closed_forms {events : List FormEvent} (h : Closed s.toInteractionStore)
    (hrun : Run (FormStep sha256 OwnRound) s events s') :
    Closed s'.toInteractionStore ∧ SettledKept s.toInteractionStore s'.toInteractionStore := by
  induction hrun with
  | nil => exact ⟨h, SettledKept.refl _⟩
  | cons _ hstep ih =>
    obtain ⟨hclosed, hkept⟩ := closed_form ih.1 hstep
    exact ⟨hclosed, ih.2.trans hkept⟩

def ExpiresOwnRound (s s' : ChannelStore) : Prop :=
  ∀ row ∈ s.interactions, ∃ row' ∈ s'.interactions, row'.id = row.id ∧
    row'.revision = row.revision ∧ (row'.state = row.state ∨ row'.state = .expired ∧
      ∃ form ∈ s'.presentations, form.interactionId = row.id ∧ form.responseState = .terminal ∧
        OwnRound form row)

theorem ExpiresOwnRound.refl (s : ChannelStore) : ExpiresOwnRound s s :=
  fun row hrow => ⟨row, hrow, rfl, rfl, .inl rfl⟩

theorem ExpiresOwnRound.trans {a b c : ChannelStore} (hab : ExpiresOwnRound a b)
    (hbc : ExpiresOwnRound b c) (hforms : FormsKept b c) : ExpiresOwnRound a c := by
  intro row hrow
  obtain ⟨row₁, hrow₁, hid₁, hrev₁, hcase₁⟩ := hab row hrow
  obtain ⟨row₂, hrow₂, hid₂, hrev₂, hcase₂⟩ := hbc row₁ hrow₁
  refine ⟨row₂, hrow₂, hid₂.trans hid₁, hrev₂.trans hrev₁, ?_⟩
  rcases hcase₁ with hstate₁ | ⟨hstate₁, form, hform, hid, hended, hown⟩
  · rcases hcase₂ with hstate₂ | ⟨hstate₂, form, hform, hid, hended, hunsettled, hle⟩
    · exact .inl (hstate₂.trans hstate₁)
    · refine .inr ⟨hstate₂, form, hform, hid.trans hid₁, hended, ?_, ?_⟩
      · rw [← hstate₁]; exact hunsettled
      · rw [← hrev₁]; exact hle
  · obtain ⟨form', hform', hsame, hended'⟩ := hforms form hform
    have hstate₂ : row₂.state = .expired := by
      rcases hcase₂ with hsameState | ⟨hexp, -⟩
      · exact hsameState.trans hstate₁
      · exact hexp
    refine .inr ⟨hstate₂, form', hform', hsame.interactionId.trans hid, hended' hended, hown.1, ?_⟩
    rw [hsame.revision]
    exact hown.2

theorem expiresOwnRound_put {row row' : McpInteraction}
    (hput : s'.toInteractionStore = s.toInteractionStore.putRow row') (mem : row ∈ s.interactions)
    (id : row'.id = row.id) (revision : row'.revision = row.revision)
    (state : row'.state = row.state ∨ row'.state = .expired ∧ ∃ form ∈ s'.presentations,
      form.interactionId = row.id ∧ form.responseState = .terminal ∧ OwnRound form row) :
    ExpiresOwnRound s s' := by
  intro x hx
  rw [hput]
  by_cases hid : x.id = row.id
  · have heq : x = row := eq_of_key hx mem hid
    subst heq
    exact ⟨row', (mem_putRow mem id).mpr (.inl rfl), id, revision, state⟩
  · exact ⟨x, (mem_putRow mem id).mpr (.inr ⟨hx, hid⟩), rfl, rfl, .inl rfl⟩

theorem expiresOwnRound_step {event : FormEvent} (step : FormStep sha256 OwnRound s event s') :
    ExpiresOwnRound s s' := by
  have hsame : s'.toInteractionStore = s.toInteractionStore → ExpiresOwnRound s s' := by
    intro heq row hrow
    exact ⟨row, heq ▸ hrow, rfl, rfl, .inl rfl⟩
  cases step with
  | opened insert state delivery nonce token =>
    obtain ⟨-, presentations, -, rfl⟩ := ChannelStore.insertPresentation_eq_ok insert
    exact hsame rfl
  | touched mem => exact expiresOwnRound_put rfl mem rfl rfl (.inl rfl)
  | @lapsed form interaction now mem interaction_mem interactionId late _ =>
    have hended : form.terminalize .expired now none ∈ ((s.putInteraction
        (interaction.withState .expired now)).putPresentation
          (form.terminalize .expired now none)).presentations :=
      ChannelStore.mem_putPresentation_self mem (fades_terminalize .expired none).id
    exact expiresOwnRound_put rfl interaction_mem rfl rfl
      (.inr ⟨rfl, _, hended, interactionId.symm, rfl, late⟩)
  | received mem waiting delivered shown insert presentation binding event state =>
    obtain ⟨-, receipts, -, rfl⟩ := ChannelStore.insertReceipt_eq_ok insert
    exact hsame rfl
  | _ => exact hsame rfl

theorem expiresOwnRound_writes {record : Option FormRecord}
    (h : Writes sha256 OwnRound s record s') : ExpiresOwnRound s s' := by
  obtain ⟨events, hrun, -⟩ := h
  induction hrun with
  | nil => exact ExpiresOwnRound.refl _
  | cons _ hstep ih => exact ih.trans (expiresOwnRound_step hstep) (formsKept_step hstep)

/-! ### Runs -/

/-- An expired form that the call picks up belongs to an interaction that is neither
    settled nor past the round of the form. -/
def ChannelCall.inTime (call : ChannelCall) (s : ChannelStore) : Bool :=
  match call with
  | .interaction _ => true
  | .presentation call => (call.lapsing s).all (fun found => decide (OwnRound found.1 found.2))

abbrev InTimeRun (repositories : ChannelRepositories) :=
  Run (clocked ChannelEvent.readings (fun s e s' => e.call.inTime s = true ∧
    channelStep repositories s e s'))

variable {repositories : ChannelRepositories} {w₀ w w' : Clocked ChannelStore Int} {earlier later : List ChannelEvent}

theorem inTime_writes {event : PresentationEvent}
    (hintime : (ChannelCall.presentation event.call).inTime s = true)
    (hstep : presentationStep repositories.presentations s event s') :
    Writes repositories.presentations.sha256 OwnRound s event.record s' := by
  refine (presentationStep_effects ?_ ?_ hstep).writes
  · intro form interaction hstate hrev
    exact ⟨by rw [hstate]; decide, le_of_eq hrev⟩
  · intro form interaction hlapsing
    simpa [ChannelCall.inTime, hlapsing] using hintime

theorem closed_step {e : ChannelEvent} (h : Closed s.toInteractionStore)
    (hintime : e.call.inTime s = true) (hstep : channelStep repositories s e s') :
    Closed s'.toInteractionStore ∧ SettledKept s.toInteractionStore s'.toInteractionStore := by
  cases e with
  | interaction event =>
    obtain ⟨hinter, -, -⟩ : interactionCallStep _ s event s' := hstep
    obtain ⟨events, hrun, -, -⟩ := interactionStep_rounds hinter
    exact closed_rounds h hrun
  | presentation event =>
    obtain ⟨events, hrun, -⟩ := inTime_writes hintime hstep
    exact closed_forms h hrun

theorem closed_run (h : Closed w.store.toInteractionStore)
    (hrun : InTimeRun repositories w later w') :
    Closed w'.store.toInteractionStore ∧
      SettledKept w.store.toInteractionStore w'.store.toInteractionStore := by
  induction hrun with
  | nil => exact ⟨h, SettledKept.refl _⟩
  | cons _ hstep ih =>
    obtain ⟨hclosed, hkept⟩ := closed_step ih.1 hstep.store_step.1 hstep.store_step.2
    exact ⟨hclosed, ih.2.trans hkept⟩

/-- **Settled interactions stay settled.**  In every run of both stores in which
    deliveries are claimed in time, an interaction that is completed, declined,
    cancelled or failed in one state has that state in every later one, and no call
    of the presentation store expires an interaction with a form of an earlier
    round. -/
theorem inTimeRun_absorbing (hfresh : Fresh w₀.store.toInteractionStore)
    (hearlier : InTimeRun repositories w₀ earlier w) (hlater : InTimeRun repositories w later w') :
    SettledKept w.store.toInteractionStore w'.store.toInteractionStore ∧
      ∀ after event before, later = after ++ .presentation event :: before →
        ∃ m m' : Clocked ChannelStore Int, InTimeRun repositories w before m ∧
          presentationStep repositories.presentations m.store event m'.store ∧
          InTimeRun repositories m' after w' ∧
          Writes repositories.presentations.sha256 OwnRound m.store event.record m'.store ∧
          ExpiresOwnRound m.store m'.store := by
  have hclosed := (closed_run (closed_of_fresh hfresh) hearlier).1
  refine ⟨(closed_run hclosed hlater).2, ?_⟩
  intro after event before hsplit
  rw [hsplit] at hlater
  obtain ⟨m, m', hbefore, hstep, hafter⟩ := hlater.split
  obtain ⟨hintime, hpresentation⟩ := hstep.store_step
  have hwrites := inTime_writes hintime hpresentation
  exact ⟨m, m', hbefore, hpresentation, hafter, hwrites, expiresOwnRound_writes hwrites⟩

theorem execute_inTimeRun {calls : List ChannelCall} (hordered : inOrder ChannelCall.readings w.now calls = true)
    (hintime : allowed (channelEvent repositories) ChannelCall.inTime calls w.store = true) :
    InTimeRun repositories w (execute (channelEvent repositories) calls [] w.store).1
      ⟨clockAfter ChannelCall.readings w.now calls,
        (execute (channelEvent repositories) calls [] w.store).2⟩ := by
  have hstart : InTimeRun repositories w [] w := Run.nil
  refine execute_run_allowed hstart hordered hintime ?_ ?_
  · intro call s hcall
    cases call with
    | interaction call => exact ⟨hcall, rfl, rfl, rfl⟩
    | presentation call => exact ⟨hcall, rfl⟩
  · intro call s
    cases call <;> rfl

/-! ### Samples -/

def sampleLease (attempt : Nat) : CallbackLease where
  receiptId := "r"
  owner := "callbacks"
  attempt := attempt
  presentationId := "p"
  bindingId := "b"
  bindingGeneration := 1
  providerAccountId := "account"
  interactionId := "i"
  revision := 1
  actor := sampleCallback.actor
  action := .accept
  inputResponses := sampleResponses
  idempotencyKey := "k"

/-- The answer of the sample run is submitted, the processor stops before it claims
    the receipt, and the next attempt re-opens the form; the interaction completes. -/
def reopenedCalls : List ChannelCall :=
  sampleChannelCalls ++
    [.presentation (.leaseCallback "callbacks" 30 [] 6 7),
      .interaction (.submitResponse "j" "e" 8 sampleActor "i" 1 "k" sampleResponses),
      .presentation (.leaseCallback "callbacks" 30 [] 40000000 40000001),
      .presentation (.rejectCallback (sampleLease 2) "IDENTITY_UNLINKED" false 40000002),
      .interaction (.leaseReady "w" 30 1 [] 40000003 [40000004]),
      .interaction (.complete ⟨"j", "w", 1⟩ "e" 40000005 40000006 .null)]

def redelivery (now : Int) : ChannelCall :=
  .presentation (.claimDelivery "token2" "nonce-2-nonce-2-" "b" 1 "w" 30 none none [] now now)

def reopenedStore : ChannelStore :=
  (execute (channelEvent sampleRepositories) reopenedCalls [] ChannelStore.empty).2

theorem inTimeRun_absorbing_sample :
    let later := execute (channelEvent sampleRepositories) [redelivery 40000007] [] reopenedStore
    later.2.presentations.rows.map McpInteractionPresentation.deliveryAttempt = [2] ∧
      SettledKept reopenedStore.toInteractionStore later.2.toInteractionStore := by
  have hearlier : InTimeRun sampleRepositories ⟨0, ChannelStore.empty⟩ _
      ⟨clockAfter ChannelCall.readings 0 reopenedCalls, reopenedStore⟩ :=
    execute_inTimeRun (show inOrder ChannelCall.readings 0 reopenedCalls = true by decide)
      (by decide +kernel)
  have hlater : InTimeRun sampleRepositories
      ⟨clockAfter ChannelCall.readings 0 reopenedCalls, reopenedStore⟩ _ _ :=
    execute_inTimeRun (show inOrder ChannelCall.readings _ [redelivery 40000007] = true by decide)
      (by decide +kernel)
  have hkept := (inTimeRun_absorbing fresh_empty hearlier hlater).1
  dsimp only at hkept
  exact ⟨by decide +kernel, hkept⟩

def lateCalls : List ChannelCall := reopenedCalls ++ [redelivery 1000000001]

/-- A delivery that comes too late expires the completed interaction. -/
theorem lateDelivery_expires_completed :
    let late := execute (channelEvent sampleRepositories) lateCalls [] ChannelStore.empty
    ChannelRun sampleRepositories ⟨0, ChannelStore.empty⟩ late.1
        ⟨clockAfter ChannelCall.readings 0 lateCalls, late.2⟩ ∧
      reopenedStore.interactions.rows.map McpInteraction.state = [.completed] ∧
      late.2.interactions.rows.map McpInteraction.state = [.expired] := by
  have hrun : ChannelRun sampleRepositories ⟨0, ChannelStore.empty⟩ _ _ :=
    execute_channelRun (show inOrder ChannelCall.readings 0 lateCalls = true by decide)
  exact ⟨hrun, by decide +kernel, by decide +kernel⟩

end MultiRag.ChannelExecution
