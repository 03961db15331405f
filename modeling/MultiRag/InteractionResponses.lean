/-
  **Submitting the same response again.**

  A response is durable: the job that records it and the identity of its row stay
  for ever (`RecordsKept`), and a round has one accepted response.  Whether a
  second submission is *recognised* is another matter: `submit_response` compares
  the round first, so the lookup of the idempotency key is only reached while the
  interaction is still at the round of the response.
-/
import MultiRag.InteractionLeases

namespace MultiRag.McpInteractions

open Table

open PairChange (SameRow SameJob)

/-! ### Records are kept -/

theorem PairChange.SameRow.trans {a b c : McpInteraction} (hab : SameRow a b)
    (hbc : SameRow b c) : SameRow a c :=
  ⟨hbc.id.trans hab.id, hbc.tenantId.trans hab.tenantId,
    hbc.platformUserId.trans hab.platformUserId,
    hbc.externalIdentityId.trans hab.externalIdentityId, hbc.effect.trans hab.effect,
    hbc.replayMode.trans hab.replayMode⟩

theorem PairChange.SameJob.trans {a b c : McpInteractionResumeJob} (hab : SameJob a b)
    (hbc : SameJob b c) : SameJob a c :=
  ⟨hbc.id.trans hab.id, hbc.interactionId.trans hab.interactionId,
    hbc.tenantId.trans hab.tenantId, hbc.revision.trans hab.revision,
    hbc.responseIdempotencyKey.trans hab.responseIdempotencyKey⟩

theorem PairChange.SameRow.refl (row : McpInteraction) : SameRow row row :=
  ⟨rfl, rfl, rfl, rfl, rfl, rfl⟩

theorem PairChange.SameJob.refl (job : McpInteractionResumeJob) : SameJob job job :=
  ⟨rfl, rfl, rfl, rfl, rfl⟩

/-- Every row keeps its identity and every job the answer it stands for. -/
structure RecordsKept (s s' : InteractionStore) : Prop where
  rows : ∀ row ∈ s.interactions, ∃ row' ∈ s'.interactions, SameRow row row'
  jobs : ∀ job ∈ s.jobs, ∃ job' ∈ s'.jobs, SameJob job job'

theorem RecordsKept.refl (s : InteractionStore) : RecordsKept s s :=
  ⟨fun row hrow => ⟨row, hrow, SameRow.refl row⟩, fun job hjob => ⟨job, hjob, SameJob.refl job⟩⟩

theorem RecordsKept.trans {a b c : InteractionStore} (hab : RecordsKept a b)
    (hbc : RecordsKept b c) : RecordsKept a c := by
  constructor
  · intro row hrow
    obtain ⟨row₁, hrow₁, hsame₁⟩ := hab.rows row hrow
    obtain ⟨row₂, hrow₂, hsame₂⟩ := hbc.rows row₁ hrow₁
    exact ⟨row₂, hrow₂, hsame₁.trans hsame₂⟩
  · intro job hjob
    obtain ⟨job₁, hjob₁, hsame₁⟩ := hab.jobs job hjob
    obtain ⟨job₂, hjob₂, hsame₂⟩ := hbc.jobs job₁ hjob₁
    exact ⟨job₂, hjob₂, hsame₁.trans hsame₂⟩

variable {s s' : InteractionStore} {maxRounds : Nat}

theorem rows_put {interactions : Table McpInteraction McpInteraction.id} {row row' : McpInteraction}
    (hrow : row ∈ interactions) (hsame : SameRow row row') :
    ∀ x ∈ interactions, ∃ x' ∈ interactions.put row', SameRow x x' := by
  intro x hx
  by_cases hxid : x.id = row.id
  · have : x = row := eq_of_key hx hrow hxid
    rw [this]
    exact ⟨row', (mem_put_of_mem hrow hsame.id).mpr (.inl rfl), hsame⟩
  · exact ⟨x, (mem_put_of_mem hrow hsame.id).mpr (.inr ⟨hx, hxid⟩), SameRow.refl x⟩

theorem jobs_put {jobs : Table McpInteractionResumeJob McpInteractionResumeJob.id}
    {job job' : McpInteractionResumeJob} (hjob : job ∈ jobs) (hsame : SameJob job job') :
    ∀ y ∈ jobs, ∃ y' ∈ jobs.put job', SameJob y y' := by
  intro y hy
  by_cases hyid : y.id = job.id
  · have : y = job := eq_of_key hy hjob hyid
    rw [this]
    exact ⟨job', (mem_put_of_mem hjob hsame.id).mpr (.inl rfl), hsame⟩
  · exact ⟨y, (mem_put_of_mem hjob hsame.id).mpr (.inr ⟨hy, hyid⟩), SameJob.refl y⟩

theorem recordsKept_step {event : RoundEvent} (step : RoundStep maxRounds s event s') :
    RecordsKept s s' := by
  cases step with
  | opened insert _ _ _ _ =>
    exact ⟨fun x hx => ⟨x, (mem_insert? insert).mpr (.inr hx), SameRow.refl x⟩,
      (RecordsKept.refl s).jobs⟩
  | lapsed mem _ _ => exact ⟨rows_put mem ⟨rfl, rfl, rfl, rfl, rfl, rfl⟩, (RecordsKept.refl s).jobs⟩
  | answered mem _ _ _ insert _ _ _ _ _ =>
    exact ⟨rows_put mem ⟨rfl, rfl, rfl, rfl, rfl, rfl⟩,
      fun y hy => ⟨y, (mem_insert? insert).mpr (.inr hy), SameJob.refl y⟩⟩
  | paired round change =>
    exact ⟨rows_put round.row_mem change.sameRow, jobs_put round.job_mem change.sameJob⟩
  | orphaned mem _ _ => exact ⟨(RecordsKept.refl s).rows, jobs_put mem ⟨rfl, rfl, rfl, rfl, rfl⟩⟩

theorem recordsKept_rounds {events : List RoundEvent}
    (hrun : Run (RoundStep maxRounds) s events s') : RecordsKept s s' := by
  have htrue : ∀ (a : InteractionStore) (e : RoundEvent) (b : InteractionStore), True →
      RoundStep maxRounds a e b → True := fun _ _ _ _ _ => trivial
  exact hrun.rel RecordsKept.refl (fun _ _ _ => RecordsKept.trans) trivial htrue
    (fun _ _ _ _ hstep => recordsKept_step hstep)

/-! ### One job for each round -/

def jobRound (job : McpInteractionResumeJob) : String × Nat := (job.interactionId, job.revision)

theorem Consistent.uniqueJobs (h : Consistent maxRounds s) :
    s.jobs.Unique jobRound := by
  intro j₁ hj₁ j₂ hj₂ heq
  exact h.one_job j₁ hj₁ j₂ hj₂ (congrArg Prod.fst heq) (congrArg Prod.snd heq)

/-! ### Accepted responses -/

/-- Whose response to which round was accepted, under which key. -/
structure Acceptance where
  principal : Principal
  interactionId : String
  revision : Nat
  key : String
deriving DecidableEq

def InteractionEvent.acceptance (e : InteractionEvent) : Option Acceptance :=
  match e.call, e.outcome with
  | .submitResponse _ _ _ principal interactionId revision key _, .ok (.claim claim) =>
      if claim.status = .accepted then some ⟨principal, interactionId, revision, key⟩ else none
  | _, _ => none

/-- The response is on record: its row belongs to the actor and a job of the round
    carries the digest of the key. -/
structure OnRecord (repository : InteractionRepository) (s : InteractionStore) (a : Acceptance) :
    Prop where
  row : ∃ row ∈ s.interactions, row.id = a.interactionId ∧ row.tenantId = a.principal.tenantId ∧
    row.platformUserId = a.principal.platformUserId ∧
    row.externalIdentityId = a.principal.externalIdentityId
  job : ∃ job ∈ s.jobs, job.interactionId = a.interactionId ∧ job.revision = a.revision ∧
    repository.idempotencyDigest a.principal.tenantId a.interactionId a.revision a.key =
      .ok job.responseIdempotencyKey

variable {repository : InteractionRepository} {a : Acceptance}

theorem OnRecord.kept (h : OnRecord repository s a) (hkept : RecordsKept s s') :
    OnRecord repository s' a := by
  obtain ⟨row, hrow, hid, htenant, huser, hident⟩ := h.row
  obtain ⟨job, hjob, hjobId, hrev, hdigest⟩ := h.job
  obtain ⟨row', hrow', hsame⟩ := hkept.rows row hrow
  obtain ⟨job', hjob', hsameJob⟩ := hkept.jobs job hjob
  refine ⟨⟨row', hrow', hsame.id.trans hid, hsame.tenantId.trans htenant,
    hsame.platformUserId.trans huser, hsame.externalIdentityId.trans hident⟩,
    ⟨job', hjob', hsameJob.interactionId.trans hjobId, hsameJob.revision.trans hrev, ?_⟩⟩
  rw [hsameJob.responseIdempotencyKey]
  exact hdigest

theorem onRecord_of_acceptance {e : InteractionEvent} (h : interactionStep repository s e s')
    (ha : e.acceptance = some a) :
    OnRecord repository s' a ∧
      ∀ job ∈ s.jobs, job.interactionId = a.interactionId → job.revision ≠ a.revision := by
  obtain ⟨call, outcome⟩ := e
  cases call with
  | submitResponse newId entropy now principal interactionId revision key inputResponses =>
    rcases replying_transactionCatching h with ⟨r, rfl, hf⟩ | ⟨error, rfl, rfl⟩
    · cases submitResponse_submitted hf with
      | @accepted row job jobs state addressed _ _ unanswered insert _ interaction _ round digest =>
        simp only [InteractionEvent.acceptance, Except.map, if_true, Option.some.injEq] at ha
        subst ha
        have hmem : job ∈ jobs := (mem_insert? insert).mpr (.inl rfl)
        have hsame : SameRow row (row.withState state now) := ⟨rfl, rfl, rfl, rfl, rfl, rfl⟩
        have hrow : row.withState state now ∈ s.interactions.put (row.withState state now) :=
          (mem_put_of_mem addressed.mem hsame.id).mpr (.inl rfl)
        refine ⟨⟨⟨_, hrow, addressed.id, addressed.tenantId, addressed.platformUserId,
          addressed.externalIdentityId⟩, ⟨job, hmem, interaction.trans addressed.id,
          round.trans addressed.revision, digest⟩⟩, ?_⟩
        intro y hy hid
        rw [← addressed.revision]
        exact unanswered y hy (hid.trans addressed.id.symm)
      | _ => cases ha
    · cases ha
  | _ => cases ha

theorem Submitted.addressed_of_duplicate {newId interactionId key : String} {now : Int}
    {principal : Principal} {revision : Nat} {r : Except RepositoryError ResponseClaim}
    (h : Submitted repository newId now principal interactionId revision key s r s')
    (hr : r = .ok ⟨interactionId, revision, .duplicate⟩) :
    ∃ row, Addressed s principal interactionId revision row := by
  cases h with
  | duplicate addressed _ _ => exact ⟨_, addressed⟩
  | accepted _ _ _ _ _ _ _ _ _ _ _ _ => simp at hr
  | refused _ => cases hr
  | lapsed _ _ _ => cases hr

theorem OnRecord.duplicate (h : OnRecord repository s a) (hunique : s.jobs.Unique jobRound)
    {row : McpInteraction} (hrow : row ∈ s.interactions) (hid : row.id = a.interactionId) (hrev : row.revision = a.revision)
    (newId entropy : String) (now : Int) (inputResponses : List (String × Json)) :
    repository.submitResponse newId entropy now a.principal a.interactionId a.revision a.key
      inputResponses s = (.ok ⟨a.interactionId, a.revision, .duplicate⟩, s) := by
  obtain ⟨row₀, hrow₀, hid₀, htenant, huser, hident⟩ := h.row
  obtain ⟨job, hjob, hjobId, hjobRevision, hdigest⟩ := h.job
  have : row₀ = row := eq_of_key hrow₀ hrow (hid₀.trans hid.symm)
  subst this
  have hlocked := lockedInteraction_of_mem hrow
  rw [hid, htenant] at hlocked
  have hfound : s.jobOfRound row₀.id a.revision = some job := by
    cases hfind : s.jobOfRound row₀.id a.revision with
    | none =>
      rw [← hrev] at hfind
      exact absurd (hjobRevision.trans hrev.symm)
        (jobOfRound_eq_none.mp hfind job hjob (hjobId.trans hid.symm))
    | some other =>
      obtain ⟨hother, hotherId, hotherRevision⟩ := jobOfRound_eq_some hfind
      rw [hunique other hother job hjob (Prod.ext (hotherId.trans (hid.trans hjobId.symm))
        (hotherRevision.trans hjobRevision.symm))]
  have hactor : ¬ (row₀.platformUserId ≠ a.principal.platformUserId ∨
      row₀.externalIdentityId ≠ a.principal.externalIdentityId) := by
    rw [huser, hident]
    simp
  rw [hid] at hfound
  simp only [InteractionRepository.submitResponse, hdigest, hlocked, if_neg hactor, hrev,
    ne_eq, not_true_eq_false, if_false, hfound, if_true, hid]

variable {w w' : Clocked InteractionStore Int} {hist : List InteractionEvent}

def resubmission (a : Acceptance) (newId entropy : String) (now : Int)
    (inputResponses : List (String × Json)) : InteractionCall :=
  .submitResponse newId entropy now a.principal a.interactionId a.revision a.key inputResponses

/-- **When a response is recognised again.**  After a response was accepted, the
    same submission is a duplicate that changes nothing exactly while the
    interaction is still at the round of the response; and no other response to
    that round is ever accepted. -/
theorem resubmission_duplicate_iff (hfresh : Fresh w.store)
    (hrun : InteractionRun repository w hist w') {later earlier : List InteractionEvent}
    {e : InteractionEvent} {a : Acceptance} (hsplit : hist = later ++ e :: earlier)
    (ha : e.acceptance = some a) :
    (∀ newId entropy now inputResponses,
      runCall repository (resubmission a newId entropy now inputResponses) w'.store =
          (.ok (.claim ⟨a.interactionId, a.revision, .duplicate⟩), w'.store) ↔
        ∃ row ∈ w'.store.interactions, row.id = a.interactionId ∧ row.revision = a.revision) ∧
    ∀ e' ∈ later, ∀ a', e'.acceptance = some a' →
      ¬ (a'.interactionId = a.interactionId ∧ a'.revision = a.revision) := by
  have hconsistent := consistent_run hfresh hrun
  rw [hsplit] at hrun
  obtain ⟨m, m', hearlier, hstep, hlater⟩ := hrun.split
  have hrecord := (onRecord_of_acceptance hstep.store_step ha).1
  constructor
  · intro newId entropy now inputResponses
    constructor
    · intro hcall
      rcases replying_transactionCatching hcall with ⟨r, hr, hf⟩ | ⟨error, hr, -⟩
      · have hclaim : r = .ok ⟨a.interactionId, a.revision, .duplicate⟩ := by
          cases r with
          | error error => cases hr
          | ok claim =>
            cases hr
            rfl
        obtain ⟨row, addressed⟩ := (submitResponse_submitted hf).addressed_of_duplicate hclaim
        exact ⟨row, addressed.mem, addressed.id, addressed.revision⟩
      · cases hr
    · rintro ⟨row, hrow, hid, hrevision⟩
      obtain ⟨events, hevents, -, -⟩ := interactionRun_rounds hlater
      have hkept := hrecord.kept (recordsKept_rounds hevents)
      have hduplicate := hkept.duplicate hconsistent.uniqueJobs hrow hid hrevision newId entropy now
        inputResponses
      simp only [runCall, resubmission, inTransactionCatching, hduplicate, replying, Except.map]
  · intro e' he' a' ha' hround
    obtain ⟨after, before, rfl⟩ := List.append_of_mem he'
    obtain ⟨n, n', hbefore, hstep', -⟩ := hlater.split
    obtain ⟨events, hevents, -, -⟩ := interactionRun_rounds hbefore
    obtain ⟨job, hjob, hid, hrevision, -⟩ := (hrecord.kept (recordsKept_rounds hevents)).job
    have hfirst := (onRecord_of_acceptance hstep'.store_step ha').2
    exact hfirst job hjob (hid.trans hround.1.symm) (hrevision.trans hround.2.symm)

def sampleAcceptance : Acceptance := ⟨sampleActor, "i", 1, "k"⟩

theorem resubmission_duplicate_iff_sample :
    let run := runCalls sampleRepository (sampleCalls.take 2) [] InteractionStore.empty
    run.1.filterMap InteractionEvent.acceptance = [sampleAcceptance] ∧
      (runCall sampleRepository (resubmission sampleAcceptance "j'" "e" 2 sampleResponses) run.2 =
          (.ok (.claim ⟨"i", 1, .duplicate⟩), run.2) ↔
        ∃ row ∈ run.2.interactions, row.id = "i" ∧ row.revision = 1) := by
  have hrun : InteractionRun sampleRepository ⟨0, InteractionStore.empty⟩ _ _ :=
    runCalls_of_empty (show clockOrdered 0 (sampleCalls.take 2) = true by decide)
  have hsplit : (runCalls sampleRepository (sampleCalls.take 2) [] InteractionStore.empty).1 =
      [] ++ _ :: [_] := rfl
  have hiff := (resubmission_duplicate_iff fresh_empty hrun hsplit
    (show _ = some sampleAcceptance by decide +kernel)).1 "j'" "e" 2 sampleResponses
  exact ⟨by decide +kernel, hiff⟩

def advancedCalls : List InteractionCall :=
  sampleCalls.take 3 ++
    [.pause "i2" "e" 4 4 ⟨{ sampleFields with
      interactionId := some "i", previousRevision := some 1, leaseFence := some ⟨"j", "w", 1⟩ },
      by decide⟩]

def Outcome.error? : Outcome → Option RepositoryError
  | .error error => some error
  | .ok _ => none

/-- A response that was accepted is not recognised once the interaction advanced. -/
theorem resubmission_after_advance :
    let run := runCalls sampleRepository advancedCalls [] InteractionStore.empty
    clockOrdered 0 advancedCalls = true ∧
      InteractionRun sampleRepository ⟨0, InteractionStore.empty⟩ run.1
        ⟨lastReading 0 advancedCalls, run.2⟩ ∧
      run.1.filterMap InteractionEvent.acceptance = [sampleAcceptance] ∧
      Outcome.error? (runCall sampleRepository
        (resubmission sampleAcceptance "j'" "e" 5 sampleResponses) run.2).1 =
          some (.state .revisionConflict) :=
  ⟨by decide, runCalls_of_empty (by decide), by decide +kernel, by decide +kernel⟩

end MultiRag.McpInteractions
