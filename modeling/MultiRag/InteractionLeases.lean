/-
  **Leases: fencing and at-most-once replay.**

  The history of a run holds two lists of leases: those `lease_ready` issued and those a worker
  closed a round with. `LeaseLedger` relates them to the job table.
-/
import MultiRag.InteractionSafety

namespace MultiRag.McpInteractions

open List Table

open InteractionRepository (leasedJob)

/-! ### The ledger of leases -/

def leasesOf (jobId : String) (leases : List InteractionLeaseFence) : List InteractionLeaseFence :=
  leases.filter (fun lease => lease.jobId == jobId)

theorem leasesOf_append (jobId : String) (newer older : List InteractionLeaseFence) :
    leasesOf jobId (newer ++ older) = leasesOf jobId newer ++ leasesOf jobId older :=
  filter_append _ _

theorem leasesOf_some (lease : InteractionLeaseFence) :
    leasesOf lease.jobId (some lease).toList = [lease] := by
  simp [leasesOf]

theorem leasesOf_none (jobId : String) : leasesOf jobId (none : Option _).toList = [] := rfl

theorem leasesOf_of_ne {jobId : String} {lease : Option InteractionLeaseFence}
    (h : ∀ l, lease = some l → l.jobId ≠ jobId) : leasesOf jobId lease.toList = [] := by
  cases lease with
  | none => rfl
  | some l => simp [leasesOf, h l rfl]

def McpInteractionResumeJob.open (job : McpInteractionResumeJob) : Prop :=
  job.state = .responseReady ∨ job.state = .leased

structure LeaseLedger (issued closed : List InteractionLeaseFence) (s : InteractionStore) :
    Prop where
  attempts : ∀ job ∈ s.jobs, (leasesOf job.id issued).length = job.attempt
  latest : ∀ job ∈ s.jobs, job.state = .leased → ∃ owner, job.leaseOwner = some owner ∧
    (leasesOf job.id issued).head? = some ⟨job.id, owner, job.attempt⟩
  open_jobs : ∀ job ∈ s.jobs, job.open → leasesOf job.id closed = []
  closed_jobs : ∀ job ∈ s.jobs, (leasesOf job.id closed).length ≤ 1
  known : ∀ lease ∈ issued ++ closed, ∃ job ∈ s.jobs, job.id = lease.jobId

theorem Fresh.leaseLedger {s : InteractionStore} (h : Fresh s) : LeaseLedger [] [] s where
  attempts job hjob := absurd hjob (h.jobs job)
  latest job hjob := absurd hjob (h.jobs job)
  open_jobs job hjob := absurd hjob (h.jobs job)
  closed_jobs job hjob := absurd hjob (h.jobs job)
  known _ hlease := absurd hlease not_mem_nil

variable {s : InteractionStore} {maxRounds : Nat} {row row' : McpInteraction}
  {job job' : McpInteractionResumeJob} {event : RoundEvent}

/-- What a change of a round does to the ledger: it may issue the next lease of
    the job, or close the job with one of its leases. -/
theorem PairChange.ledger (change : PairChange s maxRounds row job event row' job') :
    (∀ lease, event.issued = some lease → lease.jobId = job.id) ∧
      (∀ lease, event.closing = some lease → lease.jobId = job.id ∧ ¬ job'.open) ∧
      ((event.issued = none ∧ job'.attempt = job.attempt ∧
          (job'.state = .leased → job.state = .leased ∧ job'.leaseOwner = job.leaseOwner)) ∨
        ∃ owner, event.issued = some ⟨job.id, owner, job.attempt + 1⟩ ∧
          job'.attempt = job.attempt + 1 ∧ job'.leaseOwner = some owner) := by
  cases change with
  | @leased owner leaseSeconds now due effect reusable =>
    refine ⟨?_, ?_, .inr ⟨owner, rfl, rfl, rfl⟩⟩
    · intro lease hlease
      cases hlease
      rfl
    · exact nofun
  | dropped due given_up | returned fenced _ =>
    refine ⟨?_, ?_, .inl ⟨rfl, rfl, ?_⟩⟩
    · exact nofun
    · exact nofun
    · exact nofun
  | advanced fenced _ _ | completed fenced =>
    refine ⟨?_, ?_, .inl ⟨rfl, rfl, ?_⟩⟩
    · exact nofun
    · intro lease hlease
      cases hlease
      exact ⟨fenced.job_id.symm, by simp [McpInteractionResumeJob.open,
        McpInteractionResumeJob.succeededJob]⟩
    · exact nofun
  | failed fenced =>
    refine ⟨?_, ?_, .inl ⟨rfl, rfl, ?_⟩⟩
    · exact nofun
    · intro lease hlease
      cases hlease
      exact ⟨fenced.job_id.symm, by simp [McpInteractionResumeJob.open,
        McpInteractionResumeJob.terminalJob]⟩
    · exact nofun
  | renewed fenced =>
    refine ⟨?_, ?_, .inl ⟨rfl, rfl, ?_⟩⟩
    · exact nofun
    · exact nofun
    · intro hstate
      exact ⟨hstate, rfl⟩

variable {issued closed : List InteractionLeaseFence}
  {jobs : Table McpInteractionResumeJob McpInteractionResumeJob.id}

theorem ledger_answered (h : LeaseLedger issued closed s)
    {interactions : Table McpInteraction McpInteraction.id}
    (insert : s.jobs.insert? job = some jobs) (attempt : job.attempt = 0)
    (unleased : job.state ≠ .leased) :
    LeaseLedger issued closed ⟨interactions, jobs⟩ := by
  have hfresh := fresh_of_insert? insert
  have hmem y := mem_insert? (x := y) insert
  -- nothing in the history mentions the new job
  have hnew : ∀ leases, (∀ lease ∈ leases, ∃ y ∈ s.jobs, y.id = lease.jobId) →
      leasesOf job.id leases = [] := by
    intro leases hknown
    rw [leasesOf, filter_eq_nil_iff]
    intro lease hlease
    obtain ⟨y, hy, hid⟩ := hknown lease hlease
    rw [beq_iff_eq]
    intro heq
    exact hfresh y hy (hid.trans heq)
  have hissued := hnew issued (fun lease hl => h.known lease (mem_append_left _ hl))
  have hclosed := hnew closed (fun lease hl => h.known lease (mem_append_right _ hl))
  refine ⟨?_, ?_, ?_, ?_, ?_⟩
  · intro y hy
    rcases (hmem y).mp hy with rfl | hold
    · rw [hissued, attempt]; rfl
    · exact h.attempts y hold
  · intro y hy hleased
    rcases (hmem y).mp hy with rfl | hold
    · exact absurd hleased unleased
    · exact h.latest y hold hleased
  · intro y hy hopen
    rcases (hmem y).mp hy with rfl | hold
    · exact hclosed
    · exact h.open_jobs y hold hopen
  · intro y hy
    rcases (hmem y).mp hy with rfl | hold
    · rw [hclosed]; exact Nat.zero_le _
    · exact h.closed_jobs y hold
  · intro lease hlease
    obtain ⟨y, hy, hid⟩ := h.known lease hlease
    exact ⟨y, (hmem y).mpr (.inr hy), hid⟩

theorem ledger_paired (h : LeaseLedger issued closed s) (mem : job ∈ s.jobs)
    (change : PairChange s maxRounds row job event row' job') :
    LeaseLedger (event.issued.toList ++ issued) (event.closing.toList ++ closed)
      ((s.putRow row').putJob job') := by
  obtain ⟨hissuedId, hclosingId, hledger⟩ := change.ledger
  have hid := change.sameJob.id
  have hmem y := mem_putJob (y := y) mem hid
  have hopen : job.open := change.open_job
  have hnotClosed := h.open_jobs job mem hopen
  have hissuedOther : ∀ y : McpInteractionResumeJob, y.id ≠ job.id →
      leasesOf y.id event.issued.toList = [] := by
    intro y hne
    apply leasesOf_of_ne
    intro lease hlease
    rw [hissuedId lease hlease]
    exact hne.symm
  have hclosingOther : ∀ y : McpInteractionResumeJob, y.id ≠ job.id →
      leasesOf y.id event.closing.toList = [] := by
    intro y hne
    apply leasesOf_of_ne
    intro lease hlease
    rw [(hclosingId lease hlease).1]
    exact hne.symm
  refine ⟨?_, ?_, ?_, ?_, ?_⟩
  · intro y hy
    rcases (hmem y).mp hy with rfl | ⟨hold, hne⟩
    · rw [hid, leasesOf_append, length_append, h.attempts job mem]
      rcases hledger with ⟨hnone, hatt, -⟩ | ⟨owner, hsome, hatt, -⟩
      · rw [hnone, hatt, leasesOf_none, length_nil, Nat.zero_add]
      · have hone := leasesOf_some ⟨job.id, owner, job.attempt + 1⟩
        rw [hsome, hatt, hone, length_singleton, Nat.add_comm]
    · rw [leasesOf_append, hissuedOther y hne, nil_append]
      exact h.attempts y hold
  · intro y hy hleased
    rcases (hmem y).mp hy with rfl | ⟨hold, hne⟩
    · rw [hid, leasesOf_append]
      rcases hledger with ⟨hnone, hatt, hkeep⟩ | ⟨owner, hsome, hatt, howner⟩
      · obtain ⟨hwas, hsameOwner⟩ := hkeep hleased
        obtain ⟨owner, howner, hlatest⟩ := h.latest job mem hwas
        refine ⟨owner, hsameOwner.trans howner, ?_⟩
        rw [hnone, hatt, leasesOf_none, nil_append]
        exact hlatest
      · have hone := leasesOf_some ⟨job.id, owner, job.attempt + 1⟩
        refine ⟨owner, howner, ?_⟩
        rw [hsome, hatt, hone]
        rfl
    · rw [leasesOf_append, hissuedOther y hne, nil_append]
      exact h.latest y hold hleased
  · intro y hy hyopen
    rcases (hmem y).mp hy with rfl | ⟨hold, hne⟩
    · rw [hid, leasesOf_append, hnotClosed, append_nil]
      cases hclosing : event.closing with
      | none => rfl
      | some lease => exact absurd hyopen (hclosingId lease hclosing).2
    · rw [leasesOf_append, hclosingOther y hne, nil_append]
      exact h.open_jobs y hold hyopen
  · intro y hy
    rcases (hmem y).mp hy with rfl | ⟨hold, hne⟩
    · rw [hid, leasesOf_append, hnotClosed, append_nil]
      refine le_trans (length_filter_le _ _) ?_
      cases event.closing <;> simp
    · rw [leasesOf_append, hclosingOther y hne, nil_append]
      exact h.closed_jobs y hold
  · intro lease hlease
    have hcases : event.issued = some lease ∨ event.closing = some lease ∨
        lease ∈ issued ++ closed := by
      simp only [mem_append, Option.mem_toList] at hlease ⊢
      tauto
    have hknown : ∃ y ∈ s.jobs, y.id = lease.jobId := by
      rcases hcases with hlease | hlease | hlease
      · exact ⟨job, mem, (hissuedId lease hlease).symm⟩
      · exact ⟨job, mem, (hclosingId lease hlease).1.symm⟩
      · exact h.known lease hlease
    obtain ⟨y, hy, hyid⟩ := hknown
    by_cases hyjob : y.id = job.id
    · exact ⟨job', (hmem job').mpr (.inl rfl), hid.trans (hyjob.symm.trans hyid)⟩
    · exact ⟨y, (hmem y).mpr (.inr ⟨hy, hyjob⟩), hyid⟩

/-- **Every write keeps the ledger.** -/
theorem ledger_step {s' : InteractionStore} (hconsistent : Consistent maxRounds s)
    (h : LeaseLedger issued closed s) (step : RoundStep maxRounds s event s') :
    LeaseLedger (event.issued.toList ++ issued) (event.closing.toList ++ closed) s' := by
  cases step with
  | opened _ _ _ _ _ => exact { h with }
  | lapsed _ _ _ => exact { h with }
  | answered mem _ _ _ insert _ _ _ attempt states =>
    refine ledger_answered h insert attempt ?_
    rcases states with ⟨hstate, -⟩ | ⟨hstate, -⟩ <;> simp [hstate]
  | paired round change => exact ledger_paired h round.job_mem change
  | orphaned mem due none => exact absurd none (hconsistent.not_orphaned mem due)

variable {events : List RoundEvent} {s₀ : InteractionStore}

theorem ledger_run (hfresh : Fresh s₀)
    (hrun : Run (RoundStep maxRounds) s₀ events s) :
    Consistent maxRounds s ∧
      LeaseLedger (events.filterMap RoundEvent.issued) (events.filterMap RoundEvent.closing) s := by
  induction hrun with
  | nil => exact ⟨hfresh.consistent _, hfresh.leaseLedger⟩
  | @cons events m s e hrun hstep ih =>
    have hissued : (e :: events).filterMap RoundEvent.issued =
        e.issued.toList ++ events.filterMap RoundEvent.issued := by
      cases he : e.issued <;> simp [he]
    have hclosing : (e :: events).filterMap RoundEvent.closing =
        e.closing.toList ++ events.filterMap RoundEvent.closing := by
      cases he : e.closing <;> simp [he]
    rw [hissued, hclosing]
    exact ⟨consistent_step ih.1 hstep, ledger_step ih.1 ih.2 hstep⟩

/-! ### Rows that are settled stay as they are -/

def settledStates : List InteractionState := [.completed, .declined, .cancelled, .failed]

/-- Every row is still there, at the same round or a later one, and unchanged if
    it was settled. -/
def RowsKept (s s' : InteractionStore) : Prop :=
  ∀ row ∈ s.interactions, ∃ row' ∈ s'.interactions, row'.id = row.id ∧
    row.revision ≤ row'.revision ∧ (row.state ∈ settledStates → row' = row)

variable {s' : InteractionStore}

theorem RowsKept.refl (s : InteractionStore) : RowsKept s s :=
  fun row hrow => ⟨row, hrow, rfl, le_rfl, fun _ => rfl⟩

theorem RowsKept.trans {a b c : InteractionStore} (hab : RowsKept a b) (hbc : RowsKept b c) :
    RowsKept a c := by
  intro row hrow
  obtain ⟨row₁, hrow₁, hid₁, hle₁, hsettled₁⟩ := hab row hrow
  obtain ⟨row₂, hrow₂, hid₂, hle₂, hsettled₂⟩ := hbc row₁ hrow₁
  refine ⟨row₂, hrow₂, hid₂.trans hid₁, le_trans hle₁ hle₂, ?_⟩
  intro hstate
  have h₁ := hsettled₁ hstate
  rw [h₁] at hsettled₂
  exact hsettled₂ hstate

theorem rowsKept_put
    (hrow : row ∈ s.interactions) (hid : row'.id = row.id) (hrev : row.revision ≤ row'.revision)
    (hunsettled : row.state ∉ settledStates) :
    RowsKept s ⟨s.interactions.put row', jobs⟩ := by
  intro x hx
  by_cases hxid : x.id = row.id
  · have : x = row := eq_of_key hx hrow hxid
    subst this
    exact ⟨row', (mem_put_of_mem hrow hid).mpr (.inl rfl), hid, hrev,
      fun hstate => absurd hstate hunsettled⟩
  · exact ⟨x, (mem_put_of_mem hrow hid).mpr (.inr ⟨hx, hxid⟩), rfl, le_rfl,
      fun _ => rfl⟩

theorem Consistent.closed_of_settled (h : Consistent maxRounds s) (hrow : row ∈ s.interactions)
    (hsettled : row.state ∈ settledStates) :
    ¬ Unanswered s row ∧ ∀ job, CurrentRound s row job → ¬ job.open := by
  simp only [settledStates, mem_cons, not_mem_nil, or_false] at hsettled
  constructor
  · intro hunanswered
    rcases h.unanswered row hrow hunanswered with hstate | hstate <;> simp [hstate] at hsettled
  · intro job round hopen
    have hagree := round.agree h
    rcases hopen with hopen | hopen <;> rw [hopen] at hagree <;>
      rcases hsettled with hstate | hstate | hstate | hstate <;> simp [hstate, Agree] at hagree

theorem rowsKept_step (h : Consistent maxRounds s)
    (step : RoundStep maxRounds s event s') : RowsKept s s' := by
  cases step with
  | opened insert _ _ _ _ =>
    intro x hx
    exact ⟨x, (mem_insert? insert).mpr (.inr hx), rfl, le_rfl, fun _ => rfl⟩
  | lapsed mem unanswered _ =>
    exact rowsKept_put mem rfl le_rfl
      (fun hsettled => (h.closed_of_settled mem hsettled).1 unanswered)
  | answered mem awaiting _ _ _ _ _ _ _ _ =>
    refine rowsKept_put mem rfl le_rfl ?_
    rw [awaiting]
    decide
  | paired round change =>
    refine rowsKept_put round.row_mem change.sameRow.id ?_ ?_
    · rcases change.result with ⟨hrev, -⟩ | ⟨hrev, -⟩ <;> omega
    · intro hsettled
      exact (h.closed_of_settled round.row_mem hsettled).2 _ round change.open_job
  | orphaned mem due none => exact absurd none (h.not_orphaned mem due)

theorem rowsKept_rounds (h : Consistent maxRounds s)
    (hrun : Run (RoundStep maxRounds) s events s') : RowsKept s s' :=
  hrun.rel RowsKept.refl (fun _ _ _ => RowsKept.trans) h
    (fun _ _ _ hs hstep => consistent_step hs hstep) (fun _ _ _ hs hstep => rowsKept_step hs hstep)

/-! ### Fencing -/

/-- The lease a committed call showed, with the clock reading its fence was
    checked against. -/
def InteractionEvent.shown (e : InteractionEvent) : Option (InteractionLeaseFence × Int) :=
  match e.outcome with
  | .error _ => none
  | .ok _ =>
      match e.call with
      | .pause _ _ _ now request => request.leaseFence.map (fun lease => (lease, now))
      | .complete lease _ fenceNow _ _ => some (lease, fenceNow)
      | .terminalFail lease fenceNow _ _ => some (lease, fenceNow)
      | .retry lease fenceNow _ _ _ => some (lease, fenceNow)
      | .renew lease fenceNow _ _ => some (lease, fenceNow)
      | _ => none

variable {repository : InteractionRepository} {w w' : Clocked InteractionStore Int} {hist : List InteractionEvent}

theorem interactionStep_fenced {e : InteractionEvent} {lease : InteractionLeaseFence} {now : Int}
    (h : interactionStep repository s e s') (hshown : e.shown = some (lease, now)) :
    ∃ row job, Fenced s lease now row job := by
  obtain ⟨call, outcome⟩ := e
  cases call with
  | pause newId entropy appNow now' request =>
    rcases replying_transaction h with ⟨receipt, rfl, hf⟩ | ⟨error, rfl, rfl⟩
    · simp only [InteractionEvent.shown, Option.map_eq_some_iff, Prod.mk.injEq] at hshown
      obtain ⟨fence, hfence, rfl, rfl⟩ := hshown
      exact (pause_rounds hf).1 fence hfence
    · cases hshown
  | complete lease' entropy fenceNow now' result =>
    rcases replying_transaction h with ⟨value, rfl, hf⟩ | ⟨error, rfl, rfl⟩
    · cases hshown
      exact (complete_rounds hf).1
    · cases hshown
  | terminalFail lease' fenceNow now' code =>
    rcases replying_transaction h with ⟨value, rfl, hf⟩ | ⟨error, rfl, rfl⟩
    · cases hshown
      exact (terminalFail_rounds hf : _ ∧ Rounds 0 s [] _ s').1
    · cases hshown
  | retry lease' fenceNow now' delaySeconds code =>
    rcases replying_transaction h with ⟨value, rfl, hf⟩ | ⟨error, rfl, rfl⟩
    · cases hshown
      exact (retry_rounds hf : _ ∧ Rounds 0 s [] _ s').1
    · cases hshown
  | renew lease' fenceNow now' leaseSeconds =>
    rcases replying_transaction h with ⟨value, rfl, hf⟩ | ⟨error, rfl, rfl⟩
    · cases hshown
      exact (renew_rounds hf : _ ∧ Rounds 0 s [] _ s').1
    · cases hshown
  | _ =>
    simp only [InteractionEvent.shown] at hshown
    split at hshown <;> cases hshown

def issuedLeases (hist : List InteractionEvent) : List InteractionLeaseFence :=
  hist.flatMap (fun e => (InteractionEvent.issued e).reverse)

def leasesOfRound (s : InteractionStore) (interactionId : String) (revision : Nat)
    (leases : List InteractionLeaseFence) : List InteractionLeaseFence :=
  leases.filter (fun lease => s.jobs.rows.any (fun job =>
    job.id == lease.jobId && job.interactionId == interactionId && job.revision == revision))

theorem leasesOfRound_eq (h : Consistent maxRounds s) (interactionId : String)
    (revision : Nat) (leases : List InteractionLeaseFence) :
    leasesOfRound s interactionId revision leases = [] ∨
      ∃ job ∈ s.jobs, job.interactionId = interactionId ∧ job.revision = revision ∧
        leasesOfRound s interactionId revision leases = leasesOf job.id leases := by
  by_cases hjob : ∃ job ∈ s.jobs, job.interactionId = interactionId ∧ job.revision = revision
  · obtain ⟨job, hmem, hid, hrev⟩ := hjob
    refine .inr ⟨job, hmem, hid, hrev, ?_⟩
    apply filter_congr
    intro lease _
    rw [Bool.eq_iff_iff, beq_iff_eq, any_eq_true]
    constructor
    · rintro ⟨other, hother, hprop⟩
      simp only [Bool.and_eq_true, beq_iff_eq] at hprop
      have : other = job := h.one_job other hother job hmem (hprop.1.2.trans hid.symm)
        (hprop.2.trans hrev.symm)
      rw [← this]
      exact hprop.1.1.symm
    · intro hlease
      exact ⟨job, hmem, by simp [hlease, hid, hrev]⟩
  · left
    rw [leasesOfRound, filter_eq_nil_iff]
    intro lease _ hany
    obtain ⟨job, hmem, hprop⟩ := any_eq_true.mp hany
    simp only [Bool.and_eq_true, beq_iff_eq] at hprop
    exact hjob ⟨job, hmem, hprop.1.2, hprop.2⟩

/-- **Lease fencing.**  A committed call that shows a lease shows the latest lease
    issued for its job, before the lease and the interaction run out; at most one
    call ever closes a round; and what a closing call stored is never overwritten. -/
theorem interactionRun_fenced (hfresh : Fresh w.store)
    (hrun : InteractionRun repository w hist w') :
    (∀ later e earlier lease now, hist = later ++ e :: earlier → e.shown = some (lease, now) →
      (leasesOf lease.jobId (issuedLeases earlier)).head? = some lease ∧
      ∃ m row job, InteractionRun repository w earlier m ∧ Fenced m.store lease now row job) ∧
    (∀ interactionId revision,
      (leasesOfRound w'.store interactionId revision
        (hist.filterMap InteractionEvent.closing)).length ≤ 1) ∧
    (∀ later earlier m, hist = later ++ earlier → InteractionRun repository w earlier m →
      InteractionRun repository m later w' → RowsKept m.store w'.store) := by
  refine ⟨?_, ?_, ?_⟩
  · intro later e earlier lease now hsplit hshown
    rw [hsplit] at hrun
    obtain ⟨m, m', hearlier, hstep, -⟩ := hrun.split
    obtain ⟨row, job, hfenced⟩ := interactionStep_fenced hstep.store_step hshown
    refine ⟨?_, m, row, job, hearlier, hfenced⟩
    obtain ⟨events, hevents, hissued, -⟩ := interactionRun_rounds hearlier
    obtain ⟨-, hledger⟩ := ledger_run hfresh hevents
    obtain ⟨owner, howner, hlatest⟩ := hledger.latest job hfenced.job_mem hfenced.leased
    rw [hissued, hfenced.job_id, hfenced.attempt] at hlatest
    rw [hfenced.owner, Option.some.injEq] at howner
    rw [← howner] at hlatest
    exact hlatest
  · intro interactionId revision
    obtain ⟨events, hevents, -, hclosing⟩ := interactionRun_rounds hrun
    obtain ⟨hconsistent, hledger⟩ := ledger_run hfresh hevents
    rcases leasesOfRound_eq hconsistent interactionId revision
      (hist.filterMap InteractionEvent.closing) with hnil | ⟨job, hjob, -, -, heq⟩
    · rw [hnil]; exact Nat.zero_le _
    · rw [heq]
      exact le_trans (Sublist.length_le (Sublist.filter _ hclosing))
        (hledger.closed_jobs job hjob)
  · intro later earlier m _ hearlier hlater
    obtain ⟨events, hevents, -, -⟩ := interactionRun_rounds hlater
    exact rowsKept_rounds (consistent_run hfresh hearlier) hevents

theorem interactionRun_fenced_sample :
    (⟨.complete ⟨"j", "w", 1⟩ "e" 4 5 .null, .ok .done⟩ : InteractionEvent).shown =
        some (⟨"j", "w", 1⟩, 4) ∧
      sampleEvents.length = 4 ∧ issuedLeases sampleEvents = [⟨"j", "w", 1⟩] ∧
      ∀ interactionId revision, (leasesOfRound sampleStore interactionId revision
        (sampleEvents.filterMap InteractionEvent.closing)).length ≤ 1 := by
  have hfenced := interactionRun_fenced fresh_empty sample_run
  dsimp only at hfenced
  exact ⟨rfl, by decide +kernel, by decide +kernel, hfenced.2.1⟩

/-! ### At-most-once replay -/

/-- A call that is not reusable is leased at most once a round and never put back;
    a side effect is never leased. -/
structure ReplaySafe (s : InteractionStore) : Prop where
  single_use : ∀ row ∈ s.interactions, ∀ job ∈ s.jobs, job.interactionId = row.id →
    row.replayMode ≠ .reusable →
    job.attempt ≤ 1 ∧ (job.state = .responseReady → job.attempt = 0)
  side_effect : ∀ row ∈ s.interactions, ∀ job ∈ s.jobs, job.interactionId = row.id →
    row.effect = .sideEffect → job.attempt = 0

theorem Fresh.replaySafe (h : Fresh s) : ReplaySafe s where
  single_use _ _ job hjob := absurd hjob (h.jobs job)
  side_effect _ _ job hjob := absurd hjob (h.jobs job)

def Unrepeated (row : McpInteraction) (job : McpInteractionResumeJob) : Prop :=
  (row.replayMode ≠ .reusable → job.attempt ≤ 1 ∧ (job.state = .responseReady → job.attempt = 0)) ∧
    (row.effect = .sideEffect → job.attempt = 0)

theorem replaySafe_iff : ReplaySafe s ↔
    ∀ row ∈ s.interactions, ∀ job ∈ s.jobs, job.interactionId = row.id → Unrepeated row job := by
  constructor
  · exact fun h row hrow job hjob hid => ⟨h.single_use row hrow job hjob hid, h.side_effect row hrow job hjob hid⟩
  · exact fun h => ⟨fun row hrow job hjob hid => (h row hrow job hjob hid).1,
      fun row hrow job hjob hid => (h row hrow job hjob hid).2⟩

theorem PairChange.replay (change : PairChange s maxRounds row job event row' job')
    (h : Unrepeated row job) : Unrepeated row job' := by
  cases change with
  | leased due effect reusable =>
    refine ⟨fun hmode => ?_, fun heffect => absurd heffect effect⟩
    -- an expired lease of such a call is not issued again
    rcases due with hready | hleased
    · have hzero := (h.1 hmode).2 hready
      refine ⟨?_, nofun⟩
      simp only [leasedJob]
      omega
    · exact absurd (reusable hleased) hmode
  | returned fenced reusable => exact ⟨absurd reusable, h.2⟩
  | renewed fenced => exact h
  | _ => exact ⟨fun hmode => ⟨(h.1 hmode).1, nofun⟩, h.2⟩

theorem replaySafe_step (hconsistent : Consistent maxRounds s) (h : ReplaySafe s)
    (step : RoundStep maxRounds s event s') : ReplaySafe s' := by
  rw [replaySafe_iff] at h ⊢
  intro x hx y hy hid
  cases step with
  | @opened row interactions insert _ _ _ _ =>
    rcases (mem_insert? insert).mp hx with rfl | hold
    · obtain ⟨owner, howner, hown, -⟩ := hconsistent.owned y hy
      exact absurd (hown.trans hid) (fresh_of_insert? insert owner howner)
    · exact h x hold y hy hid
  | @lapsed row now mem _ _ =>
    rcases (mem_withState mem .expired now x).mp hx with rfl | ⟨hold, -⟩
    · exact h row mem y hy hid
    · exact h x hold y hy hid
  | @answered row job jobs state now mem _ _ _ insert _ _ _ attempt _ =>
    rcases (mem_insert? insert).mp hy with rfl | holdJob
    · exact ⟨fun _ => ⟨by omega, fun _ => attempt⟩, fun _ => attempt⟩
    · rcases (mem_withState (s := { s with jobs := jobs }) mem state now x).mp hx with rfl | ⟨hold, -⟩
      · exact h row mem y holdJob hid
      · exact h x hold y holdJob hid
  | @paired row row' job job' _ round change =>
    have hrow := change.sameRow
    have hjob := change.sameJob
    -- the row of a job is the changed row or an old one with the same attributes
    have hold : ∃ x₀ ∈ s.interactions, x₀.id = x.id ∧ x₀.replayMode = x.replayMode ∧ x₀.effect = x.effect := by
      rcases (mem_putRow round.row_mem hrow.id).mp hx with rfl | ⟨hx₀, -⟩
      · exact ⟨row, round.row_mem, hrow.id.symm, hrow.replayMode.symm, hrow.effect.symm⟩
      · exact ⟨x, hx₀, rfl, rfl, rfl⟩
    obtain ⟨x₀, hx₀, hid₀, hmode₀, heffect₀⟩ := hold
    rw [← hid₀] at hid
    rw [Unrepeated, ← hmode₀, ← heffect₀]
    rcases (mem_putJob round.job_mem hjob.id).mp hy with rfl | ⟨holdJob, -⟩
    · rw [hjob.interactionId] at hid
      obtain rfl : x₀ = row := eq_of_key hx₀ round.row_mem (hid.symm.trans round.interaction)
      exact change.replay (h x₀ hx₀ job round.job_mem hid)
    · exact h x₀ hx₀ y holdJob hid
  | orphaned mem due none => exact absurd none (hconsistent.not_orphaned mem due)

theorem replaySafe_rounds (hfresh : Fresh s₀)
    (hrun : Run (RoundStep maxRounds) s₀ events s) : ReplaySafe s := by
  have hboth : Consistent maxRounds s ∧ ReplaySafe s := by
    induction hrun with
    | nil => exact ⟨hfresh.consistent _, hfresh.replaySafe⟩
    | cons _ hstep ih => exact ⟨consistent_step ih.1 hstep, replaySafe_step ih.1 ih.2 hstep⟩
  exact hboth.2

/-- **At-most-once remote execution.**  A round of an interaction that is not
    reusable has at most one lease issued, and a side effect has none. -/
theorem interactionRun_atMostOnce (hfresh : Fresh w.store)
    (hrun : InteractionRun repository w hist w') :
    ∀ row ∈ w'.store.interactions, ∀ revision,
      (row.replayMode ≠ .reusable →
        (leasesOfRound w'.store row.id revision (issuedLeases hist)).length ≤ 1) ∧
      (row.effect = .sideEffect →
        leasesOfRound w'.store row.id revision (issuedLeases hist) = []) := by
  intro row hrow revision
  obtain ⟨events, hevents, hissued, -⟩ := interactionRun_rounds hrun
  obtain ⟨hconsistent, hledger⟩ := ledger_run hfresh hevents
  have hsafe := replaySafe_rounds hfresh hevents
  have hattempts : ∀ job ∈ w'.store.jobs,
      (leasesOf job.id (issuedLeases hist)).length = job.attempt := by
    intro job hjob
    have := hledger.attempts job hjob
    rwa [hissued] at this
  rcases leasesOfRound_eq hconsistent row.id revision (issuedLeases hist) with
    hnil | ⟨job, hjob, hid, -, heq⟩
  · rw [hnil]
    exact ⟨fun _ => Nat.zero_le _, fun _ => rfl⟩
  · rw [heq]
    constructor
    · intro hmode
      rw [hattempts job hjob]
      exact (hsafe.single_use row hrow job hjob hid hmode).1
    · intro heffect
      rw [← length_eq_zero_iff, hattempts job hjob]
      exact hsafe.side_effect row hrow job hjob hid heffect

/-- The worker that leased a single-use call never reports back, and another
    worker looks for work after the lease ran out. -/
def singleUseCalls : List InteractionCall :=
  [.pause "i" "e" 0 0 ⟨{ sampleFields with replayMode := .singleUse }, by decide⟩,
    .submitResponse "j" "e" 1 sampleActor "i" 1 "k" sampleResponses,
    .leaseReady "w" 30 1 [] 2 [3],
    .leaseReady "w'" 30 1 [] 40000000 [40000001]]

theorem interactionRun_atMostOnce_singleUse :
    let run := runCalls sampleRepository singleUseCalls [] InteractionStore.empty
    run.2.interactions.rows.map McpInteraction.replayMode = [.singleUse] ∧
      issuedLeases run.1 = [⟨"j", "w", 1⟩] ∧
      ∀ row ∈ run.2.interactions, ∀ revision, row.replayMode ≠ .reusable →
        (leasesOfRound run.2 row.id revision (issuedLeases run.1)).length ≤ 1 := by
  have hrun : InteractionRun sampleRepository ⟨0, InteractionStore.empty⟩ _ _ :=
    runCalls_of_empty (show clockOrdered 0 singleUseCalls = true by decide)
  have honce := interactionRun_atMostOnce fresh_empty hrun
  dsimp only at honce ⊢
  exact ⟨by decide +kernel, by decide +kernel, fun row hrow revision => (honce row hrow revision).1⟩

end MultiRag.McpInteractions
