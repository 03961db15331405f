/-
  **The invariant of the round protocol.**

  `Consistent` ties the two tables together.  It holds of every store without jobs
  (`Fresh`), and every `RoundStep` keeps it.
-/
import MultiRag.InteractionRounds

namespace MultiRag.McpInteractions

open Table

/-! ### The invariant -/

def Agree : InteractionState → JobState → Prop
  | .responseReady, .responseReady => True
  | .resuming, .leased => True
  | .completed, .succeeded | .declined, .succeeded | .cancelled, .succeeded => True
  | .failed, .terminalFailed | .expired, .terminalFailed => True
  | _, _ => False

instance (state : InteractionState) (jobState : JobState) : Decidable (Agree state jobState) := by
  cases state <;> cases jobState <;> unfold Agree <;> infer_instance

structure Consistent (maxRounds : Nat) (s : InteractionStore) : Prop where
  rounds : ∀ row ∈ s.interactions, row.revision = row.roundCount ∧ 1 ≤ row.revision ∧
    row.roundCount ≤ max 1 maxRounds
  one_job : ∀ j₁ ∈ s.jobs, ∀ j₂ ∈ s.jobs, j₁.interactionId = j₂.interactionId →
    j₁.revision = j₂.revision → j₁ = j₂
  owned : ∀ job ∈ s.jobs, ∃ row ∈ s.interactions, row.id = job.interactionId ∧
    row.tenantId = job.tenantId ∧ job.revision ≤ row.revision
  past : ∀ row ∈ s.interactions, ∀ job ∈ s.jobs, job.interactionId = row.id →
    job.revision < row.revision → job.state = .succeeded
  current : ∀ row ∈ s.interactions, ∀ job ∈ s.jobs, job.interactionId = row.id →
    job.revision = row.revision → Agree row.state job.state
  unanswered : ∀ row ∈ s.interactions, Unanswered s row →
    row.state = .awaitingInput ∨ row.state = .expired

/-- A store before any answer: first rounds only, waiting for input. -/
structure Fresh (s : InteractionStore) : Prop where
  jobs : ∀ job, job ∉ s.jobs
  rows : ∀ row ∈ s.interactions, row.state = .awaitingInput ∧ row.revision = 1 ∧ row.roundCount = 1

theorem fresh_empty : Fresh InteractionStore.empty := by
  constructor
  · intro job hjob
    exact not_mem_empty job hjob
  · intro row hrow
    exact absurd hrow (not_mem_empty row)

theorem Fresh.consistent {s : InteractionStore} (h : Fresh s) (maxRounds : Nat) :
    Consistent maxRounds s where
  rounds row hrow := by
    obtain ⟨-, hrev, hround⟩ := h.rows row hrow
    omega
  one_job j₁ hj₁ := absurd hj₁ (h.jobs j₁)
  owned job hjob := absurd hjob (h.jobs job)
  past _ _ job hjob := absurd hjob (h.jobs job)
  current _ _ job hjob := absurd hjob (h.jobs job)
  unanswered row hrow _ := .inl (h.rows row hrow).1

namespace Consistent

variable {maxRounds : Nat} {s : InteractionStore} {row : McpInteraction} {job : McpInteractionResumeJob}

section

variable (h : Consistent maxRounds s)
  (hrow : row ∈ s.interactions)
  (hjob : job ∈ s.jobs)
  (hid : job.interactionId = row.id)
include h hrow hjob hid

theorem tenant :
    row.tenantId = job.tenantId ∧ job.revision ≤ row.revision := by
  obtain ⟨owner, howner, hownerId, htenant, hrev⟩ := h.owned job hjob
  have : owner = row := eq_of_key howner hrow (hownerId.trans hid)
  rw [← this]
  exact ⟨htenant, hrev⟩

theorem current_of_open
    (hopen : job.state = .responseReady ∨ job.state = .leased) :
    job.revision = row.revision := by
  obtain ⟨-, hle⟩ := h.tenant hrow hjob hid
  rcases Nat.lt_or_ge job.revision row.revision with hlt | hge
  · rw [h.past row hrow job hjob hid hlt] at hopen
    simp at hopen
  · exact Nat.le_antisymm hle hge

end

end Consistent

variable {maxRounds : Nat} {s : InteractionStore} {row : McpInteraction}

theorem consistent_opened (h : Consistent maxRounds s)
    {interactions : Table McpInteraction McpInteraction.id}
    (insert : s.interactions.insert? row = some interactions) (state : row.state = .awaitingInput)
    (revision : row.revision = 1) (roundCount : row.roundCount = 1) :
    Consistent maxRounds { s with interactions := interactions } := by
  have hfresh := fresh_of_insert? insert
  have hmem x := mem_insert? (x := x) insert
  -- no job can belong to the new row
  have hnone : ∀ job ∈ s.jobs, job.interactionId ≠ row.id := by
    intro job hjob heq
    obtain ⟨owner, howner, hid, -⟩ := h.owned job hjob
    exact hfresh owner howner (hid.trans heq)
  refine ⟨?_, h.one_job, ?_, ?_, ?_, ?_⟩
  · intro x hx
    rcases (hmem x).mp hx with rfl | hold
    · omega
    · exact h.rounds x hold
  · intro job hjob
    obtain ⟨owner, howner, hrest⟩ := h.owned job hjob
    exact ⟨owner, (hmem owner).mpr (.inr howner), hrest⟩
  · intro x hx job hjob hid
    rcases (hmem x).mp hx with rfl | hold
    · exact absurd hid (hnone job hjob)
    · exact h.past x hold job hjob hid
  · intro x hx job hjob hid
    rcases (hmem x).mp hx with rfl | hold
    · exact absurd hid (hnone job hjob)
    · exact h.current x hold job hjob hid
  · intro x hx hunanswered
    rcases (hmem x).mp hx with rfl | hold
    · exact .inl state
    · exact h.unanswered x hold hunanswered

theorem Consistent.owned_putRow (h : Consistent maxRounds s) (mem : row ∈ s.interactions)
    {row' : McpInteraction} (id : row'.id = row.id) (tenant : row'.tenantId = row.tenantId)
    (revision : row.revision ≤ row'.revision) (job : McpInteractionResumeJob) (hjob : job ∈ s.jobs) :
    ∃ owner ∈ (s.putRow row').interactions, owner.id = job.interactionId ∧
      owner.tenantId = job.tenantId ∧ job.revision ≤ owner.revision := by
  obtain ⟨owner, howner, hid, htenant, hle⟩ := h.owned job hjob
  by_cases howned : owner.id = row.id
  · have : owner = row := eq_of_key howner mem howned
    subst this
    exact ⟨row', (mem_putRow mem id).mpr (.inl rfl), id.trans hid, tenant.trans htenant, hle.trans revision⟩
  · exact ⟨owner, (mem_putRow mem id).mpr (.inr ⟨howner, howned⟩), hid, htenant, hle⟩

variable (h : Consistent maxRounds s) (mem : row ∈ s.interactions) (unanswered : Unanswered s row)
include h mem unanswered

theorem consistent_lapsed (now : Int) :
    Consistent maxRounds (s.putRow (row.withState .expired now)) := by
  have hmem := mem_withState mem .expired now
  refine ⟨?_, h.one_job, h.owned_putRow mem rfl rfl le_rfl, ?_, ?_, ?_⟩
  · intro x hx
    rcases (hmem x).mp hx with rfl | ⟨hold, -⟩
    · exact h.rounds row mem
    · exact h.rounds x hold
  · intro x hx job hjob hid hlt
    rcases (hmem x).mp hx with rfl | ⟨hold, -⟩
    · exact h.past row mem job hjob hid hlt
    · exact h.past x hold job hjob hid hlt
  · intro x hx job hjob hid hrev
    rcases (hmem x).mp hx with rfl | ⟨hold, -⟩
    · exact absurd hrev (unanswered job hjob hid)
    · exact h.current x hold job hjob hid hrev
  · intro x hx hnone
    rcases (hmem x).mp hx with rfl | ⟨hold, -⟩
    · exact .inr rfl
    · exact h.unanswered x hold hnone

variable {job : McpInteractionResumeJob}

theorem consistent_answered
    {jobs : Table McpInteractionResumeJob McpInteractionResumeJob.id} {state : InteractionState}
    (insert : s.jobs.insert? job = some jobs) (interaction : job.interactionId = row.id)
    (tenant : job.tenantId = row.tenantId) (revision : job.revision = row.revision)
    (agree : Agree state job.state) (now : Int) :
    Consistent maxRounds (InteractionStore.putRow { s with jobs := jobs }
      (row.withState state now)) := by
  have hrows := mem_withState (s := { s with jobs := jobs }) mem state now
  have hjobs y := mem_insert? (x := y) insert
  refine ⟨?_, ?_, ?_, ?_, ?_, ?_⟩
  · intro x hx
    rcases (hrows x).mp hx with rfl | ⟨hold, -⟩
    · exact h.rounds row mem
    · exact h.rounds x hold
  · intro j₁ hj₁ j₂ hj₂ hid hrev
    rcases (hjobs j₁).mp hj₁ with rfl | hold₁ <;> rcases (hjobs j₂).mp hj₂ with rfl | hold₂
    · rfl
    · exact absurd (hrev.symm.trans revision) (unanswered j₂ hold₂ (hid.symm.trans interaction))
    · exact absurd (hrev.trans revision) (unanswered j₁ hold₁ (hid.trans interaction))
    · exact h.one_job j₁ hold₁ j₂ hold₂ hid hrev
  · intro y hy
    rcases (hjobs y).mp hy with rfl | hold
    · exact ⟨row.withState state now, (hrows _).mpr (.inl rfl), interaction.symm, tenant.symm,
        le_of_eq revision⟩
    · have hsame : (row.withState state now).id = row.id := rfl
      exact h.owned_putRow mem hsame rfl le_rfl y hold
  · intro x hx y hy hid hlt
    rcases (hrows x).mp hx with rfl | ⟨hold, hne⟩ <;> rcases (hjobs y).mp hy with rfl | holdJob
    · exact absurd revision (Nat.ne_of_lt hlt)
    · exact h.past row mem y holdJob hid hlt
    · exact absurd (hid.symm.trans interaction) hne
    · exact h.past x hold y holdJob hid hlt
  · intro x hx y hy hid hrev
    rcases (hrows x).mp hx with rfl | ⟨hold, hne⟩ <;> rcases (hjobs y).mp hy with rfl | holdJob
    · exact agree
    · exact absurd hrev (unanswered y holdJob hid)
    · exact absurd (hid.symm.trans interaction) hne
    · exact h.current x hold y holdJob hid hrev
  · intro x hx hnone
    rcases (hrows x).mp hx with rfl | ⟨hold, hne⟩
    · exact absurd revision (hnone job ((hjobs job).mpr (.inl rfl)) interaction)
    · exact h.unanswered x hold (fun y hy => hnone y ((hjobs y).mpr (.inr hy)))

omit h mem unanswered

variable {row' : McpInteraction} {job' : McpInteractionResumeJob} {event : RoundEvent}

theorem PairChange.result (change : PairChange s maxRounds row job event row' job') :
    (row'.revision = row.revision ∧ row'.roundCount = row.roundCount ∧
        Agree row'.state job'.state) ∨
      (row'.revision = row.revision + 1 ∧ row'.roundCount = row.roundCount + 1 ∧
        row.roundCount < maxRounds ∧ row'.state = .awaitingInput ∧ job'.state = .succeeded) := by
  cases change with
  | leased _ _ _ => exact .inl ⟨rfl, rfl, trivial⟩
  | dropped _ given_up =>
    rcases given_up with rfl | rfl <;> exact .inl ⟨rfl, rfl, trivial⟩
  | advanced fenced limit next =>
    exact .inr ⟨next.revision, next.roundCount, limit, next.state, rfl⟩
  | completed _ => exact .inl ⟨rfl, rfl, trivial⟩
  | failed _ => exact .inl ⟨rfl, rfl, trivial⟩
  | returned _ _ => exact .inl ⟨rfl, rfl, trivial⟩
  | renewed fenced =>
    refine .inl ⟨rfl, rfl, ?_⟩
    simp only [fenced.resuming, fenced.leased]
    trivial

theorem consistent_paired (h : Consistent maxRounds s) (round : CurrentRound s row job)
    (change : PairChange s maxRounds row job event row' job') :
    Consistent maxRounds ((s.putRow row').putJob job') := by
  have hrow := change.sameRow
  have hjob := change.sameJob
  have hrows x := mem_putRow (x := x) round.row_mem hrow.id
  have hjobs y := mem_putJob (y := y) round.job_mem hjob.id
  have hresult := change.result
  have hid' : job'.interactionId = row'.id := by rw [hjob.interactionId, hrow.id, round.interaction]
  -- another job of the same interaction answers another round
  have hother : ∀ y ∈ s.jobs, y.id ≠ job.id → y.interactionId = row.id → y.revision < row.revision := by
    intro y hy hne hid
    obtain ⟨-, hle⟩ := h.tenant round.row_mem hy hid
    refine Nat.lt_of_le_of_ne hle ?_
    intro hrev
    have heq : y = job := h.one_job y hy job round.job_mem (hid.trans round.interaction.symm)
      (hrev.trans round.revision.symm)
    exact hne (congrArg McpInteractionResumeJob.id heq)
  refine ⟨?_, ?_, ?_, ?_, ?_, ?_⟩
  · intro x hx
    rcases (hrows x).mp hx with rfl | ⟨hold, -⟩
    · obtain ⟨hrev, hpos, hmax⟩ := h.rounds row round.row_mem
      rcases hresult with ⟨h₁, h₂, -⟩ | ⟨h₁, h₂, hlimit, -⟩ <;> omega
    · exact h.rounds x hold
  · intro j₁ hj₁ j₂ hj₂ hid hrev
    rcases (hjobs j₁).mp hj₁ with rfl | ⟨hold₁, hne₁⟩ <;>
      rcases (hjobs j₂).mp hj₂ with rfl | ⟨hold₂, hne₂⟩
    · rfl
    · have heq := h.one_job job round.job_mem j₂ hold₂ (hjob.interactionId.symm.trans hid)
        (hjob.revision.symm.trans hrev)
      exact absurd (congrArg McpInteractionResumeJob.id heq).symm hne₂
    · have heq := h.one_job j₁ hold₁ job round.job_mem (hid.trans hjob.interactionId)
        (hrev.trans hjob.revision)
      exact absurd (congrArg McpInteractionResumeJob.id heq) hne₁
    · exact h.one_job j₁ hold₁ j₂ hold₂ hid hrev
  · intro y hy
    have hle : row.revision ≤ row'.revision := by
      rcases hresult with ⟨h₁, -⟩ | ⟨h₁, -⟩ <;> omega
    have howned := h.owned_putRow round.row_mem hrow.id hrow.tenantId hle
    rcases (hjobs y).mp hy with rfl | ⟨hold, -⟩
    · rw [hjob.interactionId, hjob.tenantId, hjob.revision]
      exact howned job round.job_mem
    · exact howned y hold
  · intro x hx y hy hid hlt
    rcases (hrows x).mp hx with rfl | ⟨hold, hne⟩ <;> rcases (hjobs y).mp hy with rfl | ⟨holdJob, hneJob⟩
    · -- the current job is past only when its round was advanced
      rcases hresult with ⟨h₁, -⟩ | ⟨-, -, -, -, hsucceeded⟩
      · rw [hjob.revision, round.revision, h₁] at hlt
        exact absurd hlt (Nat.lt_irrefl _)
      · exact hsucceeded
    · rw [hrow.id] at hid
      exact h.past row round.row_mem y holdJob hid (hother y holdJob hneJob hid)
    · rw [hid', hrow.id] at hid
      exact absurd hid.symm hne
    · exact h.past x hold y holdJob hid hlt
  · intro x hx y hy hid hrev
    rcases (hrows x).mp hx with rfl | ⟨hold, hne⟩ <;> rcases (hjobs y).mp hy with rfl | ⟨holdJob, hneJob⟩
    · rcases hresult with ⟨-, -, hagree⟩ | ⟨h₁, -⟩
      · exact hagree
      · rw [hjob.revision, round.revision, h₁] at hrev
        exact absurd hrev (Nat.ne_of_lt (Nat.lt_succ_self _))
    · rw [hrow.id] at hid
      have hlt := hother y holdJob hneJob hid
      rcases hresult with ⟨h₁, -⟩ | ⟨h₁, -⟩ <;> omega
    · rw [hid', hrow.id] at hid
      exact absurd hid.symm hne
    · exact h.current x hold y holdJob hid hrev
  · intro x hx hnone
    rcases (hrows x).mp hx with rfl | ⟨hold, hne⟩
    · rcases hresult with ⟨h₁, -⟩ | ⟨-, -, -, hstate, -⟩
      · have hrev := hnone job' ((hjobs job').mpr (.inl rfl)) hid'
        rw [hjob.revision, round.revision, h₁] at hrev
        exact absurd rfl hrev
      · exact .inl hstate
    · refine h.unanswered x hold ?_
      intro y hy hid
      by_cases hy' : y.id = job.id
      · have : y = job := eq_of_key hy round.job_mem hy'
        subst this
        exact absurd (hid.symm.trans round.interaction) hne
      · exact hnone y ((hjobs y).mpr (.inr ⟨hy, hy'⟩)) hid

theorem Consistent.not_orphaned (h : Consistent maxRounds s) (mem : job ∈ s.jobs)
    (due : job.state = .responseReady ∨ job.state = .leased) :
    ¬ ∀ row ∈ s.interactions, row.id = job.interactionId → row.tenantId = job.tenantId →
      row.revision ≠ job.revision := by
  intro hnone
  obtain ⟨row, hrow, hid, htenant, -⟩ := h.owned job mem
  exact hnone row hrow hid htenant (h.current_of_open hrow mem hid.symm due).symm

/-- **Every write of the repository keeps the invariant.** -/
theorem consistent_step {s' : InteractionStore} (h : Consistent maxRounds s)
    (step : RoundStep maxRounds s event s') : Consistent maxRounds s' := by
  cases step with
  | opened insert state revision roundCount _ =>
    exact consistent_opened h insert state revision roundCount
  | lapsed mem unanswered _ => exact consistent_lapsed h mem unanswered _
  | answered mem _ _ unanswered insert interaction tenant revision _ states =>
    refine consistent_answered h mem unanswered insert interaction tenant revision ?_ _
    rcases states with ⟨hjob, rfl⟩ | ⟨hjob, rfl | rfl⟩ <;> rw [hjob] <;> trivial
  | paired round change => exact consistent_paired h round change
  | orphaned mem due none => exact absurd none (h.not_orphaned mem due)

end MultiRag.McpInteractions
