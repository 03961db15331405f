/-
  **Every reachable state of the interaction store is well formed.**

  `RowInvariant` reads the invariant of the round protocol as a statement about one interaction
  row and its jobs.
-/
import MultiRag.InteractionService

namespace MultiRag.McpInteractions

/-! ### The invariant of a row -/

def terminalStates : List InteractionState := [.completed, .declined, .cancelled, .expired, .failed]

structure RowInvariant (maxRounds : Nat) (s : InteractionStore) (row : McpInteraction) : Prop where
  revision_eq : row.revision = row.roundCount
  bounded : row.roundCount ≤ max 1 maxRounds
  one_job : ∀ j₁ ∈ s.jobs, ∀ j₂ ∈ s.jobs, j₁.interactionId = row.id → j₂.interactionId = row.id →
    j₁.revision = j₂.revision → j₁ = j₂
  past : ∀ job ∈ s.jobs, job.interactionId = row.id → job.revision < row.revision →
    job.state = .succeeded
  awaiting : row.state = .awaitingInput → Unanswered s row
  unanswered : Unanswered s row → row.state = .awaitingInput ∨ row.state = .expired
  response_ready : row.state = .responseReady ↔
    ∃ job, CurrentRound s row job ∧ job.state = .responseReady
  resuming : row.state = .resuming ↔ ∃ job, CurrentRound s row job ∧ job.state = .leased
  answered : row.state = .completed ∨ row.state = .declined ∨ row.state = .cancelled →
    ∃ job, CurrentRound s row job ∧ job.state = .succeeded
  failed : row.state = .failed → ∃ job, CurrentRound s row job ∧ job.state = .terminalFailed
  terminal : row.state ∈ terminalStates → ∀ job ∈ s.jobs, job.interactionId = row.id →
    job.state ≠ .responseReady ∧ job.state ≠ .leased

variable {maxRounds : Nat} {s : InteractionStore} {row : McpInteraction}

theorem Consistent.job_of_state (h : Consistent maxRounds s) (hrow : row ∈ s.interactions)
    (hawaiting : row.state ≠ .awaitingInput) (hexp : row.state ≠ .expired) :
    ∃ job, CurrentRound s row job ∧ Agree row.state job.state := by
  by_contra hnone
  have hunanswered : Unanswered s row := by
    intro job hjob hid hrev
    exact hnone ⟨job, ⟨hrow, hjob, hid, hrev⟩, h.current row hrow job hjob hid hrev⟩
  rcases h.unanswered row hrow hunanswered with hstate | hstate
  · exact hawaiting hstate
  · exact hexp hstate

theorem CurrentRound.agree (h : Consistent maxRounds s) {job : McpInteractionResumeJob}
    (round : CurrentRound s row job) : Agree row.state job.state :=
  h.current row round.row_mem job round.job_mem round.interaction round.revision

theorem Consistent.state_iff (h : Consistent maxRounds s) (hrow : row ∈ s.interactions)
    {state : InteractionState} {jobState : JobState} (hawaiting : state ≠ .awaitingInput)
    (hexp : state ≠ .expired) (hiff : ∀ a b, Agree a b → (a = state ↔ b = jobState)) :
    row.state = state ↔ ∃ job, CurrentRound s row job ∧ job.state = jobState := by
  constructor
  · rintro rfl
    obtain ⟨job, round, hagree⟩ := h.job_of_state hrow hawaiting hexp
    exact ⟨job, round, (hiff _ _ hagree).mp rfl⟩
  · rintro ⟨job, round, hjob⟩
    exact (hiff _ _ (round.agree h)).mpr hjob

theorem Consistent.rowInvariant (h : Consistent maxRounds s) (hrow : row ∈ s.interactions) :
    RowInvariant maxRounds s row := by
  refine { revision_eq := (h.rounds row hrow).1, bounded := (h.rounds row hrow).2.2,
           one_job := ?_, past := h.past row hrow, awaiting := ?_, unanswered := h.unanswered row hrow,
           response_ready := ?_, resuming := ?_, answered := ?_, failed := ?_, terminal := ?_ }
  · intro j₁ hj₁ j₂ hj₂ hid₁ hid₂ hrev
    exact h.one_job j₁ hj₁ j₂ hj₂ (hid₁.trans hid₂.symm) hrev
  · intro hstate job hjob hid hrev
    have hagree := h.current row hrow job hjob hid hrev
    rw [hstate] at hagree
    cases hjobState : job.state <;> rw [hjobState] at hagree <;> exact hagree
  · exact h.state_iff hrow nofun nofun (by rintro (_ | _) (_ | _) <;> simp [Agree])
  · exact h.state_iff hrow nofun nofun (by rintro (_ | _) (_ | _) <;> simp [Agree])
  · intro hstate
    obtain ⟨job, round, hagree⟩ := h.job_of_state hrow
      (by rcases hstate with hstate | hstate | hstate <;> simp [hstate])
      (by rcases hstate with hstate | hstate | hstate <;> simp [hstate])
    refine ⟨job, round, ?_⟩
    rcases hstate with hstate | hstate | hstate <;> rw [hstate] at hagree <;>
      cases hjobState : job.state <;> simp [hjobState, Agree] at hagree ⊢
  · intro hstate
    obtain ⟨job, round, hagree⟩ := h.job_of_state hrow (by simp [hstate]) (by simp [hstate])
    refine ⟨job, round, ?_⟩
    rw [hstate] at hagree
    cases hjobState : job.state <;> simp [hjobState, Agree] at hagree ⊢
  · intro hterm job hjob hid
    have hclosed : ¬ (job.state = .responseReady ∨ job.state = .leased) := by
      intro hopen
      have hagree := h.current row hrow job hjob hid (h.current_of_open hrow hjob hid hopen)
      simp only [terminalStates, List.mem_cons, List.not_mem_nil, or_false] at hterm
      rcases hopen with hopen | hopen <;> rw [hopen] at hagree <;>
        rcases hterm with hstate | hstate | hstate | hstate | hstate <;>
        simp [hstate, Agree] at hagree
    exact not_or.mp hclosed

variable {repository : InteractionRepository} {w w' : Clocked InteractionStore Int} {hist : List InteractionEvent}

theorem consistent_run (hfresh : Fresh w.store) (hrun : InteractionRun repository w hist w') :
    Consistent repository.maxRounds w'.store := by
  obtain ⟨events, hevents, -, -⟩ := interactionRun_rounds hrun
  exact hevents.invariant (hfresh.consistent _) (fun s e s' hs hstep => consistent_step hs hstep)

/-- **The round invariant.**  In every state any number of workers can reach, every
    interaction row agrees with its jobs. -/
theorem interactionRun_rowInvariant (hfresh : Fresh w.store)
    (hrun : InteractionRun repository w hist w') :
    ∀ row ∈ w'.store.interactions, RowInvariant repository.maxRounds w'.store row := by
  intro row hrow
  exact (consistent_run hfresh hrun).rowInvariant hrow

/-! ### Computed runs -/

def callEvent (repository : InteractionRepository) (call : InteractionCall) (s : InteractionStore) :
    InteractionEvent × InteractionStore :=
  let r := runCall repository call s
  (⟨call, r.1⟩, r.2)

def runCalls (repository : InteractionRepository) :
    List InteractionCall → List InteractionEvent → InteractionStore →
      List InteractionEvent × InteractionStore :=
  execute (callEvent repository)

def lastReading : Int → List InteractionCall → Int := clockAfter InteractionCall.readings

def clockOrdered : Int → List InteractionCall → Bool := inOrder InteractionCall.readings

theorem runCalls_of_empty {calls : List InteractionCall}
    (hordered : clockOrdered 0 calls = true) :
    InteractionRun repository ⟨0, InteractionStore.empty⟩
      (runCalls repository calls [] InteractionStore.empty).1
      ⟨lastReading 0 calls, (runCalls repository calls [] InteractionStore.empty).2⟩ := by
  have hstart : InteractionRun repository ⟨0, InteractionStore.empty⟩ []
      ⟨0, InteractionStore.empty⟩ := Run.nil
  exact execute_run hstart hordered (fun _ _ => rfl) (fun _ _ => rfl)

/-! ### A sample run -/

def sampleRequests : List (String × Json) :=
  [("q", .obj [("method", .str "elicitation/create"),
    ("params", .obj [("requestedSchema", .obj [("type", .str "object")])])])]

def sampleResponses : List (String × Json) :=
  [("q", .obj [("action", .str "accept"), ("content", .obj [])])]

def sampleValues : List Json :=
  [.obj [], .obj sampleRequests, .obj sampleResponses, .str "state", .null]

def cipherOf (values : List Json) : InteractionPayloadCipher where
  encrypt _ _ _ _ _ value := .ok ⟨value.dumps, "key"⟩
  decrypt _ _ _ _ encrypted :=
    match values.find? (fun value => value.dumps == encrypted.ciphertext) with
    | none => .error (.cipher "interaction payload could not be decrypted")
    | some value => .ok value

def sampleRepository : InteractionRepository where
  cipher := cipherOf sampleValues
  maxRounds := 2
  maxPayloadBytes := 1000
  sha256 := id
  library := ⟨fun _ => .accepted, fun _ _ => .accepted⟩

def sampleFields : RequestFields where
  tenantId := "t"
  platformUserId := "u"
  externalIdentityId := none
  identityRevision := none
  agentId := "a"
  agentRevisionId := "a1"
  mcpServerId := "m"
  resourceName := "r"
  resourceUri := "mcp://r"
  toolName := "tool"
  originalArguments := []
  inputRequests := sampleRequests
  outputSchema := none
  requestState := "state"
  effect := .read
  replayMode := .reusable
  policyRevision := "p"
  credentialGeneration := 0
  expiresAt := 1000000000
  interactionId := none
  previousRevision := none
  leaseFence := none

def sampleRequest : InteractionRequest := ⟨sampleFields, by decide⟩

def sampleActor : Principal := ⟨"t", "u", none⟩

/-- Open interaction `i`, answer it with job `j`, lease the job and complete it. -/
def sampleCalls : List InteractionCall :=
  [.pause "i" "e" 0 0 sampleRequest,
    .submitResponse "j" "e" 1 sampleActor "i" 1 "k" sampleResponses,
    .leaseReady "w" 30 1 [] 2 [3],
    .complete ⟨"j", "w", 1⟩ "e" 4 5 .null]

def sampleEvents : List InteractionEvent :=
  (runCalls sampleRepository sampleCalls [] InteractionStore.empty).1

def sampleStore : InteractionStore :=
  (runCalls sampleRepository sampleCalls [] InteractionStore.empty).2

theorem sample_run :
    InteractionRun sampleRepository ⟨0, InteractionStore.empty⟩ sampleEvents
      ⟨lastReading 0 sampleCalls, sampleStore⟩ :=
  runCalls_of_empty (by decide)

theorem interactionRun_rowInvariant_sample :
    sampleStore.interactions.rows.map McpInteraction.state = [.completed] ∧
      ∀ row ∈ sampleStore.interactions, RowInvariant sampleRepository.maxRounds sampleStore row := by
  have hinvariant := interactionRun_rowInvariant fresh_empty sample_run
  dsimp only at hinvariant
  exact ⟨by decide +kernel, hinvariant⟩

end MultiRag.McpInteractions
