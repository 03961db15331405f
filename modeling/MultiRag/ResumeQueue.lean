/-
  **The resume queue under `run_once`** (`api/identity/mcp_interactions/repository.py`,
  `service.py`).

  `run_once` asks `lease_ready` for one job at a time, so what a call does is decided
  by the oldest due job alone. A job whose interaction is gone, expired or not
  allowed to run again is closed and leaves the queue; a job that can be leased
  leaves it too. But a job whose payload cannot be decoded raises out of the loop,
  the transaction rolls back, and the same job is at the head of the next call.
-/
import MultiRag.InteractionLeases
import Mathlib.Data.List.TakeWhile

namespace MultiRag

open List Table

section

variable {α : Type*} {r : α → α → Prop} [DecidableRel r] [IsTrans α r] [Std.Total r] {a : α}

omit [IsTrans α r] [Std.Total r] in
theorem orderedInsert_of_forall {l : List α} (h : ∀ b ∈ l, r a b) :
    l.orderedInsert r a = a :: l := by
  cases l with
  | nil => simp
  | cons b l => exact orderedInsert_cons_of_le r l (h b mem_cons_self)

variable {p : α → Bool}

omit [Std.Total r] in
theorem filter_orderedInsert {l : List α} (hl : l.Pairwise r)
    (ha : p a = true) :
    (l.orderedInsert r a).filter p = (l.filter p).orderedInsert r a := by
  induction l with
  | nil => simp [ha]
  | cons b l ih =>
    rw [pairwise_cons] at hl
    by_cases hab : r a b
    · rw [orderedInsert_cons_of_le r l hab, filter_cons_of_pos ha]
      symm
      apply orderedInsert_of_forall
      intro c hc
      rcases mem_cons.mp (List.mem_filter.mp hc).1 with rfl | hmem
      · exact hab
      · exact IsTrans.trans _ _ _ hab (hl.1 c hmem)
    · rw [orderedInsert_of_not_le r l hab]
      by_cases hb : p b = true
      · rw [filter_cons_of_pos hb, filter_cons_of_pos hb,
          orderedInsert_of_not_le r _ hab, ih hl.2]
      · rw [filter_cons_of_neg hb, filter_cons_of_neg hb, ih hl.2]

omit [IsTrans α r] [Std.Total r] in
theorem filter_orderedInsert_of_neg (l : List α) (ha : ¬ p a = true) :
    (l.orderedInsert r a).filter p = l.filter p := by
  induction l with
  | nil => simp [ha]
  | cons b l ih =>
    rw [orderedInsert_cons]
    split_ifs with hab
    · exact filter_cons_of_neg ha
    · rw [filter_cons, filter_cons, ih]

theorem filter_insertionSort (p : α → Bool) (l : List α) :
    (l.insertionSort r).filter p = (l.filter p).insertionSort r := by
  induction l with
  | nil => simp
  | cons a l ih =>
    rw [insertionSort_cons]
    by_cases ha : p a = true
    · rw [filter_orderedInsert (pairwise_insertionSort r l) ha, ih,
        filter_cons_of_pos ha, insertionSort_cons]
    · rw [filter_orderedInsert_of_neg _ ha, ih, filter_cons_of_neg ha]

end

namespace McpInteractions

open InteractionRepository (due leasedJob)

def queue (now : Int) (s : InteractionStore) : List McpInteractionResumeJob :=
  (s.jobs.select (due now)).insertionSort (fun a b => decide (a.createdAt ≤ b.createdAt) = true)

inductive Turn where
  | closed
  | undecodable
  | leasable
deriving DecidableEq

/-- The turn of a job: `lease_ready` closes it, cannot decode it or can lease it. -/
def turn (repository : InteractionRepository) (owner : String) (now : Int) (s : InteractionStore)
    (job : McpInteractionResumeJob) : Turn :=
  match (s.lockedInteraction job.interactionId job.tenantId).filter
      (fun row => row.revision == job.revision) with
  | none => .closed
  | some row =>
      if row.expiresAt ≤ now then .closed
      else if row.effect = .sideEffect then .closed
      else if job.state = .leased ∧ row.replayMode ≠ .reusable then .closed
      else
        match repository.toResume row (leasedJob job owner 0 now) with
        | .error _ => .undecodable
        | .ok _ => .leasable

/-- One call of `run_once`'s loop, with the readings of its candidate clock and of
    the clock after the lock. -/
def leaseOne (repository : InteractionRepository) (owner : String) (leaseSeconds : Int)
    (readings : Int × Int) (s : InteractionStore) : Outcome × InteractionStore :=
  runCall repository (.leaseReady owner leaseSeconds 1 [] readings.1 [readings.2]) s

def leaseCall (repository : InteractionRepository) (owner : String) (leaseSeconds : Int) :
    (Nat → Int × Int) → Nat → InteractionStore → Outcome
  | schedule, 0, s => (leaseOne repository owner leaseSeconds (schedule 0) s).1
  | schedule, n + 1, s =>
      leaseCall repository owner leaseSeconds (fun k => schedule (k + 1)) n
        (leaseOne repository owner leaseSeconds (schedule 0) s).2

/-- A call hands out a lease of the job. -/
def Leases (outcome : Outcome) (jobId : String) : Prop :=
  ∃ leases, outcome = .ok (.leases leases) ∧ ∃ lease ∈ leases, lease.jobId = jobId

/-- Between `start` and `finish` nothing changes by the clock alone: no interaction
    expires, no job becomes due and no new lease runs out. -/
structure Quiet (leaseSeconds start finish : Int) (s : InteractionStore) : Prop where
  expiry : ∀ row ∈ s.interactions, start < row.expiresAt → finish < row.expiresAt
  ready : ∀ job ∈ s.jobs, due finish job = true → due start job = true
  lease : finish < start + seconds leaseSeconds

section

variable {repository : InteractionRepository} {owner : String} {leaseSeconds start finish now : Int}
  {readings : Int × Int} {s s' : InteractionStore} {job head : McpInteractionResumeJob}
  {rest : List McpInteractionResumeJob}

/-- An owner that `lease_ready` takes. -/
def validOwner (owner : String) : Bool :=
  owner == pyStrip owner && owner != "" && owner.length ≤ 64

theorem leaseOne_eq (howner : validOwner owner = true) (hseconds : 0 < leaseSeconds) :
    leaseOne repository owner leaseSeconds readings s =
      match (queue readings.1 s).head? with
      | none => (.ok (.leases []), s)
      | some head =>
          match repository.leaseJob owner leaseSeconds readings.2 head s with
          | (.error error, _) => (.error error, s)
          | (.ok lease, s') => (.ok (.leases lease.toList), s') := by
  simp only [validOwner, Bool.and_eq_true, beq_iff_eq, bne_iff_ne, decide_eq_true_eq] at howner
  have hbounds : ¬ (owner ≠ pyStrip owner ∨ owner = "" ∨ 64 < owner.length) := by
    rintro (h | h | h)
    · exact h howner.1.1
    · exact howner.1.2 h
    · omega
  have hlimit : ¬ (leaseSeconds ≤ 0 ∨ (1 : Int) ≤ 0) := by omega
  have hselect : s.jobs.selectOrdered
      (fun job => due readings.1 job && !([] : List String).contains job.id)
      (fun a b => a.createdAt ≤ b.createdAt) (1 : Int).toNat = (queue readings.1 s).take 1 := by
    simp [Table.selectOrdered, queue]
  simp only [leaseOne, runCall, replying, inTransaction, InteractionRepository.leaseReady,
    if_neg hbounds, if_neg hlimit, hselect]
  cases hqueue : queue readings.1 s with
  | nil => simp [InteractionRepository.leaseJobs, Except.map]
  | cons head rest =>
    simp only [take_succ_cons, take_zero, InteractionRepository.leaseJobs,
      InteractionRepository.nextReading, head?_cons]
    rcases repository.leaseJob owner leaseSeconds readings.2 head s with ⟨error | lease, s'⟩
    · simp [raised, Except.map]
    · simp [Except.map]

theorem toResume_withState (row : McpInteraction) (state : InteractionState) (at_ now' : Int) :
    repository.toResume (row.withState state at_) (leasedJob job owner leaseSeconds now) =
      repository.toResume row (leasedJob job owner 0 now') := rfl

def SameRows (s s' : InteractionStore) : Prop :=
  ∀ interactionId tenantId,
    s'.lockedInteraction interactionId tenantId = s.lockedInteraction interactionId tenantId ∨
      ∃ row state at_, s.lockedInteraction interactionId tenantId = some row ∧
        s'.lockedInteraction interactionId tenantId = some (row.withState state at_)

theorem SameRows.refl (h : s'.interactions = s.interactions) : SameRows s s' := by
  intro interactionId tenantId
  apply Or.inl
  simp only [InteractionStore.lockedInteraction, h]

variable {at_ : Int}

theorem SameRows.put {row : McpInteraction} {state : InteractionState}
    (hrow : row ∈ s.interactions)
    (h : s'.interactions = s.interactions.put (row.withState state at_)) : SameRows s s' := by
  intro interactionId tenantId
  by_cases hid : interactionId = row.id
  · subst hid
    have hget := get?_put_self (r := row.withState state at_) hrow rfl
    simp only [InteractionStore.lockedInteraction, h, get?_of_mem hrow]
    rw [show row.id = (row.withState state at_).id from rfl, hget]
    by_cases htenant : row.tenantId = tenantId
    · apply Or.inr
      refine ⟨row, state, at_, ?_, ?_⟩
      · exact Option.filter_eq_some_iff.mpr ⟨rfl, by simp [htenant]⟩
      · exact Option.filter_eq_some_iff.mpr ⟨rfl, by simp [McpInteraction.withState, htenant]⟩
    · apply Or.inl
      rw [Option.filter_some_neg (by simp [McpInteraction.withState, htenant]),
        Option.filter_some_neg (by simp [htenant])]
  · apply Or.inl
    simp only [InteractionStore.lockedInteraction, h]
    rw [get?_put_of_ne (show interactionId ≠ (row.withState state at_).id from hid)]

theorem SameRows.turn_eq (h : SameRows s s') (job : McpInteractionResumeJob) :
    turn repository owner now s' job = turn repository owner now s job := by
  rcases h job.interactionId job.tenantId with heq | ⟨row, state, at_, hold, hnew⟩
  · simp only [turn, heq]
  · simp only [turn, hold, hnew]
    by_cases hrev : row.revision = job.revision
    · rw [Option.filter_some_pos (by simp [McpInteraction.withState, hrev]),
        Option.filter_some_pos (by simp [hrev])]
      rfl
    · rw [Option.filter_some_neg (by simp [McpInteraction.withState, hrev]),
        Option.filter_some_neg (by simp [hrev])]

/-- The job at the head is done with: it is no longer due, and no other job changed. -/
structure Passed (head : McpInteractionResumeJob) (start finish : Int)
    (s s' : InteractionStore) : Prop where
  jobs : ∃ job', job'.id = head.id ∧ due start job' = false ∧ due finish job' = false ∧
    s'.jobs = s.jobs.put job'
  rows : SameRows s s'

theorem due_terminalJob (code : InteractionErrorCode) (at_ : Int) :
    due now (job.terminalJob at_ code) = false := by
  simp [due, McpInteractionResumeJob.terminalJob]

theorem due_leasedJob (h : now < at_ + seconds leaseSeconds) :
    due now (leasedJob job owner leaseSeconds at_) = false := by
  simp [due, leasedJob, h]

theorem passed_terminalJob {code : InteractionErrorCode} (hrows : SameRows s s')
    (hjobs : s'.jobs = s.jobs.put (head.terminalJob at_ code)) :
    Passed head start finish s s' :=
  ⟨⟨head.terminalJob at_ code, rfl, due_terminalJob code at_, due_terminalJob code at_, hjobs⟩,
    hrows⟩

variable (repository owner s head) in
theorem leaseJob_turn (hnow : start ≤ now) (hlease : finish < start + seconds leaseSeconds)
    (hle : start ≤ finish) :
    (turn repository owner now s head = .undecodable ∧
      ∃ error s', repository.leaseJob owner leaseSeconds now head s = (.error error, s')) ∨
    (turn repository owner now s head = .closed ∧
      ∃ s', repository.leaseJob owner leaseSeconds now head s = (.ok none, s') ∧
        Passed head start finish s s') ∨
    (turn repository owner now s head = .leasable ∧
      ∃ lease s', repository.leaseJob owner leaseSeconds now head s = (.ok (some lease), s') ∧
        lease.jobId = head.id ∧ Passed head start finish s s') := by
  simp only [turn, InteractionRepository.leaseJob]
  rcases hlocked : (s.lockedInteraction head.interactionId head.tenantId).filter
      (fun row => row.revision == head.revision) with _ | row
  · simp only [hlocked]
    apply Or.inr
    apply Or.inl
    refine ⟨trivial, _, rfl, ?_⟩
    exact passed_terminalJob (SameRows.refl rfl) rfl
  · have hrow : row ∈ s.interactions :=
      (lockedInteraction_eq_some (Option.filter_eq_some_iff.mp hlocked).1).1
    by_cases hexp : row.expiresAt ≤ now
    · simp only [hlocked, if_pos hexp]
      apply Or.inr
      apply Or.inl
      refine ⟨trivial, _, rfl, ?_⟩
      exact passed_terminalJob (SameRows.put hrow rfl) rfl
    by_cases heffect : row.effect = .sideEffect
    · simp only [hlocked, if_neg hexp, if_pos heffect]
      apply Or.inr
      apply Or.inl
      refine ⟨trivial, _, rfl, ?_⟩
      exact passed_terminalJob (SameRows.put hrow rfl) rfl
    by_cases hreplay : head.state = .leased ∧ row.replayMode ≠ .reusable
    · simp only [hlocked, if_neg hexp, if_neg heffect, if_pos hreplay]
      apply Or.inr
      apply Or.inl
      refine ⟨trivial, _, rfl, ?_⟩
      exact passed_terminalJob (SameRows.put hrow rfl) rfl
    simp only [hlocked, if_neg hexp, if_neg heffect, if_neg hreplay,
      toResume_withState row .resuming now now]
    rcases repository.toResume row (leasedJob head owner 0 now) with error | resume
    · apply Or.inl
      exact ⟨rfl, error, _, rfl⟩
    · apply Or.inr
      apply Or.inr
      refine ⟨rfl, _, _, rfl, rfl, ⟨leasedJob head owner leaseSeconds now, rfl, ?_, ?_, rfl⟩,
        SameRows.put hrow rfl⟩
      · exact due_leasedJob (by omega)
      · exact due_leasedJob (by omega)

/-! ### What a call leaves in the queue -/

theorem due_mono (hle : start ≤ finish) (h : due start job = true) : due finish job = true := by
  simp only [due, Bool.or_eq_true, Bool.and_eq_true] at h ⊢
  rcases h with ⟨hstate, hnext⟩ | ⟨hstate, huntil⟩
  · apply Or.inl
    refine ⟨hstate, ?_⟩
    simp only [Option.all_eq_true, decide_eq_true_eq] at hnext ⊢
    intro at_ hat
    have := hnext at_ hat
    omega
  · apply Or.inr
    refine ⟨hstate, ?_⟩
    simp only [Option.any_eq_true, decide_eq_true_eq] at huntil ⊢
    obtain ⟨at_, hat, hle'⟩ := huntil
    exact ⟨at_, hat, by omega⟩

section

variable (hquiet : Quiet leaseSeconds start finish s)
  (hstart : start ≤ now)
  (hfinish : now ≤ finish)
include hquiet hstart hfinish

theorem Quiet.queue_eq : queue now s = queue start s := by
  have hselect : s.jobs.select (due now) = s.jobs.select (due start) := by
    apply filter_congr
    intro job hjob
    rw [Bool.eq_iff_iff]
    constructor
    · intro hdue
      exact hquiet.ready job hjob (due_mono hfinish hdue)
    · exact due_mono hstart
  simp only [queue, hselect]

theorem Quiet.turn_eq :
    turn repository owner now s job = turn repository owner start s job := by
  simp only [turn]
  split
  · rfl
  · next row hrow =>
    have hmem : row ∈ s.interactions :=
      (lockedInteraction_eq_some (Option.filter_eq_some_iff.mp hrow).1).1
    have hexp : row.expiresAt ≤ now ↔ row.expiresAt ≤ start := by
      constructor
      · intro hle
        by_contra hlive
        have := hquiet.expiry row hmem (by omega)
        omega
      · intro hle
        omega
    simp only [hexp]
    rfl

end

theorem mem_queue : job ∈ queue now s ↔ job ∈ s.jobs ∧ due now job = true := by
  simp only [queue, mem_insertionSort, mem_select]

theorem nodup_queue (now : Int) (s : InteractionStore) :
    ((queue now s).map McpInteractionResumeJob.id).Nodup := by
  have hselect : ((s.jobs.select (due now)).map McpInteractionResumeJob.id).Nodup :=
    Sublist.nodup (Sublist.map _ filter_sublist) s.jobs.nodup
  exact ((perm_insertionSort _ _).map _).nodup_iff.mpr hselect

theorem queue_put {job' : McpInteractionResumeJob} (hjobs : s'.jobs = s.jobs.put job')
    (hdue : due now job' = false) :
    queue now s' = (queue now s).filter (fun other => other.id != job'.id) := by
  have hselect : s'.jobs.select (due now) =
      (s.jobs.select (due now)).filter (fun other => other.id != job'.id) := by
    simp only [Table.select, hjobs, Table.put, List.filter_map, filter_filter]
    rw [map_congr_left (g := id), map_id]
    · apply filter_congr
      intro other _
      by_cases hid : other.id = job'.id
      · simp [hid, hdue]
      · simp [hid]
    · intro other hother
      have hid : other.id ≠ job'.id := by
        intro hid
        simp [hid, hdue] at hother
      simp [hid]
  simp only [queue, hselect]
  exact (filter_insertionSort _ _).symm

theorem Passed.queue_eq (h : Passed head start finish s s') (hqueue : queue start s = head :: rest) :
    queue start s' = rest := by
  obtain ⟨job', hid, hdue, -, hjobs⟩ := h.jobs
  have hnodup := nodup_queue start s
  rw [hqueue, map_cons, nodup_cons] at hnodup
  rw [queue_put hjobs hdue, hqueue, filter_cons_of_neg (by simp [hid]), List.filter_eq_self]
  intro other hother
  rw [bne_iff_ne, hid]
  intro heq
  exact hnodup.1 (heq ▸ mem_map_of_mem hother)

theorem Passed.quiet (h : Passed head start finish s s')
    (hquiet : Quiet leaseSeconds start finish s) : Quiet leaseSeconds start finish s' := by
  constructor
  · intro row hrow hlive
    have hlocked := lockedInteraction_of_mem hrow
    rcases h.rows row.id row.tenantId with hsame | ⟨old, state, at_, hold, hnew⟩
    · rw [hsame] at hlocked
      exact hquiet.expiry row (lockedInteraction_eq_some hlocked).1 hlive
    · rw [hnew, Option.some_inj] at hlocked
      subst hlocked
      exact hquiet.expiry old (lockedInteraction_eq_some hold).1 hlive
  · intro job hjob hdue
    obtain ⟨job', hid, -, hdue', hjobs⟩ := h.jobs
    rw [hjobs] at hjob
    rcases mem_or_eq_of_mem_put hjob with rfl | hold
    · rw [hdue'] at hdue
      cases hdue
    · exact hquiet.ready job hold hdue
  · exact hquiet.lease

/-! ### The head of the queue decides -/

variable (repository) in
theorem leaseOne_head (howner : validOwner owner = true) (hseconds : 0 < leaseSeconds)
    (hquiet : Quiet leaseSeconds start finish s) (hcand : start ≤ readings.1)
    (hreadings : readings.1 ≤ readings.2) (hfinish : readings.2 ≤ finish)
    (hqueue : queue start s = head :: rest) :
    (turn repository owner start s head = .undecodable ∧
      ∃ error, leaseOne repository owner leaseSeconds readings s = (.error error, s)) ∨
    (turn repository owner start s head ≠ .undecodable ∧
      ∃ leases s', leaseOne repository owner leaseSeconds readings s = (.ok (.leases leases), s') ∧
        (∀ jobId, (∃ lease ∈ leases, lease.jobId = jobId) ↔
          turn repository owner start s head = .leasable ∧ jobId = head.id) ∧
        Passed head start finish s s') := by
  have hturn : turn repository owner readings.2 s head = turn repository owner start s head :=
    hquiet.turn_eq (by omega) hfinish
  rw [leaseOne_eq howner hseconds, hquiet.queue_eq hcand (by omega), hqueue, head?_cons]
  rcases leaseJob_turn repository owner s head
    (show start ≤ readings.2 by omega) hquiet.lease (show start ≤ finish by omega) with
    ⟨hstuck, error, s', hjob⟩ | ⟨hclosed, s', hjob, hpassed⟩ |
    ⟨hleasable, lease, s', hjob, hid, hpassed⟩
  · apply Or.inl
    rw [hturn] at hstuck
    exact ⟨hstuck, error, by simp only [hjob]⟩
  · apply Or.inr
    rw [hturn] at hclosed
    refine ⟨by simp [hclosed], [], s', by simp [hjob], ?_, hpassed⟩
    intro jobId
    simp [hclosed]
  · apply Or.inr
    rw [hturn] at hleasable
    refine ⟨by simp [hleasable], [lease], s', by simp [hjob], ?_, hpassed⟩
    intro jobId
    simp [hleasable, hid, eq_comm]

/-- The readings of every call lie in the window. -/
def Within (start finish : Int) (schedule : Nat → Int × Int) : Prop :=
  ∀ n, start ≤ (schedule n).1 ∧ (schedule n).1 ≤ (schedule n).2 ∧ (schedule n).2 ≤ finish

theorem Within.tail {schedule : Nat → Int × Int} (h : Within start finish schedule) :
    Within start finish (fun n => schedule (n + 1)) :=
  fun n => h (n + 1)

variable {schedule : Nat → Int × Int} {older younger : List McpInteractionResumeJob}

section

variable (howner : validOwner owner = true)
  (hseconds : 0 < leaseSeconds)
  (hquiet : Quiet leaseSeconds start finish s)
  (hsched : Within start finish schedule)
  (hqueue : queue start s = older ++ job :: younger)
include howner hseconds hquiet hsched hqueue

theorem leased_of_decodable
    (hleasable : turn repository owner start s job = .leasable)
    (holder : ∀ other ∈ older, turn repository owner start s other ≠ .undecodable) :
    Leases (leaseCall repository owner leaseSeconds schedule older.length s) job.id := by
  induction older generalizing s schedule with
  | nil =>
    obtain ⟨hcand, hreadings, hfinish⟩ := hsched 0
    rcases leaseOne_head repository howner hseconds hquiet hcand hreadings hfinish hqueue
      with
      ⟨hstuck, -⟩ | ⟨-, leases, s', hcall, hids, -⟩
    · rw [hleasable] at hstuck
      cases hstuck
    · refine ⟨leases, ?_, (hids job.id).mpr ⟨hleasable, rfl⟩⟩
      simp only [length_nil, leaseCall, hcall]
  | cons head older ih =>
    obtain ⟨hcand, hreadings, hfinish⟩ := hsched 0
    rcases leaseOne_head repository howner hseconds hquiet hcand hreadings hfinish hqueue
      with
      ⟨hstuck, -⟩ | ⟨-, leases, s', hcall, -, hpassed⟩
    · exact absurd hstuck (holder head mem_cons_self)
    · simp only [length_cons, leaseCall, hcall]
      apply ih (hpassed.quiet hquiet) hsched.tail (hpassed.queue_eq hqueue)
      · rwa [hpassed.rows.turn_eq]
      · intro other hother
        rw [hpassed.rows.turn_eq]
        exact holder other (mem_cons_of_mem _ hother)

theorem not_leased_of_undecodable {other : McpInteractionResumeJob}
    (hother : other ∈ older) (hstuck : turn repository owner start s other = .undecodable)
    (n : Nat) :
    ¬ Leases (leaseCall repository owner leaseSeconds schedule n s) job.id := by
  obtain ⟨head, older, rfl⟩ := exists_cons_of_ne_nil (ne_nil_of_mem hother)
  induction n generalizing s schedule head older with
  | zero =>
    obtain ⟨hcand, hreadings, hfinish⟩ := hsched 0
    rintro ⟨leases, hleases, hmem⟩
    rcases leaseOne_head repository howner hseconds hquiet hcand hreadings hfinish hqueue
      with
      ⟨-, error, hcall⟩ | ⟨-, leases', s', hcall, hids, -⟩
    · simp [leaseCall, hcall] at hleases
    · simp only [leaseCall, hcall, Except.ok.injEq, InteractionReply.leases.injEq] at hleases
      subst hleases
      obtain ⟨-, hid⟩ := (hids job.id).mp hmem
      -- the job at the head is another one
      have hnodup := nodup_queue start s
      rw [hqueue, cons_append, map_cons, nodup_cons] at hnodup
      apply hnodup.1
      rw [← hid]
      exact mem_map_of_mem (mem_append_right _ mem_cons_self)
  | succ n ih =>
    obtain ⟨hcand, hreadings, hfinish⟩ := hsched 0
    rcases leaseOne_head repository howner hseconds hquiet hcand hreadings hfinish hqueue
      with
      ⟨-, error, hcall⟩ | ⟨hfree, leases, s', hcall, -, hpassed⟩
    · simp only [leaseCall, hcall]
      exact ih hquiet hsched.tail hstuck head older hqueue hother
    · simp only [leaseCall, hcall]
      have hmem : other ∈ older := by
        rcases mem_cons.mp hother with rfl | hmem
        · exact absurd hstuck hfree
        · exact hmem
      obtain ⟨head', older', rfl⟩ := exists_cons_of_ne_nil (ne_nil_of_mem hmem)
      apply ih (hpassed.quiet hquiet) hsched.tail _ head' older' (hpassed.queue_eq hqueue) hmem
      rwa [hpassed.rows.turn_eq]

end

/-- The jobs `lease_ready` looks at before this one. -/
def olderThan (now : Int) (s : InteractionStore) (job : McpInteractionResumeJob) :
    List McpInteractionResumeJob :=
  (queue now s).takeWhile (fun other => other.id != job.id)

theorem queue_eq_olderThan (hmem : job ∈ s.jobs) (hdue : due now job = true) :
    ∃ younger, queue now s = olderThan now s job ++ job :: younger := by
  have hqueue := mem_queue.mpr ⟨hmem, hdue⟩
  cases hdrop : (queue now s).dropWhile (fun other => other.id != job.id) with
  | nil =>
    have hall := dropWhile_eq_nil_iff.mp hdrop job hqueue
    simp at hall
  | cons first younger =>
    have hsplit := takeWhile_append_dropWhile (p := fun other => other.id != job.id)
      (l := queue now s)
    rw [hdrop] at hsplit
    have hfirst : first.id = job.id := by
      have hhead := head?_dropWhile_not (fun other => other.id != job.id) (queue now s)
      simpa [hdrop] using hhead
    have hsame : first = job := by
      apply eq_of_key _ hmem hfirst
      refine ((mem_queue : first ∈ queue now s ↔ _).mp ?_).1
      rw [← hsplit]
      exact mem_append_right _ mem_cons_self
    subst hsame
    exact ⟨younger, hsplit.symm⟩

/-- **Head-of-line blocking.**  A due job that can be leased gets its lease from the
    repeated calls of `run_once` exactly when no older due job is undecodable. -/
theorem lease_ready_served_iff (howner : validOwner owner = true) (hseconds : 0 < leaseSeconds)
    (hquiet : Quiet leaseSeconds start finish s) (hschedule : Within start finish schedule)
    (hmem : job ∈ s.jobs) (hdue : due start job = true)
    (hleasable : turn repository owner start s job = .leasable) :
    (∃ n, Leases (leaseCall repository owner leaseSeconds schedule n s) job.id) ↔
      ∀ other ∈ olderThan start s job, turn repository owner start s other ≠ .undecodable := by
  obtain ⟨younger, hqueue⟩ := queue_eq_olderThan hmem hdue
  constructor
  · rintro ⟨n, hleases⟩ other hother hstuck
    exact not_leased_of_undecodable howner hseconds hquiet hschedule hqueue hother hstuck n hleases
  · intro hfree
    exact ⟨_, leased_of_decodable howner hseconds hquiet hschedule hqueue hleasable hfree⟩

end

/-! ### A damaged payload -/

def answeredCalls : List InteractionCall :=
  [.pause "i" "e" 0 0 sampleRequest,
    .pause "i2" "e" 0 0 sampleRequest,
    .submitResponse "j" "e" 1 sampleActor "i" 1 "k" sampleResponses,
    .submitResponse "j2" "e" 2 sampleActor "i2" 1 "k2" sampleResponses]

def answeredStore : InteractionStore :=
  (runCalls sampleRepository answeredCalls [] InteractionStore.empty).2

def damagedStore (interactionId : String) : InteractionStore :=
  match answeredStore.interactions.get? interactionId with
  | none => answeredStore
  | some row => answeredStore.putRow { row with originalArguments := ⟨"damaged", "key"⟩ }

theorem damagedStore_quiet :
    Quiet 1000 3 999999999 (damagedStore "i") ∧ Quiet 1000 3 999999999 (damagedStore "i2") ∧
      (damagedStore "i").interactions.rows.map McpInteraction.expiresAt =
        [1000000000, 1000000000] := by
  refine ⟨⟨?_, ?_, by decide⟩, ⟨?_, ?_, by decide⟩, ?_⟩
  all_goals decide +kernel

theorem damagedStore_queue :
    (queue 3 (damagedStore "i")).map McpInteractionResumeJob.id = ["j", "j2"] ∧
      (queue 3 (damagedStore "i")).map (turn sampleRepository "w" 3 (damagedStore "i")) =
        [.undecodable, .leasable] ∧
      (queue 3 (damagedStore "i2")).map (turn sampleRepository "w" 3 (damagedStore "i2")) =
        [.leasable, .undecodable] := by
  decide +kernel

/-- Until the damaged interaction expires the younger job is never leased. -/
theorem lease_ready_head_of_line :
    (damagedStore "i").interactions.rows.map McpInteraction.expiresAt = [1000000000, 1000000000] ∧
      ∃ job ∈ (damagedStore "i").jobs, due 3 job = true ∧
        turn sampleRepository "w" 3 (damagedStore "i") job = .leasable ∧
        ∀ schedule, Within 3 999999999 schedule → ∀ n,
          ¬ Leases (leaseCall sampleRepository "w" 1000 schedule n (damagedStore "i")) job.id := by
  obtain ⟨-, hturns, -⟩ := damagedStore_queue
  obtain ⟨first, rest, hqueue, hfirst, hrest⟩ := map_eq_cons_iff.mp hturns
  obtain ⟨second, rest', rfl, hsecond, -⟩ := map_eq_cons_iff.mp hrest
  have hmem := mem_queue.mp (show second ∈ queue 3 (damagedStore "i") by simp [hqueue])
  refine ⟨damagedStore_quiet.2.2, second, hmem.1, hmem.2, hsecond, ?_⟩
  intro schedule hschedule n
  exact not_leased_of_undecodable (by decide) (by decide) damagedStore_quiet.1 hschedule
    (show queue 3 (damagedStore "i") = [first] ++ second :: rest' from hqueue) mem_cons_self
    hfirst n

/-- The older job gets its lease although the younger one is damaged. -/
theorem lease_ready_served_iff_damaged :
    ∃ job ∈ (damagedStore "i2").jobs,
      turn sampleRepository "w" 3 (damagedStore "i2") job = .leasable ∧
      ((∃ n, Leases (leaseCall sampleRepository "w" 1000 (fun _ => (3, 4)) n (damagedStore "i2"))
          job.id) ↔
        ∀ other ∈ olderThan 3 (damagedStore "i2") job,
          turn sampleRepository "w" 3 (damagedStore "i2") other ≠ .undecodable) := by
  obtain ⟨-, -, hturns⟩ := damagedStore_queue
  obtain ⟨first, rest, hqueue, hfirst, -⟩ := map_eq_cons_iff.mp hturns
  have hmem := mem_queue.mp (show first ∈ queue 3 (damagedStore "i2") by simp [hqueue])
  refine ⟨first, hmem.1, hfirst, ?_⟩
  refine lease_ready_served_iff (by decide) (by decide) damagedStore_quiet.2.1 ?_ hmem.1 hmem.2
    hfirst
  intro n
  simp

end McpInteractions

end MultiRag
