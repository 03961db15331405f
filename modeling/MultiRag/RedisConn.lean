/-
  **Queue hand-over and generated ids** (`core/utils/redis_conn.py`).

  One Redis command, or one pipeline, is one step; calls of `generate_auto_increment_id` interleave
  command by command.
-/
import MultiRag.Run
import Mathlib.Data.List.Nodup
import Mathlib.Data.Int.Order.Basic

namespace MultiRag.RedisDB

open List Function

/-! ### Handing a message over -/

/-- A stream and the pending list of a group. -/
structure Queue (μ : Type) where
  entries : List (Nat × μ)
  pending : List Nat
deriving DecidableEq

/-- The command of an attempt that raises. -/
inductive Failure where
  | none
  | xrange
  | xadd
  | xack
deriving DecidableEq

variable {μ : Type}

/-- `newId` is the id the server gives to a copy. -/
def attempt (newId : List (Nat × μ) → Nat) (msgId : Nat) (queue : Queue μ) (failure : Failure) : Queue μ :=
  if failure = .xrange then queue
  else
    match queue.entries.find? (·.1 = msgId) with
    | none => queue
    | some message =>
      if failure = .xadd then queue
      else
        let entries := queue.entries ++ [(newId queue.entries, message.2)]
        if failure = .xack then { queue with entries := entries }
        else ⟨entries, queue.pending.filter (· != msgId)⟩

/-- The three attempts; none of them ends the loop. -/
def requeueMsg (newId : List (Nat × μ) → Nat) (msgId : Nat) (failures : Fin 3 → Failure) (queue : Queue μ) :
    Queue μ :=
  (ofFn failures).foldl (attempt newId msgId) queue

/-- Nothing has happened, or there is one more copy and the message is acknowledged. -/
def HandedOver (msgId : Nat) (queue queue' : Queue μ) : Prop :=
  queue' = queue ∨
    ∃ message ∈ queue.entries, message.1 = msgId ∧
      (∃ newId, queue'.entries = queue.entries ++ [(newId, message.2)]) ∧
      queue'.pending = queue.pending.filter (· != msgId)

def Failure.adds (failure : Failure) : Bool := failure = .none || failure = .xack

/-- One attempt at most adds a copy, and that one acknowledges too. -/
def AddsOnce (failures : List Failure) : Prop :=
  failures.filter Failure.adds = [] ∨ failures.filter Failure.adds = [.none]

variable {newId : List (Nat × μ) → Nat} {msgId : Nat} {queue : Queue μ} {message : Nat × μ}

theorem attempts_gone (h : queue.entries.find? (·.1 = msgId) = none) (failures : List Failure) :
    failures.foldl (attempt newId msgId) queue = queue := by
  induction failures with
  | nil => rfl
  | cons failure failures ih =>
    have hsame : attempt newId msgId queue failure = queue := by simp [attempt, h]
    rw [foldl_cons, hsame, ih]

theorem find?_append_copy {entries : List (Nat × μ)} {copy : Nat × μ}
    (h : entries.find? (·.1 = msgId) = some message) :
    (entries ++ [copy]).find? (·.1 = msgId) = some message := by
  rw [find?_append, h]
  rfl

/-- Every attempt that gets as far as `XADD` adds a copy. -/
theorem attempts_found (h : queue.entries.find? (·.1 = msgId) = some message) (failures : List Failure) :
    ∃ copies, copies.length = (failures.filter Failure.adds).length ∧ (∀ copy ∈ copies, copy.2 = message.2) ∧
      failures.foldl (attempt newId msgId) queue = ⟨queue.entries ++ copies,
        if .none ∈ failures then queue.pending.filter (· != msgId) else queue.pending⟩ := by
  induction failures generalizing queue with
  | nil => exact ⟨[], rfl, by simp, by simp⟩
  | cons failure failures ih =>
    rw [foldl_cons]
    have hcopy := @find?_append_copy _ _ _ _ (newId queue.entries, message.2) h
    by_cases hadds : failure.adds = true
    · have hstep : attempt newId msgId queue failure = ⟨queue.entries ++ [(newId queue.entries, message.2)],
          if failure = .none then queue.pending.filter (· != msgId) else queue.pending⟩ := by
        cases failure <;> simp_all [attempt, Failure.adds]
      obtain ⟨copies, hlength, hcopies, hfold⟩ := @ih (attempt newId msgId queue failure) (hstep ▸ hcopy)
      refine ⟨(newId queue.entries, message.2) :: copies, by simp [hadds, hlength],
        forall_mem_cons.mpr ⟨rfl, hcopies⟩, ?_⟩
      rw [hfold, hstep]
      cases failure <;> simp
    · have hstep : attempt newId msgId queue failure = queue := by
        cases failure <;> simp_all [attempt, Failure.adds]
      obtain ⟨copies, hlength, hcopies, hfold⟩ := ih h
      refine ⟨copies, by simp [hadds, hlength], hcopies, ?_⟩
      have hne : Failure.none ≠ failure := by
        rintro rfl
        exact hadds rfl
      rw [hstep, hfold]
      simp [hne]

/-- A message is handed over exactly if it is no longer in the stream, or one attempt at most adds a copy. -/
theorem requeueMsg_handedOver_iff (newId : List (Nat × μ) → Nat) (failures : Fin 3 → Failure)
    (hpending : msgId ∈ queue.pending) :
    HandedOver msgId queue (requeueMsg newId msgId failures queue) ↔
      (∀ message ∈ queue.entries, message.1 ≠ msgId) ∨ AddsOnce (ofFn failures) := by
  rw [requeueMsg]
  generalize ofFn failures = failures
  cases hfind : queue.entries.find? (·.1 = msgId) with
  | none =>
    apply iff_of_true
    · exact .inl (attempts_gone hfind failures)
    · left
      simpa using hfind
  | some message =>
    have hmem := mem_of_find?_eq_some hfind
    have hid : message.1 = msgId := by simpa using find?_some hfind
    obtain ⟨copies, hlength, hcopies, hfold⟩ := @attempts_found _ newId _ _ _ hfind failures
    rw [hfold]
    have hacked : queue.pending.filter (· != msgId) ≠ queue.pending := by
      intro heq
      have hkept := List.filter_eq_self.mp heq msgId hpending
      simp at hkept
    have hnone : .none ∈ failures ↔ .none ∈ failures.filter Failure.adds := by simp [Failure.adds]
    constructor
    · rintro (hsame | ⟨m, -, -, ⟨copyId, hentries⟩, hpend⟩)
      · right
        left
        have hnil : copies = [] := by simpa using congrArg Queue.entries hsame
        rw [hnil] at hlength
        exact length_eq_zero_iff.mp hlength.symm
      · have hone : (failures.filter Failure.adds).length = 1 := by
          rw [← hlength, append_cancel_left hentries]
          rfl
        obtain ⟨failure, hfailure⟩ := length_eq_one_iff.mp hone
        by_cases hacks : Failure.none ∈ failures
        · rw [hnone, hfailure, mem_singleton] at hacks
          exact .inr (.inr (hacks ▸ hfailure))
        · rw [if_neg hacks] at hpend
          exact absurd hpend.symm hacked
    · rintro (hgone | hnil | hone)
      · exact absurd hid (hgone message hmem)
      · left
        have hcopiesNil : copies = [] := length_eq_zero_iff.mp (by rw [hlength, hnil]; rfl)
        rw [if_neg (by simp [hnone, hnil]), hcopiesNil, append_nil]
      · right
        rw [hone] at hlength
        obtain ⟨copy, rfl⟩ := length_eq_one_iff.mp hlength
        refine ⟨message, hmem, hid, ⟨copy.1, ?_⟩, if_pos (by simp [hnone, hone])⟩
        rw [← hcopies copy (mem_singleton.mpr rfl)]

def oneMessage : Queue String := ⟨[(1, "task")], [1]⟩

theorem requeued_once :
    HandedOver 1 oneMessage
      (requeueMsg (·.length + 1) 1 (fun i => if i = 1 then .none else .xadd) oneMessage) :=
  (requeueMsg_handedOver_iff _ _ (by decide)).mpr (.inr (.inr (by decide)))

/-- Without any failure there are three copies. -/
theorem requeued_three_times :
    let queue := requeueMsg (·.length + 1) 1 (fun _ => .none) oneMessage
    queue.entries = [(1, "task"), (2, "task"), (3, "task"), (4, "task")] ∧ ¬ HandedOver 1 oneMessage queue := by
  refine ⟨by decide, ?_⟩
  rintro (hsame | ⟨message, -, -, ⟨newId, hentries⟩, -⟩)
  · exact absurd hsame (by decide)
  · exact absurd (congrArg List.length hentries) (by simp [requeueMsg, attempt, oneMessage])

/-! ### Ids from one key -/

structure Request where
  increment : Int
  ensureMinimum : Option Int
  positive : 1 ≤ increment

/-- What a call does next: its first command, the increment after the check of the minimum, or the `SET` that
    it has decided on. -/
inductive Phase where
  | start
  | incrementing
  | setting (id : Int)

structure Call where
  request : Request
  phase : Phase

/-- The number that is left after `INCRBY`, and the `SET` of the first value. -/
def Request.incrby (request : Request) (value : Option Int) : Option Int × (Phase ⊕ Int) :=
  let nextId := value.getD 0 + request.increment
  if nextId = request.increment then (some nextId, .inl (.setting (1 + request.increment)))
  else (some nextId, .inr nextId)

/-- The next command of a call: the key afterwards, and how the call goes on or what it returns. -/
def Call.command (call : Call) (value : Option Int) : Option Int × (Phase ⊕ Int) :=
  match call.phase with
  | .start =>
    match call.request.ensureMinimum with
    | none => call.request.incrby value
    | some minimum =>
      match value with
      | none => (none, .inl (.setting (max 1 minimum)))
      | some current =>
        if current < minimum then (some current, .inl (.setting minimum)) else (some current, .inl .incrementing)
  | .incrementing => call.request.incrby value
  | .setting id => (some id, .inr id)

structure World (κ : Type) where
  value : Option Int
  calls : κ → Option Call

inductive Event (κ : Type) where
  | call (caller : κ) (request : Request)
  | command (caller : κ) (request : Request) (returned : Option Int)

variable {κ : Type} [DecidableEq κ]

def step (s : World κ) : Event κ → World κ → Prop
  | .call caller request, s' =>
    s.calls caller = none ∧ s' = { s with calls := update s.calls caller (some ⟨request, .start⟩) }
  | .command caller request returned, s' =>
    ∃ phase, s.calls caller = some ⟨request, phase⟩ ∧
      match (Call.mk request phase).command s.value with
      | (value, .inl phase) =>
        returned = none ∧ s' = ⟨value, update s.calls caller (some ⟨request, phase⟩)⟩
      | (value, .inr id) => returned = some id ∧ s' = ⟨value, update s.calls caller none⟩

def Event.returned : Event κ → Option Int
  | .call _ _ => none
  | .command _ _ returned => returned

def Event.Sufficient : Event κ → Prop
  | .command _ request (some id) => ∀ minimum ∈ request.ensureMinimum, minimum ≤ id
  | _ => True

/-- The ids of a history are distinct, above those that were returned before their request began, and not
    below the minimum. -/
structure Fresh (hist : List (Event κ)) : Prop where
  distinct : (hist.filterMap Event.returned).Nodup
  above : ∀ {after between before : List (Event κ)} {caller request id},
    hist = after ++ .command caller request (some id) :: (between ++ .call caller request :: before) →
      ∀ id' ∈ before.filterMap Event.returned, id' < id
  minimum : ∀ e ∈ hist, e.Sufficient

/-- A `SET` finds no number, or one below its own. -/
def Raises (s : World κ) : Event κ → Prop
  | .call _ _ => True
  | .command caller _ _ => ∀ request id, s.calls caller = some ⟨request, .setting id⟩ → ∀ v ∈ s.value, v < id

variable {s s' s₀ : World κ} {e : Event κ} {hist : List (Event κ)}

/-- What holds of a call that passed its check, or has decided on a `SET`. -/
def Call.Checked (value : Option Int) (call : Call) : Prop :=
  ∀ minimum ∈ call.request.ensureMinimum,
    match call.phase with
    | .start => True
    | .incrementing => ∃ v ∈ value, minimum ≤ v
    | .setting id => minimum ≤ id

variable {value : Option Int}

theorem Call.Checked.mono {value' : Option Int} {call : Call} (h : call.Checked value)
    (hrises : ∀ v ∈ value, ∃ v' ∈ value', v ≤ v') :
    call.Checked value' := by
  intro minimum hminimum
  have hcall := h minimum hminimum
  cases hphase : call.phase with
  | incrementing =>
    rw [hphase] at hcall
    obtain ⟨v, hv, hle⟩ := hcall
    obtain ⟨v', hv', hle'⟩ := hrises v hv
    exact ⟨v', hv', hle.trans hle'⟩
  | start => trivial
  | setting id =>
    rw [hphase] at hcall
    exact hcall

/-- What a command does: it raises the number, and what it returns is that number. -/
def Rises (request : Request) (value : Option Int) : Option Int × (Phase ⊕ Int) → Prop
  | (value', .inl phase) => (∀ v ∈ value, ∃ v' ∈ value', v ≤ v') ∧ Call.Checked value' ⟨request, phase⟩
  | (value', .inr id) => value' = some id ∧ (∀ v ∈ value, v < id) ∧ ∀ minimum ∈ request.ensureMinimum, minimum ≤ id

variable {request : Request}

theorem incrby_rises
    (h : ∀ minimum ∈ request.ensureMinimum, ∃ v ∈ value, minimum ≤ v) :
    Rises request value (request.incrby value) := by
  have hpos := request.positive
  simp only [Request.incrby]
  split
  · next hfirst =>
    refine ⟨?_, ?_⟩
    · rintro v rfl
      exact ⟨_, rfl, by simpa using by omega⟩
    · intro minimum hminimum
      obtain ⟨v, rfl, hle⟩ := h minimum hminimum
      simp only [Option.getD_some] at hfirst
      change minimum ≤ 1 + request.increment
      omega
  · refine ⟨rfl, ?_, ?_⟩
    · rintro v rfl
      simpa using by omega
    · intro minimum hminimum
      obtain ⟨v, rfl, hle⟩ := h minimum hminimum
      simpa using by omega

theorem command_rises {phase : Phase}
    (hchecked : Call.Checked value ⟨request, phase⟩)
    (hraises : ∀ id, phase = .setting id → ∀ v ∈ value, v < id) :
    Rises request value ((Call.mk request phase).command value) := by
  cases phase with
  | start =>
    cases hmin : request.ensureMinimum with
    | none =>
      simp only [Call.command, hmin]
      exact incrby_rises (by simp [hmin])
    | some minimum =>
      cases value with
      | none =>
        simp only [Call.command, hmin]
        refine ⟨by simp, ?_⟩
        intro m hm
        rw [hmin, Option.mem_some_iff] at hm
        exact hm ▸ Int.le_max_right 1 minimum
      | some current =>
        simp only [Call.command, hmin]
        split
        · exact ⟨fun v hv => ⟨v, hv, le_refl v⟩, by simp [Call.Checked, hmin]⟩
        · next hnot =>
          refine ⟨fun v hv => ⟨v, hv, le_refl v⟩, ?_⟩
          intro m hm
          rw [hmin, Option.mem_some_iff] at hm
          exact ⟨current, rfl, hm ▸ Int.not_lt.mp hnot⟩
  | incrementing => exact incrby_rises hchecked
  | setting id => exact ⟨rfl, hraises id rfl, hchecked⟩

structure Rising (hist : List (Event κ)) (s : World κ) : Prop where
  below : ∀ id ∈ hist.filterMap Event.returned, ∃ v ∈ s.value, id ≤ v
  checked : ∀ caller call, s.calls caller = some call → call.Checked s.value
  sorted : (hist.filterMap Event.returned).Pairwise (· > ·)
  minimum : ∀ e ∈ hist, e.Sufficient

theorem Rising.checked_update (h : Rising hist s)
    (hrises : ∀ v ∈ s.value, ∃ v' ∈ value, v ≤ v') {caller caller' : κ} {next : Option Call} {call : Call}
    (hnext : ∀ call ∈ next, call.Checked value)
    (hcall : update s.calls caller next caller' = some call) :
    call.Checked value := by
  by_cases hsame : caller' = caller
  · subst hsame
    rw [Function.update_self] at hcall
    exact hnext call hcall
  · rw [Function.update_of_ne hsame] at hcall
    exact (h.checked caller' call hcall).mono hrises

theorem rising_step (h : Rising hist s) (hstep : step s e s') (hraises : Raises s e) :
    Rising (e :: hist) s' := by
  cases e with
  | call caller request =>
    obtain ⟨-, rfl⟩ := hstep
    refine ⟨h.below, ?_, h.sorted, forall_mem_cons.mpr ⟨trivial, h.minimum⟩⟩
    intro caller' call hcall
    refine h.checked_update (fun v hv => ⟨v, hv, le_refl v⟩) ?_ hcall
    rintro _ ⟨⟩ minimum _
    trivial
  | command caller request returned =>
    obtain ⟨phase, hcall, hcommand⟩ := hstep
    have hrises := command_rises (h.checked caller _ hcall)
      fun id hphase => hraises request id (hphase ▸ hcall)
    generalize (Call.mk request phase).command s.value = result at hcommand hrises
    obtain ⟨value, phase' | id⟩ := result
    · obtain ⟨rfl, rfl⟩ := hcommand
      obtain ⟨hvalue, hchecked⟩ := hrises
      refine ⟨?_, ?_, h.sorted, forall_mem_cons.mpr ⟨trivial, h.minimum⟩⟩
      · intro id hid
        obtain ⟨v, hv, hle⟩ := h.below id hid
        obtain ⟨v', hv', hle'⟩ := hvalue v hv
        exact ⟨v', hv', hle.trans hle'⟩
      · intro caller' call hcall'
        refine h.checked_update hvalue ?_ hcall'
        rintro _ ⟨⟩
        exact hchecked
    · obtain ⟨rfl, rfl⟩ := hcommand
      obtain ⟨rfl, habove, hminimum⟩ := hrises
      have hbelow : ∀ id' ∈ hist.filterMap Event.returned, id' < id := by
        intro id' hid'
        obtain ⟨v, hv, hle⟩ := h.below id' hid'
        exact hle.trans_lt (habove v hv)
      refine ⟨?_, ?_, pairwise_cons.mpr ⟨hbelow, h.sorted⟩, forall_mem_cons.mpr ⟨hminimum, h.minimum⟩⟩
      · intro id' hid'
        obtain rfl | hid' := mem_cons.mp hid'
        · exact ⟨id', rfl, le_refl id'⟩
        · exact ⟨id, rfl, (hbelow id' hid').le⟩
      · intro caller' call hcall'
        refine h.checked_update (fun v hv => ⟨id, rfl, (habove v hv).le⟩) ?_ hcall'
        rintro _ ⟨⟩

omit [DecidableEq κ] in
theorem Rising.fresh (h : Rising hist s) : Fresh hist where
  distinct := h.sorted.imp ne_of_gt
  above := by
    rintro after between before caller request id rfl id' hid'
    have hsorted := h.sorted
    rw [filterMap_append, @filterMap_cons_some _ _ Event.returned _ _ id rfl,
      pairwise_append] at hsorted
    refine (pairwise_cons.mp hsorted.2.1).1 id' ?_
    rw [filterMap_append]
    exact mem_append_right _ hid'
  minimum := h.minimum

/-- In every run in which no `SET` lowers or repeats the number of the key, the ids are fresh. -/
theorem generated_fresh (hstart : ∀ caller, s₀.calls caller = none)
    (hrun : Run (fun s e s' => step s e s' ∧ Raises s e) s₀ hist s) :
    Fresh hist := by
  have hrising : Rising hist s := by
    apply Run.history _ _ hrun
    · exact ⟨by simp, fun caller call hcall => absurd (hstart caller ▸ hcall) (by simp), List.Pairwise.nil,
        fun e he => absurd he not_mem_nil⟩
    · intro hist s e s' hbefore hstep
      exact rising_step hbefore hstep.1 hstep.2
  exact hrising.fresh

def idle : World Nat := ⟨none, fun _ => none⟩

def byOne : Request := ⟨1, none, le_refl 1⟩

theorem generated_one_after_another :
    Fresh [.command 1 byOne (some 3), .call 1 byOne, .command 0 byOne (some 2), .command 0 byOne none,
      .call 0 byOne] := by
  refine @generated_fresh _ _ _ idle _ (fun _ => rfl) (Run.cons (Run.cons (Run.cons (Run.cons (Run.cons Run.nil
    ⟨⟨rfl, rfl⟩, trivial⟩) ⟨⟨.start, rfl, rfl, rfl⟩, ?_⟩) ⟨⟨.setting 2, rfl, rfl, rfl⟩, ?_⟩)
    ⟨⟨rfl, rfl⟩, trivial⟩) ⟨⟨.start, rfl, rfl, rfl⟩, ?_⟩)
  · intro request id hcall
    cases hcall
  · rintro request id hcall v ⟨⟩
    cases hcall
    decide
  · intro request id hcall
    cases hcall

/-- The first value is corrected to a number that another call was given meanwhile. -/
theorem same_id_twice :
    ∃ s, Run step idle [.command 0 byOne (some 2), .command 1 byOne (some 2), .command 0 byOne none,
        .call 1 byOne, .call 0 byOne] s ∧
      ¬ Fresh [.command 0 byOne (some 2), .command 1 byOne (some 2), .command 0 byOne none,
        .call 1 byOne, .call 0 byOne] := by
  refine ⟨_, Run.cons (Run.cons (Run.cons (Run.cons (Run.cons Run.nil ⟨rfl, rfl⟩) ⟨rfl, rfl⟩)
    ⟨.start, rfl, rfl, rfl⟩) ⟨.start, rfl, rfl, rfl⟩) ⟨.setting 2, rfl, rfl, rfl⟩, ?_⟩
  intro hfresh
  exact absurd hfresh.distinct (by decide)

end MultiRag.RedisDB
