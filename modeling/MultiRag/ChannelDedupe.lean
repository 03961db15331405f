/-
  **Deliveries of one execution id, and the key that tells them apart.**

  A delivery is claimed when it is prepared, may then wait in the queue and run for
  any time, and writes the key again when it is answered.  The claim holds the key
  for ten minutes only; `InTime` are the steps that do not outrun it, and under them
  a redelivery replies or runs only after the dedupe period (`Deduplicated`).
-/
import MultiRag.Json
import MultiRag.Run

namespace MultiRag.ChannelDedupe

open Function List

/-! ### The store -/

inductive MessageState where
  | processing | replied | executed

structure Entry where
  value : MessageState
  expires : Int

def processingTtl : Int := seconds 600

def Entry.alive (key : Option Entry) (now : Int) : Bool := key.any fun entry => decide (now < entry.expires)

def claimMessage (key : Option Entry) (now : Int) : Bool × Option Entry :=
  if Entry.alive key now then (false, key) else (true, some ⟨.processing, now + processingTtl⟩)

def markMessage (dedupeTtl : Int) (value : MessageState) (now : Int) : Option Entry :=
  some ⟨value, now + dedupeTtl⟩

/-! ### Deliveries -/

/-- `_WorkKind`; the notice that the queue is full is a direct reply. -/
inductive WorkKind where
  | direct | empty | reset | question

/-- `behind` are the deliveries that were claimed before this one arrived; `work` is set by
    a claim; `dropped` is a duplicate, or a claim that raised. -/
structure Delivery where
  arrivedAt : Int
  behind : List Nat
  work : Option WorkKind
  claimedAt : Int
  dropped : Bool
  replied : Bool
  executed : Bool
  answeredAt : Option Int

structure State where
  now : Int
  key : Option Entry
  deliveries : Nat → Option Delivery
  claims : List Nat

def initial : State := ⟨0, none, fun _ => none, []⟩

def State.set (s : State) (i : Nat) (d : Delivery) : State :=
  { s with deliveries := update s.deliveries i (some d) }

inductive Action where
  | arrive (i : Nat)
  | claim (i : Nat) (work : WorkKind)
  | claimRaises (i : Nat) (told written : Bool)
  | reply (i : Nat)
  | execute (i : Nat)
  | mark (i : Nat) (value : MessageState) (written : Bool)

/-- `_prepare_message` and `_reply_queue_rejected`: the claim decides. -/
def prepare (s : State) (i : Nat) (d : Delivery) (work : WorkKind) : State :=
  let (claimed, key) := claimMessage s.key s.now
  if claimed then
    { s.set i { d with work := some work, claimedAt := s.now } with key := key, claims := i :: s.claims }
  else s.set i { d with dropped := true }

/-- A claim that raised may have reached the store; the sender of a queued message is told
    that the service is not available, the sender of a rejected one is not. -/
def prepareRaised (s : State) (i : Nat) (d : Delivery) (told written : Bool) : State :=
  { s.set i { d with dropped := true, replied := told } with
    key := if written then (claimMessage s.key s.now).2 else s.key }

def Delivery.mayReply (d : Delivery) : Bool :=
  d.answeredAt.isNone && !d.replied && match d.work with
    | none => false
    | some .empty => false
    | some .reset => d.executed
    | some _ => true

/-- `executor.stream` for a question with a reply, `executor.reset` for a reset. -/
def Delivery.mayExecute (d : Delivery) : Bool :=
  d.answeredAt.isNone && !d.executed && match d.work with
    | some .question => d.replied
    | some .reset => true
    | _ => false

def answer (dedupeTtl : Int) (s : State) (i : Nat) (d : Delivery) (value : MessageState)
    (written : Bool) : State :=
  if written then
    { s.set i { d with answeredAt := some (d.answeredAt.getD s.now) } with
      key := markMessage dedupeTtl value s.now }
  else s

def act (dedupeTtl : Int) (s : State) : Action → Option State
  | .arrive i =>
    match s.deliveries i with
    | none => some (s.set i ⟨s.now, s.claims, none, s.now, false, false, false, none⟩)
    | some _ => none
  | .claim i work =>
    match s.deliveries i with
    | some d => if d.work = none ∧ d.dropped = false then some (prepare s i d work) else none
    | none => none
  | .claimRaises i told written =>
    match s.deliveries i with
    | some d =>
      if d.work = none ∧ d.dropped = false then some (prepareRaised s i d told written) else none
    | none => none
  | .reply i =>
    match s.deliveries i with
    | some d => if d.mayReply then some (s.set i { d with replied := true }) else none
    | none => none
  | .execute i =>
    match s.deliveries i with
    | some d => if d.mayExecute then some (s.set i { d with executed := true }) else none
    | none => none
  | .mark i value written =>
    match s.deliveries i with
    | some d => if d.work ≠ none then some (answer dedupeTtl s i d value written) else none
    | none => none

/-- An action at a time that is not before the last one. -/
def Step (dedupeTtl : Int) (s : State) (e : Int × Action) (s' : State) : Prop :=
  s.now ≤ e.1 ∧ act dedupeTtl { s with now := e.1 } e.2 = some s'

/-! ### What is promised, and when -/

/-- Delivery `i` was answered, and a delivery that came behind it arrived only after the
    dedupe period. -/
def Released (dedupeTtl : Int) (s : State) (i : Nat) (second : Delivery) : Prop :=
  ∃ first a, s.deliveries i = some first ∧ first.answeredAt = some a ∧
    (i ∈ second.behind → a + dedupeTtl ≤ second.arrivedAt)

/-- A message that is queued or runs is not claimed again, and inside its dedupe period no
    later delivery replies or runs. -/
structure Deduplicated (dedupeTtl : Int) (s : State) : Prop where
  once : ∀ newer j older, s.claims = newer ++ j :: older → ∀ i ∈ older,
    ∃ second, s.deliveries j = some second ∧ Released dedupeTtl s i second
  silent : ∀ j second, s.deliveries j = some second → second.replied = true ∨ second.executed = true →
    ∀ i ∈ second.behind, Released dedupeTtl s i second

def Delivery.coveredUntil (dedupeTtl : Int) (d : Delivery) : Int :=
  match d.answeredAt with
  | none => d.claimedAt + processingTtl
  | some a => a + dedupeTtl

/-- The second delivery is claimed while the key of `i` holds, or may be claimed. -/
def Covered (dedupeTtl : Int) (s : State) (i : Nat) (second : Delivery) (now : Int) : Prop :=
  (∃ first, s.deliveries i = some first ∧ now < first.coveredUntil dedupeTtl) ∨
    Released dedupeTtl s i second

/-- A claim is tried while the keys before it hold, the store answers the claim of a
    redelivery, and no mark shortens the key of another delivery. -/
def InTime (dedupeTtl : Int) (s : State) (e : Int × Action) : Prop :=
  match e.2 with
  | .claim j _ => ∀ second, s.deliveries j = some second →
      ∀ i ∈ s.claims, Covered dedupeTtl s i second e.1
  | .claimRaises j told _ => told = true → ∀ second, s.deliveries j = some second →
      ∀ i ∈ second.behind, Released dedupeTtl s i second
  | .mark i _ written => written = true → ∀ j ∈ s.claims, j ≠ i → ∀ d, s.deliveries j = some d →
      d.coveredUntil dedupeTtl ≤ e.1 + dedupeTtl
  | _ => True

variable {dedupeTtl : Int} {s s' : State} {key : Option Entry} {now : Int}

@[simp] theorem State.set_deliveries (s : State) (i : Nat) (d : Delivery) :
    (s.set i d).deliveries = update s.deliveries i (some d) := rfl

theorem claimMessage_dead (h : Entry.alive key now = false) :
    claimMessage key now = (true, some ⟨.processing, now + processingTtl⟩) := by
  simp [claimMessage, h]

theorem claimMessage_alive (h : Entry.alive key now = true) :
    claimMessage key now = (false, key) := by
  simp [claimMessage, h]

/-- What stays of a delivery that replies, runs or is dropped. -/
structure Delivery.Same (d d' : Delivery) : Prop where
  arrivedAt : d'.arrivedAt = d.arrivedAt
  behind : d'.behind = d.behind
  work : d'.work = d.work
  claimedAt : d'.claimedAt = d.claimedAt
  answeredAt : d'.answeredAt = d.answeredAt

theorem act_cases {a : Action} (h : act dedupeTtl s a = some s') :
    (∃ i, s.deliveries i = none ∧
      s' = s.set i ⟨s.now, s.claims, none, s.now, false, false, false, none⟩) ∨
    (∃ i d work, a = .claim i work ∧ s.deliveries i = some d ∧ d.work = none ∧
      Entry.alive s.key s.now = false ∧
      s' = { s.set i { d with work := some work, claimedAt := s.now } with
        key := some ⟨.processing, s.now + processingTtl⟩, claims := i :: s.claims }) ∨
    (∃ i d d', s.deliveries i = some d ∧ d.Same d' ∧ s' = s.set i d' ∧
      (d'.replied = true ∨ d'.executed = true → (d.replied = true ∨ d.executed = true) ∨ d.work ≠ none)) ∨
    (∃ i d told written, a = .claimRaises i told written ∧ s.deliveries i = some d ∧ d.work = none ∧
      s' = prepareRaised s i d told written) ∨
    (∃ i d value, a = .mark i value true ∧ s.deliveries i = some d ∧ d.work ≠ none ∧
      s' = answer dedupeTtl s i d value true) ∨
    s' = s := by
  cases a with
  | arrive i =>
    simp only [act] at h
    split at h
    · next hnone => exact .inl ⟨i, hnone, by simpa using h.symm⟩
    · cases h
  | claim i work =>
    simp only [act] at h
    split at h
    · next d hd =>
      split at h
      · next hfree =>
        by_cases halive : Entry.alive s.key s.now = true
        · refine .inr (.inr (.inl ⟨i, d, { d with dropped := true }, hd, ⟨rfl, rfl, rfl, rfl, rfl⟩, ?_,
            fun hdone => .inl hdone⟩))
          simpa [prepare, claimMessage_alive halive] using h.symm
        · rw [Bool.not_eq_true] at halive
          refine .inr (.inl ⟨i, d, work, rfl, hd, hfree.1, halive, ?_⟩)
          simpa [prepare, claimMessage_dead halive] using h.symm
      · cases h
    · cases h
  | claimRaises i told written =>
    simp only [act] at h
    split at h
    · next d hd =>
      split at h
      · next hfree =>
        exact .inr (.inr (.inr (.inl ⟨i, d, told, written, rfl, hd, hfree.1, by simpa using h.symm⟩)))
      · cases h
    · cases h
  | reply i | execute i =>
    simp only [act] at h
    split at h
    · next d hd =>
      split at h
      · next hmay =>
        obtain rfl := Option.some.inj h
        refine .inr (.inr (.inl ⟨i, d, _, hd, ?_, rfl, fun _ => .inr fun hnone => ?_⟩))
        · exact ⟨rfl, rfl, rfl, rfl, rfl⟩
        · simp [Delivery.mayReply, Delivery.mayExecute, hnone] at hmay
      · cases h
    · cases h
  | mark i value written =>
    simp only [act] at h
    split at h
    · next d hd =>
      split at h
      · next hwork =>
        cases written with
        | true =>
          exact .inr (.inr (.inr (.inr (.inl ⟨i, d, value, rfl, hd, hwork, by simpa using h.symm⟩))))
        | false =>
          refine .inr (.inr (.inr (.inr (.inr ?_))))
          simpa [answer] using h.symm
      · cases h
    · cases h

/-! ### The invariant -/

/-- The key outlives every claim, and a claimed delivery came after the periods before it. -/
structure Sound (dedupeTtl : Int) (s : State) : Prop where
  covered : ∀ i ∈ s.claims, ∃ d entry, s.deliveries i = some d ∧ d.work ≠ none ∧
    s.key = some entry ∧ d.coveredUntil dedupeTtl ≤ entry.expires
  behind : ∀ j d, s.deliveries j = some d → ∀ i ∈ d.behind, i ∈ s.claims
  past : ∀ i d a, s.deliveries i = some d → d.answeredAt = some a → a ≤ s.now
  unanswered : ∀ i d, s.deliveries i = some d → d.work = none → d.answeredAt = none
  begun : ∀ j second, s.deliveries j = some second →
    (second.replied = true ∨ second.executed = true) ∨ second.work ≠ none →
    ∀ i ∈ second.behind, Released dedupeTtl s i second
  once : ∀ newer j older, s.claims = newer ++ j :: older → ∀ i ∈ older,
    ∃ second, s.deliveries j = some second ∧ Released dedupeTtl s i second

theorem Sound.settled (h : Sound dedupeTtl s) : Deduplicated dedupeTtl s where
  once := h.once
  silent j second hsecond hdone := h.begun j second hsecond (.inl hdone)

def Keeps (s s' : State) : Prop :=
  ∀ i d, s.deliveries i = some d → ∃ d', s'.deliveries i = some d' ∧ d'.arrivedAt = d.arrivedAt ∧
    d'.behind = d.behind ∧ ∀ a, d.answeredAt = some a → d'.answeredAt = some a

variable {i : Nat} {d : Delivery}

theorem update_cases {deliveries : Nat → Option Delivery} {j : Nat} {e : Delivery}
    (h : update deliveries i (some d) j = some e) :
    j = i ∧ e = d ∨ j ≠ i ∧ deliveries j = some e := by
  by_cases hj : j = i
  · subst hj
    rw [Function.update_self] at h
    exact .inl ⟨rfl, (Option.some.inj h).symm⟩
  · rw [Function.update_of_ne hj] at h
    exact .inr ⟨hj, h⟩

theorem Keeps.update (d' : Delivery) (hd : s.deliveries i = some d)
    (hdeliveries : s'.deliveries = update s.deliveries i (some d'))
    (harrived : d'.arrivedAt = d.arrivedAt) (hbehind : d'.behind = d.behind)
    (hanswered : ∀ a, d.answeredAt = some a → d'.answeredAt = some a) : Keeps s s' := by
  intro j e he
  by_cases hj : j = i
  · subst hj
    rw [hd] at he
    cases he
    exact ⟨d', by simp [hdeliveries], harrived, hbehind, hanswered⟩
  · exact ⟨e, by simp [hdeliveries, hj, he], rfl, rfl, fun _ ha => ha⟩

theorem Released.keeps {second second' : Delivery} (h : Released dedupeTtl s i second)
    (hkeeps : Keeps s s') (harrived : second'.arrivedAt = second.arrivedAt)
    (hbehind : second'.behind = second.behind) : Released dedupeTtl s' i second' := by
  obtain ⟨first, a, hfirst, ha, hperiod⟩ := h
  obtain ⟨first', hfirst', -, -, hanswered⟩ := hkeeps i first hfirst
  refine ⟨first', a, hfirst', hanswered a ha, ?_⟩
  rw [harrived, hbehind]
  exact hperiod

theorem once_keeps (h : Sound dedupeTtl s) (hkeeps : Keeps s s') {newer older : List Nat} {j : Nat}
    (hclaims : s.claims = newer ++ j :: older) (i : Nat) (hi : i ∈ older) :
    ∃ second, s'.deliveries j = some second ∧ Released dedupeTtl s' i second := by
  obtain ⟨second, hsecond, hreleased⟩ := h.once newer j older hclaims i hi
  obtain ⟨second', hsecond', harrived, hbehind, -⟩ := hkeeps j second hsecond
  exact ⟨second', hsecond', hreleased.keeps hkeeps harrived hbehind⟩

theorem sound_later (h : Sound dedupeTtl s) (hnow : s.now ≤ now) :
    Sound dedupeTtl { s with now := now } := { h with
  past i d a hd ha := Int.le_trans (h.past i d a hd ha) hnow }

theorem sound_arrive (h : Sound dedupeTtl s) (hnone : s.deliveries i = none) :
    Sound dedupeTtl (s.set i ⟨s.now, s.claims, none, s.now, false, false, false, none⟩) := by
  have hother : ∀ j d, s.deliveries j = some d →
      (s.set i ⟨s.now, s.claims, none, s.now, false, false, false, none⟩).deliveries j = some d := by
    intro j d hd
    have hj : j ≠ i := by
      rintro rfl
      simp [hnone] at hd
    simp [hj, hd]
  have hkeeps : Keeps s (s.set i ⟨s.now, s.claims, none, s.now, false, false, false, none⟩) :=
    fun j d hd => ⟨d, hother j d hd, rfl, rfl, fun _ ha => ha⟩
  constructor
  · intro j hj
    obtain ⟨d, entry, hd, hwork, hkey, huntil⟩ := h.covered j hj
    exact ⟨d, entry, hother j d hd, hwork, hkey, huntil⟩
  · intro j d hd k hk
    rcases update_cases hd with ⟨-, rfl⟩ | ⟨-, hd⟩
    · exact hk
    · exact h.behind j d hd k hk
  · intro j d a hd ha
    rcases update_cases hd with ⟨-, rfl⟩ | ⟨-, hd⟩
    · cases ha
    · exact h.past j d a hd ha
  · intro j d hd hwork
    rcases update_cases hd with ⟨-, rfl⟩ | ⟨-, hd⟩
    · rfl
    · exact h.unanswered j d hd hwork
  · intro j second hsecond hdone k hk
    rcases update_cases hsecond with ⟨-, rfl⟩ | ⟨-, hsecond⟩
    · simp at hdone
    · exact (h.begun j second hsecond hdone k hk).keeps hkeeps rfl rfl
  · intro newer j older hclaims
    exact once_keeps h hkeeps hclaims

theorem sound_update (d' : Delivery) (h : Sound dedupeTtl s) (hd : s.deliveries i = some d)
    (hdeliveries : s'.deliveries = update s.deliveries i (some d'))
    (hclaims : s'.claims = s.claims) (hnow : s'.now = s.now)
    (harrived : d'.arrivedAt = d.arrivedAt) (hbehind : d'.behind = d.behind)
    (hwork : d'.work = d.work) (hanswered : ∀ a, d.answeredAt = some a → d'.answeredAt = some a)
    (hpast : ∀ a, d'.answeredAt = some a → a ≤ s.now)
    (hunanswered : d.work = none → d'.answeredAt = none)
    (hbegun : d'.replied = true ∨ d'.executed = true → d.work = none →
      (d.replied = true ∨ d.executed = true) ∨ ∀ k ∈ d.behind, Released dedupeTtl s k d)
    (hcov : ∀ j ∈ s.claims, ∀ e entry, s.deliveries j = some e → s.key = some entry →
      e.coveredUntil dedupeTtl ≤ entry.expires →
      ∃ entry', s'.key = some entry' ∧
      (if j = i then d' else e).coveredUntil dedupeTtl ≤ entry'.expires) :
    Sound dedupeTtl s' := by
  have hkeeps : Keeps s s' := Keeps.update d' hd hdeliveries harrived hbehind hanswered
  have hget : ∀ j e, s'.deliveries j = some e → j = i ∧ e = d' ∨ j ≠ i ∧ s.deliveries j = some e :=
    fun j e he => update_cases (hdeliveries ▸ he)
  constructor
  · intro j hj
    rw [hclaims] at hj
    obtain ⟨e, entry, he, hework, hkey, huntil⟩ := h.covered j hj
    obtain ⟨entry', hkey', huntil'⟩ := hcov j hj e entry he hkey huntil
    by_cases hji : j = i
    · subst hji
      rw [hd] at he
      cases he
      exact ⟨d', entry', by simp [hdeliveries], by rwa [hwork], hkey', by simpa using huntil'⟩
    · exact ⟨e, entry', by simp [hdeliveries, hji, he], hework, hkey', by simpa [hji] using huntil'⟩
  · intro j e he k hk
    rw [hclaims]
    rcases hget j e he with ⟨rfl, rfl⟩ | ⟨-, he⟩
    · exact h.behind j d hd k (hbehind ▸ hk)
    · exact h.behind j e he k hk
  · intro j e a he ha
    rw [hnow]
    rcases hget j e he with ⟨-, rfl⟩ | ⟨-, he⟩
    · exact hpast a ha
    · exact h.past j e a he ha
  · intro j e he hnone
    rcases hget j e he with ⟨-, rfl⟩ | ⟨-, he⟩
    · exact hunanswered (hwork ▸ hnone)
    · exact h.unanswered j e he hnone
  · intro j second hsecond hdone k hk
    rcases hget j second hsecond with ⟨rfl, rfl⟩ | ⟨-, hsecond⟩
    · have hold : Released dedupeTtl s k d := by
        rw [hwork] at hdone
        rw [hbehind] at hk
        by_cases hnone : d.work = none
        · rcases hbegun (hdone.resolve_right fun hne => hne hnone) hnone with hbefore | hreleased
          · exact h.begun j d hd (.inl hbefore) k hk
          · exact hreleased k hk
        · exact h.begun j d hd (.inr hnone) k hk
      exact hold.keeps hkeeps harrived hbehind
    · exact (h.begun j second hsecond hdone k hk).keeps hkeeps rfl rfl
  · intro newer j older hold
    rw [hclaims] at hold
    exact once_keeps h hkeeps hold

theorem sound_same {d' : Delivery} (h : Sound dedupeTtl s) (hd : s.deliveries i = some d)
    (hsame : d.Same d')
    (hbegun : d'.replied = true ∨ d'.executed = true → (d.replied = true ∨ d.executed = true) ∨ d.work ≠ none) :
    Sound dedupeTtl (s.set i d') := by
  refine sound_update d' h hd rfl rfl rfl hsame.arrivedAt hsame.behind hsame.work ?_ ?_ ?_ ?_ ?_
  · rw [hsame.answeredAt]
    exact fun _ ha => ha
  · rw [hsame.answeredAt]
    exact fun a ha => h.past i d a hd ha
  · rw [hsame.answeredAt]
    exact h.unanswered i d hd
  · intro hdone hnone
    exact .inl ((hbegun hdone).resolve_right fun hne => hne hnone)
  · intro j _ e entry he hkey huntil
    refine ⟨entry, hkey, ?_⟩
    split
    · next hji =>
      subst hji
      rw [hd] at he
      cases he
      simpa [Delivery.coveredUntil, hsame.answeredAt, hsame.claimedAt] using huntil
    · exact huntil

theorem claimMessage_expires (entry : Entry) (now : Int) :
    ∃ entry', (claimMessage (some entry) now).2 = some entry' ∧ entry.expires ≤ entry'.expires := by
  by_cases halive : Entry.alive (some entry) now = true
  · exact ⟨entry, by rw [claimMessage_alive halive], Int.le_refl _⟩
  · rw [Bool.not_eq_true] at halive
    refine ⟨⟨.processing, now + processingTtl⟩, by rw [claimMessage_dead halive], ?_⟩
    have hdead : entry.expires ≤ now := by simpa [Entry.alive] using halive
    have hpos : (0 : Int) ≤ processingTtl := by decide
    simp only
    omega

section

variable (h : Sound dedupeTtl s) (hd : s.deliveries i = some d)
include h hd

theorem sound_raised {told written : Bool}
    (hintime : told = true → ∀ k ∈ d.behind, Released dedupeTtl s k d) :
    Sound dedupeTtl (prepareRaised s i d told written) := by
  refine sound_update { d with dropped := true, replied := told } h hd rfl rfl rfl rfl rfl rfl
    (fun _ ha => ha) (fun a ha => h.past i d a hd ha) (h.unanswered i d hd) ?_ ?_
  · intro hdone _
    rcases hdone with htold | hexecuted
    · exact .inr (hintime htold)
    · exact .inl (.inr hexecuted)
  · intro j _ e entry he hkey huntil
    have hsame : (if j = i then { d with dropped := true, replied := told } else e).coveredUntil dedupeTtl
        = e.coveredUntil dedupeTtl := by
      split
      · next hji =>
        subst hji
        rw [hd] at he
        cases he
        rfl
      · rfl
    rw [hsame]
    unfold prepareRaised
    rw [hkey]
    cases written with
    | true =>
      obtain ⟨entry', hkey', hle⟩ := claimMessage_expires entry s.now
      exact ⟨entry', hkey', Int.le_trans huntil hle⟩
    | false => exact ⟨entry, rfl, huntil⟩

theorem sound_mark {value : MessageState}
    (hwork : d.work ≠ none)
    (hintime : ∀ j ∈ s.claims, j ≠ i → ∀ e, s.deliveries j = some e →
      e.coveredUntil dedupeTtl ≤ s.now + dedupeTtl) :
    Sound dedupeTtl (answer dedupeTtl s i d value true) := by
  have hpast : d.answeredAt.getD s.now ≤ s.now := by
    cases hanswered : d.answeredAt with
    | none => exact Int.le_refl _
    | some a => exact h.past i d a hd hanswered
  refine sound_update { d with answeredAt := some (d.answeredAt.getD s.now) } h hd rfl rfl rfl rfl
    rfl rfl ?_ ?_ (fun hnone => absurd hnone hwork) (fun _ hnone => absurd hnone hwork) ?_
  · intro a ha
    simp [ha]
  · intro a ha
    simp only [Option.some.injEq] at ha
    exact ha ▸ hpast
  · intro j hj e entry he hkey huntil
    refine ⟨⟨value, s.now + dedupeTtl⟩, rfl, ?_⟩
    split
    · exact Int.add_le_add_right hpast dedupeTtl
    · next hji => exact hintime j hj hji e he

theorem sound_claim {work : WorkKind}
    (hwork : d.work = none) (hdead : Entry.alive s.key s.now = false)
    (hintime : ∀ k ∈ s.claims, Covered dedupeTtl s k d s.now) :
    Sound dedupeTtl { s.set i { d with work := some work, claimedAt := s.now } with
      key := some ⟨.processing, s.now + processingTtl⟩, claims := i :: s.claims } := by
  have hreleased : ∀ k ∈ s.claims, Released dedupeTtl s k d := by
    intro k hk
    rcases hintime k hk with ⟨first, hfirst, hheld⟩ | hreleased
    · obtain ⟨e, entry, he, -, hkey, huntil⟩ := h.covered k hk
      rw [hfirst] at he
      cases he
      have hover : entry.expires ≤ s.now := by simpa [Entry.alive, hkey] using hdead
      omega
    · exact hreleased
  have hkeeps : Keeps s { s.set i { d with work := some work, claimedAt := s.now } with
      key := some ⟨.processing, s.now + processingTtl⟩, claims := i :: s.claims } :=
    Keeps.update { d with work := some work, claimedAt := s.now } hd rfl rfl rfl fun _ ha => ha
  constructor
  · intro j hj
    by_cases hji : j = i
    · subst hji
      refine ⟨{ d with work := some work, claimedAt := s.now }, _, by simp, by simp, rfl, ?_⟩
      simp [Delivery.coveredUntil, h.unanswered j d hd hwork]
    · obtain ⟨e, entry, he, hework, hkey, huntil⟩ := h.covered j ((mem_cons.mp hj).resolve_left hji)
      refine ⟨e, _, by simp [hji, he], hework, rfl, ?_⟩
      have hover : entry.expires ≤ s.now := by simpa [Entry.alive, hkey] using hdead
      have hpos : (0 : Int) ≤ processingTtl := by decide
      simp only
      omega
  · intro j e he k hk
    rcases update_cases he with ⟨-, rfl⟩ | ⟨-, he⟩
    · exact mem_cons_of_mem _ (h.behind i d hd k hk)
    · exact mem_cons_of_mem _ (h.behind j e he k hk)
  · intro j e a he ha
    rcases update_cases he with ⟨-, rfl⟩ | ⟨-, he⟩
    · exact h.past i d a hd ha
    · exact h.past j e a he ha
  · intro j e he hnone
    rcases update_cases he with ⟨-, rfl⟩ | ⟨-, he⟩
    · cases hnone
    · exact h.unanswered j e he hnone
  · intro j second hsecond hdone k hk
    rcases update_cases hsecond with ⟨-, rfl⟩ | ⟨-, hsecond⟩
    · exact (hreleased k (h.behind i d hd k hk)).keeps hkeeps rfl rfl
    · exact (h.begun j second hsecond hdone k hk).keeps hkeeps rfl rfl
  · intro newer j older hclaims k hk
    cases newer with
    | nil =>
      rw [nil_append, List.cons.injEq] at hclaims
      obtain ⟨rfl, rfl⟩ := hclaims
      exact ⟨{ d with work := some work, claimedAt := s.now }, by simp,
        (hreleased k hk).keeps hkeeps rfl rfl⟩
    | cons other newer =>
      rw [cons_append, List.cons.injEq] at hclaims
      exact once_keeps h hkeeps hclaims.2 k hk

end

variable {e : Int × Action}

theorem sound_step (h : Sound dedupeTtl s) (hstep : Step dedupeTtl s e s')
    (hintime : InTime dedupeTtl s e) : Sound dedupeTtl s' := by
  obtain ⟨now, a⟩ := e
  obtain ⟨hnow, hact⟩ := hstep
  have hlater := sound_later h hnow
  rcases act_cases hact with ⟨i, hnone, rfl⟩ | ⟨i, d, work, rfl, hd, hwork, hdead, rfl⟩ |
    ⟨i, d, d', hd, hsame, rfl, hbegun⟩ | ⟨i, d, told, written, rfl, hd, -, rfl⟩ |
    ⟨i, d, value, rfl, hd, hwork, rfl⟩ | rfl
  · exact sound_arrive hlater hnone
  · exact sound_claim hlater hd hwork hdead (hintime d hd)
  · exact sound_same hlater hd hsame hbegun
  · exact sound_raised hlater hd fun htold => hintime htold d hd
  · exact sound_mark hlater hd hwork (hintime rfl)
  · exact hlater

theorem sound_initial : Sound dedupeTtl initial where
  covered i hi := nomatch hi
  behind j d hd := nomatch hd
  past i d a hd := nomatch hd
  unanswered i d hd := nomatch hd
  begun j d hd := nomatch hd
  once newer j older h := absurd h (by simp [initial])

/-- Where every step is in time, a redelivery replies or runs only after the dedupe period. -/
theorem deduplicated {hist : List (Int × Action)}
    (hrun : Run (fun s e s' => Step dedupeTtl s e s' ∧ InTime dedupeTtl s e) initial hist s) :
    Deduplicated dedupeTtl s := by
  have hsound : Sound dedupeTtl s :=
    Run.invariant sound_initial (fun _ _ _ h hstep => sound_step h hstep.1 hstep.2) hrun
  exact hsound.settled

/-! ### Two schedules -/

instance (dedupeTtl : Int) (s : State) (i : Nat) (second : Delivery) :
    Decidable (Released dedupeTtl s i second) :=
  decidable_of_iff (∃ first ∈ s.deliveries i, ∃ a ∈ first.answeredAt,
    (i ∈ second.behind → a + dedupeTtl ≤ second.arrivedAt)) (by simp [Released])

instance (dedupeTtl : Int) (s : State) (i : Nat) (second : Delivery) (now : Int) :
    Decidable (Covered dedupeTtl s i second now) :=
  decidable_of_iff ((∃ first ∈ s.deliveries i, now < first.coveredUntil dedupeTtl) ∨
    Released dedupeTtl s i second) (by simp [Covered])

instance (dedupeTtl : Int) (s : State) (e : Int × Action) : Decidable (InTime dedupeTtl s e) :=
  match e with
  | (now, .claim j _) => inferInstanceAs (Decidable (∀ second ∈ s.deliveries j,
      ∀ i ∈ s.claims, Covered dedupeTtl s i second now))
  | (_, .claimRaises j told _) => inferInstanceAs (Decidable (told = true →
      ∀ second ∈ s.deliveries j, ∀ i ∈ second.behind, Released dedupeTtl s i second))
  | (now, .mark i _ written) => inferInstanceAs (Decidable (written = true →
      ∀ j ∈ s.claims, j ≠ i → ∀ d ∈ s.deliveries j, d.coveredUntil dedupeTtl ≤ now + dedupeTtl))
  | (_, .arrive _) | (_, .reply _) | (_, .execute _) => inferInstanceAs (Decidable True)

def perform (dedupeTtl : Int) (e : Int × Action) (s : State) : (Int × Action) × State :=
  (e, (act dedupeTtl { s with now := e.1 } e.2).getD s)

/-- The event is a step; `strict` asks that it is in time as well. -/
def possible (dedupeTtl : Int) (strict : Bool) (e : Int × Action) (s : State) : Bool :=
  decide (s.now ≤ e.1) && (act dedupeTtl { s with now := e.1 } e.2).isSome &&
    (!strict || decide (InTime dedupeTtl s e))

theorem perform_step {strict : Bool}
    (h : possible dedupeTtl strict e s = true) :
    Step dedupeTtl s (perform dedupeTtl e s).1 (perform dedupeTtl e s).2 ∧
      (strict = true → InTime dedupeTtl s e) := by
  simp only [possible, Bool.and_eq_true, Bool.or_eq_true, Bool.not_eq_true', decide_eq_true_eq] at h
  obtain ⟨⟨hnow, hsome⟩, hstrict⟩ := h
  obtain ⟨s', hs'⟩ := Option.isSome_iff_exists.mp hsome
  constructor
  · refine ⟨hnow, ?_⟩
    simp [perform, hs']
  · rintro rfl
    simpa using hstrict

theorem run_perform {step : State → Int × Action → State → Prop} (dedupeTtl : Int) (strict : Bool)
    (events : List (Int × Action))
    (h : allowed (perform dedupeTtl) (possible dedupeTtl strict) events initial = true)
    (hstep : ∀ s e s', Step dedupeTtl s e s' → (strict = true → InTime dedupeTtl s e) → step s e s') :
    Run step initial (execute (perform dedupeTtl) events [] initial).1
      (execute (perform dedupeTtl) events [] initial).2 :=
  execute_steps Run.nil h fun e s hok =>
    hstep s e _ (perform_step hok).1 (perform_step hok).2

def redelivered : List (Int × Action) :=
  [(0, .arrive 0), (0, .claim 0 .question), (seconds 1, .reply 0), (seconds 400, .arrive 1),
    (seconds 401, .claim 1 .question), (seconds 450, .execute 0), (seconds 500, .mark 0 .replied true),
    (seconds 900, .arrive 2), (seconds 901, .claim 2 .question)]

theorem deduplicated_sample :
    Deduplicated (seconds 86400) (execute (perform (seconds 86400)) redelivered [] initial).2 :=
  deduplicated (run_perform (seconds 86400) true redelivered (by decide +kernel)
    fun _ _ _ hstep hintime => ⟨hstep, hintime rfl⟩)

def overtaken : List (Int × Action) :=
  [(0, .arrive 0), (0, .claim 0 .question), (seconds 1, .reply 0), (seconds 2, .execute 0),
    (seconds 600, .arrive 1), (seconds 600, .claim 1 .question), (seconds 601, .reply 1),
    (seconds 1000, .mark 0 .replied true), (seconds 1001, .execute 1)]

/-- The second delivery is claimed and replies while the first one runs, and runs after it. -/
theorem claim_overtaken :
    ∃ hist s, Run (Step (seconds 86400)) initial hist s ∧ s.claims = [1, 0] ∧
      (∃ first, s.deliveries 0 = some first ∧ first.replied = true ∧ first.executed = true ∧
        first.answeredAt = some (seconds 1000)) ∧
      (∃ second, s.deliveries 1 = some second ∧ second.behind = [0] ∧
        second.arrivedAt = seconds 600 ∧ second.replied = true ∧ second.executed = true) ∧
      ¬ Deduplicated (seconds 86400) s := by
  refine ⟨_, _, run_perform (seconds 86400) false overtaken (by decide +kernel) fun _ _ _ hstep _ => hstep,
    rfl, ⟨_, rfl, rfl, rfl, rfl⟩, ⟨_, rfl, rfl, rfl, rfl, rfl⟩, fun h => ?_⟩
  obtain ⟨first, a, hfirst, ha, hperiod⟩ := h.silent 1 _ rfl (.inl rfl) 0 (by decide)
  cases hfirst
  cases ha
  exact absurd (hperiod (by decide)) (by decide)

end MultiRag.ChannelDedupe
