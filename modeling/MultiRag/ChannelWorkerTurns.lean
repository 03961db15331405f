/-
  **What the worker promises for each conversation.**

  `Ordered` collects it: handlers of a conversation run alone and in order, and every accepted
  message is handled once and disposed of once.
-/
import Mathlib.Algebra.Order.BigOperators.Ring.Finset
import MultiRag.ChannelWorkerSteps

namespace MultiRag.ChannelWorker

open List Function

variable {μ κ : Type} [DecidableEq κ] {n : Nat}

/-! ### Dispositions -/

/-- The observations disposed of are those of messages that neither wait nor run. -/
structure Disposed (s : Worker μ κ n) : Prop where
  nodup : (s.dispositions.map Prod.fst).Nodup
  iff : ∀ observation, observation ∈ s.dispositions.map Prod.fst ↔
    observation < s.observations ∧
      ∀ queued, s.Waiting queued ∨ s.Running queued → queued.observation ≠ observation

variable {dispositions : List (Nat × ChannelMessageOutcome)} {observation : Nat} {outcome : ChannelMessageOutcome}

theorem mem_finalize {other : Nat} :
    other ∈ (finalize dispositions observation outcome).map Prod.fst ↔
      other ∈ dispositions.map Prod.fst ∨ other = observation := by
  unfold finalize
  split
  · next hin =>
    rw [contains_iff_mem] at hin
    refine ⟨.inl, ?_⟩
    rintro (hother | rfl)
    · exact hother
    · exact hin
  · rw [map_append, mem_append, map_singleton, mem_singleton]

theorem nodup_finalize (h : (dispositions.map Prod.fst).Nodup) :
    ((finalize dispositions observation outcome).map Prod.fst).Nodup := by
  unfold finalize
  split
  · exact h
  · next hnot =>
    rw [map_append, map_singleton, ← concat_eq_append]
    exact h.concat (mt contains_iff_mem.mpr hnot)

variable {s s' : Worker μ κ n} {config : Config μ κ} {queued : QueuedMessage μ κ}

omit [DecidableEq κ] in
theorem Worker.unfinished_of_open (h : s.Waiting queued ∨ s.Running queued) :
    s.Unfinished queued := by
  rcases h with (hin | ⟨i, order, notified, hi⟩) | ⟨i, order, hi⟩
  · exact .inl hin
  · exact .inr ⟨i, by rw [hi]; rfl⟩
  · exact .inr ⟨i, by rw [hi]; rfl⟩

theorem disposed_dispose (hsound : Sound s) (h : Disposed s) (result : ChannelResult)
    (reason : ChannelReason) : Disposed (s.dispose result reason) where
  nodup := nodup_finalize h.nodup
  iff observation := by
    unfold Worker.dispose
    rw [mem_finalize, h.iff]
    constructor
    · rintro (⟨hlt, hnone⟩ | rfl)
      · exact ⟨Nat.lt_succ_of_lt hlt, hnone⟩
      · refine ⟨Nat.lt_succ_self _, fun queued hopen heq => ?_⟩
        exact Nat.lt_irrefl _
          (heq ▸ hsound.fresh queued (hsound.known queued (Worker.unfinished_of_open hopen)))
    · rintro ⟨hlt, hnone⟩
      rcases Nat.lt_succ_iff_lt_or_eq.mp hlt with hold | heq
      · exact .inl ⟨hold, hnone⟩
      · exact .inr heq

theorem disposed_discard_withOrder (h : Disposed s) (key : κ) :
    Disposed ((s.withOrder key).1.discard key (s.withOrder key).2) := by
  unfold Worker.withOrder Worker.discard
  split
  · split
    · exact ⟨h.nodup, h.iff⟩
    · exact h
  · split
    · exact ⟨h.nodup, h.iff⟩
    · exact ⟨h.nodup, h.iff⟩

theorem disposed_accept (h : Disposed s) (message : μ) (key : κ) :
    Disposed ((s.withOrder key).1.accept message key (s.withOrder key).2) := by
  have hfields : (s.withOrder key).1.dispositions = s.dispositions ∧
      (s.withOrder key).1.observations = s.observations ∧
      (s.withOrder key).1.queue = s.queue ∧ (s.withOrder key).1.consumers = s.consumers := by
    unfold Worker.withOrder
    split
    · exact ⟨rfl, rfl, rfl, rfl⟩
    · exact ⟨rfl, rfl, rfl, rfl⟩
  obtain ⟨hdispositions, hobservations, hqueue, hconsumers⟩ := hfields
  unfold Worker.accept
  constructor
  · simp only [hdispositions]
    exact h.nodup
  · intro observation
    simp only [hdispositions, hobservations, h.iff, Worker.Waiting, Worker.Running, hqueue,
      hconsumers, mem_append, mem_singleton]
    constructor
    · rintro ⟨hlt, hnone⟩
      refine ⟨Nat.lt_succ_of_lt hlt, ?_⟩
      rintro queued (((hin | rfl) | hwait) | hrunning)
      · exact hnone queued (.inl (.inl hin))
      · exact Nat.ne_of_gt hlt
      · exact hnone queued (.inl (.inr hwait))
      · exact hnone queued (.inr hrunning)
    · rintro ⟨hlt, hnone⟩
      have hne := hnone _ (.inl (.inl (.inr rfl)))
      simp only at hne
      refine ⟨by omega, ?_⟩
      rintro queued ((hin | hwait) | hrunning)
      · exact hnone queued (.inl (.inl (.inl hin)))
      · exact hnone queued (.inl (.inr hwait))
      · exact hnone queued (.inr hrunning)

theorem disposed_enqueue (hsound : Sound s) (h : Disposed s) (message : μ)
    (rejection : Option ChannelReason) : Disposed (s.enqueue config message rejection) := by
  unfold Worker.enqueue
  split
  · exact disposed_dispose hsound h _ _
  · split
    · exact disposed_dispose hsound h _ _
    · simp only
      split
      · exact disposed_dispose (sound_discard_withOrder hsound _) (disposed_discard_withOrder h _) _ _
      · split
        · exact disposed_dispose (sound_discard_withOrder hsound _)
            (disposed_discard_withOrder h _) _ _
        · exact disposed_accept h message _

omit [DecidableEq κ] in
theorem Disposed.congr (h : Disposed s) (hdispositions : s'.dispositions = s.dispositions)
    (hobservations : s'.observations = s.observations)
    (hopen : ∀ queued, (s'.Waiting queued ∨ s'.Running queued) ↔
      (s.Waiting queued ∨ s.Running queued)) : Disposed s' where
  nodup := by
    rw [hdispositions]
    exact h.nodup
  iff observation := by
    simp only [hdispositions, hobservations, hopen]
    exact h.iff observation

def Phase.open? : Phase μ κ → Option (QueuedMessage μ κ)
  | .waiting queued _ _ | .running queued _ => some queued
  | .idle | .dead | .finishing _ _ => none

omit [DecidableEq κ] in
theorem Worker.open_iff :
    (s.Waiting queued ∨ s.Running queued) ↔
      queued ∈ s.queue ∨ ∃ i, (s.consumers i).open? = some queued := by
  constructor
  · rintro ((hin | ⟨i, order, notified, hi⟩) | ⟨i, order, hi⟩)
    · exact .inl hin
    · exact .inr ⟨i, by rw [hi]; rfl⟩
    · exact .inr ⟨i, by rw [hi]; rfl⟩
  · rintro (hin | ⟨i, hi⟩)
    · exact .inl (.inl hin)
    · cases hphase : s.consumers i with
      | waiting other order notified =>
        rw [hphase] at hi
        cases hi
        exact .inl (.inr ⟨i, order, notified, hphase⟩)
      | running other order =>
        rw [hphase] at hi
        cases hi
        exact .inr ⟨i, order, hphase⟩
      | idle | dead | finishing other order =>
        rw [hphase] at hi
        cases hi

variable {i : Fin n}

theorem disposed_dequeue (hsound : Sound s) (h : Disposed s) (hstep : s.dequeue i = some s') :
    Disposed s' := by
  obtain ⟨queued, rest, order, hidle, hqueue, -, rfl⟩ := dequeue_cases hsound hstep
  refine h.congr rfl rfl fun other => ?_
  rw [Worker.open_iff, Worker.open_iff, hqueue, mem_cons]
  constructor
  · rintro (hin | ⟨j, hj⟩)
    · exact .inl (.inr hin)
    · by_cases heq : j = i
      · subst heq
        simp only [update_self, Phase.open?, Option.some.injEq] at hj
        exact .inl (.inl hj.symm)
      · simp only [update_of_ne heq] at hj
        exact .inr ⟨j, hj⟩
  · rintro ((rfl | hin) | ⟨j, hj⟩)
    · exact .inr ⟨i, by simp [Phase.open?]⟩
    · exact .inl hin
    · have hne : j ≠ i := by
        rintro rfl
        rw [hidle] at hj
        cases hj
      exact .inr ⟨j, by simp only [update_of_ne hne, hj]⟩

omit [DecidableEq κ] in
theorem disposed_check (h : Disposed s) (hstep : s.check i = some s') :
    Disposed s' := by
  obtain ⟨queued, order, hwait, ⟨-, rfl⟩ | ⟨-, rfl⟩⟩ := check_cases hstep
  all_goals
    refine h.congr rfl rfl fun other => ?_
    rw [Worker.open_iff, Worker.open_iff]
    refine or_congr_right (exists_congr fun j => ?_)
    exact Eq.congr_left (read_update Phase.open? (by rw [hwait]; rfl) j)

theorem disposed_complete {completion : Completion} (hsound : Sound s) (h : Disposed s)
    (hstep : s.complete i completion = some s') : Disposed s' := by
  obtain ⟨queued, order, hrunning, rfl⟩ := complete_cases hstep
  have htaken : (s.consumers i).taken? = some queued := by
    rw [hrunning]
    rfl
  have hunfin := Worker.unfinished_of_taken htaken
  refine ⟨nodup_finalize h.nodup, fun observation => ?_⟩
  rw [mem_finalize, h.iff]
  simp only [Worker.open_iff, Worker.setPhase]
  constructor
  · rintro (⟨hlt, hnone⟩ | rfl)
    · refine ⟨hlt, ?_⟩
      rintro other (hin | ⟨j, hj⟩)
      · exact hnone other (.inl hin)
      · rw [update_apply] at hj
        split at hj
        · cases hj
        · exact hnone other (.inr ⟨j, hj⟩)
    · refine ⟨hsound.fresh queued (hsound.known queued hunfin), ?_⟩
      rintro other hother heq
      have hopen : other ∈ s.queue ∨ ∃ j, j ≠ i ∧ (s.consumers j).open? = some other := by
        rcases hother with hin | ⟨j, hj⟩
        · exact .inl hin
        · rw [update_apply] at hj
          split at hj
          · cases hj
          · next hne => exact .inr ⟨j, hne, hj⟩
      have hopenTaken : ∀ phase : Phase μ κ, phase.open? = some other → phase.taken? = some other := by
        intro phase hphase
        cases phase with
        | waiting q o b => exact hphase
        | running q o => exact hphase
        | idle | dead | finishing q o => cases hphase
      have hknown : other ∈ s.accepted := by
        rcases hopen with hin | ⟨j, -, hj⟩
        · exact hsound.known other (.inl hin)
        · exact hsound.known other (.inr ⟨j, hopenTaken _ hj⟩)
      obtain rfl : other = queued :=
        inj_on_of_nodup_map hsound.distinct hknown (hsound.known queued hunfin) heq
      rcases hopen with hin | ⟨j, hne, hj⟩
      · exact (hsound.ahead i other htaken other hin).1 rfl
      · exact hne (hsound.single j i other (hopenTaken _ hj) htaken)
  · rintro ⟨hlt, hnone⟩
    by_cases heq : observation = queued.observation
    · exact .inr heq
    · refine .inl ⟨hlt, ?_⟩
      rintro other (hin | ⟨j, hj⟩)
      · exact hnone other (.inl hin)
      · by_cases hji : j = i
        · subst hji
          rw [hrunning] at hj
          cases hj
          exact Ne.symm heq
        · exact hnone other (.inr ⟨j, by rw [update_of_ne hji]; exact hj⟩)

omit [DecidableEq κ] in
theorem notify_open? (order : Nat) (phase : Phase μ κ) :
    (Worker.notify order phase).open? = phase.open? := by
  cases phase <;> rfl

theorem disposed_finish (h : Disposed s) (hstep : s.finish i = some s') :
    Disposed s' := by
  obtain ⟨queued, order, hfinishing, rfl⟩ := finish_cases hstep
  refine h.congr rfl rfl fun other => ?_
  rw [Worker.open_iff, Worker.open_iff]
  have hopen : ∀ j, (update (Worker.notify order ∘ s.consumers) i .idle j).open? =
      (s.consumers j).open? := by
    intro j
    rw [update_apply]
    split
    · next heq =>
      rw [heq, hfinishing]
      rfl
    · exact notify_open? order _
  simp only [hopen]

variable {a : Action μ n}

theorem disposed_step (hsound : Sound s) (h : Disposed s) (hstep : Step config s a s') :
    Disposed s' := by
  cases a with
  | enqueue message rejection =>
    rw [← Option.some.inj hstep]
    exact disposed_enqueue hsound h message rejection
  | dequeue i => exact disposed_dequeue hsound h hstep
  | check i => exact disposed_check h hstep
  | complete i completion => exact disposed_complete hsound h hstep
  | finish i => exact disposed_finish h hstep

/-! ### The bound on the messages of a conversation -/

def Bounded (config : Config μ κ) (s : Worker μ κ n) : Prop :=
  config.lifecycle = true → ∀ key order, s.conversationOrders key = some order →
    (s.heap order).nextTicket ≤ (s.heap order).nextToRun + config.followupQueueSize + 1

theorem bounded_withOrder (h : Bounded config s) (key : κ) : Bounded config (s.withOrder key).1 := by
  unfold Worker.withOrder
  split
  · exact h
  · intro hlife key' order horder
    simp only [update_apply] at horder ⊢
    split
    · exact Nat.zero_le _
    · next hne =>
      split at horder
      · exact absurd (Option.some.inj horder).symm hne
      · exact h hlife key' order horder

theorem bounded_discard (h : Bounded config s) (key : κ) (order : Nat) :
    Bounded config (s.discard key order) := by
  unfold Worker.discard
  split
  · intro hlife key' order' horder
    simp only [update_apply] at horder
    split at horder
    · cases horder
    · exact h hlife key' order' horder
  · exact h

theorem bounded_enqueue (h : Bounded config s) (message : μ) (rejection : Option ChannelReason) :
    Bounded config (s.enqueue config message rejection) := by
  unfold Worker.enqueue
  split
  · exact h
  · split
    · exact h
    · simp only
      have hwith := bounded_withOrder h (config.messageOrderKey message)
      split
      · exact bounded_discard hwith _ _
      · next hposition =>
        split
        · exact bounded_discard hwith _ _
        · intro hlife key order horder
          rw [hlife, Bool.true_and, decide_eq_true_eq] at hposition
          simp only [Worker.accept, update_apply] at horder ⊢
          split
          · simp only
            omega
          · exact hwith hlife key order horder

theorem bounded_step (hsound : Sound s) (h : Bounded config s) (hstep : Step config s a s') :
    Bounded config s' := by
  cases a with
  | enqueue message rejection =>
    rw [← Option.some.inj hstep]
    exact bounded_enqueue h message rejection
  | dequeue i =>
    obtain ⟨queued, rest, order, -, -, -, rfl⟩ := dequeue_cases hsound hstep
    exact h
  | check i =>
    obtain ⟨queued, order, -, ⟨-, rfl⟩ | ⟨-, rfl⟩⟩ := check_cases hstep
    · exact h
    · exact h
  | complete i completion =>
    obtain ⟨queued, order, -, rfl⟩ := complete_cases hstep
    exact h
  | finish i =>
    obtain ⟨queued, order, -, rfl⟩ := finish_cases hstep
    intro hlife key order' horder
    have hold : s.conversationOrders key = some order' := by
      simp only at horder
      split at horder
      · rw [update_apply] at horder
        split at horder
        · cases horder
        · exact horder
      · exact horder
    have hbound := h hlife key order' hold
    simp only [update_apply]
    split
    · next heq =>
      subst heq
      simp only
      omega
    · exact hbound

/-! ### What is promised -/

/-- A step that a consumer makes, with a handler that ends. -/
def Action.ofConsumer : Action μ n → Bool
  | .enqueue _ _ => false
  | .dequeue _ | .check _ | .complete _ _ | .finish _ => true

structure Ordered (config : Config μ κ) (s : Worker μ κ n) : Prop where
  alone : ∀ i j queued other order order', s.consumers i = .running queued order →
    s.consumers j = .running other order' → queued.orderKey = other.orderKey → i = j
  inOrder : ∀ key, s.handledOf key <+: s.acceptedOf key
  once : s.accepted.Nodup ∧ s.handled.Nodup ∧
    ∀ queued ∈ s.accepted, queued ∈ s.handled ↔ ¬ s.Waiting queued
  disposed : (s.dispositions.map Prod.fst).Nodup ∧
    ∀ observation, observation ∈ s.dispositions.map Prod.fst ↔
      observation < s.observations ∧
        ∀ queued, s.Waiting queued ∨ s.Running queued → queued.observation ≠ observation
  followup : config.lifecycle = true → ∀ queued, s.Running queued →
    ∀ waiting : List (QueuedMessage μ κ), waiting.Nodup →
      (∀ later ∈ waiting, later.orderKey = queued.orderKey ∧ s.Waiting later) →
        waiting.length ≤ config.followupQueueSize
  entries : ∀ key, (s.conversationOrders key).isSome = true ↔
    ∃ queued, queued.orderKey = key ∧ s.Unfinished queued
  alive : ∀ i, s.consumers i ≠ .dead
  notStuck : 0 < n → (∃ queued, s.Unfinished queued) →
    ∃ a : Action μ n, a.ofConsumer = true ∧ (step config s a).isSome = true

namespace Sound

section

variable (h : Sound s)
include h

theorem handled_prefix (key : κ) : s.handledOf key <+: s.acceptedOf key := by
  obtain ⟨closed, messages, hline⟩ := h.lines key
  rw [hline.accepted]
  by_cases hbusy : s.Busy key
  · rw [hline.busy hbusy, prefix_append_right_inj]
    exact take_prefix _ _
  · rw [hline.idle hbusy]
    exact prefix_append _ _

theorem accepted_nodup : s.accepted.Nodup := Nodup.of_map _ h.distinct

theorem handled_nodup : s.handled.Nodup := by
  rw [nodup_iff_sublist]
  intro queued htwice
  have hfilter : [queued, queued].Sublist (s.handledOf queued.orderKey) := by
    have := htwice.filter fun other => decide (other.orderKey = queued.orderKey)
    simpa [Worker.handledOf] using this
  have hacc : (s.acceptedOf queued.orderKey).Nodup := h.accepted_nodup.filter _
  exact nodup_iff_sublist.mp hacc queued
    (hfilter.trans (h.handled_prefix queued.orderKey).sublist)

theorem not_waiting_of_started
    (hi : (s.consumers i).started? = some queued) : ¬ s.Waiting queued := by
  have htaken := Phase.taken?_of_started? hi
  rintro (hin | ⟨j, order, notified, hj⟩)
  · exact (h.ahead i queued htaken queued hin).1 rfl
  · have hij : i = j := h.single i j queued htaken (by rw [hj]; rfl)
    rw [hij, hj] at hi
    cases hi

theorem mem_handled (hqueued : queued ∈ s.accepted) :
    queued ∈ s.handled ↔ ¬ s.Waiting queued := by
  obtain ⟨closed, messages, hline⟩ := h.lines queued.orderKey
  have hnodup : (closed ++ messages).Nodup := by
    rw [← hline.accepted]
    exact h.accepted_nodup.filter _
  have hclosed : queued ∈ closed ∨ queued ∈ messages := by
    rw [← mem_append, ← hline.accepted]
    exact List.mem_filter.mpr ⟨hqueued, decide_eq_true rfl⟩
  have hhandled : queued ∈ s.handled ↔ queued ∈ s.handledOf queued.orderKey := by
    simp [Worker.handledOf]
  rw [hhandled]
  constructor
  · intro hin hwait
    have hmsg : queued ∈ messages :=
      (hline.mem queued).mpr ⟨rfl, Worker.unfinished_of_open (.inl hwait)⟩
    have hnot : queued ∉ closed := fun hold =>
      (nodup_append.mp hnodup).2.2 queued hold queued hmsg rfl
    by_cases hbusy : s.Busy queued.orderKey
    · rw [hline.busy hbusy, mem_append] at hin
      obtain ⟨i, other, hstarted, hkey⟩ := hbusy
      obtain ⟨rest, rfl⟩ := h.first hstarted (hkey ▸ hline)
      have heq : queued = other := mem_singleton.mp (hin.resolve_left hnot)
      rw [← heq] at hstarted
      exact h.not_waiting_of_started hstarted hwait
    · rw [hline.idle hbusy] at hin
      exact hnot hin
  · intro hwait
    have hstart : queued ∈ messages → ∃ i, (s.consumers i).started? = some queued := by
      intro hmsg
      rcases ((hline.mem queued).mp hmsg).2 with hin | ⟨i, hi⟩
      · exact absurd (.inl hin) hwait
      · refine ⟨i, ?_⟩
        cases hphase : s.consumers i with
        | waiting other order notified =>
          rw [hphase] at hi
          cases hi
          exact absurd (.inr ⟨i, order, notified, hphase⟩) hwait
        | running other order | finishing other order =>
          rw [hphase] at hi
          exact hi
        | idle | dead =>
          rw [hphase] at hi
          cases hi
    rcases hclosed with hold | hmsg
    · by_cases hbusy : s.Busy queued.orderKey
      · rw [hline.busy hbusy]
        exact mem_append_left _ hold
      · rw [hline.idle hbusy]
        exact hold
    · obtain ⟨i, hstarted⟩ := hstart hmsg
      obtain ⟨rest, rfl⟩ := h.first hstarted hline
      rw [hline.busy ⟨i, queued, hstarted, rfl⟩, mem_append]
      exact .inr (mem_singleton_self queued)

theorem followup (hbounded : Bounded config s) (hlife : config.lifecycle = true)
    (hrunning : s.Running queued) {waiting : List (QueuedMessage μ κ)} (hnodup : waiting.Nodup)
    (hwait : ∀ later ∈ waiting, later.orderKey = queued.orderKey ∧ s.Waiting later) :
    waiting.length ≤ config.followupQueueSize := by
  obtain ⟨i, order, hi⟩ := hrunning
  have hstart : (s.consumers i).started? = some queued := by
    rw [hi]
    rfl
  have htaken := Phase.taken?_of_started? hstart
  have hentry := h.held i queued order htaken (by rw [hi]; rfl)
  obtain ⟨closed, messages, hline⟩ := h.lines queued.orderKey
  have hnot : queued ∉ waiting := fun hin => h.not_waiting_of_started hstart (hwait _ hin).2
  have hsub : queued :: waiting ⊆ messages := by
    intro later hlater
    rw [hline.mem]
    rcases mem_cons.mp hlater with rfl | hin
    · exact ⟨rfl, Worker.unfinished_of_taken htaken⟩
    · exact ⟨(hwait later hin).1, Worker.unfinished_of_open (.inl (hwait later hin).2)⟩
  have hlength := (subperm_of_subset (nodup_cons.mpr ⟨hnot, hnodup⟩) hsub).length_le
  have hnext := (hline.present order hentry).2.nextTicket
  have hbound := hbounded hlife _ order hentry
  rw [length_cons] at hlength
  omega

theorem entries (key : κ) : (s.conversationOrders key).isSome = true ↔
    ∃ queued, queued.orderKey = key ∧ s.Unfinished queued := by
  obtain ⟨closed, messages, hline⟩ := h.lines key
  constructor
  · intro hsome
    obtain ⟨order, hentry⟩ := Option.isSome_iff_exists.mp hsome
    obtain ⟨queued, hin⟩ := exists_mem_of_ne_nil _ (hline.present order hentry).1
    exact ⟨queued, (hline.mem queued).mp hin⟩
  · rintro ⟨queued, rfl, hqueued⟩
    obtain ⟨order, -, -, hentry, -⟩ := h.order hqueued
    rw [hentry]
    rfl

/-- When no consumer can move by itself, each waits for a message that another has taken, and the
    first message of its conversation waits for nothing. -/
theorem notStuck (hn : 0 < n) (hsome : ∃ queued, s.Unfinished queued) :
    ∃ a : Action μ n, a.ofConsumer = true ∧ (step config s a).isSome = true := by
  by_contra hstuck
  have hnone : ∀ a : Action μ n, a.ofConsumer = true → step config s a = none := by
    intro a ha
    rw [← Option.not_isSome_iff_eq_none]
    exact fun hstep => hstuck ⟨a, ha, hstep⟩
  have hphase : ∀ i, (s.consumers i = .idle ∧ s.queue = []) ∨
      ∃ queued order, s.consumers i = .waiting queued order false := by
    intro i
    cases hi : s.consumers i with
    | idle =>
      left
      refine ⟨rfl, ?_⟩
      cases hqueue : s.queue with
      | nil => rfl
      | cons queued rest =>
        have hstep := hnone (.dequeue i) rfl
        simp only [step, Worker.dequeue, hi, hqueue] at hstep
        split at hstep <;> cases hstep
    | waiting queued order notified =>
      right
      cases notified with
      | false => exact ⟨queued, order, rfl⟩
      | true =>
        have hstep := hnone (.check i) rfl
        simp only [step, Worker.check, hi] at hstep
        split at hstep <;> cases hstep
    | running queued order =>
      have hstep := hnone (.complete i .raised) rfl
      simp only [step, Worker.complete, hi] at hstep
      cases hstep
    | finishing queued order =>
      have hstep := hnone (.finish i) rfl
      simp only [step, Worker.finish, hi] at hstep
      cases hstep
    | dead => exact absurd hi (h.alive i)
  have hwait : ∀ i queued order, s.consumers i = .waiting queued order false → False := by
    intro i queued order hi
    have htaken : (s.consumers i).taken? = some queued := by rw [hi]; rfl
    obtain ⟨closed, messages, hline⟩ := h.lines queued.orderKey
    have hin : queued ∈ messages :=
      (hline.mem queued).mpr ⟨rfl, Worker.unfinished_of_taken htaken⟩
    obtain ⟨hne, htickets⟩ := hline.present order (h.held_waiting hi)
    obtain ⟨first, rest, rfl, hfirst⟩ := htickets.head hne
    obtain ⟨hkey, hunfin⟩ := (hline.mem first).mp mem_cons_self
    rcases hunfin with hqueue | ⟨j, hj⟩
    · -- a queued message of the conversation has a later ticket
      have hlater := (h.ahead i queued htaken first hqueue).2 hkey.symm
      have hle := (htickets.nextToRun_le hin).1
      omega
    · rcases hphase j with ⟨hidle, -⟩ | ⟨other, order', hother⟩
      · rw [hidle] at hj
        cases hj
      · rw [hother] at hj
        obtain rfl : other = first := Option.some.inj hj
        have hentry := h.held_waiting hother
        rw [hkey, h.held_waiting hi] at hentry
        obtain rfl : order = order' := Option.some.inj hentry
        exact h.blocked j other order hother hfirst
  obtain ⟨queued, hin | ⟨i, hi⟩⟩ := hsome
  · rcases hphase ⟨0, hn⟩ with ⟨-, hempty⟩ | ⟨other, order, hother⟩
    · rw [hempty] at hin
      cases hin
    · exact hwait _ other order hother
  · rcases hphase i with ⟨hidle, -⟩ | ⟨other, order, hother⟩
    · rw [hidle] at hi
      cases hi
    · exact hwait i other order hother

end

end Sound

/-- In every run the conversations are served in order, each message once, without getting
    stuck. -/
theorem conversations_ordered (config : Config μ κ) (hist : List (Action μ n)) (s : Worker μ κ n)
    (hrun : Run (Step config) Worker.initial hist s) : Ordered config s := by
  have hboth : Sound s ∧ Disposed s ∧ Bounded config s := by
    refine hrun.invariant (P := fun s => Sound s ∧ Disposed s ∧ Bounded config s)
      ⟨sound_initial, ⟨nodup_nil, fun _ => ⟨nofun, fun h => absurd h.1 (Nat.not_lt_zero _)⟩⟩,
        fun _ _ _ => nofun⟩ ?_
    rintro s a s' ⟨hsound, hdisposed, hbounded⟩ hstep
    exact ⟨sound_step hsound hstep, disposed_step hsound hdisposed hstep,
      bounded_step hsound hbounded hstep⟩
  obtain ⟨hsound, hdisposed, hbounded⟩ := hboth
  refine ⟨?_, hsound.handled_prefix,
    ⟨hsound.accepted_nodup, hsound.handled_nodup, fun _ => hsound.mem_handled⟩,
    ⟨hdisposed.nodup, hdisposed.iff⟩, ?_, hsound.entries, hsound.alive, hsound.notStuck⟩
  · intro i j queued other order order' hi hj hkey
    exact hsound.alone (by rw [hi]; rfl) (by rw [hj]; rfl) hkey
  · intro hlifecycle queued hrunning waiting hnodup hwaiting
    exact hsound.followup hbounded hlifecycle hrunning hnodup hwaiting

/-! ### The end of the consumers' steps -/

/-- How many steps a consumer can still make; each turn passed on may wake all the others. -/
def Phase.left (n : Nat) : Phase μ κ → Nat
  | .idle | .dead => 0
  | .finishing _ _ => n
  | .running _ _ => n + 1
  | .waiting _ _ notified => n + 2 + notified.toNat

def Worker.left (s : Worker μ κ n) : Nat :=
  (n + 4) * s.queue.length + ∑ i, (s.consumers i).left n

omit [DecidableEq κ] in
theorem left_lt {k : Nat}
    (hothers : ∀ j, j ≠ i → (s'.consumers j).left n ≤ (s.consumers j).left n + k)
    (hlt : (n + 4) * s'.queue.length + (s'.consumers i).left n + n * k <
      (n + 4) * s.queue.length + (s.consumers i).left n + k) : s'.left < s.left := by
  have hphase : ∀ j, (s'.consumers j).left n + (if j = i then (s.consumers i).left n + k else 0) ≤
      (s.consumers j).left n + k + if j = i then (s'.consumers i).left n else 0 := by
    intro j
    split
    · next heq => rw [heq, Nat.add_comm]
    · next hne => exact hothers j hne
  have hsum := Finset.sum_le_sum fun j (_ : j ∈ Finset.univ) => hphase j
  simp only [Finset.sum_add_distrib, Finset.sum_ite_eq', Finset.mem_univ, if_true, Finset.sum_const,
    Finset.card_univ, Fintype.card_fin, nsmul_eq_mul, Nat.cast_id] at hsum
  unfold Worker.left
  omega

omit [DecidableEq κ] in
theorem left_update {phase : Phase μ κ} (hphase : s'.consumers = update s.consumers i phase)
    (hlt : (n + 4) * s'.queue.length + phase.left n < (n + 4) * s.queue.length + (s.consumers i).left n) :
    s'.left < s.left := by
  apply left_lt (i := i) (k := 0)
  · intro j hne
    rw [hphase, update_of_ne hne, Nat.add_zero]
  · simpa [hphase] using hlt

theorem left_step (h : Sound s) (hstep : Step config s a s') (ha : a.ofConsumer = true) :
    s'.left < s.left := by
  cases a with
  | enqueue message rejection => cases ha
  | dequeue i =>
    obtain ⟨queued, rest, order, hidle, hqueue, -, rfl⟩ := dequeue_cases h hstep
    exact left_update rfl (by simp [hidle, hqueue, Phase.left, Nat.mul_succ])
  | check i =>
    obtain ⟨queued, order, hwait, ⟨-, rfl⟩ | ⟨-, rfl⟩⟩ := check_cases hstep
    · exact left_update rfl (by simp [hwait, Worker.setPhase, Phase.left])
    · exact left_update rfl (by simp [hwait, Worker.setPhase, Phase.left])
  | complete i completion =>
    obtain ⟨queued, order, hrunning, rfl⟩ := complete_cases hstep
    exact left_update rfl (by simp [hrunning, Worker.setPhase, Phase.left])
  | finish i =>
    obtain ⟨queued, order, hfinishing, rfl⟩ := finish_cases hstep
    refine left_lt (i := i) (k := 1) (fun j hne => ?_) (by simp [hfinishing, Phase.left])
    simp only [update_of_ne hne, comp_apply]
    cases s.consumers j with
    | waiting other order' notified =>
      have := Bool.toNat_le (notified || decide (order' = order))
      simp only [Worker.notify, Phase.left]
      omega
    | _ => exact Nat.le_succ _

theorem reached {hist : List (Action μ n)} (hrun : Run (Step config) Worker.initial hist s) :
    Sound s ∧ Disposed s := by
  refine hrun.invariant (P := fun s => Sound s ∧ Disposed s)
    ⟨sound_initial, nodup_nil, fun _ => ⟨nofun, fun h => absurd h.1 (Nat.not_lt_zero _)⟩⟩ ?_
  rintro s a s' ⟨hsound, hdisposed⟩ hstep
  exact ⟨sound_step hsound hstep, disposed_step hsound hdisposed hstep⟩

/-- From every reachable state the consumers' own steps come to an end, and then every accepted
    message has been handled and disposed of. -/
theorem drained (config : Config μ κ) (hn : 0 < n) (hist later : List (Action μ n)) (s s' : Worker μ κ n)
    (hrun : Run (Step config) Worker.initial hist s) (hlater : Run (Step config) s later s')
    (hconsumers : ∀ a ∈ later, a.ofConsumer = true) :
    later.length ≤ s.left ∧ ((∀ a : Action μ n, a.ofConsumer = true → step config s' a = none) →
      ∀ queued ∈ s'.accepted, queued ∈ s'.handled ∧ queued.observation ∈ s'.dispositions.map Prod.fst) := by
  have hlength : later.length + s'.left ≤ s.left := by
    induction hlater with
    | nil => exact (Nat.zero_add _).le
    | cons hbefore hstep ih =>
      have hless := left_step (reached (hrun.append hbefore)).1 hstep (hconsumers _ mem_cons_self)
      have hlength := ih fun a ha => hconsumers a (mem_cons_of_mem _ ha)
      rw [length_cons]
      omega
  obtain ⟨hsound, hdisposed⟩ := reached (hrun.append hlater)
  refine ⟨by omega, fun hend queued hqueued => ?_⟩
  have hfinished : ∀ queued, ¬s'.Unfinished queued := by
    intro queued hunfinished
    obtain ⟨a, ha, hpossible⟩ : ∃ a : Action μ n, a.ofConsumer = true ∧ (step config s' a).isSome = true :=
      hsound.notStuck hn ⟨queued, hunfinished⟩
    simp [hend a ha] at hpossible
  constructor
  · exact (hsound.mem_handled hqueued).mpr fun hwait => hfinished _ (Worker.unfinished_of_open (.inl hwait))
  · refine (hdisposed.iff _).mpr ⟨hsound.fresh queued hqueued, fun other hopen => ?_⟩
    exact absurd (Worker.unfinished_of_open hopen) (hfinished other)

/-! ### Two workers -/

def sampleConfig (lifecycle : Bool) : Config String String := ⟨lifecycle, 1, 100, id⟩

def perform (config : Config String String) (a : Action String n) (s : Worker String String n) :
    Action String n × Worker String String n := (a, (step config s a).getD s)

def possible (config : Config String String) (a : Action String n) (s : Worker String String n) :
    Bool := (step config s a).isSome

theorem run_perform (config : Config String String) {start : Worker String String n}
    (actions : List (Action String n)) (h : allowed (perform config) (possible config) actions start = true) :
    Run (Step config) start (execute (perform config) actions [] start).1
      (execute (perform config) actions [] start).2 := by
  refine execute_steps Run.nil h fun a s hok => ?_
  obtain ⟨s', hs'⟩ := Option.isSome_iff_exists.mp hok
  rw [perform, Step, hs']
  rfl

def twoConversations : List (Action String 2) :=
  [.enqueue "a" none, .enqueue "a" none, .enqueue "b" none, .dequeue 0, .dequeue 1, .check 1,
    .check 0, .complete 0 .raised, .finish 0, .dequeue 0, .check 0, .check 1]

theorem conversations_ordered_sample :
    Ordered (sampleConfig true)
      (execute (perform (sampleConfig true)) twoConversations [] Worker.initial).2 :=
  conversations_ordered (sampleConfig true) _ _
    (run_perform (sampleConfig true) twoConversations (by decide +kernel))

def oneMessage : Worker String String 1 := Worker.initial.enqueue (sampleConfig true) "a" none

def consuming : List (Action String 1) := [.dequeue 0, .check 0, .complete 0 .raised, .finish 0]

theorem drained_sample :
    ⟨"a", "a", 0, 0⟩ ∈ (execute (perform (sampleConfig true)) consuming [] oneMessage).2.handled ∧
      0 ∈ (execute (perform (sampleConfig true)) consuming [] oneMessage).2.dispositions.map Prod.fst := by
  have hrun : Run (Step (sampleConfig true)) Worker.initial [.enqueue "a" none] oneMessage := Run.cons Run.nil rfl
  have hdrained := drained _ Nat.one_pos _ _ _ _ hrun
    (run_perform (sampleConfig true) consuming (by decide +kernel)) (by decide +kernel)
  refine hdrained.2 ?_ ⟨"a", "a", 0, 0⟩ (by decide +kernel)
  intro a ha
  cases a with
  | enqueue message rejection => cases ha
  | _ i =>
    obtain rfl := Subsingleton.elim 0 i
    rfl

def threeMessages : List (Action String 1) :=
  [.enqueue "a" none, .enqueue "a" none, .enqueue "a" none, .dequeue 0, .check 0]

/-- Without a lifecycle bridge two messages wait where the bound is one. -/
theorem legacy_bridge_unbounded :
    ∃ hist s, Run (Step (sampleConfig false)) (Worker.initial (n := 1)) hist s ∧
      ∃ queued, s.Running queued ∧ ∃ waiting : List (QueuedMessage String String),
        waiting.Nodup ∧
        (∀ later ∈ waiting, later.orderKey = queued.orderKey ∧ s.Waiting later) ∧
        (sampleConfig false).followupQueueSize < waiting.length := by
  refine ⟨_, _, run_perform (sampleConfig false) threeMessages (by decide +kernel),
    ⟨"a", "a", 0, 0⟩, ⟨0, 0, by decide +kernel⟩, [⟨"a", "a", 1, 1⟩, ⟨"a", "a", 2, 2⟩], by decide, ?_,
    by decide⟩
  intro later hlater
  rcases mem_cons.mp hlater with rfl | hlater
  · exact ⟨rfl, .inl (by decide +kernel)⟩
  · rw [mem_singleton.mp hlater]
    exact ⟨rfl, .inl (by decide +kernel)⟩

end MultiRag.ChannelWorker
