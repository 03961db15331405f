/-
  **Every step of the worker keeps the lines.**

  One lemma for each action, and from them `sound_run`.
-/
import MultiRag.ChannelWorkerOrder

namespace MultiRag.ChannelWorker

open List Function
open Option (some.inj some.injEq)

variable {μ κ : Type} [DecidableEq κ] {n : Nat} {s s' : Worker μ κ n}

omit [DecidableEq κ] in
theorem Worker.Busy.congr (h : ∀ i, (s'.consumers i).started? = (s.consumers i).started?)
    (key : κ) : s'.Busy key ↔ s.Busy key := by
  unfold Worker.Busy
  simp only [h]

omit [DecidableEq κ] in
theorem read_update {α : Type} (read : Phase μ κ → α) {phase : Phase μ κ} {i : Fin n}
    (h : read phase = read (s.consumers i)) (j : Fin n) :
    read (update s.consumers i phase j) = read (s.consumers j) := by
  rw [update_apply]
  split
  · next heq => rw [heq, h]
  · rfl

theorem sound_initial : Sound (Worker.initial : Worker μ κ n) where
  known queued h := by
    rcases h with h | ⟨i, h⟩
    · cases h
    · cases h
  fresh _ h := nomatch h
  distinct := nodup_nil
  fifo := List.Pairwise.nil
  ahead _ _ h := nomatch h
  single _ _ _ h := nomatch h
  held _ _ _ h := nomatch h
  turn _ _ _ h := nomatch h
  blocked _ _ _ h := nomatch h
  alive _ := nofun
  allocated _ _ h := nomatch h
  injective _ _ _ h := nomatch h
  lines key := by
    refine ⟨[], [], ?_, fun _ => rfl, nofun, rfl, fun _ => rfl, fun _ => rfl⟩
    intro queued
    constructor
    · exact nofun
    · rintro ⟨-, h | ⟨i, h⟩⟩
      · cases h
      · cases h

variable (h : Sound s)
include h

theorem sound_dispose (result : ChannelResult) (reason : ChannelReason) :
    Sound (s.dispose result reason) := { h with
  fresh queued hqueued := Nat.lt_succ_of_lt (h.fresh queued hqueued)
  lines key := by
    obtain ⟨closed, messages, hline⟩ := h.lines key
    exact ⟨closed, messages, hline.congr (fun _ _ => Iff.rfl) rfl (fun _ _ => rfl) rfl rfl Iff.rfl⟩ }

theorem sound_allocate (o : ConversationOrder) :
    Sound { s with heap := update s.heap s.allocated o, allocated := s.allocated + 1 } := by
  have hheap : ∀ key order, s.conversationOrders key = some order →
      update s.heap s.allocated o order = s.heap order := by
    intro key order horder
    exact update_of_ne (Nat.ne_of_lt (h.allocated key order horder)) _ _
  have hturn : ∀ i queued order, (s.consumers i).taken? = some queued →
      (s.consumers i).order? = some order →
        update s.heap s.allocated o order = s.heap order :=
    fun i queued order htaken horder => hheap _ _ (h.held i queued order htaken horder)
  refine ⟨h.known, h.fresh, h.distinct, h.fifo, h.ahead, h.single, h.held, ?_, ?_, h.alive, ?_,
    h.injective, ?_⟩
  · intro i queued order hstart horder
    have hsame := hturn i queued order (Phase.taken?_of_started? hstart) horder
    exact (h.turn i queued order hstart horder).trans
      (congrArg ConversationOrder.nextToRun hsame.symm)
  · intro i queued order hwait heq
    have hsame := hheap _ _ (h.held_waiting hwait)
    exact h.blocked i queued order hwait
      (heq.trans (congrArg ConversationOrder.nextToRun hsame))
  · intro key order horder
    exact Nat.lt_succ_of_lt (h.allocated key order horder)
  · intro key
    obtain ⟨closed, messages, hline⟩ := h.lines key
    exact ⟨closed, messages,
      hline.congr (fun _ _ => Iff.rfl) rfl (fun order horder => hheap key order horder) rfl rfl
        Iff.rfl⟩

theorem sound_discard_withOrder (key : κ) :
    Sound ((s.withOrder key).1.discard key (s.withOrder key).2) := by
  unfold Worker.withOrder
  rcases hentry : s.conversationOrders key with - | order
  · simp only
    have hnew : update (update s.conversationOrders key (some s.allocated)) key
        none = s.conversationOrders := by
      rw [update_idem, ← hentry, update_eq_self]
    unfold Worker.discard
    rw [if_pos (by simp)]
    simp only [hnew]
    exact sound_allocate h ⟨0, 0, 0⟩
  · simp only
    obtain ⟨closed, messages, hline⟩ := h.lines key
    obtain ⟨hne, htickets⟩ := hline.present order hentry
    have hpend : (s.heap order).pending ≠ 0 := by
      rw [htickets.pending]
      have := length_pos_of_ne_nil hne
      omega
    unfold Worker.discard
    rw [if_neg hpend]
    exact h

theorem withOrder_spec (key : κ) :
    ∃ order heap allocated closed messages,
      s.withOrder key = ({ s with
        conversationOrders := update s.conversationOrders key (some order)
        heap := heap
        allocated := allocated }, order) ∧
      (∀ key' order', s.conversationOrders key' = some order' → heap order' = s.heap order') ∧
      (∀ key' order', s.conversationOrders key' = some order' → (key' = key ↔ order' = order)) ∧
      order < allocated ∧ s.allocated ≤ allocated ∧ Line s key closed messages ∧
      Tickets (heap order) messages := by
  obtain ⟨closed, messages, hline⟩ := h.lines key
  unfold Worker.withOrder
  rcases hentry : s.conversationOrders key with - | order
  · refine ⟨s.allocated, _, s.allocated + 1, closed, messages, rfl, ?_, ?_, Nat.lt_succ_self _,
      Nat.le_succ _, hline, ?_⟩
    · intro key' order' horder
      exact update_of_ne (Nat.ne_of_lt (h.allocated key' order' horder)) _ _
    · intro key' order' horder
      constructor
      · rintro rfl
        rw [hentry] at horder
        cases horder
      · rintro rfl
        exact absurd (h.allocated key' _ horder) (Nat.lt_irrefl _)
    · rw [update_self, hline.absent hentry]
      exact ⟨rfl, rfl, rfl⟩
  · refine ⟨order, s.heap, s.allocated, closed, messages, ?_, fun _ _ _ => rfl, ?_,
      h.allocated key order hentry, le_rfl, hline, (hline.present order hentry).2⟩
    · have hsame : update s.conversationOrders key (some order) = s.conversationOrders := by
        rw [← hentry, update_eq_self]
      rw [hsame]
    · intro key' order' horder
      constructor
      · rintro rfl
        exact some.inj (horder.symm.trans hentry)
      · rintro rfl
        exact h.injective key' key _ horder hentry

theorem sound_accept (message : μ) (key : κ) :
    Sound ((s.withOrder key).1.accept message key (s.withOrder key).2) := by
  obtain ⟨order, heap, allocated, closed, messages, hwith, hheap, hiff, horder, hallocated, hline,
    htickets⟩ := withOrder_spec h key
  rw [hwith]
  -- the message joins at the end of its line
  let queued : QueuedMessage μ κ := ⟨message, key, (heap order).nextTicket, s.observations⟩
  have hnew : ∀ other ∈ s.accepted, other ≠ queued := by
    rintro other hother rfl
    exact Nat.lt_irrefl _ (h.fresh _ hother)
  have hlater : ∀ other, s.Unfinished other → Before other queued := by
    refine fun other hother => ⟨hnew other (h.known other hother), fun hkey => ?_⟩
    exact (htickets.nextToRun_le ((hline.mem other).mpr ⟨hkey, hother⟩)).2
  have hunfin : ∀ other,
      (({ s with
          conversationOrders := update s.conversationOrders key (some order)
          heap := heap
          allocated := allocated } : Worker μ κ n).accept message key order).Unfinished other ↔
        other = queued ∨ s.Unfinished other := by
    intro other
    unfold Worker.Unfinished Worker.accept
    rw [mem_append, mem_singleton]
    tauto
  have hnext : ∀ key' order', s.conversationOrders key' = some order' →
      (update heap order
        ⟨(heap order).nextTicket + 1, (heap order).nextToRun, (heap order).pending + 1⟩
        order').nextToRun = (s.heap order').nextToRun := by
    intro key' order' hentry
    by_cases heq : order' = order
    · subst heq
      rw [update_self, hheap key' order' hentry]
    · rw [update_of_ne heq, hheap key' order' hentry]
  refine ⟨?_, ?_, ?_, ?_, ?_, h.single, ?_, ?_, ?_, h.alive, ?_, ?_, ?_⟩
  · intro other hother
    rw [hunfin] at hother
    rcases hother with rfl | hother
    · exact mem_append_right _ (mem_singleton_self _)
    · exact mem_append_left _ (h.known other hother)
  · intro other hother
    rcases mem_append.mp hother with hold | hself
    · exact Nat.lt_succ_of_lt (h.fresh other hold)
    · rw [mem_singleton.mp hself]
      exact Nat.lt_succ_self _
  · simp only [Worker.accept, map_append, map_singleton]
    rw [← concat_eq_append]
    refine Nodup.concat ?_ h.distinct
    rw [mem_map]
    rintro ⟨other, hother, heq⟩
    exact Nat.lt_irrefl _ (heq ▸ h.fresh other hother)
  · refine pairwise_append.mpr ⟨h.fifo, pairwise_singleton _ _, ?_⟩
    intro other hother later hlast
    rw [mem_singleton.mp hlast]
    exact hlater other (.inl hother)
  · intro i other htaken later hin
    rcases mem_append.mp hin with hold | hself
    · exact h.ahead i other htaken later hold
    · rw [mem_singleton.mp hself]
      exact hlater other (Worker.unfinished_of_taken htaken)
  · intro i other order' htaken horder'
    have hentry := h.held i other order' htaken horder'
    simp only [Worker.accept, update_apply]
    split
    · next hkey => rw [((hiff _ _ hentry).mp hkey)]
    · exact hentry
  · intro i other order' hstart horder'
    rw [h.turn i other order' hstart horder']
    exact (hnext _ _ (h.held i other order' (Phase.taken?_of_started? hstart) horder')).symm
  · intro i other order' hwait
    have hentry := h.held_waiting hwait
    refine fun heq => h.blocked i other order' hwait (heq.trans ?_)
    exact hnext _ _ hentry
  · intro key' order' hentry
    simp only [Worker.accept, update_apply] at hentry
    split at hentry
    · rw [← some.inj hentry]
      exact horder
    · exact Nat.lt_of_lt_of_le (h.allocated key' order' hentry) hallocated
  · intro key₁ key₂ order' hentry₁ hentry₂
    simp only [Worker.accept, update_apply] at hentry₁ hentry₂
    split at hentry₁
    · next hkey₁ =>
      split at hentry₂
      · next hkey₂ => rw [hkey₁, hkey₂]
      · rw [hkey₁, (hiff _ _ hentry₂).mpr (some.inj hentry₁).symm]
    · split at hentry₂
      · next hkey₂ => rw [hkey₂, (hiff _ _ hentry₁).mpr (some.inj hentry₂).symm]
      · exact h.injective key₁ key₂ order' hentry₁ hentry₂
  · intro key'
    by_cases hkey : key' = key
    · subst hkey
      refine ⟨closed, messages ++ [queued], ?_, ?_, ?_, ?_, hline.idle, ?_⟩
      · intro other
        rw [mem_append, mem_singleton, hline.mem, hunfin]
        constructor
        · rintro (⟨hkey, hother⟩ | rfl)
          · exact ⟨hkey, .inr hother⟩
          · exact ⟨rfl, .inl rfl⟩
        · rintro ⟨hkey, rfl | hother⟩
          · exact .inr rfl
          · exact .inl ⟨hkey, hother⟩
      · intro hnone
        simp only [Worker.accept, update_self] at hnone
        cases hnone
      · intro order' hentry
        simp only [Worker.accept, update_self, some.injEq] at hentry
        subst hentry
        refine ⟨by simp, ?_⟩
        simp only [Worker.accept, update_self]
        exact htickets.concat rfl
      · have hlast : [queued].filter (fun q => decide (q.orderKey = key')) = [queued] := by
          simp [queued]
        have hacc := hline.accepted
        unfold Worker.acceptedOf Worker.accept at *
        rw [filter_append, hacc, hlast, append_assoc]
      · intro hbusy
        have hin : messages ≠ [] := by
          obtain ⟨i, other, hstart, hother⟩ := hbusy
          have htaken := Phase.taken?_of_started? hstart
          exact ne_nil_of_mem
            ((hline.mem other).mpr ⟨hother, Worker.unfinished_of_taken htaken⟩)
        obtain ⟨first, rest, rfl⟩ := exists_cons_of_ne_nil hin
        exact hline.busy hbusy
    · obtain ⟨closed', messages', hline'⟩ := h.lines key'
      refine ⟨closed', messages', hline'.congr ?_ ?_ ?_ ?_ rfl Iff.rfl⟩
      · intro other hother
        rw [hunfin]
        refine or_iff_right ?_
        rintro rfl
        exact hkey hother.symm
      · simp only [Worker.accept]
        exact update_of_ne hkey _ _
      · intro order' hentry
        have hne : order' ≠ order := fun heq => hkey ((hiff _ _ hentry).mpr heq)
        simp only [Worker.accept]
        rw [update_of_ne hne, hheap _ _ hentry]
      · have hlast : [queued].filter (fun q => decide (q.orderKey = key')) = [] := by
          simp [queued, Ne.symm hkey]
        unfold Worker.acceptedOf Worker.accept
        rw [filter_append, hlast, append_nil]

theorem sound_enqueue (config : Config μ κ) (message : μ)
    (rejection : Option ChannelReason) : Sound (s.enqueue config message rejection) := by
  unfold Worker.enqueue
  split
  · exact sound_dispose h _ _
  · split
    · exact sound_dispose h _ _
    · simp only
      split
      · exact sound_dispose (sound_discard_withOrder h _) _ _
      · split
        · exact sound_dispose (sound_discard_withOrder h _) _ _
        · exact sound_accept h message _

variable {i : Fin n}

theorem dequeue_cases (hstep : s.dequeue i = some s') :
    ∃ queued rest order, s.consumers i = .idle ∧ s.queue = queued :: rest ∧
      s.conversationOrders queued.orderKey = some order ∧
      s' = { s with
        queue := rest
        consumers := update s.consumers i (.waiting queued order true) } := by
  unfold Worker.dequeue at hstep
  split at hstep
  · next queued rest hidle hqueue =>
    have hin : queued ∈ s.queue := by
      rw [hqueue]
      exact mem_cons_self
    obtain ⟨order, -, -, hentry, -⟩ := h.order (.inl hin)
    simp only [hentry, some.injEq] at hstep
    exact ⟨queued, rest, order, hidle, hqueue, hentry, hstep.symm⟩
  · cases hstep

theorem sound_dequeue (hstep : s.dequeue i = some s') : Sound s' := by
  obtain ⟨queued, rest, order, hidle, hqueue, hentry, rfl⟩ := dequeue_cases h hstep
  have hin : queued ∈ s.queue := by
    rw [hqueue]
    exact mem_cons_self
  have hrest : ∀ other ∈ rest, other ∈ s.queue := by
    intro other hother
    rw [hqueue]
    exact mem_cons_of_mem _ hother
  have hfifo := h.fifo
  rw [hqueue, pairwise_cons] at hfifo
  have htaken : ∀ j other,
      ((update s.consumers i (.waiting queued order true)) j).taken? = some other ↔
        (j = i ∧ other = queued) ∨ (s.consumers j).taken? = some other := by
    intro j other
    rw [update_apply]
    split
    · next heq =>
      subst heq
      rw [hidle]
      simp [Phase.taken?, eq_comm]
    · next hne => simp [hne]
  have hstart : Phase.started? (.waiting queued order true) = (s.consumers i).started? := by
    rw [hidle]
    rfl
  have hunfin : ∀ other, Worker.Unfinished { s with
      queue := rest
      consumers := update s.consumers i (.waiting queued order true) } other ↔
        s.Unfinished other := by
    intro other
    unfold Worker.Unfinished
    simp only [htaken, hqueue, mem_cons]
    constructor
    · rintro (hother | ⟨j, ⟨-, heq⟩ | hother⟩)
      · exact .inl (.inr hother)
      · exact .inl (.inl heq)
      · exact .inr ⟨j, hother⟩
    · rintro ((heq | hother) | ⟨j, hother⟩)
      · exact .inr ⟨i, .inl ⟨rfl, heq⟩⟩
      · exact .inl hother
      · exact .inr ⟨j, .inr hother⟩
  have horder : ∀ j, j ≠ i → update s.consumers i (.waiting queued order true) j =
      s.consumers j := fun j hne => update_of_ne hne _ _
  refine ⟨?_, h.fresh, h.distinct, hfifo.2, ?_, ?_, ?_, ?_, ?_, ?_, h.allocated, h.injective, ?_⟩
  · intro other hother
    exact h.known other ((hunfin other).mp hother)
  · intro j other hother later hlater
    rcases (htaken j other).mp hother with ⟨-, rfl⟩ | hold
    · exact hfifo.1 later hlater
    · exact h.ahead j other hold later (hrest later hlater)
  · intro j j' other hj hj'
    rcases (htaken j other).mp hj with ⟨rfl, rfl⟩ | hold
    · rcases (htaken j' other).mp hj' with ⟨rfl, -⟩ | hold'
      · rfl
      · exact absurd rfl (h.ahead j' other hold' other hin).1
    · rcases (htaken j' other).mp hj' with ⟨-, rfl⟩ | hold'
      · exact absurd rfl (h.ahead j other hold other hin).1
      · exact h.single j j' other hold hold'
  · intro j other order' hother horder'
    by_cases heq : j = i
    · subst heq
      simp only [update_self, Phase.taken?, Phase.order?, some.injEq] at hother horder'
      rw [← hother, ← horder']
      exact hentry
    · simp only [horder j heq] at hother horder'
      exact h.held j other order' hother horder'
  · intro j other order' hother horder'
    have hne : j ≠ i := by
      rintro rfl
      simp [Phase.started?] at hother
    simp only [horder j hne] at hother horder'
    exact h.turn j other order' hother horder'
  · intro j other order' hwait
    by_cases heq : j = i
    · subst heq
      simp at hwait
    · simp only [horder j heq] at hwait
      exact h.blocked j other order' hwait
  · intro j
    by_cases heq : j = i
    · subst heq
      simp
    · simp only [horder j heq]
      exact h.alive j
  · intro key
    obtain ⟨closed, messages, hline⟩ := h.lines key
    exact ⟨closed, messages, hline.congr (fun other _ => hunfin other) rfl (fun _ _ => rfl) rfl
      rfl (Worker.Busy.congr (read_update _ hstart) key)⟩

omit h

variable {phase : Phase μ κ}

omit [DecidableEq κ] in
theorem unfinished_rephase (htaken : phase.taken? = (s.consumers i).taken?)
    (dispositions : List (Nat × ChannelMessageOutcome)) (handled : List (QueuedMessage μ κ))
    (other : QueuedMessage μ κ) :
    ({ s.setPhase i phase with dispositions := dispositions, handled := handled } :
      Worker μ κ n).Unfinished other ↔ s.Unfinished other := by
  unfold Worker.Unfinished Worker.setPhase
  simp only [read_update Phase.taken? htaken]

theorem sound_rephase (h : Sound s) (htaken : phase.taken? = (s.consumers i).taken?)
    (horder : phase.order? = (s.consumers i).order?)
    (hturn : ∀ queued order, phase.started? = some queued → phase.order? = some order →
      queued.ticket = (s.heap order).nextToRun)
    (hblocked : ∀ queued order, phase = .waiting queued order false →
      queued.ticket ≠ (s.heap order).nextToRun)
    (halive : phase ≠ .dead) (dispositions : List (Nat × ChannelMessageOutcome))
    (handled : List (QueuedMessage μ κ))
    (hlines : ∀ key, ∃ closed messages,
      Line { s.setPhase i phase with dispositions := dispositions, handled := handled } key closed
        messages) :
    Sound { s.setPhase i phase with dispositions := dispositions, handled := handled } := by
  have hphase : ∀ j, update s.consumers i phase j = if j = i then phase else s.consumers j :=
    fun j => update_apply _ _ _ _
  have htaken' := read_update Phase.taken? htaken
  have horder' := read_update Phase.order? horder
  refine ⟨?_, h.fresh, h.distinct, h.fifo, ?_, ?_, ?_, ?_, ?_, ?_, h.allocated, h.injective, hlines⟩
  · intro other hother
    exact h.known other ((unfinished_rephase htaken dispositions handled other).mp hother)
  · intro j other hother
    exact h.ahead j other ((htaken' j).symm.trans hother)
  · intro j j' other hj hj'
    exact h.single j j' other ((htaken' j).symm.trans hj) ((htaken' j').symm.trans hj')
  · intro j other order hother hin
    exact h.held j other order ((htaken' j).symm.trans hother) ((horder' j).symm.trans hin)
  · intro j other order hother hin
    simp only [Worker.setPhase, hphase] at hother hin
    split at hother
    · next heq =>
      rw [if_pos heq] at hin
      exact hturn other order hother hin
    · next hne =>
      rw [if_neg hne] at hin
      exact h.turn j other order hother hin
  · intro j other order hwait
    simp only [Worker.setPhase, hphase] at hwait
    split at hwait
    · exact hblocked other order hwait
    · exact h.blocked j other order hwait
  · intro j
    simp only [Worker.setPhase, hphase]
    split
    · exact halive
    · exact h.alive j

theorem lines_rephase (h : Sound s) (htaken : phase.taken? = (s.consumers i).taken?)
    (hstart : phase.started? = (s.consumers i).started?)
    (dispositions : List (Nat × ChannelMessageOutcome)) (key : κ) :
    ∃ closed messages, Line { s.setPhase i phase with
      dispositions := dispositions, handled := s.handled } key closed messages := by
  obtain ⟨closed, messages, hline⟩ := h.lines key
  exact ⟨closed, messages,
    hline.congr (fun other _ => unfinished_rephase htaken dispositions s.handled other) rfl
      (fun _ _ => rfl) rfl rfl (Worker.Busy.congr (read_update _ hstart) key)⟩

omit [DecidableEq κ] in
theorem check_cases (hstep : s.check i = some s') :
    ∃ queued order, s.consumers i = .waiting queued order true ∧
      ((queued.ticket = (s.heap order).nextToRun ∧
        s' = { s.setPhase i (.running queued order) with handled := s.handled ++ [queued] }) ∨
      (queued.ticket ≠ (s.heap order).nextToRun ∧
        s' = s.setPhase i (.waiting queued order false))) := by
  unfold Worker.check at hstep
  split at hstep
  · next queued order hwait =>
    split at hstep
    · next hturn => exact ⟨queued, order, hwait, .inl ⟨hturn, (some.inj hstep).symm⟩⟩
    · next hturn => exact ⟨queued, order, hwait, .inr ⟨hturn, (some.inj hstep).symm⟩⟩
  · cases hstep

variable {queued : QueuedMessage μ κ}

theorem not_busy_of_turn (h : Sound s) {order : Nat} {notified : Bool}
    (hwait : s.consumers i = .waiting queued order notified)
    (hturn : queued.ticket = (s.heap order).nextToRun) : ¬ s.Busy queued.orderKey := by
  rintro ⟨j, other, hstart, hkey⟩
  have htaken : (s.consumers i).taken? = some queued := by rw [hwait]; rfl
  obtain ⟨closed, messages, hline⟩ := h.lines queued.orderKey
  have hin : queued ∈ messages :=
    (hline.mem queued).mpr ⟨rfl, Worker.unfinished_of_taken htaken⟩
  obtain ⟨rest, hhead⟩ := (hline.present order (h.held_waiting hwait)).2.eq_head hin hturn
  obtain ⟨rest', hfirst⟩ := h.first hstart (hkey ▸ hline)
  have heq : queued = other := (List.cons.inj (hhead.symm.trans hfirst)).1
  have htaken' := Phase.taken?_of_started? hstart
  have hij : i = j := h.single i j queued htaken (heq ▸ htaken')
  rw [← hij, hwait] at hstart
  cases hstart

theorem sound_check (h : Sound s) (hstep : s.check i = some s') : Sound s' := by
  obtain ⟨queued, order, hwait, ⟨hturn, rfl⟩ | ⟨hturn, rfl⟩⟩ := check_cases hstep
  · have htaken : (Phase.running queued order).taken? = (s.consumers i).taken? := by
      rw [hwait]
      rfl
    have hidle := not_busy_of_turn h hwait hturn
    refine sound_rephase h htaken (by rw [hwait]; rfl) ?_ nofun nofun s.dispositions
      (s.handled ++ [queued]) ?_
    · intro other order' hother horder'
      cases hother
      cases horder'
      exact hturn
    intro key
    obtain ⟨closed, messages, hline⟩ := h.lines key
    by_cases hkey : queued.orderKey = key
    · subst hkey
      have hunfin : s.Unfinished queued := .inr ⟨i, by rw [hwait]; rfl⟩
      have hin : queued ∈ messages := (hline.mem queued).mpr ⟨rfl, hunfin⟩
      obtain ⟨rest, rfl⟩ := (hline.present order (h.held_waiting hwait)).2.eq_head hin hturn
      refine ⟨closed, queued :: rest, ?_, hline.absent, hline.present, hline.accepted, ?_, ?_⟩
      · intro other
        rw [hline.mem, ← unfinished_rephase htaken s.dispositions (s.handled ++ [queued]) other]
      · intro hnot
        refine absurd ⟨i, queued, ?_, rfl⟩ hnot
        simp [Worker.setPhase, Phase.started?]
      · intro _
        have hhandled := hline.idle hidle
        unfold Worker.handledOf at *
        simp [filter_append, hhandled]
    · refine ⟨closed, messages, hline.congr
        (fun other _ => unfinished_rephase htaken s.dispositions (s.handled ++ [queued]) other) rfl
        (fun _ _ => rfl) rfl ?_ ?_⟩
      · unfold Worker.handledOf
        simp [filter_append, hkey]
      · constructor
        · rintro ⟨j, other, hstart, hother⟩
          simp only [Worker.setPhase, update_apply] at hstart
          split at hstart
          · cases hstart
            exact absurd hother hkey
          · exact ⟨j, other, hstart, hother⟩
        · rintro ⟨j, other, hstart, hother⟩
          refine ⟨j, other, ?_, hother⟩
          have hne : j ≠ i := by
            rintro rfl
            rw [hwait] at hstart
            cases hstart
          simp only [Worker.setPhase, update_of_ne hne]
          exact hstart
  · have htaken : (Phase.waiting queued order false).taken? = (s.consumers i).taken? := by
      rw [hwait]
      rfl
    refine sound_rephase h htaken (by rw [hwait]; rfl) nofun ?_ nofun s.dispositions s.handled
      (lines_rephase h htaken (by rw [hwait]; rfl) s.dispositions)
    intro other order' heq
    cases heq
    exact hturn

variable {completion : Completion}

omit [DecidableEq κ] in
theorem complete_cases (hstep : s.complete i completion = some s') :
    ∃ queued order, s.consumers i = .running queued order ∧
      s' = { s.setPhase i (.finishing queued order) with
        dispositions := finalize s.dispositions queued.observation completion.disposition } := by
  unfold Worker.complete at hstep
  split at hstep
  · next queued order hrunning =>
    exact ⟨queued, order, hrunning, (some.inj hstep).symm⟩
  · cases hstep

theorem sound_complete (h : Sound s) (hstep : s.complete i completion = some s') : Sound s' := by
  obtain ⟨queued, order, hrunning, rfl⟩ := complete_cases hstep
  have htaken : (Phase.finishing queued order).taken? = (s.consumers i).taken? := by
    rw [hrunning]
    rfl
  refine sound_rephase h htaken (by rw [hrunning]; rfl) ?_ nofun nofun _ s.handled
    (lines_rephase h htaken (by rw [hrunning]; rfl) _)
  intro other order' hother horder'
  cases hother
  cases horder'
  exact h.turn i queued order (by rw [hrunning]; rfl) (by rw [hrunning]; rfl)

section

omit [DecidableEq κ]

@[simp] theorem notify_taken? (order : Nat) (phase : Phase μ κ) :
    (Worker.notify order phase).taken? = phase.taken? := by
  cases phase <;> rfl

@[simp] theorem notify_started? (order : Nat) (phase : Phase μ κ) :
    (Worker.notify order phase).started? = phase.started? := by
  cases phase <;> rfl

@[simp] theorem notify_order? (order : Nat) (phase : Phase μ κ) :
    (Worker.notify order phase).order? = phase.order? := by
  cases phase <;> rfl

theorem notify_waiting {order order' : Nat}
    (h : Worker.notify order phase = .waiting queued order' false) :
    phase = .waiting queued order' false ∧ order' ≠ order := by
  cases phase with
  | waiting other order'' notified =>
    simp only [Worker.notify, Phase.waiting.injEq, Bool.or_eq_false_iff, decide_eq_false_iff_not] at h
    obtain ⟨rfl, rfl, rfl, hne⟩ := h
    exact ⟨rfl, hne⟩
  | idle | dead | running other order'' | finishing other order'' => cases h

theorem read_finished {α : Type} (read : Phase μ κ → Option α) {order : Nat} (hidle : read .idle = none)
    (hnotify : ∀ phase, read (Worker.notify order phase) = read phase) (j : Fin n) (x : α) :
    read (update (Worker.notify order ∘ s.consumers) i .idle j) = some x ↔
      j ≠ i ∧ read (s.consumers j) = some x := by
  rw [update_apply]
  split
  · next heq => simp [heq, hidle]
  · next hne => simp [hne, hnotify]

end

theorem finish_cases (hstep : s.finish i = some s') :
    ∃ queued order, s.consumers i = .finishing queued order ∧
      s' = { s with
        heap := update s.heap order ⟨(s.heap order).nextTicket,
          (s.heap order).nextToRun + 1, (s.heap order).pending - 1⟩
        consumers := update (Worker.notify order ∘ s.consumers) i .idle
        conversationOrders := if (s.heap order).pending - 1 = 0
          then update s.conversationOrders queued.orderKey none
          else s.conversationOrders } := by
  unfold Worker.finish at hstep
  split at hstep
  · next queued order hfinishing =>
    refine ⟨queued, order, hfinishing, ?_⟩
    rw [← some.inj hstep]
    unfold Worker.discard
    simp only [update_self]
    split <;> rfl
  · cases hstep

theorem sound_finish (h : Sound s) (hstep : s.finish i = some s') : Sound s' := by
  obtain ⟨queued, order, hfinishing, rfl⟩ := finish_cases hstep
  have hstart : (s.consumers i).started? = some queued := by
    rw [hfinishing]
    rfl
  have htaken : (s.consumers i).taken? = some queued := Phase.taken?_of_started? hstart
  have horder : (s.consumers i).order? = some order := by
    rw [hfinishing]
    rfl
  have hentry := h.held i queued order htaken horder
  -- the message is the first of its line
  obtain ⟨closed, messages, hline⟩ := h.lines queued.orderKey
  obtain ⟨rest, rfl⟩ := h.first hstart hline
  have htickets := (hline.present order hentry).2
  have hfirst : queued ∉ rest := by
    have hnodup : ((queued :: rest).map QueuedMessage.ticket).Nodup := by
      rw [htickets.tickets]
      exact nodup_range'
    exact (nodup_cons.mp (Nodup.of_map _ hnodup)).1
  have hpend : (s.heap order).pending - 1 = rest.length := htickets.tail.pending
  generalize horders : (if (s.heap order).pending - 1 = 0
    then update s.conversationOrders queued.orderKey none
    else s.conversationOrders) = orders
  have hkept : ∀ key, key ≠ queued.orderKey ∨ rest ≠ [] → orders key = s.conversationOrders key := by
    rintro key (hne | hne)
    · rw [← horders]
      split
      · exact update_of_ne hne _ _
      · rfl
    · have hlength := length_pos_of_ne_nil hne
      rw [← horders, if_neg (by omega)]
  have hsub : ∀ key order', orders key = some order' → s.conversationOrders key = some order' := by
    intro key order' hkey
    by_cases hsame : key ≠ queued.orderKey ∨ rest ≠ []
    · rw [← hkept key hsame]
      exact hkey
    · obtain ⟨rfl, rfl⟩ := not_or.mp hsame |>.imp not_not.mp not_not.mp
      rw [← horders, if_pos (by simpa using hpend), update_self] at hkey
      cases hkey
  have htaken' := @read_finished _ _ _ s i _ Phase.taken? order rfl (notify_taken? order)
  have hstart' := @read_finished _ _ _ s i _ Phase.started? order rfl (notify_started? order)
  have hphase : ∀ j, j ≠ i → update (Worker.notify order ∘ s.consumers) i .idle j =
      Worker.notify order (s.consumers j) := fun j hne => update_of_ne hne _ _
  have hunfin : ∀ other, Worker.Unfinished { s with
      heap := update s.heap order ⟨(s.heap order).nextTicket,
        (s.heap order).nextToRun + 1, (s.heap order).pending - 1⟩
      consumers := update (Worker.notify order ∘ s.consumers) i .idle
      conversationOrders := orders } other ↔ s.Unfinished other ∧ other ≠ queued := by
    intro other
    unfold Worker.Unfinished
    simp only [htaken']
    constructor
    · rintro (hother | ⟨j, hne, hother⟩)
      · exact ⟨.inl hother, fun heq => (h.ahead i queued htaken other hother).1 heq.symm⟩
      · refine ⟨.inr ⟨j, hother⟩, ?_⟩
        rintro rfl
        exact hne (h.single j i other hother htaken)
    · rintro ⟨hother | ⟨j, hother⟩, hne⟩
      · exact .inl hother
      · refine .inr ⟨j, ?_, hother⟩
        rintro rfl
        exact hne (some.inj (hother.symm.trans htaken))
  have hheap : ∀ key order', key ≠ queued.orderKey → s.conversationOrders key = some order' →
      update s.heap order ⟨(s.heap order).nextTicket, (s.heap order).nextToRun + 1,
        (s.heap order).pending - 1⟩ order' = s.heap order' := by
    intro key order' hne hkey
    refine update_of_ne ?_ _ _
    rintro rfl
    exact hne (h.injective key queued.orderKey _ hkey hentry)
  have hkeptOf : ∀ other, s.Unfinished other → other ≠ queued →
      orders other.orderKey = s.conversationOrders other.orderKey := by
    intro other hother hne
    refine hkept _ ?_
    by_cases hkey : other.orderKey = queued.orderKey
    · right
      have hmem := (hline.mem other).mpr ⟨hkey, hother⟩
      exact ne_nil_of_mem ((mem_cons.mp hmem).resolve_left hne)
    · exact .inl hkey
  refine ⟨?_, h.fresh, h.distinct, h.fifo, ?_, ?_, ?_, ?_, ?_, ?_, ?_, ?_, ?_⟩
  · intro other hother
    exact h.known other ((hunfin other).mp hother).1
  · intro j other hother
    exact h.ahead j other ((htaken' j other).mp hother).2
  · intro j j' other hj hj'
    exact h.single j j' other ((htaken' j other).mp hj).2 ((htaken' j' other).mp hj').2
  · intro j other order' hother horder'
    obtain ⟨hne, hold⟩ := (htaken' j other).mp hother
    simp only [hphase j hne, notify_order?] at horder'
    refine (hkeptOf other (Worker.unfinished_of_taken hold) ?_).trans
      (h.held j other order' hold horder')
    rintro rfl
    exact hne (h.single j i other hold htaken)
  · intro j other order' hnew horder'
    obtain ⟨hne, hother⟩ := (hstart' j other).mp hnew
    simp only [hphase j hne, notify_order?] at horder'
    have hheld := h.held j other order' (Phase.taken?_of_started? hother) horder'
    have hkey : other.orderKey ≠ queued.orderKey := fun heq => hne (h.alone hother hstart heq)
    simp only [hheap _ _ hkey hheld]
    exact h.turn j other order' hother horder'
  · intro j other order' hwait
    have hne : j ≠ i := by
      rintro rfl
      simp at hwait
    simp only [hphase j hne] at hwait
    obtain ⟨hold, hother⟩ := notify_waiting hwait
    simp only [update_of_ne hother]
    exact h.blocked j other order' hold
  · intro j
    by_cases heq : j = i
    · subst heq
      simp
    · simp only [hphase j heq]
      have hold := h.alive j
      cases hj : s.consumers j with
      | dead => exact absurd hj hold
      | idle | running other order' | finishing other order' | waiting other order' notified =>
        exact nofun
  · intro key order' hkey
    exact h.allocated key order' (hsub key order' hkey)
  · intro key key' order' hkey hkey'
    exact h.injective key key' order' (hsub key order' hkey) (hsub key' order' hkey')
  · intro key
    by_cases hkey : key = queued.orderKey
    · subst hkey
      refine ⟨closed ++ [queued], rest, ?_, ?_, ?_, ?_, ?_, ?_⟩
      · intro other
        have hmem := hline.mem other
        rw [mem_cons] at hmem
        rw [hunfin, ← and_assoc, ← hmem]
        constructor
        · intro hother
          refine ⟨.inr hother, ?_⟩
          rintro rfl
          exact hfirst hother
        · rintro ⟨heq | hother, hne⟩
          · exact absurd heq hne
          · exact hother
      · intro hnone
        by_contra hne
        have hsame := hkept queued.orderKey (.inr hne)
        simp only [hsame, hentry] at hnone
        cases hnone
      · intro order' hkey
        have hne : rest ≠ [] := by
          rintro rfl
          simp only [← horders, if_pos (show (s.heap order).pending - 1 = 0 by simpa using hpend),
            update_self] at hkey
          cases hkey
        obtain rfl : order' = order := some.inj ((hsub _ _ hkey).symm.trans hentry)
        simp only [update_self]
        exact ⟨hne, htickets.tail⟩
      · have hacc := hline.accepted
        unfold Worker.acceptedOf at *
        rw [append_assoc]
        exact hacc
      · intro _
        exact hline.busy ⟨i, queued, hstart, rfl⟩
      · rintro ⟨j, other, hnew, hsame⟩
        obtain ⟨hne, hother⟩ := (hstart' j other).mp hnew
        exact absurd (h.alone hother hstart hsame) hne
    · obtain ⟨closed', messages', hline'⟩ := h.lines key
      refine ⟨closed', messages', hline'.congr ?_ (hkept key (.inl hkey))
        (fun order' hentry' => hheap key order' hkey hentry') rfl rfl ?_⟩
      · intro other hother
        rw [hunfin]
        refine and_iff_left ?_
        rintro rfl
        exact hkey hother.symm
      · constructor
        · rintro ⟨j, other, hother, hsame⟩
          exact ⟨j, other, ((hstart' j other).mp hother).2, hsame⟩
        · rintro ⟨j, other, hother, hsame⟩
          refine ⟨j, other, (hstart' j other).mpr ⟨?_, hother⟩, hsame⟩
          rintro rfl
          rw [some.inj (hother.symm.trans hstart)] at hsame
          exact hkey hsame.symm

theorem sound_step {config : Config μ κ} {a : Action μ n} (h : Sound s)
    (hstep : Step config s a s') : Sound s' := by
  cases a with
  | enqueue message rejection =>
    rw [← some.inj hstep]
    exact sound_enqueue h config message rejection
  | dequeue i => exact sound_dequeue h hstep
  | check i => exact sound_check h hstep
  | complete i completion => exact sound_complete h hstep
  | finish i => exact sound_finish h hstep

end MultiRag.ChannelWorker
