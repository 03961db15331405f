/-
  **The invariant of the worker: one line of messages for each conversation.**

  The unfinished messages of a conversation stand in a `Line`: their tickets are the numbers from
  `next_to_run` to `next_ticket`, and the first of them is the only one whose handler may have
  been called.
-/
import MultiRag.ChannelWorker

namespace MultiRag.ChannelWorker

open List

variable {μ κ : Type} [DecidableEq κ] {n : Nat}

/-! ### The invariant -/

/-- Some handler of the conversation has been called and its turn not passed on. -/
def Worker.Busy (s : Worker μ κ n) (key : κ) : Prop :=
  ∃ i queued, (s.consumers i).started? = some queued ∧ queued.orderKey = key

structure Tickets (o : ConversationOrder) (messages : List (QueuedMessage μ κ)) : Prop where
  tickets : messages.map QueuedMessage.ticket = List.range' o.nextToRun messages.length
  nextTicket : o.nextTicket = o.nextToRun + messages.length
  pending : o.pending = messages.length

structure Line (s : Worker μ κ n) (key : κ) (closed messages : List (QueuedMessage μ κ)) :
    Prop where
  mem : ∀ queued, queued ∈ messages ↔ queued.orderKey = key ∧ s.Unfinished queued
  absent : s.conversationOrders key = none → messages = []
  present : ∀ order, s.conversationOrders key = some order →
    messages ≠ [] ∧ Tickets (s.heap order) messages
  accepted : s.acceptedOf key = closed ++ messages
  idle : ¬ s.Busy key → s.handledOf key = closed
  busy : s.Busy key → s.handledOf key = closed ++ messages.take 1

/-- One message stands before another: they differ, and in one conversation the ticket is
    smaller. -/
def Before (queued later : QueuedMessage μ κ) : Prop :=
  queued ≠ later ∧ (queued.orderKey = later.orderKey → queued.ticket < later.ticket)

structure Sound (s : Worker μ κ n) : Prop where
  known : ∀ queued, s.Unfinished queued → queued ∈ s.accepted
  fresh : ∀ queued ∈ s.accepted, queued.observation < s.observations
  distinct : (s.accepted.map QueuedMessage.observation).Nodup
  fifo : s.queue.Pairwise Before
  ahead : ∀ i queued, (s.consumers i).taken? = some queued → ∀ later ∈ s.queue, Before queued later
  single : ∀ i j queued, (s.consumers i).taken? = some queued →
    (s.consumers j).taken? = some queued → i = j
  held : ∀ i queued order, (s.consumers i).taken? = some queued →
    (s.consumers i).order? = some order → s.conversationOrders queued.orderKey = some order
  turn : ∀ i queued order, (s.consumers i).started? = some queued →
    (s.consumers i).order? = some order → queued.ticket = (s.heap order).nextToRun
  blocked : ∀ i queued order, s.consumers i = .waiting queued order false →
    queued.ticket ≠ (s.heap order).nextToRun
  alive : ∀ i, s.consumers i ≠ .dead
  allocated : ∀ key order, s.conversationOrders key = some order → order < s.allocated
  injective : ∀ key key' order, s.conversationOrders key = some order →
    s.conversationOrders key' = some order → key = key'
  lines : ∀ key, ∃ closed messages, Line s key closed messages

/-! ### Reading a line -/

variable {phase : Phase μ κ} {queued : QueuedMessage μ κ}

omit [DecidableEq κ] in
theorem Phase.taken?_of_started? (h : phase.started? = some queued) :
    phase.taken? = some queued := by
  cases phase with
  | running q order => exact h
  | finishing q order => exact h
  | idle | dead | waiting q order notified => cases h

omit [DecidableEq κ] in
theorem Phase.exists_order? (h : phase.taken? = some queued) :
    ∃ order, phase.order? = some order := by
  cases phase with
  | waiting q order notified => exact ⟨order, rfl⟩
  | running q order => exact ⟨order, rfl⟩
  | finishing q order => exact ⟨order, rfl⟩
  | idle | dead => cases h

variable {s : Worker μ κ n}

omit [DecidableEq κ] in
theorem Worker.unfinished_of_taken {i : Fin n} (h : (s.consumers i).taken? = some queued) :
    s.Unfinished queued := .inr ⟨i, h⟩

namespace Tickets

variable {o : ConversationOrder} {messages : List (QueuedMessage μ κ)} {a : QueuedMessage μ κ}

omit [DecidableEq κ]

section

variable (h : Tickets o messages)
include h

theorem eq_of_ticket {b : QueuedMessage μ κ} (ha : a ∈ messages)
    (hb : b ∈ messages) (heq : a.ticket = b.ticket) : a = b := by
  have hnodup : (messages.map QueuedMessage.ticket).Nodup := by
    rw [h.tickets]
    exact nodup_range'
  exact inj_on_of_nodup_map hnodup ha hb heq

theorem nextToRun_le (ha : a ∈ messages) :
    o.nextToRun ≤ a.ticket ∧ a.ticket < o.nextTicket := by
  have hin : a.ticket ∈ messages.map QueuedMessage.ticket := mem_map_of_mem ha
  rw [h.tickets, mem_range'_1] at hin
  rw [h.nextTicket]
  exact hin

theorem head (hne : messages ≠ []) :
    ∃ first rest, messages = first :: rest ∧ first.ticket = o.nextToRun := by
  cases messages with
  | nil => exact absurd rfl hne
  | cons first rest =>
    have htickets := h.tickets
    rw [map_cons, length_cons, range'_succ, List.cons.injEq] at htickets
    exact ⟨first, rest, rfl, htickets.1⟩

theorem eq_head (ha : a ∈ messages) (hturn : a.ticket = o.nextToRun) :
    ∃ rest, messages = a :: rest := by
  obtain ⟨first, rest, rfl, hfirst⟩ := h.head (ne_nil_of_mem ha)
  rw [h.eq_of_ticket ha mem_cons_self (hturn.trans hfirst.symm)]
  exact ⟨rest, rfl⟩

theorem concat (ha : a.ticket = o.nextTicket) :
    Tickets ⟨o.nextTicket + 1, o.nextToRun, o.pending + 1⟩ (messages ++ [a]) where
  tickets := by
    rw [map_append, h.tickets, map_singleton, ha, h.nextTicket, length_append,
      length_singleton, range'_concat, Nat.one_mul]
  nextTicket := by
    rw [length_append, length_singleton, h.nextTicket]
    exact Nat.add_assoc _ _ _
  pending := by
    rw [h.pending, length_append, length_singleton]
    rfl

end

theorem tail (h : Tickets o (a :: messages)) :
    Tickets ⟨o.nextTicket, o.nextToRun + 1, o.pending - 1⟩ messages where
  tickets := by
    have htickets := h.tickets
    rw [map_cons, length_cons, range'_succ, List.cons.injEq] at htickets
    exact htickets.2
  nextTicket := by
    have hnext := h.nextTicket
    rw [length_cons] at hnext
    simp only
    omega
  pending := by
    have hpend := h.pending
    rw [length_cons] at hpend
    simp only
    omega

end Tickets

theorem Line.congr {s' : Worker μ κ n} {key : κ} {closed messages : List (QueuedMessage μ κ)}
    (h : Line s key closed messages)
    (hunfin : ∀ queued, queued.orderKey = key → (s'.Unfinished queued ↔ s.Unfinished queued))
    (horders : s'.conversationOrders key = s.conversationOrders key)
    (hheap : ∀ order, s.conversationOrders key = some order → s'.heap order = s.heap order)
    (hacc : s'.acceptedOf key = s.acceptedOf key)
    (hhandled : s'.handledOf key = s.handledOf key) (hbusy : s'.Busy key ↔ s.Busy key) :
    Line s' key closed messages where
  mem queued := by
    rw [h.mem]
    exact and_congr_right fun hkey => (hunfin queued hkey).symm
  absent hnone := h.absent (horders ▸ hnone)
  present order horder := by
    rw [horders] at horder
    rw [hheap order horder]
    exact h.present order horder
  accepted := hacc.trans h.accepted
  idle hidle := by
    rw [hhandled, h.idle (mt hbusy.mpr hidle)]
  busy hbusy' := by
    rw [hhandled, h.busy (hbusy.mp hbusy')]

namespace Sound

variable {s : Worker μ κ n} {i : Fin n} {queued : QueuedMessage μ κ}

theorem held_waiting (h : Sound s) {order : Nat} {notified : Bool}
    (hi : s.consumers i = .waiting queued order notified) :
    s.conversationOrders queued.orderKey = some order :=
  h.held i queued order (by rw [hi]; rfl) (by rw [hi]; rfl)

theorem order (h : Sound s) (hqueued : s.Unfinished queued) :
    ∃ order closed messages, s.conversationOrders queued.orderKey = some order ∧
      Line s queued.orderKey closed messages ∧ queued ∈ messages ∧
      Tickets (s.heap order) messages := by
  obtain ⟨closed, messages, hline⟩ := h.lines queued.orderKey
  have hin : queued ∈ messages := (hline.mem queued).mpr ⟨rfl, hqueued⟩
  rcases horder : s.conversationOrders queued.orderKey with - | order
  · rw [hline.absent horder] at hin
    cases hin
  · exact ⟨order, closed, messages, rfl, hline, hin, (hline.present order horder).2⟩

theorem first (h : Sound s) (hi : (s.consumers i).started? = some queued)
    {closed messages : List (QueuedMessage μ κ)} (hline : Line s queued.orderKey closed messages) :
    ∃ rest, messages = queued :: rest := by
  have htaken := Phase.taken?_of_started? hi
  obtain ⟨order, horder⟩ := Phase.exists_order? htaken
  have hentry := h.held i queued order htaken horder
  exact (hline.present order hentry).2.eq_head
    ((hline.mem queued).mpr ⟨rfl, Worker.unfinished_of_taken htaken⟩) (h.turn i queued order hi horder)

theorem alone (h : Sound s) {j : Fin n} {other : QueuedMessage μ κ}
    (hi : (s.consumers i).started? = some queued) (hj : (s.consumers j).started? = some other)
    (hkey : queued.orderKey = other.orderKey) : i = j := by
  obtain ⟨closed, messages, hline⟩ := h.lines queued.orderKey
  obtain ⟨rest, hfirst⟩ := h.first hi hline
  obtain ⟨rest', hfirst'⟩ := h.first hj (hkey ▸ hline)
  have heq : queued = other := (List.cons.inj (hfirst.symm.trans hfirst')).1
  exact h.single i j queued (Phase.taken?_of_started? hi) (heq ▸ Phase.taken?_of_started? hj)

end Sound

end MultiRag.ChannelWorker
