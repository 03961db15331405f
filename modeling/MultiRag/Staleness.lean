/-
  **A stale filter over events with a time and an effect.**

  A component accepts an event unless it is older than the newest one accepted so far, and joins
  the effects of the accepted events. Times are a linear order and effects a join semilattice with
  a least element. `effect_le` and `le_effect` bound what is accepted for every order.
-/
import Mathlib.Data.List.Sort
import Mathlib.Order.WithBot

namespace MultiRag.Staleness

open List

universe u v

variable {τ : Type u} {ℓ : Type v} [LinearOrder τ] [SemilatticeSup ℓ]

/-- The time of the newest accepted event and the joined effects. -/
structure Accepted (τ : Type u) (ℓ : Type v) where
  floor : WithBot τ
  effect : ℓ

def Accepted.deliver (a : Accepted τ ℓ) (event : τ × ℓ) : Accepted τ ℓ :=
  if (event.1 : WithBot τ) < a.floor then a else ⟨event.1, a.effect ⊔ event.2⟩

def Accepted.deliverAll (a : Accepted τ ℓ) (events : List (τ × ℓ)) : Accepted τ ℓ :=
  events.foldl Accepted.deliver a

namespace Accepted

theorem deliverAll_concat (a : Accepted τ ℓ) (events : List (τ × ℓ)) (event : τ × ℓ) :
    a.deliverAll (events ++ [event]) = (a.deliverAll events).deliver event := by
  simp [deliverAll]

variable {a : Accepted τ ℓ} {event : τ × ℓ}

theorem deliver_of_lt (h : (event.1 : WithBot τ) < a.floor) :
    a.deliver event = a := if_pos h

theorem deliver_of_le (h : a.floor ≤ event.1) :
    a.deliver event = ⟨event.1, a.effect ⊔ event.2⟩ := if_neg (not_lt.mpr h)

theorem floor_le_deliver (a : Accepted τ ℓ) (event : τ × ℓ) : a.floor ≤ (a.deliver event).floor := by
  unfold deliver
  split
  · exact le_rfl
  · next h => exact not_lt.mp h

theorem effect_le_deliver (a : Accepted τ ℓ) (event : τ × ℓ) :
    a.effect ≤ (a.deliver event).effect := by
  unfold deliver
  split
  · exact le_rfl
  · exact le_sup_left

theorem le_effect_deliver (h : a.floor ≤ event.1) : event.2 ≤ (a.deliver event).effect := by
  rw [deliver_of_le h]
  exact le_sup_right

theorem deliver_floor_le (a : Accepted τ ℓ) (event : τ × ℓ) {bound : WithBot τ}
    (hfloor : a.floor ≤ bound) (hevent : event.1 ≤ bound) : (a.deliver event).floor ≤ bound := by
  unfold deliver
  split
  · exact hfloor
  · exact hevent

theorem effect_le_deliverAll (a : Accepted τ ℓ) (events : List (τ × ℓ)) :
    a.effect ≤ (a.deliverAll events).effect := by
  induction events generalizing a with
  | nil => exact le_rfl
  | cons event events ih => exact le_trans (a.effect_le_deliver event) (ih (a.deliver event))

variable {events : List (τ × ℓ)}

theorem le_effect_of_mem (hmem : event ∈ events) (hfloor : a.floor ≤ event.1)
    (hnewest : ∀ other ∈ events, other.1 ≤ event.1) :
    event.2 ≤ (a.deliverAll events).effect := by
  induction events generalizing a with
  | nil => cases hmem
  | cons first events ih =>
    rcases mem_cons.mp hmem with rfl | hlater
    · exact le_trans (le_effect_deliver hfloor) (effect_le_deliverAll _ events)
    · apply ih hlater
      · exact a.deliver_floor_le first hfloor
          (WithBot.coe_le_coe.mpr (hnewest first mem_cons_self))
      · exact fun other hother => hnewest other (mem_cons_of_mem _ hother)

theorem deliverAll_of_lt (h : ∀ event ∈ events, (event.1 : WithBot τ) < a.floor) :
    a.deliverAll events = a := by
  induction events with
  | nil => rfl
  | cons event events ih =>
    unfold deliverAll
    rw [foldl_cons, deliver_of_lt (h event mem_cons_self)]
    exact ih fun other hother => h other (mem_cons_of_mem _ hother)

end Accepted

/-! ### Joins -/

variable [OrderBot ℓ]

def joined (p : τ × ℓ → Prop) [DecidablePred p] (events : List (τ × ℓ)) : ℓ :=
  ((events.filter p).map Prod.snd).foldr (· ⊔ ·) ⊥

def Recent (floor : WithBot τ) (event : τ × ℓ) : Prop := floor ≤ event.1

instance (floor : WithBot τ) : DecidablePred (Recent (ℓ := ℓ) floor) :=
  fun _ => inferInstanceAs (Decidable (_ ≤ _))

def Newest (floor : WithBot τ) (events : List (τ × ℓ)) (event : τ × ℓ) : Prop :=
  Recent floor event ∧ ∀ other ∈ events, other.1 ≤ event.1

instance (floor : WithBot τ) (events : List (τ × ℓ)) : DecidablePred (Newest floor events) :=
  fun _ => inferInstanceAs (Decidable (_ ∧ _))

section

omit [LinearOrder τ]

variable {p q : τ × ℓ → Prop} [DecidablePred p] [DecidablePred q] {events events' : List (τ × ℓ)}

theorem foldr_sup_le {l : List ℓ} {x : ℓ} : l.foldr (· ⊔ ·) ⊥ ≤ x ↔ ∀ y ∈ l, y ≤ x := by
  induction l with
  | nil => simp
  | cons y l ih => simp [ih]

theorem joined_le {x : ℓ} : joined p events ≤ x ↔ ∀ event ∈ events, p event → event.2 ≤ x := by
  unfold joined
  rw [foldr_sup_le]
  simp only [mem_map, List.mem_filter, decide_eq_true_eq]
  constructor
  · intro h event hmem hp
    exact h event.2 ⟨event, ⟨hmem, hp⟩, rfl⟩
  · rintro h y ⟨event, ⟨hmem, hp⟩, rfl⟩
    exact h event hmem hp

theorem le_joined {event : τ × ℓ} (hmem : event ∈ events) (hp : p event) :
    event.2 ≤ joined p events :=
  joined_le.mp le_rfl event hmem hp

theorem joined_mono (h : ∀ event ∈ events, p event → event ∈ events' ∧ q event) :
    joined p events ≤ joined q events' := by
  rw [joined_le]
  intro event hmem hp
  obtain ⟨hmem', hq⟩ := h event hmem hp
  exact le_joined hmem' hq

theorem joined_congr (hmem : ∀ event, event ∈ events ↔ event ∈ events')
    (hpq : ∀ event, p event ↔ q event) : joined p events = joined q events' :=
  le_antisymm (joined_mono fun event h hp => ⟨(hmem event).mp h, (hpq event).mp hp⟩)
    (joined_mono fun event h hq => ⟨(hmem event).mpr h, (hpq event).mpr hq⟩)

end

/-! ### Bounds for every order -/

namespace Accepted

variable {a : Accepted τ ℓ} {events : List (τ × ℓ)}

theorem effect_le (a : Accepted τ ℓ) (events : List (τ × ℓ)) :
    (a.deliverAll events).effect ≤ a.effect ⊔ joined (Recent a.floor) events := by
  induction events generalizing a with
  | nil => exact le_sup_left
  | cons event events ih =>
    apply le_trans (ih (a.deliver event))
    have hlater : joined (Recent (a.deliver event).floor) events ≤
        joined (Recent a.floor) (event :: events) := by
      apply joined_mono
      intro other hmem hrecent
      exact ⟨mem_cons_of_mem _ hmem, le_trans (a.floor_le_deliver event) hrecent⟩
    apply sup_le _ (le_trans hlater le_sup_right)
    by_cases hstale : (event.1 : WithBot τ) < a.floor
    · rw [deliver_of_lt hstale]
      exact le_sup_left
    · rw [not_lt] at hstale
      rw [deliver_of_le hstale]
      exact sup_le_sup_left (le_joined mem_cons_self hstale) _

theorem le_effect (a : Accepted τ ℓ) (events : List (τ × ℓ)) :
    a.effect ⊔ joined (Newest a.floor events) events ≤ (a.deliverAll events).effect := by
  apply sup_le (effect_le_deliverAll a events)
  rw [joined_le]
  intro event hmem hnewest
  exact le_effect_of_mem hmem hnewest.1 hnewest.2

/-! ### The orders that reach the bounds -/

theorem effect_of_ascending (hsorted : events.Pairwise (fun x y => x.1 ≤ y.1)) :
    (a.deliverAll events).effect = a.effect ⊔ joined (Recent a.floor) events := by
  apply le_antisymm (effect_le a events)
  apply sup_le (effect_le_deliverAll a events)
  rw [joined_le]
  induction events generalizing a with
  | nil => simp
  | cons first events ih =>
    obtain ⟨hfirst, hrest⟩ := pairwise_cons.mp hsorted
    intro event hmem hrecent
    rcases mem_cons.mp hmem with rfl | hlater
    · exact le_trans (le_effect_deliver hrecent) (effect_le_deliverAll _ events)
    · apply ih hrest event hlater
      exact a.deliver_floor_le first hrecent (WithBot.coe_le_coe.mpr (hfirst event hlater))

theorem effect_of_descending (hsorted : events.Pairwise (fun x y => y.1 ≤ x.1)) :
    (a.deliverAll events).effect = a.effect ⊔ joined (Newest a.floor events) events := by
  apply le_antisymm _ (le_effect a events)
  cases events with
  | nil => exact le_sup_left
  | cons first events =>
    obtain ⟨hfirst, -⟩ := pairwise_cons.mp hsorted
    have hhead : ∀ other ∈ first :: events, other.1 ≤ first.1 := by
      intro other hother
      rcases mem_cons.mp hother with rfl | hother
      · exact le_rfl
      · exact hfirst other hother
    by_cases hstale : (first.1 : WithBot τ) < a.floor
    · rw [deliverAll_of_lt]
      · exact le_sup_left
      · exact fun other hother => lt_of_le_of_lt (WithBot.coe_le_coe.mpr (hhead other hother)) hstale
    · rw [not_lt] at hstale
      apply le_trans (effect_le (a.deliver first) events)
      rw [deliver_of_le hstale]
      refine sup_le (sup_le_sup_left (le_joined mem_cons_self ⟨hstale, hhead⟩) _) ?_
      apply le_trans _ le_sup_right
      apply joined_mono
      -- what the first event does not make stale has its time
      intro other hother hrecent
      have hfirst_le : first.1 ≤ other.1 := WithBot.coe_le_coe.mp hrecent
      exact ⟨mem_cons_of_mem _ hother, le_trans hstale hrecent,
        fun x hx => le_trans (hhead x hx) hfirst_le⟩

end Accepted

end MultiRag.Staleness
