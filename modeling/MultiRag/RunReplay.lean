/-
  **Replay after a lost acknowledgement.**

  A transport that loses an acknowledgement sends the event again.  `Replayed`
  relates a stream to every stream with further copies of its events, each right
  behind the original.  Copies do not show in the projection, and an altered copy
  that is no valid successor stops the fold where it stands.
-/
import MultiRag.RunProjection

namespace MultiRag.RunPlatform

open Function List

/-- `Replayed events events'`: `events'` is `events` with any number of copies
    inserted behind each event. -/
inductive Replayed : List RunEventEnvelope → List RunEventEnvelope → Prop
  | nil : Replayed [] []
  | cons {events events' : List RunEventEnvelope} (event : RunEventEnvelope) (copies : Nat) :
      Replayed events events' →
        Replayed (event :: events) (event :: (replicate copies event ++ events'))

variable {δ : Type} [DecidableEq δ] {eventDigest : RunEventEnvelope → δ}
  {q : Option (RunProjection δ)} {p : RunProjection δ} {event : RunEventEnvelope}

theorem isRepeat_of_apply (h : applyRunEvent eventDigest q event = .ok p) :
    IsRepeat eventDigest p event := by
  cases q with
  | none =>
    obtain ⟨last, hlast, hrepeat⟩ := (represents_initial h).lastEvent
    cases hlast
    exact hrepeat
  | some p₀ =>
    rcases apply_eq_ok_iff.mp h with ⟨hrepeat, rfl⟩ | ⟨-, rfl⟩
    · exact hrepeat
    · exact ⟨rfl, rfl, rfl⟩

theorem apply_of_isRepeat (h : IsRepeat eventDigest p event) :
    applyRunEvent eventDigest (some p) event = .ok p :=
  apply_eq_ok_iff.mpr (.inl ⟨h, rfl⟩)

theorem foldRunEvents_copies (h : IsRepeat eventDigest p event) (copies : Nat)
    (rest : List RunEventEnvelope) :
    foldRunEvents eventDigest (some p) (replicate copies event ++ rest) =
      foldRunEvents eventDigest (some p) rest := by
  induction copies with
  | zero => rfl
  | succ copies ih =>
    rw [replicate_succ, cons_append, foldRunEvents, apply_of_isRepeat h]
    exact ih

variable {q' : Option (RunProjection δ)} {front : List RunEventEnvelope}

theorem foldRunEvents_append (h : foldRunEvents eventDigest q front = (q', none))
    (rest : List RunEventEnvelope) :
    foldRunEvents eventDigest q (front ++ rest) = foldRunEvents eventDigest q' rest := by
  induction front generalizing q with
  | nil =>
    cases h
    rfl
  | cons event front ih =>
    simp only [foldRunEvents] at h
    rw [cons_append, foldRunEvents]
    split at h
    · next p happly => exact ih h
    · cases h

theorem foldRunEvents_prefix {rest : List RunEventEnvelope}
    (h : foldRunEvents eventDigest q (front ++ rest) = (q', none)) :
    ∃ m, foldRunEvents eventDigest q front = (m, none) ∧
      foldRunEvents eventDigest m rest = (q', none) := by
  induction front generalizing q with
  | nil => exact ⟨q, rfl, h⟩
  | cons event front ih =>
    rw [cons_append, foldRunEvents] at h
    rw [foldRunEvents]
    split at h
    · next p happly => exact ih h
    · cases h

theorem foldRunEvents_replayed {events events' : List RunEventEnvelope}
    (hreplay : Replayed events events') (h : foldRunEvents eventDigest q events = (q', none)) :
    foldRunEvents eventDigest q events' = (q', none) := by
  induction hreplay generalizing q with
  | nil => exact h
  | cons event copies hrest ih =>
    simp only [foldRunEvents] at h ⊢
    split at h
    · next p happly =>
      rw [foldRunEvents_copies (isRepeat_of_apply happly)]
      exact ih h
    · cases h

theorem apply_altered (hinj : Injective eventDigest) {copy : RunEventEnvelope}
    (hlast : IsRepeat eventDigest p event) (hne : copy ≠ event)
    (hinvalid : ¬ ValidSuccessor p copy) :
    ∃ error, applyRunEvent eventDigest (some p) copy = .error error := by
  cases happly : applyRunEvent eventDigest (some p) copy with
  | error error => exact ⟨error, rfl⟩
  | ok p' =>
    rcases apply_eq_ok_iff.mp happly with ⟨hrepeat, -⟩ | ⟨hvalid, -⟩
    · exact absurd (hinj (hrepeat.2.2.trans hlast.2.2.symm)) hne
    · exact absurd hvalid hinvalid

/-- **Acknowledgement-loss replay.**  For an accepted stream, inserting copies
    behind its events is accepted with the same projection, and behind any event
    (and its copies) an altered copy that is no valid successor makes the fold
    fail with the projection it had there. -/
theorem foldRunEvents_replay (hinj : Injective eventDigest)
    {events : List RunEventEnvelope} {q : Option (RunProjection δ)}
    (h : foldRunEvents eventDigest none events = (q, none)) :
    (∀ events', Replayed events events' → foldRunEvents eventDigest none events' = (q, none)) ∧
    ∀ front event rest, events = front ++ event :: rest →
      ∃ p, foldRunEvents eventDigest none (front ++ [event]) = (some p, none) ∧
        ∀ front', Replayed (front ++ [event]) front' →
          ∀ copy, copy ≠ event → ¬ ValidSuccessor p copy →
            ∃ error, ∀ rest', foldRunEvents eventDigest none (front' ++ copy :: rest') =
              (some p, some error) := by
  refine ⟨fun events' hreplay => foldRunEvents_replayed hreplay h, ?_⟩
  intro front event rest hsplit
  rw [hsplit] at h
  obtain ⟨m, hfront, hrest⟩ := foldRunEvents_prefix h
  simp only [foldRunEvents] at hrest
  split at hrest
  · next p happly =>
    have hprefix : foldRunEvents eventDigest none (front ++ [event]) = (some p, none) := by
      rw [foldRunEvents_append hfront]
      simp only [foldRunEvents, happly]
    refine ⟨p, hprefix, ?_⟩
    intro front' hreplay copy hne hinvalid
    obtain ⟨error, herror⟩ := apply_altered hinj (isRepeat_of_apply happly) hne hinvalid
    refine ⟨error, ?_⟩
    intro rest'
    rw [foldRunEvents_append (foldRunEvents_replayed hreplay hprefix), foldRunEvents, herror]
  · cases hrest

theorem foldRunEvents_replay_sample :
    Injective (id : RunEventEnvelope → RunEventEnvelope) ∧
      foldRunEvents id none sampleStream = (some sampleProjection, none) ∧
      ∀ events', Replayed sampleStream events' →
        foldRunEvents id none events' = (some sampleProjection, none) :=
  ⟨Function.injective_id, fold_sampleStream,
    (foldRunEvents_replay Function.injective_id fold_sampleStream).1⟩

end MultiRag.RunPlatform
