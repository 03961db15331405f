/-
  **Runs of a labelled transition system, with their history.**

  A component is a step relation `step : σ → ε → σ → Prop`; the label of a step says which
  operation ran and what it returned. `Run step s₀ hist s` says that `hist` is the list of labels
  of a run from `s₀` to `s`, *newest first*, so that "the latest label with a property" is a
  `find?` on the history. `clocked` adds one shared clock that never runs backwards: every label
  lists the clock readings its transaction took, in order.
-/
import Mathlib.Data.List.Chain

namespace MultiRag

open List

universe u v

/-- A run from `s₀`, with its labels newest first. -/
inductive Run {σ : Type u} {ε : Type v} (step : σ → ε → σ → Prop) (s₀ : σ) : List ε → σ → Prop
  | nil : Run step s₀ [] s₀
  | cons {hist : List ε} {s s' : σ} {e : ε} :
      Run step s₀ hist s → step s e s' → Run step s₀ (e :: hist) s'

namespace Run

variable {σ : Type u} {ε : Type v} {step : σ → ε → σ → Prop} {s₀ s₁ s : σ} {hist : List ε}

theorem invariant {P : σ → Prop} (h₀ : P s₀) (hstep : ∀ s e s', P s → step s e s' → P s')
    (hrun : Run step s₀ hist s) : P s := by
  induction hrun with
  | nil => exact h₀
  | cons _ hs ih => exact hstep _ _ _ ih hs

theorem history {P : List ε → σ → Prop} (h₀ : P [] s₀)
    (hstep : ∀ hist s e s', P hist s → step s e s' → P (e :: hist) s') (hrun : Run step s₀ hist s) :
    P hist s := by
  induction hrun with
  | nil => exact h₀
  | cons _ hs ih => exact hstep _ _ _ _ ih hs

variable {I : σ → Prop}

theorem labels {Q : ε → Prop} (hI : I s₀) (hstep : ∀ s e s', I s → step s e s' → I s' ∧ Q e)
    (hrun : Run step s₀ hist s) :
    ∀ e ∈ hist, Q e := by
  have hall : I s ∧ ∀ e ∈ hist, Q e := by
    induction hrun with
    | nil => exact ⟨hI, by simp⟩
    | cons _ hs ih =>
      obtain ⟨hnext, hlabel⟩ := hstep _ _ _ ih.1 hs
      exact ⟨hnext, forall_mem_cons.mpr ⟨hlabel, ih.2⟩⟩
  exact hall.2

/-- A reflexive and transitive relation between the states around every step
    holds between the first and the last state, provided an invariant of the
    states may be used. -/
theorem rel {R : σ → σ → Prop} (hrefl : ∀ s, R s s) (htrans : ∀ a b c, R a b → R b c → R a c)
    (hI : I s₀) (hkeep : ∀ s e s', I s → step s e s' → I s')
    (hstep : ∀ s e s', I s → step s e s' → R s s') (hrun : Run step s₀ hist s) : R s₀ s := by
  have hboth : I s ∧ R s₀ s := by
    induction hrun with
    | nil => exact ⟨hI, hrefl _⟩
    | cons _ hs ih => exact ⟨hkeep _ _ _ ih.1 hs, htrans _ _ _ ih.2 (hstep _ _ _ ih.1 hs)⟩
  exact hboth.2

variable {later earlier : List ε}

theorem append (h₁ : Run step s₀ earlier s₁) (h₂ : Run step s₁ later s) :
    Run step s₀ (later ++ earlier) s := by
  induction h₂ with
  | nil => exact h₁
  | cons _ hs ih => exact cons ih hs

theorem of_append (h : Run step s₀ (later ++ earlier) s) :
    ∃ m, Run step s₀ earlier m ∧ Run step m later s := by
  induction later generalizing s with
  | nil => exact ⟨s, h, nil⟩
  | cons e later ih =>
    cases h with
    | cons hprev hs =>
      obtain ⟨m, hbefore, hafter⟩ := ih hprev
      exact ⟨m, hbefore, cons hafter hs⟩

theorem split {e : ε} (h : Run step s₀ (later ++ e :: earlier) s) :
    ∃ a b, Run step s₀ earlier a ∧ step a e b ∧ Run step b later s := by
  obtain ⟨b, hbefore, hafter⟩ := of_append h
  cases hbefore with
  | cons hprev hs => exact ⟨_, b, hprev, hs, hafter⟩

theorem mono {step' : σ → ε → σ → Prop} (hI : I s₀) (hkeep : ∀ s e s', I s → step s e s' → I s')
    (hstep : ∀ s e s', I s → step s e s' → step' s e s') (hrun : Run step s₀ hist s) :
    Run step' s₀ hist s := by
  have hboth : I s ∧ Run step' s₀ hist s := by
    induction hrun with
    | nil => exact ⟨hI, nil⟩
    | cons _ hs ih => exact ⟨hkeep _ _ _ ih.1 hs, cons ih.2 (hstep _ _ _ ih.1 hs)⟩
  exact hboth.2

end Run

/-! ### One clock for all transactions -/

/-- A state together with the last reading of the shared clock. -/
structure Clocked (σ : Type u) (τ : Type v) where
  now : τ
  store : σ

/-- A step whose clock readings continue the clock without going back. -/
def clocked {σ ε τ : Type*} [LE τ] (readings : ε → List τ) (step : σ → ε → σ → Prop)
    (w : Clocked σ τ) (e : ε) (w' : Clocked σ τ) : Prop :=
  List.IsChain (· ≤ ·) (w.now :: readings e) ∧
    w'.now = (readings e).getLastD w.now ∧ step w.store e w'.store

theorem le_getLastD {τ : Type*} [Preorder τ] {l : List τ} (hsorted : l.Pairwise (· ≤ ·)) {t d : τ}
    (ht : t ∈ l) : t ≤ l.getLastD d := by
  rcases eq_nil_or_concat l with rfl | ⟨front, last, rfl⟩
  · cases ht
  · rw [concat_eq_append] at hsorted ht ⊢
    rw [getLastD_eq_getLast?, getLast?_concat, Option.getD_some]
    rcases mem_append.mp ht with hfront | hlast
    · exact (pairwise_append.mp hsorted).2.2 t hfront last (mem_singleton.mpr rfl)
    · rw [mem_singleton.mp hlast]

namespace clocked

variable {σ ε τ : Type*} [Preorder τ] {readings : ε → List τ} {step : σ → ε → σ → Prop} {w w' : Clocked σ τ} {e : ε}

section

variable (h : clocked readings step w e w')
include h

theorem store_step : step w.store e w'.store := h.2.2

theorem le_reading {t : τ} (ht : t ∈ readings e) :
    w.now ≤ t := by
  have hsorted := isChain_iff_pairwise.mp h.1
  exact (pairwise_cons.mp hsorted).1 t ht

theorem reading_le {t : τ} (ht : t ∈ readings e) :
    t ≤ w'.now := by
  rw [h.2.1]
  exact le_getLastD (pairwise_cons.mp (isChain_iff_pairwise.mp h.1)).2 ht

theorem now_le : w.now ≤ w'.now := by
  rcases hread : readings e with _ | ⟨t, rest⟩
  · rw [h.2.1, hread]; exact le_rfl
  · have ht : t ∈ readings e := by rw [hread]; exact mem_cons_self
    exact le_trans (h.le_reading ht) (h.reading_le ht)

end

end clocked

section

variable {σ ε κ τ : Type*} (run : κ → σ → ε × σ) (readings : κ → List τ)

def execute : List κ → List ε → σ → List ε × σ
  | [], hist, s => (hist, s)
  | call :: calls, hist, s => execute calls ((run call s).1 :: hist) (run call s).2

def clockAfter (now : τ) (calls : List κ) : τ :=
  calls.foldl (fun now call => (readings call).getLastD now) now

def inOrder [LE τ] [DecidableLE τ] : τ → List κ → Bool
  | _, [] => true
  | now, call :: calls =>
      decide (List.IsChain (· ≤ ·) (now :: readings call)) &&
        inOrder ((readings call).getLastD now) calls

def allowed (ok : κ → σ → Bool) : List κ → σ → Bool
  | [], _ => true
  | call :: calls, s => ok call s && allowed ok calls (run call s).2

omit τ in
theorem allowed_true (calls : List κ) (s : σ) : allowed run (fun _ _ => true) calls s = true := by
  induction calls generalizing s with
  | nil => rfl
  | cons call calls ih => exact ih (run call s).2

variable {run readings} {step : σ → ε → σ → Prop} {labelReadings : ε → List τ} {ok : κ → σ → Bool}

theorem execute_steps {calls : List κ} {s₀ s : σ} {hist : List ε} (hrun : Run step s₀ hist s)
    (hallowed : allowed run ok calls s = true)
    (hstep : ∀ call s, ok call s = true → step s (run call s).1 (run call s).2) :
    Run step s₀ (execute run calls hist s).1 (execute run calls hist s).2 := by
  induction calls generalizing s hist with
  | nil => exact hrun
  | cons call calls ih =>
    simp only [allowed, Bool.and_eq_true] at hallowed
    exact ih (Run.cons hrun (hstep call s hallowed.1)) hallowed.2

variable [LE τ] [DecidableLE τ] {calls : List κ} {w w' : Clocked σ τ} {hist : List ε}

section

variable (hrun : Run (clocked labelReadings step) w hist w')
  (hordered : inOrder readings w'.now calls = true)
include hrun hordered

theorem execute_run_allowed
    (hallowed : allowed run ok calls w'.store = true)
    (hstep : ∀ call s, ok call s = true → step s (run call s).1 (run call s).2)
    (hreadings : ∀ call s, labelReadings (run call s).1 = readings call) :
    Run (clocked labelReadings step) w (execute run calls hist w'.store).1
      ⟨clockAfter readings w'.now calls, (execute run calls hist w'.store).2⟩ := by
  induction calls generalizing w' hist with
  | nil => exact hrun
  | cons call calls ih =>
    simp only [inOrder, allowed, Bool.and_eq_true, decide_eq_true_eq] at hordered hallowed
    have hnext : clocked labelReadings step w' (run call w'.store).1
        ⟨(readings call).getLastD w'.now, (run call w'.store).2⟩ := by
      rw [clocked, hreadings]
      exact ⟨hordered.1, rfl, hstep call w'.store hallowed.1⟩
    exact ih (Run.cons hrun hnext) hordered.2 hallowed.2

theorem execute_run
    (hstep : ∀ call s, step s (run call s).1 (run call s).2)
    (hreadings : ∀ call s, labelReadings (run call s).1 = readings call) :
    Run (clocked labelReadings step) w (execute run calls hist w'.store).1
      ⟨clockAfter readings w'.now calls, (execute run calls hist w'.store).2⟩ := by
  exact execute_run_allowed hrun hordered (allowed_true run calls w'.store)
    (fun call s _ => hstep call s) hreadings

end

end

variable {σ α : Type u} {ε : Type v}

def inTransaction (f : σ → Except ε α × σ) (s : σ) : Except ε α × σ :=
  match f s with
  | (.ok value, s') => (.ok value, s')
  | (.error error, _) => (.error error, s)

/-- Run a session function and commit, also when it raises an error the caller
    catches inside the transaction. -/
def inTransactionCatching (caught : ε → Bool) (f : σ → Except ε α × σ) (s : σ) :
    Except ε α × σ :=
  match f s with
  | (.ok value, s') => (.ok value, s')
  | (.error error, s') => (.error error, if caught error then s' else s)

variable {f : σ → Except ε α × σ} {r : Except ε α}

theorem inTransaction_cases {s s' : σ} (h : inTransaction f s = (r, s')) :
    (∃ value, r = .ok value ∧ f s = (.ok value, s')) ∨ ∃ error, r = .error error ∧ s' = s := by
  unfold inTransaction at h
  split at h
  · next value t hf =>
    cases h
    exact .inl ⟨value, rfl, hf⟩
  · next error t hf =>
    cases h
    exact .inr ⟨error, rfl, rfl⟩

theorem inTransactionCatching_cases {caught : ε → Bool} {s s' : σ}
    (h : inTransactionCatching caught f s = (r, s')) :
    f s = (r, s') ∨ ∃ error, r = .error error ∧ s' = s := by
  unfold inTransactionCatching at h
  split at h
  · next value t hf =>
    cases h
    exact .inl hf
  · next error t hf =>
    cases h
    by_cases hcaught : caught error = true
    · rw [if_pos hcaught]; exact .inl hf
    · rw [if_neg hcaught]; exact .inr ⟨error, rfl, rfl⟩

end MultiRag
