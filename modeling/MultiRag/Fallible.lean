/-
  **Computations that may raise.**

  When a sequence of calls, or one call for each element of a list, succeeds.
-/
import Mathlib.Data.List.Forall2

namespace MultiRag

open List

variable {ε α β : Type} {x : Except ε α} {f : α → Except ε β}

theorem bind_eq_ok {b : β} :
    (x >>= f) = .ok b ↔ ∃ a, x = .ok a ∧ f a = .ok b := by
  cases x with
  | error error => simp [bind, Except.bind]
  | ok a => simp [bind, Except.bind]

theorem bind_eq_error {e : ε} :
    (x >>= f) = .error e ↔ x = .error e ∨ ∃ a, x = .ok a ∧ f a = .error e := by
  cases x with
  | error error => simp [bind, Except.bind]
  | ok a => simp [bind, Except.bind]

variable {l : List α} {out : List β}

theorem mapM_eq_ok (h : l.mapM f = .ok out) (y : β) :
    y ∈ out ↔ ∃ x ∈ l, f x = .ok y := by
  induction l generalizing out with
  | nil =>
    rw [mapM_nil] at h
    cases h
    simp
  | cons x rest ih =>
    rw [mapM_cons] at h
    obtain ⟨first, hfirst, h⟩ := bind_eq_ok.mp h
    obtain ⟨others, hothers, h⟩ := bind_eq_ok.mp h
    cases h
    rw [mem_cons, ih hothers, exists_mem_cons_iff, hfirst, Except.ok.injEq, eq_comm]

theorem exists_mapM_ok :
    (∃ out, l.mapM f = .ok out) ↔ ∀ x ∈ l, ∃ y, f x = .ok y := by
  induction l with
  | nil => simp [pure, Except.pure]
  | cons x rest ih =>
    rw [forall_mem_cons, ← ih, mapM_cons]
    constructor
    · rintro ⟨out, h⟩
      obtain ⟨first, hfirst, h⟩ := bind_eq_ok.mp h
      obtain ⟨others, hothers, -⟩ := bind_eq_ok.mp h
      exact ⟨⟨first, hfirst⟩, others, hothers⟩
    · rintro ⟨⟨first, hfirst⟩, others, hothers⟩
      exact ⟨first :: others, by rw [hfirst, hothers]; rfl⟩

theorem mapM_ok_iff_forall₂ :
    l.mapM f = .ok out ↔ Forall₂ (fun x y => f x = .ok y) l out := by
  induction l generalizing out with
  | nil => simp [pure, Except.pure, eq_comm]
  | cons x rest ih =>
    rw [mapM_cons, bind_eq_ok, forall₂_cons_left_iff]
    constructor
    · rintro ⟨first, hfirst, h⟩
      obtain ⟨others, hothers, h⟩ := bind_eq_ok.mp h
      cases h
      exact ⟨first, others, hfirst, ih.mp hothers, rfl⟩
    · rintro ⟨first, others, hfirst, hothers, rfl⟩
      exact ⟨first, hfirst, bind_eq_ok.mpr ⟨others, ih.mpr hothers, rfl⟩⟩

theorem mapM_some_iff_forall₂ {f : α → Option β} :
    l.mapM f = some out ↔ Forall₂ (fun x y => f x = some y) l out := by
  induction l generalizing out with
  | nil => simp [pure, eq_comm]
  | cons x rest ih =>
    rw [mapM_cons, Option.bind_eq_bind, Option.bind_eq_some_iff, forall₂_cons_left_iff]
    constructor
    · rintro ⟨first, hfirst, h⟩
      obtain ⟨others, hothers, h⟩ := Option.bind_eq_some_iff.mp h
      cases h
      exact ⟨first, others, hfirst, ih.mp hothers, rfl⟩
    · rintro ⟨first, others, hfirst, hothers, rfl⟩
      exact ⟨first, hfirst, Option.bind_eq_some_iff.mpr ⟨others, ih.mpr hothers, rfl⟩⟩

theorem mapM_error {e : ε} (h : l.mapM f = .error e) :
    ∃ x ∈ l, f x = .error e := by
  induction l with
  | nil => cases h
  | cons x rest ih =>
    rw [mapM_cons] at h
    rcases bind_eq_error.mp h with hx | ⟨y, -, h⟩
    · exact ⟨x, mem_cons_self, hx⟩
    · rcases bind_eq_error.mp h with hrest | ⟨out, -, h⟩
      · obtain ⟨x', hx', herror⟩ := ih hrest
        exact ⟨x', mem_cons_of_mem _ hx', herror⟩
      · cases h

variable {R : α → β → Prop}

theorem forall₂_comp {γ : Type} {S : β → γ → Prop} {m : List β} {out : List γ}
    (h : Forall₂ R l m) (h' : Forall₂ S m out) :
    Forall₂ (fun x z => ∃ y, R x y ∧ S y z) l out := by
  induction h generalizing out with
  | nil =>
    cases h'
    exact .nil
  | cons hfirst _ ih =>
    cases h' with
    | cons hsecond hrest => exact .cons ⟨_, hfirst, hsecond⟩ (ih hrest)

section

variable (h : Forall₂ R l out)
include h

theorem map_eq_of_forall₂ {γ : Type} {f : α → γ} {g : β → γ}
    (heq : ∀ x y, R x y → g y = f x) :
    out.map g = l.map f := by
  induction h with
  | nil => rfl
  | cons hfirst _ ih => rw [map_cons, map_cons, ih, heq _ _ hfirst]

theorem exists_right_of_forall₂ {x : α} (hx : x ∈ l) :
    ∃ y ∈ out, R x y := by
  induction h with
  | nil => cases hx
  | cons hfirst _ ih =>
    rcases mem_cons.mp hx with rfl | hx
    · exact ⟨_, mem_cons_self, hfirst⟩
    · obtain ⟨y, hy, hR⟩ := ih hx
      exact ⟨y, mem_cons_of_mem _ hy, hR⟩

theorem exists_left_of_forall₂ {y : β} (hy : y ∈ out) : ∃ x ∈ l, R x y :=
  exists_right_of_forall₂ h.flip hy

theorem nodup_of_forall₂ (hinj : ∀ x x' y, R x y → R x' y → x = x')
    (hnodup : l.Nodup) :
    out.Nodup := by
  induction h with
  | nil => exact nodup_nil
  | cons hfirst hrest ih =>
    rw [nodup_cons] at hnodup ⊢
    refine ⟨fun hmem => ?_, ih hnodup.2⟩
    obtain ⟨x', hx', hR⟩ := exists_left_of_forall₂ hrest hmem
    exact hnodup.1 (hinj _ _ _ hfirst hR ▸ hx')

end

/-! ### The first failure -/

def failure? {ε α : Type} : Except ε α → Option ε
  | .ok _ => none
  | .error e => some e

variable {γ : Type} {check : γ → Option ε}

theorem failure?_bind {first second : List γ}
    (hx : failure? x = first.findSome? check)
    (hf : ∀ a, x = .ok a → failure? (f a) = second.findSome? check) :
    failure? (x >>= f) = (first ++ second).findSome? check := by
  rw [findSome?_append, ← hx]
  cases x with
  | error e => rfl
  | ok a => exact hf a rfl

theorem failure?_mapM {checks : α → List γ}
    (h : ∀ x ∈ l, failure? (f x) = (checks x).findSome? check) :
    failure? (l.mapM f) = (l.flatMap checks).findSome? check := by
  induction l with
  | nil => rfl
  | cons x rest ih =>
    rw [forall_mem_cons] at h
    rw [mapM_cons, flatMap_cons]
    refine failure?_bind h.1 fun y _ => ?_
    rw [← ih h.2]
    cases rest.mapM f with
    | error e => rfl
    | ok out => rfl

end MultiRag
