/-
  **Stacks on which a new element replaces at most one.**

  `push` puts an element on a stack; a top that is less is taken off first, and only the
  top.  Of the elements that are pushed one after the other there stay those that the
  next one does not exceed (`foldl_push`), the *descents* of the list.
-/
import Mathlib.Data.List.Infix
import Mathlib.Order.Lattice

namespace MultiRag.Descents

open List

variable {α : Type} [LinearOrder α]

def push : List α → α → List α
  | [], x => [x]
  | top :: below, x => if top < x then x :: below else x :: top :: below

/-- The elements that are not less than the next one. -/
def descents : List α → List α
  | [] => []
  | [x] => [x]
  | x :: y :: rest => if x < y then descents (y :: rest) else x :: descents (y :: rest)

/-- An element that is not less than the next one exceeds all that follow. -/
def Unbroken (pushed : List α) : Prop :=
  ∀ x y rest, x :: y :: rest <:+ pushed → y < x → ∀ z ∈ rest, z < x

theorem descents_cons {x : α} {rest : List α} (h : ∀ y ∈ rest.head?, ¬ x < y) :
    descents (x :: rest) = x :: descents rest := by
  cases rest with
  | nil => rfl
  | cons y rest => rw [descents, if_neg (h y rfl)]

theorem foldl_push (top : α) (below pushed : List α) :
    pushed.foldl push (top :: below) = (descents (top :: pushed)).reverse ++ below := by
  induction pushed generalizing top below with
  | nil => simp [descents]
  | cons x pushed ih =>
    rw [foldl_cons, push, descents]
    split
    · exact ih x below
    · rw [ih x (top :: below), reverse_cons, append_assoc, singleton_append]

variable {pushed : List α}

theorem mem_descents_iff {x : α} :
    x ∈ descents pushed ↔ ∃ rest, x :: rest <:+ pushed ∧ ∀ y ∈ rest.head?, ¬ x < y := by
  induction pushed with
  | nil => simp [descents]
  | cons first pushed ih =>
    have hsuffix : (∃ rest, x :: rest <:+ first :: pushed ∧ ∀ y ∈ rest.head?, ¬ x < y) ↔
        (x = first ∧ ∀ y ∈ pushed.head?, ¬ x < y) ∨ x ∈ descents pushed := by
      rw [ih]
      constructor
      · rintro ⟨rest, hrest, hnext⟩
        rcases suffix_cons_iff.mp hrest with heq | hlater
        · obtain ⟨rfl, rfl⟩ := List.cons.inj heq
          exact .inl ⟨rfl, hnext⟩
        · exact .inr ⟨rest, hlater, hnext⟩
      · rintro (⟨rfl, hnext⟩ | ⟨rest, hlater, hnext⟩)
        · exact ⟨pushed, suffix_rfl, hnext⟩
        · exact ⟨rest, hlater.trans (suffix_cons first pushed), hnext⟩
    rw [hsuffix]
    cases pushed with
    | nil => simp [descents]
    | cons next pushed =>
      rw [descents]
      by_cases hless : first < next
      · rw [if_pos hless]
        constructor
        · exact .inr
        · rintro (⟨rfl, hnext⟩ | hmem)
          · exact absurd hless (hnext next rfl)
          · exact hmem
      · rw [if_neg hless, mem_cons]
        apply or_congr_left
        constructor
        · rintro rfl
          refine ⟨rfl, ?_⟩
          intro y hy
          rw [← Option.some.inj hy]
          exact hless
        · exact And.left

theorem Unbroken.suffix {later : List α} (h : Unbroken pushed) (hlater : later <:+ pushed) :
    Unbroken later := by
  intro x y rest hrest
  exact h x y rest (hrest.trans hlater)

theorem unbroken_iff (hnodup : pushed.Nodup) :
    Unbroken pushed ↔ ∀ x rest, x :: rest <:+ pushed → (∀ y ∈ rest.head?, ¬ x < y) → ∀ z ∈ rest, z < x := by
  constructor
  · intro h x rest hrest hnext z hz
    cases rest with
    | nil => cases hz
    | cons y rest =>
      have hne : x ≠ y := by
        rintro rfl
        have hsuffix := hnodup.sublist hrest.sublist
        simp at hsuffix
      have hlt : y < x := lt_of_le_of_ne (not_lt.mp (hnext y rfl)) hne.symm
      rcases mem_cons.mp hz with rfl | hz
      · exact hlt
      · exact h x y rest hrest hlt z hz
  · intro h x y rest hrest hlt z hz
    apply h x (y :: rest) hrest _ z (mem_cons_of_mem y hz)
    intro y' hy'
    rw [← Option.some.inj hy']
    exact not_lt_of_gt hlt

theorem Unbroken.pairwise_descents (h : Unbroken pushed) (hnodup : pushed.Nodup) :
    (descents pushed).Pairwise (· > ·) := by
  induction pushed with
  | nil => exact List.Pairwise.nil
  | cons x rest ih =>
    have hrest := ih (h.suffix (suffix_cons x rest)) (nodup_cons.mp hnodup).2
    by_cases hnext : ∀ y ∈ rest.head?, ¬ x < y
    · rw [descents_cons hnext, pairwise_cons]
      refine ⟨?_, hrest⟩
      intro z hz
      obtain ⟨later, hlater, -⟩ := mem_descents_iff.mp hz
      exact (unbroken_iff hnodup).mp h x rest suffix_rfl hnext z (hlater.subset mem_cons_self)
    · cases rest with
      | nil => simp at hnext
      | cons y rest =>
        rw [descents, if_pos (by simpa using hnext)]
        exact hrest

end MultiRag.Descents
