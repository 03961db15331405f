/-
  **What a conjunctive selection entails.**

  A record has one key, and a list of values for every attribute. A selection is a list of atoms,
  all of which a record must satisfy: the key is one of some keys, an attribute has one of some
  values, an attribute has a value at all. `entails_iff` decides when the records of a selection
  all satisfy a further atom: no record is selected (`Vacant`), or an atom of the selection on the
  same key or attribute says as much (`Covers`).
-/
import Mathlib.Data.Set.Finite.Basic

namespace MultiRag.Conjunction

open List

variable {κ α β : Type*}

structure Record (κ α β : Type*) where
  key : κ
  values : α → List β

inductive Atom (κ α β : Type*) where
  | key (allowed : List κ)
  | field (a : α) (allowed : List β)
  | present (a : α)

def Atom.Holds (r : Record κ α β) : Atom κ α β → Prop
  | .key allowed => r.key ∈ allowed
  | .field a allowed => ∃ v ∈ r.values a, v ∈ allowed
  | .present a => r.values a ≠ []

def Selects (selection : List (Atom κ α β)) (r : Record κ α β) : Prop :=
  ∀ atom ∈ selection, atom.Holds r

def Vacant (selection : List (Atom κ α β)) : Prop :=
  (∀ x, ∃ allowed, Atom.key allowed ∈ selection ∧ x ∉ allowed) ∨
    ∃ a, Atom.field a [] ∈ selection

def Covers (selection : List (Atom κ α β)) : Atom κ α β → Prop
  | .key allowed => ∀ x, (∀ xs, Atom.key xs ∈ selection → x ∈ xs) → x ∈ allowed
  | .field a allowed => ∃ vs, Atom.field a vs ∈ selection ∧ vs ⊆ allowed
  | .present a => Atom.present a ∈ selection ∨ ∃ vs, Atom.field a vs ∈ selection

variable {r : Record κ α β} {atom : Atom κ α β} {selection : List (Atom κ α β)}

@[simp] theorem selects_nil : Selects [] r := by
  exact nofun

@[simp] theorem selects_cons : Selects (atom :: selection) r ↔ atom.Holds r ∧ Selects selection r :=
  forall_mem_cons

theorem selects_append {front back : List (Atom κ α β)} :
    Selects (front ++ back) r ↔ Selects front r ∧ Selects back r :=
  forall_mem_append

theorem not_selects_of_vacant (hvacant : Vacant selection) (r : Record κ α β) :
    ¬ Selects selection r := by
  intro hselects
  rcases hvacant with hkeys | ⟨a, hempty⟩
  · obtain ⟨allowed, hmem, hout⟩ := hkeys r.key
    exact hout (hselects _ hmem)
  · obtain ⟨v, -, hv⟩ := hselects _ hempty
    cases hv

theorem holds_of_covers (hcovers : Covers selection atom) (hselects : Selects selection r) :
    atom.Holds r := by
  cases atom with
  | key allowed => exact hcovers r.key fun xs hxs => hselects _ hxs
  | field a allowed =>
    obtain ⟨vs, hvs, hsubset⟩ := hcovers
    obtain ⟨v, hv, hallowed⟩ := hselects _ hvs
    exact ⟨v, hv, hsubset hallowed⟩
  | present a =>
    rcases hcovers with hpresent | ⟨vs, hvs⟩
    · exact hselects _ hpresent
    · obtain ⟨v, hv, -⟩ := hselects _ hvs
      exact ne_nil_of_mem hv

theorem exists_record [Infinite β] {x : κ} (avoid : α → List β) (bare : α → Prop)
    (hkey : ∀ xs, Atom.key xs ∈ selection → x ∈ xs)
    (havoid : ∀ a vs, Atom.field a vs ∈ selection → ∃ v ∈ vs, v ∉ avoid a)
    (hbare : ∀ a, bare a → Atom.present a ∉ selection ∧ ∀ vs, Atom.field a vs ∉ selection) :
    ∃ r : Record κ α β, r.key = x ∧ Selects selection r ∧
      (∀ a, ∀ v ∈ r.values a, v ∉ avoid a) ∧ ∀ a, bare a → r.values a = [] := by
  classical
  -- a value of each attribute that no atom has to allow
  have hspare : ∀ a, ∃ v, v ∉ avoid a := by
    intro a
    obtain ⟨v, hv⟩ := Infinite.exists_notMem_finset (avoid a).toFinset
    exact ⟨v, fun hmem => hv (mem_toFinset.mpr hmem)⟩
  choose spare hspare using hspare
  let pick : α → Atom κ α β → Option β := fun a atom =>
    match atom with
    | .field b vs => if b = a then vs.find? (fun v => v ∉ avoid a) else none
    | _ => none
  let values : α → List β := fun a => if bare a then [] else spare a :: selection.filterMap (pick a)
  refine ⟨⟨x, values⟩, rfl, ?_, ?_, ?_⟩
  · intro atom hmem
    cases atom with
    | key allowed => exact hkey allowed hmem
    | field a vs =>
      obtain ⟨v, hv, hfree⟩ := havoid a vs hmem
      have hfull : ¬ bare a := fun h => (hbare a h).2 vs hmem
      have hfound : (vs.find? fun v => v ∉ avoid a).isSome := by
        rw [find?_isSome]
        exact ⟨v, hv, by simpa using hfree⟩
      obtain ⟨u, hu⟩ := Option.isSome_iff_exists.mp hfound
      refine ⟨u, ?_, mem_of_find?_eq_some hu⟩
      simp only [values, if_neg hfull, mem_cons, mem_filterMap]
      refine .inr ⟨_, hmem, ?_⟩
      simp only [pick, if_true]
      exact hu
    | present a =>
      have hfull : ¬ bare a := fun h => (hbare a h).1 hmem
      simp [Atom.Holds, values, hfull]
  · intro a v hv
    simp only [values] at hv
    split at hv
    · cases hv
    · rcases mem_cons.mp hv with rfl | hv
      · exact hspare a
      · obtain ⟨atom, -, hpick⟩ := mem_filterMap.mp hv
        cases atom with
        | key allowed => cases hpick
        | field b vs =>
          simp only [pick] at hpick
          split at hpick
          · simpa using find?_some hpick
          · cases hpick
        | present b => cases hpick
  · intro a h
    simp only [values, if_pos h]

theorem entails_iff [Infinite β] :
    (∀ r, Selects selection r → atom.Holds r) ↔ Vacant selection ∨ Covers selection atom := by
  constructor
  · intro hentails
    by_contra hnot
    simp only [Vacant, not_or, not_forall, not_exists, not_and, not_not] at hnot
    obtain ⟨⟨⟨x, hkey⟩, hnonempty⟩, huncovered⟩ := hnot
    -- in each case a selected record is built that breaks the atom
    have hvalue : ∀ a vs, Atom.field a vs ∈ selection → ∃ v, v ∈ vs := by
      intro a vs hmem
      apply exists_mem_of_ne_nil
      rintro rfl
      exact hnonempty a hmem
    cases atom with
    | key allowed =>
      simp only [Covers, not_forall] at huncovered
      obtain ⟨y, hy, hout⟩ := huncovered
      obtain ⟨r, rfl, hselects, -, -⟩ := exists_record (fun _ => []) (fun _ => False) hy
        (by simpa using hvalue) (fun _ h => h.elim)
      exact hout (hentails r hselects)
    | field a allowed =>
      classical
      simp only [Covers, not_exists, not_and] at huncovered
      have havoid : ∀ b vs, Atom.field b vs ∈ selection →
          ∃ v ∈ vs, v ∉ (if b = a then allowed else []) := by
        intro b vs hmem
        by_cases hb : b = a
        · subst hb
          simpa [subset_def] using huncovered vs hmem
        · simpa [hb] using hvalue b vs hmem
      obtain ⟨r, -, hselects, hfree, -⟩ := exists_record (fun b => if b = a then allowed else [])
        (fun _ => False) hkey havoid (fun _ h => h.elim)
      obtain ⟨v, hv, hallowed⟩ := hentails r hselects
      have hout := hfree a v hv
      rw [if_pos rfl] at hout
      exact hout hallowed
    | present a =>
      simp only [Covers, not_or, not_exists] at huncovered
      obtain ⟨r, -, hselects, -, hempty⟩ := exists_record (fun _ => []) (fun b => b = a)
        hkey (by simpa using hvalue)
        (fun b hb => hb ▸ huncovered)
      exact hentails r hselects (hempty a rfl)
  · rintro (hvacant | hcovers) r hselects
    · exact absurd hselects (not_selects_of_vacant hvacant r)
    · exact holds_of_covers hcovers hselects

theorem entails_all_iff [Infinite β] {goal : List (Atom κ α β)} :
    (∀ r, Selects selection r → Selects goal r) ↔
      Vacant selection ∨ ∀ atom ∈ goal, Covers selection atom := by
  constructor
  · intro hentails
    by_cases hvacant : Vacant selection
    · exact Or.inl hvacant
    · apply Or.inr
      intro atom hmem
      have hatom := entails_iff.mp fun r hselects => hentails r hselects atom hmem
      exact hatom.resolve_left hvacant
  · rintro (hvacant | hcovers) r hselects
    · exact absurd hselects (not_selects_of_vacant hvacant r)
    · intro atom hmem
      exact holds_of_covers (hcovers atom hmem) hselects

end MultiRag.Conjunction
