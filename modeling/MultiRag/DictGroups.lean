/-
  **First items and groups by key.**

  `firsts` keeps the first item of every key, as a loop with a set of keys seen does,
  or `setdefault`.
-/
import Mathlib.Data.List.Induction
import MultiRag.Dict

namespace MultiRag.Dict

open List

variable {α K : Type} [DecidableEq K] (key : α → K)

/-! ### First items -/

/-- The items whose key is new, after those of the keys `seen`. -/
def firstsFrom : List K → List α → List α
  | _, [] => []
  | seen, a :: l => if key a ∈ seen then firstsFrom seen l else a :: firstsFrom (key a :: seen) l

def firsts (l : List α) : List α := firstsFrom key [] l

variable {key}

theorem firstsFrom_sublist (seen : List K) (l : List α) : (firstsFrom key seen l).Sublist l := by
  induction l generalizing seen with
  | nil => exact Sublist.refl _
  | cons a l ih =>
    rw [firstsFrom]
    split
    · exact (ih seen).trans (sublist_cons_self a l)
    · exact (ih (key a :: seen)).cons_cons a

theorem firsts_sublist (l : List α) : (firsts key l).Sublist l := firstsFrom_sublist [] l

variable {l : List α} {a : α}

theorem firstsFrom_new {seen : List K} (h : a ∈ firstsFrom key seen l) : key a ∉ seen := by
  induction l generalizing seen with
  | nil => cases h
  | cons b l ih =>
    rw [firstsFrom] at h
    split at h
    · exact ih h
    · next hb =>
      rcases mem_cons.mp h with rfl | h
      · exact hb
      · intro hmem
        exact ih h (mem_cons_of_mem _ hmem)

theorem nodup_firstsFrom (seen : List K) (l : List α) : ((firstsFrom key seen l).map key).Nodup := by
  induction l generalizing seen with
  | nil => exact nodup_nil
  | cons a l ih =>
    rw [firstsFrom]
    split
    · exact ih seen
    · rw [map_cons, nodup_cons]
      refine ⟨?_, ih _⟩
      intro hmem
      obtain ⟨b, hb, hkey⟩ := mem_map.mp hmem
      exact firstsFrom_new hb (hkey ▸ mem_cons_self)

theorem nodup_firsts (l : List α) : ((firsts key l).map key).Nodup := nodup_firstsFrom [] l

theorem exists_firstsFrom {seen : List K} (ha : a ∈ l) (hseen : key a ∉ seen) :
    ∃ b ∈ firstsFrom key seen l, key b = key a := by
  induction l generalizing seen with
  | nil => cases ha
  | cons c l ih =>
    rw [firstsFrom]
    by_cases hkey : key a = key c
    · rw [if_neg (hkey ▸ hseen)]
      exact ⟨c, mem_cons_self, hkey.symm⟩
    · have hmem : a ∈ l := (mem_cons.mp ha).resolve_left fun heq => hkey (congrArg key heq)
      split
      · exact ih hmem hseen
      · have hnew : key a ∉ key c :: seen := by simp [hkey, hseen]
        obtain ⟨b, hb, heq⟩ := ih hmem hnew
        exact ⟨b, mem_cons_of_mem _ hb, heq⟩

theorem exists_firsts (ha : a ∈ l) : ∃ b ∈ firsts key l, key b = key a :=
  exists_firstsFrom ha not_mem_nil

/-! ### Groups -/

variable (key)

/-- `groups[key(a)].append(a)`, where a key that is missing has no items. -/
def file (groups : List (K × List α)) (a : α) : List (K × List α) :=
  assign groups (key a) ((groups.lookup (key a)).getD [] ++ [a])

def groups (l : List α) : List (K × List α) := l.foldl (file key) []

variable {key}

theorem nodup_groups (l : List α) : ((groups key l).map Prod.fst).Nodup := by
  induction l using reverseRecOn with
  | nil => exact nodup_nil
  | append_singleton l a ih =>
    rw [groups, foldl_append]
    exact nodup_assign ih _ _

theorem lookup_groups (l : List α) (k : K) :
    ((groups key l).lookup k).getD [] = l.filter fun a => key a = k := by
  induction l using reverseRecOn with
  | nil => rfl
  | append_singleton l a ih =>
    have hlast : groups key (l ++ [a]) = file key (groups key l) a := by
      rw [groups, foldl_append]
      rfl
    rw [hlast, file]
    by_cases hk : key a = k
    · subst hk
      rw [lookup_assign_self, Option.getD_some, ih]
      simp
    · rw [lookup_assign_ne _ _ (Ne.symm hk), ih]
      simp [hk]

variable {members : List α}

theorem groups_ne_nil {k : K} (h : (k, members) ∈ groups key l) :
    members ≠ [] := by
  induction l using reverseRecOn with
  | nil => cases h
  | append_singleton l a ih =>
    rw [groups, foldl_append] at h
    rcases mem_assign h with heq | hold
    · rw [(Prod.mk.inj heq).2]
      simp
    · exact ih hold

theorem mem_groups {k : K} :
    (k, members) ∈ groups key l ↔ members ≠ [] ∧ members = l.filter fun a => key a = k := by
  have hgroup : ((groups key l).lookup k).getD [] = l.filter fun a => key a = k := lookup_groups l k
  rw [← lookup_iff_mem (nodup_groups l)]
  constructor
  · intro h
    rw [h] at hgroup
    exact ⟨groups_ne_nil ((lookup_iff_mem (nodup_groups l)).mp h), hgroup⟩
  · rintro ⟨hne, rfl⟩
    rcases hlookup : (groups key l).lookup k with - | members
    · rw [hlookup] at hgroup
      exact absurd hgroup.symm hne
    · rw [hlookup] at hgroup
      rw [← hgroup]
      rfl

end MultiRag.Dict
