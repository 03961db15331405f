/-
  **Inverted indexes.**

  Items `a : α` are filed with a tag `d : δ` under a key of theirs.  A bucket keeps
  the first item that was filed in it and all the tags, so an index is smaller than
  what was filed, and a scan looks at one item a bucket.
-/
import Mathlib.Data.List.AList
import Mathlib.Data.List.Induction

namespace MultiRag

open List

universe u v w

variable {κ : Type u} {α : Type v} {δ : Type w}

abbrev Buckets (κ : Type u) (α : Type v) (δ : Type w) := AList fun _ : κ => α × List δ

namespace Buckets

variable [DecidableEq κ]

/-- File an item: `index.setdefault(key(a), (a, []))[1].append(d)`. -/
def add (key : α → κ) (b : Buckets κ α δ) (a : α) (d : δ) : Buckets κ α δ :=
  match b.lookup (key a) with
  | none => b.insert (key a) (a, [d])
  | some (first, tags) => b.insert (key a) (first, tags ++ [d])

def addAll (key : α → κ) (items : List (α × δ)) : Buckets κ α δ :=
  items.foldl (fun b item => b.add key item.1 item.2) ∅

def scan (b : Buckets κ α δ) (test : α → Bool) : List δ :=
  b.entries.flatMap fun bucket => if test bucket.2.1 then bucket.2.2 else []

variable {key : α → κ} {b : Buckets κ α δ} {items : List (α × δ)} {test : α → Bool}

structure Files (key : α → κ) (b : Buckets κ α δ) (items : List (α × δ)) : Prop where
  tags : ∀ k first tags, b.lookup k = some (first, tags) → key first = k ∧
    ∀ d, d ∈ tags ↔ ∃ a, (a, d) ∈ items ∧ key a = k
  filed : ∀ a d, (a, d) ∈ items → (b.lookup (key a)).isSome

theorem files_empty : Files key (∅ : Buckets κ α δ) [] where
  tags := by
    intro k first tags h
    simp at h
  filed := by
    intro a d h
    simp at h

theorem Files.add (h : Files key b items) (a : α) (d : δ) :
    Files key (b.add key a d) (items ++ [(a, d)]) := by
  have hfresh : b.lookup (key a) = none → ∀ x e, (x, e) ∈ items → key x ≠ key a := by
    intro hnone x e hmem hkey
    have hsome := h.filed x e hmem
    rw [hkey, hnone] at hsome
    simp at hsome
  constructor
  · intro k first tags hlookup
    unfold Buckets.add at hlookup
    by_cases hk : k = key a
    · subst hk
      split at hlookup
      · next hnone =>
        rw [AList.lookup_insert] at hlookup
        cases hlookup
        refine ⟨rfl, fun e => ?_⟩
        constructor
        · intro he
          rw [mem_singleton] at he
          exact ⟨a, by simp [he], rfl⟩
        · rintro ⟨x, hmem, hkey⟩
          rcases mem_append.mp hmem with hold | hnew
          · exact absurd hkey (hfresh hnone x e hold)
          · simp at hnew
            simp [hnew.2]
      · next first' tags' hsome =>
        rw [AList.lookup_insert] at hlookup
        cases hlookup
        obtain ⟨hfirst, htags⟩ := h.tags _ _ _ hsome
        refine ⟨hfirst, fun e => ?_⟩
        simp only [mem_append, mem_singleton, htags, Prod.mk.injEq]
        constructor
        · rintro (⟨x, hmem, hkey⟩ | rfl)
          · exact ⟨x, .inl hmem, hkey⟩
          · exact ⟨a, .inr ⟨rfl, rfl⟩, rfl⟩
        · rintro ⟨x, hmem | ⟨rfl, rfl⟩, hkey⟩
          · exact .inl ⟨x, hmem, hkey⟩
          · exact .inr rfl
    · have hold : b.lookup k = some (first, tags) := by
        split at hlookup
        · rwa [AList.lookup_insert_ne hk] at hlookup
        · rwa [AList.lookup_insert_ne hk] at hlookup
      obtain ⟨hfirst, htags⟩ := h.tags _ _ _ hold
      refine ⟨hfirst, fun e => ?_⟩
      rw [htags]
      constructor
      · rintro ⟨x, hmem, hkey⟩
        exact ⟨x, mem_append_left _ hmem, hkey⟩
      · rintro ⟨x, hmem, hkey⟩
        rcases mem_append.mp hmem with hmem | hnew
        · exact ⟨x, hmem, hkey⟩
        · simp at hnew
          exact absurd (hnew.1 ▸ hkey).symm hk
  · intro x e hmem
    unfold Buckets.add
    by_cases hk : key x = key a
    · rw [hk]
      split
      · simp
      · simp
    · have hold : (b.lookup (key x)).isSome := by
        rcases mem_append.mp hmem with hmem | hnew
        · exact h.filed x e hmem
        · simp at hnew
          exact absurd (congrArg key hnew.1) hk
      split
      · rwa [AList.lookup_insert_ne hk]
      · rwa [AList.lookup_insert_ne hk]

theorem files_addAll (key : α → κ) (items : List (α × δ)) :
    Files key (addAll key items) items := by
  induction items using reverseRecOn with
  | nil => exact files_empty
  | append_singleton items item ih =>
    rw [addAll, foldl_append]
    exact ih.add item.1 item.2

/-- **A scan finds the tags of exactly the items that pass its test**, if the test
    answers alike for items of one key. -/
theorem mem_scan (key : α → κ) (items : List (α × δ)) (test : α → Bool)
    (hsame : ∀ a a', key a = key a' → test a = test a') {d : δ} :
    d ∈ (addAll key items).scan test ↔ ∃ a, (a, d) ∈ items ∧ test a = true := by
  obtain ⟨htags, hfiled⟩ := files_addAll key items
  simp only [scan, mem_flatMap]
  constructor
  · rintro ⟨⟨k, first, tags⟩, hmem, hd⟩
    split at hd
    · next htest =>
      obtain ⟨hfirst, hmem_tags⟩ := htags k first tags (AList.mem_lookup_iff.mpr hmem)
      obtain ⟨a, hitem, hkey⟩ := (hmem_tags d).mp hd
      exact ⟨a, hitem, by rw [hsame a first (hkey.trans hfirst.symm)]; exact htest⟩
    · cases hd
  · rintro ⟨a, hitem, htest⟩
    obtain ⟨⟨first, tags⟩, hlookup⟩ := Option.isSome_iff_exists.mp (hfiled a d hitem)
    obtain ⟨hfirst, hmem_tags⟩ := htags _ first tags hlookup
    refine ⟨⟨key a, first, tags⟩, AList.mem_lookup_iff.mp hlookup, ?_⟩
    simp only [hsame first a hfirst, htest, if_true]
    exact (hmem_tags d).mpr ⟨a, hitem, rfl⟩

end Buckets

end MultiRag
