/-
  **Merging ranked lists and reading them in pages.**

  Lists are ranked by a key.
-/
import Mathlib.Data.List.Sort

namespace MultiRag.Ranked

open List

universe u v

section

variable {α : Type u} {le : α → α → Bool}

theorem take_merge_take {m n k : Nat} (hn : m ≤ n) (hk : m ≤ k) (xs ys : List α) :
    ((xs.take n).merge (ys.take k) le).take m = (xs.merge ys le).take m := by
  induction m generalizing n k xs ys with
  | zero => simp
  | succ m ih =>
    obtain ⟨n, rfl⟩ : ∃ l, n = l + 1 := ⟨n - 1, by omega⟩
    obtain ⟨k, rfl⟩ : ∃ l, k = l + 1 := ⟨k - 1, by omega⟩
    match xs, ys with
    | [], ys => simp [take_take, Nat.min_eq_left hk]
    | x :: xs, [] => simp [take_take, Nat.min_eq_left (show m ≤ n by omega)]
    | x :: xs, y :: ys =>
      by_cases hle : le x y = true
      · have hrest := ih (show m ≤ n by omega) (show m ≤ k + 1 by omega) xs (y :: ys)
        rw [take_succ_cons] at hrest
        simp [hle, hrest]
      · have hrest := ih (show m ≤ n + 1 by omega) (show m ≤ k by omega) (x :: xs) ys
        rw [take_succ_cons] at hrest
        simp [hle, hrest]

end

section

variable {α : Type u} {κ : Type v} [LinearOrder κ] (key : α → κ)

def le (a b : α) : Bool := decide (key a ≤ key b)

def IsRanked (l : List α) : Prop := l.Pairwise fun a b => key a ≤ key b

def mergeAll (parts : List (List α)) : List α := parts.foldr (fun part merged => part.merge merged (le key)) []

def rank (l : List α) : List α := l.insertionSort fun a b => key a ≤ key b

variable {key}

theorem take_mergeAll {m n : Nat} (h : m ≤ n) (parts : List (List α)) :
    (mergeAll key (parts.map (·.take n))).take m = (mergeAll key parts).take m := by
  induction parts with
  | nil => rfl
  | cons part parts ih =>
    have hcut : ∀ xs ys : List α,
        ((xs.take m).merge (ys.take m) (le key)).take m = (xs.merge ys (le key)).take m :=
      take_merge_take (Nat.le_refl m) (Nat.le_refl m)
    calc (mergeAll key ((part :: parts).map (·.take n))).take m
        = ((part.take n).merge (mergeAll key (parts.map (·.take n))) (le key)).take m := rfl
      _ = ((part.take m).merge ((mergeAll key parts).take m) (le key)).take m := by
        rw [← hcut, take_take, Nat.min_eq_left h, ih]
      _ = (part.merge (mergeAll key parts) (le key)).take m := hcut part _

theorem mergeAll_perm (parts : List (List α)) : (mergeAll key parts).Perm parts.flatten := by
  induction parts with
  | nil => exact Perm.refl _
  | cons part parts ih => exact (merge_perm_append (le key)).trans (ih.append_left part)

variable {parts : List (List α)}

theorem isRanked_mergeAll (h : ∀ part ∈ parts, IsRanked key part) :
    IsRanked key (mergeAll key parts) := by
  induction parts with
  | nil => exact List.Pairwise.nil
  | cons part parts ih =>
    rw [forall_mem_cons] at h
    have htrans : ∀ a b c : α, le key a b = true → le key b c = true → le key a c = true := by
      intro a b c hab hbc
      simp only [le, decide_eq_true_eq] at hab hbc ⊢
      exact hab.trans hbc
    have htotal : ∀ a b : α, (le key a b || le key b a) = true := by
      intro a b
      simp only [le, Bool.or_eq_true, decide_eq_true_eq]
      exact le_total (key a) (key b)
    have hmerged := pairwise_merge htrans htotal part (mergeAll key parts)
      (h.1.imp fun hab => by simpa [le] using hab) ((ih h.2).imp fun hab => by simpa [le] using hab)
    exact hmerged.imp fun hab => by simpa [le] using hab

theorem rank_perm (l : List α) : (rank key l).Perm l := perm_insertionSort _ l

theorem isRanked_rank (l : List α) : IsRanked key (rank key l) := by
  exact pairwise_insertionSort _ l

theorem eq_of_isRanked {l l' : List α} (hperm : l.Perm l') (hl : IsRanked key l) (hl' : IsRanked key l')
    (hkeys : (l.map key).Nodup) : l = l' := by
  refine Perm.eq_of_pairwise ?_ hl hl' hperm
  intro a b ha hb hab hba
  exact inj_on_of_nodup_map hkeys ha (hperm.mem_iff.mpr hb) (le_antisymm hab hba)

theorem eq_mergeAll {l : List α} (hperm : l.Perm parts.flatten)
    (hparts : ∀ part ∈ parts, IsRanked key part) (hkeys : (l.map key).Nodup) : rank key l = mergeAll key parts := by
  have hsorted : (rank key l).Perm l := rank_perm l
  apply eq_of_isRanked (hsorted.trans (hperm.trans (mergeAll_perm parts).symm)) (isRanked_rank l)
    (isRanked_mergeAll hparts)
  exact (hsorted.map key).nodup_iff.mpr hkeys

end

variable {α : Type u}

/-- The page number `k`, from 0, of so many elements each. -/
def page (size k : Nat) (l : List α) : List α := (l.drop (k * size)).take size

theorem flatMap_page (size n : Nat) (l : List α) :
    (range n).flatMap (fun k => page size k l) = l.take (n * size) := by
  induction n with
  | zero => simp
  | succ n ih =>
    rw [range_succ, flatMap_append, ih, Nat.succ_mul, take_add]
    simp [page]

theorem flatMap_page_eq {size n : Nat} {l : List α} (h : l.length ≤ n * size) :
    (range n).flatMap (fun k => page size k l) = l := by
  rw [flatMap_page, take_of_length_le h]

variable {block : Nat → List α}

/-- Pages that are cut out of blocks of `count` pages each: the blocks that are read through,
    and the beginning of the next one. -/
theorem flatMap_block {size count : Nat} (hcount : 0 < count)
    (hblock : ∀ k, (block k).length ≤ count * size) (n : Nat) :
    (range n).flatMap (fun p => page size (p % count) (block (p / count))) =
      (range (n / count)).flatMap block ++ (block (n / count)).take (n % count * size) := by
  induction n with
  | zero => simp
  | succ n ih =>
    have hstep : (block (n / count)).take (n % count * size) ++ page size (n % count) (block (n / count)) =
        (block (n / count)).take ((n % count + 1) * size) := by
      rw [page, Nat.succ_mul, take_add]
    have hnow := Nat.div_add_mod n count
    rw [range_succ, flatMap_append, ih, flatMap_singleton, append_assoc, hstep]
    by_cases hlast : n % count + 1 = count
    · have hnext : n + 1 = count * (n / count + 1) := by
        rw [Nat.mul_add, Nat.mul_one]
        omega
      have hdiv : (n + 1) / count = n / count + 1 := by rw [hnext, Nat.mul_div_cancel_left _ hcount]
      have hmod : (n + 1) % count = 0 := by rw [hnext, Nat.mul_mod_right]
      rw [hdiv, hmod, Nat.zero_mul, take_zero, append_nil, range_succ, flatMap_append,
        flatMap_singleton, hlast, take_of_length_le (hblock _)]
    · have hlt : n % count < count := Nat.mod_lt n hcount
      have hsame : (n + 1) / count = n / count ∧ (n + 1) % count = n % count + 1 := by
        rw [Nat.div_mod_unique hcount]
        exact ⟨by omega, by omega⟩
      rw [hsame.1, hsame.2]

theorem flatMap_range_of_nil {m n : Nat} (h : ∀ k, m ≤ k → block k = []) (hmn : m ≤ n) :
    (range n).flatMap block = (range m).flatMap block := by
  obtain ⟨d, rfl⟩ := Nat.exists_eq_add_of_le hmn
  rw [range_add, flatMap_append, flatMap_map]
  have hrest : (range d).flatMap (fun k => block (m + k)) = [] := by
    rw [flatMap_eq_nil_iff]
    intro k _
    exact h (m + k) (by omega)
  rw [hrest, append_nil]

/-- The blocks of `total` elements at most, of which each may have lost some: pages that are
    cut out of the blocks make up the blocks, once there are enough of them. -/
theorem flatMap_block_eq {size count total n m : Nat} (hcount : 0 < count)
    (hblock : ∀ k, (block k).length ≤ min (count * size) (total - k * (count * size)))
    (hn : total ≤ n * size) (hm : total ≤ m * (count * size)) :
    (range n).flatMap (fun p => page size (p % count) (block (p / count))) = (range m).flatMap block := by
  have hempty : ∀ k, total ≤ k * (count * size) → block k = [] := by
    intro k hk
    have hlength := hblock k
    exact length_eq_zero_iff.mp (by omega)
  have hread : total - n / count * (count * size) ≤ n % count * size := by
    have hsplit : n * size = n / count * (count * size) + n % count * size := by
      rw [← Nat.mul_assoc, ← Nat.add_mul, Nat.div_add_mod']
    omega
  have hlast : (block (n / count)).take (n % count * size) = block (n / count) :=
    take_of_length_le ((hblock _).trans (by omega))
  have hafter : ∀ k, n / count + 1 ≤ k → total ≤ k * (count * size) := by
    intro k hk
    have hmod : n % count * size ≤ count * size := Nat.mul_le_mul_right size (Nat.mod_lt n hcount).le
    have hmul : (n / count + 1) * (count * size) ≤ k * (count * size) := Nat.mul_le_mul_right _ hk
    rw [Nat.succ_mul] at hmul
    omega
  have hmany : ∀ k, m ≤ k → total ≤ k * (count * size) := fun k hk => hm.trans (Nat.mul_le_mul_right _ hk)
  calc (range n).flatMap (fun p => page size (p % count) (block (p / count)))
      = (range (n / count)).flatMap block ++ (block (n / count)).take (n % count * size) :=
        flatMap_block hcount (fun k => (hblock k).trans (Nat.min_le_left _ _)) n
    _ = (range (n / count + 1)).flatMap block := by
        rw [hlast, range_succ, flatMap_append, flatMap_singleton]
    _ = (range (max (n / count + 1) m)).flatMap block :=
        (flatMap_range_of_nil (fun k hk => hempty k (hafter k hk)) (Nat.le_max_left _ _)).symm
    _ = (range m).flatMap block :=
        flatMap_range_of_nil (fun k hk => hempty k (hmany k hk)) (Nat.le_max_right _ _)

end MultiRag.Ranked
