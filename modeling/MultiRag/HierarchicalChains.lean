/-
  **The index chains of `hierarchical_merge`.**

  A chain is the stack of the last headings before a section (`chainOf_eq`). A heading on it
  encloses the section exactly where it exceeds all headings after it (`encloses_iff`): all do
  where the headings are `Unbroken`.
-/
import Mathlib.Data.List.GetD
import MultiRag.HierarchicalMerge

namespace MultiRag.HierarchicalMerge

open Bullets Descents List

/-! ### The search -/

def lastBefore (arr : List Nat) (j : Nat) : Option Nat := (arr.filter (· < j)).getLast?

variable {arr : List Nat} {i : Nat} (hsorted : arr.Pairwise (· < ·))
include hsorted

theorem getElem_lt {k : Nat} (hik : i < k) (hk : k < arr.length) :
    arr[i] < arr[k] :=
  pairwise_iff_getElem.mp hsorted i k (by omega) hk hik

variable {j : Nat}

theorem lastBefore_eq_getElem {s : Nat} (hs : s < arr.length)
    (hlow : arr[s] < j) (hhigh : ∀ h : s + 1 < arr.length, j < arr[s + 1]) :
    lastBefore arr j = some arr[s] := by
  have hbefore : (arr.take (s + 1)).filter (· < j) = arr.take (s + 1) := by
    rw [List.filter_eq_self]
    intro x hx
    obtain ⟨i, hi, rfl⟩ := getElem_of_mem hx
    rw [getElem_take, decide_eq_true_eq]
    rw [length_take] at hi
    rcases Nat.lt_or_ge i s with his | his
    · have hless := getElem_lt hsorted his hs
      omega
    · have heq : i = s := by omega
      subst heq
      exact hlow
  have hafter : (arr.drop (s + 1)).filter (· < j) = [] := by
    rw [filter_eq_nil_iff]
    intro x hx
    obtain ⟨i, hi, rfl⟩ := getElem_of_mem hx
    rw [getElem_drop, decide_eq_true_eq, Nat.not_lt]
    rw [length_drop] at hi
    have hnext := hhigh (by omega)
    rcases Nat.eq_zero_or_pos i with rfl | hi0
    · exact Nat.le_of_lt hnext
    · have hless := getElem_lt hsorted (i := s + 1) (k := s + 1 + i) (by omega) (by omega)
      omega
  have hsplit : arr.filter (· < j) = (arr.take (s + 1)).filter (· < j) ++ (arr.drop (s + 1)).filter (· < j) := by
    rw [← filter_append, take_append_drop]
  rw [lastBefore, hsplit, hbefore, hafter, append_nil, getLast?_take, if_neg (by omega)]
  simp [hs]

theorem searchLoop_eq (hj : j ∉ arr) (rounds s e : Nat)
    (hrounds : e - s ≤ rounds + 1) (hse : s < e) (he : e ≤ arr.length) (hlow : arr[s] < j)
    (hhigh : ∀ h : e < arr.length, j < arr[e]) :
    ∃ i, searchLoop arr j rounds s e = some i ∧ arr[i]? = lastBefore arr j ∧ (lastBefore arr j).isSome := by
  induction rounds generalizing s e with
  | zero =>
    have hstop : e = s + 1 := by omega
    subst hstop
    have hlast := lastBefore_eq_getElem hsorted (by omega) hlow hhigh
    exact ⟨s, rfl, by rw [hlast, getElem?_eq_getElem], by rw [hlast]; rfl⟩
  | succ rounds ih =>
    rw [searchLoop]
    by_cases hwide : 1 < e - s
    · have hmid : (e + s) / 2 < arr.length := by omega
      rw [if_pos hwide, getElem?_eq_getElem hmid]
      dsimp only
      have hne : arr[(e + s) / 2] ≠ j := by
        intro heq
        exact hj (heq ▸ getElem_mem hmid)
      by_cases hless : arr[(e + s) / 2] < j
      · rw [if_pos hless]
        exact ih _ _ (by omega) (by omega) he hless hhigh
      · rw [if_neg hless, if_pos (by omega)]
        exact ih _ _ (by omega) (by omega) (by omega) hlow (by intro _; omega)
    · have hstop : e = s + 1 := by omega
      subst hstop
      have hlast := lastBefore_eq_getElem hsorted (by omega) hlow hhigh
      rw [if_neg hwide]
      exact ⟨s, rfl, by rw [hlast, getElem?_eq_getElem], by rw [hlast]; rfl⟩

omit hsorted

theorem lastBefore_eq_none (h : ∀ x ∈ arr, ¬ x < j) : lastBefore arr j = none := by
  rw [lastBefore, filter_eq_nil_iff.mpr (by simpa using h)]
  rfl

theorem binarySearch_eq (hsorted : arr.Pairwise (· < ·)) (hj : j ∉ arr) :
    (binarySearch arr j = some (-1) ∧ lastBefore arr j = none) ∨
      ∃ i : Nat, binarySearch arr j = some (i : Int) ∧ arr[i]? = lastBefore arr j ∧ (lastBefore arr j).isSome := by
  rcases arr with - | ⟨first, rest⟩
  · exact .inl ⟨rfl, rfl⟩
  · generalize harr : first :: rest = arr at hsorted hj ⊢
    have hne : arr ≠ [] := by simp [← harr]
    have hlength : 0 < arr.length := length_pos_iff.mpr hne
    have hhead : arr.head? = some arr[0] := by simp [← harr]
    have hlast : arr.getLast? = some arr[arr.length - 1] := by
      rw [List.getLast?_eq_getElem?, getElem?_eq_getElem]
    rw [binarySearch, hhead, hlast]
    dsimp only
    by_cases hafter : arr[arr.length - 1] < j
    · rw [if_pos hafter]
      refine .inr ⟨arr.length - 1, by rw [Int.ofNat_sub hlength]; rfl, ?_⟩
      rw [lastBefore_eq_getElem hsorted (by omega) hafter (by intro h; omega),
        getElem?_eq_getElem (by omega)]
      exact ⟨rfl, rfl⟩
    · rw [if_neg hafter]
      by_cases hbefore : j < arr[0]
      · rw [if_pos hbefore]
        refine .inl ⟨rfl, lastBefore_eq_none ?_⟩
        intro x hx
        obtain ⟨i, hi, rfl⟩ := getElem_of_mem hx
        rcases Nat.eq_zero_or_pos i with rfl | hi0
        · omega
        · have hless := getElem_lt hsorted hi0 hi
          omega
      · rw [if_neg hbefore]
        have hfirst : arr[0] ≠ j := by
          intro heq
          exact hj (heq ▸ getElem_mem hlength)
        obtain ⟨i, hsearch, hi⟩ := searchLoop_eq hsorted hj arr.length 0 arr.length (by omega) hlength
          le_rfl (by omega) (by intro h; omega)
        exact .inr ⟨i, by rw [hsearch]; rfl, hi⟩

theorem attach_eq (hsorted : arr.Pairwise (· < ·)) (hj : j ∉ arr) (chain : List Nat) :
    attach j chain arr = some ((lastBefore arr j).elim chain (push chain)) := by
  rcases binarySearch_eq hsorted hj with ⟨hsearch, hlast⟩ | ⟨i, hsearch, hi, hsome⟩
  · rw [attach, hsearch, hlast]
    rfl
  · obtain ⟨heading, hhead⟩ := Option.isSome_iff_exists.mp hsome
    rw [attach, hsearch, Option.bind_eq_bind, Option.bind_some, if_neg (by omega), pyItem, if_pos (by omega),
      Int.toNat_natCast, hi, hhead]
    rfl

/-! ### Last headings -/

variable {ranks : List Nat} {level : Nat}

theorem mem_positions :
    i ∈ positions ranks level ↔ i < ranks.length ∧ ranks.getD i 0 = level := by
  rw [positions, List.mem_filter, mem_range, decide_eq_true_eq]

theorem positions_sorted (ranks : List Nat) (level : Nat) : (positions ranks level).Pairwise (· < ·) :=
  pairwise_lt_range.filter _

variable {x : Nat}

theorem lastBefore_max (hsorted : arr.Pairwise (· < ·)) (h : lastBefore arr j = some x) :
    x ∈ arr ∧ x < j ∧ ∀ y ∈ arr, y < j → y ≤ x := by
  have hfilter := hsorted.filter (· < j)
  rw [lastBefore, getLast?_eq_some_iff] at h
  obtain ⟨before, hbefore⟩ := h
  have hx : x ∈ arr.filter (· < j) := by simp [hbefore]
  rw [List.mem_filter, decide_eq_true_eq] at hx
  refine ⟨hx.1, hx.2, ?_⟩
  intro y hy hyj
  have hmem : y ∈ arr.filter (· < j) := List.mem_filter.mpr ⟨hy, by simpa using hyj⟩
  rw [hbefore] at hmem hfilter
  rcases mem_append.mp hmem with hearlier | hlast
  · exact Nat.le_of_lt ((pairwise_append.mp hfilter).2.2 y hearlier x mem_cons_self)
  · exact Nat.le_of_eq (mem_singleton.mp hlast)

theorem exists_lastBefore (hx : x ∈ arr) (hxj : x < j) :
    ∃ last, lastBefore arr j = some last := by
  rw [← Option.isSome_iff_exists, lastBefore, getLast?_isSome]
  exact ne_nil_of_mem (List.mem_filter.mpr ⟨hx, by simpa using hxj⟩)

theorem lastBefore_positions (hj : j < ranks.length) :
    lastBefore (positions ranks level) j = some x ↔
      ranks.getD x 0 = level ∧ x < j ∧ ∀ k, x < k → k < j → ranks.getD k 0 ≠ level := by
  have hsorted := positions_sorted ranks level
  constructor
  · intro h
    obtain ⟨hx, hxj, hmax⟩ := lastBefore_max hsorted h
    refine ⟨(mem_positions.mp hx).2, hxj, ?_⟩
    intro k hxk hkj hk
    have hle := hmax k (mem_positions.mpr ⟨by omega, hk⟩) hkj
    omega
  · rintro ⟨hx, hxj, hnone⟩
    have hmem : x ∈ positions ranks level := mem_positions.mpr ⟨by omega, hx⟩
    obtain ⟨last, hlast⟩ := exists_lastBefore hmem hxj
    obtain ⟨hmemlast, hlastj, hmax⟩ := lastBefore_max hsorted hlast
    rw [hlast]
    have hle := hmax x hmem hxj
    rcases Nat.lt_or_ge x last with hless | hge
    · exact absurd (mem_positions.mp hmemlast).2 (hnone last hless hlastj)
    · rw [Nat.le_antisymm hge hle]

def headings (ranks : List Nat) (level j : Nat) : List Nat :=
  (levelsBackwards ranks level).filterMap (lastBefore · j)

theorem levelsBackwards_succ (ranks : List Nat) (count : Nat) :
    levelsBackwards ranks (count + 1) = positions ranks count :: levelsBackwards ranks count := by
  rw [levelsBackwards, range_succ, map_append, reverse_append]
  rfl

theorem headings_succ (ranks : List Nat) (level j : Nat) :
    headings ranks (level + 1) j =
      (lastBefore (positions ranks level) j).toList ++ headings ranks level j := by
  rw [headings, levelsBackwards_succ, filterMap_cons]
  cases lastBefore (positions ranks level) j with
  | none => rfl
  | some x => rfl

theorem mem_headings :
    x ∈ headings ranks level j ↔ ∃ higher < level, lastBefore (positions ranks higher) j = some x := by
  rw [headings, mem_filterMap]
  constructor
  · rintro ⟨arr, harr, hx⟩
    rw [levelsBackwards, mem_reverse, mem_map] at harr
    obtain ⟨higher, hhigher, rfl⟩ := harr
    exact ⟨higher, mem_range.mp hhigher, hx⟩
  · rintro ⟨higher, hhigher, hx⟩
    refine ⟨positions ranks higher, ?_, hx⟩
    rw [levelsBackwards, mem_reverse]
    exact mem_map_of_mem (mem_range.mpr hhigher)

theorem mem_headings_iff (hj : j < ranks.length) :
    x ∈ headings ranks level j ↔
      ranks.getD x 0 < level ∧ x < j ∧ ∀ k, x < k → k < j → ranks.getD k 0 ≠ ranks.getD x 0 := by
  rw [mem_headings]
  constructor
  · rintro ⟨higher, hhigher, hx⟩
    obtain ⟨rfl, hxj, hlast⟩ := (lastBefore_positions hj).mp hx
    exact ⟨hhigher, hxj, hlast⟩
  · rintro ⟨hlevel, hxj, hlast⟩
    exact ⟨_, hlevel, (lastBefore_positions hj).mpr ⟨rfl, hxj, hlast⟩⟩

variable {rest : List Nat}

theorem headings_suffix (hj : j < ranks.length) (h : x :: rest <:+ headings ranks level j) :
    rest = headings ranks (ranks.getD x 0) j := by
  induction level with
  | zero => simp [headings, levelsBackwards] at h
  | succ level ih =>
    rw [headings_succ] at h
    cases hlast : lastBefore (positions ranks level) j with
    | none =>
      rw [hlast] at h
      exact ih h
    | some first =>
      rw [hlast] at h
      rcases suffix_cons_iff.mp h with heq | hlater
      · obtain ⟨rfl, rfl⟩ := List.cons.inj heq
        rw [((lastBefore_positions hj).mp hlast).1]
        rfl
      · exact ih hlater

theorem headings_nodup (level : Nat) (hj : j < ranks.length) :
    (headings ranks level j).Nodup := by
  induction level with
  | zero => simp [headings, levelsBackwards]
  | succ level ih =>
    rw [headings_succ]
    cases hlast : lastBefore (positions ranks level) j with
    | none => exact ih
    | some first =>
      rw [Option.toList_some, singleton_append, nodup_cons]
      refine ⟨?_, ih⟩
      intro hmem
      have hlevel := ((mem_headings_iff hj).mp hmem).1
      rw [((lastBefore_positions hj).mp hlast).1] at hlevel
      exact Nat.lt_irrefl _ hlevel

/-! ### Chains -/

theorem levelsBackwards_length (ranks : List Nat) (count : Nat) : (levelsBackwards ranks count).length = count := by
  simp [levelsBackwards]

theorem levelsBackwards_drop (ranks : List Nat) (count i : Nat) :
    (levelsBackwards ranks count).drop i = levelsBackwards ranks (count - i) := by
  rw [levelsBackwards, drop_reverse, length_map, length_range, ← map_take, take_range,
    Nat.min_eq_left (Nat.sub_le count i)]
  rfl

theorem foldlM_attach {arrs : List (List Nat)} (h : ∀ arr ∈ arrs, arr.Pairwise (· < ·) ∧ j ∉ arr)
    (chain : List Nat) :
    arrs.foldlM (attach j) chain = some ((arrs.filterMap (lastBefore · j)).foldl push chain) := by
  induction arrs generalizing chain with
  | nil => rfl
  | cons arr arrs ih =>
    obtain ⟨hsorted, hj⟩ := h arr mem_cons_self
    have hrest := ih (fun other hother => h other (mem_cons_of_mem arr hother))
    rw [foldlM_cons, attach_eq hsorted hj, Option.bind_eq_bind, Option.bind_some, hrest, filterMap_cons]
    cases lastBefore arr j with
    | none => rfl
    | some heading => rfl

theorem not_mem_levelsBackwards (hlevel : level ≤ ranks.getD j 0)
    (harr : arr ∈ levelsBackwards ranks level) : arr.Pairwise (· < ·) ∧ j ∉ arr := by
  rw [levelsBackwards, mem_reverse, mem_map] at harr
  obtain ⟨higher, hhigher, rfl⟩ := harr
  refine ⟨positions_sorted ranks higher, ?_⟩
  intro hj
  have hhigher := mem_range.mp hhigher
  have hsame := (mem_positions.mp hj).2
  omega

variable {count : Nat}

theorem chainOf_eq (hi : i + 1 + ranks.getD j 0 = count) (hj : j < ranks.length) :
    chainOf (levelsBackwards ranks count) i j =
      some (if ranks.getD j 0 = 1 then [j]
        else (descents (headings ranks (ranks.getD j 0) j)).reverse ++ [j]) := by
  rw [chainOf, levelsBackwards_length]
  by_cases hone : ranks.getD j 0 = 1
  · rw [if_pos (by omega), if_pos hone]
  · have hlevel : count - (i + 1) = ranks.getD j 0 := by omega
    have hhead : ∀ y ∈ (headings ranks (ranks.getD j 0) j).head?, ¬ j < y := by
      intro y hy
      have hbefore := ((mem_headings_iff hj).mp (mem_of_mem_head? hy)).2.1
      omega
    have harrs : ∀ arr ∈ levelsBackwards ranks (ranks.getD j 0), arr.Pairwise (· < ·) ∧ j ∉ arr := by
      intro arr harr
      exact not_mem_levelsBackwards le_rfl harr
    rw [if_neg (by omega), if_neg hone, levelsBackwards_drop, hlevel, foldlM_attach harrs, ← headings, foldl_push,
      descents_cons hhead, reverse_cons, append_nil]

/-! ### Enclosing headings -/

/-- No section between them has a higher rank than `a` (the levels count downwards). -/
def Encloses (ranks : List Nat) (a j : Nat) : Prop :=
  ∀ k, a < k → k < j → ranks.getD a 0 ≤ ranks.getD k 0

structure Sound (ranks : List Nat) (j : Nat) (chain : List Nat) : Prop where
  increasing : chain.Pairwise (· < ·)
  encloses : ∀ a ∈ chain, Encloses ranks a j

variable {a : Nat}

section

variable (hj : j < ranks.length)
include hj

theorem encloses_iff (h : a :: rest <:+ headings ranks level j) :
    Encloses ranks a j ↔ ∀ c ∈ rest, c < a := by
  obtain rfl := headings_suffix hj h
  constructor
  · intro hencloses c hc
    obtain ⟨hlevel, hcj, -⟩ := (mem_headings_iff hj).mp hc
    by_contra hge
    rcases Nat.eq_or_lt_of_le (Nat.not_lt.mp hge) with rfl | hac
    · exact Nat.lt_irrefl _ hlevel
    · have hle := hencloses c hac hcj
      omega
  · intro hless k hak hkj
    by_contra hhigher
    obtain ⟨c, hc⟩ := exists_lastBefore (mem_positions.mpr ⟨by omega, rfl⟩ : k ∈ positions ranks (ranks.getD k 0)) hkj
    have hkc := (lastBefore_max (positions_sorted _ _) hc).2.2 k (mem_positions.mpr ⟨by omega, rfl⟩) hkj
    have hca := hless c (mem_headings.mpr ⟨_, Nat.not_le.mp hhigher, hc⟩)
    omega

theorem mem_descents_headings (h : a ∈ descents (headings ranks level j)) :
    a :: headings ranks (ranks.getD a 0) j <:+ headings ranks level j := by
  obtain ⟨rest, hrest, -⟩ := mem_descents_iff.mp h
  rw [← headings_suffix hj hrest]
  exact hrest

theorem sound_iff :
    Sound ranks j ((descents (headings ranks level j)).reverse ++ [j]) ↔ Unbroken (headings ranks level j) := by
  have hnodup := headings_nodup level hj
  constructor
  · intro hsound
    rw [unbroken_iff hnodup]
    intro a rest hrest hnext
    apply (encloses_iff hj hrest).mp
    apply hsound.encloses
    rw [mem_append, mem_reverse]
    exact .inl (mem_descents_iff.mpr ⟨rest, hrest, hnext⟩)
  · intro hunbroken
    constructor
    · rw [pairwise_append, pairwise_reverse]
      refine ⟨hunbroken.pairwise_descents hnodup, pairwise_singleton _ _, ?_⟩
      intro a ha j' hj'
      rw [mem_singleton.mp hj']
      obtain ⟨rest, hrest, -⟩ := mem_descents_iff.mp (mem_reverse.mp ha)
      exact ((mem_headings_iff hj).mp (hrest.subset mem_cons_self)).2.1
    · intro a ha
      rcases mem_append.mp ha with hhead | hself
      · obtain ⟨rest, hrest, hnext⟩ := mem_descents_iff.mp (mem_reverse.mp hhead)
        exact (encloses_iff hj hrest).mpr ((unbroken_iff hnodup).mp hunbroken a rest hrest hnext)
      · intro k hak hkj
        rw [mem_singleton.mp hself] at hak
        omega

theorem headings_of_encloses (haj : a < j) (h : Encloses ranks a j) :
    headings ranks (ranks.getD a 0) j = headings ranks (ranks.getD a 0) a := by
  rw [headings, headings]
  apply filterMap_congr
  intro arr harr
  rw [levelsBackwards, mem_reverse, mem_map] at harr
  obtain ⟨higher, hhigher, rfl⟩ := harr
  have hhigher := mem_range.mp hhigher
  -- between them there is no section of a level above `a`
  apply Option.ext
  intro x
  rw [lastBefore_positions hj, lastBefore_positions (by omega)]
  constructor
  · rintro ⟨rfl, hxj, hlast⟩
    refine ⟨rfl, ?_, fun k hxk hka => hlast k hxk (by omega)⟩
    by_contra hge
    rcases Nat.eq_or_lt_of_le (Nat.not_lt.mp hge) with rfl | hax
    · exact Nat.lt_irrefl _ hhigher
    · have hle := h x hax hxj
      omega
  · rintro ⟨rfl, hxa, hlast⟩
    refine ⟨rfl, by omega, ?_⟩
    intro k hxk hkj
    rcases Nat.lt_trichotomy k a with hka | rfl | hak
    · exact hlast k hxk hka
    · omega
    · have hle := h k hak hkj
      omega

theorem unbroken_of_mem_chain
    (hunbroken : Unbroken (headings ranks level j)) (ha : a ∈ descents (headings ranks level j)) :
    Unbroken (headings ranks (ranks.getD a 0) a) := by
  obtain ⟨rest, hrest, hnext⟩ := mem_descents_iff.mp ha
  have hencloses := (encloses_iff hj hrest).mpr
    ((unbroken_iff (headings_nodup level hj)).mp hunbroken a rest hrest hnext)
  have haj := ((mem_headings_iff hj).mp (hrest.subset mem_cons_self)).2.1
  rw [← headings_of_encloses hj haj hencloses]
  exact hunbroken.suffix ((suffix_cons _ _).trans (mem_descents_headings hj ha))

end

/-! ### The sections that are read -/

/-- The section has one of the first levels, counted from the body text. -/
def Starts (ranks : List Nat) (count : Nat) (depth : Int) (j : Nat) : Prop :=
  j < ranks.length ∧ (count : Int) - 1 - ranks.getD j 0 < if depth < 0 then count + depth else depth

theorem levelsBackwards_getElem? (ranks : List Nat) (count i : Nat) :
    (levelsBackwards ranks count)[i]? = if i < count then some (positions ranks (count - 1 - i)) else none := by
  rw [← head?_drop, levelsBackwards_drop]
  by_cases hi : i < count
  · have hcount : count - i = count - 1 - i + 1 := by omega
    rw [if_pos hi, hcount, levelsBackwards_succ]
    rfl
  · have hcount : count - i = 0 := by omega
    rw [if_neg hi, hcount]
    rfl

theorem mem_visits {depth : Int} :
    (i, j) ∈ visits (levelsBackwards ranks count) depth ↔
      i + 1 + ranks.getD j 0 = count ∧ Starts ranks count depth j := by
  rw [visits, mem_flatMap]
  constructor
  · rintro ⟨⟨arr, i'⟩, harr, hj⟩
    obtain ⟨j', hj', heq⟩ := mem_map.mp hj
    obtain ⟨rfl, rfl⟩ := Prod.mk.inj heq
    rw [mem_zipIdx_iff_getElem?, pyTake, getElem?_take, Option.ite_none_right_eq_some,
      levelsBackwards_getElem?, Option.ite_none_right_eq_some, Option.some.injEq, levelsBackwards_length] at harr
    obtain ⟨hlimit, hi, harr⟩ := harr
    rw [← harr, mem_positions] at hj'
    refine ⟨by omega, hj'.1, ?_⟩
    by_cases hdepth : 0 ≤ depth
    · rw [if_pos hdepth] at hlimit
      rw [if_neg (by omega)]
      omega
    · rw [if_neg hdepth] at hlimit
      rw [if_pos (by omega)]
      omega
  · rintro ⟨hi, hj, hlimit⟩
    refine ⟨(positions ranks (ranks.getD j 0), i), ?_, mem_map.mpr ⟨j, mem_positions.mpr ⟨hj, rfl⟩, rfl⟩⟩
    have hlevel : count - 1 - i = ranks.getD j 0 := by omega
    rw [mem_zipIdx_iff_getElem?, pyTake, getElem?_take, levelsBackwards_getElem?,
      levelsBackwards_length, if_pos (by omega : i < count), hlevel, if_pos]
    by_cases hdepth : 0 ≤ depth
    · rw [if_neg (by omega)] at hlimit
      rw [if_pos hdepth]
      omega
    · rw [if_pos (by omega)] at hlimit
      rw [if_neg hdepth]
      omega

/-- After some visits: each chain is one of them, and all of them have been read in a chain. -/
structure Progress (levels : List (List Nat)) (visited : List (Nat × Nat)) (state : Reading) : Prop where
  chains : ∀ chain ∈ state.cks, ∃ v ∈ visited, chainOf levels v.1 v.2 = some chain
  chained : ∀ k, state.readed k = true → ∃ chain ∈ state.cks, k ∈ chain
  readed : ∀ v ∈ visited, state.readed v.2 = true

variable {levels : List (List Nat)} {visited : List (Nat × Nat)} {state : Reading}

theorem Progress.visit (h : Progress levels visited state) {chain : List Nat}
    (hchain : chainOf levels i j = some chain) (hj : j ∈ chain) :
    ∃ state', HierarchicalMerge.visit levels state (i, j) = some state' ∧
      Progress levels (visited ++ [(i, j)]) state' := by
  rw [HierarchicalMerge.visit]
  by_cases hread : state.readed j = true
  · rw [if_pos hread]
    refine ⟨state, rfl, ?_, h.chained, ?_⟩
    · intro other hother
      obtain ⟨v, hv, hvchain⟩ := h.chains other hother
      exact ⟨v, mem_append_left _ hv, hvchain⟩
    · intro v hv
      rcases mem_append.mp hv with hold | hnew
      · exact h.readed v hold
      · rw [mem_singleton.mp hnew]
        exact hread
  · rw [if_neg hread, hchain]
    refine ⟨_, rfl, ?_, ?_, ?_⟩
    · intro other hother
      rcases mem_append.mp hother with hold | hnew
      · obtain ⟨v, hv, hvchain⟩ := h.chains other hold
        exact ⟨v, mem_append_left _ hv, hvchain⟩
      · rw [mem_singleton.mp hnew]
        exact ⟨(i, j), by simp, hchain⟩
    · intro k hk
      simp only [Bool.or_eq_true, beq_iff_eq, contains_iff_mem] at hk
      rcases hk with (hold | rfl) | hnew
      · obtain ⟨other, hother, hmem⟩ := h.chained k hold
        exact ⟨other, mem_append_left _ hother, hmem⟩
      · exact ⟨chain, by simp, hj⟩
      · exact ⟨chain, by simp, hnew⟩
    · intro v hv
      rcases mem_append.mp hv with hold | hnew
      · simp [h.readed v hold]
      · simp [mem_singleton.mp hnew]

theorem Progress.foldlM {rest : List (Nat × Nat)} (h : Progress levels visited state)
    (hrest : ∀ v ∈ rest, ∃ chain, chainOf levels v.1 v.2 = some chain ∧ v.2 ∈ chain) :
    ∃ state', rest.foldlM (HierarchicalMerge.visit levels) state = some state' ∧
      Progress levels (visited ++ rest) state' := by
  induction rest generalizing visited state with
  | nil => exact ⟨state, rfl, by rwa [append_nil]⟩
  | cons v rest ih =>
    obtain ⟨chain, hchain, hv⟩ := hrest v mem_cons_self
    obtain ⟨next, hnext, hprog⟩ := h.visit hchain hv
    obtain ⟨last, hlast, hprog⟩ := ih hprog (fun w hw => hrest w (mem_cons_of_mem v hw))
    refine ⟨last, ?_, by rwa [append_assoc] at hprog⟩
    rw [foldlM_cons, hnext]
    exact hlast

def sectionChain (ranks : List Nat) (j : Nat) : List Nat :=
  if ranks.getD j 0 = 1 then [j] else (descents (headings ranks (ranks.getD j 0) j)).reverse ++ [j]

theorem mem_sectionChain_self (ranks : List Nat) (j : Nat) : j ∈ sectionChain ranks j := by
  rw [sectionChain]
  split
  · simp
  · simp

theorem sectionChain_getLast? (ranks : List Nat) (j : Nat) : (sectionChain ranks j).getLast? = some j := by
  rw [sectionChain]
  split
  · rfl
  · simp

theorem indexChains_spec (depth : Int) (hranks : ∀ rank ∈ ranks, rank < count) :
    ∃ chains, indexChains (levelsBackwards ranks count) depth = some chains ∧
      (∀ chain ∈ chains, ∃ j, Starts ranks count depth j ∧ chain = sectionChain ranks j) ∧
      ∀ j, Starts ranks count depth j → ∃ chain ∈ chains, j ∈ chain := by
  have hchain : ∀ v ∈ visits (levelsBackwards ranks count) depth,
      chainOf (levelsBackwards ranks count) v.1 v.2 = some (sectionChain ranks v.2) := by
    rintro ⟨i, j⟩ hv
    obtain ⟨hi, hj, -⟩ := mem_visits.mp hv
    exact chainOf_eq hi hj
  have hempty : Progress (levelsBackwards ranks count) [] ⟨fun _ => false, []⟩ := ⟨by simp, by simp, by simp⟩
  obtain ⟨state, hstate, hprog⟩ := hempty.foldlM
    (fun v hv => ⟨_, hchain v hv, mem_sectionChain_self ranks v.2⟩)
  refine ⟨state.cks, by rw [indexChains, hstate]; rfl, ?_, ?_⟩
  · intro chain hmem
    obtain ⟨v, hv, hvchain⟩ := hprog.chains chain hmem
    refine ⟨v.2, (mem_visits.mp hv).2, ?_⟩
    rw [hchain v hv] at hvchain
    exact (Option.some.inj hvchain).symm
  · intro j hj
    have hrank : ranks.getD j 0 < count := by
      rw [getD_eq_getElem _ _ hj.1]
      exact hranks _ (getElem_mem _)
    have hv : (count - 1 - ranks.getD j 0, j) ∈ visits (levelsBackwards ranks count) depth :=
      mem_visits.mpr ⟨by omega, hj⟩
    exact hprog.chained j (hprog.readed _ hv)

/-! ### All chains -/

/-- All chains are sound exactly where the headings of all sections that are read are unbroken;
    a section of the level next to the highest gets no headings. -/
theorem indexChains_sound_iff (depth : Int) (hranks : ∀ rank ∈ ranks, rank < count) :
    ∃ chains, indexChains (levelsBackwards ranks count) depth = some chains ∧
      ((∀ chain ∈ chains, ∃ j ∈ chain.getLast?, Sound ranks j chain) ↔
        ∀ j, Starts ranks count depth j → ranks.getD j 0 ≠ 1 →
          Unbroken (headings ranks (ranks.getD j 0) j)) := by
  obtain ⟨chains, hchains, hstarts, hread⟩ := indexChains_spec depth hranks
  refine ⟨chains, hchains, ?_⟩
  constructor
  · intro hsound j hj hlevel
    obtain ⟨chain, hchain, hmem⟩ := hread j hj
    obtain ⟨start, hstart, rfl⟩ := hstarts chain hchain
    obtain ⟨last, hlast, hlastSound⟩ := hsound _ hchain
    rw [sectionChain_getLast?] at hlast
    obtain rfl := Option.some.inj hlast
    rw [sectionChain] at hmem hlastSound
    by_cases hone : ranks.getD start 0 = 1
    · rw [if_pos hone] at hmem
      rw [mem_singleton.mp hmem] at hlevel
      exact absurd hone hlevel
    · rw [if_neg hone] at hmem hlastSound
      have hunbroken := (sound_iff hstart.1).mp hlastSound
      rcases mem_append.mp hmem with hhead | hself
      · exact unbroken_of_mem_chain hstart.1 hunbroken (mem_reverse.mp hhead)
      · rw [mem_singleton.mp hself]
        exact hunbroken
  · intro hunbroken chain hchain
    obtain ⟨j, hj, rfl⟩ := hstarts chain hchain
    refine ⟨j, sectionChain_getLast? ranks j, ?_⟩
    rw [sectionChain]
    by_cases hone : ranks.getD j 0 = 1
    · rw [if_pos hone]
      refine ⟨pairwise_singleton _ _, ?_⟩
      intro a ha k hak hkj
      rw [mem_singleton.mp ha] at hak
      omega
    · rw [if_neg hone]
      exact (sound_iff hj.1).mpr (hunbroken j hj hone)

theorem levelOf_lt (patterns : List Regex) (sec : String × String) : levelOf patterns sec < patterns.length + 2 := by
  rw [levelOf]
  split
  · next hmatch =>
    have hlt := firstMatch_lt hmatch
    omega
  · split <;> omega

def keptRanks (patterns : List Regex) (sections : Sections) : List Nat :=
  (kept sections).map (levelOf patterns)

/-- Every chain increases and has only enclosing headings, exactly where the last heading of a
    level before a section that is read, if it exceeds that of the next level, exceeds those of
    all levels above. -/
theorem hierarchical_chains_sound_iff (patterns : List Regex) (sections : Sections) (depth : Int) :
    ∃ chains, chainsOf patterns (kept sections) depth = some chains ∧
      ((∀ chain ∈ chains, ∃ j ∈ chain.getLast?, Sound (keptRanks patterns sections) j chain) ↔
        ∀ j, Starts (keptRanks patterns sections) (patterns.length + 2) depth j →
          (keptRanks patterns sections).getD j 0 ≠ 1 →
          Unbroken (headings (keptRanks patterns sections) ((keptRanks patterns sections).getD j 0) j)) := by
  apply indexChains_sound_iff
  intro rank hrank
  obtain ⟨sec, -, rfl⟩ := mem_map.mp hrank
  exact levelOf_lt patterns sec

/-- A chapter after a section and an article: the chapter takes only the section off the stack. -/
def invertedSections : Sections := .plain ["第一节 一", "第一条 甲", "第二章 二", "正文"]

theorem inverted_chain :
    chainsOf (bulletPattern.getD 0 []) (kept invertedSections) 5 = some [[2, 1, 3], [0]] ∧
      ¬ [2, 1, 3].Pairwise (· < ·) ∧ ¬ Encloses (keptRanks (bulletPattern.getD 0 []) invertedSections) 1 3 := by
  refine ⟨by decide +kernel, by decide, ?_⟩
  intro h
  have hchapter := h 2 (by decide) (by decide)
  revert hchapter
  decide +kernel

end MultiRag.HierarchicalMerge
