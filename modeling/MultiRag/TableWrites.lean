/-
  **Upserts and deletions by key.**

  A store that replaces rows by key, and deletes rows by key, is a table under a list
  of `Write`s.
-/
import MultiRag.Table

namespace MultiRag

open List

universe u v

namespace Table

variable {κ : Type v} {ρ : Type u} {key : ρ → κ} [DecidableEq κ]

/-- Two tables with the same rows, in any order. -/
def Same (t t' : Table ρ key) : Prop := ∀ k, t.get? k = t'.get? k

variable {t t' : Table ρ key} {r : ρ}

theorem Same.mem_iff (h : t.Same t') : r ∈ t ↔ r ∈ t' := by
  constructor
  · intro hr
    exact mem_of_get? ((h (key r)).symm.trans (get?_of_mem hr))
  · intro hr
    exact mem_of_get? ((h (key r)).trans (get?_of_mem hr))

theorem same_iff :
    t.Same t' ↔ (∀ r ∈ t.rows, r ∈ t'.rows) ∧ ∀ r ∈ t'.rows, r ∈ t.rows := by
  constructor
  · intro h
    exact ⟨fun r hr => h.mem_iff.mp hr, fun r hr => h.mem_iff.mpr hr⟩
  · rintro ⟨hsub, hsup⟩ k
    apply Option.ext
    intro r
    rw [get?_eq_some, get?_eq_some]
    constructor
    · rintro ⟨hr, hkey⟩
      exact ⟨hsub r hr, hkey⟩
    · rintro ⟨hr, hkey⟩
      exact ⟨hsup r hr, hkey⟩

instance [DecidableEq ρ] (t t' : Table ρ key) : Decidable (t.Same t') :=
  decidable_of_iff _ same_iff.symm

omit [DecidableEq κ] in
theorem eq_iff_rows : t = t' ↔ t.rows = t'.rows := by
  constructor
  · exact congrArg rows
  · intro h
    obtain ⟨rows, hnodup⟩ := t
    cases h
    rfl

instance [DecidableEq ρ] : DecidableEq (Table ρ key) := fun _ _ => decidable_of_iff _ eq_iff_rows.symm

/-! ### Parts of a table -/

def filter (t : Table ρ key) (p : ρ → Bool) : Table ρ key :=
  ⟨t.rows.filter p, Sublist.nodup (Sublist.map key filter_sublist) t.nodup⟩

variable {p : ρ → Bool}

omit [DecidableEq κ] in
@[simp] theorem mem_filter :
    r ∈ t.filter p ↔ r ∈ t ∧ p r = true := List.mem_filter

def mapRows (t : Table ρ key) (f : ρ → ρ) (hf : ∀ r, key (f r) = key r) : Table ρ key :=
  ⟨t.rows.map f, by
    have hkeys : (t.rows.map f).map key = t.rows.map key := by
      rw [map_map]
      exact map_congr_left fun r _ => hf r
    rw [hkeys]
    exact t.nodup⟩

variable {x : ρ}

omit [DecidableEq κ] in
@[simp] theorem mem_mapRows {f : ρ → ρ} {hf : ∀ r, key (f r) = key r} :
    x ∈ t.mapRows f hf ↔ ∃ r ∈ t, f r = x := mem_map

omit [DecidableEq κ] in
theorem filter_eq_self (h : ∀ r ∈ t, p r = true) : t.filter p = t := by
  obtain ⟨rows, hnodup⟩ := t
  simp only [filter, mk.injEq]
  exact List.filter_eq_self.mpr h

omit [DecidableEq κ] in
theorem mapRows_eq_self {f : ρ → ρ} {hf : ∀ r, key (f r) = key r} (h : ∀ r ∈ t, f r = r) :
    t.mapRows f hf = t := by
  obtain ⟨rows, hnodup⟩ := t
  simp only [mapRows, mk.injEq]
  rw [map_congr_left h, map_id']

def sortedBy {α : Type*} [LinearOrder α] (rank : κ → α) (t : Table ρ key) : List ρ :=
  t.rows.insertionSort fun r₁ r₂ => rank (key r₁) ≤ rank (key r₂)

omit [DecidableEq κ] in
theorem mem_sortedBy {α : Type*} [LinearOrder α] {rank : κ → α} :
    r ∈ t.sortedBy rank ↔ r ∈ t := (perm_insertionSort _ _).mem_iff

theorem same_iff_sortedBy {α : Type*} [LinearOrder α] {rank : κ → α}
    (hrank : Function.Injective rank) : t.Same t' ↔ t.sortedBy rank = t'.sortedBy rank := by
  constructor
  · intro h
    have hperm : t.rows.Perm t'.rows := by
      apply (perm_ext_iff_of_nodup t.nodup.of_map t'.nodup.of_map).mpr
      exact fun r => h.mem_iff
    have hsorted : ∀ rows : List ρ, (rows.insertionSort fun r₁ r₂ => rank (key r₁) ≤ rank (key r₂)).Pairwise
        fun r₁ r₂ => rank (key r₁) ≤ rank (key r₂) := by
      intro rows
      exact pairwise_insertionSort _ rows
    refine Perm.eq_of_pairwise ?_ (hsorted t.rows) (hsorted t'.rows)
      ((perm_insertionSort _ _).trans (hperm.trans (perm_insertionSort _ _).symm))
    intro r₁ r₂ h₁ h₂ hle hge
    have hmem : r₂ ∈ t := h.mem_iff.mpr (mem_sortedBy.mp h₂)
    exact eq_of_key (mem_sortedBy.mp h₁) hmem (hrank (le_antisymm hle hge))
  · intro h k
    have hiff : ∀ r, r ∈ t ↔ r ∈ t' := by
      intro r
      calc r ∈ t ↔ r ∈ t.sortedBy rank := mem_sortedBy.symm
        _ ↔ r ∈ t'.sortedBy rank := by rw [h]
        _ ↔ r ∈ t' := mem_sortedBy
    apply Option.ext
    intro r
    simp only [get?_eq_some, hiff]

/-! ### Writes -/

def delete (t : Table ρ key) (k : κ) : Table ρ key := t.filter fun r => key r ≠ k

def upsert (t : Table ρ key) (r : ρ) : Table ρ key :=
  ⟨(t.delete (key r)).rows ++ [r], by
    rw [map_append, map_singleton, ← concat_eq_append]
    refine Nodup.concat ?_ (t.delete (key r)).nodup
    rw [mem_map]
    rintro ⟨x, hx, hkey⟩
    have hne := (mem_filter.mp hx).2
    simp [hkey] at hne⟩

variable {k : κ}

@[simp] theorem mem_delete :
    r ∈ t.delete k ↔ r ∈ t ∧ key r ≠ k := by
  simp [delete]

@[simp] theorem mem_upsert :
    x ∈ t.upsert r ↔ x = r ∨ (x ∈ t ∧ key x ≠ key r) := by
  rw [mem_def, upsert, mem_append, mem_singleton, ← mem_def, mem_delete, or_comm]

theorem get?_delete (t : Table ρ key) (k k' : κ) :
    (t.delete k).get? k' = if k = k' then none else t.get? k' := by
  split
  · next heq =>
    subst heq
    rw [get?_eq_none]
    exact fun r hr => (mem_delete.mp hr).2
  · next hne =>
    rcases hget : t.get? k' with _ | x
    · rw [get?_eq_none] at hget ⊢
      exact fun r hr => hget r (mem_delete.mp hr).1
    · obtain ⟨hx, hkey⟩ := get?_eq_some.mp hget
      refine get?_eq_some.mpr ⟨mem_delete.mpr ⟨hx, ?_⟩, hkey⟩
      rw [hkey]
      exact Ne.symm hne

theorem get?_insert?_of_ne (h : t.insert? r = some t') (hk : k ≠ key r) : t'.get? k = t.get? k := by
  rcases hget : t.get? k with _ | x
  · rw [get?_eq_none] at hget ⊢
    intro x hx
    rcases (mem_insert? h).mp hx with rfl | hold
    · exact Ne.symm hk
    · exact hget x hold
  · obtain ⟨hx, hkey⟩ := get?_eq_some.mp hget
    exact get?_eq_some.mpr ⟨(mem_insert? h).mpr (.inr hx), hkey⟩

theorem get?_upsert (t : Table ρ key) (r : ρ) (k : κ) :
    (t.upsert r).get? k = if key r = k then some r else t.get? k := by
  split
  · next heq => exact get?_eq_some.mpr ⟨mem_upsert.mpr (.inl rfl), heq⟩
  · next hne =>
    rcases hget : t.get? k with _ | x
    · rw [get?_eq_none] at hget ⊢
      intro x hx hkey
      rcases mem_upsert.mp hx with rfl | ⟨hold, -⟩
      · exact hne hkey
      · exact hget x hold hkey
    · obtain ⟨hx, hkey⟩ := get?_eq_some.mp hget
      refine get?_eq_some.mpr ⟨mem_upsert.mpr (.inr ⟨hx, ?_⟩), hkey⟩
      rw [hkey]
      exact Ne.symm hne

/-- `dict.update`: the rows of the second table count. -/
def update (t t' : Table ρ key) : Table ρ key := t'.rows.foldl upsert t

def mergeWith (combine : Option ρ → ρ → ρ) (t t' : Table ρ key) : Table ρ key :=
  t'.rows.foldl (fun merged r => merged.upsert (combine (merged.get? (key r)) r)) t

variable {combine : Option ρ → ρ → ρ}

theorem isSome_get?_mergeWith (hkey : ∀ old r, key (combine old r) = key r) (t t' : Table ρ key)
    (k : κ) :
    ((t.mergeWith combine t').get? k).isSome = true ↔
      (t.get? k).isSome = true ∨ (t'.get? k).isSome = true := by
  have hrows : ∀ (rows : List ρ) (t : Table ρ key),
      ((rows.foldl (fun merged r => merged.upsert (combine (merged.get? (key r)) r)) t).get?
        k).isSome = true ↔ (t.get? k).isSome = true ∨ ∃ r ∈ rows, key r = k := by
    intro rows
    induction rows with
    | nil => simp
    | cons r rest ih =>
      intro t
      rw [foldl_cons, ih, get?_upsert, hkey]
      by_cases heq : key r = k
      · simp [heq]
      · simp [heq]
  have hsome : (t'.get? k).isSome = true ↔ ∃ r ∈ t'.rows, key r = k := by
    rw [Option.isSome_iff_exists]
    constructor
    · rintro ⟨r, hr⟩
      exact ⟨r, mem_of_get? hr, key_of_get? hr⟩
    · rintro ⟨r, hr, rfl⟩
      exact ⟨r, get?_of_mem hr⟩
  rw [mergeWith, hrows, hsome]

theorem get?_mergeWith (hkey : ∀ old r, key (combine old r) = key r) (t t' : Table ρ key) (k : κ) :
    (t.mergeWith combine t').get? k =
      match t'.get? k with
      | none => t.get? k
      | some r => some (combine (t.get? k) r) := by
  have hrows : ∀ (rows : List ρ) (t : Table ρ key), (rows.map key).Nodup →
      (rows.foldl (fun merged r => merged.upsert (combine (merged.get? (key r)) r)) t).get? k =
        match rows.find? (fun r => decide (key r = k)) with
        | none => t.get? k
        | some r => some (combine (t.get? k) r) := by
    intro rows
    induction rows with
    | nil =>
      intro t _
      rfl
    | cons r rest ih =>
      intro t hnodup
      rw [map_cons, nodup_cons] at hnodup
      rw [foldl_cons, ih _ hnodup.2, get?_upsert, hkey]
      by_cases heq : key r = k
      · have hnone : rest.find? (fun r => decide (key r = k)) = none := by
          rw [find?_eq_none]
          intro x hx hxk
          refine hnodup.1 (mem_map.mpr ⟨x, hx, ?_⟩)
          rw [of_decide_eq_true hxk, heq]
        simp [hnone, heq]
      · simp [heq]
  exact hrows t'.rows t t'.nodup

theorem get?_filter (t : Table ρ key) (p : ρ → Bool) (k : κ) :
    (t.filter p).get? k = (t.get? k).filter p := by
  ext r
  rw [get?_eq_some, mem_filter, Option.filter_eq_some_iff, get?_eq_some]
  simp only [and_right_comm]

theorem get?_mapRows (t : Table ρ key) (f : ρ → ρ) (hf : ∀ r, key (f r) = key r) (k : κ) :
    (t.mapRows f hf).get? k = (t.get? k).map f := by
  ext r
  rw [get?_eq_some, mem_mapRows, Option.map_eq_some_iff]
  constructor
  · rintro ⟨⟨old, hold, rfl⟩, hk⟩
    exact ⟨old, get?_eq_some.mpr ⟨hold, (hf old).symm.trans hk⟩, rfl⟩
  · rintro ⟨old, hget, rfl⟩
    exact ⟨⟨old, mem_of_get? hget, rfl⟩, (hf old).trans (key_of_get? hget)⟩

inductive Write (κ : Type v) (ρ : Type u) where
  | upsert (row : ρ)
  | delete (k : κ)

def write (t : Table ρ key) : Write κ ρ → Table ρ key
  | .upsert row => t.upsert row
  | .delete k => t.delete k

def writeAll (t : Table ρ key) (writes : List (Write κ ρ)) : Table ρ key := writes.foldl write t

def lastWrite (key : ρ → κ) (k : κ) : List (Write κ ρ) → Option (Option ρ)
  | [] => none
  | .upsert row :: rest => (lastWrite key k rest).or (if key row = k then some (some row) else none)
  | .delete k' :: rest => (lastWrite key k rest).or (if k' = k then some none else none)

theorem get?_writeAll (t : Table ρ key) (writes : List (Write κ ρ)) (k : κ) :
    (t.writeAll writes).get? k = (lastWrite key k writes).getD (t.get? k) := by
  unfold writeAll
  induction writes generalizing t with
  | nil => rfl
  | cons w rest ih =>
    rw [foldl_cons, ih]
    cases w
    all_goals
      rw [lastWrite]
      rcases lastWrite key k rest with _ | image
      · simp only [Option.none_or, Option.getD_none, write, get?_upsert, get?_delete]
        split <;> rfl
      · rfl

theorem writeAll_append (t : Table ρ key) (writes more : List (Write κ ρ)) :
    t.writeAll (writes ++ more) = (t.writeAll writes).writeAll more := foldl_append

theorem Same.writeAll (h : t.Same t') (writes : List (Write κ ρ)) :
    (t.writeAll writes).Same (t'.writeAll writes) := by
  intro k
  rw [get?_writeAll, get?_writeAll, h k]

/-! ### Upserts, then deletions -/

variable {rows : List ρ}

theorem lastWrite_upserts_of_ne (h : ∀ r ∈ rows, key r ≠ k) :
    lastWrite key k (rows.map Write.upsert) = none := by
  induction rows with
  | nil => rfl
  | cons r rest ih =>
    rw [forall_mem_cons] at h
    rw [map_cons, lastWrite, ih h.2, if_neg h.1]
    rfl

theorem exists_lastWrite_upserts (h : ∃ r ∈ rows, key r = k) :
    ∃ r ∈ rows, key r = k ∧ lastWrite key k (rows.map Write.upsert) = some (some r) := by
  induction rows with
  | nil =>
    obtain ⟨r, hr, -⟩ := h
    cases hr
  | cons first rest ih =>
    rw [map_cons, lastWrite]
    by_cases hrest : ∃ r ∈ rest, key r = k
    · obtain ⟨r, hr, hkey, hlast⟩ := ih hrest
      exact ⟨r, mem_cons_of_mem _ hr, hkey, by rw [hlast]; rfl⟩
    · obtain ⟨r, hr, hkey⟩ := h
      rcases mem_cons.mp hr with rfl | hin
      · refine ⟨r, mem_cons_self, hkey, ?_⟩
        have hnone : ∀ x ∈ rest, key x ≠ k := fun x hx hx' => hrest ⟨x, hx, hx'⟩
        rw [lastWrite_upserts_of_ne hnone, if_pos hkey]
        rfl
      · exact absurd ⟨r, hin, hkey⟩ hrest

theorem update_eq_writeAll (t t' : Table ρ key) :
    t.update t' = t.writeAll (t'.rows.map Write.upsert) := by
  rw [update, writeAll, List.foldl_map]
  rfl

theorem get?_update (t t' : Table ρ key) (k : κ) :
    (t.update t').get? k = (t'.get? k).or (t.get? k) := by
  rw [update_eq_writeAll, get?_writeAll]
  by_cases hin : ∃ r ∈ t'.rows, key r = k
  · obtain ⟨r, hr, hkey, hlast⟩ := exists_lastWrite_upserts hin
    rw [hlast, get?_eq_some.mpr ⟨hr, hkey⟩]
    rfl
  · push Not at hin
    rw [lastWrite_upserts_of_ne hin, get?_eq_none.mpr hin]
    rfl

theorem mem_of_mem_writeAll {writes : List (Write κ ρ)} (h : r ∈ t.writeAll writes) :
    r ∈ t ∨ .upsert r ∈ writes := by
  induction writes generalizing t with
  | nil => exact .inl h
  | cons w rest ih =>
    rcases ih h with hw | hrest
    · cases w with
      | upsert row =>
        rcases mem_upsert.mp hw with rfl | ⟨hr, -⟩
        · exact .inr mem_cons_self
        · exact .inl hr
      | delete k => exact .inl (mem_delete.mp hw).1
    · exact .inr (mem_cons_of_mem _ hrest)

theorem lastWrite_deletes (ids : List κ) (k : κ) :
    lastWrite key k (ids.map Write.delete : List (Write κ ρ)) = if k ∈ ids then some none else none := by
  induction ids with
  | nil => rfl
  | cons k' rest ih =>
    rw [map_cons, lastWrite, ih]
    by_cases hrest : k ∈ rest
    · simp [hrest]
    · by_cases heq : k' = k
      · simp [hrest, heq]
      · simp [hrest, heq, Ne.symm heq]

theorem mem_writeAll_replace (hrows : (rows.map key).Nodup) {stale : List κ}
    (hstale : ∀ k, k ∈ stale ↔ (∃ r ∈ t, key r = k) ∧ ∀ r ∈ rows, key r ≠ k) :
    x ∈ t.writeAll (rows.map Write.upsert ++ stale.map Write.delete) ↔ x ∈ rows := by
  have hget : (t.writeAll (rows.map Write.upsert ++ stale.map Write.delete)).get? (key x) =
      if key x ∈ stale then none else (lastWrite key (key x) (rows.map Write.upsert)).getD (t.get? (key x)) := by
    rw [writeAll_append, get?_writeAll, lastWrite_deletes, get?_writeAll]
    split <;> rfl
  have hmem : x ∈ t.writeAll (rows.map Write.upsert ++ stale.map Write.delete) ↔
      (t.writeAll (rows.map Write.upsert ++ stale.map Write.delete)).get? (key x) = some x :=
    ⟨get?_of_mem, mem_of_get?⟩
  rw [hmem, hget]
  by_cases hnew : ∃ r ∈ rows, key r = key x
  · obtain ⟨r, hr, hkey, hlast⟩ := exists_lastWrite_upserts hnew
    have hkept : key x ∉ stale := fun hin => ((hstale _).mp hin).2 r hr hkey
    rw [if_neg hkept, hlast, Option.getD_some, Option.some.injEq]
    constructor
    · rintro rfl
      exact hr
    · intro hx
      exact inj_on_of_nodup_map hrows hr hx hkey
  · have hnone : ∀ r ∈ rows, key r ≠ key x := fun r hr hkey => hnew ⟨r, hr, hkey⟩
    have hout : x ∉ rows := fun hx => hnone x hx rfl
    rw [lastWrite_upserts_of_ne hnone, Option.getD_none, iff_false_right hout]
    split
    · simp
    · next hkept =>
      intro hold
      exact hkept ((hstale _).mpr ⟨⟨x, mem_of_get? hold, rfl⟩, hnone⟩)

end Table

end MultiRag
