/-
  **Keyed tables.**

  A relational table is modelled by the list of its rows together with the proof that the primary
  key is unique, so a table with two rows of one key cannot be built. A transaction writes with
  `insert?` (fails on a primary key that is taken) and `put` (replace the row of the same key).
-/
import Mathlib.Data.List.Find
import Mathlib.Data.List.Sort

namespace MultiRag

open List

universe u v

structure Table {κ : Type v} (ρ : Type u) (key : ρ → κ) where
  rows : List ρ
  nodup : (rows.map key).Nodup

namespace Table

variable {κ : Type v} {ρ : Type u} {key : ρ → κ}

instance : Membership ρ (Table ρ key) := ⟨fun t r => r ∈ t.rows⟩

variable {t : Table ρ key} {r : ρ}

theorem mem_def : r ∈ t ↔ r ∈ t.rows := Iff.rfl

def empty : Table ρ key := ⟨[], nodup_nil⟩

def single (r : ρ) : Table ρ key := ⟨[r], nodup_singleton _⟩

@[simp] theorem not_mem_empty (r : ρ) : ¬ r ∈ (empty : Table ρ key) := not_mem_nil

def select (t : Table ρ key) (p : ρ → Bool) : List ρ := t.rows.filter p

variable {p : ρ → Bool}

@[simp] theorem mem_select :
    r ∈ t.select p ↔ r ∈ t ∧ p r = true := List.mem_filter

def selectOrdered (t : Table ρ key) (p : ρ → Bool) (le : ρ → ρ → Bool) (limit : Nat) : List ρ :=
  ((t.select p).insertionSort (fun a b => le a b = true)).take limit

theorem mem_of_mem_selectOrdered {le : ρ → ρ → Bool} {limit : Nat}
    (h : r ∈ t.selectOrdered p le limit) : r ∈ t ∧ p r = true := by
  have hsorted := mem_of_mem_take h
  rw [mem_insertionSort] at hsorted
  exact mem_select.mp hsorted

theorem nodup_selectOrdered (t : Table ρ key) (p : ρ → Bool) (le : ρ → ρ → Bool) (limit : Nat) :
    ((t.selectOrdered p le limit).map key).Nodup := by
  have hselect : ((t.select p).map key).Nodup :=
    Sublist.nodup (Sublist.map key filter_sublist) t.nodup
  have hsorted : (((t.select p).insertionSort (fun a b => le a b = true)).map key).Nodup :=
    ((perm_insertionSort _ _).map key).nodup_iff.mpr hselect
  exact Sublist.nodup (Sublist.map key (take_sublist _ _)) hsorted

theorem eq_of_key {r₁ r₂ : ρ} (h₁ : r₁ ∈ t) (h₂ : r₂ ∈ t) (h : key r₁ = key r₂) : r₁ = r₂ :=
  inj_on_of_nodup_map t.nodup h₁ h₂ h

theorem flatMap_eq_of_nodup_map {β : Type*} {rows : List ρ} {f : ρ → List β}
    (hnodup : (rows.map key).Nodup) (hmem : r ∈ rows)
    (hother : ∀ x ∈ rows, key x ≠ key r → f x = []) : rows.flatMap f = f r := by
  induction rows with
  | nil => cases hmem
  | cons first rows ih =>
    rw [map_cons, nodup_cons] at hnodup
    rw [flatMap_cons]
    rcases mem_cons.mp hmem with rfl | hmem'
    · have hrest : rows.flatMap f = [] := by
        rw [flatMap_eq_nil_iff]
        intro x hx
        apply hother x (mem_cons_of_mem _ hx)
        intro hkey
        exact hnodup.1 (hkey ▸ mem_map_of_mem hx)
      rw [hrest, append_nil]
    · have hfirst : f first = [] := by
        apply hother first mem_cons_self
        intro hkey
        exact hnodup.1 (hkey ▸ mem_map_of_mem hmem')
      rw [hfirst, nil_append]
      exact ih hnodup.2 hmem' (fun x hx => hother x (mem_cons_of_mem _ hx))

variable [DecidableEq κ]

/-! ### Lookup -/

def get? (t : Table ρ key) (k : κ) : Option ρ := t.rows.find? (fun r => decide (key r = k))

variable {k : κ}

theorem get?_eq_some :
    t.get? k = some r ↔ r ∈ t ∧ key r = k := by
  constructor
  · intro h
    exact ⟨mem_of_find?_eq_some h, by simpa using find?_some h⟩
  · rintro ⟨hmem, hkey⟩
    rcases hfind : t.get? k with _ | r'
    · have := find?_eq_none.mp hfind r hmem
      simp [hkey] at this
    · have hmem' : r' ∈ t := mem_of_find?_eq_some hfind
      have hkey' : key r' = k := by simpa using find?_some hfind
      rw [eq_of_key hmem' hmem (hkey'.trans hkey.symm)]

theorem get?_eq_none : t.get? k = none ↔ ∀ r ∈ t, key r ≠ k := by
  unfold get?
  rw [find?_eq_none]
  simp [mem_def]

theorem mem_of_get? (h : t.get? k = some r) : r ∈ t :=
  (get?_eq_some.mp h).1

theorem key_of_get? (h : t.get? k = some r) : key r = k :=
  (get?_eq_some.mp h).2

theorem get?_of_mem (h : r ∈ t) : t.get? (key r) = some r :=
  get?_eq_some.mpr ⟨h, rfl⟩

/-! ### Insertion -/

def insert? (t : Table ρ key) (r : ρ) : Option (Table ρ key) :=
  if h : key r ∈ t.rows.map key then none
  else some ⟨t.rows ++ [r], by
    rw [map_append, map_singleton, ← concat_eq_append]
    exact Nodup.concat h t.nodup⟩

variable {t' : Table ρ key}

theorem fresh_of_insert? (h : t.insert? r = some t') :
    ∀ x ∈ t, key x ≠ key r := by
  unfold insert? at h
  split at h
  · cases h
  · rename_i hfresh
    intro x hx hkey
    exact hfresh (mem_map.mpr ⟨x, hx, hkey⟩)

theorem exists_insert? (h : ∀ x ∈ t, key x ≠ key r) :
    ∃ t', t.insert? r = some t' := by
  have hfresh : key r ∉ t.rows.map key := by
    rintro hmem
    obtain ⟨x, hx, hkey⟩ := mem_map.mp hmem
    exact h x hx hkey
  exact ⟨_, dif_neg hfresh⟩

variable {x : ρ}

theorem mem_insert? (h : t.insert? r = some t') :
    x ∈ t' ↔ x = r ∨ x ∈ t := by
  unfold insert? at h
  split at h
  · cases h
  · cases h
    simp [mem_def, or_comm]

/-! ### Replacement -/

def put (t : Table ρ key) (r : ρ) : Table ρ key :=
  ⟨t.rows.map (fun x => if key x = key r then r else x), by
    have hkeys : (t.rows.map (fun x => if key x = key r then r else x)).map key
        = t.rows.map key := by
      rw [map_map]
      apply map_congr_left
      intro x _
      by_cases hx : key x = key r
      · simp [hx]
      · simp [hx]
    rw [hkeys]
    exact t.nodup⟩

theorem mem_put :
    x ∈ t.put r ↔ (x = r ∧ ∃ y ∈ t, key y = key r) ∨ (x ∈ t ∧ key x ≠ key r) := by
  simp only [mem_def, put, mem_map]
  constructor
  · rintro ⟨y, hy, rfl⟩
    by_cases hkey : key y = key r
    · rw [if_pos hkey]; exact .inl ⟨rfl, y, hy, hkey⟩
    · rw [if_neg hkey]; exact .inr ⟨hy, hkey⟩
  · rintro (⟨rfl, y, hy, hkey⟩ | ⟨hx, hkey⟩)
    · exact ⟨y, hy, if_pos hkey⟩
    · exact ⟨x, hx, if_neg hkey⟩

theorem mem_put_of_mem {old : ρ} (hold : old ∈ t) (hkey : key r = key old) :
    x ∈ t.put r ↔ x = r ∨ (x ∈ t ∧ key x ≠ key old) := by
  rw [mem_put, hkey]
  constructor
  · rintro (⟨rfl, -⟩ | h)
    · exact .inl rfl
    · exact .inr h
  · rintro (rfl | h)
    · exact .inl ⟨rfl, old, hold, rfl⟩
    · exact .inr h

theorem mem_or_eq_of_mem_put (h : x ∈ t.put r) : x = r ∨ x ∈ t := by
  rcases mem_put.mp h with ⟨rfl, -⟩ | ⟨hx, -⟩
  · exact .inl rfl
  · exact .inr hx

theorem get?_put_self {old : ρ} (hold : old ∈ t) (hkey : key r = key old) :
    (t.put r).get? (key r) = some r :=
  get?_of_mem ((mem_put_of_mem hold hkey).mpr (.inl rfl))

theorem get?_put_of_ne (hk : k ≠ key r) :
    (t.put r).get? k = t.get? k := by
  rcases hget : t.get? k with _ | x
  · rw [get?_eq_none] at hget ⊢
    intro y hy hkey
    rcases mem_put.mp hy with ⟨rfl, -⟩ | ⟨hmem, -⟩
    · exact hk hkey.symm
    · exact hget y hmem hkey
  · obtain ⟨hmem, hkey⟩ := get?_eq_some.mp hget
    exact get?_eq_some.mpr ⟨mem_put.mpr (.inr ⟨hmem, hkey ▸ hk⟩), hkey⟩

theorem put_put {r₁ r₂ : ρ} (h : key r₁ = key r₂) :
    (t.put r₁).put r₂ = t.put r₂ := by
  have hrows : ((t.put r₁).put r₂).rows = (t.put r₂).rows := by
    simp only [put, map_map]
    apply map_congr_left
    intro x _
    by_cases hx : key x = key r₁
    · simp [hx, h]
    · simp [hx]
  cases h₁ : (t.put r₁).put r₂
  cases h₂ : t.put r₂
  rw [h₁, h₂] at hrows
  simp only [mk.injEq]
  exact hrows

theorem rows_put_insert? {r' : ρ} (h : t.insert? r = some t') (hkey : key r' = key r) :
    (t'.put r').rows = t.rows ++ [r'] := by
  have hfresh := fresh_of_insert? h
  unfold insert? at h
  split at h
  · cases h
  · cases h
    simp only [put, map_append, map_cons, map_nil, hkey, if_true]
    congr 1
    rw [map_congr_left (g := id), map_id]
    intro x hx
    exact if_neg (hfresh x hx)

theorem put_self (h : r ∈ t) : t.put r = t := by
  have hrows : t.rows.map (fun x => if key x = key r then r else x) = t.rows := by
    rw [map_congr_left (g := id), map_id]
    intro x hx
    by_cases hkey : key x = key r
    · rw [if_pos hkey]; exact eq_of_key h hx hkey.symm
    · rw [if_neg hkey]; rfl
  cases t
  simp only [put, mk.injEq]
  exact hrows

theorem mem_foldl_put {f : ρ → ρ} (hf : ∀ r, key (f r) = key r) {l : List ρ} (hl : ∀ r ∈ l, r ∈ t)
    (hnodup : (l.map key).Nodup) :
    x ∈ l.foldl (fun t r => t.put (f r)) t ↔
      (∃ r ∈ l, x = f r) ∨ (x ∈ t ∧ ∀ r ∈ l, key r ≠ key x) := by
  induction l generalizing t with
  | nil => simp
  | cons r l ih =>
    rw [map_cons, nodup_cons] at hnodup
    have hr : r ∈ t := hl r mem_cons_self
    have hother : ∀ r' ∈ l, key r' ≠ key r := by
      intro r' hr' heq
      exact hnodup.1 (heq ▸ mem_map_of_mem hr')
    have hput : ∀ y, y ∈ t.put (f r) ↔ y = f r ∨ (y ∈ t ∧ key y ≠ key r) :=
      fun y => mem_put_of_mem hr (hf r)
    rw [foldl_cons, ih (fun r' hr' => (hput r').mpr
      (.inr ⟨hl r' (mem_cons_of_mem _ hr'), hother r' hr'⟩)) hnodup.2, hput]
    simp only [mem_cons, exists_eq_or_imp, forall_eq_or_imp]
    constructor
    · rintro (hrest | ⟨rfl | ⟨hx, hne⟩, hrest⟩)
      · exact .inl (.inr hrest)
      · exact .inl (.inl rfl)
      · exact .inr ⟨hx, Ne.symm hne, hrest⟩
    · rintro ((rfl | hrest) | ⟨hx, hne, hrest⟩)
      · refine .inr ⟨.inl rfl, fun r' hr' => ?_⟩
        rw [hf]
        exact hother r' hr'
      · exact .inl hrest
      · exact .inr ⟨.inr ⟨hx, Ne.symm hne⟩, hrest⟩

theorem mem_foldl_put_select {f : ρ → ρ} (hf : ∀ r, key (f r) = key r) (t : Table ρ key)
    (p : ρ → Bool) :
    x ∈ (t.select p).foldl (fun t r => t.put (f r)) t ↔
      (∃ r ∈ t, p r = true ∧ x = f r) ∨ (x ∈ t ∧ p x = false) := by
  rw [mem_foldl_put hf (fun r hr => (mem_select.mp hr).1)
    (Sublist.nodup (Sublist.map key filter_sublist) t.nodup)]
  simp only [mem_select]
  constructor
  · rintro (⟨r, ⟨hr, hp⟩, rfl⟩ | ⟨hx, hrest⟩)
    · exact .inl ⟨r, hr, hp, rfl⟩
    · refine .inr ⟨hx, ?_⟩
      by_contra hp
      exact hrest x ⟨hx, by simpa using hp⟩ rfl
  · rintro (⟨r, hr, hp, rfl⟩ | ⟨hx, hp⟩)
    · exact .inl ⟨r, ⟨hr, hp⟩, rfl⟩
    · refine .inr ⟨hx, ?_⟩
      rintro r ⟨hr, hpr⟩ heq
      rw [eq_of_key hr hx heq, hp] at hpr
      cases hpr

/-! ### Unique constraints -/

/-- No two rows agree on the columns `columns`. -/
def Unique {β : Type*} (t : Table ρ key) (columns : ρ → β) : Prop :=
  ∀ a ∈ t, ∀ b ∈ t, columns a = columns b → a = b

variable {β : Type*} {columns : ρ → β} {old : ρ}

omit [DecidableEq κ] in
theorem unique_of_forall_not_mem (h : ∀ x, x ∉ t) : t.Unique columns :=
  fun a ha => absurd ha (h a)

theorem Unique.put (h : t.Unique columns) (hold : old ∈ t) (hkey : key r = key old)
    (hcolumns : columns r = columns old) : (t.put r).Unique columns := by
  -- a second row with these columns would be the row that was replaced
  have hother : ∀ x ∈ t, key x ≠ key old → columns x ≠ columns r := by
    intro x hx hne heq
    exact hne (h x hx old hold (heq.trans hcolumns) ▸ rfl)
  intro a ha b hb heq
  rcases (mem_put_of_mem hold hkey).mp ha with rfl | ⟨haold, hane⟩
  · rcases (mem_put_of_mem hold hkey).mp hb with rfl | ⟨hbold, hbne⟩
    · rfl
    · exact absurd heq.symm (hother b hbold hbne)
  · rcases (mem_put_of_mem hold hkey).mp hb with rfl | ⟨hbold, hbne⟩
    · exact absurd heq (hother a haold hane)
    · exact h a haold b hbold heq

theorem Unique.insert? (h : t.Unique columns) (hinsert : t.insert? r = some t')
    (hnew : ∀ x ∈ t, columns x ≠ columns r) : t'.Unique columns := by
  intro a ha b hb heq
  rcases (mem_insert? hinsert).mp ha with rfl | haold
  · rcases (mem_insert? hinsert).mp hb with rfl | hbold
    · rfl
    · exact absurd heq.symm (hnew b hbold)
  · rcases (mem_insert? hinsert).mp hb with rfl | hbold
    · exact absurd heq (hnew a haold)
    · exact h a haold b hbold heq

/-! ### Tables whose rows move along a relation -/

/-- `t'` has the rows of `t`, each moved along `R`. -/
def Evolves (R : ρ → ρ → Prop) (t t' : Table ρ key) : Prop :=
  ∃ f : ρ → ρ, t'.rows = t.rows.map f ∧ ∀ r ∈ t, R r (f r)

namespace Evolves

variable {R : ρ → ρ → Prop} {t'' : Table ρ key}

omit [DecidableEq κ] in
theorem refl (hR : ∀ r, R r r) (t : Table ρ key) : Evolves R t t :=
  ⟨id, (map_id _).symm, fun r _ => hR r⟩

omit [DecidableEq κ] in
theorem trans (hR : ∀ a b c, R a b → R b c → R a c) (h : Evolves R t t') (h' : Evolves R t' t'') :
    Evolves R t t'' := by
  obtain ⟨f, hrows, hf⟩ := h
  obtain ⟨g, hrows', hg⟩ := h'
  refine ⟨g ∘ f, by rw [hrows', hrows, map_map], fun r hr => hR _ _ _ (hf r hr) (hg (f r) ?_)⟩
  rw [mem_def, hrows]
  exact mem_map_of_mem hr

theorem of_put (hR : ∀ r, R r r) (hold : old ∈ t) (hkey : key r = key old) (hr : R old r) :
    Evolves R t (t.put r) := by
  refine ⟨fun x => if key x = key r then r else x, rfl, ?_⟩
  intro x hx
  dsimp only
  by_cases hxr : key x = key r
  · rw [if_pos hxr, eq_of_key hx hold (hxr.trans hkey)]
    exact hr
  · rw [if_neg hxr]
    exact hR x

omit [DecidableEq κ] in
theorem exists_of_mem (h : Evolves R t t') (hr : r ∈ t) : ∃ r' ∈ t', R r r' := by
  obtain ⟨f, hrows, hf⟩ := h
  refine ⟨f r, ?_, hf r hr⟩
  rw [mem_def, hrows]
  exact mem_map_of_mem hr

variable {rows : List ρ}

omit [DecidableEq κ] in
theorem filter_map {f : ρ → ρ} (hf : ∀ r ∈ rows, R r (f r)) (hp : ∀ a b, R a b → p b = p a) :
    (rows.map f).filter p = (rows.filter p).map f := by
  rw [List.filter_map]
  congr 1
  apply filter_congr
  intro r hr
  exact hp r (f r) (hf r hr)

omit [DecidableEq κ] in
theorem find?_map {f : ρ → ρ} (hf : ∀ r ∈ rows, R r (f r)) (hp : ∀ a b, R a b → p b = p a) :
    (rows.map f).find? p = (rows.find? p).map f := by
  rw [List.find?_map]
  congr 1
  apply find?_congr
  intro r hr
  exact hp r (f r) (hf r hr)

end Evolves

end Table

end MultiRag
