/-
  **Dictionaries as lists of their items, in the order of insertion.**

  `assign` is `d[key] = value`: the first item with the key keeps its place, a new
  key comes last.
-/
import Mathlib.Data.List.Nodup

namespace MultiRag

open List

theorem lookup_iff_mem {K V : Type} [BEq K] [LawfulBEq K] {items : List (K × V)} {key : K} {value : V}
    (hdist : (items.map Prod.fst).Nodup) : items.lookup key = some value ↔ (key, value) ∈ items := by
  rw [lookup_eq_some_iff]
  constructor
  · rintro ⟨before, after, rfl, -⟩
    simp
  · intro hmem
    obtain ⟨before, after, rfl⟩ := append_of_mem hmem
    refine ⟨before, after, rfl, fun other hother => ?_⟩
    rw [map_append, map_cons] at hdist
    simp only [bne_iff_ne, ne_eq]
    rintro rfl
    exact (nodup_append.mp hdist).2.2 _ (mem_map_of_mem hother) _
      mem_cons_self rfl

namespace Dict

variable {K V : Type} [DecidableEq K]

def assign : List (K × V) → K → V → List (K × V)
  | [], key, value => [(key, value)]
  | item :: items, key, value => if item.1 = key then (key, value) :: items else item :: assign items key value

variable {item : K × V} {items : List (K × V)} {key : K}

theorem lookup_cons :
    (item :: items).lookup key = if item.1 = key then some item.2 else items.lookup key := by
  obtain ⟨other, value⟩ := item
  rw [List.lookup_cons]
  by_cases hkey : other = key
  · simp [hkey]
  · have hne : (key == other) = false := by
      rw [beq_eq_false_iff_ne]
      exact Ne.symm hkey
    rw [hne, if_neg hkey]

theorem lookup_assign_self (items : List (K × V)) (key : K) (value : V) :
    (assign items key value).lookup key = some value := by
  induction items with
  | nil => simp [assign]
  | cons item items ih =>
    rw [assign]
    by_cases hkey : item.1 = key
    · rw [if_pos hkey, lookup_cons, if_pos rfl]
    · rw [if_neg hkey, lookup_cons, if_neg hkey, ih]

variable {other : K}

theorem lookup_assign_ne (items : List (K × V)) (value : V) (hne : other ≠ key) :
    (assign items key value).lookup other = items.lookup other := by
  induction items with
  | nil => rw [assign, lookup_cons, if_neg (Ne.symm hne)]
  | cons item items ih =>
    rw [assign]
    by_cases hkey : item.1 = key
    · rw [if_pos hkey, lookup_cons, lookup_cons, if_neg (Ne.symm hne), if_neg (hkey ▸ Ne.symm hne)]
    · rw [if_neg hkey, lookup_cons, lookup_cons, ih]

variable {value : V}

theorem assign_lookup (items : List (K × V)) (h : items.lookup key = some value) :
    assign items key value = items := by
  induction items with
  | nil => cases h
  | cons item items ih =>
    rw [lookup_cons] at h
    rw [assign]
    by_cases hkey : item.1 = key
    · rw [if_pos hkey] at h
      obtain rfl := Option.some.inj h
      rw [if_pos hkey, ← hkey]
    · rw [if_neg hkey] at h
      rw [if_neg hkey, ih h]

/-! ### All items at once -/

def ofItems (items : List (K × V)) : List (K × V) :=
  items.foldl (fun dict item => assign dict item.1 item.2) []

theorem keys_assign (items : List (K × V)) (key : K) (value : V) :
    (assign items key value).map Prod.fst =
      if key ∈ items.map Prod.fst then items.map Prod.fst else items.map Prod.fst ++ [key] := by
  induction items with
  | nil => rfl
  | cons item items ih =>
    rw [assign]
    by_cases hkey : item.1 = key
    · simp [hkey]
    · rw [if_neg hkey, map_cons, ih]
      by_cases hmem : key ∈ items.map Prod.fst
      · have hmem' : key ∈ (item :: items).map Prod.fst := mem_cons_of_mem _ hmem
        rw [if_pos hmem, if_pos hmem']
        rfl
      · have hnot : key ∉ (item :: items).map Prod.fst := by
          rw [map_cons, mem_cons]
          rintro (heq | htail)
          · exact hkey heq.symm
          · exact hmem htail
        rw [if_neg hmem, if_neg hnot]
        rfl

theorem nodup_assign (h : (items.map Prod.fst).Nodup) (key : K) (value : V) :
    ((assign items key value).map Prod.fst).Nodup := by
  rw [keys_assign]
  split
  · exact h
  · next hkey =>
    rw [nodup_append]
    refine ⟨h, nodup_singleton key, ?_⟩
    intro other hother last hlast
    obtain rfl := mem_singleton.mp hlast
    rintro rfl
    exact hkey hother

theorem assign_new (h : key ∉ items.map Prod.fst) (value : V) :
    assign items key value = items ++ [(key, value)] := by
  induction items with
  | nil => rfl
  | cons item items ih =>
    rw [map_cons, mem_cons, not_or] at h
    rw [assign, if_neg (Ne.symm h.1), ih h.2]
    rfl

theorem mem_assign (h : item ∈ assign items key value) :
    item = (key, value) ∨ item ∈ items := by
  induction items with
  | nil =>
    left
    exact mem_singleton.mp h
  | cons first items ih =>
    rw [assign] at h
    split at h
    · rw [mem_cons] at h ⊢
      tauto
    · rw [mem_cons] at h ⊢
      rcases h with h | h
      · exact .inr (.inl h)
      · exact (ih h).imp id .inr

theorem nodup_ofItems (items : List (K × V)) : ((ofItems items).map Prod.fst).Nodup := by
  have hfold : ∀ (dict : List (K × V)), (dict.map Prod.fst).Nodup →
      ((items.foldl (fun dict item => assign dict item.1 item.2) dict).map Prod.fst).Nodup := by
    induction items with
    | nil => intro dict h; exact h
    | cons item items ih =>
      intro dict h
      exact ih _ (nodup_assign h item.1 item.2)
  exact hfold [] nodup_nil

theorem mem_ofItems (h : item ∈ ofItems items) : item ∈ items := by
  have hfold : ∀ (dict : List (K × V)),
      item ∈ items.foldl (fun dict item => assign dict item.1 item.2) dict → item ∈ dict ∨ item ∈ items := by
    clear h
    induction items with
    | nil => intro dict h; exact .inl h
    | cons first items ih =>
      intro dict h
      rw [mem_cons]
      rcases ih _ h with hdict | hitems
      · rcases mem_assign hdict with hfirst | hbefore
        · exact .inr (.inl hfirst)
        · exact .inl hbefore
      · exact .inr (.inr hitems)
  exact (hfold [] h).resolve_left not_mem_nil

theorem ofItems_eq (h : (items.map Prod.fst).Nodup) : ofItems items = items := by
  have hfold : ∀ (dict : List (K × V)), ((dict ++ items).map Prod.fst).Nodup →
      items.foldl (fun dict item => assign dict item.1 item.2) dict = dict ++ items := by
    clear h
    induction items with
    | nil => intro dict _; exact (append_nil dict).symm
    | cons item items ih =>
      intro dict h
      have hnew : item.1 ∉ dict.map Prod.fst := by
        rw [map_append, map_cons, nodup_append] at h
        intro hmem
        exact h.2.2 _ hmem _ mem_cons_self rfl
      rw [foldl_cons, assign_new hnew]
      rw [ih]
      · rw [append_assoc]
        rfl
      · rw [append_assoc]
        exact h
  exact hfold [] h

/-! ### Updates -/

def update (key : K) (f : V → Option V) (items : List (K × V)) : Option (List (K × V)) :=
  match items.lookup key with
  | none => some items
  | some value => (f value).map (assign items key)

def updates (changes : List (K × (V → Option V))) (items : List (K × V)) : Option (List (K × V)) :=
  changes.foldlM (fun items change => update change.1 change.2 items) items

def Keeps (f g : V → Option V) : Prop := ∀ value changed, f value = some changed → g changed = some changed

variable {f : V → Option V}

theorem update_same (h : ∀ value, items.lookup key = some value → f value = some value) :
    update key f items = some items := by
  rw [update]
  cases hvalue : items.lookup key with
  | none => rfl
  | some value =>
    dsimp only
    rw [h value hvalue, Option.map_some, assign_lookup items hvalue]

variable {after : List (K × V)}

section

variable (h : update key f items = some after)
include h

theorem update_lookup {changed : V}
    (hchanged : after.lookup key = some changed) :
    ∃ value, items.lookup key = some value ∧ f value = some changed := by
  rw [update] at h
  cases hvalue : items.lookup key with
  | none =>
    rw [hvalue] at h
    obtain rfl := Option.some.inj h
    rw [hvalue] at hchanged
    cases hchanged
  | some value =>
    rw [hvalue] at h
    obtain ⟨new, hnew, rfl⟩ := Option.map_eq_some_iff.mp h
    rw [lookup_assign_self] at hchanged
    exact ⟨value, rfl, hnew.trans hchanged⟩

theorem update_lookup_some
    (hvalue : items.lookup key = some value) :
    ∃ changed, f value = some changed ∧ after.lookup key = some changed := by
  rw [update, hvalue] at h
  obtain ⟨new, hnew, rfl⟩ := Option.map_eq_some_iff.mp h
  exact ⟨new, hnew, lookup_assign_self items key new⟩

theorem update_lookup_ne (hne : other ≠ key) :
    after.lookup other = items.lookup other := by
  rw [update] at h
  cases hvalue : items.lookup key with
  | none =>
    rw [hvalue] at h
    obtain rfl := Option.some.inj h
    rfl
  | some value =>
    rw [hvalue] at h
    obtain ⟨new, -, rfl⟩ := Option.map_eq_some_iff.mp h
    exact lookup_assign_ne items new hne

end

variable {changes : List (K × (V → Option V))}

theorem updates_lookup_ne (h : updates changes items = some after)
    (hne : other ∉ changes.map Prod.fst) :
    after.lookup other = items.lookup other := by
  induction changes generalizing items with
  | nil =>
    obtain rfl := Option.some.inj h
    rfl
  | cons change changes ih =>
    rw [map_cons, mem_cons, not_or] at hne
    rw [updates, foldlM_cons, Option.bind_eq_bind, Option.bind_eq_some_iff] at h
    obtain ⟨next, hnext, hrest⟩ := h
    rw [ih hrest hne.2, update_lookup_ne hnext hne.1]

theorem updates_again {again : List (K × (V → Option V))} (h : updates changes items = some after)
    (hdist : (changes.map Prod.fst).Nodup)
    (hkeeps : Forall₂ (fun change next => change.1 = next.1 ∧ Keeps change.2 next.2) changes again) :
    updates again after = some after := by
  have hvalues : ∀ change ∈ again, ∀ value, after.lookup change.1 = some value → change.2 value = some value := by
    induction hkeeps generalizing items with
    | nil =>
      exact nofun
    | @cons first next changes again hfirst _ ih =>
      rw [map_cons, nodup_cons] at hdist
      rw [updates, foldlM_cons, Option.bind_eq_bind, Option.bind_eq_some_iff] at h
      obtain ⟨between, hbetween, hrest⟩ := h
      intro change hmem value hvalue
      rcases mem_cons.mp hmem with rfl | hmem
      · rw [← hfirst.1, updates_lookup_ne hrest hdist.1] at hvalue
        obtain ⟨old, -, hold⟩ := update_lookup hbetween hvalue
        exact hfirst.2 old value hold
      · exact ih hrest hdist.2 change hmem value hvalue
  clear hkeeps
  induction again with
  | nil => rfl
  | cons change again ih =>
    rw [updates, foldlM_cons, update_same (hvalues change mem_cons_self)]
    exact ih fun change hmem => hvalues change (mem_cons_of_mem _ hmem)

end Dict

end MultiRag
