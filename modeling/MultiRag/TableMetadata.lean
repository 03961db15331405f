/-
  **Metadata that the table parser owns** (`core/utils/table_metadata.py`).

  A field's values are the user's, then what the tasks add to them (`kept`, `added`), whatever
  was owned before.
-/
import MultiRag.DictGroups

namespace MultiRag.TableMetadata

open Dict List

inductive Field (V : Type) where
  | list (values : List V)
  | single (value : V)
deriving DecidableEq

def base {V : Type} : Option (Field V) → List V
  | none => []
  | some (.list values) => values
  | some (.single value) => [value]

section

variable {V K : Type} [DecidableEq K] (valueKey : V → K)

def appendUnique (target values : List V) : List V :=
  target ++ firstsFrom valueKey (target.map valueKey) values

/-- One item of `old_owned`. -/
def removeOwned (merged : List (String × Field V)) (item : String × List V) : List (String × Field V) :=
  match merged.lookup item.1 with
  | some (.list values) =>
    let remaining := values.filter fun value => valueKey value ∉ item.2.map valueKey
    if remaining.isEmpty then merged.filter (·.1 ≠ item.1) else assign merged item.1 (.list remaining)
  | _ => merged

/-- One item of a contribution. -/
def contribute (state : List (String × Field V) × List (String × List V)) (item : String × List V) :
    List (String × Field V) × List (String × List V) :=
  let base := base (state.1.lookup item.1)
  let added := item.2.filter fun value => valueKey value ∉ base.map valueKey
  (assign state.1 item.1 (.list (appendUnique valueKey base added)),
    assign state.2 item.1 (appendUnique valueKey ((state.2.lookup item.1).getD []) added))

def replaceOwnedMetadata (existing : List (String × Field V)) (oldOwned : List (String × List V))
    (contributions : List (List (String × List V))) : List (String × Field V) × List (String × List V) :=
  let merged := oldOwned.foldl (removeOwned valueKey) existing
  let result := contributions.flatten.foldl (contribute valueKey) (merged, [])
  (result.1, result.2.filter (!·.2.isEmpty))

/-! ### The user's values and the parser's -/

/-- The user's values of a field; only lists have had values added. -/
def kept (existing : List (String × Field V)) (oldOwned : List (String × List V)) (name : String) : List V :=
  match existing.lookup name with
  | some (.list values) =>
    values.filter fun value => ∀ item ∈ oldOwned, item.1 = name → valueKey value ∉ item.2.map valueKey
  | field => base field

def contributed (items : List (String × List V)) (name : String) : List V :=
  items.flatMap fun item => if item.1 = name then item.2 else []

def added (user : List V) (items : List (String × List V)) (name : String) : List V :=
  firstsFrom valueKey (user.map valueKey) (contributed items name)

variable {valueKey} {seen seen' : List K} {name : String} {item : String × List V}
  {existing merged : List (String × Field V)} {oldOwned items : List (String × List V)}

theorem firstsFrom_filter {s : List K} (h : ∀ k, k ∈ seen' ↔ k ∈ seen ∨ k ∈ s) (l : List V) :
    firstsFrom valueKey seen (l.filter fun value => valueKey value ∉ s) = firstsFrom valueKey seen' l := by
  induction l generalizing seen seen' with
  | nil => rfl
  | cons value l ih =>
    rw [filter_cons, firstsFrom]
    by_cases hs : valueKey value ∈ s
    · rw [if_neg (by simpa using hs), if_pos ((h _).mpr (.inr hs)), ih h]
    · rw [if_pos (by simpa using hs), firstsFrom]
      have hcond : valueKey value ∈ seen' ↔ valueKey value ∈ seen := by simp [h, hs]
      simp only [hcond]
      rw [ih h, @ih (valueKey value :: seen) (valueKey value :: seen')]
      intro k
      simp only [mem_cons, h, or_assoc]

theorem firstsFrom_append (l m : List V) (h : ∀ k, k ∈ seen' ↔ k ∈ seen ∨ k ∈ l.map valueKey) :
    firstsFrom valueKey seen (l ++ m) = firstsFrom valueKey seen l ++ firstsFrom valueKey seen' m := by
  induction l generalizing seen with
  | nil =>
    have hsame := @firstsFrom_filter V K _ valueKey seen seen' [] h m
    simpa [firstsFrom] using hsame
  | cons value l ih =>
    rw [cons_append, firstsFrom, firstsFrom]
    split
    · next hseen =>
      apply ih
      intro k
      rw [h, map_cons, mem_cons]
      constructor
      · rintro (hk | rfl | hk)
        · exact .inl hk
        · exact .inl hseen
        · exact .inr hk
      · exact Or.imp_right .inr
    · rw [ih, cons_append]
      intro k
      rw [h, map_cons, mem_cons, mem_cons, or_left_comm, or_assoc]

theorem mem_keys_firstsFrom (seen : List K) (l : List V) (k : K) :
    k ∈ (firstsFrom valueKey seen l).map valueKey ↔ k ∉ seen ∧ k ∈ l.map valueKey := by
  constructor
  · intro hk
    obtain ⟨value, hvalue, rfl⟩ := mem_map.mp hk
    exact ⟨firstsFrom_new hvalue, mem_map_of_mem ((firstsFrom_sublist seen l).subset hvalue)⟩
  · rintro ⟨hseen, hk⟩
    obtain ⟨value, hvalue, rfl⟩ := mem_map.mp hk
    obtain ⟨first, hfirst, hkey⟩ := exists_firstsFrom hvalue hseen
    exact mem_map.mpr ⟨first, hfirst, hkey⟩

/-! ### Removal -/

theorem lookup_erased (merged : List (String × Field V)) (other name : String) :
    (merged.filter (·.1 ≠ other)).lookup name = if name = other then none else merged.lookup name := by
  induction merged with
  | nil => simp
  | cons field merged ih =>
    rw [filter_cons, Dict.lookup_cons]
    by_cases hfield : field.1 = other
    · rw [if_neg (by simpa using hfield), ih]
      split
      · rfl
      · next hne => rw [if_neg fun heq => hne (heq.symm.trans hfield)]
    · rw [if_pos (by simpa using hfield), Dict.lookup_cons, ih]
      by_cases hname : field.1 = name
      · rw [if_pos hname, if_pos hname, if_neg (hname ▸ hfield)]
      · rw [if_neg hname, if_neg hname]

theorem lookup_removeOwned_ne (merged : List (String × Field V)) (h : item.1 ≠ name) :
    (removeOwned valueKey merged item).lookup name = merged.lookup name := by
  rw [removeOwned]
  split
  · dsimp only
    split
    · rw [lookup_erased, if_neg h.symm]
    · exact lookup_assign_ne merged _ h.symm
  · rfl

theorem kept_removeOwned (existing : List (String × Field V)) (item : String × List V)
    (oldOwned : List (String × List V)) (name : String) :
    kept valueKey (removeOwned valueKey existing item) oldOwned name = kept valueKey existing (item :: oldOwned) name := by
  by_cases hname : item.1 = name
  · subst hname
    rw [kept, kept, removeOwned]
    cases hfield : existing.lookup item.1 with
    | none => simp only [hfield]
    | some field =>
      cases field with
      | single value => simp only [hfield]
      | list values =>
        have hfilter : (values.filter fun value => valueKey value ∉ item.2.map valueKey).filter
              (fun value => ∀ other ∈ oldOwned, other.1 = item.1 → valueKey value ∉ other.2.map valueKey) =
            values.filter fun value => ∀ other ∈ item :: oldOwned, other.1 = item.1 →
              valueKey value ∉ other.2.map valueKey := by
          rw [filter_filter]
          apply filter_congr
          intro value _
          rw [← Bool.decide_and, decide_eq_decide, forall_mem_cons, and_comm]
          simp
        dsimp only
        rw [← hfilter]
        generalize values.filter (fun value => valueKey value ∉ item.2.map valueKey) = remaining
        cases remaining with
        | nil => rw [isEmpty_nil, if_pos rfl, lookup_erased, if_pos rfl]; rfl
        | cons value remaining => rw [isEmpty_cons, if_neg Bool.false_ne_true, lookup_assign_self]
  · rw [kept, kept, lookup_removeOwned_ne existing hname]
    split
    · apply filter_congr
      intro value _
      rw [decide_eq_decide, forall_mem_cons]
      simp [hname]
    · rfl

theorem base_lookup_removed (existing : List (String × Field V)) (oldOwned : List (String × List V)) (name : String) :
    base ((oldOwned.foldl (removeOwned valueKey) existing).lookup name) = kept valueKey existing oldOwned name := by
  induction oldOwned generalizing existing with
  | nil =>
    rw [kept, foldl_nil]
    split
    · next hfield => rw [hfield]; simp [base]
    · rfl
  | cons item oldOwned ih => rw [foldl_cons, ih, kept_removeOwned]

theorem lookup_removed (h : ∀ item ∈ oldOwned, item.1 ≠ name) (existing : List (String × Field V)) :
    (oldOwned.foldl (removeOwned valueKey) existing).lookup name = existing.lookup name := by
  induction oldOwned generalizing existing with
  | nil => rfl
  | cons item oldOwned ih =>
    obtain ⟨hitem, hrest⟩ := forall_mem_cons.mp h
    rw [foldl_cons, ih hrest, lookup_removeOwned_ne existing hitem]

/-! ### Contributions -/

theorem contributed_eq_nil (h : name ∉ items.map Prod.fst) : contributed items name = [] := by
  rw [contributed, flatMap_eq_nil_iff]
  intro item hitem
  exact if_neg fun heq => h (mem_map.mpr ⟨item, hitem, heq⟩)

theorem contributed_append (items : List (String × List V)) (item : String × List V) (name : String) :
    contributed (items ++ [item]) name = contributed items name ++ if item.1 = name then item.2 else [] := by
  simp [contributed]

/-- What the tasks have left behind after some items. -/
structure Merged (valueKey : V → K) (merged : List (String × Field V)) (items : List (String × List V))
    (state : List (String × Field V) × List (String × List V)) : Prop where
  field : ∀ name, state.1.lookup name = if name ∈ items.map Prod.fst then
      some (.list (base (merged.lookup name) ++ added valueKey (base (merged.lookup name)) items name))
    else merged.lookup name
  owned : ∀ name, (state.2.lookup name).getD [] = added valueKey (base (merged.lookup name)) items name
  nodup : (state.2.map Prod.fst).Nodup

theorem merged_contribute (merged : List (String × Field V)) (items : List (String × List V)) :
    Merged valueKey merged items (items.foldl (contribute valueKey) (merged, [])) := by
  induction items using reverseRecOn with
  | nil => exact ⟨fun _ => rfl, fun _ => rfl, nodup_nil⟩
  | append_singleton items item ih =>
    rw [foldl_append, foldl_cons, foldl_nil]
    generalize items.foldl (contribute valueKey) (merged, []) = state at ih ⊢
    have hbase : base (state.1.lookup item.1) =
        base (merged.lookup item.1) ++ added valueKey (base (merged.lookup item.1)) items item.1 := by
      rw [ih.field]
      split
      · rfl
      · next hnew => rw [added, contributed_eq_nil hnew]; exact (append_nil _).symm
    have hnext : added valueKey (base (merged.lookup item.1)) (items ++ [item]) item.1 =
        added valueKey (base (merged.lookup item.1)) items item.1 ++
          firstsFrom valueKey ((base (state.1.lookup item.1)).map valueKey) item.2 := by
      rw [added, contributed_append, if_pos rfl]
      apply firstsFrom_append
      intro k
      rw [hbase, map_append, mem_append, added, mem_keys_firstsFrom]
      tauto
    refine ⟨?_, ?_, nodup_assign ih.nodup _ _⟩
    · intro name
      rw [contribute]
      by_cases hname : name = item.1
      · subst hname
        rw [lookup_assign_self, if_pos (by simp), hnext, appendUnique, firstsFrom_filter (fun k => or_self_iff.symm), hbase,
          append_assoc]
      · rw [lookup_assign_ne _ _ hname, ih.field, added, added, contributed_append, if_neg (Ne.symm hname),
          append_nil]
        have hmem : name ∈ (items ++ [item]).map Prod.fst ↔ name ∈ items.map Prod.fst := by simp [hname]
        simp only [hmem]
    · intro name
      rw [contribute]
      by_cases hname : name = item.1
      · subst hname
        rw [lookup_assign_self, Option.getD_some, ih.owned, hnext, appendUnique, firstsFrom_filter]
        intro k
        rw [hbase, map_append, mem_append]
        tauto
      · rw [lookup_assign_ne _ _ hname, ih.owned, added, added, contributed_append, if_neg (Ne.symm hname),
          append_nil]

/-! ### The result -/

variable (valueKey) (existing) (oldOwned) (contributions : List (List (String × List V))) (name)

theorem field_replaced :
    (replaceOwnedMetadata valueKey existing oldOwned contributions).1.lookup name =
      if name ∈ contributions.flatten.map Prod.fst then
        some (.list (kept valueKey existing oldOwned name ++
          added valueKey (kept valueKey existing oldOwned name) contributions.flatten name))
      else (oldOwned.foldl (removeOwned valueKey) existing).lookup name := by
  rw [replaceOwnedMetadata, ← base_lookup_removed]
  exact (merged_contribute _ _).field name

theorem base_replaced :
    base ((replaceOwnedMetadata valueKey existing oldOwned contributions).1.lookup name) =
      kept valueKey existing oldOwned name ++
        added valueKey (kept valueKey existing oldOwned name) contributions.flatten name := by
  rw [field_replaced]
  split
  · rfl
  · next hnew => rw [base_lookup_removed, added, contributed_eq_nil hnew]; exact (append_nil _).symm

theorem mem_owned (item : String × List V) :
    item ∈ (replaceOwnedMetadata valueKey existing oldOwned contributions).2 ↔
      item.2 = added valueKey (kept valueKey existing oldOwned item.1) contributions.flatten item.1 ∧ item.2 ≠ [] := by
  have hmerged := @merged_contribute V K _ valueKey (oldOwned.foldl (removeOwned valueKey) existing)
    contributions.flatten
  have howned := hmerged.owned item.1
  rw [base_lookup_removed] at howned
  rw [replaceOwnedMetadata, List.mem_filter, ← lookup_iff_mem hmerged.nodup, ← howned]
  simp only [Bool.not_eq_true', isEmpty_eq_false_iff]
  constructor
  · rintro ⟨hlookup, hne⟩
    exact ⟨by rw [hlookup, Option.getD_some], hne⟩
  · rintro ⟨heq, hne⟩
    refine ⟨?_, hne⟩
    cases hlookup : (contributions.flatten.foldl (contribute valueKey) _).2.lookup item.1 with
    | none => rw [hlookup] at heq; exact absurd heq hne
    | some values => rw [hlookup] at heq; rw [heq, Option.getD_some]

theorem kept_again :
    kept valueKey (replaceOwnedMetadata valueKey existing oldOwned contributions).1
      (replaceOwnedMetadata valueKey existing oldOwned contributions).2 name = kept valueKey existing oldOwned name := by
  have howned := mem_owned valueKey existing oldOwned contributions
  rw [kept, field_replaced]
  split
  · next values hfield =>
    split at hfield
    · -- the user's values are not owned, and all the added ones are
      obtain rfl := Field.list.inj (Option.some.inj hfield)
      rw [filter_append, List.filter_eq_self.mpr, filter_eq_nil_iff.mpr, append_nil]
      · intro value hvalue hunowned
        refine of_decide_eq_true hunowned (name, _) ((howned _).mpr ⟨rfl, ne_nil_of_mem hvalue⟩) rfl ?_
        exact mem_map_of_mem hvalue
      · intro value hvalue
        refine decide_eq_true fun item hitem hname hkey => ?_
        rw [((howned item).mp hitem).1, hname, added, mem_keys_firstsFrom] at hkey
        exact hkey.1 (mem_map_of_mem hvalue)
    · next hnew =>
      rw [← base_lookup_removed, hfield, List.filter_eq_self.mpr]
      · rfl
      · intro value _
        refine decide_eq_true fun item hitem hname _ => ?_
        obtain ⟨heq, hne⟩ := (howned item).mp hitem
        rw [hname, added, contributed_eq_nil hnew] at heq
        exact hne heq
  · next hlist =>
    split
    · next hnamed => exact absurd (if_pos hnamed) (hlist _)
    · exact base_lookup_removed existing oldOwned name

theorem owned_keys (k : K) :
    (∃ item ∈ (replaceOwnedMetadata valueKey existing oldOwned contributions).2, item.1 = name ∧
        k ∈ item.2.map valueKey) ↔
      k ∈ (added valueKey (kept valueKey existing oldOwned name) contributions.flatten name).map valueKey := by
  constructor
  · rintro ⟨item, hitem, rfl, hk⟩
    rwa [((mem_owned valueKey existing oldOwned contributions item).mp hitem).1] at hk
  · intro hk
    refine ⟨(name, _), (mem_owned valueKey existing oldOwned contributions _).mpr ⟨rfl, ?_⟩, rfl, hk⟩
    obtain ⟨value, hvalue, -⟩ := mem_map.mp hk
    exact ne_nil_of_mem hvalue

theorem replaceOwnedMetadata_owned :
    (let user := kept valueKey existing oldOwned
     let new := fun name => added valueKey (user name) contributions.flatten name
     let result := replaceOwnedMetadata valueKey existing oldOwned contributions
     let again := replaceOwnedMetadata valueKey result.1 result.2 contributions
     let undone := replaceOwnedMetadata valueKey result.1 result.2 []
     (∀ name, base (result.1.lookup name) = user name ++ new name ∧ ((new name).map valueKey).Nodup ∧
       ∀ k, k ∈ (new name).map valueKey ↔
         k ∉ (user name).map valueKey ∧ k ∈ (contributed contributions.flatten name).map valueKey) ∧
       (∀ item, item ∈ result.2 ↔ item.2 = new item.1 ∧ item.2 ≠ []) ∧
       (∀ name, again.1.lookup name = result.1.lookup name) ∧ (∀ item, item ∈ again.2 ↔ item ∈ result.2) ∧
       (∀ name, base (undone.1.lookup name) = user name) ∧ undone.2 = [] ∧
       ∀ reordered : List (List (String × List V)), reordered.Perm contributions →
         let other := replaceOwnedMetadata valueKey existing oldOwned reordered
         ∀ name k,
           (k ∈ (base (other.1.lookup name)).map valueKey ↔ k ∈ (base (result.1.lookup name)).map valueKey) ∧
           ((∃ item ∈ other.2, item.1 = name ∧ k ∈ item.2.map valueKey) ↔
             ∃ item ∈ result.2, item.1 = name ∧ k ∈ item.2.map valueKey)) := by
  intro user new result again undone
  have huser : ∀ name, kept valueKey result.1 result.2 name = user name :=
    fun name => kept_again valueKey name existing oldOwned contributions
  have howned := mem_owned valueKey existing oldOwned contributions
  refine ⟨?_, howned, ?_, ?_, ?_, rfl, ?_⟩
  · intro name
    exact ⟨base_replaced .., nodup_firstsFrom _ _, mem_keys_firstsFrom _ _⟩
  · intro name
    rw [field_replaced, huser, field_replaced]
    split
    · rfl
    · next hnew =>
      rw [lookup_removed, field_replaced, if_neg hnew]
      intro item hitem hname
      obtain ⟨heq, hne⟩ := (howned item).mp hitem
      rw [hname, added, contributed_eq_nil hnew] at heq
      exact hne heq
  · intro item
    rw [mem_owned, huser]
    exact (howned item).symm
  · intro name
    rw [base_replaced, huser]
    exact append_nil _
  · intro reordered hperm other name k
    have hitems : (contributed reordered.flatten name).Perm (contributed contributions.flatten name) :=
      hperm.flatten.flatMap_right _
    have hkeys : k ∈ (added valueKey (user name) reordered.flatten name).map valueKey ↔
        k ∈ (added valueKey (user name) contributions.flatten name).map valueKey := by
      rw [added, added, mem_keys_firstsFrom, mem_keys_firstsFrom, (hitems.map valueKey).mem_iff]
    rw [owned_keys, owned_keys, base_replaced, base_replaced, map_append, map_append, mem_append,
      mem_append]
    exact ⟨or_congr_right hkeys, hkeys⟩

/-- A scalar that values were added to comes back as a list, a scalar that was owned stays, and so does
    a value that the user has twice. -/
theorem scalar_not_restored :
    replaceOwnedMetadata id [("a", .single "x")] [] [[("a", ["y"])]] = ([("a", .list ["x", "y"])], [("a", ["y"])]) ∧
    replaceOwnedMetadata id [("a", .list ["x", "y"])] [("a", ["y"])] [] = ([("a", .list ["x"])], []) ∧
    replaceOwnedMetadata id [("a", .single "y")] [("a", ["y"])] [] = ([("a", .single "y")], []) ∧
    replaceOwnedMetadata id [("a", .list ["x", "x"])] [] [[("a", ["x"])]] = ([("a", .list ["x", "x"])], []) := by
  decide +kernel

end

end MultiRag.TableMetadata
