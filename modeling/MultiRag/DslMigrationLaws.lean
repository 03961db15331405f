/-
  **What a migration keeps.**

  A second migration finds new ids only (`Settled`) and changes nothing. A string of a component
  is rewritten where it stands; a reference in braces is one match of the pattern, and the reader
  finds the new id and the same path in it.
-/
import MultiRag.DslMigration
import MultiRag.Fallible
import MultiRag.VariableStore

namespace MultiRag.DslMigration

open Regex Dict Option List

/-! ### Names -/

theorem renamed_component (name : String) :
    renamed COMPONENT_RENAMES (renamed COMPONENT_RENAMES name) = renamed COMPONENT_RENAMES name := by
  have hcases : renamed COMPONENT_RENAMES name = name ∨
      renamed COMPONENT_RENAMES name ∈ ["TokenChunker", "TitleChunker", "DocGenerator"] := by
    by_cases hsplitter : name = "Splitter"
    · subst hsplitter
      right
      decide
    · by_cases hmerger : name = "HierarchicalMerger"
      · subst hmerger
        right
        decide
      · by_cases hgenerator : name = "PDFGenerator"
        · subst hgenerator
          right
          decide
        · left
          simp [renamed, COMPONENT_RENAMES, Dict.lookup_cons, Ne.symm hsplitter, Ne.symm hmerger, Ne.symm hgenerator]
  rcases hcases with heq | hmem
  · rw [heq, heq]
  · have hfixed : ∀ other ∈ ["TokenChunker", "TitleChunker", "DocGenerator"],
        renamed COMPONENT_RENAMES other = other := by decide
    exact hfixed _ hmem

theorem renamed_nodeType (name : String) :
    renamed NODE_TYPE_RENAMES (renamed NODE_TYPE_RENAMES name) = renamed NODE_TYPE_RENAMES name := by
  by_cases hsplitter : name = "splitterNode"
  · subst hsplitter
    decide
  · have heq : renamed NODE_TYPE_RENAMES name = name := by
      simp [renamed, NODE_TYPE_RENAMES, Dict.lookup_cons, Ne.symm hsplitter]
    rw [heq, heq]

theorem head?_of_append {front text back : List Char} (hfront : front ≠ []) (htext : text ≠ [])
    (h : front <+: text ++ back) : front.head? = text.head? := by
  obtain ⟨c, front, rfl⟩ := exists_cons_of_ne_nil hfront
  obtain ⟨d, text, rfl⟩ := exists_cons_of_ne_nil htext
  rw [cons_append, cons_prefix_cons] at h
  rw [head?_cons, head?_cons, h.1]

theorem new_names : ∀ rename ∈ COMPONENT_RENAMES, ∀ other ∈ COMPONENT_RENAMES,
    rename.2.toList ≠ [] ∧ (other.1 ++ ":").toList ≠ [] ∧ (other.1 ++ ":").toList.head? ≠ rename.2.toList.head? := by
  decide +kernel

theorem newId_newId (componentId : String) : newId (newId componentId) = newId componentId := by
  cases hfound : COMPONENT_RENAMES.find? fun rename => (rename.1 ++ ":").toList.isPrefixOf componentId.toList with
  | none =>
    have hsame : newId componentId = componentId := by rw [newId, hfound]
    rw [hsame, hsame]
  | some rename =>
    have hmem := mem_of_find?_eq_some hfound
    have hnew : newId componentId =
        rename.2 ++ ":" ++ String.ofList (componentId.toList.drop (rename.1 ++ ":").toList.length) := by
      rw [newId, hfound]
    have htext : ∃ back, (newId componentId).toList = rename.2.toList ++ back := by
      rw [hnew, String.append_assoc, String.toList_append]
      exact ⟨_, rfl⟩
    obtain ⟨back, htext⟩ := htext
    have hnone : (COMPONENT_RENAMES.find? fun other =>
        (other.1 ++ ":").toList.isPrefixOf (newId componentId).toList) = none := by
      rw [find?_eq_none]
      intro other hother hprefix
      obtain ⟨hne, hotherNe, hhead⟩ := new_names rename hmem other hother
      rw [htext, isPrefixOf_iff_prefix] at hprefix
      exact hhead (head?_of_append hotherNe hne hprefix)
    rw [newId, hnone]

/-! ### A second migration -/

def Settled (ids : List String) : Prop := ∀ componentId ∈ ids, newId componentId = componentId

variable {ids : List String}

theorem mapped_settled (h : Settled ids) (text : String) : mapped ids text = text := by
  rw [mapped]
  split
  · next hmem => exact h text hmem
  · rfl

theorem rewriteVariableRefs_settled (h : Settled ids) (text : String) : rewriteVariableRefs ids text = text := by
  rw [rewriteVariableRefs]
  split
  · next hmem => exact h text hmem
  · apply replace_same
    intro found
    rw [repl, mapped_settled h, String.toList_ofList, append_assoc, takeWhile_append_dropWhile,
      takeWhile_append_dropWhile]

mutual

theorem rewriteValue_settled (h : Settled ids) : (value : Json) → rewriteValue ids value = value
  | .str text => by rw [rewriteValue, rewriteVariableRefs_settled h]
  | .arr items => by rw [rewriteValue, rewriteItems_settled h]
  | .obj items => by rw [rewriteValue, rewriteFields_settled h]
  | .null | .bool _ | .int _ | .float _ => by rw [rewriteValue] <;> simp

theorem rewriteItems_settled (h : Settled ids) : (items : List Json) → rewriteItems ids items = items
  | [] => rfl
  | item :: items => by rw [rewriteItems, rewriteValue_settled h, rewriteItems_settled h]

theorem rewriteFields_settled (h : Settled ids) : (items : List (String × Json)) → rewriteFields ids items = items
  | [] => rfl
  | (key, value) :: items => by rw [rewriteFields, rewriteValue_settled h, rewriteFields_settled h]

end

theorem pyReplace_same (old : List Char) (steps : Nat) (text : List Char) : pyReplace old old steps text = text := by
  fun_induction pyReplace old old steps text with
  | case1 text => rfl
  | case2 steps => rfl
  | case3 steps c text hprefix ih =>
    rw [ih]
    exact prefix_iff_eq_append.mp (List.isPrefixOf_iff_prefix.mp hprefix)
  | case4 steps c text _ ih => rw [ih]

theorem replaceIds_settled (h : Settled ids) (edgeId : String) : replaceIds ids edgeId = edgeId := by
  have hfold : ∀ sorted : List String, Settled sorted → sorted.foldl replaceId edgeId = edgeId := by
    intro sorted hsorted
    induction sorted with
    | nil => rfl
    | cons componentId sorted ih =>
      have hsame : replaceId edgeId componentId = edgeId := by
        rw [replaceId]
        split
        · rfl
        · rw [hsorted componentId mem_cons_self, pyReplace_same, String.ofList_toList]
      rw [foldl_cons, hsame]
      exact ih fun other hother => hsorted other (mem_cons_of_mem _ hother)
  apply hfold
  intro componentId hmem
  exact h componentId (mem_mergeSort.mp hmem)

theorem keeps_onStr {f g : String → String} (h : ∀ text, g (f text) = f text) : Keeps (onStr f) (onStr g) := by
  intro value changed hvalue
  cases value with
  | str text =>
    obtain rfl := some.inj hvalue
    rw [onStr, h]
  | _ =>
    obtain rfl := some.inj hvalue
    rfl

theorem keeps_getKey {f g : String → String} (h : ∀ text, g (f text) = f text) : Keeps (getKey f) (getKey g) := by
  intro value changed hvalue
  cases value with
  | str text =>
    obtain rfl := some.inj hvalue
    rw [getKey, h]
  | arr items => cases hvalue
  | obj items => cases hvalue
  | _ =>
    obtain rfl := some.inj hvalue
    rfl

theorem keeps_onList {f g : Json → Option Json} (h : Keeps f g) : Keeps (onList f) (onList g) := by
  intro value changed hvalue
  cases value with
  | arr items =>
    obtain ⟨after, hafter, rfl⟩ := map_eq_some_iff.mp hvalue
    have hagain : after.mapM g = some after := by
      rw [mapM_some_iff_forall₂] at hafter ⊢
      rw [forall₂_same]
      intro item hitem
      obtain ⟨old, -, hold⟩ := exists_left_of_forall₂ hafter hitem
      exact h old item hold
    rw [onList, hagain, map_some]
  | _ =>
    obtain rfl := some.inj hvalue
    rfl

theorem keeps_onObj {f g : List (String × Json) → Option (List (String × Json))}
    (h : ∀ items after, f items = some after → g after = some after) : Keeps (onObj f) (onObj g) := by
  intro value changed hvalue
  cases value with
  | obj items =>
    obtain ⟨after, hafter, rfl⟩ := map_eq_some_iff.mp hvalue
    rw [onObj, h items after hafter, map_some]
  | _ =>
    obtain rfl := some.inj hvalue
    rfl

theorem keeps_updates {changes again : List (String × (Json → Option Json))}
    (hdist : (changes.map Prod.fst).Nodup)
    (hkeeps : Forall₂ (fun change next => change.1 = next.1 ∧ Keeps change.2 next.2) changes again) :
    Keeps (onObj (updates changes)) (onObj (updates again)) :=
  keeps_onObj fun _ _ hafter => updates_again hafter hdist hkeeps

variable {again : List String}

theorem keeps_mapped (h : Settled again) : Keeps (onStr (mapped ids)) (onStr (mapped again)) :=
  keeps_onStr fun _ => mapped_settled h _

theorem keeps_rewrite (h : Settled again) :
    Keeps (fun value => some (rewriteValue ids value)) (fun value => some (rewriteValue again value)) := by
  intro value changed _
  exact congrArg some (rewriteValue_settled h changed)

theorem keeps_ids (h : Settled again) : Keeps (onList (getKey (mapped ids))) (onList (getKey (mapped again))) :=
  keeps_onList (keeps_getKey fun _ => mapped_settled h _)

theorem renameObj_again {obj after : List (String × Json)} (h : renameObj obj = some after) :
    renameObj after = some after := by
  obtain ⟨name, hname, rfl⟩ := map_eq_some_iff.mp h
  have hsame : getKey (renamed COMPONENT_RENAMES) name = some name :=
    keeps_getKey renamed_component _ name hname
  have hlookup := lookup_assign_self obj "component_name" name
  rw [renameObj, hlookup, getD_some, hsame, map_some, assign_lookup _ hlookup]

section

variable (h : Settled again)
include h

theorem keeps_component : Keeps (rewriteComponent ids) (rewriteComponent again) := by
  intro component changed hchanged
  have hdist : ((componentChanges ids).map Prod.fst).Nodup := by simp [componentChanges]
  rw [rewriteComponent, rewriteValue_settled h]
  refine keeps_updates hdist ?_ _ changed hchanged
  exact .cons ⟨rfl, keeps_onObj fun _ _ => renameObj_again⟩ <| .cons ⟨rfl, keeps_ids h⟩ <|
    .cons ⟨rfl, keeps_ids h⟩ <| .cons ⟨rfl, keeps_mapped h⟩ .nil

theorem keeps_data :
    Keeps (onObj (updates (dataChanges ids))) (onObj (updates (dataChanges again))) := by
  have hdist : ((dataChanges ids).map Prod.fst).Nodup := by simp [dataChanges]
  apply keeps_updates hdist
  exact .cons ⟨rfl, keeps_onStr renamed_component⟩ <| .cons ⟨rfl, keeps_onStr renamed_component⟩ <|
    .cons ⟨rfl, keeps_rewrite h⟩ .nil

theorem keeps_node :
    Keeps (onObj (updates (nodeChanges ids))) (onObj (updates (nodeChanges again))) := by
  have hdist : ((nodeChanges ids).map Prod.fst).Nodup := by simp [nodeChanges]
  apply keeps_updates hdist
  exact .cons ⟨rfl, keeps_mapped h⟩ <| .cons ⟨rfl, keeps_mapped h⟩ <|
    .cons ⟨rfl, keeps_onStr renamed_nodeType⟩ <| .cons ⟨rfl, keeps_data h⟩ .nil

theorem keeps_edge :
    Keeps (onObj (updates (edgeChanges ids))) (onObj (updates (edgeChanges again))) := by
  have hdist : ((edgeChanges ids).map Prod.fst).Nodup := by simp [edgeChanges]
  apply keeps_updates hdist
  exact .cons ⟨rfl, keeps_mapped h⟩ <| .cons ⟨rfl, keeps_mapped h⟩ <|
    .cons ⟨rfl, keeps_onStr fun _ => replaceIds_settled h _⟩ .nil

theorem keeps_graph :
    Keeps (onObj (updates (graphChanges ids))) (onObj (updates (graphChanges again))) := by
  have hdist : ((graphChanges ids).map Prod.fst).Nodup := by simp [graphChanges]
  apply keeps_updates hdist
  exact .cons ⟨rfl, keeps_onList (keeps_node h)⟩ <| .cons ⟨rfl, keeps_onList (keeps_edge h)⟩ .nil

end

variable {components : List (String × Json)}

theorem mem_rewriteComponents {kept : List (String × Json)}
    (hkept : rewriteComponents ids components = some kept) {item : String × Json} (hitem : item ∈ kept) :
    ∃ old ∈ components, item.1 = newId old.1 ∧ rewriteComponent ids old.2 = some item.2 := by
  obtain ⟨items, hitems, rfl⟩ := map_eq_some_iff.mp hkept
  rw [mapM_some_iff_forall₂] at hitems
  obtain ⟨old, hold, hchanged⟩ := exists_left_of_forall₂ hitems (mem_ofItems hitem)
  obtain ⟨component, hcomp, rfl⟩ := map_eq_some_iff.mp hchanged
  exact ⟨old, hold, rfl, hcomp⟩

theorem settled_keys {kept : List (String × Json)} (hkept : rewriteComponents ids components = some kept) :
    Settled (kept.map Prod.fst) := by
  intro componentId hmem
  obtain ⟨item, hitem, rfl⟩ := mem_map.mp hmem
  obtain ⟨old, -, hold, -⟩ := mem_rewriteComponents hkept hitem
  rw [hold, newId_newId]

theorem keeps_components (h : Settled again) :
    Keeps (onObj (rewriteComponents ids)) (onObj (rewriteComponents again)) := by
  apply keeps_onObj
  intro components kept hkept
  have hsame : kept.mapM (fun item => (rewriteComponent again item.2).map fun component => (newId item.1, component)) =
      some kept := by
    rw [mapM_some_iff_forall₂, forall₂_same]
    intro item hitem
    obtain ⟨old, -, hid, hold⟩ := mem_rewriteComponents hkept hitem
    rw [keeps_component h _ _ hold, map_some, hid, newId_newId, ← hid]
  obtain ⟨items, -, rfl⟩ := map_eq_some_iff.mp hkept
  rw [rewriteComponents, hsame, map_some, ofItems_eq (nodup_ofItems items)]

theorem keeps_dsl (h : Settled again) :
    Keeps (onObj (updates (dslChanges ids))) (onObj (updates (dslChanges again))) := by
  have hdist : ((dslChanges ids).map Prod.fst).Nodup := by simp [dslChanges]
  apply keeps_updates hdist
  exact .cons ⟨rfl, keeps_components h⟩ <| .cons ⟨rfl, keeps_ids h⟩ <| .cons ⟨rfl, keeps_graph h⟩ <|
    .cons ⟨rfl, keeps_rewrite h⟩ <| .cons ⟨rfl, keeps_rewrite h⟩ <| .cons ⟨rfl, keeps_rewrite h⟩ .nil

theorem migrated_components {dsl migrated : Json} (h : normalizeChunkerDsl dsl = some migrated) (hcomps : dsl.get? "components" = some (.obj components)) :
    ∃ kept, rewriteComponents (components.map Prod.fst) components = some kept ∧
      migrated.get? "components" = some (.obj kept) := by
  rw [normalizeChunkerDsl, hcomps] at h
  cases dsl with
  | obj items =>
    obtain ⟨after, hafter, rfl⟩ := map_eq_some_iff.mp h
    rw [updates, dslChanges, foldlM_cons, bind_eq_bind, bind_eq_some_iff] at hafter
    obtain ⟨between, hbetween, hrest⟩ := hafter
    obtain ⟨changed, hchanged, hlookup⟩ := update_lookup_some hbetween hcomps
    obtain ⟨kept, hkept, rfl⟩ := map_eq_some_iff.mp hchanged
    refine ⟨kept, hkept, ?_⟩
    rw [Json.get?, ← hlookup]
    exact updates_lookup_ne hrest (by simp)
  | _ => cases hcomps

theorem normalize_again {dsl migrated : Json} (h : normalizeChunkerDsl dsl = some migrated) :
    normalizeChunkerDsl migrated = some migrated := by
  cases hcomps : dsl.get? "components" with
  | none =>
    rw [normalizeChunkerDsl, hcomps] at h
    obtain rfl := some.inj h
    rw [normalizeChunkerDsl, hcomps]
  | some value =>
    cases value with
    | obj components =>
      obtain ⟨kept, hkept, hmigrated⟩ := migrated_components h hcomps
      rw [normalizeChunkerDsl, hcomps] at h
      rw [normalizeChunkerDsl, hmigrated]
      exact keeps_dsl (settled_keys hkept) _ _ h
    | _ =>
      rw [normalizeChunkerDsl, hcomps] at h
      obtain rfl := some.inj h
      rw [normalizeChunkerDsl, hcomps]

end MultiRag.DslMigration
