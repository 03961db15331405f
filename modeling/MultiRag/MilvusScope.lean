/-
  **Which rows a Milvus update or deletion can change**
  (`core/utils/milvus_conn.py`).

  The filter is a text.  What Milvus makes of a text is a parameter; that it reads a
  well-formed filter as the entries it was written from is the assumption `ReadsAs`.  For
  a deletion it is assumed of quotable values only, since nothing is escaped there.
-/
import MultiRag.MutationScope

namespace MultiRag.StoreMutation

open Conjunction List

namespace MilvusConnection

/-! ### Texts -/

theorem append_ne_empty {front back : String} (h : front ≠ "" ∨ back ≠ "") :
    front ++ back ≠ "" := by
  intro hboth
  obtain ⟨hfront, hback⟩ := String.append_eq_empty_iff.mp hboth
  rcases h with h | h
  · exact h hfront
  · exact h hback

theorem intercalate_eq_empty {parts : List String} (hparts : ∀ part ∈ parts, part ≠ "") :
    " && ".intercalate parts = "" ↔ parts = [] := by
  constructor
  · intro h
    by_contra hne
    obtain ⟨part, hpart⟩ := exists_mem_of_ne_nil parts hne
    exact intercalate_ne_empty hpart (hparts part hpart) h
  · rintro rfl
    rfl

section

variable (isPrintable : Char → Bool)

/-- An entry of a condition of the Milvus connection; `names` are those of the primary key. -/
def milvusEntry (names : List String) (e : String × Json) : Atom String String Json :=
  if e.1 ∈ names then .key ((asList e.2).map (pyStr isPrintable)) else .field e.1 (asList e.2)

def ReadsAs (backend : Backend) (text : String) (selection : List (Atom String String Json)) :
    Prop :=
  ∀ selects, backend text = some selects → ∀ row, selects row = true ↔ Selects selection row

variable {isPrintable} {names : List String} {items : List (String × Json)}

theorem key_mem_entries {xs : List String} :
    Atom.key xs ∈ items.map (milvusEntry isPrintable names) ↔
      ∃ e ∈ items, e.1 ∈ names ∧ (asList e.2).map (pyStr isPrintable) = xs := by
  rw [mem_map]
  apply exists_congr
  intro e
  apply and_congr_right
  intro _
  unfold milvusEntry
  by_cases hname : e.1 ∈ names
  · simp [hname]
  · simp [hname]

theorem field_mem_entries {a : String} {vs : List Json} :
    Atom.field a vs ∈ items.map (milvusEntry isPrintable names) ↔
      ∃ e ∈ items, e.1 ∉ names ∧ e.1 = a ∧ asList e.2 = vs := by
  rw [mem_map]
  apply exists_congr
  intro e
  apply and_congr_right
  intro _
  unfold milvusEntry
  by_cases hname : e.1 ∈ names
  · simp [hname]
  · simp [hname]

end

section

variable {isPrintable : Char → Bool}

def updateRefuses (e : String × Json) : Bool :=
  updateName e.1 == "exists" || updateName e.1 == "must_not" || !wellNamed (updateName e.1) ||
    (asList e.2).any (!isScalar ·)

variable {e : String × Json}

theorem updatePart_accepts :
    (∃ part, updatePart e = .ok part) ↔ updateRefuses e = false := by
  unfold updatePart updateRefuses
  by_cases hname : updateName e.1 = "exists" ∨ updateName e.1 = "must_not" ∨
      wellNamed (updateName e.1) = false
  · rw [if_pos hname]
    rcases hname with hname | hname | hname
    · simp [hname]
    · simp [hname]
    · simp [hname]
  rw [if_neg hname]
  simp only [not_or, Bool.not_eq_false] at hname
  obtain ⟨hexists, hnot, hwell⟩ := hname
  by_cases hvalues : (asList e.2).any (!isScalar ·) = true
  · rw [if_pos hvalues, hvalues]
    simp
  · rw [if_neg hvalues]
    rw [Bool.not_eq_true] at hvalues
    rw [hvalues, hwell]
    refine iff_of_true ?_ (by simp [hexists, hnot])
    split
    · split <;> exact ⟨_, rfl⟩
    · split <;> exact ⟨_, rfl⟩

theorem updatePart_ne_empty {part : String} (h : updatePart e = .ok part) :
    part ≠ "" := by
  unfold updatePart at h
  dsimp only at h
  split at h
  · cases h
  split at h
  · cases h
  split at h
  · split at h <;> cases h
    · exact append_ne_empty (.inr (by decide))
    · exact append_ne_empty (.inr (by decide))
  · split at h <;> cases h
    · exact append_ne_empty (.inl (append_ne_empty (.inr (by decide))))
    · exact append_ne_empty (.inl (append_ne_empty (.inr (by decide))))

variable {items : List (String × Json)}

theorem buildFilter_empty {text : String} (h : buildMilvusUpdateFilter items = .ok text) :
    text = "" ↔ items = [] := by
  unfold buildMilvusUpdateFilter at h
  obtain ⟨parts, hparts, h⟩ := bind_eq_ok.mp h
  cases h
  have hmem := mapM_eq_ok hparts
  rw [intercalate_eq_empty]
  · constructor
    · rintro rfl
      cases items with
      | nil => rfl
      | cons e items =>
        obtain ⟨part, hpart⟩ := exists_mapM_ok.mp ⟨[], hparts⟩ e mem_cons_self
        exact absurd ((hmem part).mpr ⟨e, mem_cons_self, hpart⟩) (by simp)
    · rintro rfl
      cases hparts
      rfl
  · intro part hpart
    obtain ⟨e, -, he⟩ := (hmem part).mp hpart
    exact updatePart_ne_empty he

theorem buildFilter_accepts :
    (∃ text, buildMilvusUpdateFilter items = .ok text) ↔ ∀ e ∈ items, updateRefuses e = false := by
  have hparts : (∃ text, buildMilvusUpdateFilter items = .ok text) ↔
      ∃ parts, items.mapM updatePart = .ok parts := by
    constructor
    · rintro ⟨text, h⟩
      obtain ⟨parts, hparts, -⟩ := bind_eq_ok.mp h
      exact ⟨parts, hparts⟩
    · rintro ⟨parts, hparts⟩
      exact ⟨_, bind_eq_ok.mpr ⟨parts, hparts, rfl⟩⟩
  rw [hparts, exists_mapM_ok]
  apply forall₂_congr
  intro e _
  exact updatePart_accepts

def updateKeys : List String := ["id", "_id", "pk"]

variable (isPrintable) in
def milvusGoal (names : List String) (items : List (String × Json)) (dataset : Option String) :
    List (Atom String String Json) :=
  dataset.toList.map datasetAtom ++ items.map (milvusEntry isPrintable names)

variable (isPrintable) in
/-- Whatever the store does, an update changes rows of the dataset that satisfy the
    condition only; a filter that is sent is read as its entries. -/
def UpdateConfined (c : Condition) (dataset : String) : Prop :=
  ∀ index backend replies row,
    (∀ text, buildMilvusUpdateFilter c.items = .ok text →
      ReadsAs backend text (c.items.map (milvusEntry isPrintable updateKeys))) →
    update index c.items backend replies row ≠ some row →
      Selects (milvusGoal isPrintable updateKeys c.items (some dataset)) row

variable (isPrintable) in
/-- No row satisfies the entries: they admit no common key, or one admits no value. -/
def NoCommonRow (names : List String) (items : List (String × Json)) : Prop :=
  (∀ key, ∃ e ∈ items, e.1 ∈ names ∧ key ∉ (asList e.2).map (pyStr isPrintable)) ∨
    ∃ e ∈ items, e.1 ∉ names ∧ asList e.2 = []

variable {names : List String}

theorem vacant_entries :
    Vacant (items.map (milvusEntry isPrintable names)) ↔ NoCommonRow isPrintable names items := by
  unfold Vacant NoCommonRow
  apply or_congr
  · apply forall_congr'
    intro x
    simp only [key_mem_entries]
    constructor
    · rintro ⟨_, ⟨e, he, hname, rfl⟩, hout⟩
      exact ⟨e, he, hname, hout⟩
    · rintro ⟨e, he, hname, hout⟩
      exact ⟨_, ⟨e, he, hname, rfl⟩, hout⟩
  · simp only [field_mem_entries]
    constructor
    · rintro ⟨_, e, he, hname, -, hnil⟩
      exact ⟨e, he, hname, hnil⟩
    · rintro ⟨e, he, hname, hnil⟩
      exact ⟨e.1, e, he, hname, rfl, hnil⟩

def Names (items : List (String × Json)) (dataset : String) : Prop :=
  ∃ e ∈ items, e.1 = "kb_id" ∧ ∀ v ∈ asList e.2, v = .str dataset

variable {dataset : String}

theorem covers_dataset (hnames : "kb_id" ∉ names) :
    Covers (items.map (milvusEntry isPrintable names)) (datasetAtom dataset) ↔
      Names items dataset := by
  unfold datasetAtom Covers Names
  simp only [field_mem_entries, subset_def, mem_singleton]
  constructor
  · rintro ⟨_, ⟨e, he, -, hname, rfl⟩, hsubset⟩
    exact ⟨e, he, hname, fun v hv => hsubset hv⟩
  · rintro ⟨e, he, hname, hall⟩
    exact ⟨_, ⟨e, he, hname ▸ hnames, hname, rfl⟩, fun {v} hv => hall v hv⟩

theorem update_changed {index : IndexName} {backend : Backend} {replies : List Reply} {row : Row}
    (hchanged : update index items backend replies row ≠ some row) :
    ∃ text selects, buildMilvusUpdateFilter items = .ok text ∧ text ≠ "" ∧
      backend text = some selects ∧ selects row = true := by
  unfold update at hchanged
  cases hindex : index.collection with
  | none =>
    rw [hindex] at hchanged
    exact absurd rfl hchanged
  | some collection =>
    cases htext : buildMilvusUpdateFilter items with
    | error msg =>
      rw [hindex, htext] at hchanged
      exact absurd rfl hchanged
    | ok text =>
      simp only [hindex, htext] at hchanged
      split at hchanged
      · exact absurd rfl hchanged
      next hne =>
      cases hbackend : backend text with
      | none =>
        rw [hbackend] at hchanged
        exact absurd rfl hchanged
      | some selects =>
        rw [hbackend] at hchanged
        refine ⟨text, selects, rfl, hne, hbackend, ?_⟩
        by_contra hrow
        exact hchanged (perform_unselected (by simpa using hrow) _ _)

theorem update_sent {text : String} {selects : Row → Bool}
    (htext : buildMilvusUpdateFilter items = .ok text) (hne : text ≠ "") (replies : List Reply) :
    update (.name "") items (fun _ => some selects) replies =
      perform selects updating ATTEMPT_TIME replies := by
  simp only [update, IndexName.collection, htext, if_neg hne]

theorem update_confined_iff {c : Condition} :
    UpdateConfined isPrintable c dataset ↔
      (∃ e ∈ c.items, updateRefuses e = true) ∨ c.items = [] ∨
        NoCommonRow isPrintable updateKeys c.items ∨ Names c.items dataset := by
  by_cases hrefused : ∃ e ∈ c.items, updateRefuses e = true
  · -- no filter is built
    apply iff_of_true _ (.inl hrefused)
    intro index backend replies row _ hchanged
    obtain ⟨text, selects, htext, -⟩ := update_changed hchanged
    obtain ⟨e, he, hrefuses⟩ := hrefused
    rw [buildFilter_accepts.mp ⟨text, htext⟩ e he] at hrefuses
    cases hrefuses
  rw [or_iff_right hrefused]
  obtain ⟨text, htext⟩ := buildFilter_accepts.mpr fun e he => by
    by_contra hrefuses
    exact hrefused ⟨e, he, by simpa using hrefuses⟩
  by_cases hitems : c.items = []
  · apply iff_of_true _ (.inl hitems)
    intro index backend replies row _ hchanged
    obtain ⟨text', selects, htext', hne, -⟩ := update_changed hchanged
    exact absurd ((buildFilter_empty htext').mpr hitems) hne
  rw [or_iff_right hitems]
  have hentails : NoCommonRow isPrintable updateKeys c.items ∨ Names c.items dataset ↔
      ∀ row, Selects (c.items.map (milvusEntry isPrintable updateKeys)) row →
        Selects (milvusGoal isPrintable updateKeys c.items (some dataset)) row := by
    rw [entails_all_iff, vacant_entries]
    apply or_congr Iff.rfl
    simp only [milvusGoal, Option.toList_some, map_cons, map_nil, singleton_append,
      forall_mem_cons, covers_dataset (show "kb_id" ∉ updateKeys by decide)]
    exact (and_iff_left fun atom hmem => covers_of_mem hmem).symm
  rw [hentails]
  constructor
  · intro hconf
    classical
    -- a store that selects what the filter means
    let selects : Row → Bool := fun row =>
      decide (Selects (c.items.map (milvusEntry isPrintable updateKeys)) row)
    have hrows := (perform_confined_iff updating_ne 1 selects
      (Selects (milvusGoal isPrintable updateKeys c.items (some dataset))) id
      ⟨[reachAll false], false, rfl⟩).mp <| by
        intro replies row hchanged
        apply hconf (.name "") (fun _ => some selects) replies row
        · intro text' _ selects' hselects' row
          obtain rfl := Option.some_inj.mp hselects'
          exact decide_eq_true_iff
        · rw [update_sent htext (mt (buildFilter_empty htext).mp hitems)]
          exact hchanged
    intro row hselects
    exact hrows row (decide_eq_true hselects)
  · intro hall index backend replies row hreads hchanged
    obtain ⟨text', selects, htext', -, hbackend, hrow⟩ := update_changed hchanged
    apply hall
    exact (hreads text' htext' selects hbackend row).mp hrow

end

section

variable {isPrintable : Char → Bool}

def deleteKeys : List String := ["id", "pk"]

theorem deleteScope_cases (items : List (String × Json)) (dataset : Option String) :
    deleteScope items dataset = items ∨
      ∃ d, dataset = some d ∧ d ≠ "" ∧ (∀ e ∈ items, e.1 ≠ "kb_id") ∧
        deleteScope items dataset = items ++ [("kb_id", .str d)] := by
  unfold deleteScope
  cases dataset with
  | none => exact .inl rfl
  | some d =>
    dsimp only
    split
    · next h =>
      refine .inr ⟨d, rfl, h.1, ?_, rfl⟩
      simpa using h.2
    · exact .inl rfl

def bounded (c : Condition) (dataset : Option String) : Condition where
  items := deleteScope c.items dataset
  distinct := by
    rcases deleteScope_cases c.items dataset with h | ⟨d, -, -, hnone, h⟩
    · rw [h]
      exact c.distinct
    · rw [h, map_append]
      apply Nodup.append c.distinct (nodup_singleton _)
      intro key hmem hkey
      obtain ⟨e, he, rfl⟩ := mem_map.mp hmem
      exact hnone e he (by simpa using hkey)
  plain := by
    rcases deleteScope_cases c.items dataset with h | ⟨d, -, -, -, h⟩
    · rw [h]
      exact c.plain
    · rw [h]
      intro e he
      rcases mem_append.mp he with he | he
      · exact c.plain e he
      · obtain rfl := mem_singleton.mp he
        simp [asList, isScalar]

theorem asList_ne_nil {value : Json} (h : value.truthy = true) : asList value ≠ [] := by
  cases value with
  | arr items =>
    simp only [Json.truthy, Bool.not_eq_true', isEmpty_eq_false_iff] at h
    exact h
  | _ => simp [asList]

variable (isPrintable) in
/-- The entries a deletion sends: the ids, and those of the others that are not falsy. -/
def deleteSelection (items : List (String × Json)) : List (Atom String String Json) :=
  (if (chunkIds items).truthy then [.key ((asList (chunkIds items)).map (pyStr isPrintable))]
    else []) ++
    (items.filter fun e => !deleteKeys.contains e.1 && e.2.truthy).map
      (milvusEntry isPrintable deleteKeys)

/-- A text that stands between quotes as it is. -/
def quotable : Json → Bool
  | .str s => s.toList.all fun c => c != '\'' && c != '\\'
  | _ => true

/-- No name or value of a deletion breaks its filter up. -/
def Quotable (items : List (String × Json)) : Prop :=
  (∀ v ∈ asList (chunkIds items), quotable v = true) ∧
    ∀ e ∈ items, e.1 ∉ deleteKeys →
      wellNamed e.1 = true ∧ ∀ v ∈ asList e.2, quotable v = true

variable {items : List (String × Json)}

theorem key_mem_delete {xs : List String} :
    Atom.key xs ∈ deleteSelection isPrintable items ↔
      (chunkIds items).truthy = true ∧
        xs = (asList (chunkIds items)).map (pyStr isPrintable) := by
  unfold deleteSelection
  rw [mem_append, key_mem_entries]
  have hnone : ¬ ∃ e ∈ items.filter fun e => !deleteKeys.contains e.1 && e.2.truthy,
      e.1 ∈ deleteKeys ∧ (asList e.2).map (pyStr isPrintable) = xs := by
    rintro ⟨e, he, hname, -⟩
    have hkept := (List.mem_filter.mp he).2
    simp [hname] at hkept
  rw [or_iff_left hnone]
  split
  · next h => simp [h]
  · next h => simp [h]

theorem field_mem_delete {a : String} {vs : List Json} :
    Atom.field a vs ∈ deleteSelection isPrintable items ↔
      ∃ e ∈ items, e.1 ∉ deleteKeys ∧ e.2.truthy = true ∧ e.1 = a ∧ asList e.2 = vs := by
  unfold deleteSelection
  rw [mem_append, field_mem_entries]
  have hnone : Atom.field a vs ∉ (if (chunkIds items).truthy then
      [Atom.key ((asList (chunkIds items)).map (pyStr isPrintable))] else []) := by
    split <;> simp
  rw [or_iff_right hnone]
  constructor
  · rintro ⟨e, he, hname, ha, hvs⟩
    obtain ⟨he, hkept⟩ := List.mem_filter.mp he
    simp only [Bool.and_eq_true] at hkept
    exact ⟨e, he, hname, hkept.2, ha, hvs⟩
  · rintro ⟨e, he, hname, htruthy, ha, hvs⟩
    exact ⟨e, List.mem_filter.mpr ⟨he, by simp [hname, htruthy]⟩, hname, ha, hvs⟩

theorem not_vacant_delete :
    ¬ Vacant (deleteSelection isPrintable items) := by
  rintro (hkeys | ⟨a, hempty⟩)
  · by_cases hids : (chunkIds items).truthy = true
    · obtain ⟨v, hv⟩ := exists_mem_of_ne_nil _ (asList_ne_nil hids)
      obtain ⟨xs, hxs, hout⟩ := hkeys (pyStr isPrintable v)
      obtain ⟨-, rfl⟩ := key_mem_delete.mp hxs
      exact hout (mem_map_of_mem hv)
    · obtain ⟨xs, hxs, -⟩ := hkeys ""
      exact hids (key_mem_delete.mp hxs).1
  · obtain ⟨e, -, -, htruthy, -, hnil⟩ := field_mem_delete.mp hempty
    exact asList_ne_nil htruthy hnil

variable (isPrintable) in
/-- What a deletion has to keep: every other entry, an id that all entries on the primary
    key admit, and the dataset. -/
def DeleteKeepsAll (items : List (String × Json)) (dataset : Option String) : Prop :=
  (∀ e ∈ items, e.1 ∉ deleteKeys → e.2.truthy = true) ∧
    (∀ e ∈ items, e.1 ∈ deleteKeys → (chunkIds items).truthy = true ∧
      ∀ v ∈ asList (chunkIds items), pyStr isPrintable v ∈ (asList e.2).map (pyStr isPrintable)) ∧
    ∀ d, dataset = some d → ∃ e ∈ items, e.1 = "kb_id" ∧ e.2.truthy = true ∧
      ∀ v ∈ asList e.2, v = .str d

theorem covers_delete_key {ys : List String} :
    Covers (deleteSelection isPrintable items) (.key ys) ↔
      (chunkIds items).truthy = true ∧ ∀ v ∈ asList (chunkIds items), pyStr isPrintable v ∈ ys := by
  unfold Covers
  simp only [key_mem_delete]
  constructor
  · intro hcovers
    by_cases hids : (chunkIds items).truthy = true
    · refine ⟨hids, ?_⟩
      intro v hv
      apply hcovers
      rintro xs ⟨-, rfl⟩
      exact mem_map_of_mem hv
    · obtain ⟨x, hx⟩ := exists_text_notMem ys
      exact absurd (hcovers x fun xs hxs => absurd hxs.1 hids) hx
  · rintro ⟨hids, hall⟩ x hx
    obtain ⟨v, hv, rfl⟩ := mem_map.mp (hx _ ⟨hids, rfl⟩)
    exact hall v hv

variable {c : Condition} {dataset : Option String}

theorem delete_entails_iff :
    (∀ row, Selects (deleteSelection isPrintable c.items) row →
      Selects (milvusGoal isPrintable deleteKeys c.items dataset) row) ↔
      DeleteKeepsAll isPrintable c.items dataset := by
  rw [entails_all_iff, or_iff_right not_vacant_delete]
  simp only [milvusGoal, forall_mem_append, forall_mem_map]
  unfold DeleteKeepsAll
  rw [and_comm, ← and_assoc]
  apply and_congr
  · constructor
    · intro hcovers
      refine ⟨?_, ?_⟩
      · intro e he hname
        have := hcovers e he
        rw [milvusEntry, if_neg hname] at this
        obtain ⟨vs, hvs, -⟩ := this
        obtain ⟨e', he', -, htruthy, hsame, -⟩ := field_mem_delete.mp hvs
        rw [c.unique he' he hsame] at htruthy
        exact htruthy
      · intro e he hname
        have := hcovers e he
        rw [milvusEntry, if_pos hname] at this
        exact covers_delete_key.mp this
    · rintro ⟨hothers, hkeys⟩ e he
      unfold milvusEntry
      split
      · next hname => exact covers_delete_key.mpr (hkeys e he hname)
      · next hname =>
        exact covers_of_mem (field_mem_delete.mpr ⟨e, he, hname, hothers e he hname, rfl, rfl⟩)
  · simp only [Option.mem_toList]
    apply forall₂_congr
    intro d hd
    unfold datasetAtom Covers
    simp only [field_mem_delete, subset_def, mem_singleton]
    constructor
    · rintro ⟨_, ⟨e, he, -, htruthy, hname, rfl⟩, hsubset⟩
      exact ⟨e, he, hname, htruthy, fun v hv => hsubset hv⟩
    · rintro ⟨e, he, hname, htruthy, hall⟩
      exact ⟨_, ⟨e, he, by simp [hname, deleteKeys], htruthy, hname, rfl⟩, fun {v} hv => hall v hv⟩

theorem buildClause_ne_empty {name : String} {value : Json} :
    buildMilvusFilterClause isPrintable name value ≠ "" := by
  unfold buildMilvusFilterClause
  split
  · split
    · exact append_ne_empty (.inr (by decide))
    · exact append_ne_empty (.inr (by decide))
  · split
    · exact append_ne_empty (.inr (by decide))
    · exact append_ne_empty (.inr (by decide))
    · exact append_ne_empty (.inl (append_ne_empty (.inr (by decide))))

theorem chunkIds_truthy :
    (chunkIds c.items).truthy = true ↔
      ∃ e ∈ c.items, e.1 ∈ deleteKeys ∧ e.2.truthy = true := by
  have hlookup : ∀ key, ((c.items.lookup key).getD .null).truthy = true ↔
      ∃ e ∈ c.items, e.1 = key ∧ e.2.truthy = true := by
    intro key
    cases h : c.items.lookup key with
    | none =>
      refine iff_of_false (by simp [Json.truthy]) ?_
      rintro ⟨e, he, rfl, -⟩
      rw [(lookup_iff_mem c.distinct).mpr (show (e.1, e.2) ∈ c.items from he)] at h
      cases h
    | some value =>
      have hmem := (lookup_iff_mem c.distinct).mp h
      constructor
      · intro htruthy
        exact ⟨_, hmem, rfl, htruthy⟩
      · rintro ⟨e, he, hkey, htruthy⟩
        rw [c.unique he hmem hkey] at htruthy
        exact htruthy
  have hor : (chunkIds c.items).truthy = true ↔
      ((c.items.lookup "id").getD .null).truthy = true ∨
        ((c.items.lookup "pk").getD .null).truthy = true := by
    unfold chunkIds Json.pyOr
    split
    · next h => simp [h]
    · next h => simp [h]
  rw [hor, hlookup, hlookup]
  simp only [deleteKeys, mem_cons, not_mem_nil, or_false]
  constructor
  · rintro (⟨e, he, hkey, htruthy⟩ | ⟨e, he, hkey, htruthy⟩)
    · exact ⟨e, he, .inl hkey, htruthy⟩
    · exact ⟨e, he, .inr hkey, htruthy⟩
  · rintro ⟨e, he, hkey | hkey, htruthy⟩
    · exact .inl ⟨e, he, hkey, htruthy⟩
    · exact .inr ⟨e, he, hkey, htruthy⟩

theorem deletePart_none {e : String × Json} (he : e ∈ c.items) :
    deletePart isPrintable e = none ↔ e.1 ∈ deleteKeys ∨ e.2.truthy = false := by
  unfold deletePart
  have hnames : e.1 ∈ deleteKeys ↔ e.1 = "pk" ∨ e.1 = "id" := by
    simp [deleteKeys, or_comm]
  rw [hnames, or_assoc]
  split
  · next h => exact iff_of_true rfl h
  · next h =>
    refine iff_of_false ?_ h
    have hplain := c.plain e he
    split
    case h_6 hvalue₁ hvalue₂ hvalue₃ hvalue₄ hvalue₅ =>
      exfalso
      cases hvalue : e.2 with
      | null => simp [hvalue, asList, isScalar] at hplain
      | obj fields => simp [hvalue, asList, isScalar] at hplain
      | bool b => exact hvalue₅ b hvalue
      | int n => exact hvalue₃ n hvalue
      | float text => exact hvalue₄ text hvalue
      | str text => exact hvalue₂ text hvalue
      | arr items => exact hvalue₁ items hvalue
    all_goals simp

theorem deleteFilter_empty :
    deleteFilter isPrintable c.items dataset = "" ↔
      ∀ e ∈ (bounded c dataset).items, e.2.truthy = false := by
  unfold deleteFilter
  rw [intercalate_eq_empty]
  · rw [append_eq_nil_iff, filterMap_eq_nil_iff]
    have hids : idPart isPrintable (bounded c dataset).items = [] ↔
        (chunkIds (bounded c dataset).items).truthy = false := by
      unfold idPart
      split
      · next h => simp [h]
      · next h => simp [h]
    have hparts : (∀ e ∈ (bounded c dataset).items, deletePart isPrintable e = none) ↔
        ∀ e ∈ (bounded c dataset).items, e.1 ∈ deleteKeys ∨ e.2.truthy = false :=
      forall₂_congr fun e he => deletePart_none he
    have hfalsy : (chunkIds (bounded c dataset).items).truthy = false ↔
        ∀ e ∈ (bounded c dataset).items, e.1 ∈ deleteKeys → e.2.truthy = false := by
      rw [← Bool.not_eq_true, chunkIds_truthy]
      simp only [not_exists, not_and, Bool.not_eq_true]
    show idPart isPrintable (bounded c dataset).items = [] ∧ _ ↔ _
    rw [hids, hfalsy]
    constructor
    · rintro ⟨hkeys, hothers⟩ e he
      rcases hparts.mp hothers e he with hname | hvalue
      · exact hkeys e he hname
      · exact hvalue
    · intro hall
      exact ⟨fun e he _ => hall e he, hparts.mpr fun e he => .inr (hall e he)⟩
  · intro part hpart
    rcases mem_append.mp hpart with hids | hparts
    · unfold idPart at hids
      split at hids
      · cases hids
      · obtain rfl := mem_singleton.mp hids
        exact append_ne_empty (.inr (by decide))
    · obtain ⟨e, -, he⟩ := mem_filterMap.mp hparts
      unfold deletePart at he
      split at he
      · cases he
      · split at he
        all_goals cases he
        all_goals exact buildClause_ne_empty

theorem goal_bounded {row : Row} :
    Selects (milvusGoal isPrintable deleteKeys (bounded c dataset).items dataset) row ↔
      Selects (milvusGoal isPrintable deleteKeys c.items dataset) row := by
  unfold milvusGoal
  rw [selects_append, selects_append]
  apply and_congr_right
  intro hscope
  show Selects ((deleteScope c.items dataset).map _) row ↔ _
  rcases deleteScope_cases c.items dataset with h | ⟨d, hd, -, -, h⟩
  · rw [h]
  · rw [h, map_append, selects_append]
    apply and_iff_left
    subst hd
    have hatom := hscope (datasetAtom d) (by simp)
    simpa [milvusEntry, deleteKeys, asList, datasetAtom] using hatom

variable (isPrintable) in
/-- Whatever the store does, a deletion takes rows of the dataset, if one is given, that
    satisfy the condition only; a filter of quotable values is read as its entries. -/
def DeleteConfined (c : Condition) (dataset : Option String) : Prop :=
  ∀ index hasCollection backend replies row,
    (Quotable (bounded c dataset).items →
      ReadsAs backend (deleteFilter isPrintable c.items dataset)
        (deleteSelection isPrintable (bounded c dataset).items)) →
    delete isPrintable index hasCollection c.items dataset backend replies row ≠ some row →
      Selects (milvusGoal isPrintable deleteKeys c.items dataset) row

theorem delete_changed {index : IndexName} {hasCollection : String → Bool} {backend : Backend}
    {replies : List Reply} {row : Row}
    (hchanged : delete isPrintable index hasCollection items dataset backend replies row ≠ some row) :
    deleteFilter isPrintable items dataset ≠ "" ∧
      ∃ selects, backend (deleteFilter isPrintable items dataset) = some selects ∧
        selects row = true := by
  unfold delete at hchanged
  cases hindex : index.collection with
  | none =>
    rw [hindex] at hchanged
    exact absurd rfl hchanged
  | some collection =>
    simp only [hindex] at hchanged
    split at hchanged
    · exact absurd rfl hchanged
    split at hchanged
    · exact absurd rfl hchanged
    next hne =>
    refine ⟨hne, ?_⟩
    cases hbackend : backend (deleteFilter isPrintable items dataset) with
    | none =>
      rw [hbackend] at hchanged
      exact absurd rfl hchanged
    | some selects =>
      rw [hbackend] at hchanged
      refine ⟨selects, rfl, ?_⟩
      by_contra hrow
      exact hchanged (perform_unselected (by simpa using hrow) _ _)

theorem delete_sent (hne : deleteFilter isPrintable items dataset ≠ "") (selects : Row → Bool)
    (replies : List Reply) :
    delete isPrintable (.name "") (fun _ => true) items dataset (fun _ => some selects) replies =
      perform selects deleting 1 replies := by
  simp [delete, IndexName.collection, hne]

theorem delete_confined_iff :
    DeleteConfined isPrintable c dataset ↔
      (∀ e ∈ (bounded c dataset).items, e.2.truthy = false) ∨
        (Quotable (bounded c dataset).items ∧
          DeleteKeepsAll isPrintable (bounded c dataset).items dataset) := by
  rw [← deleteFilter_empty]
  by_cases hempty : deleteFilter isPrintable c.items dataset = ""
  · apply iff_of_true _ (.inl hempty)
    intro index hasCollection backend replies row _ hchanged
    exact absurd hempty (delete_changed hchanged).1
  rw [or_iff_right hempty, ← delete_entails_iff]
  simp only [goal_bounded]
  have hconfines : ∀ selects : Row → Bool,
      (∀ replies row, delete isPrintable (.name "") (fun _ => true) c.items dataset
        (fun _ => some selects) replies row ≠ some row →
          Selects (milvusGoal isPrintable deleteKeys c.items dataset) row) ↔
        ∀ row, selects row = true →
          Selects (milvusGoal isPrintable deleteKeys c.items dataset) row := by
    intro selects
    simp only [delete_sent hempty]
    exact perform_confined_iff deleting_ne 0 selects _ id ⟨[reachAll false], false, rfl⟩
  constructor
  · intro hconf
    by_cases hquotable : Quotable (bounded c dataset).items
    · refine ⟨hquotable, ?_⟩
      classical
      -- a store that selects what the filter means
      let selects : Row → Bool := fun row =>
        decide (Selects (deleteSelection isPrintable (bounded c dataset).items) row)
      have hrows := (hconfines selects).mp fun replies row =>
        hconf _ _ _ replies row fun _ selects' hselects' row' => by
          obtain rfl := Option.some_inj.mp hselects'
          exact decide_eq_true_iff
      intro row hselects
      exact hrows row (decide_eq_true hselects)
    · -- a text that is broken up may mean any rows
      have hrows := (hconfines fun _ => true).mp fun replies row =>
        hconf _ _ _ replies row fun h => absurd h hquotable
      obtain ⟨e, he, -⟩ : ∃ e ∈ (bounded c dataset).items, ¬ e.2.truthy = false := by
        by_contra hnone
        simp only [not_exists, not_and, not_not] at hnone
        exact hempty (deleteFilter_empty.mpr hnone)
      have hentry : ∀ row, (milvusEntry isPrintable deleteKeys e).Holds row := by
        intro row
        have hgoal := goal_bounded.mpr (hrows row rfl)
        exact hgoal _ (mem_append_right _ (mem_map_of_mem he))
      rcases entails_iff.mp fun row (_ : Selects [] row) => hentry row with hvacant | hcovers
      · exact absurd selects_nil (not_selects_of_vacant hvacant ⟨"", fun _ => []⟩)
      · unfold milvusEntry at hcovers
        split at hcovers
        · obtain ⟨x, hx⟩ := exists_text_notMem ((asList e.2).map (pyStr isPrintable))
          exact absurd (hcovers x (by simp)) hx
        · obtain ⟨vs, hvs, -⟩ := hcovers
          cases hvs
  · rintro ⟨hquotable, hall⟩ index hasCollection backend replies row hreads hchanged
    obtain ⟨-, selects, hbackend, hrow⟩ := delete_changed hchanged
    apply hall
    exact (hreads hquotable selects hbackend row).mp hrow

end

end MilvusConnection

/-! ### The four operations -/

/-- What an update or a deletion changes is confined to the rows of the dataset that satisfy
    every entry of the condition exactly in these cases. -/
theorem mutations_confined_iff (isPrintable : Char → Bool) (c : Condition) (dataset : String)
    (datasetId : Option String) :
    (ESConnection.UpdateConfined isPrintable c dataset ↔
      ("id", .str "") ∈ c.items ∨
        ((∀ chunkId, ("id", .str chunkId) ∉ c.items) ∧
          ((∃ e ∈ c.items, e.1 ≠ "kb_id" ∧ ESConnection.updateRefuses e = true) ∨
            EsConfines (fun e => e.2.truthy) (dataset != "") c dataset))) ∧
    (ESConnection.DeleteConfined c dataset ↔
      (∃ e ∈ c.items, e.1 = "_id") ∨
        (∃ e ∈ c.items, e.1 ≠ "kb_id" ∧ ESConnection.deleteRefuses e = true) ∨
          EsConfines ESConnection.deleteKeeps true c dataset) ∧
    (MilvusConnection.UpdateConfined isPrintable c dataset ↔
      (∃ e ∈ c.items, MilvusConnection.updateRefuses e = true) ∨ c.items = [] ∨
        MilvusConnection.NoCommonRow isPrintable MilvusConnection.updateKeys c.items ∨
          MilvusConnection.Names c.items dataset) ∧
    (MilvusConnection.DeleteConfined isPrintable c datasetId ↔
      (∀ e ∈ (MilvusConnection.bounded c datasetId).items, e.2.truthy = false) ∨
        (MilvusConnection.Quotable (MilvusConnection.bounded c datasetId).items ∧
          MilvusConnection.DeleteKeepsAll isPrintable (MilvusConnection.bounded c datasetId).items
            datasetId)) := by
  refine ⟨?_, ESConnection.delete_confined_iff, MilvusConnection.update_confined_iff,
    MilvusConnection.delete_confined_iff⟩
  by_cases hid : ∃ chunkId, ("id", .str chunkId) ∈ c.items
  · obtain ⟨chunkId, hmem⟩ := hid
    rw [ESConnection.update_one_confined_iff hmem]
    constructor
    · rintro rfl
      exact .inl hmem
    · rintro (hblank | ⟨hnone, -⟩)
      · have := c.unique hmem hblank rfl
        simpa using this
      · exact absurd hmem (hnone chunkId)
  · simp only [not_exists] at hid
    rw [ESConnection.update_many_confined_iff hid, or_iff_right (hid ""), and_iff_right hid]

/-! ### Conditions that are widened -/

def blankDocument : Condition := ⟨[("doc_id", .str "")], by decide, by decide⟩

def noChunk : Condition := ⟨[("id", .arr []), ("doc_id", .str "doc")], by decide, by decide⟩

def oneDocument : Condition := ⟨[("doc_id", .str "doc")], by decide, by decide⟩

theorem update_blank_document :
    ∃ replies row, row.values "kb_id" = [.str "kb"] ∧ row.values "doc_id" = [.str "doc"] ∧
      after (ESConnection.update (fun _ => true) blankDocument.items [("available_int", .int 0)]
        "kb" replies) row ≠ some row := by
  let row : Row := ⟨"chunk", fun field => if field = "kb_id" then [.str "kb"] else [.str "doc"]⟩
  refine ⟨[reachAll false], row, rfl, rfl, ?_⟩
  intro h
  exact patched_ne false row (Option.some_inj.mp h)

/-- One condition for each operation that lets other rows be changed: an empty document id, an
    empty list of ids, and the dataset of the call. -/
theorem mutations_widened :
    ¬ ESConnection.UpdateConfined (fun _ => true) blankDocument "kb" ∧
    ¬ ESConnection.DeleteConfined noChunk "kb" ∧
    ¬ MilvusConnection.UpdateConfined (fun _ => true) oneDocument "kb" ∧
    ¬ MilvusConnection.DeleteConfined (fun _ => true) blankDocument (some "kb") := by
  refine ⟨?_, ?_, ?_, ?_⟩
  · intro hconfined
    obtain ⟨replies, row, -, hdocument, hchanged⟩ := update_blank_document
    have hentry := hconfined _ replies row hchanged (esEntry ("doc_id", .str ""))
      (mem_cons_of_mem _ (mem_map_of_mem mem_cons_self))
    obtain ⟨v, hv, hblank⟩ : ∃ v ∈ row.values "doc_id", v ∈ [Json.str ""] := hentry
    rw [hdocument, mem_singleton] at hv
    rw [hv] at hblank
    simp at hblank
  · rw [ESConnection.delete_confined_iff]
    simp [EsConfines, noChunk, ESConnection.deleteRefuses, ESConnection.deleteKeeps, NoRow, asList]
  · rw [MilvusConnection.update_confined_iff]
    have hnames : MilvusConnection.updateRefuses ("doc_id", .str "doc") = false := by decide
    simp [oneDocument, hnames, MilvusConnection.NoCommonRow, MilvusConnection.Names,
      MilvusConnection.updateKeys, asList]
  · rw [MilvusConnection.delete_confined_iff]
    simp [MilvusConnection.bounded, MilvusConnection.deleteScope, blankDocument, Json.truthy,
      MilvusConnection.DeleteKeepsAll, MilvusConnection.deleteKeys]

end MultiRag.StoreMutation
