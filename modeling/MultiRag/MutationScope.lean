/-
  **Which rows an update or a deletion can change** (`core/utils/es_conn.py`,
  `core/utils/milvus_conn.py`).

  An entry of a condition means an atom of a conjunctive selection: a list is membership. Each
  operation sends a selection of its own: the entries it keeps, and the dataset if it adds it.
  What it changes is confined to the rows that satisfy the whole condition exactly when its
  selection is vacant or covers every entry (`Conjunction.entails_all_iff`).
-/
import MultiRag.StoreMutation
import Mathlib.Data.List.ReduceOption

namespace MultiRag

open List

namespace Conjunction

variable {κ α β : Type*}

theorem covers_of_mem {selection : List (Atom κ α β)} {atom : Atom κ α β}
    (hmem : atom ∈ selection) : Covers selection atom := by
  cases atom with
  | key allowed => exact fun x hx => hx allowed hmem
  | field a allowed => exact ⟨allowed, hmem, Subset.refl _⟩
  | present a => exact .inl hmem

end Conjunction

namespace StoreMutation

open Conjunction

instance : Infinite Json := Infinite.of_injective Json.int fun _ _ h => Json.int.inj h

theorem exists_text_notMem (texts : List String) : ∃ text, text ∉ texts := by
  obtain ⟨text, htext⟩ := Infinite.exists_notMem_finset texts.toFinset
  exact ⟨text, fun hmem => htext (mem_toFinset.mpr hmem)⟩

/-! ### Conditions -/

/-- A condition: a dictionary of strings, numbers, booleans and lists of these. -/
structure Condition where
  items : List (String × Json)
  distinct : (items.map Prod.fst).Nodup
  plain : ∀ e ∈ items, ∀ v ∈ asList e.2, isScalar v = true

variable {e : String × Json}

theorem Condition.unique (c : Condition) {e' : String × Json} (he : e ∈ c.items)
    (he' : e' ∈ c.items) (hkey : e.1 = e'.1) : e = e' :=
  inj_on_of_nodup_map c.distinct he he' hkey

variable {items : List (String × Json)}

theorem mem_setItem {key : String} {value : Json} :
    e ∈ setItem items key value ↔ e = (key, value) ∨ (e ∈ items ∧ e.1 ≠ key) := by
  unfold setItem
  split
  · next hany =>
    obtain ⟨e₀, he₀, hkey⟩ := any_eq_true.mp hany
    constructor
    · intro hmem
      obtain ⟨e', he', rfl⟩ := mem_map.mp hmem
      by_cases h : e'.1 = key
      · simp [h]
      · simp [h, he']
    · rintro (rfl | ⟨hmem, hne⟩)
      · apply mem_map.mpr
        exact ⟨e₀, he₀, by simp [beq_iff_eq.mp hkey]⟩
      · exact mem_map.mpr ⟨e, hmem, by simp [hne]⟩
  · next hnone =>
    rw [mem_append, mem_singleton]
    constructor
    · rintro (hmem | rfl)
      · refine .inr ⟨hmem, ?_⟩
        intro hkey
        exact hnone (any_eq_true.mpr ⟨e, hmem, by simp [hkey]⟩)
      · exact .inl rfl
    · rintro (rfl | ⟨hmem, -⟩)
      · exact .inr rfl
      · exact .inl hmem

theorem setItem_distinct (hdist : (items.map Prod.fst).Nodup) (key : String) (value : Json) :
    ((setItem items key value).map Prod.fst).Nodup := by
  unfold setItem
  split
  · have hkeys : ∀ e : String × Json, (if e.1 = key then (key, value) else e).1 = e.1 := by
      intro e
      split
      · next h => exact h.symm
      · rfl
    simpa only [map_map, Function.comp_def, hkeys] using hdist
  · next hnone =>
    rw [map_append]
    apply Nodup.append hdist (nodup_singleton _)
    intro k hmem hk
    obtain ⟨e, he, rfl⟩ := mem_map.mp hmem
    have hkey : e.1 = key := by simpa using hk
    exact hnone (any_eq_true.mpr ⟨e, he, by simp [hkey]⟩)

theorem lookup_setItem (hdist : (items.map Prod.fst).Nodup) {key other : String}
    (hne : other ≠ key) (value : Json) :
    (setItem items key value).lookup other = items.lookup other := by
  apply Option.ext
  intro v
  rw [lookup_iff_mem (setItem_distinct hdist key value), lookup_iff_mem hdist, mem_setItem]
  simp [hne]

/-! ### Loops of requests -/

def after : Except String Effect → Effect
  | .ok effect => effect
  | .error _ => some

variable {selects : Row → Bool} {write : Reply → Effect}

theorem perform_unselected {row : Row} (hrow : selects row = false) (attempts : Nat)
    (replies : List Reply) :
    perform selects write attempts replies row = some row := by
  induction attempts generalizing replies with
  | zero => rfl
  | succ attempts ih =>
    cases replies with
    | nil => rfl
    | cons reply replies =>
      simp only [perform, hrow, Bool.false_and, Bool.false_eq_true, if_false]
      split
      · exact ih replies
      · rfl

def reachAll (again : Bool) : Reply where
  reached _ := true
  patched row := { row with values := fun field => .null :: row.values field }
  again := again

theorem patched_ne (again : Bool) (row : Row) : (reachAll again).patched row ≠ row := by
  intro h
  have hvalues := congrFun (congrArg Record.values h) ""
  exact cons_ne_self _ _ hvalues

theorem perform_reachAll {row : Row} (hrow : selects row = true) (attempts : Nat) (again : Bool) :
    perform selects write (attempts + 1) [reachAll again] row = write (reachAll again) row := by
  have hrest : ∀ row' : Row, perform selects write attempts [] row' = some row' := by
    intro row'
    cases attempts with
    | zero => rfl
    | succ attempts => rfl
  simp only [perform, hrow, reachAll, Bool.and_self, if_true, hrest, ite_self]
  split
  · next h => exact h.symm
  · next h => exact h.symm

theorem perform_confined_iff (hwrite : ∀ again row, write (reachAll again) row ≠ some row)
    (attempts : Nat) (selects : Row → Bool) (goal : Row → Prop) (prepare : List Reply → List Reply)
    (hprepare : ∃ replies again, prepare replies = [reachAll again]) :
    (∀ replies row, perform selects write (attempts + 1) (prepare replies) row ≠ some row →
      goal row) ↔ ∀ row, selects row = true → goal row := by
  constructor
  · intro hconf row hrow
    obtain ⟨replies, again, hreplies⟩ := hprepare
    apply hconf replies row
    rw [hreplies, perform_reachAll hrow]
    exact hwrite again row
  · intro hselects replies row hchanged
    apply hselects row
    by_contra hrow
    exact hchanged (perform_unselected (by simpa using hrow) _ _)

theorem updating_ne (again : Bool) (row : Row) : updating (reachAll again) row ≠ some row := by
  intro h
  exact patched_ne again row (Option.some_inj.mp h)

theorem deleting_ne (again : Bool) (row : Row) : deleting (reachAll again) row ≠ some row := by
  exact nofun

/-! ### What an entry means -/

/-- The field of an `exists` entry; nothing but a text names one. -/
def existsAtom : Json → Atom String String Json
  | .str field => if field = "" then .key [] else .present field
  | _ => .key []

def esEntry (e : String × Json) : Atom String String Json :=
  if e.1 = "id" then .key ((asList e.2).map idText)
  else if e.1 = "exists" then existsAtom e.2
  else .field e.1 (asList e.2)

def datasetAtom (dataset : String) : Atom String String Json := .field "kb_id" [.str dataset]

def EsClause.atom : EsClause → Atom String String Json
  | .ids values => .key (values.map idText)
  | .terms field values => if field = "id" then .key (values.map idText) else .field field values
  | .term field value => if field = "id" then .key [idText value] else .field field [value]
  | .exists value => existsAtom value

theorem EsClause.matches_iff (clause : EsClause) (row : Row) :
    clause.matches row = true ↔ clause.atom.Holds row := by
  cases clause with
  | ids values => simp [EsClause.matches, EsClause.atom, Atom.Holds]
  | terms field values =>
    by_cases hfield : field = "id" <;> simp [EsClause.matches, EsClause.atom, Atom.Holds, hfield]
  | term field value =>
    by_cases hfield : field = "id"
    · simp only [EsClause.matches, EsClause.atom, Atom.Holds, hfield, if_true, beq_iff_eq,
        mem_singleton]
      exact eq_comm
    · simp [EsClause.matches, EsClause.atom, Atom.Holds, hfield]
  | «exists» value =>
    cases value with
    | str field =>
      by_cases hfield : field = "" <;>
        simp [EsClause.matches, EsClause.atom, existsAtom, Atom.Holds, hfield]
    | _ => simp [EsClause.matches, EsClause.atom, existsAtom, Atom.Holds]

/-! ### The selection of the Elasticsearch connection -/

/-- An entry that no row satisfies. -/
def NoRow (e : String × Json) : Prop :=
  if e.1 = "exists" then existsAtom e.2 = .key [] else asList e.2 = []

/-- The entries an operation keeps, with the dataset in place of the condition's own. -/
def esSelection (kept : String × Json → Bool) (bounded : Bool) (c : Condition) (dataset : String) :
    List (Atom String String Json) :=
  (if bounded then [datasetAtom dataset] else []) ++
    (c.items.filter fun e => e.1 != "kb_id" && kept e).map esEntry

variable {kept : String × Json → Bool} {bounded : Bool} {c : Condition} {dataset : String}

theorem mem_esSelection {atom : Atom String String Json} :
    atom ∈ esSelection kept bounded c dataset ↔
      (bounded = true ∧ atom = datasetAtom dataset) ∨
        ∃ e ∈ c.items, e.1 ≠ "kb_id" ∧ kept e = true ∧ esEntry e = atom := by
  unfold esSelection
  rw [mem_append, mem_map]
  cases bounded with
  | true => simp [and_assoc]
  | false => simp [and_assoc]

theorem field_of_mem {a : String} {vs : List Json}
    (hmem : Atom.field a vs ∈ esSelection kept bounded c dataset) :
    (bounded = true ∧ a = "kb_id" ∧ vs = [.str dataset]) ∨
      ∃ e ∈ c.items, e.1 = a ∧ a ≠ "kb_id" ∧ a ≠ "id" ∧ a ≠ "exists" ∧ kept e = true ∧
        asList e.2 = vs := by
  rcases mem_esSelection.mp hmem with ⟨hbounded, heq⟩ | ⟨e, he, hne, hkept, heq⟩
  · obtain ⟨rfl, rfl⟩ := Atom.field.inj heq
    exact Or.inl ⟨hbounded, rfl, rfl⟩
  · apply Or.inr
    unfold esEntry at heq
    split at heq
    · cases heq
    next hid =>
    split at heq
    · unfold existsAtom at heq
      split at heq
      · split at heq
        · cases heq
        · cases heq
      · cases heq
    next hexists =>
    obtain ⟨rfl, rfl⟩ := Atom.field.inj heq
    exact ⟨e, he, rfl, hne, hid, hexists, hkept, rfl⟩

theorem key_of_mem {xs : List String}
    (hmem : Atom.key xs ∈ esSelection kept bounded c dataset) :
    ∃ e ∈ c.items, e.1 ≠ "kb_id" ∧ kept e = true ∧
      ((e.1 = "id" ∧ xs = (asList e.2).map idText) ∨
        (e.1 = "exists" ∧ xs = [] ∧ existsAtom e.2 = .key [])) := by
  rcases mem_esSelection.mp hmem with ⟨-, heq⟩ | ⟨e, he, hne, hkept, heq⟩
  · cases heq
  · refine ⟨e, he, hne, hkept, ?_⟩
    unfold esEntry at heq
    split at heq
    · next hid =>
      obtain rfl := Atom.key.inj heq
      exact .inl ⟨hid, rfl⟩
    split at heq
    · next hexists =>
      have hempty : existsAtom e.2 = .key [] := by
        unfold existsAtom at heq ⊢
        split at heq
        · split at heq
          · next hblank => simp only [if_pos hblank]
          · cases heq
        · rfl
      rw [hempty] at heq
      exact .inr ⟨hexists, (Atom.key.inj heq).symm, hempty⟩
    · cases heq

theorem vacant_esSelection : Vacant (esSelection kept bounded c dataset) ↔
    ∃ e ∈ c.items, e.1 ≠ "kb_id" ∧ kept e = true ∧ NoRow e := by
  constructor
  · rintro (hkeys | ⟨a, hempty⟩)
    · by_contra hnone
      simp only [not_exists, not_and] at hnone
      -- the ids of the entry `id`, if it is kept, are not empty
      by_cases hid : ∃ e ∈ c.items, e.1 = "id" ∧ kept e = true
      · obtain ⟨e, he, hname, hkept⟩ := hid
        have hsome := hnone e he (by simp [hname]) hkept
        simp only [NoRow, hname, String.reduceEq, if_false] at hsome
        obtain ⟨v, hv⟩ := exists_mem_of_ne_nil _ hsome
        obtain ⟨xs, hxs, hout⟩ := hkeys (idText v)
        obtain ⟨e', he', hne', hkept', ⟨hname', rfl⟩ | ⟨hname', -, hempty⟩⟩ := key_of_mem hxs
        · rw [c.unique he' he (hname'.trans hname.symm)] at hout
          exact hout (mem_map_of_mem hv)
        · exact hnone e' he' hne' hkept' (by simpa [NoRow, hname'] using hempty)
      · obtain ⟨xs, hxs, -⟩ := hkeys ""
        obtain ⟨e', he', hne', hkept', ⟨hname', -⟩ | ⟨hname', -, hempty⟩⟩ := key_of_mem hxs
        · exact hid ⟨e', he', hname', hkept'⟩
        · exact hnone e' he' hne' hkept' (by simpa [NoRow, hname'] using hempty)
    · rcases field_of_mem hempty with ⟨-, -, hnil⟩ | ⟨e, he, rfl, hne, hid, hexists, hkept, hnil⟩
      · cases hnil
      · exact ⟨e, he, hne, hkept, by simp [NoRow, hexists, hnil]⟩
  · rintro ⟨e, he, hne, hkept, hempty⟩
    have hmem : esEntry e ∈ esSelection kept bounded c dataset :=
      mem_esSelection.mpr (.inr ⟨e, he, hne, hkept, rfl⟩)
    have hkey : Atom.key [] ∈ esSelection kept bounded c dataset →
        Vacant (esSelection kept bounded c dataset) := fun h => .inl fun x => ⟨[], h, by simp⟩
    unfold esEntry at hmem
    unfold NoRow at hempty
    split at hempty
    · next hexists =>
      rw [if_neg (by simp [hexists]), if_pos hexists, hempty] at hmem
      exact hkey hmem
    next hexists =>
    split at hmem
    · rw [hempty] at hmem
      exact hkey hmem
    rw [hempty] at hmem
    exact .inr ⟨_, hmem⟩

def esGoal (c : Condition) (dataset : String) : List (Atom String String Json) :=
  datasetAtom dataset :: c.items.map esEntry

/-- What an operation that keeps some entries has to fulfil: an entry it keeps is satisfied
    by no row, or it adds the dataset and keeps the others, and a dataset of the
    condition's own admits this one. -/
def EsConfines (kept : String × Json → Bool) (bounded : Bool) (c : Condition) (dataset : String) :
    Prop :=
  (∃ e ∈ c.items, e.1 ≠ "kb_id" ∧ kept e = true ∧ NoRow e) ∨
    (bounded = true ∧ ∀ e ∈ c.items,
      if e.1 = "kb_id" then Json.str dataset ∈ asList e.2 else kept e = true)

theorem not_covers_dropped (hvacant : ¬ Vacant (esSelection kept bounded c dataset))
    (hexists : ∀ e ∈ c.items, e.1 = "exists" → kept e = false → existsAtom e.2 = .key []) (he : e ∈ c.items) (hne : e.1 ≠ "kb_id") (hdropped : kept e = false) :
    ¬ Covers (esSelection kept bounded c dataset) (esEntry e) := by
  rw [vacant_esSelection] at hvacant
  simp only [not_exists, not_and] at hvacant
  -- the only atom on the key is that of the entry `id`
  have hkeys : ∀ xs, Atom.key xs ∈ esSelection kept bounded c dataset →
      ∃ e' ∈ c.items, e'.1 = "id" ∧ kept e' = true ∧ xs = (asList e'.2).map idText := by
    intro xs hxs
    obtain ⟨e', he', hne', hkept', ⟨hname', heq⟩ | ⟨hname', -, hempty⟩⟩ := key_of_mem hxs
    · exact ⟨e', he', hname', hkept', heq⟩
    · exact absurd (by simpa [NoRow, hname'] using hempty) (hvacant e' he' hne' hkept')
  intro hcovers
  unfold esEntry at hcovers
  split at hcovers
  · next hid =>
    obtain ⟨x, hx⟩ := exists_text_notMem ((asList e.2).map idText)
    apply hx
    apply hcovers x
    intro xs hxs
    obtain ⟨e', he', hname', hkept', -⟩ := hkeys xs hxs
    rw [c.unique he' he (hname'.trans hid.symm), hdropped] at hkept'
    cases hkept'
  split at hcovers
  · next hname =>
    rw [hexists e he hname hdropped] at hcovers
    -- no key is in an empty list, so the key of the selection must be none either
    by_cases hid : ∃ e' ∈ c.items, e'.1 = "id" ∧ kept e' = true
    · obtain ⟨e', he', hname', hkept'⟩ := hid
      have hsome := hvacant e' he' (by simp [hname']) hkept'
      simp only [NoRow, hname', String.reduceEq, if_false] at hsome
      obtain ⟨v, hv⟩ := exists_mem_of_ne_nil _ hsome
      have hnone := hcovers (idText v) fun xs hxs => by
        obtain ⟨e'', he'', hname'', -, rfl⟩ := hkeys xs hxs
        rw [c.unique he'' he' (hname''.trans hname'.symm)]
        exact mem_map_of_mem hv
      cases hnone
    · have hnone := hcovers "" fun xs hxs => by
        obtain ⟨e', he', hname', hkept', -⟩ := hkeys xs hxs
        exact absurd ⟨e', he', hname', hkept'⟩ hid
      cases hnone
  · obtain ⟨vs, hvs, -⟩ := hcovers
    rcases field_of_mem hvs with ⟨-, hname, -⟩ | ⟨e', he', hname, -, -, -, hkept', -⟩
    · exact hne hname
    · rw [c.unique he' he hname, hdropped] at hkept'
      cases hkept'

theorem esSelection_confines_iff
    (hexists : ∀ e ∈ c.items, e.1 = "exists" → kept e = false → existsAtom e.2 = .key []) :
    (∀ row, Selects (esSelection kept bounded c dataset) row → Selects (esGoal c dataset) row) ↔
      EsConfines kept bounded c dataset := by
  rw [entails_all_iff]
  by_cases hvacant : Vacant (esSelection kept bounded c dataset)
  · exact iff_of_true (.inl hvacant) (.inl (vacant_esSelection.mp hvacant))
  unfold EsConfines
  rw [← vacant_esSelection, or_iff_right hvacant, or_iff_right hvacant]
  simp only [esGoal, forall_mem_cons, forall_mem_map]
  have hscope : Covers (esSelection kept bounded c dataset) (datasetAtom dataset) ↔
      bounded = true := by
    constructor
    · rintro ⟨vs, hvs, -⟩
      rcases field_of_mem hvs with ⟨hbounded, -, -⟩ | ⟨e, -, -, hne, -⟩
      · exact hbounded
      · exact absurd rfl hne
    · intro hbounded
      exact covers_of_mem (mem_esSelection.mpr (.inl ⟨hbounded, rfl⟩))
  rw [hscope]
  apply and_congr_right
  intro hbounded
  apply forall₂_congr
  intro e he
  by_cases hname : e.1 = "kb_id"
  · rw [if_pos hname]
    have hentry : esEntry e = .field "kb_id" (asList e.2) := by simp [esEntry, hname]
    rw [hentry]
    constructor
    · rintro ⟨vs, hvs, hsubset⟩
      rcases field_of_mem hvs with ⟨-, -, rfl⟩ | ⟨e', -, -, hne', -⟩
      · exact hsubset (mem_singleton.mpr rfl)
      · exact absurd rfl hne'
    · intro hmem
      refine ⟨_, mem_esSelection.mpr (.inl ⟨hbounded, rfl⟩), ?_⟩
      simpa using hmem
  · rw [if_neg hname]
    constructor
    · intro hcovers
      by_contra hdropped
      exact not_covers_dropped hvacant hexists he hname (by simpa using hdropped) hcovers
    · intro hkept
      exact covers_of_mem (mem_esSelection.mpr (.inr ⟨e, he, hname, hkept, rfl⟩))

theorem selects_setItem {row : Row} (hbounded : kept ("kb_id", .str dataset) = bounded) :
    (∀ e ∈ setItem c.items "kb_id" (.str dataset), kept e = true → (esEntry e).Holds row) ↔
      Selects (esSelection kept bounded c dataset) row := by
  subst hbounded
  constructor
  · intro hall atom hmem
    rcases mem_esSelection.mp hmem with ⟨hbounded, rfl⟩ | ⟨e, he, hne, hkept, rfl⟩
    · have := hall _ (mem_setItem.mpr (.inl rfl)) hbounded
      simpa [esEntry, asList, datasetAtom] using this
    · exact hall e (mem_setItem.mpr (.inr ⟨he, hne⟩)) hkept
  · intro hselects e he hkept
    apply hselects
    apply mem_esSelection.mpr
    rcases mem_setItem.mp he with rfl | ⟨he, hne⟩
    · exact .inl ⟨hkept, by simp [esEntry, asList, datasetAtom]⟩
    · exact .inr ⟨e, he, hne, hkept, rfl⟩

/-! ### The Elasticsearch connection -/

namespace ESConnection

variable {isPrintable : Char → Bool} {row : Row}

def updateRefuses (e : String × Json) : Bool :=
  e.2.truthy && e.1 != "exists" &&
    match e.2 with
    | .float _ | .obj _ => true
    | _ => false

theorem updateClause_accepts :
    (∃ clause, updateClause isPrintable e = .ok clause) ↔ updateRefuses e = false := by
  unfold updateClause updateRefuses
  by_cases htruthy : e.2.truthy = false
  · simp [htruthy]
  by_cases hexists : e.1 = "exists"
  · simp [htruthy, hexists]
  rw [if_neg htruthy, if_neg hexists]
  rw [Bool.not_eq_false] at htruthy
  cases hvalue : e.2 with
  | null =>
    rw [hvalue] at htruthy
    cases htruthy
  | bool b => simp
  | int n => simp
  | float text | obj fields =>
    rw [hvalue] at htruthy
    simp [htruthy, hexists]
  | str text => simp
  | arr items => simp

theorem updateClause_none (h : updateClause isPrintable e = .ok none) : e.2.truthy = false := by
  unfold updateClause at h
  split at h
  · next htruthy => exact htruthy
  split at h
  · cases h
  split at h <;> cases h

theorem updateClause_some {clause : EsClause} (h : updateClause isPrintable e = .ok (some clause)) :
    e.2.truthy = true ∧ clause.atom = esEntry e := by
  unfold updateClause at h
  split at h
  · cases h
  next htruthy =>
  refine ⟨by simpa using htruthy, ?_⟩
  split at h
  · next hexists =>
    cases h
    simp [EsClause.atom, esEntry, hexists]
  next hexists =>
  unfold esEntry
  rw [if_neg hexists]
  split at h
  iterate 4
    · next hvalue =>
      cases h
      simp [EsClause.atom, asList, hvalue]
  · cases h

theorem updateByQuery_matches {newValue : List (String × Json)} {request : UpdateByQuery}
    (h : updateByQuery isPrintable items newValue = .ok request) :
    request.query.matches row = true ↔
      ∀ e ∈ items, e.2.truthy = true → (esEntry e).Holds row := by
  unfold updateByQuery at h
  obtain ⟨clauses, hclauses, h⟩ := bind_eq_ok.mp h
  obtain ⟨scripts, -, h⟩ := bind_eq_ok.mp h
  cases h
  have hmem := mapM_eq_ok hclauses
  have hkept : ∀ clause, clause ∈ clauses.reduceOption ↔
      ∃ e ∈ items, updateClause isPrintable e = .ok (some clause) := by
    intro clause
    rw [reduceOption_mem_iff, hmem]
  simp only [BoolQuery.matches, all_nil, Bool.and_true, all_eq_true, hkept,
    EsClause.matches_iff]
  constructor
  · intro hall e he htruthy
    obtain ⟨clause, hclause⟩ := exists_mapM_ok.mp ⟨clauses, hclauses⟩ e he
    cases clause with
    | none =>
      rw [updateClause_none hclause] at htruthy
      cases htruthy
    | some clause =>
      rw [← (updateClause_some hclause).2]
      exact hall clause ⟨e, he, hclause⟩
  · rintro hall clause ⟨e, he, hclause⟩
    obtain ⟨htruthy, hatom⟩ := updateClause_some hclause
    rw [hatom]
    exact hall e he htruthy

/-- Whatever an update writes, and whatever the store does, it changes rows of the
    dataset that satisfy the condition only. -/
def UpdateConfined (isPrintable : Char → Bool) (c : Condition) (dataset : String) : Prop :=
  ∀ newValue replies row,
    after (update isPrintable c.items newValue dataset replies) row ≠ some row →
      Selects (esGoal c dataset) row

theorem lookup_id (c : Condition) (dataset : String) (value : Json) :
    (setItem c.items "kb_id" (.str dataset)).lookup "id" = some value ↔ ("id", value) ∈ c.items := by
  rw [lookup_setItem c.distinct (by decide), lookup_iff_mem c.distinct]

theorem update_one_confined_iff {chunkId : String}
    (hid : ("id", .str chunkId) ∈ c.items) :
    UpdateConfined isPrintable c dataset ↔ chunkId = "" := by
  unfold UpdateConfined update
  simp only [(lookup_id c dataset _).mpr hid]
  constructor
  · intro hconf
    by_contra hne
    have hrows := (perform_confined_iff updating_ne 0
      (fun row => chunkId != "" && row.key == chunkId) (Selects (esGoal c dataset))
      each ⟨[reachAll true], true, rfl⟩).mp (hconf [])
    -- the document, of no dataset at all
    obtain ⟨hdataset, -⟩ := selects_cons.mp (hrows ⟨chunkId, fun _ => []⟩ (by simpa using hne))
    obtain ⟨v, hv, -⟩ := hdataset
    cases hv
  · rintro rfl newValue replies row hchanged
    exact absurd (perform_unselected (by simp) _ _) hchanged

theorem update_many_confined_iff (hid : ∀ chunkId, ("id", .str chunkId) ∉ c.items) :
    UpdateConfined isPrintable c dataset ↔
      (∃ e ∈ c.items, e.1 ≠ "kb_id" ∧ updateRefuses e = true) ∨
        EsConfines (fun e => e.2.truthy) (dataset != "") c dataset := by
  have hupdate : ∀ newValue replies, update isPrintable c.items newValue dataset replies =
      (updateByQuery isPrintable (setItem c.items "kb_id" (.str dataset)) newValue).bind
        fun request => .ok (perform request.query.matches updating ATTEMPT_TIME replies) := by
    intro newValue replies
    simp only [update]
    split
    · next chunkId hlookup => exact absurd ((lookup_id c dataset _).mp hlookup) (hid chunkId)
    · rfl
  have hexists : ∀ e ∈ c.items, e.1 = "exists" → e.2.truthy = false → existsAtom e.2 = .key [] := by
    intro e _ _ hfalsy
    unfold existsAtom
    split
    · next field hvalue =>
      rw [hvalue] at hfalsy
      have : field = "" := by simpa [Json.truthy] using hfalsy
      rw [if_pos this]
    · rfl
  rw [← esSelection_confines_iff hexists]
  by_cases hrefused : ∃ e ∈ c.items, e.1 ≠ "kb_id" ∧ updateRefuses e = true
  · -- the query is not built
    apply iff_of_true _ (.inl hrefused)
    intro newValue replies row hchanged
    obtain ⟨e, he, hne, hrefuses⟩ := hrefused
    cases hbuilt : updateByQuery isPrintable (setItem c.items "kb_id" (.str dataset)) newValue with
    | error msg =>
      rw [hupdate, hbuilt] at hchanged
      exact absurd rfl hchanged
    | ok request =>
      obtain ⟨clauses, hclauses, -⟩ := bind_eq_ok.mp hbuilt
      have := exists_mapM_ok.mp ⟨clauses, hclauses⟩ e (mem_setItem.mpr (.inr ⟨he, hne⟩))
      rw [updateClause_accepts, hrefuses] at this
      cases this
  · rw [or_iff_right hrefused]
    have hclauses : ∀ e ∈ setItem c.items "kb_id" (.str dataset),
        ∃ clause, updateClause isPrintable e = .ok clause := by
      intro e he
      rw [updateClause_accepts]
      rcases mem_setItem.mp he with rfl | ⟨he, hne⟩
      · simp [updateRefuses]
      · by_contra hrefuses
        exact hrefused ⟨e, he, hne, by simpa using hrefuses⟩
    constructor
    · intro hconf
      obtain ⟨clauses, hbuilt⟩ := exists_mapM_ok.mpr hclauses
      have hreq : ∃ request, updateByQuery isPrintable
          (setItem c.items "kb_id" (.str dataset)) [] = .ok request :=
        ⟨_, bind_eq_ok.mpr ⟨clauses, hbuilt, rfl⟩⟩
      obtain ⟨request, hreq⟩ := hreq
      have hrows := (perform_confined_iff updating_ne 1 request.query.matches
        (Selects (esGoal c dataset)) id ⟨[reachAll false], false, rfl⟩).mp <| by
          intro replies row hchanged
          apply hconf [] replies row
          rw [hupdate, hreq]
          exact hchanged
      intro row hselects
      apply hrows row
      rw [updateByQuery_matches hreq]
      exact (selects_setItem rfl).mpr hselects
    · intro hentails newValue replies row hchanged
      apply hentails
      apply (selects_setItem rfl).mp
      cases hbuilt : updateByQuery isPrintable (setItem c.items "kb_id" (.str dataset)) newValue with
      | error msg =>
        rw [hupdate, hbuilt] at hchanged
        exact absurd rfl hchanged
      | ok request =>
        rw [hupdate, hbuilt] at hchanged
        rw [← updateByQuery_matches hbuilt]
        by_contra hrow
        exact hchanged (perform_unselected (by simpa using hrow) _ _)

def deleteRefuses (e : String × Json) : Bool :=
  e.1 != "id" && e.1 != "exists" && e.1 != "must_not" &&
    match e.2 with
    | .float _ | .obj _ => true
    | _ => false

/-- The entries a deletion sends: not an empty list of ids, nor a `must_not` that is no dictionary. -/
def deleteKeeps (e : String × Json) : Bool :=
  if e.1 = "id" then !(asList e.2).isEmpty else e.1 != "must_not"

theorem deleteClause_accepts : (∃ query, deleteClause e = .ok query) ↔ deleteRefuses e = false := by
  unfold deleteClause deleteRefuses
  by_cases hid : e.1 = "id"
  · simp [hid]
  by_cases hexists : e.1 = "exists"
  · simp [hexists]
  by_cases hnot : e.1 = "must_not"
  · rw [if_neg hid, if_neg hexists, if_pos hnot]
    simp only [hnot, bne_self_eq_false, Bool.and_false, Bool.false_and, iff_true]
    cases e.2 with
    | obj fields => exact ⟨_, rfl⟩
    | _ => exact ⟨_, rfl⟩
  · rw [if_neg hid, if_neg hexists, if_neg hnot]
    cases e.2 with
    | float text => simp [hid, hexists, hnot]
    | obj fields => simp [hid, hexists, hnot]
    | _ => simp

theorem deleteClause_matches (row : Row) {query : BoolQuery} (hplain : ∀ v ∈ asList e.2, isScalar v = true)
    (h : deleteClause e = .ok query) :
    query.mustNot = [] ∧ ((∀ clause ∈ query.filter ++ query.must, clause.atom.Holds row) ↔
      (e.1 ≠ "id" → deleteKeeps e = true → (esEntry e).Holds row)) := by
  unfold deleteClause at h
  unfold deleteKeeps esEntry
  split at h
  · next hid =>
    cases h
    simp [hid]
  next hid =>
  split at h
  · next hexists =>
    cases h
    simp [hexists, EsClause.atom]
  next hexists =>
  split at h
  · next hnot =>
    split at h
    · next hvalue => simp [hvalue, asList, isScalar] at hplain
    · cases h
      simp [hnot]
  next hnot =>
  split at h
  iterate 4
    · next hvalue =>
      cases h
      simp [hid, hexists, hnot, EsClause.atom, hvalue, asList]
  · next hvalue => simp [hvalue, asList, isScalar] at hplain
  · cases h

theorem deleteIds_matches (hdist : (items.map Prod.fst).Nodup) :
    (∀ clause ∈ deleteIds items, clause.atom.Holds row) ↔
      ∀ e ∈ items, e.1 = "id" → deleteKeeps e = true → (esEntry e).Holds row := by
  unfold deleteIds
  cases hlookup : items.lookup "id" with
  | none =>
    refine iff_of_true (by simp) ?_
    intro e he hid
    have := (lookup_iff_mem hdist).mpr (show ("id", e.2) ∈ items from hid ▸ he)
    rw [hlookup] at this
    cases this
  | some value =>
    have hmem := (lookup_iff_mem hdist).mp hlookup
    have honly : ∀ e ∈ items, e.1 = "id" → e = ("id", value) :=
      fun e he hid => inj_on_of_nodup_map hdist he hmem hid
    constructor
    · intro hall e he hid hkeeps
      rw [honly e he hid] at hkeeps ⊢
      have hne : asList value ≠ [] := by simpa [deleteKeeps] using hkeeps
      have := hall (.ids (asList value)) (by simp [hne])
      simpa [EsClause.atom, esEntry] using this
    · intro hall clause hclause
      dsimp only at hclause
      split at hclause
      · cases hclause
      · next hne =>
        rw [mem_singleton] at hclause
        subst hclause
        have := hall _ hmem rfl (by simpa [deleteKeeps] using hne)
        simpa [EsClause.atom, esEntry] using this

theorem deleteQuery_matches {query : EsQuery} (hdist : (items.map Prod.fst).Nodup)
    (hplain : ∀ e ∈ items, ∀ v ∈ asList e.2, isScalar v = true) (h : deleteQuery items = .ok query)
      :
    query.matches row = true ↔
      ∀ e ∈ items, deleteKeeps e = true → (esEntry e).Holds row := by
  unfold deleteQuery at h
  obtain ⟨queries, hqueries, h⟩ := bind_eq_ok.mp h
  have hmem := mapM_eq_ok hqueries
  have hforbids : queries.flatMap BoolQuery.mustNot = [] := by
    rw [flatMap_eq_nil_iff]
    intro q hq
    obtain ⟨e, he, hclause⟩ := (hmem q).mp hq
    exact (deleteClause_matches row (hplain e he) hclause).1
  -- a query of no clause is a query of every row
  have hbool : query.matches row = true ↔
      (∀ clause ∈ deleteIds items, clause.atom.Holds row) ∧
        ∀ q ∈ queries, ∀ clause ∈ q.filter ++ q.must, clause.atom.Holds row := by
    have hclauses : (∀ clause ∈ deleteIds items ++ queries.flatMap BoolQuery.filter,
        clause.atom.Holds row) ∧ (∀ clause ∈ queries.flatMap BoolQuery.must, clause.atom.Holds row) ↔
        (∀ clause ∈ deleteIds items, clause.atom.Holds row) ∧
          ∀ q ∈ queries, ∀ clause ∈ q.filter ++ q.must, clause.atom.Holds row := by
      simp only [forall_mem_append, forall_mem_flatMap]
      rw [and_assoc, ← forall₂_and]
    rw [← hclauses]
    dsimp only at h
    split at h
    · next hempty =>
      cases h
      simp only [Bool.and_eq_true, List.isEmpty_iff] at hempty
      rw [hempty.1.1, hempty.1.2]
      simp [EsQuery.matches]
    · cases h
      simp only [EsQuery.matches, BoolQuery.matches, hforbids, all_nil, Bool.and_true,
        Bool.and_eq_true, all_eq_true, EsClause.matches_iff]
  rw [hbool, deleteIds_matches hdist]
  constructor
  · rintro ⟨hids, hothers⟩ e he hkeeps
    by_cases hid : e.1 = "id"
    · exact hids e he hid hkeeps
    · obtain ⟨q, hq⟩ := exists_mapM_ok.mp ⟨queries, hqueries⟩ e he
      exact (deleteClause_matches row (hplain e he) hq).2.mp (hothers q ((hmem q).mpr ⟨e, he, hq⟩))
        hid hkeeps
  · intro hall
    refine ⟨fun e he _ => hall e he, ?_⟩
    intro q hq
    obtain ⟨e, he, hclause⟩ := (hmem q).mp hq
    exact (deleteClause_matches row (hplain e he) hclause).2.mpr fun _ => hall e he

/-- Whatever the store does, a deletion takes rows of the dataset that satisfy the
    condition only. -/
def DeleteConfined (c : Condition) (dataset : String) : Prop :=
  ∀ replies row, after (delete c.items dataset replies) row ≠ some row →
    Selects (esGoal c dataset) row

theorem plain_setItem (c : Condition) (dataset : String) :
    ∀ e ∈ setItem c.items "kb_id" (.str dataset), ∀ v ∈ asList e.2, isScalar v = true := by
  intro e he
  rcases mem_setItem.mp he with rfl | ⟨he, -⟩
  · simp [asList, isScalar]
  · exact c.plain e he

theorem delete_confined_iff :
    DeleteConfined c dataset ↔
      (∃ e ∈ c.items, e.1 = "_id") ∨
        (∃ e ∈ c.items, e.1 ≠ "kb_id" ∧ deleteRefuses e = true) ∨
          EsConfines deleteKeeps true c dataset := by
  unfold DeleteConfined delete
  by_cases hassert : ∃ e ∈ c.items, e.1 = "_id"
  · apply iff_of_true _ (.inl hassert)
    intro replies row hchanged
    rw [if_pos (by simpa using hassert)] at hchanged
    exact absurd rfl hchanged
  rw [or_iff_right hassert]
  simp only [if_neg (show ¬ (c.items.any fun e => e.1 == "_id") = true by simpa using hassert)]
  by_cases hrefused : ∃ e ∈ c.items, e.1 ≠ "kb_id" ∧ deleteRefuses e = true
  · apply iff_of_true _ (.inl hrefused)
    intro replies row hchanged
    obtain ⟨e, he, hne, hrefuses⟩ := hrefused
    cases hbuilt : deleteQuery (setItem c.items "kb_id" (.str dataset)) with
    | error msg =>
      rw [hbuilt] at hchanged
      exact absurd rfl hchanged
    | ok query =>
      obtain ⟨queries, hqueries, -⟩ := bind_eq_ok.mp hbuilt
      have := exists_mapM_ok.mp ⟨queries, hqueries⟩ e (mem_setItem.mpr (.inr ⟨he, hne⟩))
      rw [deleteClause_accepts, hrefuses] at this
      cases this
  rw [or_iff_right hrefused]
  have hexists : ∀ e ∈ c.items, e.1 = "exists" → deleteKeeps e = false →
      existsAtom e.2 = .key [] := by
    intro e _ hname hdropped
    simp [deleteKeeps, hname] at hdropped
  rw [← esSelection_confines_iff hexists]
  have haccepts : ∀ e ∈ setItem c.items "kb_id" (.str dataset),
      ∃ query, deleteClause e = .ok query := by
    intro e he
    rw [deleteClause_accepts]
    rcases mem_setItem.mp he with rfl | ⟨he, hne⟩
    · simp [deleteRefuses]
    · by_contra hrefuses
      exact hrefused ⟨e, he, hne, by simpa using hrefuses⟩
  obtain ⟨queries, hqueries⟩ := exists_mapM_ok.mpr haccepts
  obtain ⟨query, hquery⟩ : ∃ query,
      deleteQuery (setItem c.items "kb_id" (.str dataset)) = .ok query :=
    ⟨_, bind_eq_ok.mpr ⟨queries, hqueries, rfl⟩⟩
  have hrows := perform_confined_iff deleting_ne 1 query.matches (Selects (esGoal c dataset)) id
    ⟨[reachAll false], false, rfl⟩
  have hmatches : ∀ row, query.matches row = true ↔
      Selects (esSelection deleteKeeps true c dataset) row := by
    intro row
    rw [deleteQuery_matches (setItem_distinct c.distinct _ _) (plain_setItem c dataset) hquery]
    exact selects_setItem rfl
  simp only [hmatches] at hrows
  rw [← hrows, hquery]
  rfl

end ESConnection

end StoreMutation

end MultiRag
