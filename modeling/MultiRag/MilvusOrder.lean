/-
  **Sorting Milvus rows by order fields** (`core/utils/milvus_conn.py`).

  Two values of one type are compared as they are, others as their texts. Where every field has values of
  one type, its comparisons are those of a linear order (`rank`).
-/
import MultiRag.PyNumerals
import Mathlib.Data.List.Lex
import Mathlib.Data.String.Basic
import Mathlib.Data.Sum.Order

namespace MultiRag.MilvusOrder

open List

/-- `intText` is `int(text)`, `hexText` is `int(text, 16)`, and `literal` the items of the list that
    `ast.literal_eval` reads, tuples as lists. -/
structure Python extends Runtime where
  intText : String → Option Int
  hexText : String → Option Int
  literal : String → Option (List Data)

section Compare

variable (python : Python)

def firstPosition : List Data → Data
  | [] => .null
  | .list [] :: _ => .null
  | .list (x :: _) :: _ => x
  | x :: _ => x

def decodePositionScalar : Data → Data
  | .list items => firstPosition items
  | .str text =>
    if text = "" ∨ text = "[]" then .null
    else if "[".toList <+: text.toList ∧ "]".toList <:+ text.toList then
      match python.literal text with
      | some items => firstPosition items
      | none => .str text
    else
      match python.hexText (String.ofList (text.toList.takeWhile (· != '_'))) with
      | some n => .int n
      | none => .str text
  | value => value

/-- `int(value)`, or `None` for a `TypeError` or `ValueError`; `none` is the `OverflowError` of an infinity. -/
def intField : Data → Option Data
  | .bool b => some (.int (if b then 1 else 0))
  | .int n => some (.int n)
  | .float x =>
    match floatReal x with
    | .finite q => some (.int (q.num.tdiv q.den))
    | .infinite _ => none
    | .nan => some .null
  | .str text => some ((python.intText text).elim .null .int)
  | _ => some .null

/-- `float(value)`; `none` is the `OverflowError` of a large integer. -/
def floatField : Data → Option Data
  | .bool b => (floatOfInt (if b then 1 else 0)).map .float
  | .int n => (floatOfInt n).map .float
  | .float x => some (.float x)
  | .str text => some ((floatOfText python.unicodeDecimal text).elim .null .float)
  | _ => some .null

def getValue (item : Data) (field : String) : Option Data :=
  let value := if (item.getD field).isNone then (item.getD "entity").getD field else item.getD field
  if field ∈ ["position_int", "page_num_int", "top_int"] then some (decodePositionScalar python value)
  else if "_int".toList <:+ field.toList then intField python value
  else if "_flt".toList <:+ field.toList then floatField python value
  else some value

inductive Kind where
  | none | bool | int | float | str | list | dict
deriving DecidableEq

def kind : Data → Kind
  | .null => .none
  | .bool _ => .bool
  | .int _ => .int
  | .float _ => .float
  | .str _ => .str
  | .list _ => .list
  | .dict _ => .dict

/-- `==` and `<` of two values of one scalar type; a NaN is neither equal nor less. -/
def native (a b : Data) : Option Ordering :=
  match a, b with
  | .str s, .str t => some (if s = t then .eq else if s < t then .lt else .gt)
  | a, b =>
    match a.real?, b.real? with
    | some x, some y => some (if x = y ∧ x ≠ .nan then .eq else if x.lt y then .lt else .gt)
    | _, _ => none

def text (value : Data) : Data := .str (pyStr python.isPrintable (value.toJson python.floatRepr))

def ordering (left right : Data) : Option Ordering :=
  if kind left = kind right then native left right else native (text python left) (text python right)

/-- `none` where the comparison raises; lists and dictionaries of one type are not compared here. -/
def compare (left right : Data) : List (String × Int) → Option Ordering
  | [] => some .eq
  | (field, direction) :: fields => do
    let leftValue ← getValue python left field
    let rightValue ← getValue python right field
    if leftValue.isNone ∧ rightValue.isNone then compare left right fields
    else if leftValue.isNone then some .gt
    else if rightValue.isNone then some .lt
    else
      match ← ordering python leftValue rightValue with
      | .eq => compare left right fields
      | order => some (if direction = 0 then order else order.swap)

/-- `sorted` is stable and asks for `<` only; `none` where some comparison raises. -/
def sortResults (fields : List (String × Int)) (results : List Data) : Option (List Data) :=
  if ∀ a ∈ results, ∀ b ∈ results, (compare python a b fields).isSome then
    some (results.mergeSort fun a b => compare python b a fields != some .lt)
  else none

end Compare

/-! ### The order of the values of one type -/

/-- Real numbers with both infinities, and texts above them. -/
abbrev Key := WithBot (WithTop ℚ) ⊕ₗ String

def realKey : PyReal → WithBot (WithTop ℚ)
  | .finite q => ((q : WithTop ℚ) : WithBot (WithTop ℚ))
  | .infinite true => ⊥
  | .infinite false => ⊤
  | .nan => ⊥

def key (value : Data) : Key :=
  match value with
  | .str s => Sum.inrₗ s
  | value => Sum.inlₗ (value.real?.elim ⊥ realKey)

/-- Descending values are turned round, missing ones are last in both directions. -/
def rank (direction : Int) (value : Data) : WithTop (Key ⊕ₗ Keyᵒᵈ) :=
  if value.isNone then ⊤
  else if direction = 0 then (Sum.inlₗ (key value) : Key ⊕ₗ Keyᵒᵈ)
  else (Sum.inrₗ (OrderDual.toDual (key value)) : Key ⊕ₗ Keyᵒᵈ)

/-- A value of a scalar type, and no NaN. -/
def Comparable : Data → Prop
  | .str _ => True
  | value => ∃ x, value.real? = some x ∧ x ≠ .nan

theorem cmp_eq_ite {α : Type} [LinearOrder α] (x y : α) :
    cmp x y = if x = y then .eq else if x < y then .lt else .gt := by
  rcases lt_trichotomy x y with h | rfl | h
  · rw [(cmp_eq_lt_iff x y).mpr h, if_neg h.ne, if_pos h]
  · rw [cmp_self_eq_eq, if_pos rfl]
  · rw [(cmp_eq_gt_iff x y).mpr h, if_neg h.ne', if_neg h.not_gt]

theorem cmp_realKey {x y : PyReal} (hx : x ≠ .nan) (hy : y ≠ .nan) :
    cmp (realKey x) (realKey y) = if x = y ∧ x ≠ .nan then .eq else if x.lt y then .lt else .gt := by
  have htop (q : ℚ) : ((q : WithTop ℚ) : WithBot (WithTop ℚ)) < ⊤ := WithBot.coe_lt_coe.mpr (WithTop.coe_lt_top q)
  rw [cmp_eq_ite]
  cases x with
  | finite q =>
    cases y with
    | finite r => simp [PyReal.lt, realKey]
    | infinite negative => cases negative <;> simp [PyReal.lt, realKey, htop]
    | nan => exact absurd rfl hy
  | infinite negative =>
    cases y with
    | finite r => cases negative <;> simp [PyReal.lt, realKey]
    | infinite negative' => cases negative <;> cases negative' <;> simp [PyReal.lt, realKey]
    | nan => exact absurd rfl hy
  | nan => exact absurd rfl hx

theorem native_eq_cmp (ha : Comparable a) (hb : Comparable b) (hkind : kind a = kind b) :
    native a b = some (cmp (key a) (key b)) := by
  have hreal {x y : PyReal} (hx : a.real? = some x) (hy : b.real? = some y) (hnan : x ≠ .nan) (hnan' : y ≠ .nan) :
      native a b = some (cmp (key a) (key b)) := by
    have hkey {c : Data} {z : PyReal} (hz : c.real? = some z) : key c = Sum.inlₗ (realKey z) := by
      cases c <;> simp_all [key, Data.real?]
    rw [hkey hx, hkey hy, Sum.Lex.inl_strictMono.cmp_map_eq, cmp_realKey hnan hnan']
    cases a <;> cases b <;> simp_all [native, Data.real?]
  cases a with
  | str s =>
    cases b with
    | str t => rw [native, key, key, Sum.Lex.inr_strictMono.cmp_map_eq, cmp_eq_ite]
    | _ => cases hkind
  | null | list items | dict items => simp [Comparable, Data.real?] at ha
  | _ =>
    obtain ⟨x, hx, hnan⟩ := ha
    cases b with
    | bool c | int n | float z =>
      obtain ⟨y, hy, hnan'⟩ := hb
      exact hreal hx hy hnan hnan'
    | _ => cases hkind

/-! ### Rows -/

def ranks (python : Python) (fields : List (String × Int)) (row : Data) : List (WithTop (Key ⊕ₗ Keyᵒᵈ)) :=
  fields.map fun field => rank field.2 ((getValue python row field.1).getD .null)

/-- In each field the values, missing ones apart, are of one scalar type and no NaN. -/
def Uniform (python : Python) (fields : List (String × Int)) (rows : List Data) : Prop :=
  ∀ field ∈ fields, ∃ k, ∀ row ∈ rows, ∃ value, getValue python row field.1 = some value ∧
    (value.isNone = false → kind value = k ∧ Comparable value)

variable {python : Python} {fields : List (String × Int)} {rows : List Data} {a b : Data}

theorem cmp_rank (direction : Int) (ha : a.isNone = false) (hb : b.isNone = false) :
    cmp (rank direction a) (rank direction b) =
      if direction = 0 then cmp (key a) (key b) else (cmp (key a) (key b)).swap := by
  rw [rank, rank, if_neg (ne_true_of_eq_false ha), if_neg (ne_true_of_eq_false hb)]
  by_cases hdir : direction = 0
  · rw [if_pos hdir, if_pos hdir, if_pos hdir, WithTop.coe_strictMono.cmp_map_eq, Sum.Lex.inl_strictMono.cmp_map_eq]
  · rw [if_neg hdir, if_neg hdir, if_neg hdir, WithTop.coe_strictMono.cmp_map_eq, Sum.Lex.inr_strictMono.cmp_map_eq]
    exact (cmp_swap (key a) (key b)).symm

theorem rank_lt (direction : Int) (ha : a.isNone = true) (hb : b.isNone = false) :
    rank direction b < rank direction a := by
  simp only [rank, ha, hb, Bool.false_eq_true, if_false, if_true]
  split
  · exact WithTop.coe_lt_top _
  · exact WithTop.coe_lt_top _

/-- `cmp` with the order of the lists, not the one that `List` has without it. -/
abbrev cmpRanks {α : Type} [LinearOrder α] (xs ys : α) : Ordering := cmp xs ys

theorem cmpRanks_cons {α : Type} [LinearOrder α] (x y : α) (xs ys : List α) :
    cmpRanks (x :: xs) (y :: ys) = (cmp x y).then (cmpRanks xs ys) := by
  rcases lt_trichotomy x y with h | rfl | h
  · rw [(cmp_eq_lt_iff x y).mpr h]
    exact (cmp_eq_lt_iff _ _).mpr (cons_lt_cons_iff.mpr (.inl h))
  · rw [cmp_self_eq_eq]
    have hmono : StrictMono (List.cons x) := fun l l' hlt => cons_lt_cons_iff.mpr (.inr ⟨rfl, hlt⟩)
    exact hmono.cmp_map_eq xs ys
  · rw [(cmp_eq_gt_iff x y).mpr h]
    exact (cmp_eq_gt_iff _ _).mpr (cons_lt_cons_iff.mpr (.inl h))

theorem compare_eq_cmp (h : Uniform python fields rows) (ha : a ∈ rows) (hb : b ∈ rows) :
    compare python a b fields = some (cmpRanks (ranks python fields a) (ranks python fields b)) := by
  induction fields with
  | nil => exact congrArg some (cmp_self_eq_eq _).symm
  | cons field fields ih =>
    obtain ⟨hfield, hfields⟩ := forall_mem_cons.mp h
    obtain ⟨k, hk⟩ := hfield
    obtain ⟨x, hx, hxk⟩ := hk a ha
    obtain ⟨y, hy, hyk⟩ := hk b hb
    have hrest := ih hfields
    simp only [ranks, map_cons, compare, hx, hy, Option.bind_eq_bind, Option.bind_some, Option.getD_some] at hrest ⊢
    rw [cmpRanks_cons]
    cases hxn : x.isNone with
    | true =>
      cases hyn : y.isNone with
      | true =>
        rw [rank, rank, if_pos hxn, if_pos hyn, cmp_self_eq_eq]
        simp [hrest]
      | false =>
        rw [(cmp_eq_gt_iff _ _).mpr (rank_lt field.2 hxn hyn)]
        simp
    | false =>
      cases hyn : y.isNone with
      | true =>
        rw [(cmp_eq_lt_iff _ _).mpr (rank_lt field.2 hyn hxn)]
        simp
      | false =>
        obtain ⟨hxkind, hxc⟩ := hxk hxn
        obtain ⟨hykind, hyc⟩ := hyk hyn
        rw [cmp_rank field.2 hxn hyn, ordering, if_pos (hxkind.trans hykind.symm),
          native_eq_cmp hxc hyc (hxkind.trans hykind.symm), hrest]
        cases cmp (key x) (key y) <;> by_cases hdir : field.2 = 0 <;> simp [hdir]

def precedes (python : Python) (fields : List (String × Int)) (a b : Data) : Bool :=
  decide (ranks python fields a ≤ ranks python fields b)

theorem sortResults_eq (h : Uniform python fields rows) :
    sortResults python fields rows = some (rows.mergeSort (precedes python fields)) := by
  have hsome : ∀ a ∈ rows, ∀ b ∈ rows, (compare python a b fields).isSome := by
    intro a ha b hb
    rw [compare_eq_cmp h ha hb]
    rfl
  rw [sortResults, if_pos hsome]
  have hmap := map_mergeSort (r := fun a b => compare python b a fields != some .lt)
    (s := precedes python fields) (f := id) (l := rows) ?_
  · simpa using hmap
  · intro a ha b hb
    rw [compare_eq_cmp h hb ha]
    by_cases hle : ranks python fields a ≤ ranks python fields b
    · have hge : cmpRanks (ranks python fields b) (ranks python fields a) ≠ .lt :=
        fun hlt => ((cmp_eq_lt_iff _ _).mp hlt).not_ge hle
      simp [precedes, hge, hle]
    · have hlt : cmpRanks (ranks python fields b) (ranks python fields a) = .lt := (cmp_eq_lt_iff _ _).mpr (not_le.mp hle)
      simp [precedes, hlt, hle]

theorem Uniform.perm {rows' : List Data} (h : Uniform python fields rows) (hperm : rows'.Perm rows) :
    Uniform python fields rows' := by
  intro field hfield
  obtain ⟨k, hk⟩ := h field hfield
  exact ⟨k, fun row hrow => hk row (hperm.mem_iff.mp hrow)⟩

theorem sortResults_sorted (h : Uniform python fields rows) :
    (∀ a ∈ rows, ∀ b ∈ rows,
      compare python a b fields = some (cmpRanks (ranks python fields a) (ranks python fields b))) ∧
    ∃ result, sortResults python fields rows = some result ∧ result.Perm rows ∧
      result.Pairwise (fun a b => ranks python fields a ≤ ranks python fields b) ∧
      (∀ ties : List Data, ties.Sublist rows →
        ties.Pairwise (fun a b => ranks python fields a = ranks python fields b) → ties.Sublist result) ∧
      ∀ rows' result' : List Data, rows'.Perm rows → sortResults python fields rows' = some result' →
        result'.map (ranks python fields) = result.map (ranks python fields) := by
  have htrans (a b c : Data) : precedes python fields a b → precedes python fields b c → precedes python fields a c := by
    simp only [precedes, decide_eq_true_eq]
    exact le_trans
  have htotal (a b : Data) : (precedes python fields a b || precedes python fields b a) = true := by
    simp only [precedes, Bool.or_eq_true, decide_eq_true_eq]
    exact le_total _ _
  have hsorted (rows : List Data) :
      (rows.mergeSort (precedes python fields)).Pairwise fun a b => ranks python fields a ≤ ranks python fields b := by
    refine (pairwise_mergeSort htrans htotal rows).imp ?_
    intro a b hab
    exact of_decide_eq_true hab
  refine ⟨fun a ha b hb => compare_eq_cmp h ha hb, _, sortResults_eq h, mergeSort_perm rows _, hsorted rows, ?_, ?_⟩
  · intro ties hsub hties
    refine sublist_mergeSort htrans htotal ?_ hsub
    exact hties.imp fun hab => decide_eq_true hab.le
  · intro rows' result' hperm hresult
    rw [sortResults_eq (h.perm hperm)] at hresult
    cases hresult
    have hperm' : (rows'.mergeSort (precedes python fields)).Perm (rows.mergeSort (precedes python fields)) :=
      ((mergeSort_perm rows' _).trans hperm).trans (mergeSort_perm rows _).symm
    have hranks (rows : List Data) := pairwise_map.mpr (hsorted rows)
    refine Perm.eq_of_pairwise ?_ (hranks rows') (hranks rows) (hperm'.map (ranks python fields))
    intro x y _ _ hxy hyx
    exact le_antisymm hxy hyx

def samplePython : Python where
  isPrintable := fun c => decide (c.toNat < 127)
  unicodeDecimal := fun _ => none
  floatRepr := fun _ => "nan"
  sha256 := fun _ => 0
  intText := fun text => if text = "7" then some 7 else none
  hexText := fun _ => none
  literal := fun _ => none

def row (field : String) (value : Data) : Data := .dict [(field, value)]

def sampleRows : List Data := [row "weight_int" (.str "7"), row "weight_int" .null, row "weight_int" (.int 9)]

theorem sortResults_sorted_three :
    ∃ result, sortResults samplePython [("weight_int", 1)] sampleRows = some result ∧ result.Perm sampleRows := by
  have huniform : Uniform samplePython [("weight_int", 1)] sampleRows := by
    intro field hfield
    cases mem_singleton.mp hfield
    refine ⟨.int, ?_⟩
    simp only [sampleRows, forall_mem_cons]
    refine ⟨⟨.int 7, rfl, ?_⟩, ⟨.null, rfl, ?_⟩, ⟨.int 9, rfl, ?_⟩, ?_⟩
    all_goals simp [kind, Comparable, Data.real?, Data.isNone]
  obtain ⟨-, result, hresult, hperm, -⟩ := sortResults_sorted huniform
  exact ⟨result, hresult, hperm⟩

/-- A number and a text are compared as texts, so 9 < 10 < "5" < 9. A NaN is after itself, and an infinity
    in an `_int` field raises. -/
theorem mixed_cycle :
    ([(Data.int 9, Data.int 10), (.int 10, .str "5"), (.str "5", .int 9)].map fun pair =>
      compare samplePython (row "weight" pair.1) (row "weight" pair.2) [("weight", 0)]) =
      [some .lt, some .lt, some .lt] ∧
    compare samplePython (row "weight" (.float (.pack .notANumber))) (row "weight" (.float (.pack .notANumber)))
      [("weight", 0)] = some .gt ∧
    sortResults samplePython [("weight_int", 0)]
      [row "weight_int" (.float (.pack (.infinity .positive))), row "weight_int" (.int 1)] = none := by
  decide +kernel

end MultiRag.MilvusOrder
