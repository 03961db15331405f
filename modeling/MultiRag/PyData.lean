/-
  **Python values with their numbers.**

  What `json.loads` returns, with floats as binary64 numbers, for code that computes with them:
  `float(…)` and `int(…)` of integers and strings, and comparisons, which Python decides exactly
  between integers and floats.
-/
import Mathlib.Algebra.Group.Nat.Defs
import Mathlib.Algebra.Order.Ring.Unbundled.Rat
import MultiRag.PyValue

namespace MultiRag

open List

inductive Data where
  | null
  | bool (b : Bool)
  | int (n : Int)
  | float (x : Float.Model)
  | str (s : String)
  | list (items : List Data)
  | dict (items : List (String × Data))

/-- `unicodeDecimal` is the digit value above ASCII; `sha256` is the digest as a number. -/
structure Runtime where
  isPrintable : Char → Bool
  unicodeDecimal : Char → Option Nat
  floatRepr : Float.Model → String
  sha256 : List UInt8 → Nat

namespace Data

/-! ### Decidable equality (through the nested lists) -/

mutual

def decEq : (a b : Data) → Decidable (a = b)
  | .null, .null => isTrue rfl
  | .bool a, .bool b => decidable_of_iff (a = b) (by simp)
  | .int a, .int b => decidable_of_iff (a = b) (by simp)
  | .float a, .float b => decidable_of_iff (a = b) (by simp)
  | .str a, .str b => decidable_of_iff (a = b) (by simp)
  | .list a, .list b =>
      match decEqItems a b with
      | isTrue h => isTrue (by rw [h])
      | isFalse h => isFalse (by simpa using h)
  | .dict a, .dict b =>
      match decEqFields a b with
      | isTrue h => isTrue (by rw [h])
      | isFalse h => isFalse (by simpa using h)
  | .null, .bool _ | .null, .int _ | .null, .float _ | .null, .str _ | .null, .list _
  | .null, .dict _ | .bool _, .null | .bool _, .int _ | .bool _, .float _ | .bool _, .str _
  | .bool _, .list _ | .bool _, .dict _ | .int _, .null | .int _, .bool _ | .int _, .float _
  | .int _, .str _ | .int _, .list _ | .int _, .dict _ | .float _, .null | .float _, .bool _
  | .float _, .int _ | .float _, .str _ | .float _, .list _ | .float _, .dict _ | .str _, .null
  | .str _, .bool _ | .str _, .int _ | .str _, .float _ | .str _, .list _ | .str _, .dict _
  | .list _, .null | .list _, .bool _ | .list _, .int _ | .list _, .float _ | .list _, .str _
  | .list _, .dict _ | .dict _, .null | .dict _, .bool _ | .dict _, .int _ | .dict _, .float _
  | .dict _, .str _ | .dict _, .list _ => isFalse (by simp)

def decEqItems : (a b : List Data) → Decidable (a = b)
  | [], [] => isTrue rfl
  | [], _ :: _ | _ :: _, [] => isFalse (by simp)
  | x :: xs, y :: ys =>
      match decEq x y, decEqItems xs ys with
      | isTrue h, isTrue hs => isTrue (by rw [h, hs])
      | isFalse h, _ => isFalse (by simp [h])
      | _, isFalse hs => isFalse (by simp [hs])

def decEqFields : (a b : List (String × Data)) → Decidable (a = b)
  | [], [] => isTrue rfl
  | [], _ :: _ | _ :: _, [] => isFalse (by simp)
  | (k, x) :: xs, (l, y) :: ys =>
      match decEq x y, decEqFields xs ys with
      | isTrue h, isTrue hs => decidable_of_iff (k = l) (by simp [h, hs])
      | isFalse h, _ => isFalse (by simp [h])
      | _, isFalse hs => isFalse (by simp [hs])

end

instance : DecidableEq Data := decEq

/-! ### Access -/

def getD (d : Data) (key : String) : Data :=
  match d with
  | .dict items => (items.lookup key).getD .null
  | _ => .null

def isNone : Data → Bool
  | .null => true
  | _ => false

def asStr : Data → Option String
  | .str s => some s
  | _ => none

def asList : Data → Option (List Data)
  | .list items => some items
  | _ => none

/-- `isinstance(value, Mapping)` -/
def asDict : Data → Option (List (String × Data))
  | .dict items => some items
  | _ => none

def asBool : Data → Option Bool
  | .bool b => some b
  | _ => none

/-- `isinstance(value, int)` -/
def asInt : Data → Option Int
  | .bool b => some (if b then 1 else 0)
  | .int n => some n
  | _ => none

variable {d : Data}

@[simp] theorem asStr_eq_some {s : String} : d.asStr = some s ↔ d = .str s := by
  cases d <;> simp [asStr]

@[simp] theorem asList_eq_some {items : List Data} :
    d.asList = some items ↔ d = .list items := by
  cases d <;> simp [asList]

mutual

def WellFormed : Data → Prop
  | .list items => WellFormedItems items
  | .dict items => (items.map Prod.fst).Nodup ∧ WellFormedFields items
  | _ => True

def WellFormedItems : List Data → Prop
  | [] => True
  | x :: rest => x.WellFormed ∧ WellFormedItems rest

def WellFormedFields : List (String × Data) → Prop
  | [] => True
  | (_, x) :: rest => x.WellFormed ∧ WellFormedFields rest

end

theorem wellFormedFields_iff {items : List (String × Data)} :
    WellFormedFields items ↔ ∀ item ∈ items, item.2.WellFormed := by
  induction items with
  | nil => simp [WellFormedFields]
  | cons item rest ih =>
    simp [WellFormedFields, ih]

theorem WellFormed.getD (h : d.WellFormed) (key : String) : (d.getD key).WellFormed := by
  cases d with
  | dict items =>
    rw [WellFormed, wellFormedFields_iff] at h
    simp only [Data.getD]
    cases hlookup : items.lookup key with
    | none => trivial
    | some value =>
      rw [lookup_eq_some_iff] at hlookup
      obtain ⟨before, after, rfl, -⟩ := hlookup
      exact h.2 (key, value) (by simp)
  | null | bool _ | int _ | float _ | str _ | list _ => trivial

mutual

def toJson (floatRepr : Float.Model → String) : Data → Json
  | .null => .null
  | .bool b => .bool b
  | .int n => .int n
  | .float x => .float (floatRepr x)
  | .str s => .str s
  | .list items => .arr (toJsonItems floatRepr items)
  | .dict items => .obj (toJsonFields floatRepr items)

def toJsonItems (floatRepr : Float.Model → String) : List Data → List Json
  | [] => []
  | x :: rest => x.toJson floatRepr :: toJsonItems floatRepr rest

def toJsonFields (floatRepr : Float.Model → String) : List (String × Data) → List (String × Json)
  | [] => []
  | (key, x) :: rest => (key, x.toJson floatRepr) :: toJsonFields floatRepr rest

end

end Data

def Runtime.repr (python : Runtime) (value : Data) : String :=
  pyRepr python.isPrintable (value.toJson python.floatRepr)

/-! ### Dictionaries -/

def dictSet {α : Type} (items : List (String × α)) (key : String) (value : α) : List (String × α) :=
  if items.any (fun item => item.1 == key) then
    items.map fun item => if item.1 = key then (key, value) else item
  else items ++ [(key, value)]

def dictOf {α : Type} (items : List (String × α)) : List (String × α) :=
  items.foldl (fun d item => dictSet d item.1 item.2) []

theorem dictSet_new {α : Type} {items : List (String × α)} {key : String} (value : α)
    (h : key ∉ items.map Prod.fst) : dictSet items key value = items ++ [(key, value)] := by
  have hany : items.any (fun item => item.1 == key) = false := by
    rw [any_eq_false]
    intro item hitem heq
    exact h (by simpa [← eq_of_beq heq] using mem_map_of_mem (f := Prod.fst) hitem)
  simp [dictSet, hany]

theorem dictOf_eq {α : Type} {items : List (String × α)} (h : (items.map Prod.fst).Nodup) :
    dictOf items = items := by
  have hloop : ∀ (rest before : List (String × α)), ((before ++ rest).map Prod.fst).Nodup →
      rest.foldl (fun d item => dictSet d item.1 item.2) before = before ++ rest := by
    intro rest
    induction rest with
    | nil => simp
    | cons item rest ih =>
      intro before hnodup
      have hnew : item.1 ∉ before.map Prod.fst := by
        rw [map_append, nodup_append] at hnodup
        intro hmem
        exact hnodup.2.2 _ hmem item.1 (by simp) rfl
      rw [foldl_cons, dictSet_new item.2 hnew, ih (before ++ [item]) (by simpa using hnodup)]
      simp
  simpa [dictOf] using hloop items [] (by simpa using h)

/-! ### Numbers -/

inductive PyReal where
  | finite (q : ℚ)
  | infinite (negative : Bool)
  | nan
deriving DecidableEq

def PyReal.lt : PyReal → PyReal → Bool
  | .finite a, .finite b => decide (a < b)
  | .infinite true, .finite _ | .infinite true, .infinite false | .finite _, .infinite false => true
  | _, _ => false

def floatReal (x : Float.Model) : PyReal :=
  match x.unpack with
  | .infinity .positive => .infinite false
  | .infinity .negative => .infinite true
  | .notANumber => .nan
  | .zero _ => .finite 0
  | .finite .positive mantissa exponent _ =>
    .finite ((mantissa * 2 ^ exponent.toNat : Nat) / (2 ^ (-exponent).toNat : Nat))
  | .finite .negative mantissa exponent _ =>
    .finite (-((mantissa * 2 ^ exponent.toNat : Nat) / (2 ^ (-exponent).toNat : Nat)))

theorem isFinite_iff {x : Float.Model} : x.isFinite = true ↔ ∃ q, floatReal x = .finite q := by
  unfold Float.Model.isFinite floatReal
  cases x.unpack with
  | infinity sign =>
    refine ⟨fun h => Bool.noConfusion h, ?_⟩
    rintro ⟨q, hq⟩
    cases sign <;> cases hq
  | notANumber =>
    refine ⟨fun h => Bool.noConfusion h, ?_⟩
    rintro ⟨q, hq⟩
    cases hq
  | zero sign => exact ⟨fun _ => ⟨0, rfl⟩, fun _ => rfl⟩
  | finite sign mantissa exponent hpos => cases sign <;> exact ⟨fun _ => ⟨_, rfl⟩, fun _ => rfl⟩

def PyReal.le (a b : PyReal) : Bool := a.lt b || (decide (a = b) && decide (a ≠ .nan))

def Data.real? : Data → Option PyReal
  | .bool b => some (.finite (if b then 1 else 0))
  | .int n => some (.finite n)
  | .float x => some (floatReal x)
  | _ => none

/-- `a < b` where `a` is a number; it raises where `b` is none. -/
def Data.lt? (a b : Data) : Option Bool :=
  match a.real?, b.real? with
  | some x, some y => some (x.lt y)
  | _, _ => none

/-- `a <= b` where one of them is a number. -/
def Data.le? (a b : Data) : Option Bool :=
  match a.real?, b.real? with
  | some x, some y => some (x.le y)
  | _, _ => none

def Data.truthy : Data → Bool
  | .null => false
  | .bool b => b
  | .int n => n != 0
  | .float x => decide (floatReal x ≠ .finite 0)
  | .str s => s != ""
  | .list items => !items.isEmpty
  | .dict items => !items.isEmpty

/-- `float(n)`; it raises where no float is that large. -/
def floatOfInt (n : Int) : Option Float.Model :=
  let x := Float.Model.ofInt n
  if x.isFinite then some x else none

example : (floatOfInt (2 ^ 53 + 1)).map floatReal = some (.finite (2 ^ 53)) := by decide +kernel
example : (floatOfInt (2 ^ 1024)).map floatReal = none := by decide +kernel

end MultiRag
