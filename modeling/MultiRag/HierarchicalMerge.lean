/-
  **`hierarchical_merge` of a list of sections** (`core/nlp/__init__.py`).

  The sections are sorted into levels: one for each pattern of the category, then titles,
  then body text.  Backwards, so that body text is first, the first levels are read
  section by section, and each section that no chunk has yet starts an index chain: the
  section, then for each level above the last heading before it.

  An index chain is kept with its last element first.
-/
import MultiRag.BulletPatterns
import MultiRag.Descents
import MultiRag.PyText

namespace MultiRag.HierarchicalMerge

open Bullets Descents Regex

def levelOf (patterns : List Regex) : String × String → Nat
  | (text, layout) =>
    match firstMatch patterns (pyStrip text) with
    | some level => level
    | none => if isTitleLayout layout ∧ ¬ notTitle text then patterns.length else patterns.length + 1

def positions (ranks : List Nat) (level : Nat) : List Nat :=
  (List.range ranks.length).filter fun i => ranks.getD i 0 = level

def levelsBackwards (ranks : List Nat) (count : Nat) : List (List Nat) :=
  ((List.range count).map (positions ranks)).reverse

/-- The loop; `none` is the `AssertionError`.  Each round makes the range shorter. -/
def searchLoop (arr : List Nat) (target : Nat) : Nat → Nat → Nat → Option Nat
  | 0, s, _ => some s
  | rounds + 1, s, e =>
    if 1 < e - s then
      match arr[(e + s) / 2]? with
      | none => none
      | some x =>
        if x < target then searchLoop arr target rounds ((e + s) / 2) e
        else if target < x then searchLoop arr target rounds s ((e + s) / 2)
        else none
    else some s

def binarySearch (arr : List Nat) (target : Nat) : Option Int :=
  match arr.head?, arr.getLast? with
  | some first, some last =>
    if last < target then some (arr.length - 1)
    else if target < first then some (-1)
    else (searchLoop arr target arr.length 0 arr.length).map Int.ofNat
  | _, _ => some (-1)

/-! ### Index chains -/

/-- One round of the loop over the levels above: the chain of the section `j`. -/
def attach (j : Nat) (chain arr : List Nat) : Option (List Nat) := do
  let jj ← binarySearch arr j
  if jj < 0 then some chain
  else (pyItem arr jj).map (push chain)

/-- The index chain of the section `j` of the level with number `i`. -/
def chainOf (levels : List (List Nat)) (i j : Nat) : Option (List Nat) :=
  if i + 1 = levels.length - 1 then some [j] else (levels.drop (i + 1)).foldlM (attach j) [j]

structure Reading where
  readed : Nat → Bool
  cks : List (List Nat)

def visit (levels : List (List Nat)) (state : Reading) : Nat × Nat → Option Reading
  | (i, j) =>
    if state.readed j then some state
    else (chainOf levels i j).map fun chain =>
      { readed := fun k => state.readed k || k == j || chain.contains k
        cks := state.cks ++ [chain] }

def visits (levels : List (List Nat)) (depth : Int) : List (Nat × Nat) :=
  (pyTake levels depth).zipIdx.flatMap fun level => level.1.map fun j => (level.2, j)

def indexChains (levels : List (List Nat)) (depth : Int) : Option (List (List Nat)) :=
  ((visits levels depth).foldlM (visit levels) ⟨fun _ => false, []⟩).map (·.cks)

/-! ### Chunks -/

/-- `res` and `num`: the chunks before the last one, the last one, and its number. -/
structure Packing (α : Type) where
  closed : List (List α)
  last : List α
  num : Nat

def pack {α : Type} (tokens : α → Nat) (packing : Packing α) : List α → Packing α
  | [x] =>
    if tokens x + packing.num < 218 then
      { packing with last := packing.last ++ [x], num := packing.num + tokens x }
    else ⟨packing.closed ++ [packing.last], [x], tokens x⟩
  | ck => ⟨packing.closed ++ [packing.last], ck, 218⟩

def packAll {α : Type} (tokens : α → Nat) (cks : List (List α)) : List (List α) :=
  let packing := cks.foldl (pack tokens) ⟨[], [], 0⟩
  packing.closed ++ [packing.last]

def withoutTag (text : String) : String := (all [lit "@@", plus digit, star dot]).remove text

def chainsOf (patterns : List Regex) (sections : List (String × String)) (depth : Int) : Option (List (List Nat)) :=
  indexChains (levelsBackwards (sections.map (levelOf patterns)) (patterns.length + 2)) depth

def hierarchicalMerge (tokens : String → Nat) (bull : Int) (sections : Sections) (depth : Int) :
    Option (List (List String)) :=
  if sections.isEmpty ∨ bull < 0 then some []
  else do
    let patterns ← pyItem bulletPattern bull
    let chains ← chainsOf patterns (kept sections) depth
    let cks := chains.map (List.map fun i => ((kept sections).getD i ("", "")).1)
    some (if cks = [] then [] else packAll (fun text => tokens (withoutTag text)) cks)

end MultiRag.HierarchicalMerge
