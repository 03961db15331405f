/-
  **Trees of headings, built from the lines of a document.**

  `Node` holds texts of any type.  `build_tree` keeps a stack of open nodes; here the
  node on top is apart from the ones below it, and a node becomes the last child of
  its parent when it is closed, where the source appends it when it is opened.  No
  other child is appended in between, so the trees are the same.
-/
import Mathlib.Data.List.Basic

namespace MultiRag.TreeMerge

open List

universe u v

/-- `Node`; the depth is the one of the root, whose methods are called. -/
inductive Node (α : Type u) where
  | mk (level : Int) (texts : List α) (children : List (Node α))

namespace Node

variable {α : Type u} {β : Type v}

def level : Node α → Int
  | mk level _ _ => level

def texts : Node α → List α
  | mk _ texts _ => texts

def children : Node α → List (Node α)
  | mk _ _ children => children

section

variable (level : Int) (texts : List α) (children : List (Node α))
include level texts children

@[simp] theorem level_mk :
    (mk level texts children).level = level := rfl

@[simp] theorem texts_mk :
    (mk level texts children).texts = texts := rfl

@[simp] theorem children_mk :
    (mk level texts children).children = children := rfl

end

def addText (node : Node α) (text : α) : Node α := mk node.level (node.texts ++ [text]) node.children

def addChild (node child : Node α) : Node α := mk node.level node.texts (node.children ++ [child])

theorem ofChildren {P : Node α → Prop}
    (h : ∀ level texts children, (∀ child ∈ children, P child) → P (mk level texts children)) (node : Node α) :
    P node := by
  refine Node.rec (motive_1 := P) (motive_2 := fun children => ∀ child ∈ children, P child) ?_ ?_ ?_ node
  · intro level texts children hchildren
    exact h level texts children hchildren
  · exact nofun
  · intro first rest hfirst hrest child hchild
    rcases mem_cons.mp hchild with rfl | hchild
    · exact hfirst
    · exact hrest child hchild

/-! ### `_dfs` -/

def pathTitles (depth level : Int) (titles texts : List α) : List α :=
  if 1 ≤ level ∧ level ≤ depth then titles ++ texts else titles

def ownChunks (depth level : Int) (titles texts : List α) (leaf : Bool) : List (List α) :=
  (if level = 0 ∧ texts ≠ [] then [titles ++ texts] else []) ++
    (if depth < level ∧ texts ≠ [] then [pathTitles depth level titles texts ++ texts]
      else if leaf ∧ 1 ≤ level ∧ level ≤ depth then [pathTitles depth level titles texts]
      else [])

mutual

def dfs (depth : Int) (titles : List α) : Node α → List (List α)
  | mk level texts children =>
    ownChunks depth level titles texts children.isEmpty ++
      dfsAll depth (pathTitles depth level titles texts) children

def dfsAll (depth : Int) (titles : List α) : List (Node α) → List (List α)
  | [] => []
  | child :: children => dfs depth titles child ++ dfsAll depth titles children

end

/-- The texts of the chunks of `get_tree`. -/
def chunks (depth : Int) (root : Node α) : List (List α) := root.dfs depth []

def getTree (depth : Int) (root : Node String) : List String := (root.chunks depth).map ("\n".intercalate)

theorem dfsAll_eq (depth : Int) (titles : List α) (children : List (Node α)) :
    dfsAll depth titles children = children.flatMap (dfs depth titles) := by
  induction children with
  | nil => rfl
  | cons child children ih => rw [dfsAll, ih, flatMap_cons]

/-! ### Texts in preorder -/

mutual

def flatten : Node α → List α
  | mk _ texts children => texts ++ flattenAll children

def flattenAll : List (Node α) → List α
  | [] => []
  | child :: children => flatten child ++ flattenAll children

end

theorem flattenAll_eq (children : List (Node α)) : flattenAll children = children.flatMap flatten := by
  induction children with
  | nil => rfl
  | cons child children ih => rw [flattenAll, ih, flatMap_cons]

theorem flatten_eq (node : Node α) : node.flatten = node.texts ++ node.children.flatMap flatten := by
  cases node with
  | mk level texts children => rw [flatten, flattenAll_eq, texts_mk, children_mk]

theorem flatten_addChild (node child : Node α) :
    (node.addChild child).flatten = node.flatten ++ child.flatten := by
  rw [flatten_eq, flatten_eq node]
  simp [addChild]

theorem flatten_addText {node : Node α} (text : α) (hchildren : node.children = []) :
    (node.addText text).flatten = node.flatten ++ [text] := by
  rw [flatten_eq, flatten_eq node]
  simp [addText, hchildren]

/-! ### `build_tree` -/

def popTo (level : Int) (top : Node α) : List (Node α) → Node α × List (Node α)
  | [] => (top, [])
  | parent :: below =>
    if level ≤ top.level then popTo level (parent.addChild top) below else (top, parent :: below)

def pushLine (depth : Int) (stack : Node α × List (Node α)) (line : Int × α) : Node α × List (Node α) :=
  if depth ≠ -1 ∧ depth < line.1 then (stack.1.addText line.2, stack.2)
  else
    let opened := popTo line.1 stack.1 stack.2
    (mk line.1 [line.2] [], opened.1 :: opened.2)

def close (top : Node α) : List (Node α) → Node α
  | [] => top
  | parent :: below => close (parent.addChild top) below

def buildTree (depth : Int) (lines : List (Int × α)) : Node α :=
  let stack := lines.foldl (pushLine depth) (mk 0 [] [], [])
  close stack.1 stack.2

/-! ### The texts of a built tree -/

def content (top : Node α) : List (Node α) → List α
  | [] => top.flatten
  | parent :: below => content parent below ++ top.flatten

theorem content_append {top top' : Node α} {text : List α} (h : top'.flatten = top.flatten ++ text)
    (below : List (Node α)) : content top' below = content top below ++ text := by
  cases below with
  | nil => exact h
  | cons parent below => rw [content, content, h, append_assoc]

theorem content_addChild (top parent : Node α) (below : List (Node α)) :
    content (parent.addChild top) below = content top (parent :: below) := by
  rw [content]
  exact content_append (flatten_addChild parent top) below

theorem content_popTo (level : Int) (top : Node α) (below : List (Node α)) :
    content (popTo level top below).1 (popTo level top below).2 = content top below := by
  induction below generalizing top with
  | nil => rfl
  | cons parent below ih =>
    rw [popTo]
    split
    · rw [ih, content_addChild]
    · rfl

theorem content_close (top : Node α) (below : List (Node α)) : (close top below).flatten = content top below := by
  induction below generalizing top with
  | nil => rfl
  | cons parent below ih => rw [close, ih, content_addChild]

variable {stack : Node α × List (Node α)}

theorem content_pushLine (depth : Int) (line : Int × α)
    (hchildren : stack.1.children = []) :
    content (pushLine depth stack line).1 (pushLine depth stack line).2 =
        content stack.1 stack.2 ++ [line.2] ∧
      (pushLine depth stack line).1.children = [] := by
  rw [pushLine]
  split
  · exact ⟨content_append (flatten_addText line.2 hchildren) stack.2, hchildren⟩
  · refine ⟨?_, rfl⟩
    rw [content, content_popTo]
    rfl

theorem content_foldl {depth : Int} (lines : List (Int × α))
    (hchildren : stack.1.children = []) :
    content (lines.foldl (pushLine depth) stack).1 (lines.foldl (pushLine depth) stack).2 =
      content stack.1 stack.2 ++ lines.map Prod.snd := by
  induction lines generalizing stack with
  | nil => simp
  | cons line lines ih =>
    obtain ⟨hcont, hnext⟩ := content_pushLine depth line hchildren
    rw [foldl_cons, ih hnext, hcont, append_assoc]
    rfl

theorem flatten_buildTree (depth : Int) (lines : List (Int × α)) :
    (buildTree depth lines).flatten = lines.map Prod.snd := by
  rw [buildTree, content_close, content_foldl lines rfl]
  rfl

/-! ### Renaming the texts -/

mutual

def map (f : α → β) : Node α → Node β
  | mk level texts children => mk level (texts.map f) (mapAll f children)

def mapAll (f : α → β) : List (Node α) → List (Node β)
  | [] => []
  | child :: children => map f child :: mapAll f children

end

variable (f : α → β)

theorem mapAll_eq (children : List (Node α)) : mapAll f children = children.map (map f) := by
  induction children with
  | nil => rfl
  | cons child children ih => rw [mapAll, ih, map_cons]

theorem map_eq (node : Node α) :
    node.map f = mk node.level (node.texts.map f) (node.children.map (map f)) := by
  cases node with
  | mk level texts children => rw [map, mapAll_eq, level_mk, texts_mk, children_mk]

@[simp] theorem level_map (node : Node α) : (node.map f).level = node.level := by
  rw [map_eq, level_mk]

theorem map_addText (node : Node α) (text : α) :
    (node.addText text).map f = (node.map f).addText (f text) := by
  simp [map_eq, addText]

theorem map_addChild (node child : Node α) :
    (node.addChild child).map f = (node.map f).addChild (child.map f) := by
  rw [map_eq, map_eq f node]
  simp [addChild]

theorem popTo_map (level : Int) (top : Node α) (below : List (Node α)) :
    popTo level (top.map f) (below.map (map f)) =
      ((popTo level top below).1.map f, (popTo level top below).2.map (map f)) := by
  induction below generalizing top with
  | nil => rfl
  | cons parent below ih =>
    rw [map_cons, popTo, popTo, level_map]
    by_cases hlevel : level ≤ top.level
    · rw [if_pos hlevel, if_pos hlevel, ← map_addChild, ih]
    · rw [if_neg hlevel, if_neg hlevel, map_cons]

theorem pushLine_map (depth : Int) (stack : Node α × List (Node α)) (line : Int × α) :
    pushLine depth (stack.1.map f, stack.2.map (map f)) (line.1, f line.2) =
      ((pushLine depth stack line).1.map f, (pushLine depth stack line).2.map (map f)) := by
  rw [pushLine, pushLine]
  by_cases hdeep : depth ≠ -1 ∧ depth < line.1
  · rw [if_pos hdeep, if_pos hdeep, map_addText]
  · rw [if_neg hdeep, if_neg hdeep]
    simp only [popTo_map, map_cons, map_eq f (mk line.1 [line.2] []), level_mk, texts_mk, children_mk,
      map_nil]

theorem foldl_map (depth : Int) (lines : List (Int × α)) (stack : Node α × List (Node α)) :
    (lines.map fun line => (line.1, f line.2)).foldl (pushLine depth) (stack.1.map f, stack.2.map (map f)) =
      ((lines.foldl (pushLine depth) stack).1.map f, (lines.foldl (pushLine depth) stack).2.map (map f)) := by
  induction lines generalizing stack with
  | nil => rfl
  | cons line lines ih => rw [map_cons, foldl_cons, pushLine_map, ih, foldl_cons]

theorem close_map (top : Node α) (below : List (Node α)) :
    close (top.map f) (below.map (map f)) = (close top below).map f := by
  induction below generalizing top with
  | nil => rfl
  | cons parent below ih => rw [map_cons, close, close, ← map_addChild, ih]

theorem buildTree_map (depth : Int) (lines : List (Int × α)) :
    buildTree depth (lines.map fun line => (line.1, f line.2)) = (buildTree depth lines).map f := by
  have hfold := foldl_map f depth lines (mk 0 [] [], [])
  rw [show ((mk 0 [] [], []) : Node α × List (Node α)).1.map f = mk 0 [] [] from rfl, map_nil] at hfold
  rw [buildTree, hfold, close_map]
  rfl

theorem pathTitles_map (depth level : Int) (titles texts : List α) :
    pathTitles depth level (titles.map f) (texts.map f) = (pathTitles depth level titles texts).map f := by
  rw [pathTitles, pathTitles, apply_ite (List.map f), map_append]

theorem ownChunks_map (depth level : Int) (titles texts : List α) (leaf : Bool) :
    ownChunks depth level (titles.map f) (texts.map f) leaf =
      (ownChunks depth level titles texts leaf).map (List.map f) := by
  simp only [ownChunks, pathTitles_map, ne_eq, map_eq_nil_iff, map_append, apply_ite (List.map (List.map f)),
    map_cons, map_nil]

theorem dfs_map (depth : Int) (titles : List α) (node : Node α) :
    (node.map f).dfs depth (titles.map f) = (node.dfs depth titles).map (List.map f) := by
  induction node using ofChildren generalizing titles with
  | h level texts children ih =>
    rw [map, mapAll_eq, dfs, dfs, dfsAll_eq, dfsAll_eq, isEmpty_map, ownChunks_map, pathTitles_map,
      map_append, flatMap_map, map_flatMap]
    congr 1
    apply flatMap_congr
    intro child hchild
    exact ih child hchild _

theorem chunks_map (depth : Int) (root : Node α) :
    (root.map f).chunks depth = (root.chunks depth).map (List.map f) := dfs_map f depth [] root

end Node

end MultiRag.TreeMerge
