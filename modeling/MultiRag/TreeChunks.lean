/-
  **The chunks of a tree of headings.**

  A tree that is built from lines consists of sections (`Section`): a heading within
  the depth, the lines deeper than it that follow, and subsections with greater levels
  that do not grow from one to the next.  Its chunks are the texts along the branches
  from a top section to a leaf (`Branch`), and the texts of the root.
-/
import Mathlib.Data.List.Chain
import Mathlib.Data.List.FinRange
import MultiRag.TreeNodes

namespace MultiRag.TreeMerge

open Node List

universe u

section

variable {α : Type u} (depth : Int) (levelOf : α → Int)

/-! ### Sections -/

inductive Section : Node α → Prop
  | mk {heading : α} {bodies : List α} {children : List (Node α)} :
      1 ≤ levelOf heading → levelOf heading ≤ depth → (∀ body ∈ bodies, depth < levelOf body) →
      (∀ child ∈ children, levelOf heading < child.level) →
      children.Pairwise (fun earlier later => later.level ≤ earlier.level) →
      (∀ child ∈ children, Section child) →
      Section (Node.mk (levelOf heading) (heading :: bodies) children)

/-- The lines before the first heading, and the top sections. -/
structure RootOf (root : Node α) : Prop where
  level : root.level = 0
  bodies : ∀ body ∈ root.texts, depth < levelOf body
  pairwise : root.children.Pairwise (fun earlier later => later.level ≤ earlier.level)
  sections : ∀ child ∈ root.children, Section depth levelOf child

/-- Open nodes from the top down to the root: each may become the last child of the next. -/
def Opened : Node α → List (Node α) → Prop
  | top, [] => RootOf depth levelOf top
  | top, parent :: below =>
    Section depth levelOf top ∧ parent.level < top.level ∧
      (∀ child ∈ parent.children, top.level ≤ child.level) ∧ Opened parent below

variable {depth levelOf} {children : List (Node α)} {child : Node α}

theorem pairwise_addChild
    (h : children.Pairwise (fun earlier later => later.level ≤ earlier.level))
    (hchild : ∀ earlier ∈ children, child.level ≤ earlier.level) :
    (children ++ [child]).Pairwise (fun earlier later => later.level ≤ earlier.level) := by
  rw [pairwise_append]
  refine ⟨h, pairwise_singleton _ _, ?_⟩
  intro earlier hearlier later hlater
  rw [mem_singleton.mp hlater]
  exact hchild earlier hearlier

variable {node : Node α} {text : α}

theorem Section.addText (h : Section depth levelOf node) (htext : depth < levelOf text) :
    Section depth levelOf (node.addText text) := by
  cases h with
  | mk hlow hhigh hbodies hbelow hpairwise hsecs =>
    refine Section.mk hlow hhigh ?_ hbelow hpairwise hsecs
    intro body hbody
    rcases mem_append.mp hbody with hold | hnew
    · exact hbodies body hold
    · rw [mem_singleton.mp hnew]
      exact htext

theorem Section.addChild (h : Section depth levelOf node) (hchild : Section depth levelOf child)
    (hlevel : node.level < child.level)
    (hearlier : ∀ earlier ∈ node.children, child.level ≤ earlier.level) :
    Section depth levelOf (node.addChild child) := by
  cases h with
  | mk hlow hhigh hbodies hbelow hpairwise hsecs =>
    refine Section.mk hlow hhigh hbodies ?_ (pairwise_addChild hpairwise hearlier) ?_
    · intro c hc
      rcases mem_append.mp hc with hold | hnew
      · exact hbelow c hold
      · rw [mem_singleton.mp hnew]
        exact hlevel
    · intro c hc
      rcases mem_append.mp hc with hold | hnew
      · exact hsecs c hold
      · rw [mem_singleton.mp hnew]
        exact hchild

variable {root : Node α}

theorem RootOf.addText (h : RootOf depth levelOf root) (htext : depth < levelOf text) :
    RootOf depth levelOf (root.addText text) := { h with
  bodies := by
    intro body hbody
    rcases mem_append.mp hbody with hold | hnew
    · exact h.bodies body hold
    · rw [mem_singleton.mp hnew]
      exact htext }

theorem RootOf.addChild (h : RootOf depth levelOf root) (hchild : Section depth levelOf child)
    (hearlier : ∀ earlier ∈ root.children, child.level ≤ earlier.level) :
    RootOf depth levelOf (root.addChild child) := { h with
  pairwise := pairwise_addChild h.pairwise hearlier
  sections := by
    intro c hc
    rcases mem_append.mp hc with hold | hnew
    · exact h.sections c hold
    · rw [mem_singleton.mp hnew]
      exact hchild }

/-! ### Open nodes -/

variable {top : Node α} {below : List (Node α)}

theorem Opened.addText (h : Opened depth levelOf top below) (htext : depth < levelOf text) :
    Opened depth levelOf (top.addText text) below := by
  cases below with
  | nil => exact RootOf.addText h htext
  | cons parent below => exact ⟨h.1.addText htext, h.2⟩

theorem Opened.addChild {parent : Node α} (h : Opened depth levelOf top (parent :: below)) :
    Opened depth levelOf (parent.addChild top) below := by
  obtain ⟨htop, hlevel, hearlier, hparent⟩ := h
  cases below with
  | nil => exact RootOf.addChild hparent htop hearlier
  | cons grandparent below => exact ⟨hparent.1.addChild htop hlevel hearlier, hparent.2⟩

theorem Opened.popTo {level : Int} (h : Opened depth levelOf top below) (hlevel : 1 ≤ level)
    (hchildren : ∀ child ∈ top.children, level ≤ child.level) :
    Opened depth levelOf (Node.popTo level top below).1 (Node.popTo level top below).2 ∧
      (Node.popTo level top below).1.level < level ∧
      ∀ child ∈ (Node.popTo level top below).1.children, level ≤ child.level := by
  induction below generalizing top with
  | nil =>
    refine ⟨h, ?_, hchildren⟩
    rw [Node.popTo, RootOf.level h]
    exact hlevel
  | cons parent below ih =>
    rw [Node.popTo]
    by_cases htop : level ≤ top.level
    · rw [if_pos htop]
      apply ih h.addChild
      intro child hchild
      rcases mem_append.mp hchild with hold | hnew
      · exact Int.le_trans htop (h.2.2.1 child hold)
      · rw [mem_singleton.mp hnew]
        exact htop
    · rw [if_neg htop]
      exact ⟨h, Int.not_le.mp htop, hchildren⟩

variable {stack : Node α × List (Node α)} (h : Opened depth levelOf stack.1 stack.2)
  (hchildren : stack.1.children = [])
  (hdepth : 1 ≤ depth)
include h hchildren hdepth

theorem Opened.pushLine {line : Int × α} (hline : levelOf line.2 = line.1)
    (hlevel : 1 ≤ line.1) :
    Opened depth levelOf (pushLine depth stack line).1 (pushLine depth stack line).2 := by
  rw [Node.pushLine]
  by_cases hdeep : depth ≠ -1 ∧ depth < line.1
  · rw [if_pos hdeep]
    apply h.addText
    rw [hline]
    exact hdeep.2
  · rw [if_neg hdeep]
    have hhigh : line.1 ≤ depth := by omega
    obtain ⟨hopened, habove, hbelow⟩ := h.popTo hlevel (by simp [hchildren])
    refine ⟨?_, habove, hbelow, hopened⟩
    rw [← hline] at hlevel hhigh ⊢
    apply Section.mk hlevel hhigh
    · simp
    · simp
    · exact List.Pairwise.nil
    · simp

variable {lines : List (Int × α)}

theorem Opened.foldl (hlines : ∀ line ∈ lines, levelOf line.2 = line.1 ∧ 1 ≤ line.1) :
    Opened depth levelOf (lines.foldl (Node.pushLine depth) stack).1
      (lines.foldl (Node.pushLine depth) stack).2 := by
  induction lines generalizing stack with
  | nil => exact h
  | cons line lines ih =>
    obtain ⟨hline, hlevel⟩ := hlines line mem_cons_self
    rw [foldl_cons]
    apply ih (h.pushLine hchildren hdepth hline hlevel) (content_pushLine depth line hchildren).2
    intro next hnext
    exact hlines next (mem_cons_of_mem _ hnext)

omit h hchildren hdepth

theorem Opened.close (h : Opened depth levelOf top below) :
    RootOf depth levelOf (close top below) := by
  induction below generalizing top with
  | nil => exact h
  | cons parent below ih => exact ih h.addChild

theorem rootOf_buildTree (hdepth : 1 ≤ depth)
    (hlines : ∀ line ∈ lines, levelOf line.2 = line.1 ∧ 1 ≤ line.1) :
    RootOf depth levelOf (buildTree depth lines) := by
  have hempty : RootOf depth levelOf (Node.mk 0 [] [] : Node α) :=
    ⟨rfl, by simp, List.Pairwise.nil, by simp⟩
  rw [buildTree]
  apply Opened.close
  apply Opened.foldl _ rfl hdepth hlines
  exact hempty

/-! ### Branches -/

inductive Branch : Node α → List α → Prop
  | leaf {level : Int} {texts : List α} : Branch (Node.mk level texts []) texts
  | child {level : Int} {texts rest : List α} {before after : List (Node α)} {child : Node α} :
      Branch child rest → Branch (Node.mk level texts (before ++ child :: after)) (texts ++ rest)

variable {rest : List α}

theorem Branch.of_mem {level : Int} {texts : List α} (hchild : child ∈ children)
    (h : Branch child rest) : Branch (Node.mk level texts children) (texts ++ rest) := by
  obtain ⟨before, after, rfl⟩ := append_of_mem hchild
  exact Branch.child h

theorem exists_branch (node : Node α) : ∃ rest, Branch node rest := by
  induction node using ofChildren with
  | h level texts children ih =>
    cases children with
    | nil => exact ⟨texts, Branch.leaf⟩
    | cons child children =>
      obtain ⟨rest, hrest⟩ := ih child mem_cons_self
      exact ⟨texts ++ rest, Branch.of_mem mem_cons_self hrest⟩

theorem exists_branch_mem (h : text ∈ node.flatten) :
    ∃ rest, Branch node rest ∧ text ∈ rest := by
  induction node using ofChildren with
  | h level texts children ih =>
    rw [flatten_eq, mem_append, mem_flatMap] at h
    rcases h with hown | ⟨child, hchild, hmem⟩
    · cases children with
      | nil => exact ⟨texts, Branch.leaf, hown⟩
      | cons first children =>
        obtain ⟨rest, hrest⟩ := exists_branch first
        exact ⟨texts ++ rest, Branch.of_mem mem_cons_self hrest, mem_append_left _ hown⟩
    · obtain ⟨rest, hrest, htext⟩ := ih child hchild hmem
      exact ⟨texts ++ rest, Branch.of_mem hchild hrest, mem_append_right _ htext⟩

theorem Branch.sublist (h : Branch node rest) : rest.Sublist node.flatten := by
  induction h with
  | leaf => simp [flatten_eq]
  | @child level texts rest before after child _ ih =>
    rw [flatten_eq, texts_mk, children_mk, flatMap_append, flatMap_cons]
    apply Sublist.append_left
    exact (ih.trans (sublist_append_left _ _)).trans (sublist_append_right _ _)

theorem pathTitles_section (h : Section depth levelOf node) (titles : List α) :
    pathTitles depth node.level titles node.texts = titles ++ node.texts := by
  cases h with
  | mk hlow hhigh => exact if_pos ⟨hlow, hhigh⟩

theorem ownChunks_section (h : Section depth levelOf node) (titles : List α) (leaf : Bool) :
    ownChunks depth node.level titles node.texts leaf = if leaf then [titles ++ node.texts] else [] := by
  have hpath := pathTitles_section h titles
  cases h with
  | @mk heading bodies children hlow hhigh =>
    rw [ownChunks, hpath, level_mk, if_neg (by omega), if_neg (by omega), nil_append]
    simp only [hlow, hhigh, and_true]

theorem dfs_eq (titles : List α) (node : Node α) : node.dfs depth titles =
    ownChunks depth node.level titles node.texts node.children.isEmpty ++
      node.children.flatMap (Node.dfs depth (pathTitles depth node.level titles node.texts)) := by
  cases node with
  | mk level texts children => rw [Node.dfs, dfsAll_eq, level_mk, texts_mk, children_mk]

theorem mem_dfs_section (h : Section depth levelOf node) (titles chunk : List α) :
    chunk ∈ node.dfs depth titles ↔ ∃ rest, Branch node rest ∧ chunk = titles ++ rest := by
  induction h generalizing titles with
  | @mk heading bodies children hlow hhigh hbodies hbelow hpairwise hsecs ih =>
    have hsection := Section.mk hlow hhigh hbodies hbelow hpairwise hsecs
    rw [dfs_eq, ownChunks_section hsection, pathTitles_section hsection, children_mk, texts_mk, mem_append,
      mem_flatMap]
    constructor
    · rintro (hown | ⟨child, hchild, hmem⟩)
      · cases children with
        | nil =>
          rw [isEmpty_nil, if_pos rfl, mem_singleton] at hown
          exact ⟨_, Branch.leaf, hown⟩
        | cons first children => cases hown
      · obtain ⟨rest, hrest, rfl⟩ := (ih child hchild _).mp hmem
        exact ⟨_, Branch.of_mem hchild hrest, append_assoc ..⟩
    · rintro ⟨rest, hrest, rfl⟩
      generalize hnode : Node.mk (levelOf heading) (heading :: bodies) children = node at hrest
      cases hrest with
      | leaf =>
        obtain ⟨-, rfl, rfl⟩ := Node.mk.injEq .. ▸ hnode
        exact .inl mem_cons_self
      | @child level texts rest before after child hrest =>
        obtain ⟨-, rfl, rfl⟩ := Node.mk.injEq .. ▸ hnode
        have hchild : child ∈ before ++ child :: after := by simp
        exact .inr ⟨child, hchild, (ih child hchild _).mpr ⟨rest, hrest, (append_assoc ..).symm⟩⟩

/-- The chunks of a tree are the lines before the first heading, where there are any, and the
    branches of the top sections. -/
theorem mem_chunks (h : RootOf depth levelOf root) (hdepth : 1 ≤ depth) (chunk : List α) :
    chunk ∈ root.chunks depth ↔ chunk = root.texts ∧ root.texts ≠ [] ∨
      ∃ child ∈ root.children, Branch child chunk := by
  have hpath : pathTitles depth root.level [] root.texts = [] := by
    rw [pathTitles, h.level, if_neg (by omega)]
  rw [chunks, dfs_eq, hpath, ownChunks, h.level, mem_append, mem_flatMap]
  apply or_congr
  · have hdeep : ¬ depth < 0 := by omega
    by_cases htexts : root.texts = []
    · simp [htexts]
    · simp [htexts, hdeep]
  · apply exists_congr
    intro child
    apply and_congr_right
    intro hchild
    rw [mem_dfs_section (h.sections child hchild)]
    simp

/-! ### Headings of a branch -/

/-- `i` and `j` are headings of the document, and `i` is the last one before `j` that is above it. -/
def EnclosesIn (depth : Int) (levelOf : α → Int) (document : List α) (i j : α) : Prop :=
  ∃ before between after, document = before ++ i :: between ++ j :: after ∧ levelOf i < levelOf j ∧
    ∀ k ∈ between, levelOf k ≤ depth → levelOf j ≤ levelOf k

def headings (depth : Int) (levelOf : α → Int) (chunk : List α) : List α :=
  chunk.filter (levelOf · ≤ depth)

theorem headings_bodies {bodies : List α} (h : ∀ body ∈ bodies, depth < levelOf body) :
    headings depth levelOf bodies = [] := by
  rw [headings, filter_eq_nil_iff]
  intro body hbody
  have hdeep := h body hbody
  simp only [decide_eq_true_eq]
  omega

theorem Section.le_of_mem (h : Section depth levelOf node) (htext : text ∈ node.flatten)
    (hhead : levelOf text ≤ depth) : node.level ≤ levelOf text := by
  induction h with
  | @mk heading bodies children hlow hhigh hbodies hbelow hpairwise hsecs ih =>
    rw [flatten_eq, mem_append, mem_flatMap] at htext
    rcases htext with hown | ⟨child, hchild, hmem⟩
    · rcases mem_cons.mp hown with rfl | hbody
      · exact le_rfl
      · have hdeep := hbodies text hbody
        omega
    · have hle := ih child hchild hmem
      have hlt := hbelow child hchild
      rw [level_mk]
      omega

theorem Branch.headings_chain (h : Branch node rest) (hsection : Section depth levelOf node)
    {document : List α} (before after : List α)
    (hdoc : document = before ++ node.flatten ++ after) :
    ∃ first tail own, headings depth levelOf rest = first :: tail ∧ levelOf first = node.level ∧
      node.flatten = first :: own ∧ (first :: tail).IsChain (EnclosesIn depth levelOf document) := by
  induction h generalizing before after with
  | @leaf level texts =>
    generalize hnode : Node.mk level texts [] = node at hsection hdoc ⊢
    cases hsection with
    | @mk heading bodies children hlow hhigh hbodies =>
      obtain ⟨-, rfl, rfl⟩ := Node.mk.injEq .. ▸ hnode
      refine ⟨heading, [], bodies, ?_, rfl, ?_, List.IsChain.singleton _⟩
      · rw [headings, filter_cons_of_pos (by simpa using hhigh)]
        exact congrArg _ (headings_bodies hbodies)
      · simp [flatten_eq]
  | @child level texts rest earlier later child _ ih =>
    generalize hnode : Node.mk level texts (earlier ++ child :: later) = node at hsection hdoc ⊢
    cases hsection with
    | @mk heading bodies children hlow hhigh hbodies hbelow hpairwise hsecs =>
      obtain ⟨-, rfl, rfl⟩ := Node.mk.injEq .. ▸ hnode
      have hflatten : (Node.mk (levelOf heading) (heading :: bodies) (earlier ++ child :: later)).flatten =
          heading :: (bodies ++ earlier.flatMap Node.flatten) ++ child.flatten ++ later.flatMap Node.flatten := by
        simp [flatten_eq]
      obtain ⟨first, tail, own, hrest, hfirst, hown, hchain⟩ := ih (hsecs child (by simp))
        (before ++ heading :: (bodies ++ earlier.flatMap Node.flatten)) (later.flatMap Node.flatten ++ after)
        (by rw [hdoc, hflatten]; simp)
      refine ⟨heading, first :: tail, bodies ++ earlier.flatMap Node.flatten ++ child.flatten ++
        later.flatMap Node.flatten, ?_, rfl, ?_, ?_⟩
      · rw [headings, filter_append, filter_cons_of_pos (by simpa using hhigh)]
        rw [← headings, ← headings, headings_bodies hbodies, hrest]
        rfl
      · rw [hflatten]
        simp
      · apply List.IsChain.cons_cons _ hchain
        refine ⟨before, bodies ++ earlier.flatMap Node.flatten, own ++ later.flatMap Node.flatten ++ after, ?_, ?_, ?_⟩
        · rw [hdoc, hflatten, hown]
          simp
        · rw [hfirst]
          exact hbelow child (by simp)
        · -- only lines and earlier sections lie between
          intro k hk hhead
          rcases mem_append.mp hk with hbody | hearlier
          · have hdeep := hbodies k hbody
            omega
          · obtain ⟨sibling, hsibling, hmem⟩ := mem_flatMap.mp hearlier
            have hle := (hsecs sibling (by simp [hsibling])).le_of_mem hmem hhead
            have hlevel := (pairwise_append.mp hpairwise).2.2 sibling hsibling child mem_cons_self
            rw [hfirst]
            omega

/-- A chunk of a top section runs in the order of the document. -/
theorem RootOf.branch (h : RootOf depth levelOf root) (hchild : child ∈ root.children)
    (hbranch : Branch child rest) : rest.Sublist root.flatten ∧
      (headings depth levelOf rest).IsChain (EnclosesIn depth levelOf root.flatten) := by
  obtain ⟨earlier, later, hsecs⟩ := append_of_mem hchild
  have hdoc : root.flatten =
      (root.texts ++ earlier.flatMap Node.flatten) ++ child.flatten ++ later.flatMap Node.flatten := by
    rw [flatten_eq, hsecs]
    simp
  refine ⟨?_, ?_⟩
  · rw [hdoc, append_assoc]
    exact (hbranch.sublist.trans (sublist_append_left _ _)).trans (sublist_append_right _ _)
  · obtain ⟨first, tail, -, hheadings, -, -, hchain⟩ :=
      hbranch.headings_chain (h.sections child hchild) _ _ hdoc
    rw [hheadings]
    exact hchain

end

/-! ### Chunks of a document -/

/-- The heading `i` is the nearest that encloses the heading `j`. -/
def Encloses (depth : Int) (lines : List (Int × String)) (i j : Fin lines.length) : Prop :=
  i < j ∧ lines[i].1 < lines[j].1 ∧ ∀ k, i < k → k < j → lines[k].1 ≤ depth → lines[j].1 ≤ lines[k].1

variable {depth : Int} {lines : List (Int × String)}

theorem encloses_of_enclosesIn {i j : Fin lines.length}
    (h : EnclosesIn depth (fun i => lines[i].1) (finRange lines.length) i j) :
    Encloses depth lines i j := by
  obtain ⟨before, between, after, hlines, hlevel, hnearest⟩ := h
  have hsorted : (before ++ i :: between ++ j :: after).Pairwise (· < ·) := by
    rw [← hlines]
    exact pairwise_lt_finRange _
  obtain ⟨hleft, hright, hcross⟩ := pairwise_append.mp hsorted
  refine ⟨hcross i (by simp) j (by simp), hlevel, ?_⟩
  intro k hik hkj
  apply hnearest k
  have hk : k ∈ before ++ i :: between ++ j :: after := by
    rw [← hlines]
    exact mem_finRange k
  -- a line after `i` and before `j` is none of the others
  simp only [mem_append, mem_cons] at hk
  rcases hk with (hbefore | rfl | hbetween) | rfl | hafter
  · exact absurd ((pairwise_append.mp hleft).2.2 k hbefore i mem_cons_self) (Fin.lt_asymm hik)
  · exact absurd hik (Fin.lt_irrefl _)
  · exact hbetween
  · exact absurd hkj (Fin.lt_irrefl _)
  · exact absurd ((pairwise_cons.mp hright).1 k hafter) (Fin.lt_asymm hkj)

def numbered (lines : List (Int × String)) : List (Int × Fin lines.length) :=
  (finRange lines.length).map fun i => (lines[i].1, i)

theorem numbered_texts (lines : List (Int × String)) :
    (numbered lines).map (fun line => (line.1, lines[line.2].2)) = lines := by
  rw [numbered, map_map]
  apply ext_getElem
  · simp
  · intro i hi hi'
    simp

theorem rootOf_numbered (hdepth : 1 ≤ depth) (hlevels : ∀ line ∈ lines, 1 ≤ line.1) :
    RootOf depth (fun i : Fin lines.length => lines[i].1) (buildTree depth (numbered lines)) := by
  apply rootOf_buildTree hdepth
  intro line hline
  obtain ⟨i, -, rfl⟩ := mem_map.mp hline
  exact ⟨rfl, hlevels lines[i] (getElem_mem _)⟩

theorem flatten_numbered (depth : Int) (lines : List (Int × String)) :
    (buildTree depth (numbered lines)).flatten = finRange lines.length := by
  rw [flatten_buildTree, numbered, map_map]
  exact map_id _

theorem getTree_numbered (depth : Int) (lines : List (Int × String)) :
    (buildTree depth lines).getTree depth =
      ((buildTree depth (numbered lines)).chunks depth).map
        (fun chunk => "\n".intercalate (chunk.map fun i => lines[i].2)) := by
  have htexts := buildTree_map (fun i => lines[i].2) depth (numbered lines)
  rw [numbered_texts] at htexts
  rw [htexts, getTree, chunks_map, map_map]
  rfl

theorem exists_chunk_mem (hdepth : 1 ≤ depth) (hlevels : ∀ line ∈ lines, 1 ≤ line.1)
    (i : Fin lines.length) :
    ∃ chunk ∈ (buildTree depth (numbered lines)).chunks depth, i ∈ chunk := by
  have hroot := rootOf_numbered hdepth hlevels
  have hi : i ∈ finRange lines.length := mem_finRange i
  rw [← flatten_numbered depth, flatten_eq, mem_append, mem_flatMap] at hi
  rcases hi with hown | ⟨child, hchild, hmem⟩
  · exact ⟨_, (mem_chunks hroot hdepth _).mpr (.inl ⟨rfl, ne_nil_of_mem hown⟩), hown⟩
  · obtain ⟨rest, hrest, hin⟩ := exists_branch_mem hmem
    exact ⟨rest, (mem_chunks hroot hdepth _).mpr (.inr ⟨child, hchild, hrest⟩), hin⟩

/-- Every line is in a chunk, each chunk lists its lines in document order, and each of its
    headings is the nearest that encloses the next. -/
theorem get_tree_chunks (depth : Int) (lines : List (Int × String)) (hdepth : 1 ≤ depth)
    (hlevels : ∀ line ∈ lines, 1 ≤ line.1) :
    ∃ chunks : List (List (Fin lines.length)),
      (buildTree depth lines).getTree depth =
        chunks.map (fun chunk => "\n".intercalate (chunk.map fun i => lines[i].2)) ∧
      (∀ i, ∃ chunk ∈ chunks, i ∈ chunk) ∧
      ∀ chunk ∈ chunks, chunk.Pairwise (· < ·) ∧
        (chunk.filter fun i => lines[i].1 ≤ depth).IsChain (Encloses depth lines) := by
  have hroot := rootOf_numbered hdepth hlevels
  refine ⟨(buildTree depth (numbered lines)).chunks depth, getTree_numbered depth lines,
    exists_chunk_mem hdepth hlevels, ?_⟩
  intro chunk hchunk
  rcases (mem_chunks hroot hdepth chunk).mp hchunk with ⟨rfl, -⟩ | ⟨child, hchild, hbranch⟩
  · have hsorted := pairwise_lt_finRange lines.length
    rw [← flatten_numbered depth lines, flatten_eq] at hsorted
    refine ⟨(pairwise_append.mp hsorted).1, ?_⟩
    have hnone := headings_bodies hroot.bodies
    rw [headings] at hnone
    rw [hnone]
    exact List.IsChain.nil
  · obtain ⟨hbelow, hchain⟩ := hroot.branch hchild hbranch
    rw [flatten_numbered] at hbelow hchain
    refine ⟨(pairwise_lt_finRange lines.length).sublist hbelow, ?_⟩
    rw [headings] at hchain
    apply hchain.imp
    intro i j
    exact encloses_of_enclosesIn

def sampleLines : List (Int × String) :=
  [(4, "preface"), (1, "A"), (4, "a"), (2, "B"), (4, "b"), (3, "C"), (2, "D"), (1, "E")]

theorem get_tree_chunks_sample : ∃ chunks : List (List (Fin sampleLines.length)),
    (buildTree 2 sampleLines).getTree 2 =
      chunks.map (fun chunk => "\n".intercalate (chunk.map fun i => sampleLines[i].2)) ∧
    (∀ i, ∃ chunk ∈ chunks, i ∈ chunk) ∧
    ∀ chunk ∈ chunks, chunk.Pairwise (· < ·) ∧
      (chunk.filter fun i => sampleLines[i].1 ≤ 2).IsChain (Encloses 2 sampleLines) :=
  get_tree_chunks 2 sampleLines (by decide) (by decide)

example : (buildTree 2 sampleLines).chunks 2 =
    [["preface"], ["A", "a", "B", "b", "C"], ["A", "a", "D"], ["E"]] := by decide

end MultiRag.TreeMerge
