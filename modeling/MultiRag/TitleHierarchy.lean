/-
  **`HierarchyTitleChunker`: records grouped along a tree of headings.**

  Between media records the text records form a run; its tree is the one of `TreeNodes`, with the
  position of a record as its text. `Path` is what `_dfs` emits: with `include_heading_content` a
  heading goes down the tree without its bodies.
-/
import Mathlib.Algebra.Ring.Int.Defs
import Mathlib.Data.List.Dedup
import Mathlib.Data.List.Sort
import MultiRag.TreeChunks

namespace MultiRag.TitleChunker

open TreeMerge Node List

universe u

/-! ### `_ChunkNode` -/

variable {α : Type u}

/-- What `_dfs` emits at a node, and the titles it hands to the children. -/
def emit (includeHeadingContent : Bool) (depth level : Int) (titles titleIndexes bodyIndexes : List α)
    (leaf : Bool) : List (List α) × List α :=
  let root := if level = 0 ∧ bodyIndexes ≠ [] then [titles ++ bodyIndexes] else []
  if includeHeadingContent then
    let pathTitles := if 1 ≤ level ∧ level ≤ depth then titles ++ titleIndexes else titles
    (root ++ (if bodyIndexes ≠ [] ∧ 1 ≤ level ∧ level ≤ depth then [pathTitles ++ bodyIndexes]
      else if leaf ∧ 1 ≤ level ∧ level ≤ depth then [pathTitles] else []), pathTitles)
  else
    let pathTitles := if 1 ≤ level ∧ level ≤ depth then titles ++ titleIndexes ++ bodyIndexes else titles
    (root ++ (if leaf ∧ 1 ≤ level ∧ level ≤ depth then [pathTitles] else []), pathTitles)

mutual

/-- The texts of a node are its title index, which the root has not, and its body indexes. -/
def dfs (includeHeadingContent : Bool) (depth : Int) (titles : List α) : Node α → List (List α)
  | mk level texts children =>
    let emitted := emit includeHeadingContent depth level titles (texts.take 1) (texts.drop 1) children.isEmpty
    emitted.1 ++ dfsAll includeHeadingContent depth emitted.2 children

def dfsAll (includeHeadingContent : Bool) (depth : Int) (titles : List α) :
    List (Node α) → List (List α)
  | [] => []
  | child :: children =>
    dfs includeHeadingContent depth titles child ++ dfsAll includeHeadingContent depth titles children

end

def getPaths (includeHeadingContent : Bool) (depth : Int) (root : Node α) : List (List α) :=
  let emitted := emit includeHeadingContent depth root.level [] [] root.texts root.children.isEmpty
  emitted.1 ++ dfsAll includeHeadingContent depth emitted.2 root.children

theorem dfsAll_eq (includeHeadingContent : Bool) (depth : Int) (titles : List α) (children : List (Node α)) :
    dfsAll includeHeadingContent depth titles children =
      children.flatMap (dfs includeHeadingContent depth titles) := by
  induction children with
  | nil => rfl
  | cons child children ih => rw [dfsAll, ih, flatMap_cons]

/-- What `_dfs` emits below a section, behind the titles of its ancestors. -/
inductive Path (includeHeadingContent : Bool) : Node α → List α → Prop
  | own {level : Int} {heading : α} {bodies : List α} {children : List (Node α)} :
      children = [] ∨ includeHeadingContent = true ∧ bodies ≠ [] →
      Path includeHeadingContent (mk level (heading :: bodies) children) (heading :: bodies)
  | child {level : Int} {heading : α} {bodies rest : List α} {children : List (Node α)} {child : Node α} :
      child ∈ children → Path includeHeadingContent child rest →
      Path includeHeadingContent (mk level (heading :: bodies) children)
        (heading :: (if includeHeadingContent then [] else bodies) ++ rest)

variable {depth : Int} {levelOf : α → Int} {node root : Node α} {rest : List α} {inc : Bool} {bodies : List α}

theorem dfs_section {heading : α} {children : List (Node α)}
    (hlow : 1 ≤ levelOf heading) (hhigh : levelOf heading ≤ depth) (titles : List α) :
    dfs inc depth titles (mk (levelOf heading) (heading :: bodies) children) =
      (if children = [] ∨ inc = true ∧ bodies ≠ [] then [titles ++ heading :: bodies] else []) ++
        children.flatMap (dfs inc depth (titles ++ heading :: if inc then [] else bodies)) := by
  have hne : levelOf heading ≠ 0 := by omega
  rw [dfs, dfsAll_eq]
  cases inc with
  | false => simp [emit, hlow, hhigh, hne]
  | true =>
    by_cases hbodies : bodies = []
    · simp [emit, hlow, hhigh, hne, hbodies]
    · simp [emit, hlow, hhigh, hne, hbodies]

theorem mem_dfs (h : Section depth levelOf node) (titles path : List α) :
    path ∈ dfs inc depth titles node ↔ ∃ rest, Path inc node rest ∧ path = titles ++ rest := by
  induction h generalizing titles with
  | @mk heading bodies children hlow hhigh hbodies hbelow hpairwise hsecs ih =>
    rw [dfs_section hlow hhigh, mem_append, mem_flatMap]
    constructor
    · rintro (hown | ⟨child, hchild, hmem⟩)
      · split at hown
        · next hemits => exact ⟨_, Path.own hemits, mem_singleton.mp hown⟩
        · cases hown
      · obtain ⟨rest, hrest, rfl⟩ := (ih child hchild _).mp hmem
        exact ⟨_, Path.child hchild hrest, by simp⟩
    · rintro ⟨rest, hrest, rfl⟩
      generalize hnode : Node.mk (levelOf heading) (heading :: bodies) children = node at hrest
      cases hrest with
      | own hemits =>
        obtain ⟨-, htexts, rfl⟩ := Node.mk.injEq .. ▸ hnode
        obtain ⟨rfl, rfl⟩ := List.cons.inj htexts
        exact .inl (by rw [if_pos hemits]; exact mem_cons_self)
      | child hchild hrest =>
        obtain ⟨-, htexts, rfl⟩ := Node.mk.injEq .. ▸ hnode
        obtain ⟨rfl, rfl⟩ := List.cons.inj htexts
        exact .inr ⟨_, hchild, (ih _ hchild _).mpr ⟨_, hrest, by simp⟩⟩

theorem getPaths_eq (h : RootOf depth levelOf root) : getPaths inc depth root =
    (if root.texts ≠ [] then [root.texts] else []) ++ root.children.flatMap (dfs inc depth []) := by
  have hroot : emit inc depth root.level [] [] root.texts root.children.isEmpty =
      (if root.texts ≠ [] then [root.texts] else [], []) := by
    cases inc <;> simp [emit, h.level]
  rw [getPaths, hroot, dfsAll_eq]

theorem mem_getPaths (h : RootOf depth levelOf root) (path : List α) :
    path ∈ getPaths inc depth root ↔ path = root.texts ∧ root.texts ≠ [] ∨
      ∃ child ∈ root.children, Path inc child path := by
  rw [getPaths_eq h, mem_append, mem_flatMap]
  apply or_congr
  · split
    · next hne => simp [hne]
    · next hempty => simp [not_not.mp hempty]
  · apply exists_congr
    intro child
    apply and_congr_right
    intro hchild
    rw [mem_dfs (h.sections child hchild)]
    simp

/-! ### A path and its branch -/

theorem headings_own {heading : α} (hhigh : levelOf heading ≤ depth)
    (hbodies : ∀ body ∈ bodies, depth < levelOf body) : headings depth levelOf (heading :: bodies) = [heading] := by
  have hnone := headings_bodies hbodies
  rw [headings] at hnone ⊢
  rw [filter_cons_of_pos (by simpa using hhigh), hnone]

theorem Path.exists_branch (h : Path inc node rest) (hsection : Section depth levelOf node) :
    ∃ branch, Branch node branch ∧ rest.Sublist branch ∧
      headings depth levelOf rest <+: headings depth levelOf branch := by
  induction h with
  | @own level heading bodies children hemits =>
    obtain ⟨branch, hbranch⟩ := TreeMerge.exists_branch (mk level (heading :: bodies) children)
    refine ⟨branch, hbranch, ?_⟩
    cases hbranch with
    | leaf => exact ⟨Sublist.refl _, prefix_rfl⟩
    | child hchild =>
      refine ⟨sublist_append_left _ _, ?_⟩
      rw [headings, headings, filter_append]
      exact prefix_append _ _
  | @child level heading bodies rest children child hchild _ ih =>
    generalize hnode : Node.mk level (heading :: bodies) children = node at hsection ⊢
    cases hsection with
    | @mk heading' bodies' children' hlow hhigh hbodies hbelow hpairwise hsecs =>
      obtain ⟨rfl, htexts, rfl⟩ := Node.mk.injEq .. ▸ hnode
      obtain ⟨rfl, rfl⟩ := List.cons.inj htexts
      obtain ⟨branch, hbranch, hsub, hprefix⟩ := ih (hsecs child hchild)
      refine ⟨_, Branch.of_mem hchild hbranch, ?_, ?_⟩
      · apply Sublist.append _ hsub
        apply Sublist.cons_cons
        cases inc <;> simp
      · have hown := headings_own hhigh hbodies
        have hpart : headings depth levelOf (heading :: if inc then [] else bodies) = [heading] := by
          apply headings_own hhigh
          intro body hbody
          apply hbodies
          cases inc with
          | true => cases hbody
          | false => exact hbody
        rw [headings] at hown hpart
        rw [headings, headings, filter_append, filter_append, hown, hpart,
          prefix_append_right_inj]
        exact hprefix

theorem exists_path_mem (hsection : Section depth levelOf node) {text : α} (h : text ∈ node.flatten) :
    ∃ rest, Path inc node rest ∧ text ∈ rest := by
  induction hsection generalizing text with
  | @mk heading bodies children hlow hhigh hbodies hbelow hpairwise hsecs ih =>
    have hbelow : ∀ child ∈ children, ∀ text ∈ child.flatten, ∃ rest,
        Path inc (mk (levelOf heading) (heading :: bodies) children) rest ∧ text ∈ rest ∧ heading ∈ rest ∧
          (inc = false → bodies ⊆ rest) := by
      intro child hchild text htext
      obtain ⟨rest, hrest, hmem⟩ := ih child hchild htext
      refine ⟨_, Path.child hchild hrest, mem_append_right _ hmem, by simp, ?_⟩
      rintro rfl
      intro body hbody
      simp [hbody]
    rw [flatten_eq, mem_append, mem_flatMap] at h
    rcases h with hown | ⟨child, hchild, hmem⟩
    · by_cases hemits : children = [] ∨ inc = true ∧ bodies ≠ []
      · exact ⟨_, Path.own hemits, hown⟩
      · obtain ⟨hne, hdown⟩ := not_or.mp hemits
        obtain ⟨child, hchild⟩ := exists_mem_of_ne_nil children hne
        obtain ⟨first, hfirst⟩ : ∃ first, first ∈ child.flatten := by
          cases hsecs child hchild with
          | @mk first =>
            refine ⟨first, ?_⟩
            rw [flatten_eq]
            exact mem_append_left _ mem_cons_self
        obtain ⟨rest, hrest, -, hhead, hall⟩ := hbelow child hchild first hfirst
        refine ⟨rest, hrest, ?_⟩
        rcases mem_cons.mp hown with rfl | hbody
        · exact hhead
        · refine hall ?_ hbody
          rw [← Bool.not_eq_true]
          intro hinc
          exact hdown ⟨hinc, ne_nil_of_mem hbody⟩
    · obtain ⟨rest, hrest, htext, -⟩ := hbelow child hchild text hmem
      exact ⟨rest, hrest, htext⟩

/-! ### Each body once -/

/-- With the heading contents, the bodies of the paths are those of the tree, in order. -/
theorem bodies_dfs (h : Section depth levelOf node) (titles : List α)
    (htitles : ∀ title ∈ titles, levelOf title ≤ depth) :
    (dfs true depth titles node).flatMap (List.filter (depth < levelOf ·)) =
      node.flatten.filter (depth < levelOf ·) := by
  induction h generalizing titles with
  | @mk heading bodies children hlow hhigh hbodies hbelow hpairwise hsecs ih =>
    have hnone : titles.filter (depth < levelOf ·) = [] := by simpa [filter_eq_nil_iff] using htitles
    have hall : bodies.filter (depth < levelOf ·) = bodies := by simpa [List.filter_eq_self] using hbodies
    have hown : (heading :: bodies).filter (depth < levelOf ·) = bodies := by
      rw [filter_cons_of_neg (by simpa using hhigh), hall]
    rw [dfs_section hlow hhigh, flatten_eq, flatMap_append, filter_append, flatMap_assoc,
      filter_flatMap, texts_mk, hown]
    congr 1
    · split
      · rw [flatMap_singleton, filter_append, hnone, hown, nil_append]
      · next hempty =>
        simp only [true_and, not_or, not_not] at hempty
        exact hempty.2.symm
    · apply flatMap_congr
      intro child hchild
      apply ih child hchild
      intro title htitle
      rcases mem_append.mp htitle with hold | hnew
      · exact htitles title hold
      · rwa [mem_singleton.mp hnew]

theorem bodies_getPaths (h : RootOf depth levelOf root) :
    (getPaths true depth root).flatMap (List.filter (depth < levelOf ·)) =
      root.flatten.filter (depth < levelOf ·) := by
  rw [getPaths_eq h, flatten_eq, flatMap_append, filter_append, flatMap_assoc, filter_flatMap]
  congr 1
  · split
    · rw [flatMap_singleton]
    · next hempty => rw [not_not.mp hempty]; rfl
  · apply flatMap_congr
    intro child hchild
    exact bodies_dfs (h.sections child hchild) [] (by simp)

/-! ### `build_chunks` -/

/-- `sys.maxsize - 1` -/
def bodyLevel : Int := 2 ^ 63 - 2

structure LineRecord where
  text : String
  docTypeKwd : String
  deriving DecidableEq

/-- The sorted set of the levels of titles. -/
def titleLevels (levels : List Int) : List Int :=
  ((levels.filter fun level => 0 < level ∧ level < bodyLevel).dedup).insertionSort (· ≤ ·)

def resolveTargetLevel (levels : List Int) (hierarchy : Int) : Option Int :=
  let titles := titleLevels levels
  titles[(min (max hierarchy 1) titles.length - 1).toNat]?

section

variable (includeHeadingContent : Bool) (hierarchy : Int)

def runTree (run : List (Int × LineRecord)) (target : Int) : Node (Fin run.length) :=
  buildTree target ((finRange run.length).map fun i => (run[i].1, i))

/-- The record groups of a run of text records, as positions in the run. -/
def runPaths (run : List (Int × LineRecord)) : List (List (Fin run.length)) :=
  match resolveTargetLevel (run.map Prod.fst) hierarchy with
  | none => [finRange run.length]
  | some target => (getPaths includeHeadingContent target (runTree run target)).filter (· ≠ [])

def flushTextRecords (run : List (Int × LineRecord)) : List (List LineRecord) :=
  if run = [] then [] else
    (runPaths includeHeadingContent hierarchy run).map fun path => path.map fun i => run[i].2

/-- `build_chunks` with the text records that are not flushed yet -/
def recordGroups (run : List (Int × LineRecord)) : List (Int × LineRecord) → List (List LineRecord)
  | [] => flushTextRecords includeHeadingContent hierarchy run
  | line :: lines =>
    if line.2.docTypeKwd = "text" then recordGroups (run ++ [line]) lines
    else flushTextRecords includeHeadingContent hierarchy run ++ [line.2] :: recordGroups [] lines

/-- The groups of a run: `depth` is its target level, or 0 where no record is a title. -/
structure Sound (run : List (Int × LineRecord)) (depth : Int) (paths : List (List (Fin run.length))) : Prop where
  covered : ∀ i, ∃ path ∈ paths, i ∈ path
  ordered : ∀ path ∈ paths, path.Pairwise (· < ·)
  enclosing : ∀ path ∈ paths, (headings depth (run[·].1) path).IsChain
    (EnclosesIn depth (run[·].1) (finRange run.length))
  bodies : includeHeadingContent →
    paths.flatten.filter (depth < run[·].1) = (finRange run.length).filter (depth < run[·].1)

/-- A run of text records has its groups, every media record a group of its own between them. -/
inductive Covered : List (Int × LineRecord) → List (List LineRecord) → Prop
  | run {run : List (Int × LineRecord)} {paths : List (List (Fin run.length))} :
      (∀ line ∈ run, line.2.docTypeKwd = "text") →
      Sound includeHeadingContent run ((resolveTargetLevel (run.map Prod.fst) hierarchy).getD 0) paths →
      Covered run (paths.map fun path => path.map fun i => run[i].2)
  | media {before after : List (Int × LineRecord)} {earlier later : List (List LineRecord)} {line : Int × LineRecord} :
      Covered before earlier → line.2.docTypeKwd ≠ "text" → Covered after later →
      Covered (before ++ line :: after) (earlier ++ [line.2] :: later)

end

variable {hierarchy : Int} {run lines : List (Int × LineRecord)} {target : Int}

theorem one_le_target {levels : List Int} (h : resolveTargetLevel levels hierarchy = some target) :
    1 ≤ target := by
  have hmem : target ∈ titleLevels levels := mem_of_getElem? h
  rw [titleLevels, mem_insertionSort, mem_dedup] at hmem
  have htitle := of_mem_filter hmem
  simp only [Bool.decide_and, Bool.and_eq_true, decide_eq_true_eq] at htitle
  exact htitle.1

theorem sound_plain (h : ∀ line ∈ run, 1 ≤ line.1) : Sound inc run 0 [finRange run.length] := by
  have hbodies : ∀ i ∈ finRange run.length, 0 < run[i].1 :=
    fun i _ => h run[i] (getElem_mem _)
  refine ⟨fun i => ⟨_, mem_cons_self, mem_finRange i⟩, ?_, ?_, fun _ => by rw [flatten_singleton]⟩
  · intro path hpath
    rw [mem_singleton.mp hpath]
    exact pairwise_lt_finRange _
  · intro path hpath
    rw [mem_singleton.mp hpath, headings_bodies hbodies]
    exact List.IsChain.nil

theorem flatten_runTree (target : Int) : (runTree run target).flatten = finRange run.length := by
  rw [runTree, flatten_buildTree, map_map]
  exact map_id _

theorem rootOf_runTree (htarget : 1 ≤ target) (h : ∀ line ∈ run, 1 ≤ line.1) :
    RootOf target (run[·].1) (runTree run target) := by
  apply rootOf_buildTree htarget
  intro line hline
  obtain ⟨i, -, rfl⟩ := mem_map.mp hline
  exact ⟨rfl, h run[i] (getElem_mem _)⟩

theorem sound_tree (htarget : 1 ≤ target) (h : ∀ line ∈ run, 1 ≤ line.1) :
    Sound inc run target ((getPaths inc target (runTree run target)).filter (· ≠ [])) := by
  have hroot := rootOf_runTree htarget h
  have hflatten := @flatten_runTree run target
  generalize runTree run target = root at hroot hflatten ⊢
  have hpath : ∀ {path}, path ∈ getPaths inc target root → path.Sublist (finRange run.length) ∧
      (headings target (run[·].1) path).IsChain (EnclosesIn target (run[·].1) (finRange run.length)) := by
    intro path hpath
    rw [← hflatten]
    rcases (mem_getPaths hroot path).mp hpath with ⟨rfl, -⟩ | ⟨child, hchild, hpath⟩
    · rw [headings_bodies hroot.bodies, flatten_eq]
      exact ⟨sublist_append_left _ _, List.IsChain.nil⟩
    · obtain ⟨branch, hbranch, hsub, hfirst⟩ := hpath.exists_branch (hroot.sections child hchild)
      obtain ⟨hbelow, hchain⟩ := hroot.branch hchild hbranch
      exact ⟨hsub.trans hbelow, hchain.prefix hfirst⟩
  refine ⟨?_, ?_, ?_, ?_⟩
  · intro i
    have hi : i ∈ root.flatten := hflatten ▸ mem_finRange i
    rw [flatten_eq, mem_append, mem_flatMap] at hi
    obtain ⟨path, hmem, hin⟩ : ∃ path ∈ getPaths inc target root, i ∈ path := by
      rcases hi with hown | ⟨child, hchild, hmem⟩
      · exact ⟨_, (mem_getPaths hroot _).mpr (.inl ⟨rfl, ne_nil_of_mem hown⟩), hown⟩
      · obtain ⟨rest, hrest, hin⟩ := exists_path_mem (hroot.sections child hchild) hmem
        exact ⟨rest, (mem_getPaths hroot _).mpr (.inr ⟨child, hchild, hrest⟩), hin⟩
    exact ⟨path, List.mem_filter.mpr ⟨hmem, decide_eq_true (ne_nil_of_mem hin)⟩, hin⟩
  · intro path hmem
    exact (pairwise_lt_finRange _).sublist (hpath (mem_of_mem_filter hmem)).1
  · intro path hmem
    exact (hpath (mem_of_mem_filter hmem)).2
  · rintro rfl
    rw [flatten_filter_ne_nil, filter_flatten, ← flatMap_def, bodies_getPaths hroot, hflatten]

theorem sound_runPaths (h : ∀ line ∈ run, 1 ≤ line.1) :
    Sound inc run ((resolveTargetLevel (run.map Prod.fst) hierarchy).getD 0) (runPaths inc hierarchy run) := by
  rw [runPaths]
  split
  · next hnone => rw [hnone]; exact sound_plain h
  · next target htarget => rw [htarget]; exact sound_tree (one_le_target htarget) h

theorem covered_flush (htext : ∀ line ∈ run, line.2.docTypeKwd = "text") (h : ∀ line ∈ run, 1 ≤ line.1) :
    Covered inc hierarchy run (flushTextRecords inc hierarchy run) := by
  rw [flushTextRecords]
  split
  · next hempty =>
    subst hempty
    exact @Covered.run _ _ _ [] htext ⟨nofun, nofun, nofun, fun _ => rfl⟩
  · exact Covered.run htext (sound_runPaths h)

theorem recordGroups_append (hrun : ∀ line ∈ run, line.2.docTypeKwd = "text")
    (h : ∀ line ∈ run ++ lines, 1 ≤ line.1) :
    Covered inc hierarchy (run ++ lines) (recordGroups inc hierarchy run lines) := by
  induction lines generalizing run with
  | nil =>
    rw [append_nil] at h ⊢
    exact covered_flush hrun h
  | cons line lines ih =>
    rw [recordGroups]
    split
    · next htext =>
      rw [append_cons] at h ⊢
      apply ih _ h
      intro next hnext
      rcases mem_append.mp hnext with hold | hnew
      · exact hrun next hold
      · rwa [mem_singleton.mp hnew]
    · next hmedia =>
      apply Covered.media (covered_flush hrun _) hmedia (@ih [] nofun _)
      · exact fun next hnext => h next (mem_append_left _ hnext)
      · exact fun next hnext => h next (mem_append_right _ (mem_cons_of_mem _ hnext))

def nested : List (Int × LineRecord) :=
  [(1, ⟨"A", "text"⟩), (bodyLevel, ⟨"a", "text"⟩), (2, ⟨"B", "text"⟩), (bodyLevel, ⟨"t", "table"⟩), (1, ⟨"C", "text"⟩)]

end MultiRag.TitleChunker
