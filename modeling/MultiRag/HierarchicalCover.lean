/-
  **Which sections `hierarchical_merge` returns.**

  Packing chains into chunks neither drops nor adds a section (`packAll_flatten`), so a
  section is returned where a chain has it: it has one of the first levels, or it is a
  heading on the chain of such a section.
-/
import MultiRag.HierarchicalChains

namespace MultiRag.HierarchicalMerge

open Bullets Descents List

/-! ### Packing -/

theorem packAll_flatten {α : Type} (tokens : α → Nat) (cks : List (List α)) :
    (packAll tokens cks).flatten = cks.flatten := by
  have hfold : ∀ packing : Packing α,
      ((cks.foldl (pack tokens) packing).closed ++ [(cks.foldl (pack tokens) packing).last]).flatten =
        (packing.closed ++ [packing.last]).flatten ++ cks.flatten := by
    induction cks with
    | nil => simp
    | cons ck cks ih =>
      intro packing
      have hpack : ((pack tokens packing ck).closed ++ [(pack tokens packing ck).last]).flatten =
          (packing.closed ++ [packing.last]).flatten ++ ck := by
        rcases ck with - | ⟨x, - | ⟨y, rest⟩⟩
        · simp [pack]
        · rw [pack]
          split
          · simp
          · simp
        · simp [pack]
      rw [foldl_cons, ih, hpack, flatten_cons, append_assoc]
  exact hfold ⟨[], [], 0⟩

theorem packAll_map {α β : Type} (f : α → β) (tokens : β → Nat) (cks : List (List α)) :
    packAll tokens (cks.map (List.map f)) = (packAll (tokens ∘ f) cks).map (List.map f) := by
  have hfold : ∀ packing : Packing α,
      (cks.map (List.map f)).foldl (pack tokens)
          ⟨packing.closed.map (List.map f), packing.last.map f, packing.num⟩ =
        let packed := cks.foldl (pack (tokens ∘ f)) packing
        ⟨packed.closed.map (List.map f), packed.last.map f, packed.num⟩ := by
    induction cks with
    | nil => simp
    | cons ck cks ih =>
      intro packing
      rw [map_cons, foldl_cons, foldl_cons, ← ih]
      congr 1
      rcases ck with - | ⟨x, - | ⟨y, rest⟩⟩
      · simp [pack]
      · simp only [pack, map_cons, map_nil, Function.comp_apply]
        split
        · simp
        · simp
      · simp [pack]
  have hstart := hfold ⟨[], [], 0⟩
  simp only [map_nil] at hstart
  rw [packAll, hstart, packAll]
  simp

/-! ### Sections and their headings -/

/-- `j` stands below the heading `h`, before the next section of the same or a higher rank. -/
def Below (ranks : List Nat) (h j : Nat) : Prop :=
  h < j ∧ j < ranks.length ∧ ∀ k, h < k → k ≤ j → ranks.getD h 0 < ranks.getD k 0

variable {ranks : List Nat} {j : Nat}

theorem mem_descents_of_below {h : Nat} (hbelow : Below ranks h j) :
    h ∈ descents (headings ranks (ranks.getD j 0) j) := by
  obtain ⟨hhj, hj, hlower⟩ := hbelow
  have hmem : h ∈ headings ranks (ranks.getD j 0) j := by
    rw [mem_headings_iff hj]
    refine ⟨hlower j hhj le_rfl, hhj, ?_⟩
    intro k hhk hkj
    have hlt := hlower k hhk (Nat.le_of_lt hkj)
    omega
  obtain ⟨before, rest, hsplit⟩ := append_of_mem hmem
  have hsuffix : h :: rest <:+ headings ranks (ranks.getD j 0) j := hsplit ▸ suffix_append _ _
  rw [mem_descents_iff]
  refine ⟨rest, hsuffix, ?_⟩
  intro c hc hhc
  rw [headings_suffix hj hsuffix] at hc
  obtain ⟨hrank, hcj, -⟩ := (mem_headings_iff hj).mp (mem_of_mem_head? hc)
  have hlt := hlower c hhc (Nat.le_of_lt hcj)
  omega

theorem mem_sectionChain_of_below {h : Nat} (hbelow : Below ranks h j)
    (hlevel : ranks.getD j 0 ≠ 1) : h ∈ sectionChain ranks j := by
  rw [sectionChain, if_neg hlevel, mem_append, mem_reverse]
  exact .inl (mem_descents_of_below hbelow)

theorem mem_sectionChain {k : Nat} (hk : k ∈ sectionChain ranks j) :
    k = j ∨ ranks.getD j 0 ≠ 1 ∧ k ∈ descents (headings ranks (ranks.getD j 0) j) := by
  rw [sectionChain] at hk
  split at hk
  · exact .inl (mem_singleton.mp hk)
  · next hlevel =>
    rcases mem_append.mp hk with hhead | hself
    · exact .inr ⟨hlevel, mem_reverse.mp hhead⟩
    · exact .inl (mem_singleton.mp hself)

theorem mem_headings_of_mem_descents {level k : Nat} (hk : k ∈ descents (headings ranks level j)) :
    k ∈ headings ranks level j := by
  obtain ⟨rest, hrest, -⟩ := mem_descents_iff.mp hk
  exact hrest.subset mem_cons_self

/-! ### What the chains cover -/

structure Covered (ranks : List Nat) (count : Nat) (depth : Int) (chunks : List (List Nat)) : Prop where
  /-- Each section of the first levels is returned. -/
  starts : ∀ j, Starts ranks count depth j → ∃ chunk ∈ chunks, j ∈ chunk
  /-- Each heading with body text below it is returned. -/
  bodies : ∀ h j, Below ranks h j → ranks.getD j 0 + 1 = count → ∃ chunk ∈ chunks, h ∈ chunk
  /-- Of the other levels, only headings with a section of the first levels after them, before
      the next heading of their level. -/
  headings : ∀ chunk ∈ chunks, ∀ h ∈ chunk, Starts ranks count depth h ∨
    ∃ j, Starts ranks count depth j ∧ h < j ∧ ranks.getD h 0 < ranks.getD j 0 ∧
      ∀ k, h < k → k < j → ranks.getD k 0 ≠ ranks.getD h 0
  /-- Where headings are unbroken, each heading with a section of the first levels below it is
      returned; a section of the level next to the highest does not count. -/
  unbroken : (∀ j, Starts ranks count depth j → ranks.getD j 0 ≠ 1 →
      Unbroken (HierarchicalMerge.headings ranks (ranks.getD j 0) j)) →
    ∀ h j, Below ranks h j → Starts ranks count depth j → ranks.getD j 0 ≠ 1 → ∃ chunk ∈ chunks, h ∈ chunk

variable {count : Nat} {depth : Int}

theorem starts_of_body (hdepth : 1 ≤ depth) (hj : j < ranks.length)
    (hbody : ranks.getD j 0 + 1 = count) : Starts ranks count depth j := by
  refine ⟨hj, ?_⟩
  rw [if_neg (by omega)]
  omega

variable {chains : List (List Nat)}

theorem covered_chains (hranks : ∀ rank ∈ ranks, rank < count) (hcount : 2 < count)
    (hdepth : 1 ≤ depth)
    (hstarts : ∀ chain ∈ chains, ∃ j, Starts ranks count depth j ∧ chain = sectionChain ranks j)
    (hread : ∀ j, Starts ranks count depth j → ∃ chain ∈ chains, j ∈ chain) :
    Covered ranks count depth chains where
  starts := hread
  bodies := by
    intro h j hbelow hbody
    obtain ⟨chain, hchain, hj⟩ := hread j (starts_of_body hdepth hbelow.2.1 hbody)
    obtain ⟨start, hstart, rfl⟩ := hstarts chain hchain
    refine ⟨_, hchain, ?_⟩
    rcases mem_sectionChain hj with rfl | ⟨-, hhead⟩
    · exact mem_sectionChain_of_below hbelow (by omega)
    · -- body text is no heading
      have hlevel := ((mem_headings_iff hstart.1).mp (mem_headings_of_mem_descents hhead)).1
      have hrank := hranks _ (getElem_mem hstart.1)
      rw [getD_eq_getElem _ _ hstart.1] at hlevel
      omega
  headings := by
    intro chain hchain h hmem
    obtain ⟨j, hj, rfl⟩ := hstarts chain hchain
    rcases mem_sectionChain hmem with rfl | ⟨-, hhead⟩
    · exact .inl hj
    · obtain ⟨hlevel, hhj, hlast⟩ := (mem_headings_iff hj.1).mp (mem_headings_of_mem_descents hhead)
      exact .inr ⟨j, hj, hhj, hlevel, hlast⟩
  unbroken := by
    intro hunbroken h j hbelow hj hlevel
    obtain ⟨chain, hchain, hmem⟩ := hread j hj
    obtain ⟨start, hstart, rfl⟩ := hstarts chain hchain
    refine ⟨_, hchain, ?_⟩
    rcases mem_sectionChain hmem with rfl | ⟨hstartLevel, hhead⟩
    · exact mem_sectionChain_of_below hbelow hlevel
    · -- `j` encloses the section that it is read with, so that one stands below `h` too
      have hencloses : Encloses ranks j start := by
        apply ((sound_iff hstart.1).mpr (hunbroken start hstart hstartLevel)).encloses
        exact mem_append_left _ (mem_reverse.mpr hhead)
      obtain ⟨hrank, hjs, -⟩ := (mem_headings_iff hstart.1).mp (mem_headings_of_mem_descents hhead)
      apply mem_sectionChain_of_below _ hstartLevel
      refine ⟨Nat.lt_trans hbelow.1 hjs, hstart.1, ?_⟩
      intro k hhk hks
      have hself := hbelow.2.2 j hbelow.1 le_rfl
      rcases Nat.lt_or_ge j k with hjk | hkj
      · rcases Nat.eq_or_lt_of_le hks with rfl | hks
        · omega
        · have hle := hencloses k hjk hks
          omega
      · exact hbelow.2.2 k hhk hkj

theorem Covered.of_flatten {chunks : List (List Nat)} (h : Covered ranks count depth chains)
    (hflatten : chunks.flatten = chains.flatten) :
    Covered ranks count depth chunks := by
  have hmem : ∀ k, (∃ chunk ∈ chunks, k ∈ chunk) ↔ ∃ chain ∈ chains, k ∈ chain := by
    intro k
    rw [← mem_flatten, hflatten, mem_flatten]
  constructor
  · intro j hj
    exact (hmem j).mpr (h.starts j hj)
  · intro a j hbelow hbody
    exact (hmem a).mpr (h.bodies a j hbelow hbody)
  · intro chunk hchunk a ha
    obtain ⟨chain, hchain, hin⟩ := (hmem a).mp ⟨chunk, hchunk, ha⟩
    exact h.headings chain hchain a hin
  · intro hunbroken a j hbelow hj hlevel
    exact (hmem a).mpr (h.unbroken hunbroken a j hbelow hj hlevel)

theorem covered_nil (hranks : ranks = []) (count : Nat) (depth : Int) :
    Covered ranks count depth [] := by
  subst hranks
  constructor
  · intro j hj
    exact absurd hj.1 (Nat.not_lt_zero j)
  · intro h j hbelow
    exact absurd hbelow.2.1 (Nat.not_lt_zero j)
  · simp
  · intro _ h j hbelow
    exact absurd hbelow.2.1 (Nat.not_lt_zero j)

theorem bulletPattern_ne_nil : ∀ patterns ∈ bulletPattern, 0 < patterns.length := by
  rw [bulletPattern]
  simp

/-- The chunks list kept sections; they cover the sections of the first levels and the headings
    above them. -/
theorem hierarchical_merge_covers (tokens : String → Nat) (bull depth : Int) (sections : Sections)
    (hlow : 0 ≤ bull) (hhigh : bull < bulletPattern.length) (hdepth : 1 ≤ depth) :
    ∃ patterns ∈ pyItem bulletPattern bull, ∃ chunks : List (List Nat),
      hierarchicalMerge tokens bull sections depth =
        some (chunks.map (List.map fun i => ((kept sections).getD i ("", "")).1)) ∧
      Covered (keptRanks patterns sections) (patterns.length + 2) depth chunks := by
  obtain ⟨patterns, hpatterns⟩ : ∃ patterns, pyItem bulletPattern bull = some patterns :=
    exists_pyItem (by omega) hhigh
  have hlength := bulletPattern_ne_nil patterns (mem_of_pyItem hpatterns)
  have hranks : ∀ rank ∈ keptRanks patterns sections, rank < patterns.length + 2 := by
    intro rank hrank
    obtain ⟨sec, -, rfl⟩ := mem_map.mp hrank
    exact levelOf_lt patterns sec
  refine ⟨patterns, hpatterns, ?_⟩
  by_cases hempty : sections.isEmpty = true
  · have hnone : keptRanks patterns sections = [] := by
      cases sections with
      | plain texts => simp [keptRanks, kept, Sections.paired, List.isEmpty_iff.mp hempty]
      | laidOut pairs => simp [keptRanks, kept, Sections.paired, List.isEmpty_iff.mp hempty]
    exact ⟨[], by rw [hierarchicalMerge, if_pos (.inl hempty)]; rfl, covered_nil hnone _ _⟩
  · obtain ⟨chains, hchains, hstarts, hread⟩ := indexChains_spec depth hranks
    have hcovered := covered_chains hranks (by omega) hdepth hstarts hread
    have hreturned : hierarchicalMerge tokens bull sections depth =
        some (if chains = [] then []
          else packAll (fun text => tokens (withoutTag text))
            (chains.map (List.map fun i => ((kept sections).getD i ("", "")).1))) := by
      rw [hierarchicalMerge, if_neg (by simp [hempty, hlow]), hpatterns, Option.bind_eq_bind, Option.bind_some,
        chainsOf, ← keptRanks, hchains, Option.bind_eq_bind, Option.bind_some]
      simp only [map_eq_nil_iff]
    rw [hreturned]
    by_cases hnone : chains = []
    · subst hnone
      exact ⟨[], by rw [if_pos rfl]; rfl, hcovered⟩
    · rw [if_neg hnone, packAll_map]
      exact ⟨_, rfl, hcovered.of_flatten (packAll_flatten _ _)⟩

def bodySections : Sections := .plain ["第一章 范围", "一条正文"]

theorem hierarchical_merge_covers_sample :
    ∃ patterns ∈ pyItem bulletPattern 0, ∃ chunks : List (List Nat),
      hierarchicalMerge String.length 0 bodySections 5 =
        some (chunks.map (List.map fun i => ((kept bodySections).getD i ("", "")).1)) ∧
      Covered (keptRanks patterns bodySections) (patterns.length + 2) 5 chunks :=
  hierarchical_merge_covers String.length 0 5 bodySections (by decide) (by decide) (by decide)

/-- Headings of the two highest ranks alone are all dropped. -/
theorem bare_headings_dropped :
    kept (.plain ["第一编 总则", "第一章 范围"]) = [("第一编 总则", ""), ("第一章 范围", "")] ∧
      hierarchicalMerge String.length 0 (.plain ["第一编 总则", "第一章 范围"]) 5 = some [] := by decide +kernel

end MultiRag.HierarchicalMerge
