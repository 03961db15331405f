/-
  **The rounds of an Iteration.**

  One entry of an Iteration is a run from the moment its start component is put on the path.
  `Steady` lists what each turn of the entry has to meet for the rounds not to overlap, repeat or
  stall.
-/
import MultiRag.IterationItem

namespace MultiRag.Agent

open List

variable {V : Type} {canvas : Canvas} {cpn parent : Component} {body : String → Prop}
  {items : List V}

/-! ### Bodies and turns -/

structure IterationBody (canvas : Canvas) (cpn parent : Component) (body : String → Prop) : Prop where
  known : canvas.get? cpn.id = some cpn
  kind : cpn.kind = .iterationItem
  within : canvas.getParent cpn = some (some parent)
  container : parent.kind = .iteration
  start : canvas.getStart parent = some (some cpn.id)
  startOutside : ¬ body cpn.id
  edges : ∀ x ∈ cpn.downstream, body x
  after : ∀ x ∈ parent.downstream, ¬ body x ∧ x ≠ cpn.id

/-- The body is left to the start only and entered from it only, and no component of
    it follows itself. -/
structure Confined (canvas : Canvas) (cpn parent : Component) (body : String → Prop) (t : Turn) :
    Prop where
  inside : ∀ d ∈ t.done, body d.1 → ∀ x ∈ handed canvas d.1 d.2, (body x ∨ x = cpn.id) ∧ x ≠ d.1
  outside : ∀ d ∈ t.done, ¬ body d.1 → d.1 ≠ cpn.id → d.1 ≠ parent.id →
    ∀ x ∈ handed canvas d.1 d.2, ¬ body x ∧ x ≠ cpn.id

structure Steady (canvas : Canvas) (cpn parent : Component) (body : String → Prop) (t : Turn) :
    Prop where
  /-- The Iteration is not entered again. -/
  notAgain : parent.id ∉ t.batch
  /-- No component of the body is deferred. -/
  passes : ∀ front x back kept, t.batch = front ++ x :: back → (body x ∨ x = cpn.id) →
    Batch canvas t.before.passed front kept →
    ∀ c, canvas.get? x = some c → c.ready (t.before.passed ++ kept) (x :: back) = true
  /-- Every component of the body leads on. -/
  leadsOn : ∀ d ∈ t.done, body d.1 → handed canvas d.1 d.2 ≠ []
  /-- When one component of the body leads back to the start, all of them do, with
      nothing put on the path between them. -/
  together : ∀ d ∈ t.done, body d.1 → cpn.id ∈ handed canvas d.1 d.2 →
    ∃ front mid back, t.done = front ++ mid ++ back ∧ (∀ d ∈ front ++ back, ¬ body d.1) ∧
      ∀ d ∈ mid, HandsOnly canvas cpn.id d
  /-- What the start hands over is not already the end of the path. -/
  noDrop : ∀ d ∈ t.done, d.1 = cpn.id → ∀ x ∈ handed canvas d.1 d.2, t.ran.getLast? ≠ some x

/-- The start stands on the path once, and nothing of the body does. -/
def AtStart (cpn : Component) (body : String → Prop) (path : List String) : Prop :=
  path.count cpn.id = 1 ∧ ∀ x ∈ path, ¬ body x

/-- Something of the body stands on the path, and the start does not. -/
def InBody (cpn : Component) (body : String → Prop) (path : List String) : Prop :=
  cpn.id ∉ path ∧ ∃ x ∈ path, body x

/-! ### What the start hands over -/

theorem handed_start (hbody : IterationBody canvas cpn parent body) {outcome : Outcome}
    (herror : outcome.error = false) :
    jumps canvas cpn.id outcome = false ∧
    handed canvas cpn.id outcome =
      if outcome.ended = true then parent.downstream
      else if cpn.downstream = [] then [cpn.id] else cpn.downstream :=
  handed_containerStart hbody.known (.inl hbody.kind) hbody.within hbody.start herror

/-! ### What a turn leaves on the path -/

variable {t : Turn}

theorem handed_outside (hconf : Confined canvas cpn parent body t)
    (hsteady : Steady canvas cpn parent body t) (hran : t.ran ⊆ t.batch)
    {d : String × Outcome} (hd : d ∈ t.done) (hbody : ¬ body d.1) (hstart : d.1 ≠ cpn.id) :
    ∀ x ∈ handed canvas d.1 d.2, ¬ body x ∧ x ≠ cpn.id := by
  apply hconf.outside d hd hbody hstart
  intro hparent
  apply hsteady.notAgain
  rw [← hparent]
  exact hran (Turn.mem_ran_of_done hd)

theorem put_of_outside (hwhole : t.Whole canvas) (hconf : Confined canvas cpn parent body t)
    (hsteady : Steady canvas cpn parent body t) (hran : t.ran ⊆ t.batch)
    (houtside : ∀ x ∈ t.ran, ¬ body x ∧ x ≠ cpn.id) : ∀ x ∈ t.put, ¬ body x ∧ x ≠ cpn.id := by
  intro x hx
  obtain ⟨d, hd, hhanded⟩ := hwhole.put_within hx
  obtain ⟨hbody, hstart⟩ := houtside d.1 (Turn.mem_ran_of_done hd)
  exact handed_outside hconf hsteady hran hd hbody hstart x hhanded

section

variable (hbody : IterationBody canvas cpn parent body)
  (hwhole : t.Whole canvas)
  (hconf : Confined canvas cpn parent body t)
  (hsteady : Steady canvas cpn parent body t)
  (hran : t.ran ⊆ t.batch)
include hbody hwhole hconf hsteady hran

theorem put_of_item (hstart : AtStart cpn body t.ran)
    (hout : ∀ d ∈ t.done, d.1 = cpn.id → d.2.ended = false ∧ d.2.error = false) :
    AtStart cpn body t.put ∨ InBody cpn body t.put := by
  obtain ⟨front, outcome, back, hsplit, hothers⟩ := hwhole.split hstart.1
  have hmem : (cpn.id, outcome) ∈ t.done := by simp [hsplit]
  obtain ⟨hended, herror⟩ : outcome.ended = false ∧ outcome.error = false :=
    hout _ hmem rfl
  obtain ⟨hjumps, hhanded⟩ := handed_start hbody herror
  rw [if_neg (by simp [hended])] at hhanded
  -- nobody else hands over the start or something of the body
  have hapart : ∀ d ∈ front ++ back, ∀ x ∈ handed canvas d.1 d.2, ¬ body x ∧ x ≠ cpn.id := by
    intro d hd
    have hdone : d ∈ t.done := by
      rw [hsplit]
      simp only [mem_append] at hd ⊢
      tauto
    exact handed_outside hconf hsteady hran hdone (hstart.2 d.1 (Turn.mem_ran_of_done hdone))
      (hothers d hd)
  have hputs : ∀ x ∈ t.put, x ∈ handed canvas cpn.id outcome ∨ (¬ body x ∧ x ≠ cpn.id) := by
    intro x hx
    obtain ⟨d, hd, hdx⟩ := hwhole.put_within hx
    rw [hsplit] at hd
    simp only [mem_append, mem_singleton] at hd
    rcases hd with (hd | rfl) | hd
    · exact .inr (hapart d (mem_append_left _ hd) x hdx)
    · exact .inl hdx
    · exact .inr (hapart d (mem_append_right _ hd) x hdx)
  by_cases hleaf : cpn.downstream = []
  · left
    rw [if_pos hleaf] at hhanded
    rw [hhanded] at hputs
    constructor
    · have hpath := hwhole.path
      rw [hsplit] at hpath
      apply count_put_eq_one hpath
      · have hne : t.ran ≠ [] := ne_nil_of_mem (Turn.mem_ran_of_done hmem)
        rw [getLast?_append, getLast?_eq_some_getLast hne, Option.some_or,
          ← getLast?_eq_some_getLast hne]
        exact hsteady.noDrop _ hmem rfl cpn.id (by simp [hhanded])
      · exact fun d hd hx => (hapart d hd _ hx).2 rfl
      · intro d hd
        rw [mem_singleton.mp hd]
        exact .inl ⟨hhanded, hjumps⟩
      · exact ⟨_, mem_singleton.mpr rfl, by simp [hhanded]⟩
    · intro x hx
      rcases hputs x hx with hx | hx
      · rw [mem_singleton.mp hx]
        exact hbody.startOutside
      · exact hx.1
  · right
    rw [if_neg hleaf] at hhanded
    rw [hhanded] at hputs
    constructor
    · intro hx
      rcases hputs _ hx with hx | hx
      · exact hbody.startOutside (hbody.edges _ hx)
      · exact hx.2 rfl
    · obtain ⟨x, hx⟩ := exists_mem_of_ne_nil _ hleaf
      refine ⟨x, ?_, hbody.edges x hx⟩
      rcases hwhole.put_or_last hmem (by rw [hhanded]; exact hx) with hput | hlast
      · exact hput
      · exact absurd (hbody.edges x hx) (hstart.2 x (mem_of_getLast? hlast))

theorem put_of_end (hstart : AtStart cpn body t.ran)
    (hout : ∀ d ∈ t.done, d.1 = cpn.id → d.2.ended = true ∧ d.2.error = false) :
    (∀ x ∈ t.put, ¬ body x ∧ x ≠ cpn.id) ∧ ∀ x ∈ parent.downstream, x ∈ t.put := by
  have hhanded : ∀ d ∈ t.done, d.1 = cpn.id → handed canvas d.1 d.2 = parent.downstream := by
    intro d hd hsame
    obtain ⟨hended, herror⟩ := hout d hd hsame
    rw [hsame, (handed_start hbody herror).2, if_pos hended]
  constructor
  · intro x hx
    obtain ⟨d, hd, hdx⟩ := hwhole.put_within hx
    by_cases hsame : d.1 = cpn.id
    · rw [hhanded d hd hsame] at hdx
      exact hbody.after x hdx
    · exact handed_outside hconf hsteady hran hd (hstart.2 d.1 (Turn.mem_ran_of_done hd)) hsame
        x hdx
  · intro x hx
    have hmem : cpn.id ∈ t.ran := by
      rw [← count_pos_iff, hstart.1]
      exact Nat.one_pos
    obtain ⟨d, hd, hsame⟩ := hwhole.exists_done hmem
    rw [← hhanded d hd hsame] at hx
    rcases hwhole.put_or_last hd hx with hput | hlast
    · exact hput
    · exact absurd hlast (hsteady.noDrop d hd hsame x hx)

theorem put_of_body (hin : InBody cpn body t.ran) :
    AtStart cpn body t.put ∨ InBody cpn body t.put := by
  obtain ⟨hnoStart, first, hfirst, hfirstBody⟩ := hin
  have hne : ∀ d ∈ t.done, d.1 ≠ cpn.id := by
    intro d hd hsame
    apply hnoStart
    rw [← hsame]
    exact Turn.mem_ran_of_done hd
  by_cases hreturns : ∃ d ∈ t.done, body d.1 ∧ cpn.id ∈ handed canvas d.1 d.2
  · left
    obtain ⟨d, hd, hdBody, hback⟩ := hreturns
    obtain ⟨front, mid, back, hsplit, hapart, hmid⟩ := hsteady.together d hd hdBody hback
    have houtside : ∀ d' ∈ front ++ back, ∀ x ∈ handed canvas d'.1 d'.2, ¬ body x ∧ x ≠ cpn.id := by
      intro d' hd'
      have hdone : d' ∈ t.done := by
        rw [hsplit]
        simp only [mem_append] at hd' ⊢
        tauto
      exact handed_outside hconf hsteady hran hdone (hapart d' hd') (hne d' hdone)
    have hdMid : d ∈ mid := by
      have hmem := hd
      rw [hsplit] at hmem
      simp only [mem_append] at hmem
      rcases hmem with (hmem | hmem) | hmem
      · exact absurd hdBody (hapart d (mem_append_left _ hmem))
      · exact hmem
      · exact absurd hdBody (hapart d (mem_append_right _ hmem))
    constructor
    · have hpath := hwhole.path
      rw [hsplit] at hpath
      apply count_put_eq_one hpath
      · have hrunNe : t.ran ≠ [] := ne_nil_of_mem hfirst
        rw [getLast?_append, getLast?_eq_some_getLast hrunNe, Option.some_or]
        intro hlast
        apply hnoStart
        rw [← Option.some.inj hlast]
        exact getLast_mem hrunNe
      · exact fun d' hd' hx => (houtside d' hd' _ hx).2 rfl
      · exact hmid
      · exact ⟨d, hdMid, hback⟩
    · intro x hx
      obtain ⟨d', hd', hdx⟩ := hwhole.put_within hx
      rw [hsplit] at hd'
      simp only [mem_append] at hd'
      rcases hd' with (hd' | hd') | hd'
      · exact (houtside d' (mem_append_left _ hd') x hdx).1
      · rcases hmid d' hd' with ⟨hhanded, -⟩ | hhanded
        · rw [hhanded, mem_singleton] at hdx
          rw [hdx]
          exact hbody.startOutside
        · rw [hhanded] at hdx
          cases hdx
      · exact (houtside d' (mem_append_right _ hd') x hdx).1
  · right
    push Not at hreturns
    -- what the body hands over stays in it
    have hstays : ∀ d ∈ t.done, body d.1 → ∀ x ∈ handed canvas d.1 d.2, body x ∧ x ≠ d.1 := by
      intro d hd hdBody x hx
      obtain ⟨hbodyOrStart, hother⟩ := hconf.inside d hd hdBody x hx
      refine ⟨hbodyOrStart.resolve_right ?_, hother⟩
      rintro rfl
      exact hreturns d hd hdBody hx
    constructor
    · intro hx
      obtain ⟨d, hd, hdx⟩ := hwhole.put_within hx
      by_cases hdBody : body d.1
      · exact hreturns d hd hdBody hdx
      · exact (handed_outside hconf hsteady hran hd hdBody (hne d hd) _ hdx).2 rfl
    · obtain ⟨d, hd, rfl⟩ := hwhole.exists_done hfirst
      obtain ⟨x, hx⟩ := exists_mem_of_ne_nil _ (hsteady.leadsOn d hd hfirstBody)
      obtain ⟨hxBody, -⟩ := hstays d hd hfirstBody x hx
      rcases hwhole.put_or_last hd hx with hput | hlast
      · exact ⟨x, hput, hxBody⟩
      · -- the last component of the batch is in the body and leads on itself
        obtain ⟨d', hd', hsame⟩ := hwhole.exists_done (mem_of_getLast? hlast)
        have hd'Body : body d'.1 := hsame ▸ hxBody
        obtain ⟨y, hy⟩ := exists_mem_of_ne_nil _ (hsteady.leadsOn d' hd' hd'Body)
        obtain ⟨hyBody, hyOther⟩ := hstays d' hd' hd'Body y hy
        rcases hwhole.put_or_last hd' hy with hput | hlast'
        · exact ⟨y, hput, hyBody⟩
        · rw [hlast] at hlast'
          cases hlast'
          exact absurd hsame.symm hyOther

end

end MultiRag.Agent
