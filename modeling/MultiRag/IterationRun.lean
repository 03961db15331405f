/-
  **One entry of an Iteration shows every item once, in order.**

  `InRound` and `Over` are the two states an entry can be in: `k` invocations of the
  start so far and more to come, or all items shown and the end reached.
-/
import MultiRag.IterationRounds

namespace MultiRag.Agent

open List

variable {V : Type} {canvas : Canvas} {cpn parent : Component} {body : String → Prop}
  {items : List V} {s₀ s s' : IterationState V} {e : IterationTurn V}
  {hist : List (IterationTurn V)}

/-! ### What an entry shows -/

def shownOf (hist : List (IterationTurn V)) : List (Shown V) :=
  hist.reverse.flatMap IterationTurn.shown

def readsOf (hist : List (IterationTurn V)) : List (ItemReads V) :=
  hist.reverse.flatMap IterationTurn.reads

def shownItems (items : List V) : List (Shown V) := items.mapIdx (fun i value => .item i value)

def Collected (canvas : Canvas) (parent : Component) (o : RefOutput) : Prop :=
  o ∈ parent.refOutputs ∧ ∃ child ∈ canvas, child.id = o.cid ∧ child.parentId = some parent.id

@[simp] theorem shownOf_cons : shownOf (e :: hist) = shownOf hist ++ e.shown := by
  simp [shownOf]

@[simp] theorem readsOf_cons : readsOf (e :: hist) = readsOf hist ++ e.reads := by
  simp [readsOf]

/-- The collated lists hold the outputs that the invocations after the first have read. -/
def Collates (canvas : Canvas) (parent : Component) (hist : List (IterationTurn V))
    (state : ItemState V) : Prop :=
  ∀ o, Collected canvas parent o →
    state.lists o.name = (readsOf hist).tail.map (fun reads => reads.outputs o.cid o.var)

/-- `k` invocations of the start so far, and the entry goes on. -/
structure InRound (canvas : Canvas) (cpn parent : Component) (body : String → Prop) (items : List V)
    (hist : List (IterationTurn V)) (s : IterationState V) (k : Nat) : Prop where
  le : k ≤ items.length
  idx : s.item.idx = k
  error : s.item.error = false
  shown : shownOf hist = (shownItems items).take k
  reads : (readsOf hist).length = k
  lists : Collates canvas parent hist s.item
  pending : s.run.status = .running →
    AtStart cpn body s.run.pending ∨ InBody cpn body s.run.pending
  unfinished : s.run.status ≠ .finished

/-- The start has ended the entry. -/
structure Over (canvas : Canvas) (cpn parent : Component) (body : String → Prop) (items : List V)
    (hist : List (IterationTurn V)) (s : IterationState V) : Prop where
  idx : s.item.idx = -1
  shown : shownOf hist = shownItems items ++ [.ended]
  reads : (readsOf hist).length = items.length + 1
  lists : Collates canvas parent hist s.item
  pending : s.run.status = .running → ∀ x ∈ s.run.pending, ¬ body x ∧ x ≠ cpn.id

/-- The start has just been put on the path for the first time. -/
structure Entered (canvas : Canvas) (cpn parent : Component) (body : String → Prop)
    (s : IterationState V) : Prop where
  running : s.run.status = .running
  pending : AtStart cpn body s.run.pending
  idx : s.item.idx = 0
  error : s.item.error = false
  lists : ∀ o, Collected canvas parent o → s.item.lists o.name = []

theorem Entered.inRound (h : Entered canvas cpn parent body s) :
    InRound canvas cpn parent body items [] s 0 := { h with
  le := Nat.zero_le _
  shown := by simp [shownOf]
  reads := by simp [readsOf]
  lists := by
    intro o ho
    rw [h.lists o ho]
    simp [readsOf]
  pending := fun _ => .inl h.pending
  unfinished := by simp [h.running] }

variable {k : Nat}

theorem Collates.invoked {reads : ItemReads V} {state : ItemState V}
    (hcollates : Collates canvas parent hist s.item) (hidx : s.item.idx = k)
    (hlength : (readsOf hist).length = k) (hreads : e.reads = [reads])
    (hlists : state.lists = (collateRound canvas parent reads.outputs s.item).lists) :
    Collates canvas parent (e :: hist) state := by
  rintro o ⟨ho, child, hchild, hid, hparent⟩
  rw [hlists, collateRound_lists reads.outputs ho hchild hid hparent,
    hcollates o ⟨ho, child, hchild, hid, hparent⟩, readsOf_cons, hreads]
  cases k with
  | zero =>
    have hnone : readsOf hist = [] := length_eq_zero_iff.mp hlength
    simp [hidx, hnone]
  | succ k =>
    have hsome : readsOf hist ≠ [] := by
      intro hnil
      simp [hnil] at hlength
    have hpos : (0 : Int) < s.item.idx := by omega
    rw [if_pos hpos, tail_append_of_ne_nil hsome]
    simp

theorem shownItems_take_succ (hlt : k < items.length) :
    (shownItems items).take (k + 1) = (shownItems items).take k ++ [.item k items[k]] := by
  have hlt' : k < (shownItems items).length := by simpa [shownItems] using hlt
  rw [take_add_one, getElem?_eq_getElem hlt']
  simp [shownItems]

/-! ### Steps -/

/-- What a steady turn makes of an entry that goes on. -/
inductive Progress (canvas : Canvas) (cpn parent : Component) (body : String → Prop)
    (items : List V) (hist : List (IterationTurn V)) (e : IterationTurn V)
    (s' : IterationState V) : Prop
  | goesOn (k : Nat) (notEnded : Shown.ended ∉ e.shown)
      (inRound : InRound canvas cpn parent body items (e :: hist) s' k)
  | ends (closed : Over canvas cpn parent body items (e :: hist) s')
      (scheduled : s'.run.status ≠ .raised → ∀ x ∈ parent.downstream, x ∈ e.turn.put)

theorem pending_of_put (hstep : RunStep canvas s.run e.turn s'.run)
    (hput : s'.run.status ≠ .raised →
      AtStart cpn body e.turn.put ∨ InBody cpn body e.turn.put) :
    (s'.run.status = .running →
      AtStart cpn body s'.run.pending ∨ InBody cpn body s'.run.pending) ∧
    s'.run.status ≠ .finished := by
  constructor
  · intro hrunning
    obtain ⟨-, -, hpend, -⟩ := hstep.spec.next hrunning
    rw [hpend]
    exact hput (by simp [hrunning])
  · intro hfin
    have hnil : e.turn.put = [] := put_eq_nil_of_finished hstep hfin
    rcases hput (by simp [hfin]) with ⟨hcount, -⟩ | ⟨-, x, hx, -⟩
    · simp [hnil] at hcount
    · simp [hnil] at hx

theorem idle_of_no_reads (hstep : IterationStep canvas cpn parent s e s')
    (hcount : e.turn.ran.count cpn.id = 0) : e.reads = [] ∧ e.shown = [] ∧ s'.item = s.item := by
  have hreads : e.reads = [] := length_eq_zero_iff.mp (hstep.reads.trans hcount)
  have hitem := hstep.item
  simp only [hreads, invokeItems, Prod.mk.injEq] at hitem
  exact ⟨hreads, hitem.1.symm, hitem.2.symm⟩

theorem InRound.idle (hround : InRound canvas cpn parent body items hist s k)
    (hstep : IterationStep canvas cpn parent s e s') (hcount : e.turn.ran.count cpn.id = 0)
    (hput : s'.run.status ≠ .raised →
      AtStart cpn body e.turn.put ∨ InBody cpn body e.turn.put) :
    Progress canvas cpn parent body items hist e s' := by
  obtain ⟨hreads, hshown, hitem⟩ := idle_of_no_reads hstep hcount
  obtain ⟨hpend, hunfin⟩ := pending_of_put hstep.turn hput
  refine Progress.goesOn k (by simp [hshown]) ?_
  refine ⟨hround.le, by rw [hitem]; exact hround.idx, by rw [hitem]; exact hround.error, ?_, ?_, ?_,
    hpend, hunfin⟩
  · simp [hshown, hround.shown]
  · simp [hreads, hround.reads]
  · intro o ho
    rw [hitem, hround.lists o ho]
    simp [hreads]

theorem InRound.start (hround : InRound canvas cpn parent body items hist s k)
    (hbody : IterationBody canvas cpn parent body) (hstep : IterationStep canvas cpn parent s e s')
    (hconf : Confined canvas cpn parent body e.turn)
    (hsteady : Steady canvas cpn parent body e.turn)
    (hlist : ∀ reads ∈ e.reads, reads.items = some items) (hran : e.turn.ran ⊆ e.turn.batch)
    (hstart : AtStart cpn body e.turn.ran) : Progress canvas cpn parent body items hist e s' := by
  have hwhole : s'.run.status ≠ .raised → e.turn.Whole canvas := whole_of_step hstep.turn
  obtain ⟨reads, hreads⟩ : ∃ reads, e.reads = [reads] :=
    length_eq_one_iff.mp (hstep.reads.trans hstart.1)
  have hitems : reads.items = some items := hlist reads (by simp [hreads])
  have hitem := hstep.item
  simp only [hreads, invokeItems, Prod.mk.injEq] at hitem
  obtain ⟨hshown, hstate⟩ := hitem
  rcases Nat.lt_or_eq_of_le hround.le with hlt | heq
  · -- another item
    obtain ⟨hitemShown, hidx, herror, hlists⟩ :=
      invokeItem_of_lt canvas cpn parent hitems hround.idx hlt
    rw [hstate] at hidx herror hlists
    rw [hitemShown] at hshown
    obtain ⟨hpend, hunfin⟩ := pending_of_put hstep.turn (fun hresult =>
      put_of_item hbody (hwhole hresult) hconf hsteady hran hstart (by
        intro d hd hsame
        obtain ⟨hended, herror'⟩ := hstep.outcome d hd hsame
        have hnotEnded : s'.item.ended = false := by
          rw [ItemState.ended, hidx, decide_eq_false_iff_not]
          omega
        exact ⟨hended.trans hnotEnded, herror'.trans (herror.trans hround.error)⟩))
    refine Progress.goesOn (k + 1) (by simp [← hshown]) ?_
    refine ⟨hlt, by simpa using hidx, herror.trans hround.error, ?_, ?_, ?_, hpend, hunfin⟩
    · rw [shownOf_cons, hround.shown, ← hshown, shownItems_take_succ hlt]
    · simp [hreads, hround.reads]
    · exact hround.lists.invoked hround.idx hround.reads hreads hlists
  · -- the end
    subst heq
    obtain ⟨hitemShown, hidx, herror, hlists⟩ :=
      invokeItem_of_eq canvas cpn parent hitems hround.idx
    rw [hstate] at hidx herror hlists
    rw [hitemShown] at hshown
    have hput := fun hresult => put_of_end hbody (hwhole hresult) hconf hsteady hran hstart (by
      intro d hd hsame
      obtain ⟨hended, herror'⟩ := hstep.outcome d hd hsame
      have hisEnded : s'.item.ended = true := by simp [ItemState.ended, hidx]
      exact ⟨hended.trans hisEnded, herror'.trans (herror.trans hround.error)⟩)
    refine Progress.ends ⟨hidx, ?_, ?_, ?_, ?_⟩ (fun hresult => (hput hresult).2)
    · rw [shownOf_cons, hround.shown, ← hshown, take_of_length_le (by simp [shownItems])]
    · simp [hreads, hround.reads]
    · exact hround.lists.invoked hround.idx hround.reads hreads hlists
    · intro hrunning
      obtain ⟨-, -, hpend, -⟩ := hstep.turn.spec.next hrunning
      rw [hpend]
      exact (hput (by simp [hrunning])).1

theorem Steady.count_ran (hsteady : Steady canvas cpn parent body e.turn)
    (hstep : RunStep canvas s.run e.turn s'.run) {x : String} (hx : body x ∨ x = cpn.id) :
    e.turn.ran.count x = e.turn.batch.count x := by
  obtain ⟨hbefore, -, -, hbatch, -⟩ := hstep.spec
  apply hbatch.count_of_ready (fun x => body x ∨ x = cpn.id) _ hx
  rw [← hbefore]
  exact hsteady.passes

theorem InRound.step (hround : InRound canvas cpn parent body items hist s k)
    (hbody : IterationBody canvas cpn parent body) (hstep : IterationStep canvas cpn parent s e s')
    (hconf : Confined canvas cpn parent body e.turn)
    (hsteady : Steady canvas cpn parent body e.turn)
    (hlist : ∀ reads ∈ e.reads, reads.items = some items) :
    Progress canvas cpn parent body items hist e s' := by
  obtain ⟨-, hrunning, hreached, hbatch, -⟩ := hstep.turn.spec
  have hran : e.turn.ran ⊆ e.turn.batch := hbatch.sublist.subset
  have hcount := hsteady.count_ran hstep.turn (.inr rfl)
  have hwhole : s'.run.status ≠ .raised → e.turn.batch = s.run.pending :=
    batch_eq_pending hstep.turn
  rcases hround.pending hrunning with ⟨hone, hnoBody⟩ | ⟨hnoStart, x, hx, hxBody⟩
  · have hle : e.turn.batch.count cpn.id ≤ 1 := by
      rw [← hone]
      exact hreached.sublist.count_le cpn.id
    rcases Nat.le_one_iff_eq_zero_or_eq_one.mp hle with hzero | hstart
    · apply hround.idle hstep (hcount.trans hzero)
      intro hresult
      rw [hwhole hresult, hone] at hzero
      cases hzero
    · refine hround.start hbody hstep hconf hsteady hlist hran ⟨hcount.trans hstart, ?_⟩
      exact fun y hy => hnoBody y (hreached.subset (hran hy))
  · have hnone : cpn.id ∉ e.turn.ran := fun hmem => hnoStart (hreached.subset (hran hmem))
    apply hround.idle hstep (count_eq_zero.mpr hnone)
    intro hresult
    refine put_of_body hbody (whole_of_step hstep.turn hresult) hconf hsteady hran
      ⟨hnone, x, ?_, hxBody⟩
    rw [← count_pos_iff, hsteady.count_ran hstep.turn (.inl hxBody), hwhole hresult,
      count_pos_iff]
    exact hx

theorem Over.step (hover : Over canvas cpn parent body items hist s)
    (hstep : IterationStep canvas cpn parent s e s')
    (hconf : Confined canvas cpn parent body e.turn)
    (hsteady : Steady canvas cpn parent body e.turn) :
    e.shown = [] ∧ Over canvas cpn parent body items (e :: hist) s' := by
  obtain ⟨-, hrunning, hreached, hbatch, -⟩ := hstep.turn.spec
  have hran : e.turn.ran ⊆ e.turn.batch := hbatch.sublist.subset
  have houtside : ∀ x ∈ e.turn.ran, ¬ body x ∧ x ≠ cpn.id :=
    fun x hx => hover.pending hrunning x (hreached.subset (hran hx))
  have hcount : e.turn.ran.count cpn.id = 0 :=
    count_eq_zero.mpr (fun hmem => (houtside _ hmem).2 rfl)
  obtain ⟨hreads, hshown, hitem⟩ := idle_of_no_reads hstep hcount
  refine ⟨hshown, by rw [hitem]; exact hover.idx, ?_, ?_, ?_, ?_⟩
  · simp [hshown, hover.shown]
  · simp [hreads, hover.reads]
  · intro o ho
    rw [hitem, hover.lists o ho]
    simp [hreads]
  · intro hrunning'
    obtain ⟨-, -, hpend, -⟩ := hstep.turn.spec.next hrunning'
    rw [hpend]
    exact put_of_outside (whole_of_step hstep.turn (by simp [hrunning'])) hconf hsteady hran
      houtside

/-! ### Whole entries -/

/-- A turn of an entry: the edges stay in the body, the start reads the list of the
    entry, and the rounds stay apart. -/
structure EntryTurn (canvas : Canvas) (cpn parent : Component) (body : String → Prop)
    (items : List V) (e : IterationTurn V) : Prop where
  confined : Confined canvas cpn parent body e.turn
  list : ∀ reads ∈ e.reads, reads.items = some items
  steady : Steady canvas cpn parent body e.turn

structure Iterates (canvas : Canvas) (cpn parent : Component) (body : String → Prop)
    (items : List V) (hist : List (IterationTurn V)) (s : IterationState V) : Prop where
  /-- The items come in order, each once, and then the end. -/
  inOrder : shownOf hist <+: shownItems items ++ [.ended]
  complete : s.run.status = .finished → shownOf hist = shownItems items ++ [.ended]
  /-- Before the start runs again, everything of the body put on the path has run. -/
  rounds : ∀ newer later mid earlier older, hist = newer ++ later :: (mid ++ earlier :: older) →
    cpn.id ∈ later.turn.ran → ∀ x ∈ earlier.turn.put, body x → ∃ e ∈ mid, x ∈ e.turn.ran
  /-- One entry for each item, read when the round of the item was over. -/
  collated : Shown.ended ∈ shownOf hist → ∀ o, Collected canvas parent o →
    s.item.lists o.name = (readsOf hist).tail.map (fun reads => reads.outputs o.cid o.var) ∧
      (s.item.lists o.name).length = items.length
  scheduled : s.run.status ≠ .raised → ∀ e ∈ hist, Shown.ended ∈ e.shown →
    ∀ x ∈ parent.downstream, x ∈ e.turn.put

theorem entry_state (hbody : IterationBody canvas cpn parent body)
    (hentry : Entered canvas cpn parent body s₀)
    (hrun : Run (IterationStep canvas cpn parent) s₀ hist s)
    (hturns : ∀ e ∈ hist, EntryTurn canvas cpn parent body items e) :
    (∃ k, InRound canvas cpn parent body items hist s k) ∨
      Over canvas cpn parent body items hist s := by
  induction hrun with
  | nil => exact .inl ⟨0, hentry.inRound⟩
  | @cons hist a b e hprev hstep ih =>
    obtain ⟨hconf, hlist, hsteady⟩ := hturns e mem_cons_self
    rcases ih (fun e' he' => hturns e' (mem_cons_of_mem _ he')) with ⟨k, hround⟩ | hover
    · cases hround.step hbody hstep hconf hsteady hlist with
      | goesOn k notEnded inRound => exact .inl ⟨k, inRound⟩
      | ends closed scheduled => exact .inr closed
    · exact .inr (hover.step hstep hconf hsteady).2

theorem running_of_run (hrun : Run (IterationStep canvas cpn parent) s₀ hist s) (hsome : hist ≠ []) :
    s₀.run.status = .running := by
  rcases eq_nil_or_concat hist with rfl | ⟨newer, e, rfl⟩
  · exact absurd rfl hsome
  · rw [concat_eq_append] at hrun
    obtain ⟨a, b, hprev, hstep, -⟩ := Run.split hrun
    cases hprev
    exact hstep.turn.spec.running

theorem not_raised_of_rest (hrun : Run (IterationStep canvas cpn parent) s₀ hist s)
    (hresult : s.run.status ≠ .raised) : s₀.run.status ≠ .raised := by
  by_cases hsome : hist = []
  · subst hsome
    cases hrun
    exact hresult
  · simp [running_of_run hrun hsome]

theorem rounds_apart (hbody : IterationBody canvas cpn parent body)
    (hentry : Entered canvas cpn parent body s₀)
    {newer mid older : List (IterationTurn V)} {later earlier : IterationTurn V}
    (hrun : Run (IterationStep canvas cpn parent) s₀ (newer ++ later :: (mid ++ earlier :: older)) s)
    (hturns : ∀ e ∈ newer ++ later :: (mid ++ earlier :: older),
      EntryTurn canvas cpn parent body items e)
    (hlater : cpn.id ∈ later.turn.ran) {x : String} (hput : x ∈ earlier.turn.put) (hx : body x) :
    ∃ e ∈ mid, x ∈ e.turn.ran := by
  have hsplit : newer ++ later :: (mid ++ earlier :: older) =
      (newer ++ later :: mid) ++ earlier :: older := by simp
  rw [hsplit] at hrun hturns
  obtain ⟨a, b, hbefore, hstep, hrest⟩ := hrun.split
  have hstate := entry_state hbody hentry (Run.cons hbefore hstep)
    (fun e he => hturns e (mem_append_right _ he))
  have hrunning : b.run.status = .running := running_of_run hrest (by simp)
  obtain ⟨-, -, hpend, -⟩ := hstep.turn.spec.next hrunning
  rw [← hpend] at hput
  rcases eq_nil_or_concat mid with rfl | ⟨mid', next, rfl⟩
  · -- the start does not stand in one batch with the body
    exfalso
    obtain ⟨a', b', hnone, hlaterStep, -⟩ := Run.split hrest
    cases hnone
    have hstart : cpn.id ∈ b.run.pending :=
      hlaterStep.turn.spec.reached.subset (hlaterStep.turn.spec.ran.sublist.subset hlater)
    rcases hstate with ⟨k, hround⟩ | hover
    · rcases hround.pending hrunning with ⟨-, hnoBody⟩ | ⟨hnoStart, -⟩
      · exact hnoBody x hput hx
      · exact hnoStart hstart
    · exact (hover.pending hrunning x hput).1 hx
  · -- the next turn runs it
    rw [concat_eq_append] at hrest hturns ⊢
    have hassoc : newer ++ later :: (mid' ++ [next]) = (newer ++ later :: mid') ++ next :: [] := by
      simp
    rw [hassoc] at hrest
    obtain ⟨a', b', hnone, hnext, hlast⟩ := hrest.split
    cases hnone
    have hnotRaised : b'.run.status ≠ .raised := by simp [running_of_run hlast (by simp)]
    refine ⟨next, by simp, ?_⟩
    have hsteady : Steady canvas cpn parent body next.turn := (hturns next (by simp)).steady
    rw [← count_pos_iff, hsteady.count_ran hnext.turn (.inl hx),
      batch_eq_pending hnext.turn hnotRaised, count_pos_iff]
    exact hput

/-- **One entry shows every item once, in order, a round at a time.** -/
theorem iterates (hbody : IterationBody canvas cpn parent body)
    (hentry : Entered canvas cpn parent body s₀)
    (hrun : Run (IterationStep canvas cpn parent) s₀ hist s)
    (hturns : ∀ e ∈ hist, EntryTurn canvas cpn parent body items e) :
    Iterates canvas cpn parent body items hist s := by
  have hstate := entry_state hbody hentry hrun hturns
  refine ⟨?_, ?_, ?_, ?_, ?_⟩
  · rcases hstate with ⟨k, hround⟩ | hover
    · rw [hround.shown]
      exact (List.take_prefix _ _).trans (prefix_append _ _)
    · exact ⟨[], by simp [hover.shown]⟩
  · intro hfinished
    rcases hstate with ⟨k, hround⟩ | hover
    · exact absurd hfinished hround.unfinished
    · exact hover.shown
  · rintro newer later mid earlier older rfl hlater x hput hx
    exact rounds_apart hbody hentry hrun hturns hlater hput hx
  · intro hended o ho
    rcases hstate with ⟨k, hround⟩ | hover
    · rw [hround.shown] at hended
      have hitem := mem_of_mem_take hended
      simp [shownItems] at hitem
    · refine ⟨hover.lists o ho, ?_⟩
      rw [hover.lists o ho, length_map, length_tail, hover.reads]
      rfl
  · intro hresult e he hended
    obtain ⟨newer, older, rfl⟩ := append_of_mem he
    obtain ⟨a, b, hbefore, hstep, hrest⟩ := hrun.split
    obtain ⟨hconfined, hlist, hsteady⟩ := hturns e he
    rcases entry_state hbody hentry hbefore (fun e' he' => hturns e' (by simp [he'])) with
      ⟨k, hround⟩ | hover
    · cases hround.step hbody hstep hconfined hsteady hlist with
      | goesOn k notEnded inRound => exact absurd hended notEnded
      | ends closed scheduled => exact scheduled (not_raised_of_rest hrest hresult)
    · rw [(hover.step hstep hconfined hsteady).1] at hended
      cases hended

section

variable (canvas cpn parent)

abbrev IterationCall (V : Type) := List Outcome × List (ItemReads V)

def takeIteration (call : IterationCall V) (s : IterationState V) :
    IterationTurn V × IterationState V :=
  let next := takeTurn canvas call.1 s.run
  let invoked := invokeItems canvas cpn parent call.2 s.item
  (⟨next.1, call.2, invoked.1⟩, ⟨next.2, invoked.2⟩)

def canIteration (call : IterationCall V) (s : IterationState V) : Bool :=
  let next := takeIteration canvas cpn parent call s
  canTurn canvas call.1 s.run && decide (call.2.length = next.1.turn.ran.count cpn.id) &&
    next.1.turn.done.all (fun d => decide (d.1 ≠ cpn.id) ||
      (decide (d.2.ended = next.2.item.ended) && decide (d.2.error = next.2.item.error)))

variable {canvas cpn parent}

theorem iterations_run {calls : List (IterationCall V)}
    (hallowed : allowed (takeIteration canvas cpn parent) (canIteration canvas cpn parent) calls s =
      true) :
    Run (IterationStep canvas cpn parent) s (execute (takeIteration canvas cpn parent) calls [] s).1
      (execute (takeIteration canvas cpn parent) calls [] s).2 := by
  apply execute_steps Run.nil hallowed
  intro call s hcan
  simp only [canIteration, Bool.and_eq_true, decide_eq_true_eq, canTurn] at hcan
  obtain ⟨⟨⟨hrunning, hsome⟩, hreads⟩, hout⟩ := hcan
  obtain ⟨next, hnext⟩ := Option.isSome_iff_exists.mp hsome
  refine ⟨?_, hreads, rfl, ?_⟩
  · rw [takeIteration, takeTurn, hnext]
    exact RunStep.turn hrunning hnext
  · intro d hd hsame
    have hd' := all_eq_true.mp hout d hd
    simpa [hsame] using hd'

end

def innerComponent (cpnId : String) (kind : ComponentKind) (downstream : List String) : Component :=
  { plainComponent cpnId kind downstream [] with parentId := some "Iteration:i" }

def sampleStart (downstream : List String) : Component :=
  innerComponent "IterationItem:s" .iterationItem downstream

def sampleIteration (downstream : List String) : Component :=
  { plainComponent "Iteration:i" .iteration downstream [] with
    refOutputs := [⟨"out", "Message:a", "content"⟩]
    refNames := by decide }

def lineCanvas : Canvas :=
  ⟨[plainComponent "begin" .begin ["Iteration:i"] [], sampleIteration ["Message:z"],
    sampleStart ["Message:a"], innerComponent "Message:a" .other [],
    plainComponent "Message:z" .other [] []], by decide⟩

def isLine (x : String) : Prop := x = "Message:a"

instance : DecidablePred isLine := fun x => inferInstanceAs (Decidable (x = "Message:a"))

/-- The start has been put on the path after `begin` and `Iteration:i`. -/
def enteredState (idx : Int) : IterationState String :=
  ⟨⟨["begin", "Iteration:i", "IterationItem:s"], 2, .running⟩,
    ⟨idx, none, none, fun _ => [], false⟩⟩

def readsList (items : List String) : ItemReads String := ⟨some items, fun _ _ => "answer"⟩

def atEnd : Outcome := ⟨false, [], true⟩

def lineTurns : List (IterationTurn String) × IterationState String :=
  execute (takeIteration lineCanvas (sampleStart ["Message:a"]) (sampleIteration ["Message:z"]))
    [([quiet], [readsList ["x"]]), ([quiet], []), ([atEnd], [readsList ["x"]]), ([quiet], [])] []
    (enteredState 0)

theorem lineBody : IterationBody lineCanvas (sampleStart ["Message:a"])
    (sampleIteration ["Message:z"]) isLine where
  known := by decide +kernel
  kind := rfl
  within := by decide +kernel
  container := rfl
  start := by decide +kernel
  startOutside := by decide +kernel
  edges := by decide +kernel
  after := by decide +kernel

def plainTurn [DecidableEq V] (canvas : Canvas) (cpn parent : Component) (body : String → Prop)
    [DecidablePred body] (items : List V) (e : IterationTurn V) : Bool :=
  match e.turn.done with
  | [d] =>
      e.reads.all (fun reads => decide (reads.items = some items)) &&
      e.turn.batch.all (fun x => (canvas.get? x).all (fun c => c.references.isEmpty)) &&
      decide (parent.id ∉ e.turn.batch) &&
      if body d.1 then decide (handed canvas d.1 d.2 = [cpn.id] ∧ jumps canvas d.1 d.2 = false ∧
        d.1 ≠ cpn.id)
      else decide ((d.1 ≠ cpn.id → ∀ x ∈ handed canvas d.1 d.2, ¬ body x ∧ x ≠ cpn.id) ∧
        ∀ x ∈ handed canvas d.1 d.2, e.turn.ran.getLast? ≠ some x)
  | _ => false

theorem entryTurn_of_plain [DecidableEq V] [DecidablePred body]
    (h : plainTurn canvas cpn parent body items e = true) :
    EntryTurn canvas cpn parent body items e := by
  unfold plainTurn at h
  split at h
  · next d hdone =>
    simp only [Bool.and_eq_true, all_eq_true, decide_eq_true_eq] at h
    obtain ⟨⟨⟨hlist, hrefs⟩, hagain⟩, hhanded⟩ := h
    have honly : ∀ d' ∈ e.turn.done, d' = d := by simp [hdone]
    have hpasses : ∀ x ∈ e.turn.batch, ∀ c, canvas.get? x = some c → ∀ passed rest,
        c.ready passed rest = true := by
      intro x hx c hget passed rest
      have hnone := hrefs x hx
      simp only [hget, Option.all_some, List.isEmpty_iff] at hnone
      simp [Component.ready, hnone]
    have hready : ∀ front x back kept, e.turn.batch = front ++ x :: back →
        (body x ∨ x = cpn.id) → Batch canvas e.turn.before.passed front kept →
        ∀ c, canvas.get? x = some c → c.ready (e.turn.before.passed ++ kept) (x :: back) = true :=
      fun front x back kept hsplit _ _ c hget => hpasses x (by simp [hsplit]) c hget _ _
    split at hhanded
    · next hbody =>
      obtain ⟨hback, hjumps, hstart⟩ := of_decide_eq_true hhanded
      refine ⟨⟨?_, ?_⟩, hlist, hagain, hready, ?_, ?_, ?_⟩
      · intro d' hd' _ x hx
        rw [honly d' hd', hback, mem_singleton] at hx
        rw [honly d' hd']
        exact ⟨.inr hx, fun hsame => hstart (hsame.symm.trans hx)⟩
      · intro d' hd' hnot
        rw [honly d' hd'] at hnot
        exact absurd hbody hnot
      · intro d' hd' _
        rw [honly d' hd', hback]
        exact cons_ne_nil _ _
      · intro d' hd' _ _
        refine ⟨[], [d], [], hdone, by simp, ?_⟩
        intro d'' hd''
        rw [mem_singleton.mp hd'']
        exact .inl ⟨hback, hjumps⟩
      · intro d' hd' hsame
        rw [honly d' hd'] at hsame
        exact absurd hsame hstart
    · next hbody =>
      obtain ⟨houtside, hlast⟩ := of_decide_eq_true hhanded
      refine ⟨⟨?_, ?_⟩, hlist, hagain, hready, ?_, ?_, ?_⟩
      · intro d' hd' hnot
        rw [honly d' hd'] at hnot
        exact absurd hnot hbody
      · intro d' hd' _ hstart _
        rw [honly d' hd'] at hstart ⊢
        exact houtside hstart
      iterate 2
        · intro d' hd' hnot
          rw [honly d' hd'] at hnot
          exact absurd hnot hbody
      · intro d' hd' _
        rw [honly d' hd']
        exact hlast
  · cases h

theorem iterates_line :
    shownOf lineTurns.1 = [.item 0 "x", .ended] ∧
    lineTurns.2.item.lists "out" = ["answer"] ∧
    Iterates lineCanvas (sampleStart ["Message:a"]) (sampleIteration ["Message:z"]) isLine ["x"]
      lineTurns.1 lineTurns.2 := by
  refine ⟨by decide +kernel, by decide +kernel, ?_⟩
  have hentry : Entered lineCanvas (sampleStart ["Message:a"]) (sampleIteration ["Message:z"]) isLine
      (enteredState 0) :=
    ⟨rfl, ⟨by decide +kernel, by decide +kernel⟩, rfl, rfl, fun _ _ => rfl⟩
  have hplain : ∀ e ∈ lineTurns.1, plainTurn lineCanvas (sampleStart ["Message:a"])
      (sampleIteration ["Message:z"]) isLine ["x"] e = true := by decide +kernel
  exact iterates lineBody hentry (iterations_run (by decide +kernel))
    (fun e he => entryTurn_of_plain (hplain e he))

def freshState : IterationState String :=
  ⟨startState [], ⟨0, none, none, fun _ => [], false⟩⟩

/-- The Iteration of `lineCanvas`, with a switch behind it that can lead back to it. -/
def reentryCanvas : Canvas :=
  ⟨[plainComponent "begin" .begin ["Iteration:i"] [], sampleIteration ["Switch:w"],
    sampleStart ["Message:a"], innerComponent "Message:a" .other [],
    plainComponent "Switch:w" .switch [] []], by decide⟩

def branchCanvas : Canvas :=
  ⟨[plainComponent "begin" .begin ["Iteration:i"] [], sampleIteration ["Message:z"],
    sampleStart ["Message:a", "Message:b"], innerComponent "Message:a" .other ["Message:c"],
    innerComponent "Message:b" .other [], innerComponent "Message:c" .other [],
    plainComponent "Message:z" .other [] []], by decide⟩

def isBranch (x : String) : Prop := x ∈ ["Message:a", "Message:b", "Message:c"]

/-- A first entry with two items, the switch back to the Iteration, and the start put on
    the path for the second entry. -/
def secondEntry : List (IterationTurn String) × IterationState String :=
  execute (takeIteration reentryCanvas (sampleStart ["Message:a"]) (sampleIteration ["Switch:w"]))
    [([quiet], []), ([quiet], []), ([quiet], [readsList ["x", "y"]]), ([quiet], []),
      ([quiet], [readsList ["x", "y"]]), ([quiet], []), ([atEnd], [readsList ["x", "y"]]),
      ([⟨false, ["Iteration:i"], false⟩], []), ([quiet], [])] [] freshState

def secondEntryTurns : List (IterationTurn String) × IterationState String :=
  execute (takeIteration reentryCanvas (sampleStart ["Message:a"]) (sampleIteration ["Switch:w"]))
    [([quiet], [readsList ["x", "y"]])] [] secondEntry.2

def branchEntry : List (IterationTurn String) × IterationState String :=
  execute (takeIteration branchCanvas (sampleStart ["Message:a", "Message:b"])
    (sampleIteration ["Message:z"])) [([quiet], []), ([quiet], [])] [] freshState

def branchTurns : List (IterationTurn String) × IterationState String :=
  execute (takeIteration branchCanvas (sampleStart ["Message:a", "Message:b"])
    (sampleIteration ["Message:z"]))
    [([quiet], [readsList ["x", "y"]]), ([quiet, quiet], []),
      ([quiet, quiet], [readsList ["x", "y"]])] [] branchEntry.2

/-- The second entry of an Iteration shows the last item first; and the second item is
    shown while the long branch of the first is still to run. -/
theorem rounds_go_wrong :
    (Run (IterationStep reentryCanvas (sampleStart ["Message:a"]) (sampleIteration ["Switch:w"]))
        freshState secondEntry.1 secondEntry.2 ∧
      secondEntry.2.run.pending = ["IterationItem:s"] ∧
      Run (IterationStep reentryCanvas (sampleStart ["Message:a"]) (sampleIteration ["Switch:w"]))
        secondEntry.2 secondEntryTurns.1 secondEntryTurns.2 ∧
      shownOf secondEntryTurns.1 = [.item (-1) "y"] ∧
      ¬ Iterates reentryCanvas (sampleStart ["Message:a"]) (sampleIteration ["Switch:w"]) isLine
        ["x", "y"] secondEntryTurns.1 secondEntryTurns.2) ∧
    (Run (IterationStep branchCanvas (sampleStart ["Message:a", "Message:b"])
        (sampleIteration ["Message:z"])) freshState branchEntry.1 branchEntry.2 ∧
      branchEntry.2.run.pending = ["IterationItem:s"] ∧
      Run (IterationStep branchCanvas (sampleStart ["Message:a", "Message:b"])
        (sampleIteration ["Message:z"])) branchEntry.2 branchTurns.1 branchTurns.2 ∧
      ¬ Iterates branchCanvas (sampleStart ["Message:a", "Message:b"])
        (sampleIteration ["Message:z"]) isBranch ["x", "y"] branchTurns.1 branchTurns.2) := by
  refine ⟨⟨iterations_run (by decide +kernel), by decide +kernel, iterations_run (by decide +kernel),
    by decide +kernel, ?_⟩, iterations_run (by decide +kernel), by decide +kernel,
    iterations_run (by decide +kernel), ?_⟩
  · intro hiterates
    have hwrong : ¬ shownOf secondEntryTurns.1 <+: shownItems ["x", "y"] ++ [.ended] := by
      decide +kernel
    exact hwrong hiterates.inOrder
  · intro hiterates
    obtain ⟨later, earlier, first, hhist, hstart, hput⟩ :
        ∃ later earlier first, branchTurns.1 = [] ++ later :: ([] ++ earlier :: [first]) ∧
          "IterationItem:s" ∈ later.turn.ran ∧ "Message:c" ∈ earlier.turn.put :=
      ⟨_, _, _, rfl, by decide +kernel, by decide +kernel⟩
    obtain ⟨e, he, -⟩ := hiterates.rounds [] later [] earlier [first] hhist hstart "Message:c" hput
      (by simp [isBranch])
    cases he

end MultiRag.Agent
