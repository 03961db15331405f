/-
  **A phase is skipped only if it was carried out for the stored graph.**

  A marker is the digest of some completion (`Inv.markers`), and the graph a process checks
  markers with is the stored one (`StageInv`): it was read and nothing was written since, or
  `set_graph` has just returned it.
-/
import MultiRag.GraphPhases

namespace MultiRag.GraphRag.Phases

open List Function
open Option (some.inj some.injEq)

variable {δ : Type} {D : Deployment δ} {s s' : KbState δ}

/-! ### `set_graph` -/

/-- An attempt never deletes the checkpoint, and prunes only once it is written. -/
def Writes (store : Store) (a : Attempt) : Prop :=
  .checkpoint ∉ a.stale.toOption.getD [] ∧
    ∀ ids, a.writing = .pruning ids →
      .checkpoint ∉ ids ∧ store.get? .checkpoint = some (checkpointChunk a.next)

variable {change : GraphChange}

theorem checkpoint_not_stale {g : Graph} {canonical : Id → Bool} {rows : List Row} :
    Id.checkpoint ∉ (staleIds g change canonical rows).toOption.getD [] := by
  cases hstale : staleIds g change canonical rows with
  | error error => simp [Except.toOption]
  | ok ids =>
    simp only [Except.toOption, Option.getD_some]
    rw [(staleIds_ok hstale).2]
    rintro ⟨row, -, hpk, htrue⟩
    rw [staleRow_new (hpk ▸ checkpoint_mem_newIds)] at htrue
    simp at htrue

variable {prep : Preparation} {store : Store} {revision : String} {a : Attempt}

theorem beginSetGraph_some {graph : Graph}
    (h : beginSetGraph prep store graph change revision = some a) :
    a.next = graph.revised revision ∧ Id.checkpoint ∉ a.stale.toOption.getD [] ∧
      ∃ rows, a.writing = .auxiliary rows ∧ ∀ row ∈ rows, row ∈ auxiliaryChunks a.next a.change := by
  unfold beginSetGraph at h
  simp only at h
  split at h
  · cases h
    exact ⟨rfl, checkpoint_not_stale, _, rfl, fun row hrow => (prep.perm _).mem_iff.mp hrow⟩
  · cases h

theorem writes_begin {graph : Graph} (h : beginSetGraph prep store graph change revision = some a) :
    Writes store a := by
  obtain ⟨-, hstale, rows, hwriting, -⟩ := beginSetGraph_some h
  refine ⟨hstale, fun ids hids => ?_⟩
  simp [hwriting] at hids

theorem writes_writeRow {store' : Store} {a' : Attempt} (h : Writes store a)
    (hwrite : writeRow store a = some (a', store')) : Writes store' a' := by
  unfold writeRow at hwrite
  split at hwrite
  · cases hwrite
    exact ⟨h.1, fun ids hids => by simp at hids⟩
  · cases hwrite
    refine ⟨h.1, fun ids hids => ?_⟩
    obtain rfl := Writing.pruning.inj hids
    refine ⟨h.1, ?_⟩
    rw [Table.get?_upsert]
    exact if_pos rfl
  · next id ids hwriting =>
    cases hwrite
    obtain ⟨hkept, hget⟩ := h.2 _ hwriting
    rw [mem_cons, not_or] at hkept
    refine ⟨h.1, fun ids' hids' => ?_⟩
    obtain rfl := Writing.pruning.inj hids'
    refine ⟨hkept.2, ?_⟩
    rw [Table.get?_delete, if_neg (Ne.symm hkept.1), hget]
  · cases hwrite

theorem checkpointed_of_get? {g : Graph} (h : store.get? .checkpoint = some (checkpointChunk g)) :
    Checkpointed store (some g) :=
  ⟨_, Table.mem_of_get? h, rfl, rfl, .inl rfl⟩

theorem get?_of_returns (h : Writes store a) (hreturns : returns a = true) :
    store.get? .checkpoint = some (checkpointChunk a.next) := by
  unfold returns at hreturns
  split at hreturns
  · next hwriting => exact (h.2 _ hwriting).2
  · cases hreturns

theorem stored_of_returns (h : Writes store a) (hreturns : returns a = true) :
    Stored store a.next :=
  ⟨a.next, getGraph_checkpointed (checkpointed_of_get? (get?_of_returns h hreturns)) [], .refl _⟩

/-! ### The invariant -/

/-- Nothing was written for the document. -/
def Build.untouched : Build → Bool
  | .waiting => true
  | .extracting => true
  | .done none => true
  | _ => false

/-- The rest of the writes leaves exactly the reports that were found. -/
def ReportsLeft (reports : Reports) (a : ReportAttempt) : Prop :=
  ∀ row, row ∈ reports.writeAll a.writes ↔ row ∈ a.found

def StageInv (store : Store) (reports : Reports) (completions : List Completion) (inputs : Inputs) :
    Stage → Prop
  | .building persisted build =>
      (∀ docId, docId ∉ inputs.documents → build docId = .waiting) ∧
      ((∀ docId, (build docId).untouched = true) → ∀ g, persisted = some g → Stored store g)
  | .merging final _ remaining failed _ attempt =>
      (failed = false → remaining = [] → ∀ g, final = some g → Stored store g) ∧
      ∀ a, attempt = some a → remaining ≠ [] ∧ Writes store a
  | .checking _ final => Stored store final
  | .resolving _ attempt => ∀ a, attempt = some a → Writes store a
  | .extracting final attempt => Stored store final ∧ ∀ a, attempt = some a → ReportsLeft reports a
  | .marking phase final => Stored store final ∧
      ∃ c ∈ completions, c.phase = phase ∧ c.inputs = inputs ∧ c.graph = final
  | .finished _ => True

structure Inv (D : Deployment δ) (s : KbState δ) : Prop where
  completions : ∀ c ∈ s.completions, c.Persisted
  markers : ∀ phase m, s.markers phase = some m →
    ∃ c ∈ s.completions, c.phase = phase ∧ m = phaseRevision D c.inputs phase c.graph
  process : ∀ inputs stage, s.process = some (inputs, stage) →
    StageInv s.store s.reports s.completions inputs stage

theorem inv_idle (store : Store) (reports : Reports) : Inv D (KbState.idle store reports) where
  completions _ h := absurd h not_mem_nil
  markers _ _ h := by cases h
  process _ _ h := by cases h

variable {reports : Reports} {inputs : Inputs}

theorem Inv.goOn (h : Inv D s) {stage : Stage}
    (hstage : StageInv store reports s.completions inputs stage) :
    Inv D ({ s with store := store, reports := reports }.goOn inputs stage) := { h with
  process inputs' stage' hproc := by
    obtain ⟨rfl, rfl⟩ := hproc
    exact hstage }

theorem Inv.ended (h : Inv D s) : Inv D s.ended := { h with
  process _ _ hproc := by cases hproc }

variable {kept : Phase → Bool} {phase : Phase}

theorem of_clearMarkers {markers : Phase → Option δ} {m : δ}
    (h : clearMarkers markers kept phase = some m) : markers phase = some m := by
  unfold clearMarkers at h
  split at h
  · exact h
  · cases h

theorem Inv.clear (h : Inv D s) (kept : Phase → Bool) :
    Inv D { s with markers := clearMarkers s.markers kept } := { h with
  markers phase m hm := h.markers phase m (of_clearMarkers hm) }

variable {completions : List Completion}

theorem StageInv.complete {stage : Stage} (c : Completion)
    (h : StageInv store reports completions inputs stage) :
    StageInv store reports (c :: completions) inputs stage := by
  cases stage with
  | marking phase final =>
    obtain ⟨hstored, c', hc', hrest⟩ := h
    exact ⟨hstored, c', mem_cons_of_mem _ hc', hrest⟩
  | _ => exact h

theorem Inv.complete (h : Inv D s) {c : Completion} (hc : c.Persisted) :
    Inv D { s with completions := c :: s.completions } where
  completions := by
    rw [forall_mem_cons]
    exact ⟨hc, h.completions⟩
  markers phase m hm := by
    obtain ⟨c', hc', hrest⟩ := h.markers phase m hm
    exact ⟨c', mem_cons_of_mem _ hc', hrest⟩
  process inputs stage hproc := (h.process inputs stage hproc).complete c

/-! ### One lemma for each action -/

theorem inv_start (h : Inv D s) (hstep : KbState.start D inputs s = some s') :
    Inv D s' := by
  unfold KbState.start at hstep
  split at hstep
  · cases hstep
  · split at hstep
    · cases hstep
      exact h.goOn trivial
    · split at hstep
      · next persisted hgraph =>
        cases hstep
        refine h.goOn ⟨fun _ _ => rfl, fun _ g hg => ?_⟩
        rw [Option.map_eq_some_iff] at hg
        obtain ⟨stored, rfl, rfl⟩ := hg
        exact ⟨stored, hgraph, D.rereadSame stored⟩
      · cases hstep

variable {persisted : Option Graph} {build : String → Build} {docId : String}

theorem mem_of_not_waiting
    (h : StageInv store reports completions inputs (.building persisted build))
    (hbuild : build docId ≠ .waiting) : docId ∈ inputs.documents := by
  by_contra hdoc
  exact hbuild (h.1 docId hdoc)

section

variable (h : StageInv s.store s.reports completions inputs (.building persisted build))
  (hdoc : docId ∈ inputs.documents)
include h hdoc

theorem stageInv_building {b : Build} (hb : b.untouched = true → (build docId).untouched = true) :
    StageInv s.store s.reports completions inputs (.building persisted (update build docId b)) := by
  refine ⟨fun other hother => ?_, fun hall => h.2 fun other => ?_⟩
  · rw [update_of_ne (by rintro rfl; exact hother hdoc)]
    exact h.1 other hother
  · have hother := hall other
    by_cases heq : other = docId
    · subst heq
      rw [update_self] at hother
      exact hb hother
    · rwa [update_of_ne heq] at hother

theorem stageInv_touched {b : Build} (hb : b.untouched = false) :
    StageInv store s.reports completions inputs (.building persisted (update build docId b)) := by
  refine ⟨fun other hother => ?_, fun hall => ?_⟩
  · rw [update_of_ne (by rintro rfl; exact hother hdoc)]
    exact h.1 other hother
  · have hself := hall docId
    rw [update_self, hb] at hself
    cases hself

end

theorem inv_load (h : Inv D s) (hstep : s.load docId = some s') : Inv D s' := by
  unfold KbState.load at hstep
  split at hstep
  · next inputs persisted build hproc =>
    have hstage := h.process _ _ hproc
    split at hstep
    · next hwait =>
      rw [Bool.and_eq_true, contains_iff_mem] at hwait
      obtain ⟨hdoc, hwait⟩ := hwait
      have huntouched : (build docId).untouched = true := by
        unfold Build.isWaiting at hwait
        split at hwait
        · next heq => rw [heq]; rfl
        · cases hwait
      have hbuilt : ∀ b, Inv D (s.goOn inputs (.building persisted (update build docId b))) :=
        fun b => h.goOn (stageInv_building hstage hdoc fun _ => huntouched)
      split at hstep
      · exact some.inj hstep ▸ hbuilt _
      · split at hstep
        · exact some.inj hstep ▸ hbuilt _
        · exact some.inj hstep ▸ hbuilt _
        · cases hstep
    · cases hstep
  · cases hstep

theorem inv_extract {extracted : Graph} (h : Inv D s) (hstep : s.extract docId extracted = some s') :
    Inv D s' := by
  unfold KbState.extract at hstep
  split at hstep
  · next inputs persisted build graph hproc hgraph =>
    have hstage := h.process _ _ hproc
    split at hstep
    · next hbuild =>
      have hne : build docId ≠ .waiting := by simp [hbuild]
      have hdoc := mem_of_not_waiting hstage hne
      split at hstep
      · cases hstep
        exact h.goOn (stageInv_touched hstage hdoc rfl)
      · cases hstep
        exact h.goOn (stageInv_touched hstage hdoc rfl)
    · cases hstep
  · cases hstep

theorem inv_discard (h : Inv D s) (hstep : s.discard docId = some s') : Inv D s' := by
  unfold KbState.discard at hstep
  split at hstep
  · next inputs persisted build hproc =>
    have hstage := h.process _ _ hproc
    split at hstep
    iterate 2
      · next hbuild =>
        cases hstep
        exact h.goOn (stageInv_touched hstage (mem_of_not_waiting hstage (by simp [hbuild])) rfl)
    · cases hstep
  · cases hstep

theorem inv_fail (h : Inv D s) (hstep : s.fail docId = some s') : Inv D s' := by
  unfold KbState.fail at hstep
  split at hstep
  · next inputs persisted build hproc =>
    have hstage := h.process _ _ hproc
    split at hstep
    iterate 2
      · next hbuild =>
        cases hstep
        exact h.goOn (stageInv_touched hstage (mem_of_not_waiting hstage (by simp [hbuild])) rfl)
    · cases hstep
  · cases hstep

theorem untouched_of_settled
    (hwait : ∀ docId, docId ∉ inputs.documents → build docId = .waiting)
    (hsettled : ∀ docId ∈ inputs.documents, (build docId).isSettled = true)
    (hok : (inputs.documents.filter fun docId => (build docId).subgraph?.isSome) = [])
    (hfailed : (inputs.documents.any fun docId => (build docId).isFailed) = false) (docId : String) :
    (build docId).untouched = true := by
  by_cases hdoc : docId ∈ inputs.documents
  · have hnone := filter_eq_nil_iff.mp hok docId hdoc
    have hlive := any_eq_false.mp hfailed docId hdoc
    have hdone := hsettled docId hdoc
    cases hbuild : build docId with
    | done subgraph =>
      rw [hbuild] at hnone
      cases subgraph with
      | none => rfl
      | some subgraph => simp [Build.subgraph?] at hnone
    | failed => simp [hbuild, Build.isFailed] at hlive
    | _ => simp [hbuild, Build.isSettled] at hdone
  · rw [hwait docId hdoc]
    rfl

section

variable (h : Inv D s)
include h

theorem inv_merge (hstep : s.merge = some s') : Inv D s' := by
  unfold KbState.merge at hstep
  split at hstep
  · next inputs persisted build hproc =>
    obtain ⟨hwait, hstored⟩ := h.process _ _ hproc
    split at hstep
    · next hsettled =>
      simp only at hstep
      split at hstep
      · cases hstep
        exact h.goOn trivial
      · cases hstep
        refine h.goOn ⟨fun hfailed hok g hg => ?_, fun a ha => by cases ha⟩
        apply hstored _ g hg
        exact untouched_of_settled hwait (all_eq_true.mp hsettled) hok hfailed
    · cases hstep
  · cases hstep

theorem inv_clear (hstep : s.clear kept = some s') : Inv D s' := by
  unfold KbState.clear at hstep
  split at hstep
  · next inputs final subgraphs docId rest failed hproc =>
    cases hstep
    have hstage := h.process _ _ hproc
    exact (h.clear kept).goOn hstage
  · cases hstep

theorem inv_attempt (hstep : KbState.attempt D prep revision kept s = some s') :
    Inv D s' := by
  unfold KbState.attempt at hstep
  split at hstep
  · next inputs final subgraphs docId rest failed current hproc hgraph =>
    split at hstep
    · next graph change hplan =>
      rw [Option.map_eq_some_iff] at hstep
      obtain ⟨a, hbegin, rfl⟩ := hstep
      have hnext : StageInv s.store s.reports s.completions inputs
          (.merging final subgraphs (docId :: rest) failed true (some a)) := by
        refine ⟨fun _ hnil => absurd hnil (cons_ne_nil _ _), fun a' ha' => ?_⟩
        obtain rfl := some.inj ha'
        exact ⟨cons_ne_nil _ _, writes_begin hbegin⟩
      exact (h.clear kept).goOn hnext
    · cases hstep
  · cases hstep

theorem inv_write (hstep : s.write = some s') : Inv D s' := by
  unfold KbState.write at hstep
  split at hstep
  · next inputs final subgraphs remaining failed cleared a hproc =>
    obtain ⟨-, hwrites⟩ := h.process _ _ hproc
    rw [Option.map_eq_some_iff] at hstep
    obtain ⟨⟨a', store⟩, hwrite, rfl⟩ := hstep
    obtain ⟨hne, hwrites⟩ := hwrites a rfl
    refine h.goOn ⟨fun _ hnil => absurd hnil hne, fun a'' ha'' => ?_⟩
    obtain rfl := some.inj ha''
    exact ⟨hne, writes_writeRow hwrites hwrite⟩
  · next inputs final a hproc =>
    have hwrites := h.process _ _ hproc
    rw [Option.map_eq_some_iff] at hstep
    obtain ⟨⟨a', store⟩, hwrite, rfl⟩ := hstep
    refine h.goOn fun a'' ha'' => ?_
    exact some.inj ha'' ▸ writes_writeRow (hwrites a rfl) hwrite
  · next inputs final found w writes hproc =>
    obtain ⟨hstored, hleft⟩ := h.process _ _ hproc
    cases hstep
    refine h.goOn ⟨hstored, fun a ha => ?_⟩
    exact some.inj ha ▸ hleft _ rfl
  · cases hstep

theorem inv_finish (hstep : s.finish = some s') : Inv D s' := by
  unfold KbState.finish at hstep
  split at hstep
  · next inputs final subgraphs docId rest failed cleared a hproc =>
    obtain ⟨-, hwrites⟩ := h.process _ _ hproc
    split at hstep
    · next hreturns =>
      cases hstep
      refine h.goOn ⟨fun _ _ g hg => ?_, fun a ha => by cases ha⟩
      exact some.inj hg ▸ stored_of_returns (hwrites a rfl).2 hreturns
    · cases hstep
  · next inputs final a hproc =>
    have hwrites := h.process _ _ hproc
    split at hstep
    · next hreturns =>
      cases hstep
      have hstored := stored_of_returns (hwrites a rfl) hreturns
      have hpersisted : Completion.Persisted ⟨.resolution, inputs, a.next, s.store, s.reports, []⟩ :=
        ⟨hstored, fun hphase => by cases hphase⟩
      exact (h.complete hpersisted).goOn ⟨hstored, _, mem_cons_self, rfl, rfl, rfl⟩
    · cases hstep
  · next inputs final found hproc =>
    obtain ⟨hstored, hleft⟩ := h.process _ _ hproc
    cases hstep
    have hpersisted : Completion.Persisted ⟨.community, inputs, final, s.store, s.reports, found⟩ :=
      ⟨hstored, fun _ => hleft _ rfl⟩
    exact (h.complete hpersisted).goOn ⟨hstored, _, mem_cons_self, rfl, rfl, rfl⟩
  · cases hstep

theorem inv_retry (hstep : s.retry = some s') : Inv D s' := by
  unfold KbState.retry at hstep
  split at hstep
  · next inputs final subgraphs remaining failed cleared a hproc =>
    obtain ⟨hstored, -⟩ := h.process _ _ hproc
    cases hstep
    exact h.goOn ⟨hstored, fun a ha => by cases ha⟩
  · cases hstep
    exact h.goOn fun a ha => by cases ha
  · next inputs final a hproc =>
    obtain ⟨hstored, -⟩ := h.process _ _ hproc
    cases hstep
    exact h.goOn ⟨hstored, fun a ha => by cases ha⟩
  · cases hstep

theorem inv_conclude (hstep : s.conclude = some s') : Inv D s' := by
  unfold KbState.conclude at hstep
  split at hstep
  · next inputs final subgraphs cleared hproc =>
    cases hstep
    exact h.goOn ((h.process _ _ hproc).1 rfl rfl final rfl)
  · split at hstep
    · cases hstep
    · cases hstep
      exact h.goOn trivial
  · cases hstep

end

theorem stageInv_after {final : Graph} (h : Stored store final) :
    StageInv store reports completions inputs (KbState.after phase final) := by
  cases phase with
  | resolution => exact h
  | community => trivial

theorem stageInv_first {final : Graph} (h : Stored store final) :
    StageInv store reports completions inputs (KbState.first phase final) := by
  cases phase with
  | resolution => exact fun a ha => by cases ha
  | community => exact ⟨h, fun a ha => by cases ha⟩

variable (h : Inv D s)
include h

theorem inv_pass (hstep : s.pass = some s') : Inv D s' := by
  unfold KbState.pass at hstep
  split at hstep
  · next inputs phase final hproc =>
    split at hstep
    · cases hstep
    · cases hstep
      exact h.goOn (stageInv_after (h.process _ _ hproc))
  · cases hstep

theorem inv_unreadable (hstep : s.unreadable = some s') : Inv D s' := by
  unfold KbState.unreadable at hstep
  split at hstep
  · next inputs phase final hproc =>
    split at hstep
    · cases hstep
      exact h.goOn (stageInv_first (h.process _ _ hproc))
    · cases hstep
  · cases hstep

theorem inv_resolve {next : Graph}
    (hstep : s.resolve prep next change revision kept = some s') : Inv D s' := by
  unfold KbState.resolve at hstep
  split at hstep
  · next inputs final hproc =>
    split at hstep
    · rw [Option.map_eq_some_iff] at hstep
      obtain ⟨a, hbegin, rfl⟩ := hstep
      have hnext : StageInv s.store s.reports s.completions inputs (.resolving final (some a)) :=
        fun a' ha' => some.inj ha' ▸ writes_begin hbegin
      exact (h.clear kept).goOn hnext
    · cases hstep
  · cases hstep

theorem inv_report {found : List (String × Json)} (hstep : s.report found = some s') :
    Inv D s' := by
  unfold KbState.report at hstep
  split at hstep
  · next inputs final hproc =>
    obtain ⟨hstored, -⟩ := h.process _ _ hproc
    split at hstep
    · next hnodup =>
      cases hstep
      refine h.goOn ⟨hstored, fun a ha => ?_⟩
      obtain rfl := some.inj ha
      intro row
      refine Table.mem_writeAll_replace hnodup fun title => ?_
      simp only [List.mem_filter, mem_map, Bool.not_eq_true', contains_eq_mem, decide_eq_false_iff_not,
        not_exists, not_and, Table.mem_def]
    · cases hstep
  · cases hstep

theorem inv_mark (hstep : KbState.mark D s = some s') : Inv D s' := by
  unfold KbState.mark at hstep
  split at hstep
  · next inputs phase final hproc =>
    obtain ⟨hstored, c, hc, hphase, hinputs, hgraph⟩ := h.process _ _ hproc
    cases hstep
    have hmarked : Inv D
        { s with markers := update s.markers phase (some (phaseRevision D inputs phase final)) } := by
      refine ⟨h.completions, fun phase' m hm => ?_, h.process⟩
      simp only at hm
      by_cases heq : phase' = phase
      · subst heq
        rw [update_self, some.injEq] at hm
        exact ⟨c, hc, hphase, by rw [hinputs, hgraph, hm]⟩
      · rw [update_of_ne heq] at hm
        exact h.markers phase' m hm
    exact hmarked.goOn (stageInv_after hstored)
  · cases hstep

variable [DecidableEq δ]

theorem inv_skip (hstep : KbState.skip D s = some s') : Inv D s' := by
  unfold KbState.skip at hstep
  split at hstep
  · next inputs phase final hproc =>
    split at hstep
    · cases hstep
      exact h.goOn (stageInv_after (h.process _ _ hproc))
    · cases hstep
  · cases hstep

theorem inv_proceed (hstep : KbState.proceed D s = some s') : Inv D s' := by
  unfold KbState.proceed at hstep
  split at hstep
  · next inputs phase final hproc =>
    split at hstep
    · cases hstep
      exact h.goOn (stageInv_first (h.process _ _ hproc))
    · cases hstep
  · cases hstep

theorem inv_step {a : Action} (hstep : KbState.Step D s a s') : Inv D s' := by
  cases a with
  | start inputs => exact inv_start h hstep
  | load docId => exact inv_load h hstep
  | extract docId extracted => exact inv_extract h hstep
  | discard docId => exact inv_discard h hstep
  | fail docId => exact inv_fail h hstep
  | merge => exact inv_merge h hstep
  | clear kept => exact inv_clear h hstep
  | attempt prep revision kept => exact inv_attempt h hstep
  | write => exact inv_write h hstep
  | finish => exact inv_finish h hstep
  | retry => exact inv_retry h hstep
  | conclude => exact inv_conclude h hstep
  | pass => exact inv_pass h hstep
  | skip => exact inv_skip h hstep
  | proceed => exact inv_proceed h hstep
  | unreadable => exact inv_unreadable h hstep
  | resolve prep next change revision kept => exact inv_resolve h hstep
  | report found => exact inv_report h hstep
  | mark => exact inv_mark h hstep
  | markLost =>
    obtain ⟨marked, hmark, rfl⟩ := Option.map_eq_some_iff.mp hstep
    exact (inv_mark h hmark).ended
  | kill =>
    obtain rfl := some.inj hstep
    exact h.ended
  | outside store reports =>
    simp only [KbState.Step, KbState.perform] at hstep
    split at hstep
    · next hproc =>
      cases hstep
      refine ⟨h.completions, h.markers, fun inputs stage hsome => ?_⟩
      simp [hproc] at hsome
    · cases hstep

omit h

theorem inv_run {actions : List Action}
    (hrun : Run (KbState.Step D) (KbState.idle store reports) actions s) : Inv D s := by
  apply Run.invariant _ _ hrun
  · exact inv_idle store reports
  · exact fun _ _ _ h hstep => inv_step h hstep

def CarriedOut (s : KbState δ) (inputs : Inputs) (phase : Phase) (stored : Graph) : Prop :=
  ∃ c ∈ s.completions, c.phase = phase ∧ c.Persisted ∧ SameData c.graph stored ∧
    SameInputs phase c.inputs inputs c.graph stored

theorem carriedOut_of_skip (hinjective : Injective D.fingerprint) (h : Inv D s)
    (hstep : KbState.Step D s .skip s') :
    ∃ inputs phase final stored, s.process = some (inputs, .checking phase final) ∧
      getGraph s.store.rows [] = .ok (some stored) ∧ CarriedOut s inputs phase stored := by
  simp only [KbState.Step, KbState.perform, KbState.skip] at hstep
  split at hstep
  · next inputs phase final hproc =>
    split at hstep
    · next hfound =>
      rw [Bool.and_eq_true, decide_eq_true_eq] at hfound
      obtain ⟨stored, hgraph, hsame⟩ := h.process _ _ hproc
      obtain ⟨c, hc, hphase, hrev⟩ := h.markers phase _ hfound.2
      obtain ⟨hdata, hinputs⟩ := (material_eq_iff D).mp (hinjective hrev)
      refine ⟨inputs, phase, final, stored, hproc, hgraph, c, hc, hphase, h.completions c hc, ?_, ?_⟩
      · exact hdata.symm.trans hsame
      · refine ⟨hinputs.graphrag.symm, hinputs.model.symm, fun hresolution => ?_⟩
        exact (hinputs.candidates hresolution).symm.trans (hsame.candidates inputs.docIds)
    · cases hstep
  · cases hstep

end MultiRag.GraphRag.Phases
