/-
  **A batch left alone collects what has expired.**

  `EndOnce` does not promise an end. In a database without open transactions a batch removes the
  first candidates of its snapshot, so repeated batches leave none that has expired.
-/
import MultiRag.CandidateLifecycle

namespace MultiRag.History

open List

/-! ### The DELETE of a batch -/

theorem deleteRows_candidates (ids : List String) (s : HistoryStore) :
    (deleteRows ids s).candidates.rows =
      s.candidates.rows.filter fun metadata => metadata.candidateSessionId ∉ ids := by
  induction ids generalizing s with
  | nil => simp [deleteRows]
  | cons id ids ih =>
    have hrest := ih (s.deleteCanvas id)
    rw [deleteRows, foldl_cons, ← deleteRows, hrest]
    simp only [HistoryStore.deleteCanvas, Table.filter, filter_filter, mem_cons, not_or]
    apply filter_congr
    intro metadata _
    by_cases h : metadata.candidateSessionId = id <;> simp [h]

section

variable {τ : Type} [DecidableEq τ] {stripReasoning : String → String} {loads : String → Option Json}
  {w w' : World τ} {t : τ} {changes : Changes} {now : Int} {batchSize : Nat} {s : HistoryStore}

theorem mem_explicitSnapshot {id : String} : id ∈ explicitSnapshot now s ↔
    ∃ metadata ∈ s.candidates, metadata.expiresAt ≤ now ∧ metadata.candidateSessionId = id ∧
      (s.canvas.get? id).isSome := by
  simp only [explicitSnapshot, mem_map, mem_insertionSort, List.mem_filter,
    Bool.and_eq_true, decide_eq_true_eq, Table.mem_def]
  constructor
  · rintro ⟨metadata, ⟨hmem, hexp, hrow⟩, rfl⟩
    exact ⟨metadata, hmem, hexp, rfl, hrow⟩
  · rintro ⟨metadata, hmem, hexp, rfl, hrow⟩
    exact ⟨metadata, ⟨hmem, hexp, hrow⟩, rfl⟩

theorem nodup_explicitSnapshot (hsessions : s.candidates.Unique (·.candidateSessionId))
    (now : Int) : (explicitSnapshot now s).Nodup := by
  have hrows : s.candidates.rows.Nodup := Nodup.of_map _ s.candidates.nodup
  refine (nodup_map_iff_inj_on ?_).mpr ?_
  · exact (perm_insertionSort _ _).nodup_iff.mpr (hrows.filter _)
  · intro a ha b hb heq
    rw [mem_insertionSort, List.mem_filter] at ha hb
    exact hsessions a ha.1 b hb.1 heq

theorem run_event {event : Event τ} (h : happen stripReasoning loads event w = some (changes, w'))
    (hguard : OwnedAtLock w event) :
    Run (GuardedStep stripReasoning loads) w [(event, changes)] w' :=
  Run.cons Run.nil ⟨h, hguard⟩

/-- Nothing happens but batches of one cleanup worker. -/
def CleanupOnly (t : τ) (now : Int) (batchSize : Nat) (hist : List (Event τ × Changes)) : Prop :=
  ∀ label ∈ hist, label.1 = .collect t now batchSize ∨ label.1 = .advance t []

def Alone (t : τ) (w : World τ) : Prop := ∀ t', t' ≠ t → w.phases t' = .idle

theorem Alone.goto (h : Alone t w) (phase : Phase) : Alone t (w.goto t phase) := by
  intro t' hne
  simpa [World.goto, Function.update_of_ne hne] using h t' hne

theorem Alone.free (h : Alone t w) (hsecured : Secured changes w) {id : String}
    (hid : id ∉ (w.phases t).holds) : w.locks id = none := by
  rcases hlock : w.locks id with - | t'
  · rfl
  · have hheld := hsecured.held id t' hlock
    by_cases heq : t' = t
    · exact absurd (heq ▸ hheld) hid
    · simp [h t' heq, Phase.holds, Phase.secured, Phase.doomed] at hheld

variable (stripReasoning loads) in
theorem scan_alone {snapshot doomed : List String} (hledger : Ledger changes w.store w.issued)
    (hsecured : Secured changes w) (halone : Alone t w)
    (hphase : w.phases t = .lockExplicit batchSize snapshot doomed)
    (hnodup : (doomed ++ snapshot).Nodup)
    (howned : ∀ id ∈ snapshot, ∃ metadata ∈ w.store.candidates, metadata.candidateSessionId = id) :
    ∃ hist w', Run (GuardedStep stripReasoning loads) w hist w' ∧
      (∀ label ∈ hist, label.1 = .advance t []) ∧ changesOf hist = [] ∧ Alone t w' ∧
      w'.store = w.store ∧ w'.issued = w.issued ∧
      w'.phases t = .selectLegacy batchSize (doomed ++ snapshot.take (batchSize - doomed.length)) := by
  induction snapshot generalizing w doomed with
  | nil =>
    have hrun : Run (GuardedStep stripReasoning loads) w [(.advance t [], [])]
        (w.goto t (.selectLegacy batchSize doomed)) :=
      run_event (by simp [happen, advance, hphase])
        (by simp [OwnedAtLock, Event.nextLock, World.nextLock, hphase])
    exact ⟨_, _, hrun, by simp, rfl, halone.goto _, rfl, rfl, by simp [World.goto]⟩
  | cons id snapshot ih =>
    have hguard : OwnedAtLock w (.advance t []) := by
      intro k hk
      simp only [Event.nextLock, World.nextLock, hphase, Option.mem_def, Option.ite_none_right_eq_some,
        Option.some.injEq] at hk
      exact hk.2 ▸ howned id mem_cons_self
    by_cases hroom : batchSize ≤ doomed.length
    · have hrun : Run (GuardedStep stripReasoning loads) w [(.advance t [], [])]
          (w.goto t (.selectLegacy batchSize doomed)) :=
        run_event (by simp [happen, advance, hphase, hroom]) hguard
      refine ⟨_, _, hrun, by simp, rfl, halone.goto _, rfl, rfl, ?_⟩
      simp [World.goto, Nat.sub_eq_zero_of_le hroom]
    · have hmore : batchSize - doomed.length = batchSize - (doomed.length + 1) + 1 := by omega
      obtain ⟨metadata, hmem, hid⟩ := howned id mem_cons_self
      have hfree : w.locks id = none := by
        refine halone.free hsecured ?_
        rw [hphase]
        exact fun hin => (nodup_append.mp hnodup).2.2 id hin id mem_cons_self rfl
      have hlock : tryLock w id (fun _ => true) = true := by
        obtain ⟨row, hrow⟩ := Option.isSome_iff_exists.mp (hledger.present metadata hmem)
        rw [hid] at hrow
        simp [tryLock, hfree, hrow]
      have hhappens : happen stripReasoning loads (.advance t []) w = some ([],
          (w.lock t id).goto t (.lockExplicit batchSize snapshot (doomed ++ [id]))) := by
        simp [happen, advance, hphase, hroom, hlock]
      obtain ⟨hledger', hsecured'⟩ := happen_kept hledger hsecured hguard hhappens
      have hnext : ((w.lock t id).goto t (.lockExplicit batchSize snapshot (doomed ++ [id]))).phases t =
          .lockExplicit batchSize snapshot (doomed ++ [id]) := by simp [World.goto]
      obtain ⟨hist, w', hrun, honly, hchanges, halone', hstore, hissued, hphase'⟩ :=
        ih hledger' hsecured' ((show Alone t (w.lock t id) from halone).goto _) hnext
          (by simpa using hnodup)
          (fun k hk => howned k (mem_cons_of_mem _ hk))
      refine ⟨hist ++ [(.advance t [], [])], w', (run_event hhappens hguard).append hrun, ?_, ?_, halone',
        hstore, hissued, ?_⟩
      · simpa [or_imp, forall_and] using honly
      · simpa [changesOf] using hchanges
      · rw [hphase', hmore, take_succ_cons]
        simp

variable (stripReasoning loads) in
theorem batch_alone (hledger : Ledger changes w.store w.issued) (hsecured : Secured changes w)
    (hidle : ∀ t, w.phases t = .idle) (t : τ) (now : Int) (batchSize : Nat) :
    ∃ hist w', Run (GuardedStep stripReasoning loads) w hist w' ∧ CleanupOnly t now batchSize hist ∧
      (∀ t, w'.phases t = .idle) ∧
      w'.store = deleteRows ((explicitSnapshot now w.store).take batchSize) w.store ∧
      changesOf hist = ((explicitSnapshot now w.store).take batchSize).map fun id => (id, .collected) := by
  let w₁ := w.goto t (.selectExplicit now batchSize)
  let w₂ := w₁.goto t (.lockExplicit batchSize (explicitSnapshot now w.store) [])
  have hstart : happen stripReasoning loads (.collect t now batchSize) w = some ([], w₁) := by
    simp [happen, World.begin, hidle t, w₁]
  have hselect : happen stripReasoning loads (.advance t []) w₁ = some ([], w₂) := by
    simp [happen, advance, w₁, w₂, World.goto]
  have hguard : OwnedAtLock w (.collect t now batchSize) := by simp [OwnedAtLock, Event.nextLock]
  have hguard₁ : OwnedAtLock w₁ (.advance t []) := by
    simp [OwnedAtLock, Event.nextLock, World.nextLock, w₁, World.goto]
  obtain ⟨hledger₁, hsecured₁⟩ := happen_kept hledger hsecured hguard hstart
  obtain ⟨hledger₂, hsecured₂⟩ := happen_kept hledger₁ hsecured₁ hguard₁ hselect
  have halone : Alone t w₂ := ((show Alone t w from fun t' _ => hidle t').goto _).goto _
  have hscanning : w₂.phases t = .lockExplicit batchSize (explicitSnapshot now w.store) [] := by
    simp [w₂, World.goto]
  obtain ⟨hist, w₃, hscan, honly, hchanges, halone₃, hstore, hissued, hphase⟩ :=
    scan_alone stripReasoning loads hledger₂ hsecured₂ halone hscanning
      (by simpa using nodup_explicitSnapshot hledger.sessions now)
      (fun id hid => by
        obtain ⟨metadata, hmem, -, heq, -⟩ := mem_explicitSnapshot.mp hid
        exact ⟨metadata, hmem, heq⟩)
  let doomed := (explicitSnapshot now w.store).take batchSize
  let w₄ := w₃.goto t (.lockLegacy batchSize [] doomed)
  let w₅ := w₄.goto t (.delete doomed)
  have hlegacy : happen stripReasoning loads (.advance t []) w₃ = some ([], w₄) := by
    simp [happen, advance, hphase, legacySnapshot, w₄, doomed]
  have hnone : happen stripReasoning loads (.advance t []) w₄ = some ([], w₅) := by
    simp [happen, advance, w₄, w₅, World.goto]
  have hdelete : happen stripReasoning loads (.advance t []) w₅ =
      some (doomed.map (fun id => (id, .collected)), w₅.finish t (deleteRows doomed w₅.store)) := by
    simp [happen, advance, w₅, World.goto]
  have hrun := ((((run_event hstart hguard).append (run_event hselect hguard₁)).append hscan).append
    (run_event hlegacy (by simp [OwnedAtLock, Event.nextLock, World.nextLock, hphase]))).append
    ((run_event hnone (by simp [OwnedAtLock, Event.nextLock, World.nextLock, w₄, World.goto])).append
      (run_event hdelete (by simp [OwnedAtLock, Event.nextLock, World.nextLock, w₅, World.goto])))
  refine ⟨_, _, hrun, ?_, fun t' => ?_, ?_, ?_⟩
  · simp only [CleanupOnly, mem_append, mem_singleton, or_imp, forall_and, forall_eq]
    simpa using fun event changes hmem => .inr (honly (event, changes) hmem)
  · by_cases hne : t' = t
    · simp [World.finish, hne]
    · simpa [World.finish, Function.update_of_ne hne] using ((halone₃.goto _).goto _) t' hne
  · simp [World.finish, w₅, w₄, World.goto, hstore, w₂, w₁, doomed]
  · have hempty : hist.flatMap Prod.snd = [] := hchanges
    simp [changesOf, hempty, doomed]

theorem expired_collected {w₀ : World τ} {hist : List (Event τ × Changes)} (hfresh : Fresh w₀)
    (hrun : Run (GuardedStep stripReasoning loads) w₀ hist w) (hidle : ∀ t, w.phases t = .idle)
    (t : τ) (now : Int) (hsize : 0 < batchSize) :
    ∃ later w', Run (GuardedStep stripReasoning loads) w later w' ∧ CleanupOnly t now batchSize later ∧
      ∀ metadata ∈ w.store.candidates, metadata.expiresAt ≤ now →
        (metadata.candidateSessionId, .collected) ∈ changesOf later := by
  -- each batch takes at least one ownership row away
  induction hn : w.store.candidates.rows.length using Nat.strong_induction_on generalizing w hist with
  | _ n ih =>
    obtain ⟨hledger, hsecured⟩ := accounts_of_run hfresh hrun
    by_cases hempty : explicitSnapshot now w.store = []
    · refine ⟨[], w, Run.nil, by simp [CleanupOnly], fun metadata hmem hexp => ?_⟩
      have hin : metadata.candidateSessionId ∈ explicitSnapshot now w.store :=
        mem_explicitSnapshot.mpr ⟨metadata, hmem, hexp, rfl, hledger.present metadata hmem⟩
      rw [hempty] at hin
      cases hin
    · obtain ⟨batch, w₁, hbatch, honly, hidle₁, hstore, hchanges⟩ :=
        batch_alone stripReasoning loads hledger hsecured hidle t now batchSize
      let taken := (explicitSnapshot now w.store).take batchSize
      have hrows : w₁.store.candidates.rows =
          w.store.candidates.rows.filter fun metadata => metadata.candidateSessionId ∉ taken := by
        rw [hstore]
        exact deleteRows_candidates taken w.store
      have hless : w₁.store.candidates.rows.length < n := by
        obtain ⟨id, hid⟩ := exists_mem_of_ne_nil taken (by simp [taken, hempty, hsize.ne'])
        obtain ⟨metadata, hmem, -, heq, -⟩ := mem_explicitSnapshot.mp (mem_of_mem_take hid)
        rw [hrows, ← hn]
        refine length_filter_lt_length_iff_exists.mpr ⟨metadata, hmem, ?_⟩
        simpa [heq] using hid
      obtain ⟨later, w', hlater, honly', hcollected⟩ := ih _ hless (hrun.append hbatch) hidle₁ rfl
      refine ⟨later ++ batch, w', hbatch.append hlater, fun label hlabel => ?_,
        fun metadata hmem hexp => ?_⟩
      · exact (mem_append.mp hlabel).elim (honly' label) (honly label)
      rw [changesOf, flatMap_append, mem_append]
      by_cases hin : metadata.candidateSessionId ∈ taken
      · right
        rw [← changesOf, hchanges]
        exact mem_map_of_mem hin
      · left
        refine hcollected metadata ?_ hexp
        rw [Table.mem_def, hrows]
        exact List.mem_filter.mpr ⟨hmem, by simpa using hin⟩

/-- In every run in which each batch still finds the ownership row of a candidate it locks, every
    candidate ends once, and what is left over is collected after its expiry. -/
theorem candidates_end_once {w₀ : World τ} {hist : List (Event τ × Changes)} (hfresh : Fresh w₀)
    (hrun : Run (GuardedStep stripReasoning loads) w₀ hist w) :
    EndOnce hist w ∧ ∀ (t : τ) (now : Int) (batchSize : Nat), 0 < batchSize →
      (∀ t', w.phases t' = .idle) →
      ∃ later w', Run (GuardedStep stripReasoning loads) w later w' ∧
        CleanupOnly t now batchSize later ∧ ∀ metadata ∈ w.store.candidates, metadata.expiresAt ≤ now →
          (metadata.candidateSessionId, .collected) ∈ changesOf later :=
  ⟨endOnce_of_ledger (accounts_of_run hfresh hrun).1,
    fun t now _ hsize hidle => expired_collected hfresh hrun hidle t now hsize⟩

end

/-! ### Runs -/

def sampleWorld : World Nat := ⟨sampleStore, fun _ => none, fun _ => .idle, ["p"]⟩

theorem sampleWorld_fresh : Fresh sampleWorld where
  known row hrow := by
    simp only [sampleWorld, sampleStore, Table.mem_def, Table.single, mem_singleton] at hrow
    simp [hrow, sampleWorld, publicRow]
  candidates := Table.not_mem_empty
  idle _ := rfl
  unlocked _ := rfl

def performEvent (event : Event Nat) (w : World Nat) : (Event Nat × Changes) × World Nat :=
  match happen id (fun _ => none) event w with
  | some (changes, w') => ((event, changes), w')
  | none => ((event, []), w)

def possible (guarded : Bool) (event : Event Nat) (w : World Nat) : Bool :=
  (happen id (fun _ => none) event w).isSome && (!guarded || decide (OwnedAtLock w event))

theorem performEvent_step {guarded : Bool} {event : Event Nat} {w : World Nat}
    (h : possible guarded event w = true) :
    Happens id (fun _ => none) w (performEvent event w).1 (performEvent event w).2 ∧
      (guarded = true → OwnedAtLock w (performEvent event w).1.1) := by
  simp only [possible, Bool.and_eq_true, Bool.or_eq_true, Bool.not_eq_true', decide_eq_true_eq] at h
  obtain ⟨⟨changes, w'⟩, hhappens⟩ := Option.isSome_iff_exists.mp h.1
  simp only [performEvent, hhappens]
  refine ⟨hhappens, ?_⟩
  rintro rfl
  simpa using h.2

def newRow : API4Conversation := { publicRow with id := "c2" }

def newSession : List (Event Nat) :=
  [.capture ⟨none, none, none, "o2", "t", "u"⟩ newRow "m2" 0,
    .edit { newRow with
      name := some "[channel-candidate]", dialogId := "c2", userId := "c2", expUserId := some "c2"
      message := some reply }]

def advances (t count : Nat) : List (Event Nat) := replicate count (.advance t [])

def threeEnds : List (Event Nat) :=
  newSession ++ [.commit 0 ⟨none, none, none, "o2", "t", "u"⟩ "c2"] ++ advances 0 4 ++
    [.prepare (prepareArgs "o1" "c1"), .abort 0 (preparedAs "o1" "c1")] ++ advances 0 4 ++
    [.prepare (prepareArgs "o3" "c3"), .collect 1 5 10] ++ advances 1 6

theorem candidates_end_once_sample :
    EndOnce (execute performEvent threeEnds [] sampleWorld).1
      (execute performEvent threeEnds [] sampleWorld).2 :=
  (candidates_end_once sampleWorld_fresh (execute_steps Run.nil
    (show allowed performEvent (possible true) threeEnds sampleWorld = true by decide +kernel)
    fun event w hok => ⟨(performEvent_step hok).1, (performEvent_step hok).2 rfl⟩)).1

/-- A batch takes its snapshot, the owner promotes, and the batch locks the row and deletes it. -/
def staleSnapshot : List (Event Nat) :=
  newSession ++ [.collect 1 5 10] ++ advances 1 1 ++
    [.commit 0 ⟨none, none, none, "o2", "t", "u"⟩ "c2"] ++ advances 0 4 ++ advances 1 5

theorem promoted_collected :
    ∃ hist w, Fresh sampleWorld ∧ Run (Happens id fun _ => none) sampleWorld hist w ∧
      ("c2", .promoted) ∈ changesOf hist ∧ ("c2", .collected) ∈ changesOf hist ∧
      ¬ EndOnce hist w := by
  have hpromoted : ("c2", .promoted) ∈ changesOf (execute performEvent staleSnapshot [] sampleWorld).1 := by
    decide +kernel
  refine ⟨_, _, sampleWorld_fresh, execute_steps Run.nil
    (show allowed performEvent (possible false) staleSnapshot sampleWorld = true by decide +kernel)
    fun event w hok => (performEvent_step hok).1, hpromoted, by decide +kernel, fun h => ?_⟩
  exact absurd (h.public "c2" hpromoted).1 (by decide +kernel)

end MultiRag.History
