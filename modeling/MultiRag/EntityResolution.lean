/-
  **Resumed entity resolution** (`core/graphrag/entity_resolution.py`).

  A batch is replayed from its checkpoint when that is a list of pairs of the batch,
  and asked about otherwise; what the model accepts is saved under the fingerprint of
  the batch.

  The batches run concurrently and finish in any order; the lock makes each write of
  the accepted pairs one step.
-/
import MultiRag.EntityCandidates

namespace MultiRag.GraphRag

open List

abbrev Checkpoints := String → Option Json

def noCheckpoints : Checkpoints := fun _ => none

def savedPairs (pairs : List (String × String)) : Json := .arr (pairs.map fun pair => .arr [.str pair.1, .str pair.2])

def cachedPair (candidates : List (String × String)) : Json → Option (String × String)
  | .arr [.str a, .str b] => if (a, b) ∈ candidates then some (a, b) else none
  | _ => none

def replayed (candidates : List (String × String)) : Option Json → Option (List (String × String))
  | some (.arr cached) => cached.mapM (cachedPair candidates)
  | _ => none

namespace Resolver

variable (R : Resolver)

def limitedResolveCandidate (checkpoints : Checkpoints) (batch : Batch) : Except String (List (String × String)) :=
  match replayed batch.2 (checkpoints (R.fingerprint batch)) with
  | some pairs => .ok pairs
  | none => R.resolveCandidate batch

/-- The batches in the order in which they finish, each adding to the accepted pairs. -/
def resolve (checkpoints : Checkpoints) (batches : List Batch) : Except String (List (String × String)) :=
  batches.foldlM (fun resolutionResult batch =>
    (R.limitedResolveCandidate checkpoints batch).map (resolutionResult ++ ·)) []

def save (checkpoints store : Checkpoints) (batch : Batch) : Checkpoints :=
  match replayed batch.2 (checkpoints (R.fingerprint batch)), R.resolveCandidate batch with
  | none, .ok selected => Function.update store (R.fingerprint batch) (some (savedPairs selected))
  | _, _ => store

def attempt (store : Checkpoints) (finished : List Batch) : Checkpoints := finished.foldl (R.save store) store

def attempts (store : Checkpoints) (interrupted : List (List Batch)) : Checkpoints := interrupted.foldl R.attempt store

end Resolver

/-! ### Replay -/

variable {candidates : List (String × String)}

theorem cachedPair_eq_some {cached : Json} {pair : String × String} :
    cachedPair candidates cached = some pair ↔ cached = .arr [.str pair.1, .str pair.2] ∧ pair ∈ candidates := by
  constructor
  · intro h
    rw [cachedPair.eq_def] at h
    split at h
    · split at h
      · next hin =>
        obtain rfl := Option.some.inj h
        exact ⟨rfl, hin⟩
      · cases h
    · cases h
  · rintro ⟨rfl, hin⟩
    rw [cachedPair, if_pos hin]

theorem replayed_eq_some {cached : Option Json} {pairs : List (String × String)} :
    replayed candidates cached = some pairs ↔ cached = some (savedPairs pairs) ∧ pairs ⊆ candidates := by
  have hitems : ∀ items : List Json, items.mapM (cachedPair candidates) = some pairs ↔
      items = pairs.map (fun pair => .arr [.str pair.1, .str pair.2]) ∧ pairs ⊆ candidates := by
    intro items
    induction items generalizing pairs with
    | nil => cases pairs <;> simp
    | cons item items ih =>
      rw [mapM_cons]
      constructor
      · intro h
        obtain ⟨pair, hpair, h⟩ := Option.bind_eq_some_iff.mp h
        obtain ⟨rest, hrest, h⟩ := Option.bind_eq_some_iff.mp h
        obtain rfl := Option.some.inj h
        obtain ⟨rfl, hin⟩ := cachedPair_eq_some.mp hpair
        obtain ⟨rfl, hsubset⟩ := ih.mp hrest
        exact ⟨rfl, cons_subset.mpr ⟨hin, hsubset⟩⟩
      · rintro ⟨h, hsubset⟩
        obtain ⟨pair, rest, rfl⟩ : ∃ pair rest, pairs = pair :: rest := by
          cases pairs with
          | nil => cases h
          | cons pair rest => exact ⟨pair, rest, rfl⟩
        obtain ⟨rfl, hrest⟩ := List.cons.inj h
        obtain ⟨hin, hsubset⟩ := cons_subset.mp hsubset
        rw [cachedPair_eq_some.mpr ⟨rfl, hin⟩, ih.mpr ⟨hrest, hsubset⟩]
        rfl
  rw [replayed.eq_def]
  split
  · next items =>
    rw [hitems, savedPairs, Option.some_inj, Json.arr.injEq]
  · next hother =>
    constructor
    · exact nofun
    · rintro ⟨rfl, -⟩
      exact absurd rfl (hother _)

namespace Resolver

variable {R : Resolver} {checkpoints store : Checkpoints} {batch : Batch}

theorem limitedResolveCandidate_subset {pairs : List (String × String)}
    (h : R.limitedResolveCandidate checkpoints batch = .ok pairs) : pairs ⊆ batch.2 := by
  rw [limitedResolveCandidate] at h
  split at h
  · next hreplayed =>
    obtain rfl := Except.ok.inj h
    exact (replayed_eq_some.mp hreplayed).2
  · exact resolveCandidate_subset h

theorem limitedResolveCandidate_of_foreign
    (h : ∀ pairs, checkpoints (R.fingerprint batch) = some (savedPairs pairs) → ¬ pairs ⊆ batch.2) :
    R.limitedResolveCandidate checkpoints batch = R.resolveCandidate batch := by
  rw [limitedResolveCandidate]
  split
  · next pairs hreplayed =>
    obtain ⟨hsaved, hsubset⟩ := replayed_eq_some.mp hreplayed
    exact absurd hsubset (h pairs hsaved)
  · rfl

/-! ### Attempts -/

def Faithful (R : Resolver) (batches : List Batch) (store : Checkpoints) : Prop :=
  ∀ batch ∈ batches, ∀ pairs, replayed batch.2 (store (R.fingerprint batch)) = some pairs →
    R.resolveCandidate batch = .ok pairs

variable {batches : List Batch}

section

variable (h : R.Faithful batches store)
include h

theorem Faithful.save {finished : Batch}
    (hkey : ∀ batch ∈ batches, R.fingerprint batch = R.fingerprint finished → batch = finished)
    (checkpoints : Checkpoints) : R.Faithful batches (R.save checkpoints store finished) := by
  rw [Resolver.save]
  split
  · next selected _ hsel =>
    intro batch hbatch pairs hreplayed
    by_cases heq : R.fingerprint batch = R.fingerprint finished
    · obtain rfl := hkey batch hbatch heq
      rw [Function.update_self] at hreplayed
      have hsame : replayed batch.2 (some (savedPairs selected)) = some selected :=
        replayed_eq_some.mpr ⟨rfl, resolveCandidate_subset hsel⟩
      obtain rfl := Option.some.inj (hsame.symm.trans hreplayed)
      exact hsel
    · rw [Function.update_of_ne heq] at hreplayed
      exact h batch hbatch pairs hreplayed
  · exact h

theorem Faithful.attempt {finished : List Batch}
    (hkey : ∀ batch ∈ batches, ∀ other ∈ finished, R.fingerprint batch = R.fingerprint other → batch = other) :
    R.Faithful batches (R.attempt store finished) := by
  have hfold : ∀ current, R.Faithful batches current → R.Faithful batches (finished.foldl (R.save store) current) := by
    intro current hcur
    induction finished generalizing current with
    | nil => exact hcur
    | cons other finished ih =>
      refine ih (fun batch hbatch => (forall_mem_cons.mp (hkey batch hbatch)).2) _ (hcur.save ?_ store)
      exact fun batch hbatch => (forall_mem_cons.mp (hkey batch hbatch)).1
  exact hfold store h

theorem Faithful.attempts {interrupted : List (List Batch)}
    (hkey : ∀ batch ∈ batches, ∀ other ∈ interrupted.flatten, R.fingerprint batch =
      R.fingerprint other → batch = other) :
    R.Faithful batches (R.attempts store interrupted) := by
  rw [Resolver.attempts]
  induction interrupted generalizing store with
  | nil => exact h
  | cons finished interrupted ih =>
    refine ih (h.attempt fun batch hbatch other hother => ?_) fun batch hbatch other hother => ?_
    · exact hkey batch hbatch other (mem_append_left _ hother)
    · exact hkey batch hbatch other (mem_append_right _ hother)

theorem Faithful.limitedResolveCandidate (hbatch : batch ∈ batches) :
    R.limitedResolveCandidate store batch = R.resolveCandidate batch := by
  rw [Resolver.limitedResolveCandidate]
  split
  · next pairs hreplayed => exact (h batch hbatch pairs hreplayed).symm
  · rfl

end

/-! ### Runs -/

/-- The run succeeds and these pairs are accepted. -/
def Accepts (outcome : Except String (List (String × String))) (accepted : String × String → Prop) : Prop :=
  ∃ resolutionResult, outcome = .ok resolutionResult ∧ ∀ pair, pair ∈ resolutionResult ↔ accepted pair

variable {accepted : String × String → Prop}

theorem foldlM_accepts {f : Batch → Except String (List (String × String))}
    {before : List (String × String)} :
    Accepts (batches.foldlM (fun before batch => (f batch).map (before ++ ·)) before) accepted ↔
      (∀ batch ∈ batches, ∃ pairs, f batch = .ok pairs) ∧
        ∀ pair, accepted pair ↔ pair ∈ before ∨ ∃ batch ∈ batches, ∃ pairs, f batch = .ok pairs ∧ pair ∈ pairs := by
  induction batches generalizing before with
  | nil =>
    constructor
    · rintro ⟨result, hrun, hacc⟩
      obtain rfl := Except.ok.inj hrun
      exact ⟨by simp, fun pair => by simp [hacc pair]⟩
    · rintro ⟨-, hacc⟩
      exact ⟨before, rfl, fun pair => by simp [hacc pair]⟩
  | cons batch batches ih =>
    rw [foldlM_cons, forall_mem_cons]
    rcases hbatch : f batch with message | pairs
    · constructor
      · rintro ⟨result, hrun, -⟩
        cases hrun
      · rintro ⟨⟨⟨pairs, hpairs⟩, -⟩, -⟩
        cases hpairs
    · refine ih.trans ?_
      have hfirst : ∀ pair, (∃ pairs', f batch = .ok pairs' ∧ pair ∈ pairs') ↔ pair ∈ pairs := by
        intro pair
        rw [hbatch]
        simp
      simp only [mem_append, exists_mem_cons_iff, hfirst, or_assoc, Except.ok.injEq, exists_eq', true_and]

theorem resolve_accepts :
    Accepts (R.resolve checkpoints batches) accepted ↔
      (∀ batch ∈ batches, ∃ pairs, R.limitedResolveCandidate checkpoints batch = .ok pairs) ∧
        ∀ pair, accepted pair ↔
          ∃ batch ∈ batches, ∃ pairs, R.limitedResolveCandidate checkpoints batch = .ok pairs ∧ pair ∈ pairs := by
  rw [resolve, foldlM_accepts]
  simp only [not_mem_nil, false_or]

theorem accepts_congr {checkpoints' : Checkpoints} {order order' : List Batch}
    (hperm : order.Perm order')
    (h : ∀ batch ∈ order, R.limitedResolveCandidate checkpoints batch = R.limitedResolveCandidate checkpoints' batch) :
    Accepts (R.resolve checkpoints order) accepted ↔ Accepts (R.resolve checkpoints' order') accepted := by
  rw [resolve_accepts, resolve_accepts]
  refine and_congr ?_ (forall_congr' fun pair => iff_congr Iff.rfl (exists_congr fun batch => ?_))
  · simp only [← hperm.mem_iff]
    exact forall₂_congr fun batch hbatch => by rw [h batch hbatch]
  · rw [← hperm.mem_iff]
    exact and_congr_right fun hbatch => by rw [h batch hbatch]

def Runs (R : Resolver) (g : Graph) (subgraphNodes : List String) (checkpoints : Checkpoints)
    (outcome : Except String (List (String × String))) : Prop :=
  ∃ batches order, R.batches g subgraphNodes = some batches ∧ order.Perm batches ∧ outcome = R.resolve checkpoints order

/-- After any interrupted attempts a run accepts exactly what a run without checkpoints accepts,
    and fails when that one fails; whatever the checkpoints are, what is accepted for a batch
    are candidates of it, and a checkpoint that is not a list of candidates is ignored. -/
theorem resumed_resolution {g : Graph} {subgraphNodes : List String} {interrupted : List (List Batch)}
    (hkey : ∀ batches ∈ R.batches g subgraphNodes, ∀ batch ∈ batches, ∀ finished ∈ interrupted.flatten,
      R.fingerprint batch = R.fingerprint finished → batch = finished)
    (hstore : ∀ batches ∈ R.batches g subgraphNodes, ∀ batch ∈ batches,
      replayed batch.2 (store (R.fingerprint batch)) = none)
    {resumed fresh : Except String (List (String × String))}
    (hresumed : R.Runs g subgraphNodes (R.attempts store interrupted) resumed)
    (hfresh : R.Runs g subgraphNodes noCheckpoints fresh) :
    (∀ accepted, Accepts resumed accepted ↔ Accepts fresh accepted) ∧
    (∀ checkpoints batch pairs, R.limitedResolveCandidate checkpoints batch = .ok pairs → pairs ⊆ batch.2) ∧
    (∀ (checkpoints : Checkpoints) batch,
      (∀ pairs, checkpoints (R.fingerprint batch) = some (savedPairs pairs) → ¬ pairs ⊆ batch.2) →
        R.limitedResolveCandidate checkpoints batch = R.resolveCandidate batch) := by
  obtain ⟨batches, order, hbatches, horder, rfl⟩ := hresumed
  obtain ⟨batches', freshOrder, hbatches', hfreshOrder, rfl⟩ := hfresh
  obtain rfl : batches = batches' := Option.some.inj (hbatches.symm.trans hbatches')
  have hfaithful : R.Faithful batches (R.attempts store interrupted) := by
    refine Faithful.attempts ?_ (hkey batches hbatches)
    intro batch hbatch pairs hreplayed
    rw [hstore batches hbatches batch hbatch] at hreplayed
    cases hreplayed
  refine ⟨fun accepted => ?_, fun _ _ _ => limitedResolveCandidate_subset, fun _ _ => limitedResolveCandidate_of_foreign⟩
  apply accepts_congr (horder.trans hfreshOrder.symm)
  intro batch hbatch
  exact hfaithful.limitedResolveCandidate (horder.mem_iff.mp hbatch)

/-! ### A foreign checkpoint and an interrupted attempt -/

def alphas : Graph where
  documents := ["doc"]
  revision := ""
  nodes := ⟨[("ALPHA", ⟨["doc"], .single ("entity_type", .str "person")⟩),
    ("ALPHAS", ⟨["doc"], .single ("entity_type", .str "person")⟩)], by decide⟩
  edges := .empty
  sorted := Graph.empty.sorted
  joins _ h := absurd h (Table.not_mem_empty _)

def yesResolver : Resolver where
  isDigit := isAsciiDigit
  unicodeDecimal _ := none
  editDistance a b := if a = b then 0 else 1
  fingerprint batch := (Json.arr [.str batch.1, savedPairs batch.2]).dumps
  chat _ := .ok "<|>1<|>&&Yes&&"
  recordDelimiter := "##"
  entityIndexDelimiter := "<|>"
  resolutionResultDelimiter := "&&"

def alphaBatch : Batch := ("person", [("ALPHA", "ALPHAS")])

def foreignCheckpoint : Checkpoints := fun _ => some (savedPairs [("ALPHA", "FOREIGN")])

theorem batches_alphas : yesResolver.batches alphas ["ALPHA"] = some [alphaBatch] := by decide +kernel

theorem resumed_resolution_alphas :
    Accepts (yesResolver.resolve (yesResolver.attempts foreignCheckpoint [[alphaBatch]]) [alphaBatch])
      (fun pair => pair = ("ALPHA", "ALPHAS")) := by
  have hkey : ∀ batches ∈ yesResolver.batches alphas ["ALPHA"], ∀ batch ∈ batches, ∀ finished ∈ [[alphaBatch]].flatten,
      yesResolver.fingerprint batch = yesResolver.fingerprint finished → batch = finished := by
    intro batches hbatches batch hbatch finished hfinished _
    obtain rfl := Option.some.inj (batches_alphas.symm.trans hbatches)
    rw [mem_singleton.mp hbatch, mem_singleton.mp hfinished]
  have hstore : ∀ batches ∈ yesResolver.batches alphas ["ALPHA"], ∀ batch ∈ batches,
      replayed batch.2 (foreignCheckpoint (yesResolver.fingerprint batch)) = none := by
    intro batches hbatches batch hbatch
    obtain rfl := Option.some.inj (batches_alphas.symm.trans hbatches)
    rw [mem_singleton.mp hbatch]
    decide +kernel
  have hlive : yesResolver.resolve noCheckpoints [alphaBatch] = .ok [("ALPHA", "ALPHAS")] := by decide +kernel
  refine ((resumed_resolution hkey hstore ⟨_, _, batches_alphas, .refl _, rfl⟩
    ⟨_, _, batches_alphas, .refl _, rfl⟩).1 _).mpr ⟨_, hlive, fun pair => mem_singleton⟩

end Resolver

end MultiRag.GraphRag
