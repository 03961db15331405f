/-
  **The signing key snapshots of the issuer, and the guard of their rotation.**

  `SigningKeyRotationGuard.transition` accepts the next snapshot or raises. `Rotated` is what the
  guard promises about keys over a run of calls, and `SamePoints` says that a call does not give
  another point to an id that still counts.
-/
import Mathlib.Algebra.Order.Ring.Int
import Mathlib.Data.List.Nodup
import MultiRag.Json
import MultiRag.Run

namespace MultiRag.SigningKeys

open List

/-! ### Snapshots -/

inductive SigningKeyErrorCode where
  | publicKeyInvalid
  | nextKeyNotPrepublished
  | activeKeyNotRetained
  | retiredKeyRemovedEarly
  | rotationTimeInvalid

structure PublicEcJwk where
  kid : String
  x : String
  y : String
deriving DecidableEq

/-- `SigningKeySnapshot.__post_init__` -/
def publishable (activeKid : String) (keys : List PublicEcJwk) : Bool :=
  !keys.isEmpty && decide (keys.length ≤ 32) && decide (keys.map (·.kid)).Nodup &&
    decide (activeKid ∈ keys.map (·.kid))

structure SigningKeySnapshot where
  activeKid : String
  keys : List PublicEcJwk
  valid : publishable activeKid keys = true

namespace SigningKeySnapshot

def create (activeKid : String) (keys : List PublicEcJwk) :
    Except SigningKeyErrorCode SigningKeySnapshot :=
  if h : publishable activeKid keys = true then .ok ⟨activeKid, keys, h⟩ else .error .publicKeyInvalid

def keyIds (s : SigningKeySnapshot) : List String := s.keys.map (·.kid)

variable {s : SigningKeySnapshot} {k k' : PublicEcJwk}

theorem activeKid_mem (s : SigningKeySnapshot) : s.activeKid ∈ s.keyIds := by
  have h := s.valid
  simp only [publishable, Bool.and_eq_true, decide_eq_true_eq] at h
  exact h.2

theorem exists_key {kid : String} (h : kid ∈ s.keyIds) : ∃ k ∈ s.keys, k.kid = kid :=
  mem_map.mp h

end SigningKeySnapshot

def Active (s : SigningKeySnapshot) (k : PublicEcJwk) : Prop := k ∈ s.keys ∧ k.kid = s.activeKid

/-! ### The guard -/

structure SigningKeyRotationGuard where
  snapshot : SigningKeySnapshot
  retentionSeconds : Int
  retirementDeadlines : List (String × Int)

def SigningKeyRotationGuard.create (snapshot : SigningKeySnapshot) (retentionSeconds : Int) :
    Except SigningKeyErrorCode SigningKeyRotationGuard :=
  if retentionSeconds ≤ 0 then .error .rotationTimeInvalid else .ok ⟨snapshot, retentionSeconds, []⟩

def setDeadline (kid : String) (deadline : Int) (deadlines : List (String × Int)) :
    List (String × Int) :=
  (kid, deadline) :: deadlines.filter (·.1 ≠ kid)

def retireActive (guard : SigningKeyRotationGuard) (successor : SigningKeySnapshot) (now : Int) :
    Except SigningKeyErrorCode (List (String × Int)) :=
  let current := guard.snapshot
  if successor.activeKid = current.activeKid then .ok guard.retirementDeadlines
  else if successor.activeKid ∉ current.keyIds then .error .nextKeyNotPrepublished
  else if current.activeKid ∉ successor.keyIds then .error .activeKeyNotRetained
  else .ok (setDeadline current.activeKid (now + seconds guard.retentionSeconds) guard.retirementDeadlines)

def expireDeadlines (successor : SigningKeySnapshot) (now : Int) :
    List (String × Int) → Except SigningKeyErrorCode (List (String × Int))
  | [] => .ok []
  | (kid, deadline) :: rest =>
    if kid ∉ successor.keyIds ∧ now < deadline then .error .retiredKeyRemovedEarly
    else
      match expireDeadlines successor now rest with
      | .error e => .error e
      | .ok kept => .ok (if deadline ≤ now then kept else (kid, deadline) :: kept)

def transition (guard : SigningKeyRotationGuard) (successor : SigningKeySnapshot) (now : Option Int) :
    Except SigningKeyErrorCode SigningKeyRotationGuard :=
  match now with
  | none => .error .rotationTimeInvalid
  | some now =>
    match retireActive guard successor now with
    | .error e => .error e
    | .ok deadlines =>
      match expireDeadlines successor now deadlines with
      | .error e => .error e
      | .ok deadlines => .ok { guard with snapshot := successor, retirementDeadlines := deadlines }

variable {deadlines : List (String × Int)}

theorem mem_setDeadline {kid : String} {deadline : Int} {e : String × Int} :
    e ∈ setDeadline kid deadline deadlines ↔ e = (kid, deadline) ∨ e ∈ deadlines ∧ e.1 ≠ kid := by
  simp [setDeadline]

variable {guard : SigningKeyRotationGuard} {successor : SigningKeySnapshot} {now : Int}

theorem retireActive_ok (h : retireActive guard successor now = .ok deadlines) :
    (successor.activeKid = guard.snapshot.activeKid ∧ deadlines = guard.retirementDeadlines) ∨
    (successor.activeKid ∈ guard.snapshot.keyIds ∧ guard.snapshot.activeKid ∈ successor.keyIds ∧
      deadlines = setDeadline guard.snapshot.activeKid (now + seconds guard.retentionSeconds)
        guard.retirementDeadlines) := by
  simp only [retireActive] at h
  split at h
  · next hsame => exact .inl ⟨hsame, by simpa using h.symm⟩
  · split at h
    · cases h
    · next hpublished =>
      split at h
      · cases h
      · next hretained =>
        refine .inr ⟨?_, ?_, by simpa using h.symm⟩
        · simpa using hpublished
        · simpa using hretained

theorem expireDeadlines_ok {kept : List (String × Int)}
    (h : expireDeadlines successor now deadlines = .ok kept) :
    kept = deadlines.filter (now < ·.2) ∧ ∀ e ∈ deadlines, now < e.2 → e.1 ∈ successor.keyIds := by
  induction deadlines generalizing kept with
  | nil => simpa [expireDeadlines] using h.symm
  | cons e rest ih =>
    obtain ⟨kid, deadline⟩ := e
    simp only [expireDeadlines] at h
    split at h
    · cases h
    · next hstays =>
      split at h
      · cases h
      · next tail htail =>
        obtain ⟨hkept, hall⟩ := ih htail
        have hresult : (if deadline ≤ now then tail else (kid, deadline) :: tail) = kept := by
          simpa using h
        constructor
        · rw [← hresult, hkept, filter_cons]
          by_cases hpast : deadline ≤ now
          · simp [hpast, Int.not_lt.mpr hpast]
          · simp [hpast, Int.not_le.mp hpast]
        · intro e he hlt
          rcases mem_cons.mp he with rfl | he
          · by_contra hgone
            exact hstays ⟨hgone, hlt⟩
          · exact hall e he hlt

theorem transition_ok {guard' : SigningKeyRotationGuard} {now : Option Int}
    (h : transition guard successor now = .ok guard') :
    ∃ t deadlines, now = some t ∧ retireActive guard successor t = .ok deadlines ∧
      (∀ e ∈ deadlines, t < e.2 → e.1 ∈ successor.keyIds) ∧
      guard' = { guard with
        snapshot := successor, retirementDeadlines := deadlines.filter (t < ·.2) } := by
  unfold transition at h
  split at h
  · cases h
  · next t =>
    split at h
    · cases h
    · next deadlines hdeadlines =>
      split at h
      · cases h
      · next kept hkept =>
        obtain ⟨rfl, hall⟩ := expireDeadlines_ok hkept
        exact ⟨t, deadlines, rfl, hdeadlines, hall, by simpa using h.symm⟩

/-! ### Runs of calls -/

/-- A call of `transition` and how it ended. -/
structure Transition where
  successor : SigningKeySnapshot
  now : Option Int
  raised : Option SigningKeyErrorCode

def Transition.readings (t : Transition) : List Int := t.now.toList

def call (guard : SigningKeyRotationGuard) (successor : SigningKeySnapshot) (now : Option Int) :
    Transition × SigningKeyRotationGuard :=
  match transition guard successor now with
  | .ok guard' => (⟨successor, now, none⟩, guard')
  | .error e => (⟨successor, now, some e⟩, guard)

def Step (guard : SigningKeyRotationGuard) (t : Transition) (guard' : SigningKeyRotationGuard) : Prop :=
  call guard t.successor t.now = (t, guard')

/-- The snapshot after a history that began with `start`. -/
def published (start : SigningKeySnapshot) : List Transition → SigningKeySnapshot
  | [] => start
  | t :: earlier => if t.raised = none then t.successor else published start earlier

/-- The key was active until an accepted call at time `u`. -/
def ActiveUntil (start : SigningKeySnapshot) (hist : List Transition) (k : PublicEcJwk) (u : Int) : Prop :=
  ∃ later t earlier, hist = later ++ t :: earlier ∧ t.raised = none ∧ t.now = some u ∧
    Active (published start earlier) k

/-- A key that was active is in every snapshot accepted until its retention ends, and a key
    becomes active only when it was published in the snapshot before. -/
structure Rotated (start : SigningKeySnapshot) (retentionSeconds : Int) (hist : List Transition) : Prop where
  retained : ∀ later t earlier u, hist = later ++ t :: earlier → t.raised = none → t.now = some u →
    ∀ k v, ActiveUntil start (t :: earlier) k v → u < v + seconds retentionSeconds →
      k ∈ t.successor.keys
  prepublished : ∀ later t earlier, hist = later ++ t :: earlier → t.raised = none →
    ∀ k, Active t.successor k → k ∈ (published start earlier).keys

/-- The ids that count for a call: the old and the new active id, and the retired ids whose
    deadline lies ahead. -/
def Counts (guard : SigningKeyRotationGuard) (t : Transition) (kid : String) : Prop :=
  kid = guard.snapshot.activeKid ∨ kid = t.successor.activeKid ∨
    ∃ now deadline, t.now = some now ∧ (kid, deadline) ∈ guard.retirementDeadlines ∧ now < deadline

def SamePoints (guard : SigningKeyRotationGuard) (t : Transition) : Prop :=
  ∀ k ∈ guard.snapshot.keys, Counts guard t k.kid →
    ∀ k' ∈ t.successor.keys, k'.kid = k.kid → k' = k

variable {guard' : SigningKeyRotationGuard} {t : Transition} {start : SigningKeySnapshot}
  {hist : List Transition} {k : PublicEcJwk} {u : Int}

theorem step_cases (h : Step guard t guard') :
    (t.raised = none ∧ transition guard t.successor t.now = .ok guard') ∨
    (t.raised ≠ none ∧ guard' = guard) := by
  obtain ⟨successor, now, raised⟩ := t
  simp only [Step, call] at h ⊢
  split at h
  · next next hok =>
    simp only [Prod.mk.injEq, Transition.mk.injEq, true_and] at h
    exact .inl ⟨h.1.symm, by rw [hok, h.2]⟩
  · next e herror =>
    simp only [Prod.mk.injEq, Transition.mk.injEq, true_and] at h
    exact .inr ⟨by simp [← h.1], h.2.symm⟩

theorem raised_unchanged (h : Step guard t guard') (hraised : t.raised ≠ none) : guard' = guard := by
  rcases step_cases h with ⟨hnone, -⟩ | ⟨-, heq⟩
  · exact absurd hnone hraised
  · exact heq

theorem activeUntil_cons (h : ActiveUntil start (t :: hist) k u) :
    (t.raised = none ∧ t.now = some u ∧ Active (published start hist) k) ∨ ActiveUntil start hist k u := by
  obtain ⟨later, t', earlier, heq, hok, hnow, hactive⟩ := h
  rcases append_eq_cons_iff.mp heq.symm with ⟨-, hfirst⟩ | ⟨later, -, hlater⟩
  · cases hfirst
    exact .inl ⟨hok, hnow, hactive⟩
  · exact .inr ⟨later, t', earlier, hlater, hok, hnow, hactive⟩

/-- Where the guard stands after a run: every key whose retention has not ended is published,
    and it is active or has a deadline that is late enough. -/
structure Guarded (start : SigningKeySnapshot) (retentionSeconds : Int) (hist : List Transition)
    (w : Clocked SigningKeyRotationGuard Int) : Prop where
  retention : w.store.retentionSeconds = retentionSeconds
  snapshot : w.store.snapshot = published start hist
  past : ∀ k v, ActiveUntil start hist k v → v ≤ w.now
  kept : ∀ k v, ActiveUntil start hist k v → w.now < v + seconds retentionSeconds →
    k ∈ w.store.snapshot.keys ∧ (k.kid = w.store.snapshot.activeKid ∨
      ∃ deadline, (k.kid, deadline) ∈ w.store.retirementDeadlines ∧ v + seconds retentionSeconds ≤ deadline)

variable {retentionSeconds : Int} {w w' : Clocked SigningKeyRotationGuard Int}

theorem guarded_raised (h : Guarded start retentionSeconds hist w) (hraised : t.raised ≠ none)
    (hnow : w.now ≤ w'.now) (hsame : w'.store = w.store) :
    Guarded start retentionSeconds (t :: hist) w' := by
  have hold : ∀ k v, ActiveUntil start (t :: hist) k v → ActiveUntil start hist k v := fun k v hk =>
    (activeUntil_cons hk).resolve_left fun hnew => hraised hnew.1
  constructor
  · rw [hsame]
    exact h.retention
  · rw [hsame, published, if_neg hraised]
    exact h.snapshot
  · intro k v hk
    exact le_trans (h.past k v (hold k v hk)) hnow
  · intro k v hk hlt
    rw [hsame]
    exact h.kept k v (hold k v hk) (by omega)

theorem SamePoints.mem (h : SamePoints guard t) (hk : k ∈ guard.snapshot.keys)
    (hcounts : Counts guard t k.kid) (hin : k.kid ∈ t.successor.keyIds) : k ∈ t.successor.keys := by
  obtain ⟨k', hk', hkid⟩ := t.successor.exists_key hin
  have heq : k' = k := h k hk hcounts k' hk' hkid
  rw [← heq]
  exact hk'

section

variable (h : Guarded start retentionSeconds hist w)
include h

theorem kept_accepted (hsame : SamePoints w.store t)
    (htime : t.now = some u) (hretire : retireActive w.store t.successor u = .ok deadlines)
    (hstay : ∀ e ∈ deadlines, u < e.2 → e.1 ∈ t.successor.keyIds) {v : Int} (hle : v ≤ u)
    (hlt : u < v + seconds retentionSeconds) (hkey : k ∈ w.store.snapshot.keys)
    (hhold : k.kid = w.store.snapshot.activeKid ∨
      ∃ deadline, (k.kid, deadline) ∈ w.store.retirementDeadlines ∧
      v + seconds retentionSeconds ≤ deadline) :
    k ∈ t.successor.keys ∧ (k.kid = t.successor.activeKid ∨
      ∃ deadline, (k.kid, deadline) ∈ deadlines.filter (u < ·.2) ∧
        v + seconds retentionSeconds ≤ deadline) := by
  have hcounts : Counts w.store t k.kid := by
    rcases hhold with hactive | ⟨deadline, hmem, hlate⟩
    · exact .inl hactive
    · exact .inr (.inr ⟨u, deadline, htime, hmem, by omega⟩)
  rcases retireActive_ok hretire with ⟨hactive', rfl⟩ | ⟨hpublished, hretained, rfl⟩
  · -- the active id stays
    rcases hhold with hactive | ⟨deadline, hmem, hlate⟩
    · have hkid : k.kid = t.successor.activeKid := by rw [hactive, hactive']
      refine ⟨hsame.mem hkey hcounts ?_, .inl hkid⟩
      rw [hkid]
      exact t.successor.activeKid_mem
    · have hahead : u < deadline := by omega
      refine ⟨hsame.mem hkey hcounts (hstay _ hmem hahead), .inr ⟨deadline, ?_, hlate⟩⟩
      exact List.mem_filter.mpr ⟨hmem, by simpa using hahead⟩
  · -- the active id is retired with a new deadline
    have hlater : v + seconds retentionSeconds ≤ u + seconds w.store.retentionSeconds := by
      rw [h.retention]
      omega
    by_cases hactive : k.kid = w.store.snapshot.activeKid
    · have hmem : (k.kid, u + seconds w.store.retentionSeconds) ∈
          setDeadline w.store.snapshot.activeKid (u + seconds w.store.retentionSeconds)
            w.store.retirementDeadlines := mem_setDeadline.mpr (.inl (by rw [hactive]))
      have hahead : u < u + seconds w.store.retentionSeconds := by omega
      refine ⟨hsame.mem hkey hcounts (hstay _ hmem hahead), .inr ⟨_, ?_, hlater⟩⟩
      exact List.mem_filter.mpr ⟨hmem, by simpa using hahead⟩
    · obtain ⟨deadline, hold, hlate⟩ := hhold.resolve_left hactive
      have hmem : (k.kid, deadline) ∈ setDeadline w.store.snapshot.activeKid
          (u + seconds w.store.retentionSeconds) w.store.retirementDeadlines :=
        mem_setDeadline.mpr (.inr ⟨hold, hactive⟩)
      have hahead : u < deadline := by omega
      refine ⟨hsame.mem hkey hcounts (hstay _ hmem hahead), .inr ⟨deadline, ?_, hlate⟩⟩
      exact List.mem_filter.mpr ⟨hmem, by simpa using hahead⟩

theorem kept_switch (hsame : SamePoints w.store t)
    (htime : t.now = some u) (hpositive : 0 < retentionSeconds)
    (hretire : retireActive w.store t.successor u = .ok deadlines)
    (hstay : ∀ e ∈ deadlines, u < e.2 → e.1 ∈ t.successor.keyIds)
    (hactive : Active w.store.snapshot k) :
    k ∈ t.successor.keys ∧ (k.kid = t.successor.activeKid ∨
      ∃ deadline, (k.kid, deadline) ∈ deadlines.filter (u < ·.2) ∧
        u + seconds retentionSeconds ≤ deadline) := by
  have hlong : 0 < seconds retentionSeconds := by
    simp only [seconds, microsecondsPerSecond]
    omega
  exact kept_accepted h hsame htime hretire hstay (Int.le_refl u) (by omega) hactive.1
    (.inl hactive.2)

theorem guarded_accepted
    (hpositive : 0 < retentionSeconds) (hok : t.raised = none) (htime : t.now = some u)
    (hnow : w.now ≤ u) (hsame : SamePoints w.store t)
    (hretire : retireActive w.store t.successor u = .ok deadlines)
    (hstay : ∀ e ∈ deadlines, u < e.2 → e.1 ∈ t.successor.keyIds) :
    Guarded start retentionSeconds (t :: hist) ⟨u, { w.store with
      snapshot := t.successor, retirementDeadlines := deadlines.filter (u < ·.2) }⟩ := by
  constructor
  · exact h.retention
  · simp [published, hok]
  · intro k v hk
    rcases activeUntil_cons hk with ⟨-, htime', -⟩ | hold
    · rw [htime, Option.some.injEq] at htime'
      exact Int.le_of_eq htime'.symm
    · exact Int.le_trans (h.past k v hold) hnow
  · intro k v hk hlt
    rcases activeUntil_cons hk with ⟨-, htime', hactive⟩ | hold
    · rw [htime, Option.some.injEq] at htime'
      subst htime'
      rw [← h.snapshot] at hactive
      exact kept_switch h hsame htime hpositive hretire hstay hactive
    · have hbefore : w.now < v + seconds retentionSeconds := Int.lt_of_le_of_lt hnow hlt
      obtain ⟨hkey, hhold⟩ := h.kept k v hold hbefore
      exact kept_accepted h hsame htime hretire hstay (Int.le_trans (h.past k v hold) hnow) hlt hkey hhold

theorem guarded_step (hpositive : 0 < retentionSeconds)
    (hstep : clocked Transition.readings Step w t w') (hsame : SamePoints w.store t) :
    Guarded start retentionSeconds (t :: hist) w' := by
  rcases step_cases hstep.store_step with ⟨hok, hacc⟩ | ⟨hraised, hstore⟩
  · obtain ⟨u, deadlines, htime, hretire, hstay, hguard⟩ := transition_ok hacc
    have hmem : u ∈ t.readings := by simp [Transition.readings, htime]
    have hclock : w'.now = u := by
      rw [hstep.2.1]
      simp [Transition.readings, htime]
    have hnext := guarded_accepted h hpositive hok htime (hstep.le_reading hmem) hsame hretire hstay
    rw [← hguard, ← hclock] at hnext
    exact hnext
  · exact guarded_raised h hraised hstep.now_le hstore

theorem prepublished_step
    (hstep : clocked Transition.readings Step w t w') (hok : t.raised = none)
    (hsame : SamePoints w.store t) (hactive : Active t.successor k) :
    k ∈ (published start hist).keys := by
  rw [← h.snapshot]
  rcases step_cases hstep.store_step with ⟨-, hacc⟩ | ⟨hraised, -⟩
  · obtain ⟨u, deadlines, -, hretire, -, -⟩ := transition_ok hacc
    have hin : t.successor.activeKid ∈ w.store.snapshot.keyIds := by
      rcases retireActive_ok hretire with ⟨hstays, -⟩ | ⟨hpublished, -⟩
      · rw [hstays]
        exact w.store.snapshot.activeKid_mem
      · exact hpublished
    obtain ⟨k', hk', hkid⟩ := w.store.snapshot.exists_key hin
    have hcounts : Counts w.store t k'.kid := .inr (.inl hkid)
    have heq : k = k' := hsame k' hk' hcounts k hactive.1 (by rw [hkid, hactive.2])
    rw [heq]
    exact hk'
  · exact absurd hok hraised

end

theorem rotated_cons (h : Rotated start retentionSeconds hist)
    (hretained : t.raised = none → ∀ u, t.now = some u → ∀ k v, ActiveUntil start (t :: hist) k v →
      u < v + seconds retentionSeconds → k ∈ t.successor.keys)
    (hprepublished : t.raised = none → ∀ k, Active t.successor k → k ∈ (published start hist).keys) :
    Rotated start retentionSeconds (t :: hist) := by
  constructor
  · intro later t' earlier u heq hok htime
    rcases append_eq_cons_iff.mp heq.symm with ⟨-, hfirst⟩ | ⟨later, -, hlater⟩
    · cases hfirst
      exact hretained hok u htime
    · exact h.retained later t' earlier u hlater hok htime
  · intro later t' earlier heq hok
    rcases append_eq_cons_iff.mp heq.symm with ⟨-, hfirst⟩ | ⟨later, -, hlater⟩
    · cases hfirst
      exact hprepublished hok
    · exact h.prepublished later t' earlier hlater hok

theorem guarded_start (hnew : SigningKeyRotationGuard.create start retentionSeconds = .ok guard)
    (now : Int) : Guarded start retentionSeconds [] ⟨now, guard⟩ := by
  simp only [SigningKeyRotationGuard.create] at hnew
  split at hnew
  · cases hnew
  · rw [Except.ok.injEq] at hnew
    subst hnew
    have hnone : ∀ k v, ¬ ActiveUntil start [] k v := by
      rintro k v ⟨later, t, earlier, heq, -⟩
      simp at heq
    exact ⟨rfl, rfl, fun k v hk => absurd hk (hnone k v), fun k v hk => absurd hk (hnone k v)⟩

theorem rotated_start : Rotated start retentionSeconds [] where
  retained later t earlier u heq := by simp at heq
  prepublished later t earlier heq := by simp at heq

/-- Calls that give no other point to an id that counts. -/
def KeepingStep (w : Clocked SigningKeyRotationGuard Int) (t : Transition)
    (w' : Clocked SigningKeyRotationGuard Int) : Prop :=
  clocked Transition.readings Step w t w' ∧ SamePoints w.store t

theorem rotated_run (hpositive : 0 < retentionSeconds)
    (hnew : SigningKeyRotationGuard.create start retentionSeconds = .ok guard)
    (hrun : Run KeepingStep ⟨now, guard⟩ hist w) :
    Guarded start retentionSeconds hist w ∧ Rotated start retentionSeconds hist := by
  refine Run.history (P := fun hist w => Guarded start retentionSeconds hist w ∧
    Rotated start retentionSeconds hist) ⟨guarded_start hnew now, rotated_start⟩ ?_ hrun
  intro hist w t w' ⟨hguarded, hrotated⟩ ⟨hstep, hsame⟩
  have hnext := guarded_step hguarded hpositive hstep hsame
  refine ⟨hnext, rotated_cons hrotated ?_ ?_⟩
  · intro hok u htime k v hk hlt
    have hclock : w'.now = u := by
      rw [hstep.2.1]
      simp [Transition.readings, htime]
    have hkey := (hnext.kept k v hk (by rw [hclock]; exact hlt)).1
    rw [hnext.snapshot, published, if_pos hok] at hkey
    exact hkey
  · intro hok k hactive
    exact prepublished_step hguarded hstep hok hsame hactive

/-- Where no call gives another point to an id that counts, the keys are published before
    they sign and are retained after it; a call that raises changes nothing. -/
theorem keys_rotated {now : Int} (hnew : SigningKeyRotationGuard.create start retentionSeconds = .ok guard)
    (hrun : Run KeepingStep ⟨now, guard⟩ hist w) :
    Rotated start retentionSeconds hist ∧
      ∀ later t earlier, hist = later ++ t :: earlier → t.raised ≠ none →
        ∃ a b, Run KeepingStep ⟨now, guard⟩ earlier a ∧ KeepingStep a t b ∧
          Run KeepingStep b later w ∧ b.store = a.store := by
  have hpositive : 0 < retentionSeconds := by
    simp only [SigningKeyRotationGuard.create] at hnew
    split at hnew
    · cases hnew
    · next hpositive => omega
  refine ⟨(rotated_run hpositive hnew hrun).2, ?_⟩
  rintro later t earlier rfl hraised
  obtain ⟨a, b, hbefore, hstep, hafter⟩ := hrun.split
  exact ⟨a, b, hbefore, hstep, hafter, raised_unchanged hstep.1.store_step hraised⟩

/-! ### Two rotations -/

instance (guard : SigningKeyRotationGuard) (t : Transition) (kid : String) :
    Decidable (Counts guard t kid) :=
  decidable_of_iff (kid = guard.snapshot.activeKid ∨ kid = t.successor.activeKid ∨
      ∃ now ∈ t.now, ∃ e ∈ guard.retirementDeadlines, e.1 = kid ∧ now < e.2) (by
    simp only [Counts, Prod.exists, Option.mem_def]
    constructor
    · rintro (h | h | ⟨now, hnow, kid', deadline, hmem, rfl, hlt⟩)
      · exact .inl h
      · exact .inr (.inl h)
      · exact .inr (.inr ⟨now, deadline, hnow, hmem, hlt⟩)
    · rintro (h | h | ⟨now, deadline, hnow, hmem, hlt⟩)
      · exact .inl h
      · exact .inr (.inl h)
      · exact .inr (.inr ⟨now, hnow, kid, deadline, hmem, rfl, hlt⟩))

instance (guard : SigningKeyRotationGuard) (t : Transition) : Decidable (SamePoints guard t) :=
  inferInstanceAs (Decidable (∀ k ∈ guard.snapshot.keys, Counts guard t k.kid →
    ∀ k' ∈ t.successor.keys, k'.kid = k.kid → k' = k))

def perform (c : SigningKeySnapshot × Int) (w : Clocked SigningKeyRotationGuard Int) :
    Transition × Clocked SigningKeyRotationGuard Int :=
  ((call w.store c.1 (some c.2)).1, ⟨c.2, (call w.store c.1 (some c.2)).2⟩)

/-- The call comes in time; `strict` asks that it keeps the points as well. -/
def possible (strict : Bool) (c : SigningKeySnapshot × Int) (w : Clocked SigningKeyRotationGuard Int) : Bool :=
  decide (w.now ≤ c.2) && (!strict || decide (SamePoints w.store (perform c w).1))

theorem call_fields (guard : SigningKeyRotationGuard) (successor : SigningKeySnapshot) (now : Option Int) :
    (call guard successor now).1.successor = successor ∧ (call guard successor now).1.now = now := by
  unfold call
  split
  · exact ⟨rfl, rfl⟩
  · exact ⟨rfl, rfl⟩

theorem perform_step {strict : Bool} {c : SigningKeySnapshot × Int} (h : possible strict c w = true) :
    clocked Transition.readings Step w (perform c w).1 (perform c w).2 ∧
      (strict = true → SamePoints w.store (perform c w).1) := by
  simp only [possible, Bool.and_eq_true, Bool.or_eq_true, Bool.not_eq_true', decide_eq_true_eq] at h
  obtain ⟨hsuccessor, hnow⟩ := call_fields w.store c.1 (some c.2)
  refine ⟨⟨?_, ?_, ?_⟩, ?_⟩
  · simp [perform, Transition.readings, hnow, h.1]
  · simp [perform, Transition.readings, hnow]
  · simp [Step, perform, hsuccessor, hnow]
  · rintro rfl
    simpa using h.2

theorem run_perform {step : Clocked SigningKeyRotationGuard Int → Transition →
      Clocked SigningKeyRotationGuard Int → Prop} (strict : Bool)
    (calls : List (SigningKeySnapshot × Int)) (w : Clocked SigningKeyRotationGuard Int)
    (h : allowed perform (possible strict) calls w = true)
    (hstep : ∀ w t w', clocked Transition.readings Step w t w' →
      (strict = true → SamePoints w.store t) → step w t w') :
    Run step w (execute perform calls [] w).1 (execute perform calls [] w).2 :=
  execute_steps Run.nil h fun _ w hok => hstep w _ _ (perform_step hok).1 (perform_step hok).2

def oldKey : PublicEcJwk := ⟨"old", "x1", "y1"⟩
def newKey : PublicEcJwk := ⟨"new", "x2", "y2"⟩
def otherKey : PublicEcJwk := ⟨"old", "x3", "y3"⟩

def oldOnly : SigningKeySnapshot := ⟨"old", [oldKey], by decide⟩
def guardOfOld : SigningKeyRotationGuard := ⟨oldOnly, 630, []⟩

def rotation : List (SigningKeySnapshot × Int) :=
  [(⟨"old", [oldKey, newKey], by decide⟩, 0), (⟨"new", [oldKey, newKey], by decide⟩, seconds 1),
    (⟨"new", [newKey], by decide⟩, seconds 630), (⟨"new", [newKey], by decide⟩, seconds 631)]

theorem keys_rotated_sample :
    Rotated oldOnly 630 (execute perform rotation [] ⟨0, guardOfOld⟩).1 :=
  (keys_rotated (show SigningKeyRotationGuard.create oldOnly 630 = .ok guardOfOld from rfl)
    (run_perform true rotation ⟨0, guardOfOld⟩ (by decide +kernel) fun _ _ _ hstep hsame => ⟨hstep, hsame rfl⟩)).1

/-- The active id with another point is accepted at once: the new key signs although it was
    not published, and the old one is gone inside its retention. -/
theorem active_key_replaced :
    ∃ hist w, Run (clocked Transition.readings Step) ⟨0, guardOfOld⟩ hist w ∧
      SigningKeyRotationGuard.create oldOnly 630 = .ok guardOfOld ∧
      w.store.snapshot.keys = [otherKey] ∧ ActiveUntil oldOnly hist oldKey 0 ∧
      ¬ Rotated oldOnly 630 hist := by
  refine ⟨_, _, run_perform false [(⟨"old", [otherKey], by decide⟩, 0)] ⟨0, guardOfOld⟩
    (by decide +kernel) fun _ _ _ hstep _ => hstep, rfl, rfl,
    ⟨[], _, [], rfl, rfl, rfl, ⟨by decide, rfl⟩⟩, fun h => ?_⟩
  have hkey := h.prepublished [] _ [] rfl rfl otherKey ⟨by decide, rfl⟩
  exact absurd hkey (by decide)

end MultiRag.SigningKeys
