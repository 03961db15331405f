/-
  **Proofs about one slot, in any order.**

  `Settled` are the collections of proofs whose newest relevant one decides; exactly
  for these every order leaves the link with the same subject and state.
-/
import Mathlib.Data.Finset.Max
import MultiRag.EnterpriseSubjects

namespace MultiRag.EnterpriseSubjects

open List Table

/-! ### The link of one slot -/

inductive Outcome where
  | positive (subject : String)
  | gone
  | ambiguous
deriving DecidableEq

structure Proof where
  verifiedAt : Int
  outcome : Outcome
deriving DecidableEq

structure View where
  subject : String
  state : EnterpriseSubjectState
  verifiedAt : Option Int
deriving DecidableEq

def View.NotOlder (v : View) (t : Int) : Prop := ∀ u ∈ v.verifiedAt, u ≤ t

instance (v : View) (t : Int) : Decidable (v.NotOlder t) :=
  inferInstanceAs (Decidable (∀ u ∈ v.verifiedAt, u ≤ t))

def View.standing (v : View) : String × EnterpriseSubjectState := (v.subject, v.state)

def View.after (v : View) (p : Proof) : View :=
  if v.NotOlder p.verifiedAt then
    match p.outcome with
    | .positive s =>
      if s = v.subject then
        if v.state = .inactive then v else { v with verifiedAt := some p.verifiedAt }
      else { v with state := .conflict }
    | .gone => if v.state = .conflict then v else ⟨v.subject, .inactive, some p.verifiedAt⟩
    | .ambiguous => ⟨v.subject, .conflict, some p.verifiedAt⟩
  else v

/-- `held` are the subjects that other slots of the tenant hold. -/
def next (held : String → Bool) : Option View → Proof → Option View
  | none, p =>
    match p.outcome with
    | .positive s => if held s then none else some ⟨s, .active, some p.verifiedAt⟩
    | .gone | .ambiguous => none
  | some v, p => some (v.after p)

def Creates (held : String → Bool) (p : Proof) (s : String) : Prop :=
  p.outcome = .positive s ∧ held s = false

def Quarantines (v : View) (p : Proof) : Prop :=
  p.outcome = .ambiguous ∨ ∃ s, p.outcome = .positive s ∧ s ≠ v.subject

def Settled (held : String → Bool) (proofs : List Proof) : Option View → Prop
  | none => ∀ c ∈ proofs, ∀ s, Creates held c s → ∀ q ∈ proofs,
      Creates held q s ∨ (∀ s', ¬ Creates held q s') ∧ q.verifiedAt < c.verifiedAt
  | some v =>
    match v.state with
    | .conflict => True
    | .inactive =>
      (∀ k ∈ proofs, v.NotOlder k.verifiedAt → ¬ Quarantines v k) ∨
      ∃ k ∈ proofs, v.NotOlder k.verifiedAt ∧ Quarantines v k ∧
        ∀ n ∈ proofs, n.outcome = .gone → n.verifiedAt < k.verifiedAt
    | .active =>
      (∀ q ∈ proofs, v.NotOlder q.verifiedAt → q.outcome = .positive v.subject) ∨
      (∃ k ∈ proofs, v.NotOlder k.verifiedAt ∧ Quarantines v k ∧
        ∀ q ∈ proofs, ¬ Quarantines v q → q.verifiedAt < k.verifiedAt) ∨
      ∃ n ∈ proofs, v.NotOlder n.verifiedAt ∧ n.outcome = .gone ∧ ∀ q ∈ proofs, v.NotOlder q.verifiedAt →
        q.outcome = .gone ∨ q.outcome = .positive v.subject ∧ q.verifiedAt < n.verifiedAt

variable {held : String → Bool} {v v' : View} {p k n : Proof} {t : Int}

theorem View.after_stale (h : ¬ v.NotOlder p.verifiedAt) : v.after p = v := by
  simp [View.after, h]

theorem View.after_own (h : p.outcome = .positive v.subject) (hfresh : v.NotOlder p.verifiedAt) :
    v.after p = if v.state = .inactive then v else { v with verifiedAt := some p.verifiedAt } := by
  simp [View.after, h, hfresh]

theorem View.after_gone (h : p.outcome = .gone) (hfresh : v.NotOlder p.verifiedAt) :
    v.after p = if v.state = .conflict then v else ⟨v.subject, .inactive, some p.verifiedAt⟩ := by
  simp [View.after, h, hfresh]

theorem View.after_quarantine (h : Quarantines v p) (hfresh : v.NotOlder p.verifiedAt) :
    (v.after p).state = .conflict := by
  rcases h with h | ⟨s, h, hne⟩
  · simp [View.after, h, hfresh]
  · simp [View.after, h, hfresh, hne]

@[simp] theorem View.after_subject (v : View) (p : Proof) : (v.after p).subject = v.subject := by
  unfold View.after
  split
  · cases p.outcome with
    | positive s =>
      simp only
      split
      · split <;> rfl
      · rfl
    | gone =>
      simp only
      split <;> rfl
    | ambiguous => rfl
  · rfl

theorem outcome_cases (v : View) (p : Proof) :
    p.outcome = .positive v.subject ∨ p.outcome = .gone ∨ Quarantines v p := by
  cases hout : p.outcome with
  | positive s =>
    by_cases hs : s = v.subject
    · exact .inl (by rw [hs])
    · exact .inr (.inr (.inr ⟨s, hout, hs⟩))
  | gone => exact .inr (.inl rfl)
  | ambiguous => exact .inr (.inr (.inl hout))

theorem Quarantines.of_subject (h : Quarantines v p) (hs : v'.subject = v.subject) : Quarantines v' p := by
  unfold Quarantines
  rw [hs]
  exact h

theorem not_quarantines_gone (h : p.outcome = .gone) : ¬ Quarantines v p := by
  rintro (hamb | ⟨s, hs, -⟩)
  · rw [h] at hamb
    cases hamb
  · rw [h] at hs
    cases hs

theorem View.after_own_state (h : p.outcome = .positive v.subject) : (v.after p).state = v.state := by
  by_cases hfresh : v.NotOlder p.verifiedAt
  · rw [View.after_own h hfresh]
    split
    · rfl
    · rfl
  · rw [View.after_stale hfresh]

theorem View.after_gone_state (h : p.outcome = .gone) (htight : v.state ≠ .active) :
    (v.after p).state = v.state := by
  by_cases hfresh : v.NotOlder p.verifiedAt
  · rw [View.after_gone h hfresh]
    cases hstate : v.state with
    | active => exact absurd hstate htight
    | inactive => simp
    | conflict => simp [hstate]
  · rw [View.after_stale hfresh]

theorem View.after_age (v : View) (p : Proof) :
    (v.after p).verifiedAt = v.verifiedAt ∨
      v.NotOlder p.verifiedAt ∧ (v.after p).verifiedAt = some p.verifiedAt := by
  by_cases hfresh : v.NotOlder p.verifiedAt
  · unfold View.after
    rw [if_pos hfresh]
    split
    · split
      · split
        · exact .inl rfl
        · exact .inr ⟨hfresh, rfl⟩
      · exact .inl rfl
    · split
      · exact .inl rfl
      · exact .inr ⟨hfresh, rfl⟩
    · exact .inr ⟨hfresh, rfl⟩
  · exact .inl (by rw [View.after_stale hfresh])

theorem View.after_conflict (h : v.state = .conflict) : (v.after p).state = .conflict := by
  by_cases hfresh : v.NotOlder p.verifiedAt
  · rcases outcome_cases v p with hown | hgone | hquar
    · rw [View.after_own_state hown, h]
    · rw [View.after_gone_state hgone (by simp [h]), h]
    · exact View.after_quarantine hquar hfresh
  · rw [View.after_stale hfresh, h]

theorem View.after_negative (h : p.outcome ≠ .positive v.subject) (hfresh : v.NotOlder p.verifiedAt) :
    (v.after p).state ≠ .active := by
  rcases outcome_cases v p with hown | hgone | hquar
  · exact absurd hown h
  · rw [View.after_gone hgone hfresh]
    split
    · next hconfl => simp [hconfl]
    · simp
  · simp [View.after_quarantine hquar hfresh]

theorem View.after_tight (h : v.state ≠ .active) : (v.after p).state ≠ .active := by
  by_cases hown : p.outcome = .positive v.subject
  · rw [View.after_own_state hown]
    exact h
  · by_cases hfresh : v.NotOlder p.verifiedAt
    · exact View.after_negative hown hfresh
    · rw [View.after_stale hfresh]
      exact h

theorem View.after_notOlder (h : (v.after p).NotOlder t) : v.NotOlder t := by
  unfold View.NotOlder at h
  rcases View.after_age v p with hsame | ⟨hfresh, hage⟩
  · rw [hsame] at h
    exact h
  · rw [hage] at h
    exact fun u hu => Int.le_trans (hfresh u hu) (h _ rfl)

theorem View.after_notOlder_of_le (h : v.NotOlder t) (hle : p.verifiedAt ≤ t) : (v.after p).NotOlder t := by
  unfold View.NotOlder
  rcases View.after_age v p with hsame | ⟨-, hage⟩
  · rw [hsame]
    exact h
  · intro u hu
    rw [hage] at hu
    cases hu
    exact hle

section

variable {w : View} {proofs : List Proof}

def standing (view : Option View) : Option (String × EnterpriseSubjectState) := view.map View.standing

theorem foldl_reaches {σ : Type} {I J : σ → Prop} {f : σ → Proof → σ} {s : σ} (hs : I s) (hk : k ∈ proofs)
    (hstep : ∀ s, I s → ∀ p ∈ proofs, I (f s p) ∨ J (f s p)) (hdecide : ∀ s, I s → J (f s k))
    (hstay : ∀ s, J s → ∀ p ∈ proofs, J (f s p)) : J (proofs.foldl f s) := by
  obtain ⟨before, after, rfl⟩ := append_of_mem hk
  rw [foldl_append, foldl_cons]
  have hbefore : I (before.foldl f s) ∨ J (before.foldl f s) := by
    refine foldlRecOn (motive := fun s => I s ∨ J s) before f (.inl hs) ?_
    intro s hs p hp
    rcases hs with hs | hs
    · exact hstep s hs p (mem_append_left _ hp)
    · exact .inr (hstay s hs p (mem_append_left _ hp))
  refine foldlRecOn (motive := J) after f ?_ fun s hs p hp =>
    hstay s hs p (mem_append_right _ (mem_cons_of_mem k hp))
  rcases hbefore with hs | hs
  · exact hdecide _ hs
  · exact hstay _ hs k (mem_append_right _ mem_cons_self)

/-- The link of the slot is `v` as it was later: the same subject, and no older proof. -/
def Later (v w : View) : Prop := w.subject = v.subject ∧ ∀ t, w.NotOlder t → v.NotOlder t

theorem Later.refl (v : View) : Later v v := ⟨rfl, fun _ h => h⟩

theorem Later.after (h : Later v w) (p : Proof) : Later v (w.after p) :=
  ⟨by rw [View.after_subject, h.1], fun t ht => h.2 t (View.after_notOlder ht)⟩

theorem foldl_next (proofs : List Proof) (v : View) :
    proofs.foldl (next held) (some v) = some (proofs.foldl View.after v) := by
  induction proofs generalizing v with
  | nil => rfl
  | cons p rest ih => exact ih (v.after p)

theorem foldl_subject (proofs : List Proof) (v : View) : (proofs.foldl View.after v).subject = v.subject :=
  foldlRecOn (motive := fun w => w.subject = v.subject) proofs View.after rfl
    fun w hw p _ => by rw [View.after_subject, hw]

theorem foldl_tight (h : v.state ≠ .active) : (proofs.foldl View.after v).state ≠ .active :=
  foldlRecOn (motive := fun w => w.state ≠ .active) proofs View.after h
    fun _ hw _ _ => View.after_tight hw

theorem foldl_conflict (h : v.state = .conflict) : (proofs.foldl View.after v).state = .conflict :=
  foldlRecOn (motive := fun w => w.state = .conflict) proofs View.after h
    fun _ hw _ _ => View.after_conflict hw

theorem ends_conflict (hk : k ∈ proofs) (hquar : Quarantines v k) (hfresh : v.NotOlder k.verifiedAt)
    (hnewest : ∀ q ∈ proofs, ∀ w, Later v w → (v.state ≠ .active → w.state = .inactive) →
      ¬ Quarantines v q → w.NotOlder k.verifiedAt → (w.after q).NotOlder k.verifiedAt) :
    (proofs.foldl View.after v).state = .conflict := by
  by_cases hconfl : v.state = .conflict
  · exact foldl_conflict hconfl
  refine foldl_reaches (f := View.after) (I := fun w => Later v w ∧
      (v.state ≠ .active → w.state = .inactive) ∧ w.NotOlder k.verifiedAt)
    (J := fun w => w.state = .conflict) ⟨Later.refl v, fun hne => ?_, hfresh⟩ hk ?_ ?_
    (fun w hw p _ => View.after_conflict hw)
  · cases hv : v.state with
    | active => exact absurd hv hne
    | inactive => rfl
    | conflict => exact absurd hv hconfl
  · rintro w ⟨hlater, hstate, hage⟩ q hq
    by_cases hafter : (w.after q).state = .conflict
    · exact .inr hafter
    · refine .inl ⟨hlater.after q, fun hne => ?_, ?_⟩
      · have htight : (w.after q).state ≠ .active := by
          apply View.after_tight
          rw [hstate hne]
          simp
        cases hw : (w.after q).state with
        | active => exact absurd hw htight
        | inactive => rfl
        | conflict => exact absurd hw hafter
      · by_cases hq' : Quarantines v q
        · have hstale : ¬ w.NotOlder q.verifiedAt := fun hqfresh =>
            hafter (View.after_quarantine (hq'.of_subject hlater.1) hqfresh)
          rw [View.after_stale hstale]
          exact hage
        · exact hnewest q hq w hlater hstate hq' hage
  · rintro w ⟨hlater, -, hage⟩
    exact View.after_quarantine (hquar.of_subject hlater.1) hage

theorem ends_inactive (hk : n ∈ proofs) (hgone : n.outcome = .gone) (hactive : v.state = .active)
    (hfresh : v.NotOlder n.verifiedAt) (hnewest : ∀ q ∈ proofs, v.NotOlder q.verifiedAt →
      q.outcome = .gone ∨ q.outcome = .positive v.subject ∧ q.verifiedAt < n.verifiedAt) :
    (proofs.foldl View.after v).state = .inactive := by
  have hreach := foldl_reaches (f := View.after) (s := v)
    (I := fun w => Later v w ∧ w.state = .active ∧ w.NotOlder n.verifiedAt)
    (J := fun w => Later v w ∧ w.state = .inactive) ⟨Later.refl v, hactive, hfresh⟩ hk ?_ ?_ ?_
  · exact hreach.2
  · rintro w ⟨hlater, hstate, hage⟩ q hq
    by_cases hqfresh : w.NotOlder q.verifiedAt
    · rcases hnewest q hq (hlater.2 _ hqfresh) with hq' | ⟨hown, hlt⟩
      · refine .inr ⟨hlater.after q, ?_⟩
        rw [View.after_gone hq' hqfresh]
        simp [hstate]
      · refine .inl ⟨hlater.after q, ?_, View.after_notOlder_of_le hage (Int.le_of_lt hlt)⟩
        rw [View.after_own_state (by rw [hown, hlater.1]), hstate]
    · rw [View.after_stale hqfresh]
      exact .inl ⟨hlater, hstate, hage⟩
  · rintro w ⟨hlater, hstate, hage⟩
    refine ⟨hlater.after n, ?_⟩
    rw [View.after_gone hgone hage]
    simp [hstate]
  · rintro w ⟨hlater, hstate⟩ q hq
    refine ⟨hlater.after q, ?_⟩
    by_cases hqfresh : w.NotOlder q.verifiedAt
    · rcases hnewest q hq (hlater.2 _ hqfresh) with hq' | ⟨hown, -⟩
      · rw [View.after_gone_state hq' (by simp [hstate]), hstate]
      · rw [View.after_own_state (by rw [hown, hlater.1]), hstate]
    · rw [View.after_stale hqfresh, hstate]

theorem stays (hidle : ∀ q ∈ proofs, v.NotOlder q.verifiedAt → ∀ w, Later v w → w.state = v.state →
      (w.after q).state = v.state) : (proofs.foldl View.after v).state = v.state := by
  have hboth : Later v (proofs.foldl View.after v) ∧ (proofs.foldl View.after v).state = v.state := by
    refine foldlRecOn (motive := fun w => Later v w ∧ w.state = v.state) proofs View.after
      ⟨Later.refl v, rfl⟩ ?_
    rintro w ⟨hlater, hstate⟩ q hq
    refine ⟨hlater.after q, ?_⟩
    by_cases hqfresh : w.NotOlder q.verifiedAt
    · exact hidle q hq (hlater.2 _ hqfresh) w hlater hstate
    · rw [View.after_stale hqfresh, hstate]
  exact hboth.2

theorem settled_link (h : Settled held proofs (some v)) : ∃ state, ∀ other : List Proof,
    other.Perm proofs → (other.foldl View.after v).state = state := by
  simp only [Settled] at h
  split at h
  · next hconfl => exact ⟨.conflict, fun other _ => foldl_conflict hconfl⟩
  · next hinact =>
    rcases h with hnone | ⟨k, hk, hfresh, hquar, hnewest⟩
    · refine ⟨.inactive, fun other hperm => ?_⟩
      rw [← hinact]
      refine stays fun q hq hqfresh w hlater hstate => ?_
      rcases outcome_cases v q with hown | hgone | hquar
      · rw [View.after_own_state (by rw [hown, hlater.1]), hstate]
      · rw [View.after_gone_state hgone (by simp [hstate, hinact]), hstate]
      · exact absurd hquar (hnone q (hperm.mem_iff.mp hq) hqfresh)
    · refine ⟨.conflict, fun other hperm => ends_conflict (hperm.mem_iff.mpr hk) hquar hfresh ?_⟩
      intro q hq w hlater hstate hq' hage
      rcases outcome_cases v q with hown | hgone | hquarantines
      · by_cases hqfresh : w.NotOlder q.verifiedAt
        · rw [View.after_own (by rw [hown, hlater.1]) hqfresh]
          rw [if_pos (hstate (by simp [hinact]))]
          exact hage
        · rw [View.after_stale hqfresh]
          exact hage
      · exact View.after_notOlder_of_le hage (Int.le_of_lt (hnewest q (hperm.mem_iff.mp hq) hgone))
      · exact absurd hquarantines hq'
  · next hactive =>
    rcases h with hown | ⟨k, hk, hfresh, hquar, hnewest⟩ | ⟨n, hn, hfresh, hgone, hnewest⟩
    · refine ⟨.active, fun other hperm => ?_⟩
      rw [← hactive]
      refine stays fun q hq hqfresh w hlater hstate => ?_
      have hq' := hown q (hperm.mem_iff.mp hq) hqfresh
      rw [View.after_own_state (by rw [hq', hlater.1]), hstate]
    · refine ⟨.conflict, fun other hperm => ends_conflict (hperm.mem_iff.mpr hk) hquar hfresh ?_⟩
      intro q hq w hlater hstate hq' hage
      exact View.after_notOlder_of_le hage (Int.le_of_lt (hnewest q (hperm.mem_iff.mp hq) hq'))
    · exact ⟨.inactive, fun other hperm => ends_inactive (hperm.mem_iff.mpr hn) hgone hactive hfresh
        fun q hq => hnewest q (hperm.mem_iff.mp hq)⟩

theorem next_creates {s : String} (h : Creates held k s) :
    next held none k = some ⟨s, .active, some k.verifiedAt⟩ := by
  simp [next, h.1, h.2]

theorem next_creates_nothing (h : ∀ s, ¬ Creates held k s) : next held none k = none := by
  cases hout : k.outcome with
  | positive s =>
    have hheld : held s = true := by
      by_contra hfree
      exact h s ⟨hout, by simpa using hfree⟩
    simp [next, hout, hheld]
  | gone => simp [next, hout]
  | ambiguous => simp [next, hout]

theorem ends_created {s : String} (hk : k ∈ proofs) (hcreates : Creates held k s)
    (hsettled : ∀ c ∈ proofs, Creates held c s → ∀ q ∈ proofs,
      Creates held q s ∨ (∀ s', ¬ Creates held q s') ∧ q.verifiedAt < c.verifiedAt) :
    standing (proofs.foldl (next held) none) = some (s, .active) := by
  have hreach := foldl_reaches (f := next held) (s := none) (I := fun view => view = none)
    (J := fun view => ∃ w, view = some w ∧ w.subject = s ∧ w.state = .active ∧
      ∃ c ∈ proofs, Creates held c s ∧ w.verifiedAt = some c.verifiedAt) rfl hk ?_ ?_ ?_
  · obtain ⟨w, hw, hsubj, hstate, -⟩ := hreach
    simp [standing, View.standing, hw, hsubj, hstate]
  · rintro view rfl q hq
    rcases hsettled k hk hcreates q hq with hq' | ⟨hnothing, -⟩
    · exact .inr ⟨_, next_creates hq', rfl, rfl, q, hq, hq', rfl⟩
    · exact .inl (next_creates_nothing hnothing)
  · rintro view rfl
    exact ⟨_, next_creates hcreates, rfl, rfl, k, hk, hcreates, rfl⟩
  · rintro view ⟨w, rfl, hsubj, hstate, c, hc, hc', hage⟩ q hq
    by_cases hqfresh : w.NotOlder q.verifiedAt
    · rcases hsettled c hc hc' q hq with hq' | ⟨-, hlt⟩
      · refine ⟨w.after q, rfl, by rw [View.after_subject, hsubj], ?_, q, hq, hq', ?_⟩
        · rw [View.after_own_state (by rw [hq'.1, hsubj]), hstate]
        · rw [View.after_own (by rw [hq'.1, hsubj]) hqfresh]
          simp [hstate]
      · have hle := hqfresh _ hage
        omega
    · exact ⟨w, by simp [next, View.after_stale hqfresh], hsubj, hstate, c, hc, hc', hage⟩

theorem stays_free (h : ∀ q ∈ proofs, ∀ s, ¬ Creates held q s) : proofs.foldl (next held) none = none :=
  foldlRecOn (motive := fun view => view = none) proofs (next held) rfl
    fun view hview q hq => by rw [hview, next_creates_nothing (h q hq)]

variable {view : Option View}

theorem settled_standing (h : Settled held proofs view) {other : List Proof}
    (hperm : other.Perm proofs) :
    standing (other.foldl (next held) view) = standing (proofs.foldl (next held) view) := by
  cases view with
  | some v =>
    obtain ⟨state, hstate⟩ := settled_link h
    rw [foldl_next, foldl_next]
    simp [standing, View.standing, foldl_subject, hstate other hperm, hstate proofs (Perm.refl _)]
  | none =>
    by_cases hfree : ∀ q ∈ proofs, ∀ s, ¬ Creates held q s
    · rw [stays_free hfree, stays_free fun q hq => hfree q (hperm.mem_iff.mp hq)]
    · push Not at hfree
      obtain ⟨c, hc, s, hcreates⟩ := hfree
      have hproofs : ∀ c ∈ proofs, Creates held c s → ∀ q ∈ proofs,
          Creates held q s ∨ (∀ s', ¬ Creates held q s') ∧ q.verifiedAt < c.verifiedAt :=
        fun c hc hcreates => h c hc s hcreates
      rw [ends_created hc hcreates hproofs]
      refine ends_created (hperm.mem_iff.mpr hc) hcreates fun c hc hcreates q hq => ?_
      exact hproofs c (hperm.mem_iff.mp hc) hcreates q (hperm.mem_iff.mp hq)

/-! ### Other collections depend on the order -/

variable {q : Proof}

theorem lt_of_ne (hdist : (proofs.map (·.verifiedAt)).Nodup) (hp : p ∈ proofs) (hq : q ∈ proofs)
    (hne : p ≠ q) (hle : p.verifiedAt ≤ q.verifiedAt) : p.verifiedAt < q.verifiedAt := by
  have hdiffer : p.verifiedAt ≠ q.verifiedAt := fun heq =>
    hne (inj_on_of_nodup_map hdist hp hq heq)
  omega

theorem exists_newest {P : Proof → Prop} (h : ∃ p ∈ proofs, P p) :
    ∃ q ∈ proofs, P q ∧ ∀ p ∈ proofs, P p → p.verifiedAt ≤ q.verifiedAt := by
  classical
  obtain ⟨p, hp, hP⟩ := h
  obtain ⟨q, hq, hmax⟩ := Finset.exists_max_image (proofs.filter (P ·)).toFinset (·.verifiedAt)
    ⟨p, by simp [hp, hP]⟩
  simp only [mem_toFinset, List.mem_filter, decide_eq_true_eq] at hq hmax
  exact ⟨q, hq.1, hq.2, fun p hp hP => hmax p ⟨hp, hP⟩⟩

/-- Two orders leave different standings. -/
def Differ (held : String → Bool) (proofs : List Proof) (view : Option View) : Prop :=
  ∃ one other : List Proof, one.Perm proofs ∧ other.Perm proofs ∧
    standing (one.foldl (next held) view) ≠ standing (other.foldl (next held) view)

theorem differ_of_first (hp : p ∈ proofs) (hq : q ∈ proofs)
    (h : standing ((proofs.erase p).foldl (next held) (next held view p)) ≠
      standing ((proofs.erase q).foldl (next held) (next held view q))) :
    Differ held proofs view :=
  ⟨p :: proofs.erase p, q :: proofs.erase q, (perm_cons_erase hp).symm, (perm_cons_erase hq).symm, h⟩

theorem differ_of_states (hp : p ∈ proofs) (hq : q ∈ proofs)
    (h : ((proofs.erase p).foldl View.after (v.after p)).state ≠
      ((proofs.erase q).foldl View.after (v.after q)).state) : Differ held proofs (some v) := by
  refine differ_of_first hp hq fun heq => h ?_
  simp only [next, foldl_next, standing, Option.map_some, View.standing, Option.some.injEq,
    Prod.mk.injEq] at heq
  exact heq.2

variable {state : EnterpriseSubjectState}

theorem harmless (hstate : v.state = state) (hage : ∀ u, v.NotOlder u → t ≤ u)
    (h : ∀ p ∈ proofs, p.verifiedAt < t ∨ ∀ w : View, w.subject = v.subject → w.state = state →
      (w.after p).state = state) :
    (proofs.foldl View.after v).state = state := by
  have hboth : Later v (proofs.foldl View.after v) ∧ (proofs.foldl View.after v).state = state := by
    refine foldlRecOn (motive := fun w => Later v w ∧ w.state = state) proofs View.after
      ⟨Later.refl v, hstate⟩ ?_
    rintro w ⟨hlater, hw⟩ p hp
    refine ⟨hlater.after p, ?_⟩
    rcases h p hp with hlt | hharmless
    · have hstale : ¬ w.NotOlder p.verifiedAt := fun hfresh => by
        have hle := hage _ (hlater.2 _ hfresh)
        omega
      rw [View.after_stale hstale, hw]
    · exact hharmless w hlater.1 hw
  exact hboth.2

theorem older_of_stale (hstale : ¬ v.NotOlder p.verifiedAt) (hfresh : v.NotOlder q.verifiedAt) :
    p.verifiedAt < q.verifiedAt := by
  unfold View.NotOlder at hstale
  push Not at hstale
  obtain ⟨u, hu, hlt⟩ := hstale
  have hle := hfresh u hu
  omega

section

variable (hdist : (proofs.map (·.verifiedAt)).Nodup)
include hdist

theorem mem_erase (hp : p ∈ proofs.erase q) :
    p ∈ proofs ∧ p ≠ q := by
  have hmem := (Nodup.mem_erase_iff (Nodup.of_map _ hdist)).mp hp
  exact ⟨hmem.2, hmem.1⟩

theorem newest_decides (hq : q ∈ proofs)
    (hfresh : v.NotOlder q.verifiedAt)
    (hnewest : ∀ p ∈ proofs, v.NotOlder p.verifiedAt → p.verifiedAt ≤ q.verifiedAt)
    (hstate : (v.after q).state = state) (hage : (v.after q).verifiedAt = some q.verifiedAt) :
    ((proofs.erase q).foldl View.after (v.after q)).state = state := by
  refine harmless hstate (fun u hu => hu _ hage) fun p hp => .inl ?_
  obtain ⟨hp, hne⟩ := mem_erase hdist hp
  by_cases hpfresh : v.NotOlder p.verifiedAt
  · exact lt_of_ne hdist hp hq hne (hnewest p hp hpfresh)
  · exact older_of_stale hpfresh hfresh

theorem differ_active (hactive : v.state = .active)
    (h : ¬ Settled held proofs (some v)) : Differ held proofs (some v) := by
  simp only [Settled, hactive, not_or] at h
  obtain ⟨hnegative, hconfl, hinact⟩ := h
  push Not at hnegative
  obtain ⟨x, hx, hxfresh, hxneg⟩ := hnegative
  obtain ⟨q, hq, hfresh, hnewest⟩ := exists_newest (P := fun p => v.NotOlder p.verifiedAt) ⟨x, hx, hxfresh⟩
  have hlt : ∀ p ∈ proofs, p ≠ q → p.verifiedAt < q.verifiedAt := by
    intro p hp hne
    by_cases hpfresh : v.NotOlder p.verifiedAt
    · exact lt_of_ne hdist hp hq hne (hnewest p hp hpfresh)
    · exact older_of_stale hpfresh hfresh
  rcases outcome_cases v q with hown | hgone | hquar
  · -- the newest proof confirms the link, the negative one tightens it when it comes first
    have hstays : ((proofs.erase q).foldl View.after (v.after q)).state = .active :=
      newest_decides hdist hq hfresh hnewest (by rw [View.after_own hown hfresh]; simp [hactive])
        (by rw [View.after_own hown hfresh]; simp [hactive])
    refine differ_of_states hx hq ?_
    rw [hstays]
    exact foldl_tight (View.after_negative hxneg hxfresh)
  · -- some older proof quarantines the link when it comes first
    have hother : ∃ k ∈ proofs, v.NotOlder k.verifiedAt ∧ Quarantines v k := by
      by_contra hnone
      push Not at hnone
      refine hinact ⟨q, hq, hfresh, hgone, fun p hp hpfresh => ?_⟩
      rcases outcome_cases v p with hown | hgone' | hquar
      · have hne : p ≠ q := fun heq => by
          rw [heq, hgone] at hown
          cases hown
        exact .inr ⟨hown, hlt p hp hne⟩
      · exact .inl hgone'
      · exact absurd hquar (hnone p hp hpfresh)
    obtain ⟨k, hk, hkfresh, hquar⟩ := hother
    have hstays : ((proofs.erase q).foldl View.after (v.after q)).state = .inactive :=
      newest_decides hdist hq hfresh hnewest (by rw [View.after_gone hgone hfresh]; simp [hactive])
        (by rw [View.after_gone hgone hfresh]; simp [hactive])
    refine differ_of_states hk hq ?_
    rw [foldl_conflict (View.after_quarantine hquar hkfresh), hstays]
    simp
  · refine absurd ⟨q, hq, hfresh, hquar, fun p hp hp' => hlt p hp ?_⟩ hconfl
    rintro rfl
    exact hp' hquar

theorem differ_inactive (hinact : v.state = .inactive)
    (h : ¬ Settled held proofs (some v)) : Differ held proofs (some v) := by
  simp only [Settled, hinact, not_or] at h
  obtain ⟨hquarantined, hnone⟩ := h
  push Not at hquarantined
  obtain ⟨k, hk, hkfresh, hquar⟩ := hquarantined
  obtain ⟨q, hq, ⟨hfresh, hrelevant⟩, hnewest⟩ := exists_newest
    (P := fun p => v.NotOlder p.verifiedAt ∧ (p.outcome = .gone ∨ Quarantines v p))
    ⟨k, hk, hkfresh, .inr hquar⟩
  rcases hrelevant with hgone | hquar'
  · refine differ_of_states hk hq ?_
    rw [foldl_conflict (View.after_quarantine hquar hkfresh)]
    have hstate : ((proofs.erase q).foldl View.after (v.after q)).state = .inactive := by
      refine harmless (by rw [View.after_gone hgone hfresh]; simp [hinact])
        (fun u hu => hu q.verifiedAt (by rw [View.after_gone hgone hfresh]; simp [hinact])) ?_
      intro p hp
      obtain ⟨hp, hne⟩ := mem_erase hdist hp
      by_cases hpfresh : v.NotOlder p.verifiedAt
      · rcases outcome_cases v p with hown | hrelevant
        · refine .inr fun w hw hstate => ?_
          rw [View.after_own_state (by rw [hown, hw, View.after_subject]), hstate]
        · exact .inl (lt_of_ne hdist hp hq hne (hnewest p hp ⟨hpfresh, hrelevant⟩))
      · exact .inl (older_of_stale hpfresh hfresh)
    rw [hstate]
    simp
  · refine absurd ⟨q, hq, hfresh, hquar', fun n hn hgone => ?_⟩ hnone
    have hne : n ≠ q := by
      rintro rfl
      exact not_quarantines_gone hgone hquar'
    by_cases hnfresh : v.NotOlder n.verifiedAt
    · exact lt_of_ne hdist hn hq hne (hnewest n hn ⟨hnfresh, .inl hgone⟩)
    · exact older_of_stale hnfresh hfresh

theorem differ_free
    (h : ¬ Settled held proofs none) : Differ held proofs none := by
  simp only [Settled] at h
  push Not at h
  obtain ⟨c, hc, s, hcreates, q, hq, hother, hlate⟩ := h
  have hfirst : ∀ p s, Creates held p s → standing ((proofs.erase p).foldl (next held) (next held none p)) =
      some (s, ((proofs.erase p).foldl View.after ⟨s, .active, some p.verifiedAt⟩).state) := by
    intro p s hp
    rw [next_creates hp, foldl_next]
    simp [standing, View.standing, foldl_subject]
  by_cases hsame : ∀ p ∈ proofs, ∀ s', Creates held p s' → s' = s
  · -- all proofs create one subject, and `q` is too late for the link of `c`
    have hnothing : ∀ s', ¬ Creates held q s' := fun s' hq' => hother (hsame q hq s' hq' ▸ hq')
    have hne : c ≠ q := by
      rintro rfl
      exact hnothing s hcreates
    have hlt := lt_of_ne hdist hc hq hne (hlate hnothing)
    have hcq : q ∈ proofs.erase c := (mem_erase_of_ne hne.symm).mpr hq
    classical
    let creates : Proof → Bool := fun p => decide (Creates held p s)
    refine ⟨c :: q :: (proofs.erase c).erase q, proofs.filter (fun p => !creates p) ++ proofs.filter creates,
      ?_, ?_, ?_⟩
    · exact ((perm_cons_erase hcq).symm.cons c).trans (perm_cons_erase hc).symm
    · exact perm_append_comm.trans (filter_append_perm creates proofs)
    · have hactive : standing ((proofs.filter (fun p => !creates p) ++ proofs.filter creates).foldl
          (next held) none) = some (s, .active) := by
        rw [foldl_append, stays_free]
        · refine ends_created (k := c) (List.mem_filter.mpr ⟨hc, by simpa [creates] using hcreates⟩) hcreates ?_
          intro c' _ _ p hp
          exact .inl (by simpa [creates] using (List.mem_filter.mp hp).2)
        · intro p hp s' hp'
          obtain ⟨hp, hnot⟩ := List.mem_filter.mp hp
          have heq := hsame p hp s' hp'
          subst heq
          simp [creates, hp'] at hnot
      rw [hactive, foldl_cons, next_creates hcreates, foldl_next]
      simp only [standing, Option.map_some, View.standing, ne_eq, Option.some.injEq, Prod.mk.injEq, not_and]
      intro _
      rw [foldl_cons]
      refine foldl_tight (View.after_negative ?_ fun u hu => ?_)
      · intro hown
        exact hnothing s ⟨hown, hcreates.2⟩
      · cases hu
        exact Int.le_of_lt hlt
  · push Not at hsame
    obtain ⟨p, hp, s', hp', hne⟩ := hsame
    refine differ_of_first hp hc ?_
    rw [hfirst p s' hp', hfirst c s hcreates]
    simp [hne]

theorem differ_of_unsettled
    (h : ¬ Settled held proofs view) : Differ held proofs view := by
  cases view with
  | none => exact differ_free hdist h
  | some v =>
    cases hstate : v.state with
    | active => exact differ_active hdist hstate h
    | inactive => exact differ_inactive hdist hstate h
    | conflict => simp [Settled, hstate] at h

end

end

/-! ### The repository follows `next` -/

def viewOf (row : EnterpriseSubjectLink) : View := ⟨row.subjectValue, row.state, row.verifiedAt⟩

def proofOf (command : VerifiedEnterpriseSubjectCommand) : Option Proof :=
  match command.resolution.status, command.resolution.verifiedAt with
  | .resolved, some t => command.resolution.subject.map fun subject => ⟨t, .positive subject.subject⟩
  | .notFound, some t => some ⟨t, .gone⟩
  | .inactive, some t => some ⟨t, .gone⟩
  | .ambiguous, some t => some ⟨t, .ambiguous⟩
  | _, _ => none

abbrev SlotKey := String × String × EnterpriseSubjectSlot

def slotRow (key : SlotKey) (links : Links) : Option EnterpriseSubjectLink :=
  links.rows.find? fun row => decide (slotColumns row = key)

def slotView (key : SlotKey) (links : Links) : Option View := (slotRow key links).map viewOf

def heldElsewhere (key : SlotKey) (links : Links) (s : String) : Bool :=
  links.rows.any fun row => decide (subjectColumns row = (key.1, key.2.2.subjectType, s)) &&
    decide (slotColumns row ≠ key)

variable {key : SlotKey} {links links' : Links} {row row' : EnterpriseSubjectLink}
  {command : VerifiedEnterpriseSubjectCommand} {subject : EnterpriseSubject} {attempt : Attempt}
  {r : EnterpriseSubjectResolution}

theorem notOlder_viewOf : (viewOf row).NotOlder t ↔ proofIsNotOlder row t = true := by
  cases hv : row.verifiedAt <;> simp [View.NotOlder, viewOf, proofIsNotOlder, hv]

theorem slotRow_eq_some (hslot : links.Unique slotColumns) :
    slotRow key links = some row ↔ row ∈ links ∧ slotColumns row = key := by
  constructor
  · intro h
    exact ⟨mem_of_find?_eq_some h, by simpa using find?_some h⟩
  · rintro ⟨hrow, hkey⟩
    have hsome : (slotRow key links).isSome := find?_isSome.mpr ⟨row, hrow, by simpa using hkey⟩
    obtain ⟨found, hfound⟩ := Option.isSome_iff_exists.mp hsome
    have hcolumns : slotColumns found = key := by simpa using find?_some hfound
    rw [hfound, hslot found (mem_of_find?_eq_some hfound) row hrow (by rw [hcolumns, hkey])]

theorem slotRow_eq_none : slotRow key links = none ↔ ∀ row ∈ links, slotColumns row ≠ key := by
  simp [slotRow, mem_def]

theorem slotForUpdate_eq (hkey : command.slotKey = key) : slotForUpdate command links = slotRow key links := by
  rw [slotForUpdate, slotRow, hkey]

theorem heldElsewhere_iff {s : String} : heldElsewhere key links s = true ↔
    ∃ row ∈ links, subjectColumns row = (key.1, key.2.2.subjectType, s) ∧ slotColumns row ≠ key := by
  simp [heldElsewhere, mem_def]

theorem heldElsewhere_moved (h : Table.Evolves (LinkStep t) links links') (s : String) :
    heldElsewhere key links' s = heldElsewhere key links s := by
  obtain ⟨f, hrows, hf⟩ := h
  rw [Bool.eq_iff_iff, heldElsewhere_iff, heldElsewhere_iff]
  constructor
  · rintro ⟨row', hrow', hsubj, hslot⟩
    rw [mem_def, hrows] at hrow'
    obtain ⟨row, hrow, rfl⟩ := mem_map.mp hrow'
    have htightened := (hf row hrow).tightened
    exact ⟨row, hrow, by rw [← hsubj, htightened.columns], by rw [← htightened.slot]; exact hslot⟩
  · rintro ⟨row, hrow, hsubj, hslot⟩
    have htightened := (hf row hrow).tightened
    refine ⟨f row, ?_, by rw [htightened.columns, hsubj], by rw [htightened.slot]; exact hslot⟩
    rw [mem_def, hrows]
    exact mem_map_of_mem hrow

theorem heldElsewhere_inserted (hinsert : links.insert? row = some links') (hrow : slotColumns row = key)
    (s : String) : heldElsewhere key links' s = heldElsewhere key links s := by
  rw [Bool.eq_iff_iff, heldElsewhere_iff, heldElsewhere_iff]
  constructor
  · rintro ⟨x, hx, hsubj, hslot⟩
    rcases (mem_insert? hinsert).mp hx with rfl | hx
    · exact absurd hrow hslot
    · exact ⟨x, hx, hsubj, hslot⟩
  · rintro ⟨x, hx, hrest⟩
    exact ⟨x, (mem_insert? hinsert).mpr (.inr hx), hrest⟩

theorem Change.heldElsewhere (h : Change command links links') (hkey : command.slotKey = key) (s : String) :
    heldElsewhere key links' s = heldElsewhere key links s := by
  rcases h with rfl | ⟨p, -, hmoved⟩ | ⟨subject, p, id, -, -, hinsert⟩
  · rfl
  · exact heldElsewhere_moved hmoved s
  · exact heldElsewhere_inserted hinsert (by rw [← hkey]; rfl) s

theorem advanceIfNewer_view (hfresh : proofIsNotOlder row t = true) (sourceRevision : Option String) :
    viewOf (advanceIfNewer row t sourceRevision) = { viewOf row with verifiedAt := some t } := by
  unfold advanceIfNewer
  split
  · rfl
  · next hnewer =>
    cases hv : row.verifiedAt with
    | none => simp [proofIsNewer, hv] at hnewer
    | some v =>
      simp only [proofIsNewer, proofIsNotOlder, hv, Option.all_some, decide_eq_true_eq] at hnewer hfresh
      have heq : v = t := by omega
      simp [viewOf, hv, heq]

theorem advanceIfNewer_stale (hstale : proofIsNotOlder row t = false) (sourceRevision : Option String) :
    advanceIfNewer row t sourceRevision = row := by
  unfold advanceIfNewer
  split
  · next hnewer =>
    rw [notOlder_of_newer hnewer] at hstale
    cases hstale
  · rfl

theorem confirmRow_view (row : EnterpriseSubjectLink) (sourceRevision : Option String) :
    viewOf (confirmRow row t sourceRevision) = (viewOf row).after ⟨t, .positive row.subjectValue⟩ := by
  by_cases hfresh : proofIsNotOlder row t = true
  · rw [View.after_own rfl (notOlder_viewOf.mpr hfresh)]
    unfold confirmRow
    split
    · next hinact => simp [viewOf, hinact]
    · next hactive =>
      rw [advanceIfNewer_view hfresh]
      simp [viewOf, hactive]
    · next hconfl =>
      rw [advanceIfNewer_view hfresh]
      simp [viewOf, hconfl]
  · rw [View.after_stale (fun h => hfresh (notOlder_viewOf.mp h))]
    rw [Bool.not_eq_true] at hfresh
    unfold confirmRow
    split
    · rfl
    · rw [advanceIfNewer_stale hfresh]
    · rw [advanceIfNewer_stale hfresh]

variable {sourceRevision : Option String}

theorem tightenRow_gone {status : EnterpriseSubjectResolutionStatus}
    (hstatus : status = .notFound ∨ status = .inactive)
    (h : tightenRow row status t sourceRevision = .ok row') :
    viewOf row' = (viewOf row).after ⟨t, .gone⟩ := by
  have hrow : row' = if row.state ≠ .conflict ∧ proofIsNotOlder row t = true then
      advanceIfNewer { row with state := .inactive } t sourceRevision else row := by
    rcases hstatus with rfl | rfl
    all_goals
      simp only [tightenRow] at h
      split at h
      · next hcond => rw [if_pos hcond]; simpa using h.symm
      · next hcond => rw [if_neg hcond]; simpa using h.symm
  by_cases hfresh : proofIsNotOlder row t = true
  · rw [View.after_gone rfl (notOlder_viewOf.mpr hfresh), hrow]
    by_cases hconfl : row.state = .conflict
    · simp [hconfl, viewOf]
    · have hsame : proofIsNotOlder { row with state := .inactive } t = true := hfresh
      rw [if_pos ⟨hconfl, hfresh⟩, advanceIfNewer_view hsame]
      simp [viewOf, hconfl]
  · rw [View.after_stale (fun h => hfresh (notOlder_viewOf.mp h)), hrow, if_neg (fun h => hfresh h.2)]

theorem tightenRow_ambiguous (h : tightenRow row .ambiguous t sourceRevision = .ok row') :
    viewOf row' = (viewOf row).after ⟨t, .ambiguous⟩ := by
  simp only [tightenRow] at h
  split at h
  · next hfresh =>
    rw [Except.ok.injEq] at h
    have hsame : proofIsNotOlder { row with state := .conflict } t = true := hfresh
    rw [← h, advanceIfNewer_view hsame]
    have hview : (viewOf row).NotOlder t := notOlder_viewOf.mpr hfresh
    simp only [View.after, if_pos hview]
    rfl
  · next hstale =>
    rw [Except.ok.injEq] at h
    rw [View.after_stale (fun h => hstale (notOlder_viewOf.mp h)), h]

variable {rows : List EnterpriseSubjectLink}

theorem mem_quarantine (hmem : ∀ row ∈ rows, row ∈ links) (hnodup : (rows.map (·.id)).Nodup)
    (hrow : row ∈ rows) :
    (if proofIsNotOlder row t then { row with state := .conflict } else row) ∈ quarantine rows t links := by
  unfold quarantine
  -- a row that is not among the rest stays as it is
  have hother : ∀ (rest : List EnterpriseSubjectLink) (links : Links) (x : EnterpriseSubjectLink), x ∈ links →
      x.id ∉ rest.map (·.id) → x ∈ rest.foldl
        (fun links row => links.put { row with state := .conflict }) links := by
    intro rest
    induction rest with
    | nil => exact fun links x hx _ => hx
    | cons y rest ih =>
      intro links x hx hfree
      rw [map_cons, mem_cons, not_or] at hfree
      refine ih _ x (mem_put.mpr (.inr ⟨hx, hfree.1⟩)) hfree.2
  induction rows generalizing links with
  | nil => cases hrow
  | cons first rest ih =>
    rw [map_cons, nodup_cons] at hnodup
    have hfilter : ∀ x ∈ rest.filter (proofIsNotOlder · t), x.id ∈ rest.map (·.id) := fun x hx =>
      mem_map_of_mem (List.mem_filter.mp hx).1
    have hfree : first.id ∉ (rest.filter (proofIsNotOlder · t)).map (·.id) := by
      intro hin
      obtain ⟨x, hx, hid⟩ := mem_map.mp hin
      exact hnodup.1 (hid ▸ hfilter x hx)
    rw [filter_cons]
    rcases mem_cons.mp hrow with rfl | hrest
    · split
      · next hfresh =>
        rw [foldl_cons]
        refine hother _ _ _ (mem_put.mpr (.inl ⟨rfl, row, hmem row mem_cons_self, rfl⟩)) hfree
      · exact hother _ _ _ (hmem row mem_cons_self) hfree
    · split
      · rw [foldl_cons]
        refine ih (fun x hx => mem_put.mpr (.inr ⟨hmem x (mem_cons_of_mem _ hx), ?_⟩))
          hnodup.2 hrest
        intro hid
        exact hnodup.1 (mem_map.mpr ⟨x, hx, hid⟩)
      · exact ih (fun x hx => hmem x (mem_cons_of_mem _ hx)) hnodup.2 hrest

theorem slotView_of_mem (hslot : links.Unique slotColumns) (hrow : row ∈ links) (hkey : slotColumns row = key) :
    slotView key links = some (viewOf row) := by
  rw [slotView, (slotRow_eq_some hslot).mpr ⟨hrow, hkey⟩]
  rfl

theorem slotView_none (h : ∀ row ∈ links, slotColumns row ≠ key) : slotView key links = none := by
  rw [slotView, slotRow_eq_none.mpr h]
  rfl

section

variable (hslot : links.Unique slotColumns)
include hslot

theorem view_confirmed (hunique : links'.Unique slotColumns)
    (hrow : slotRow key links = some row) {s : String} (hs : row.subjectValue = s)
    (hput : links' = links.put (confirmRow row t sourceRevision)) :
    slotView key links' = next (heldElsewhere key links) (slotView key links) ⟨t, .positive s⟩ := by
  subst hput hs
  obtain ⟨hmem, hkey⟩ := (slotRow_eq_some hslot).mp hrow
  obtain ⟨hid, hcolumns, -⟩ := confirmRow_columns row t sourceRevision
  rw [slotView_of_mem hslot hmem hkey, slotView_of_mem hunique
    ((mem_put_of_mem hmem hid).mpr (.inl rfl)) (by rw [hcolumns, hkey]), next, confirmRow_view]

theorem view_conflicting
    (hsubj : links.Unique subjectColumns) (hunique : links'.Unique slotColumns)
    (hkey : command.slotKey = key) (hne : rows ≠ [])
    (hrows : conflictingRows (slotForUpdate command links) (subjectForUpdate command subject links)
      subject.subject = rows)
    (hlinks : links' = quarantine rows t links) :
    slotView key links' = next (heldElsewhere key links) (slotView key links)
      ⟨t, .positive subject.subject⟩ := by
  have hmem : ∀ row ∈ rows, row ∈ links := by
    intro row hrow
    rw [← hrows] at hrow
    rcases mem_conflictingRows hrow with ⟨hslot, -⟩ | ⟨hheld, -⟩
    · exact (slotForUpdate_some hslot).1
    · exact (subjectForUpdate_some hheld).1
  have hnodup := conflictingRows_nodup (slotForUpdate command links)
    (subjectForUpdate command subject links) subject.subject
  rw [hrows] at hnodup
  have hkeySubject : command.subjectKey subject = (key.1, key.2.2.subjectType, subject.subject) := by
    rw [← hkey]
    rfl
  rcases hfound : slotForUpdate command links with _ | row
  · -- the slot is free, and another slot holds the subject
    have hfree := slotForUpdate_none hfound
    rw [hkey] at hfree
    obtain ⟨other, hother⟩ := exists_mem_of_ne_nil rows hne
    rw [← hrows] at hother
    rcases mem_conflictingRows hother with ⟨hslot', -⟩ | ⟨hheld, -⟩
    · rw [hfound] at hslot'
      cases hslot'
    · obtain ⟨hin, hcolumns⟩ := subjectForUpdate_some hheld
      have hheld : heldElsewhere key links subject.subject = true :=
        heldElsewhere_iff.mpr ⟨other, hin, by rw [hcolumns, hkeySubject], hfree other hin⟩
      have hfree' : ∀ row ∈ links', slotColumns row ≠ key := by
        have hmoved : Table.Evolves (LinkStep t) links links' := by
          rw [hlinks]
          exact quarantine_evolves hmem hnodup
        obtain ⟨f, hmap, hf⟩ := hmoved
        intro row hrow
        rw [mem_def, hmap] at hrow
        obtain ⟨old, hold, rfl⟩ := mem_map.mp hrow
        rw [(hf old hold).tightened.slot]
        exact hfree old hold
      rw [slotView_none hfree, slotView_none hfree']
      simp [next, hheld]
  · obtain ⟨hin, hcolumns⟩ := slotForUpdate_some hfound
    rw [hkey] at hcolumns
    have hdiffers : row.subjectValue ≠ subject.subject := by
      intro heq
      obtain ⟨other, hother⟩ := exists_mem_of_ne_nil rows hne
      rw [← hrows, hfound] at hother
      rcases mem_conflictingRows hother with ⟨hsame, hvalue⟩ | ⟨hheld, hids⟩
      · cases hsame
        exact hvalue heq
      · obtain ⟨hin', hcolumns'⟩ := subjectForUpdate_some hheld
        have hrow : subjectColumns row = command.subjectKey subject := by
          simp only [slotColumns, ← hkey, VerifiedEnterpriseSubjectCommand.slotKey, Prod.mk.injEq] at hcolumns
          have htype : row.subjectType = command.slot.subjectType := by rw [← hcolumns.2.2]
          simp only [subjectColumns, VerifiedEnterpriseSubjectCommand.subjectKey, hcolumns.1, htype, heq]
        have hsame := hsubj other hin' row hin (by rw [hcolumns', hrow])
        exact hids row rfl (by rw [hsame])
    have hin' : row ∈ rows := by
      rw [← hrows, hfound, conflictingRows]
      exact mem_append_left _ (by simp [Option.filter, hdiffers])
    have hafter := mem_quarantine (t := t) hmem hnodup hin'
    rw [← hlinks] at hafter
    rw [slotView_of_mem hslot hin hcolumns]
    by_cases hfresh : proofIsNotOlder row t = true
    · rw [if_pos hfresh] at hafter
      rw [slotView_of_mem hunique hafter hcolumns, next]
      have hview : (viewOf row).NotOlder t := notOlder_viewOf.mpr hfresh
      simp only [View.after, if_pos hview]
      simp [viewOf, Ne.symm hdiffers]
    · rw [if_neg hfresh] at hafter
      rw [slotView_of_mem hunique hafter hcolumns, next,
        View.after_stale (fun h => hfresh (notOlder_viewOf.mp h))]

theorem persistResolved_view (hsubj : links.Unique subjectColumns)
    (hunique : links'.Unique slotColumns) (hkey : command.slotKey = key)
    (h : persistResolved command subject t attempt links = (.ok r, links')) :
    slotView key links' = next (heldElsewhere key links) (slotView key links)
      ⟨t, .positive subject.subject⟩ := by
  simp only [persistResolved] at h
  split at h
  · cases h
  · split at h
    · next hfree =>
      obtain ⟨hsame, hheld⟩ := conflictingRows_nil hfree
      split at h
      · next hfound =>
        have hnone := slotForUpdate_none hfound
        rw [hkey] at hnone
        split at h
        · cases h
        · next next' hinsert =>
          obtain ⟨-, rfl⟩ := returning_ok h
          have hin : newLink command subject t attempt.id ∈ links' :=
            (mem_insert? hinsert).mpr (.inl rfl)
          have hfreeSubject : heldElsewhere key links subject.subject = false := by
            rw [← Bool.not_eq_true, heldElsewhere_iff]
            rintro ⟨other, hother, hcolumns, -⟩
            have hkeySubject : subjectColumns other = command.subjectKey subject := by
              rw [hcolumns, ← hkey]
              rfl
            rcases hother' : subjectForUpdate command subject links with _ | found
            · exact subjectForUpdate_none hother' other hother hkeySubject
            · obtain ⟨slot, hmem, -⟩ := hheld found hother'
              rw [hfound] at hmem
              cases hmem
          rw [slotView_none hnone, slotView_of_mem hunique hin hkey]
          simp [next, hfreeSubject, viewOf, newLink]
      · next row hfound =>
        obtain ⟨-, rfl⟩ := returning_ok h
        have hrow : slotRow key links = some row := by rw [← slotForUpdate_eq hkey, hfound]
        exact view_confirmed hslot hunique hrow (hsame row hfound) rfl
    · next conflicting rest hrows =>
      obtain ⟨-, rfl⟩ := returning_ok h
      exact view_conflicting hslot hsubj hunique hkey (cons_ne_nil _ _) hrows rfl

theorem persistNegative_view
    (hunique : links'.Unique slotColumns) (hkey : command.slotKey = key)
    (hproof : proofOf command = some p) (htime : command.resolution.verifiedAt = some t)
    (hstatus : command.resolution.status ≠ .resolved)
    (h : persistNegative command t attempt links = (.ok r, links')) :
    slotView key links' = next (heldElsewhere key links) (slotView key links) p := by
  have hnegative : ∀ s, p.outcome ≠ .positive s := by
    intro s hs
    unfold proofOf at hproof
    split at hproof
    · next hreso _ => exact hstatus hreso
    all_goals (cases hproof; try cases hs)
  have hview : ∀ row row', tightenRow row command.resolution.status t command.resolution.sourceRevision =
      .ok row' → viewOf row' = (viewOf row).after p := by
    intro row row' htighten
    unfold proofOf at hproof
    split at hproof
    · next hreso _ => exact absurd hreso hstatus
    · next hnotFound htime' =>
      cases htime.symm.trans htime'
      cases hproof
      exact tightenRow_gone (.inl hnotFound) htighten
    · next hinact htime' =>
      cases htime.symm.trans htime'
      cases hproof
      exact tightenRow_gone (.inr hinact) htighten
    · next hambiguous htime' =>
      cases htime.symm.trans htime'
      cases hproof
      rw [hambiguous] at htighten
      exact tightenRow_ambiguous htighten
    · cases hproof
  unfold persistNegative at h
  split at h
  · cases h
  · split at h
    · next hfound =>
      cases h
      have hnone := slotForUpdate_none hfound
      rw [hkey] at hnone
      rw [slotView_none hnone, next_creates_nothing fun s hs => hnegative s hs.1]
    · next row hfound =>
      split at h
      · cases h
      · next row' htighten =>
        cases h
        obtain ⟨hin, hcolumns⟩ := slotForUpdate_some hfound
        rw [hkey] at hcolumns
        have hstep := (linkStep_tighten htighten).tightened
        rw [slotView_of_mem hslot hin hcolumns, slotView_of_mem hunique
          ((mem_put_of_mem hin hstep.id).mpr (.inl rfl)) (by rw [hstep.slot, hcolumns]), next,
          hview row row' htighten]

theorem apply_view (hsubj : links.Unique subjectColumns)
    (hkey : command.slotKey = key) (hproof : proofOf command = some p)
    (h : apply command attempt links = (.ok r, links')) :
    slotView key links' = next (heldElsewhere key links) (slotView key links) p := by
  have hunique : links'.Unique slotColumns := (apply_ok h).1.unique_slot hslot
  rcases inTransaction_cases h with ⟨value, hvalue, hbody⟩ | ⟨error, herror, -⟩
  · cases hvalue
    split at hbody
    · split at hbody
      · cases hbody
      · next t htime =>
        split at hbody
        · next hreso =>
          split at hbody
          · cases hbody
          · next subject hsubj' =>
            have hp : p = ⟨t, .positive subject.subject⟩ := by
              simp only [proofOf, hreso, htime, hsubj', Option.map_some, Option.some.injEq] at hproof
              exact hproof.symm
            rw [hp]
            exact persistResolved_view hslot hsubj hunique hkey hbody
        · next hstatus => exact persistNegative_view hslot hunique hkey hproof htime hstatus hbody
    · cases hbody
  · cases herror

theorem step_view {e : Persisted}
    (hsubj : links.Unique subjectColumns) (hkey : e.command.slotKey = key)
    (hproof : proofOf e.command = some p) (hok : e.result = .ok r) (h : Step links e links') :
    slotView key links' = next (heldElsewhere key links) (slotView key links) p := by
  obtain ⟨command, first, retry, result⟩ := e
  subst hok
  simp only [Step, persistResolution] at h
  split at h
  · next hunavailable =>
    simp [proofOf, hunavailable] at hproof
  · split at h
    · next r' links'' happly =>
      cases h
      exact apply_view hslot hsubj hkey hproof happly
    · cases h
    · next links'' happly =>
      have hsame := apply_error happly
      subst hsame
      rcases hretry : apply command retry links'' with ⟨r' | r', links'''⟩
      · rw [hretry] at h
        cases h
      · rw [hretry] at h
        cases h
        exact apply_view hslot hsubj hkey hproof hretry

end

/-! ### Runs about one slot -/

/-- The proofs, oldest first, were applied to the slot by calls that returned. -/
def Applied (key : SlotKey) (start links : Links) (proofs : List Proof) : Prop :=
  ∃ hist, Run Step start hist links ∧ (∀ e ∈ hist, e.command.slotKey = key ∧ ∃ r, e.result = .ok r) ∧
    hist.map (fun e => proofOf e.command) = proofs.reverse.map some

variable {start : Links} {proofs one other : List Proof}

theorem applied_view (hslot : start.Unique slotColumns) (hsubj : start.Unique subjectColumns)
    (h : Applied key start links proofs) :
    slotView key links = proofs.foldl (next (heldElsewhere key start)) (slotView key start) ∧
      links.Unique slotColumns ∧ links.Unique subjectColumns ∧
      heldElsewhere key links = heldElsewhere key start := by
  obtain ⟨hist, hrun, hcalls, hproofs⟩ := h
  generalize hrev : proofs.reverse = reversed at hproofs
  have hfold : proofs = reversed.reverse := by rw [← hrev, reverse_reverse]
  rw [hfold]
  clear hrev hfold
  induction hrun generalizing reversed with
  | nil =>
    have hnil : reversed = [] := by simpa using hproofs.symm
    subst hnil
    exact ⟨rfl, hslot, hsubj, rfl⟩
  | @cons hist a b e hbefore hstep ih =>
    cases reversed with
    | nil => simp at hproofs
    | cons p rest =>
      rw [map_cons, map_cons, List.cons.injEq] at hproofs
      obtain ⟨hview, hslot', hsubj', hheld⟩ :=
        ih (fun e he => hcalls e (mem_cons_of_mem _ he)) rest hproofs.2
      obtain ⟨hkey, r, hok⟩ := hcalls e mem_cons_self
      have hchange := step_change hstep
      refine ⟨?_, hchange.unique_slot hslot', hchange.unique_subject hsubj', ?_⟩
      · rw [step_view hslot' hsubj' hkey hproofs.1 hok hstep, hheld, hview, reverse_cons,
          foldl_append, foldl_cons, foldl_nil]
      · funext s
        rw [hchange.heldElsewhere hkey s, hheld]

/-- Two orders of the same proofs leave the same standing exactly when the collection is
    settled; and after a negative proof that was not older than the link, no proof makes the
    slot active again. -/
theorem proofs_order (hslot : start.Unique slotColumns) (hsubject : start.Unique subjectColumns)
    (hdistinct : (proofs.map (·.verifiedAt)).Nodup) :
    (Settled (heldElsewhere key start) proofs (slotView key start) →
      ∀ one other links links', one.Perm proofs → other.Perm proofs → Applied key start links one →
        Applied key start links' other → standing (slotView key links) = standing (slotView key links')) ∧
    (¬ Settled (heldElsewhere key start) proofs (slotView key start) →
      ∃ one other : List Proof, one.Perm proofs ∧ other.Perm proofs ∧ ∀ links links',
        Applied key start links one → Applied key start links' other →
          standing (slotView key links) ≠ standing (slotView key links')) ∧
    (∀ before p after m links v, before ++ p :: after = proofs → Applied key start m before →
      Applied key m links (p :: after) → slotView key m = some v → p.outcome ≠ .positive v.subject →
        v.NotOlder p.verifiedAt → ∀ w, slotView key links = some w → w.state ≠ .active) := by
  refine ⟨?_, ?_, ?_⟩
  · intro hsettled one other links links' hone hother happlied happlied'
    rw [(applied_view hslot hsubject happlied).1, (applied_view hslot hsubject happlied').1,
      settled_standing hsettled hone, settled_standing hsettled hother]
  · intro hunsettled
    obtain ⟨one, other, hone, hother, hdiffer⟩ := differ_of_unsettled hdistinct hunsettled
    refine ⟨one, other, hone, hother, fun links links' happlied happlied' => ?_⟩
    rw [(applied_view hslot hsubject happlied).1, (applied_view hslot hsubject happlied').1]
    exact hdiffer
  · intro before p after m links v _ hbefore hafter hview hnegative hfresh w hw
    obtain ⟨-, hslot', hsubject', -⟩ := applied_view hslot hsubject hbefore
    have hend := (applied_view hslot' hsubject' hafter).1
    rw [hview, hw, foldl_cons] at hend
    simp only [next, foldl_next, Option.some.injEq] at hend
    rw [hend]
    exact foldl_tight (View.after_negative hnegative hfresh)

theorem applied_perform (calls : List (VerifiedEnterpriseSubjectCommand × Attempt))
    (hcalls : (execute perform calls [] start).1.all
      (fun e => decide (e.command.slotKey = key) && e.result.toBool) = true)
    (hproofs : (execute perform calls [] start).1.map (fun e => proofOf e.command) = proofs.reverse.map some) :
    Applied key start (execute perform calls [] start).2 proofs := by
  refine ⟨_, run_perform calls start, fun e he => ?_, hproofs⟩
  have h := all_eq_true.mp hcalls e he
  simp only [Bool.and_eq_true, decide_eq_true_eq] at h
  obtain ⟨hkey, hok⟩ := h
  cases hresult : e.result with
  | error code => simp [hresult, Except.toBool] at hok
  | ok r => exact ⟨hkey, r, rfl⟩

/-! ### Two orders of two proofs -/

def userSlot : SlotKey := ("t", "u", talentSlot)

def joined : VerifiedEnterpriseSubjectCommand × Attempt :=
  (resolvedAt "u" "p1" 10 rfl, ⟨true, 40, "r1"⟩)

def left : VerifiedEnterpriseSubjectCommand × Attempt :=
  (inactiveAt "u" 20 (by decide +kernel), ⟨true, 40, "r2"⟩)

def ambiguousAt (user : String) (at_ : Int)
    (h : validCommand user "t" talentSlot ⟨.ambiguous, none, some at_, none⟩ = true) :
    VerifiedEnterpriseSubjectCommand :=
  ⟨user, "t", talentSlot, _, h⟩

def unclear : VerifiedEnterpriseSubjectCommand × Attempt :=
  (ambiguousAt "u" 30 (by decide +kernel), ⟨true, 40, "r3"⟩)

def activeStart : Links := (execute perform [joined] [] Table.empty).2

theorem activeStart_unique : activeStart.Unique slotColumns ∧ activeStart.Unique subjectColumns := by
  have happlied : Applied userSlot Table.empty activeStart [⟨10, .positive "p1"⟩] :=
    applied_perform [joined] (by decide +kernel) (by decide +kernel)
  obtain ⟨-, hslot, hsubj, -⟩ := applied_view (unique_of_forall_not_mem not_mem_empty)
    (unique_of_forall_not_mem not_mem_empty) happlied
  exact ⟨hslot, hsubj⟩

theorem unclear_settled : Settled (heldElsewhere userSlot activeStart)
    [⟨20, .gone⟩, ⟨30, .ambiguous⟩] (slotView userSlot activeStart) := by
  have hview : slotView userSlot activeStart = some ⟨"p1", .active, some 10⟩ := by decide +kernel
  rw [hview]
  refine .inr (.inl ⟨⟨30, .ambiguous⟩, by simp, by decide, .inl rfl, ?_⟩)
  intro q hq hother
  simp only [mem_cons, not_mem_nil, or_false] at hq
  rcases hq with rfl | rfl
  · decide
  · exact absurd (.inl rfl) hother

theorem proofs_order_sample :
    standing (slotView userSlot (execute perform [left, unclear] [] activeStart).2) =
      standing (slotView userSlot (execute perform [unclear, left] [] activeStart).2) :=
  (@proofs_order userSlot activeStart [⟨20, .gone⟩, ⟨30, .ambiguous⟩] activeStart_unique.1
    activeStart_unique.2 (by decide +kernel)).1 unclear_settled
    [⟨20, .gone⟩, ⟨30, .ambiguous⟩] [⟨30, .ambiguous⟩, ⟨20, .gone⟩] _ _ (Perm.refl _)
    (Perm.swap _ _ _) (applied_perform [left, unclear] (by decide +kernel) (by decide +kernel))
    (applied_perform [unclear, left] (by decide +kernel) (by decide +kernel))

/-- The slot ends inactive or active, by the order of two proofs: a negative proof about a
    missing link leaves no trace. -/
theorem late_proof_activates :
    ∃ links links', Applied userSlot Table.empty links [⟨10, .positive "p1"⟩, ⟨20, .gone⟩] ∧
      Applied userSlot Table.empty links' [⟨20, .gone⟩, ⟨10, .positive "p1"⟩] ∧
      standing (slotView userSlot links) = some ("p1", .inactive) ∧
      standing (slotView userSlot links') = some ("p1", .active) :=
  ⟨_, _, applied_perform [joined, left] (by decide +kernel) (by decide +kernel),
    applied_perform [left, joined] (by decide +kernel) (by decide +kernel), by decide +kernel,
    by decide +kernel⟩

end MultiRag.EnterpriseSubjects
