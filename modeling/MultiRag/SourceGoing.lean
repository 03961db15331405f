/-
  **What a recovery record keeps while an insertion is under way.**

  Until the last transition of `ready`, and throughout a compensation, the record is pending and
  the copy in memory names the record that was ready before (`Going`). A call that raises when the
  record is already this insertion's `ready` is excused here (`Finished`).
-/
import MultiRag.SourceInsertion

namespace MultiRag.SourceRecovery

open Availability Program

/-! ### States -/

def Finished (nonce : Nat) (s : Insertion) : Prop :=
  ∃ m, s.record = some (.ready m) ∧ m.nonce = nonce

variable {s : Insertion}

theorem finished_iff {nonce : Nat} : Finished nonce s ↔
    s.record.any (fun record => Resolved (some record) ∧ record.nonce = nonce) = true := by
  unfold Finished
  rcases s.record with _ | record
  · simp
  cases record with
  | ready m => simp [Resolved, Record.nonce, Record.material]
  | pending phase m prior => simp [Resolved]

instance (nonce : Nat) (s : Insertion) : Decidable (Finished nonce s) :=
  decidable_of_iff _ finished_iff.symm

def Blocked (w : World) : Prop := ∃ phase m prior, w.record = some (.pending phase m prior)

/-- The rows with these ids, SQL and the record are as they were. -/
structure AsBefore (ids : List String) (w w' : World) : Prop where
  store : ∀ id ∈ ids, w'.store.get? id = w.store.get? id
  sql : w'.sql = w.sql
  record : w'.record = w.record

variable {w : World}

theorem not_resolved_iff : ¬ Resolved w.record ↔ Blocked w := by
  unfold Blocked
  match w.record with
  | none => simp [Resolved]
  | some (.ready m) => simp [Resolved]
  | some (.pending phase m prior) => simp [Resolved]

/-- A pending record of the insertion, made after the record there was. -/
def Held (batch : Batch) (w : World) (φ : Material → Prop) (record : Record) : Prop :=
  ∃ phase m prior, record = .pending phase m prior ∧ prior.map Record.ready = w.record ∧
    m.nonce = batch.nonce ∧ φ m

/-- The insertion has written to the store and its record is pending.  `φ` is about the
    material in memory, `χ` about the store, the session and SQL. -/
structure Going (batch : Batch) (w : World) (φ : Material → Prop) (χ : Rows → Sql → Sql → Prop)
    (s : Insertion) : Prop where
  started : s.nativeStarted = true
  blocked : Blocked s.toWorld
  held : ∃ record, s.material = some record ∧ Held batch w φ record
  rest : χ s.store s.session s.sql

variable {batch : Batch} {φ ψ : Material → Prop} {record : Record}

theorem Held.mono (h : Held batch w φ record) (hφ : ∀ m, φ m → ψ m) : Held batch w ψ record := by
  obtain ⟨phase, m, prior, hrecord, hprior, hnonce, hm⟩ := h
  exact ⟨phase, m, prior, hrecord, hprior, hnonce, hφ m hm⟩

variable {change : Material → Material}

theorem Held.withPhase (h : Held batch w φ record) (phase : Phase)
    (hnonce : ∀ m, (change m).nonce = m.nonce) (hchange : ∀ m, φ m → ψ (change m)) :
    Held batch w ψ (record.withPhase phase change) := by
  obtain ⟨_, m, prior, rfl, hprior, hm, hφ⟩ := h
  exact ⟨phase, change m, prior, rfl, hprior, (hnonce m).trans hm, hchange m hφ⟩

theorem Held.withMaterial (h : Held batch w φ record) (hnonce : ∀ m, (change m).nonce = m.nonce)
    (hchange : ∀ m, φ m → ψ (change m)) :
    Held batch w ψ (record.withMaterial change) := by
  obtain ⟨phase, m, prior, rfl, hprior, hm, hφ⟩ := h
  exact ⟨phase, change m, prior, rfl, hprior, (hnonce m).trans hm, hchange m hφ⟩

theorem Going.mono {φ' : Material → Prop} {χ χ' : Rows → Sql → Sql → Prop}
    (h : Going batch w φ χ s) (hφ : ∀ m, φ m → φ' m)
    (hχ : ∀ store session sql, χ store session sql → χ' store session sql) :
    Going batch w φ' χ' s := by
  obtain ⟨record, hmaterial, hheld⟩ := h.held
  exact ⟨h.started, h.blocked, ⟨record, hmaterial, hheld.mono hφ⟩, hχ _ _ _ h.rest⟩

theorem Going.fixed {θ : Sql → Prop} {ρ : Rows → Sql → Prop}
    (h : Going batch w φ (fun store session sql => θ session ∧ ρ store sql) s) :
    Going batch w φ (fun store session sql => session = s.session ∧ ρ store sql) s :=
  ⟨h.started, h.blocked, h.held, rfl, h.rest.2⟩

variable {X P : Insertion → Prop} {E : Failure → Insertion → Prop} {before after : Option Record}

/-- The state does not say what the mirror is. -/
def IgnoresMirror (I : Insertion → Prop) : Prop := ∀ s mirror, I s → I { s with mirror := mirror }

theorem triple_transition {Q : Unit → Insertion → Prop}
    (hQ : ∀ s, P s → Q () { s with record := after }) (hsame : ∀ error s, P s → E error s)
    (hafter : ∀ error s, P s → ¬ X { s with record := after } → E error { s with record := after }) :
    Triple X P (transition before after) Q E := by
  -- the state after the transaction, whatever it answered
  apply triple_bind (R := fun _ s' => ∃ s, P s ∧ (s' = s ∨ s' = { s with record := after }))
  · apply triple_attempt (R := fun _ s' => ∃ s, P s ∧ (s' = s ∨ s' = { s with record := after }))
    · apply triple_bind (R := fun _ s' => ∃ s, P s ∧ (s' = s ∨ s' = { s with record := after }))
      · have hstep : ∀ s, P s → ∃ s₀, P s₀ ∧
            ((if s.record = before then (true, { s with record := after }) else (false, s)).2 = s₀ ∨
              (if s.record = before then (true, { s with record := after }) else (false, s)).2 =
                { s₀ with record := after }) := by
          intro s hs
          refine ⟨s, hs, ?_⟩
          split
          · exact .inr rfl
          · exact .inl rfl
        exact triple_call hstep (fun s hs _ => ⟨s, hs, .inl rfl⟩) fun s hs _ => hstep s hs
      · intro owned
        exact triple_require (fun _ hs _ => hs) fun _ hs _ => hs
    · intro _
      exact triple_done fun _ hs => hs
  · intro _
    apply triple_bind (R := fun stored s' => stored = s'.record ∧
      ∃ s, P s ∧ (s' = s ∨ s' = { s with record := after }))
    · refine triple_read (fun s' hs => ⟨rfl, hs⟩) ?_
      rintro s' ⟨s, hs, rfl | rfl⟩ hX
      · exact hsame _ s' hs
      · exact hafter _ s hs hX
    · intro stored
      refine triple_require ?_ ?_
      · rintro s' ⟨rfl, s, hs, rfl | rfl⟩ hstored
        · have h := hQ s' hs
          rw [← hstored] at h
          exact h
        · exact hQ s hs
      · rintro s' ⟨rfl, s, hs, rfl | rfl⟩ hstored
        · exact hsame _ s' hs
        · exact absurd rfl hstored

variable {I : Insertion → Prop}

theorem keeps_transition (h : ∀ s, I s → I { s with record := after }) :
    Keeps I (transition before after) :=
  fun _ => triple_transition h (fun _ _ hs => hs) fun _ s hs _ => h s hs

/-! ### The mirror -/

theorem keeps_confirm : Keeps I confirm := keeps_read

section

variable (hI : IgnoresMirror I)
include hI

theorem keeps_writeMirror : Keeps I (writeMirror record) := by
  apply keeps_bind keeps_read
  rintro (_ | previous)
  on_goal 2 => refine keeps_when fun _ => keeps_bind keeps_require fun _ => ?_
  all_goals
    apply keeps_bind
    · apply keeps_attempt
      · apply keeps_call
        intro s hs
        split
        · exact hI s _ hs
        · exact hs
      · exact fun _ => keeps_done
    · exact fun _ => keeps_bind keeps_read fun _ => keeps_require

theorem keeps_clear : Keeps I (clear record) := by
  apply keeps_bind
  · apply keeps_call
    intro s hs
    split
    · exact hs
    · split
      · exact hI s _ hs
      · exact hs
  · exact fun _ => keeps_require

theorem triple_clearMirror :
    Triple X I (clearMirror record) (fun _ s => I s ∧ s.mirror = none) fun _ => I := by
  apply triple_ask
  · exact fun _ hs _ => hs
  · intro raw
    match raw with
    | none => exact triple_done fun s hs => ⟨hs.1, hs.2.symm⟩
    | some data =>
      apply Triple.pre (P := I) _ fun _ hs => hs.1
      apply triple_bind (keeps_require X)
      intro _
      apply triple_bind (keeps_attempt (keeps_clear hI) (fun error =>
        keeps_bind keeps_read fun _ => keeps_when fun _ => keeps_raise) X)
      intro _
      apply triple_ask
      · exact fun _ hs _ => hs
      · intro present
        refine triple_require ?_ fun _ hs _ => hs.1
        rintro s ⟨hs, rfl⟩ hnone
        exact ⟨hs, Option.isNone_iff_eq_none.mp (by simpa using hnone)⟩

/-! ### Updates -/

theorem keeps_update {after : Record} {mirror : Bool}
    (hrecord : ∀ s, I s → I { s with record := some after })
    (hmaterial : ∀ s, I s → I { s with material := some after }) :
    Keeps I (update record after mirror) := by
  apply keeps_bind (keeps_transition hrecord)
  intro _
  apply keeps_bind (keeps_modify hmaterial)
  intro _
  exact keeps_when fun _ => keeps_writeMirror hI

theorem triple_preserve {α : Type} {seen : Seen} {Q : α → Insertion → Prop}
    (hrecord : ∀ s phase m prior, I s → I { s with record := some (.pending phase m prior) })
    (hmaterial : ∀ s phase m prior, I s → I { s with material := some (.pending phase m prior) }) :
    Triple X I (preserve record seen : Action α) Q fun _ => I := by
  apply triple_seq
  · apply keeps_attempt
    · exact keeps_update hI (fun s => hrecord s _ _ _) fun s => hmaterial s _ _ _
    · exact fun _ => keeps_raise
  · exact fun _ => triple_raise fun _ hs => hs

end

variable {χ : Rows → Sql → Sql → Prop}

theorem going_ignoresMirror : IgnoresMirror (Going batch w φ χ) :=
  fun _ _ h => ⟨h.started, h.blocked, h.held, h.rest⟩

theorem Going.pending {phase : Phase} {m : Material} {prior : Option Material}
    (h : Going batch w φ χ s) : Going batch w φ χ { s with record := some (.pending phase m prior) } :=
  ⟨h.started, ⟨phase, m, prior, rfl⟩, h.held, h.rest⟩

theorem going_current : Triple X (Going batch w φ χ) current
    (fun record s => Going batch w φ χ s ∧ s.material = some record ∧ Held batch w φ record)
    fun _ => Going batch w φ χ := by
  apply triple_bind (R := fun material s => Going batch w φ χ s ∧ material = s.material)
  · exact triple_get fun _ hs => ⟨hs, rfl⟩
  intro material
  match material with
  | none => exact triple_raise fun _ hs => hs.1
  | some record =>
    refine triple_done ?_
    rintro s ⟨hs, hmaterial⟩
    obtain ⟨record', hrecord', hheld⟩ := hs.held
    cases hmaterial.trans hrecord'
    exact ⟨hs, hrecord', hheld⟩

theorem going_update {after : Record} {mirror : Bool} (hP : ∀ s, P s → Going batch w φ χ s)
    (hafter : Held batch w ψ after)
    (hE : ∀ error s, Going batch w (fun _ => True) χ s → E error s) :
    Triple X P (update record after mirror) (fun _ => Going batch w ψ χ) E := by
  have hany : ∀ θ error s, Going batch w θ χ s → E error s :=
    fun θ error s hs => hE error s (hs.mono (fun _ _ => trivial) fun _ _ _ h => h)
  apply triple_bind (R := fun _ => Going batch w φ χ)
  · obtain ⟨phase, m, prior, rfl, -⟩ := hafter
    exact triple_transition (fun s hs => (hP s hs).pending) (fun _ s hs => hany _ _ s (hP s hs))
      fun _ s hs _ => hany _ _ _ (hP s hs).pending
  intro _
  apply triple_bind (R := fun _ => Going batch w ψ χ)
  · refine triple_modify fun s hs => ?_
    exact ⟨hs.started, hs.blocked, ⟨after, rfl, hafter⟩, hs.rest⟩
  intro _
  exact (keeps_when fun _ => keeps_writeMirror going_ignoresMirror).triple (fun _ hs => hs)
    (fun _ _ hs => hs) fun error s hs => hany _ error s hs

end MultiRag.SourceRecovery
