/-
  **Programs whose calls may fail.**

  A program works on a state by calls to services. Any call of a run may go wrong: it raises, and
  parts of its effect may have taken place. Which calls go wrong is a plan that the run carries;
  every call takes the head of it. `Program.Triple` is partial correctness with one postcondition
  for each way a program ends. It is relative to failures that are *excused*: after a call has
  gone wrong in an excused state the triple promises nothing more.
-/
import Mathlib.Data.List.Infix

namespace MultiRag

open List

inductive Fault where
  | none
  /-- It raises; the parts of its effect that are told have taken place. -/
  | raised (took : Nat → Bool)

/-- A state, what is going to go wrong, and the states in which a call has raised. -/
structure Machine (σ : Type) where
  plan : List Fault
  state : σ
  failed : List σ

/-- The error a caller gets when a call goes wrong. -/
class LostCall (ε : Type) where
  lost : ε

structure Program (σ ε α : Type) where
  run : Machine σ → Except ε α × Machine σ
  grows : ∀ m, m.failed <:+ (run m).2.failed

namespace Program

variable {σ ε α β : Type}

def done (value : α) : Program σ ε α where
  run m := (.ok value, m)
  grows m := suffix_refl m.failed

def raise (error : ε) : Program σ ε α where
  run m := (.error error, m)
  grows m := suffix_refl m.failed

def modify (f : σ → σ) : Program σ ε Unit where
  run m := (.ok (), { m with state := f m.state })
  grows m := suffix_refl m.failed

def get (f : σ → α) : Program σ ε α where
  run m := (.ok (f m.state), m)
  grows m := suffix_refl m.failed

/-- One call to a service; `part` is what is left of its effect when it raises. -/
def callPart [LostCall ε] (f : σ → α × σ) (part : (Nat → Bool) → σ → σ) : Program σ ε α where
  run m :=
    match m.plan with
    | [] => (.ok (f m.state).1, { m with state := (f m.state).2 })
    | .none :: plan => (.ok (f m.state).1, { m with plan := plan, state := (f m.state).2 })
    | .raised took :: plan =>
        (.error LostCall.lost, ⟨plan, part took m.state, m.state :: m.failed⟩)
  grows m := by
    split
    · exact suffix_refl _
    · exact suffix_refl _
    · exact suffix_cons _ _

def call [LostCall ε] (f : σ → α × σ) : Program σ ε α :=
  callPart f fun took s => if took 0 then (f s).2 else s

def read [LostCall ε] (f : σ → α) : Program σ ε α :=
  callPart (fun s => (f s, s)) fun _ s => s

def bind (x : Program σ ε α) (f : α → Program σ ε β) : Program σ ε β where
  run m :=
    match x.run m with
    | (.ok value, m') => (f value).run m'
    | (.error error, m') => (.error error, m')
  grows m := by
    have hx := x.grows m
    generalize x.run m = r at hx ⊢
    obtain ⟨result, m'⟩ := r
    cases result with
    | ok value => exact hx.trans ((f value).grows m')
    | error error => exact hx

instance : Monad (Program σ ε) where
  pure := done
  bind := bind

/-- `try x except Exception as error: handler(error)` -/
def attempt (x : Program σ ε α) (handler : ε → Program σ ε α) : Program σ ε α where
  run m :=
    match x.run m with
    | (.ok value, m') => (.ok value, m')
    | (.error error, m') => (handler error).run m'
  grows m := by
    have hx := x.grows m
    generalize x.run m = r at hx ⊢
    obtain ⟨result, m'⟩ := r
    cases result with
    | ok value => exact hx
    | error error => exact hx.trans ((handler error).grows m')

/-- `try: x finally: y` -/
def always (x : Program σ ε α) (y : Program σ ε Unit) : Program σ ε α where
  run m :=
    match x.run m with
    | (result, m') =>
      match y.run m' with
      | (.ok _, m'') => (result, m'')
      | (.error error, m'') => (.error error, m'')
  grows m := by
    have hx := x.grows m
    generalize x.run m = r at hx ⊢
    obtain ⟨result, m'⟩ := r
    have hy := hx.trans (y.grows m')
    dsimp only
    generalize y.run m' = r' at hy ⊢
    obtain ⟨result', m''⟩ := r'
    cases result' with
    | ok _ => exact hy
    | error error => exact hy

/-- Goes on only if `c` holds. -/
def require (c : Prop) [Decidable c] (error : ε) : Program σ ε Unit :=
  if c then done () else raise error

def when (c : Prop) [Decidable c] (x : Program σ ε Unit) : Program σ ε Unit :=
  if c then x else done ()

def each : List β → (β → Program σ ε Unit) → Program σ ε Unit
  | [], _ => done ()
  | x :: rest, f => bind (f x) fun _ => each rest f

/-! ### Triples -/

/-- A call has raised in an excused state. -/
def Excused (X : σ → Prop) (m : Machine σ) : Prop := ∃ s ∈ m.failed, X s

/-- From `P`, a run of `x` that returns ends in `Q` and one that raises in `E`, unless an
    excused call has raised. -/
def Triple (X P : σ → Prop) (x : Program σ ε α) (Q : α → σ → Prop) (E : ε → σ → Prop) : Prop :=
  ∀ m, P m.state →
    match x.run m with
    | (.ok value, m') => Excused X m' ∨ Q value m'.state
    | (.error error, m') => Excused X m' ∨ E error m'.state

variable {X P P' : σ → Prop} {x : Program σ ε α} {Q Q' : α → σ → Prop} {E E' : ε → σ → Prop}

theorem Excused.of_suffix {m m' : Machine σ} (h : Excused X m) (hgrows : m.failed <:+ m'.failed) :
    Excused X m' := by
  obtain ⟨s, hs, hX⟩ := h
  exact ⟨s, hgrows.subset hs, hX⟩

theorem Triple.mono (h : Triple X P x Q E) (hP : ∀ s, P' s → P s)
    (hQ : ∀ value s, Q value s → Q' value s) (hE : ∀ error s, E error s → E' error s) :
    Triple X P' x Q' E' := by
  intro m hm
  have hx := h m (hP _ hm)
  generalize x.run m = r at hx ⊢
  obtain ⟨result, m'⟩ := r
  cases result with
  | ok value => exact hx.imp_right (hQ value _)
  | error error => exact hx.imp_right (hE error _)

theorem Triple.pre (h : Triple X P x Q E) (hP : ∀ s, P' s → P s) : Triple X P' x Q E :=
  h.mono hP (fun _ _ hQ => hQ) fun _ _ hE => hE

theorem Triple.weaken (h : Triple X P x Q E) (hE : ∀ error s, E error s → E' error s) : Triple X P x Q E' :=
  h.mono (fun _ hs => hs) (fun _ _ hs => hs) hE

theorem triple_of_state (h : ∀ s, P s → Triple X (· = s) x Q E) : Triple X P x Q E :=
  fun m hm => h m.state hm m rfl

theorem triple_done {value : α} (h : ∀ s, P s → Q value s) : Triple X P (done value) Q E :=
  fun m hm => .inr (h m.state hm)

variable {error : ε}

theorem triple_raise (h : ∀ s, P s → E error s) : Triple X P (raise error) Q E :=
  fun m hm => .inr (h m.state hm)

theorem triple_modify {f : σ → σ} {Q : Unit → σ → Prop} (h : ∀ s, P s → Q () (f s)) :
    Triple X P (modify f) Q E :=
  fun m hm => .inr (h m.state hm)

theorem triple_get {f : σ → α} (h : ∀ s, P s → Q (f s) s) : Triple X P (get f) Q E :=
  fun m hm => .inr (h m.state hm)

theorem triple_callPart [LostCall ε] {f : σ → α × σ} {part : (Nat → Bool) → σ → σ}
    (hQ : ∀ s, P s → Q (f s).1 (f s).2)
    (hE : ∀ took s, P s → ¬ X s → E LostCall.lost (part took s)) :
    Triple X P (callPart f part) Q E := by
  rintro ⟨plan, s, failed⟩ hm
  unfold callPart
  match plan with
  | [] => exact .inr (hQ s hm)
  | .none :: plan => exact .inr (hQ s hm)
  | .raised took :: plan =>
    by_cases hX : X s
    · exact .inl ⟨s, mem_cons_self, hX⟩
    · exact .inr (hE took s hm hX)

theorem triple_call [LostCall ε] {f : σ → α × σ} (hQ : ∀ s, P s → Q (f s).1 (f s).2)
    (hE : ∀ s, P s → ¬ X s → E LostCall.lost s)
    (hE' : ∀ s, P s → ¬ X s → E LostCall.lost (f s).2) : Triple X P (call f) Q E := by
  apply triple_callPart hQ
  intro took s hs hX
  split
  · exact hE' s hs hX
  · exact hE s hs hX

theorem triple_read [LostCall ε] {f : σ → α} (hQ : ∀ s, P s → Q (f s) s)
    (hE : ∀ s, P s → ¬ X s → E LostCall.lost s) : Triple X P (read f) Q E :=
  triple_callPart hQ fun _ => hE

theorem Triple.after {m : Machine σ} (hx : Triple X P x Q E) (h : Excused X m ∨ P m.state) :
    match x.run m with
    | (.ok value, m') => Excused X m' ∨ Q value m'.state
    | (.error error, m') => Excused X m' ∨ E error m'.state := by
  rcases h with h | h
  · have hgrows := x.grows m
    generalize x.run m = r at hgrows ⊢
    obtain ⟨result, m'⟩ := r
    cases result with
    | ok _ => exact .inl (h.of_suffix hgrows)
    | error _ => exact .inl (h.of_suffix hgrows)
  · exact hx m h

variable {f : α → Program σ ε β} {R : α → σ → Prop}

theorem triple_bind {Q : β → σ → Prop}
    (hx : Triple X P x R E) (hf : ∀ value, Triple X (R value) (f value) Q E) :
    Triple X P (x >>= f) Q E := by
  intro m hm
  have h := hx m hm
  change match (bind x f).run m with
    | (.ok value, m') => Excused X m' ∨ Q value m'.state
    | (.error error, m') => Excused X m' ∨ E error m'.state
  simp only [bind]
  generalize x.run m = r at h ⊢
  obtain ⟨result, m'⟩ := r
  cases result with
  | error error => exact h
  | ok value => exact (hf value).after h

theorem triple_seq {Q : β → σ → Prop} (hx : Triple X P x (fun _ => P) E)
    (hf : ∀ value, Triple X P (f value) Q E) : Triple X P (x >>= f) Q E :=
  triple_bind hx hf

theorem triple_ask [LostCall ε] {f : σ → α} {g : α → Program σ ε β} {Q : β → σ → Prop}
    (hE : ∀ s, P s → ¬ X s → E LostCall.lost s)
    (hg : ∀ value, Triple X (fun s => P s ∧ value = f s) (g value) Q E) :
    Triple X P (read f >>= g) Q E :=
  triple_bind (triple_read (fun _ hs => ⟨hs, rfl⟩) hE) hg

variable {handler : ε → Program σ ε α}

theorem triple_attempt {R : ε → σ → Prop} (hx : Triple X P x Q R)
    (hh : ∀ error, Triple X (R error) (handler error) Q E) :
    Triple X P (attempt x handler) Q E := by
  intro m hm
  have h := hx m hm
  simp only [attempt]
  generalize x.run m = r at h ⊢
  obtain ⟨result, m'⟩ := r
  cases result with
  | ok value => exact h
  | error error => exact (hh error).after h

theorem triple_always {y : Program σ ε Unit} {S : ε → σ → Prop}
    (hx : Triple X P x R S) (hok : ∀ value, Triple X (R value) y (fun _ => Q value) E)
    (herr : ∀ error, Triple X (S error) y (fun _ => E error) E) :
    Triple X P (always x y) Q E := by
  intro m hm
  have h := hx m hm
  rcases hr : x.run m with ⟨result, m'⟩
  simp only [always, hr] at h ⊢
  cases result with
  | ok value =>
    have hafter := (hok value).after h
    generalize y.run m' = r' at hafter ⊢
    obtain ⟨result', m''⟩ := r'
    cases result' with
    | ok _ => exact hafter
    | error _ => exact hafter
  | error error =>
    have hafter := (herr error).after h
    generalize y.run m' = r' at hafter ⊢
    obtain ⟨result', m''⟩ := r'
    cases result' with
    | ok _ => exact hafter
    | error _ => exact hafter

variable {c : Prop}

theorem triple_require [Decidable c] {Q : Unit → σ → Prop}
    (h : ∀ s, P s → c → Q () s) (h' : ∀ s, P s → ¬ c → E error s) :
    Triple X P (require c error) Q E := by
  unfold require
  split
  · next hc => exact triple_done fun s hs => h s hs hc
  · next hc => exact triple_raise fun s hs => h' s hs hc

theorem triple_when [Decidable c] {x : Program σ ε Unit} {Q : Unit → σ → Prop}
    (h : c → Triple X P x Q E) (h' : ¬ c → ∀ s, P s → Q () s) : Triple X P (when c x) Q E := by
  unfold when
  split
  · next hc => exact h hc
  · next hc => exact triple_done (h' hc)

/-! ### Invariants -/

/-- `x` keeps a property of the state, however it ends. -/
def Keeps (I : σ → Prop) (x : Program σ ε α) : Prop :=
  ∀ X, Triple X I x (fun _ => I) fun _ => I

variable {I : σ → Prop}

theorem Keeps.triple (h : Keeps I x)
    (hP : ∀ s, P s → I s) (hQ : ∀ value s, I s → Q value s) (hE : ∀ error s, I s → E error s) :
    Triple X P x Q E :=
  (h X).mono hP hQ hE

/-- `x` keeps what the rest starts from. -/
theorem Keeps.before {Q : β → σ → Prop}
    (hx : Keeps P x) (hE : ∀ error s, P s → E error s) (hf : ∀ value, Triple X P (f value) Q E) :
    Triple X P (x >>= f) Q E :=
  triple_bind (hx.triple (fun _ hs => hs) (fun _ _ hs => hs) hE) hf

theorem keeps_done {value : α} : Keeps (ε := ε) I (done value) := fun _ => triple_done fun _ h => h

theorem keeps_raise : Keeps (α := α) I (raise error) :=
  fun _ => triple_raise fun _ h => h

theorem keeps_modify {f : σ → σ} (h : ∀ s, I s → I (f s)) : Keeps (ε := ε) I (modify f) :=
  fun _ => triple_modify h

theorem keeps_get {f : σ → α} : Keeps (ε := ε) I (get f) := fun _ => triple_get fun _ h => h

theorem keeps_call [LostCall ε] {f : σ → α × σ} (h : ∀ s, I s → I (f s).2) :
    Keeps (ε := ε) I (call f) :=
  fun _ => triple_call h (fun _ hs _ => hs) fun s hs _ => h s hs

theorem keeps_read [LostCall ε] {f : σ → α} : Keeps (ε := ε) I (read f) :=
  fun _ => triple_read (fun _ h => h) fun _ h _ => h

theorem keeps_bind (hx : Keeps I x) (hf : ∀ value, Keeps I (f value)) :
    Keeps I (x >>= f) :=
  fun X => triple_bind (hx X) fun value => hf value X

theorem keeps_attempt (hx : Keeps I x)
    (hh : ∀ error, Keeps I (handler error)) : Keeps I (attempt x handler) :=
  fun X => triple_attempt (hx X) fun error => hh error X

theorem keeps_require [Decidable c] : Keeps I (require c error) :=
  fun _ => triple_require (fun _ h _ => h) fun _ h _ => h

theorem keeps_when [Decidable c] {x : Program σ ε Unit} (hx : c → Keeps I x) :
    Keeps I (when c x) :=
  fun X => triple_when (fun hc => hx hc X) fun _ _ h => h

theorem keeps_each {f : β → Program σ ε Unit} {l : List β} (hf : ∀ x ∈ l, Keeps I (f x)) :
    Keeps I (each l f) := by
  induction l with
  | nil => exact keeps_done
  | cons x rest ih =>
    apply keeps_bind (hf x mem_cons_self)
    intro _
    exact ih fun y hy => hf y (mem_cons_of_mem _ hy)

end Program

end MultiRag
