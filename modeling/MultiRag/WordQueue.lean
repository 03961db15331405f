/-
  **Two outputs that one sequence of steps writes.**

  A step writes an item to both outputs, or a word to one of them alone. The output that is ahead
  holds a queue that the other one still has to write.
-/
import Mathlib.Data.List.DropRight

namespace MultiRag.WordQueue

open List

inductive Step (α : Type) where
  | both (item : α)
  | left (word : List α)
  | right (word : List α)

variable {α : Type}

def Step.swap : Step α → Step α
  | both item => both item
  | left word => right word
  | right word => left word

def Step.leftOut : Step α → List α
  | both item => [item]
  | left word => word
  | right _ => []

def Step.rightOut (step : Step α) : List α := step.swap.leftOut

def leftOut (steps : List (Step α)) : List α := steps.flatMap Step.leftOut

def rightOut (steps : List (Step α)) : List α := steps.flatMap Step.rightOut

def strip (space : α → Bool) (text : List α) : List α := (text.dropWhile space).rdropWhile space

def kept (space : α → Bool) (text : List α) : List α := text.filter fun item => !space item

/-- A word of solid items, led by an item that stands nowhere else in it. -/
structure IsWord (lead : α) (space : α → Bool) (word : List α) : Prop where
  headed : ∃ tail, word = lead :: tail ∧ lead ∉ tail
  solid : ∀ item ∈ word, space item = false

/-- Two kinds of words, of at most so many items, none of which begins one of the other kind. -/
structure Rivals (lead : α) (space : α → Bool) (n : Nat) (L R : List α → Prop) : Prop where
  left_word : ∀ word, L word → IsWord lead space word ∧ word.length ≤ n
  right_word : ∀ word, R word → IsWord lead space word ∧ word.length ≤ n
  left_apart : ∀ word other, L word → R other → ¬ word <+: other
  right_apart : ∀ word other, L word → R other → ¬ other <+: word

structure Written (n : Nat) (L R : List α → Prop) (steps : List (Step α)) : Prop where
  left : ∀ word, Step.left word ∈ steps → L word ∧ n ≤ word.length
  right : ∀ word, Step.right word ∈ steps → R word ∧ n ≤ word.length

/-- No rotation of the queue begins with such a word. -/
def Shy (F : List α → Prop) (queue : List α) : Prop :=
  ∀ front back, queue = front ++ back → ∀ word, F word → ¬ word <+: back ++ front

/-- A text that is empty, or begins with such a word. -/
def Begun (F : List α → Prop) (text : List α) : Prop :=
  text = [] ∨ ∃ word, F word ∧ word <+: text

variable {lead : α} {space : α → Bool} {n : Nat} {L R F : List α → Prop}
  {steps : List (Step α)} {queue word text : List α} {item : α}

@[simp] theorem leftOut_both : leftOut (.both item :: steps) = item :: leftOut steps := by
  simp [leftOut, Step.leftOut]

@[simp] theorem leftOut_left : leftOut (.left word :: steps) = word ++ leftOut steps := by
  simp [leftOut, Step.leftOut]

@[simp] theorem leftOut_right : leftOut (.right word :: steps) = leftOut steps := by
  simp [leftOut, Step.leftOut]

@[simp] theorem rightOut_nil : rightOut ([] : List (Step α)) = [] := rfl

@[simp] theorem rightOut_both : rightOut (.both item :: steps) = item :: rightOut steps := by
  simp [rightOut, Step.rightOut, Step.swap, Step.leftOut]

@[simp] theorem rightOut_left : rightOut (.left word :: steps) = rightOut steps := by
  simp [rightOut, Step.rightOut, Step.swap, Step.leftOut]

@[simp] theorem rightOut_right : rightOut (.right word :: steps) = word ++ rightOut steps := by
  simp [rightOut, Step.rightOut, Step.swap, Step.leftOut]

theorem Step.swap_swap (step : Step α) : step.swap.swap = step := by
  cases step <;> rfl

theorem leftOut_swap (steps : List (Step α)) : leftOut (steps.map Step.swap) = rightOut steps := by
  rw [leftOut, flatMap_map]
  rfl

theorem rightOut_swap (steps : List (Step α)) : rightOut (steps.map Step.swap) = leftOut steps := by
  simp [leftOut, rightOut, flatMap_map, Step.rightOut, Step.swap_swap]

theorem IsWord.ne_nil (h : IsWord lead space word) : word ≠ [] := by
  obtain ⟨tail, rfl, -⟩ := h.headed
  exact cons_ne_nil lead tail

theorem Rivals.symm (h : Rivals lead space n L R) : Rivals lead space n R L where
  left_word := h.right_word
  right_word := h.left_word
  left_apart word other hword hother := h.right_apart other word hother hword
  right_apart word other hword hother := h.left_apart other word hother hword

theorem Written.tail {step : Step α} (h : Written n L R (step :: steps)) : Written n L R steps where
  left word hword := h.left word (mem_cons_of_mem step hword)
  right word hword := h.right word (mem_cons_of_mem step hword)

section

variable (h : Written n L R steps)
include h

theorem Written.cons_both : Written n L R (.both item :: steps) where
  left word hword := h.left word (by simpa using hword)
  right word hword := h.right word (by simpa using hword)

theorem Written.cons_left (hword : L word) (hlong : n ≤ word.length) :
    Written n L R (.left word :: steps) where
  left other hother := by
    rcases mem_cons.mp hother with hhere | hrest
    · rw [Step.left.inj hhere]
      exact ⟨hword, hlong⟩
    · exact h.left other hrest
  right other hother := h.right other (by simpa using hother)

theorem Written.cons_right (hword : R word) (hlong : n ≤ word.length) :
    Written n L R (.right word :: steps) where
  left other hother := h.left other (by simpa using hother)
  right other hother := by
    rcases mem_cons.mp hother with hhere | hrest
    · rw [Step.right.inj hhere]
      exact ⟨hword, hlong⟩
    · exact h.right other hrest

theorem Written.swap : Written n R L (steps.map Step.swap) where
  left word hword := by
    obtain ⟨step, hstep, hswap⟩ := mem_map.mp hword
    rw [← Step.swap_swap step, hswap] at hstep
    exact h.right word hstep
  right word hword := by
    obtain ⟨step, hstep, hswap⟩ := mem_map.mp hword
    rw [← Step.swap_swap step, hswap] at hstep
    exact h.left word hstep

end

/-! ### The solid items of a text -/

theorem kept_append (text rest : List α) : kept space (text ++ rest) = kept space text ++ kept space rest :=
  filter_append text rest

theorem kept_cons_space (h : space item = true) : kept space (item :: text) = kept space text := by
  simp [kept, h]

theorem kept_cons_solid (h : space item = false) :
    kept space (item :: text) = item :: kept space text := by
  simp [kept, h]

theorem IsWord.kept_eq (h : IsWord lead space word) : kept space word = word := by
  apply List.filter_eq_self.mpr
  intro item hitem
  rw [h.solid item hitem, Bool.not_false]

theorem kept_dropWhile (text : List α) : kept space (text.dropWhile space) = kept space text := by
  induction text with
  | nil => rfl
  | cons item text ih =>
    by_cases h : space item = true
    · rw [dropWhile_cons_of_pos h, ih, kept_cons_space h]
    · rw [dropWhile_cons_of_neg h]

theorem kept_strip (text : List α) : kept space (strip space text) = kept space text := by
  have hback := @kept_dropWhile _ space (text.dropWhile space).reverse
  rw [kept, kept, filter_reverse, ← reverse_eq_iff, ← filter_reverse] at hback
  exact hback.trans (kept_dropWhile text)

/-! ### The queue -/

theorem Shy.rotate (h : Shy F (item :: queue)) : Shy F (queue ++ [item]) := by
  intro front back hsplit word hword
  rcases eq_nil_or_concat back with rfl | ⟨others, last, rfl⟩
  · rw [append_nil] at hsplit
    rw [nil_append, ← hsplit]
    exact h [item] queue rfl word hword
  · rw [concat_eq_append, ← append_assoc] at hsplit
    obtain ⟨hqueue, hlast⟩ := append_inj' hsplit rfl
    have hnot := h (item :: front) others (by rw [hqueue, cons_append]) word hword
    rw [concat_eq_append, ← hlast]
    simpa using hnot

section

variable (h : Shy F queue)
  (hF : ∀ word, F word → IsWord lead space word)
  (hfirst : ∀ tail, F (lead :: tail) → item ∉ tail)
include h hF hfirst

theorem Shy.not_across {grown front back rest : List α}
    (hapart : ∀ word rest, F word → ¬ word <+: item :: grown ++ rest)
    (hqueue : queue = front ++ back) (hword : F word) :
    ¬ word <+: back ++ (item :: grown ++ rest) := by
  intro hprefix
  rcases prefix_or_prefix_of_prefix hprefix (prefix_append back _) with hin | ⟨after, rfl⟩
  · exact h front back hqueue word hword (hin.trans (prefix_append back front))
  · rw [prefix_append_right_inj] at hprefix
    rcases back with _ | ⟨first, others⟩
    · exact hapart after rest hword hprefix
    · obtain ⟨tail, htail, -⟩ := (hF _ hword).headed
      rw [cons_append, List.cons.injEq] at htail
      rcases after with _ | ⟨next, after⟩
      · rw [append_nil] at hword
        exact h front (first :: others) hqueue _ hword (prefix_append _ front)
      · rw [cons_append, cons_prefix_cons] at hprefix
        rw [cons_append, htail.1, htail.2] at hword
        have hmem : item ∈ tail := by
          rw [← htail.2, ← hprefix.1]
          exact mem_append_right others mem_cons_self
        exact hfirst tail hword hmem

theorem Shy.append {grown : List α} (hgrown : lead ∉ grown)
    (hapart : ∀ word rest, F word → ¬ word <+: item :: grown ++ rest) :
    Shy F (queue ++ item :: grown) := by
  intro front back hsplit word hword
  rcases append_eq_append_iff.mp hsplit with ⟨before, rfl, hback⟩ | ⟨others, hqueue, rfl⟩
  · rcases before with _ | ⟨first, before⟩
    · rw [nil_append] at hback
      rw [← hback]
      exact hapart word _ hword
    · rw [cons_append, List.cons.injEq] at hback
      rcases back with _ | ⟨next, back⟩
      · have hacross : ¬ word <+: queue ++ (item :: grown ++ []) :=
          h.not_across hF hfirst hapart (nil_append queue).symm hword
        rw [hback.1, hback.2] at hacross
        simpa using hacross
      · intro hprefix
        obtain ⟨tail, rfl, -⟩ := (hF word hword).headed
        rw [cons_append, cons_prefix_cons] at hprefix
        apply hgrown
        rw [hback.2, hprefix.1]
        exact mem_append_right before mem_cons_self
  · rw [append_assoc]
    exact h.not_across hF hfirst hapart hqueue hword

end

section

variable (hrivals : Rivals lead space n L R)
include hrivals

theorem Shy.append_word (h : Shy R queue) (hword : L word)
    (hlong : n ≤ word.length) : Shy R (queue ++ word) := by
  obtain ⟨tail, rfl, hfree⟩ := (hrivals.left_word word hword).1.headed
  have hR : ∀ other, R other → IsWord lead space other :=
    fun other hother => (hrivals.right_word other hother).1
  apply h.append hR
  · intro others hother
    obtain ⟨tail', htail, hfree'⟩ := (hR _ hother).headed
    rw [(List.cons.inj htail).2]
    exact hfree'
  · exact hfree
  · intro other rest hother hprefix
    have hshort : other.length ≤ (lead :: tail).length :=
      (hrivals.right_word other hother).2.trans hlong
    have hwithin := prefix_of_prefix_length_le hprefix (prefix_append _ rest) hshort
    exact hrivals.right_apart _ other hword hother hwithin

theorem shy_word (hword : L word) (hlong : n ≤ word.length) :
    Shy R word := by
  have hempty : Shy R ([] : List α) := by
    intro front back hsplit other hother hprefix
    obtain ⟨tail, rfl, -⟩ := (hrivals.right_word other hother).1.headed
    obtain ⟨rfl, rfl⟩ := append_eq_nil_iff.mp hsplit.symm
    simp at hprefix
  exact hempty.append_word hrivals hword hlong

theorem Shy.ne_word {rest ahead : List α} (hshy : Shy R queue)
    (hlong : n ≤ queue.length) (hword : R word) : queue ++ ahead ≠ kept space (word ++ rest) := by
  intro heq
  obtain ⟨hisWord, hshort⟩ := hrivals.right_word word hword
  have hwhole : word <+: queue ++ ahead := by
    rw [heq, kept_append, hisWord.kept_eq]
    exact prefix_append word _
  have hin : word <+: queue :=
    prefix_of_prefix_length_le hwhole (prefix_append queue ahead) (hshort.trans hlong)
  exact hshy [] queue rfl word hword (by simpa using hin)

theorem queue_ne (hsteps : Written n L R steps)
    (hshy : Shy R queue) (hne : queue ≠ []) (hlong : n ≤ queue.length) (ahead : List α)
    {behind : List α} (hbehind : Begun R behind) :
    queue ++ kept space (leftOut steps ++ ahead) ≠ kept space (rightOut steps ++ behind) := by
  induction steps generalizing queue with
  | nil =>
    rcases hbehind with rfl | ⟨word, hword, rest, rfl⟩
    · intro heq
      exact hne (append_eq_nil_iff.mp heq).1
    · rw [rightOut_nil, nil_append]
      exact hshy.ne_word hrivals hlong hword
  | cons step steps ih =>
    cases step with
    | both item =>
      rw [leftOut_both, rightOut_both, cons_append, cons_append]
      rcases hspace : space item with _ | _
      · -- the queue is rotated
        obtain ⟨first, others, rfl⟩ := exists_cons_of_ne_nil hne
        rw [kept_cons_solid hspace, kept_cons_solid hspace]
        intro heq
        obtain ⟨rfl, hrest⟩ := List.cons.inj heq
        apply ih hsteps.tail hshy.rotate (by simp) (by simpa using hlong)
        simpa using hrest
      · rw [kept_cons_space hspace, kept_cons_space hspace]
        exact ih hsteps.tail hshy hne hlong
    | left word =>
      obtain ⟨hword, hfull⟩ := hsteps.left word mem_cons_self
      have hgrown := ih hsteps.tail (hshy.append_word hrivals hword hfull) (by simp [hne])
        (by rw [length_append]; omega)
      rw [leftOut_left, rightOut_left, append_assoc, kept_append,
        (hrivals.left_word word hword).1.kept_eq, ← append_assoc]
      exact hgrown
    | right word =>
      obtain ⟨hword, -⟩ := hsteps.right word mem_cons_self
      rw [rightOut_right, append_assoc]
      exact hshy.ne_word hrivals hlong hword

end

/-! ### Even steps -/

def Even (steps : List (Step α)) : Prop := ∀ step ∈ steps, ∃ item, step = Step.both item

theorem even_cons : Even (.both item :: steps) ↔ Even steps := by
  simp [Even]

theorem Even.rightOut_eq (h : Even steps) : rightOut steps = leftOut steps := by
  induction steps with
  | nil => rfl
  | cons step steps ih =>
    obtain ⟨item, rfl⟩ := h step mem_cons_self
    rw [rightOut_both, leftOut_both, ih fun other hother => h other (mem_cons_of_mem _ hother)]

section

variable (hrivals : Rivals lead space n L R) (hsteps : Written n L R steps) (hbehind : Begun R text)
include hrivals hsteps hbehind

theorem even_of_kept_eq (h : kept space (leftOut steps) = kept space (rightOut steps ++ text)) :
    Even steps ∧ text = [] := by
  induction steps with
  | nil =>
    refine ⟨by simp [Even], ?_⟩
    rcases hbehind with rfl | ⟨word, hword, rest, rfl⟩
    · rfl
    · obtain ⟨hisWord, -⟩ := hrivals.right_word word hword
      rw [rightOut_nil, nil_append, kept_append, hisWord.kept_eq] at h
      exact absurd (append_eq_nil_iff.mp h.symm).1 hisWord.ne_nil
  | cons step steps ih =>
    cases step with
    | both item =>
      rw [leftOut_both, rightOut_both, cons_append] at h
      have hrest : kept space (leftOut steps) = kept space (rightOut steps ++ text) := by
        rcases hspace : space item with _ | _
        · rw [kept_cons_solid hspace, kept_cons_solid hspace] at h
          exact (List.cons.inj h).2
        · rw [kept_cons_space hspace, kept_cons_space hspace] at h
          exact h
      obtain ⟨heven, htext⟩ := ih hsteps.tail hrest
      exact ⟨even_cons.mpr heven, htext⟩
    | left word =>
      exfalso
      obtain ⟨hword, hfull⟩ := hsteps.left word mem_cons_self
      have hisWord := (hrivals.left_word word hword).1
      have hne := queue_ne hrivals hsteps.tail (shy_word hrivals hword hfull) hisWord.ne_nil hfull []
        hbehind
      rw [leftOut_left, rightOut_left, kept_append, hisWord.kept_eq] at h
      rw [append_nil] at hne
      exact hne h
    | right word =>
      exfalso
      obtain ⟨hword, hfull⟩ := hsteps.right word mem_cons_self
      have hisWord := (hrivals.right_word word hword).1
      have hne := queue_ne hrivals.symm hsteps.tail.swap (shy_word hrivals.symm hword hfull)
        hisWord.ne_nil hfull text (.inl rfl)
      rw [leftOut_swap, rightOut_swap, append_nil] at hne
      rw [leftOut_right, rightOut_right, append_assoc, kept_append, hisWord.kept_eq] at h
      exact hne h.symm

/-- **Outputs that are equal but for the spaces around them are written by even steps.** -/
theorem even_of_strip_eq
    (h : strip space (leftOut steps) = strip space (rightOut steps ++ text)) :
    Even steps ∧ text = [] := by
  apply even_of_kept_eq hrivals hsteps hbehind
  rw [← kept_strip, h, kept_strip]

end

end MultiRag.WordQueue
