/-
  **Cutting marked blocks out of a text in three passes.**

  The first pass cuts each block, from an opening marker through the next closing one. The second
  keeps what stands before the first opening marker that is left, the third removes a word, one
  way of writing the closing marker.
-/
import MultiRag.MarkerScan
import MultiRag.WordQueue

namespace MultiRag.MarkerScan

open WordQueue List List

/-- What is left outside the blocks: an item that the scan shows, or a closing marker. -/
inductive Piece (α : Type) where
  | shown (item : α)
  | stray (marker : List α)

def Piece.items {α : Type} : Piece α → List α
  | shown item => [item]
  | stray marker => marker

def Piece.outside {α : Type} : Piece α → List α
  | shown item => [item]
  | stray _ => []

section

variable {α β : Type} [DecidableEq β] (key : α → β) (d : Delimiters β)

/-- The first pass.  An opening marker that no closing marker follows stays.  `skip` items of
    a block are still to be passed. -/
def withoutBlocks : Nat → List α → List α
  | _, [] => []
  | skip + 1, _ :: rest => withoutBlocks skip rest
  | 0, c :: rest =>
    if startsWith key d.opening (c :: rest) then
      match position key d.closing (rest.drop d.openTail.length) with
      | some n => withoutBlocks (d.openTail.length + n + d.closing.length) rest
      | none => c :: withoutBlocks 0 rest
    else c :: withoutBlocks 0 rest

def beforeMarker (marker : List β) : List α → List α
  | [] => []
  | c :: rest => if startsWith key marker (c :: rest) then [] else c :: beforeMarker marker rest

def removeWord [DecidableEq α] (word : List α) : Nat → List α → List α
  | _, [] => []
  | skip + 1, _ :: rest => removeWord word skip rest
  | 0, c :: rest =>
    if word.isPrefixOf (c :: rest) then removeWord word (word.length - 1) rest
    else c :: removeWord word 0 rest

/-! ### The pieces -/

def pieces : Nat → List α → List (Piece α)
  | _, [] => []
  | skip + 1, _ :: rest => pieces skip rest
  | 0, c :: rest =>
    if startsWith key d.closing (c :: rest) then
      .stray ((c :: rest).take d.closing.length) :: pieces d.closeTail.length rest
    else if startsWith key d.opening (c :: rest) then
      match position key d.closing (rest.drop d.openTail.length) with
      | some n => pieces (d.openTail.length + n + d.closing.length) rest
      | none => []
    else .shown c :: pieces 0 rest

def flat (ps : List (Piece α)) : List α := ps.flatMap Piece.items

def outside (ps : List (Piece α)) : List α := ps.flatMap Piece.outside

/-- Every stray marker is the word, and among the pieces no opening marker and no such word
    begins with a shown item. -/
def seamless [DecidableEq α] (word : List α) : List (Piece α) → Bool
  | [] => true
  | .stray marker :: rest => marker = word && seamless word rest
  | .shown c :: rest =>
    ! startsWith key d.opening (c :: flat rest) && ! word.isPrefixOf (c :: flat rest) &&
      seamless word rest

variable {key d} {n : Nat} {c : α} {text rest tail word marker : List α} {ps : List (Piece α)}

@[simp] theorem flat_nil : flat ([] : List (Piece α)) = [] := rfl

@[simp] theorem flat_shown : flat (.shown c :: ps) = c :: flat ps := by
  simp [flat, Piece.items]

@[simp] theorem flat_stray : flat (.stray marker :: ps) = marker ++ flat ps := by
  simp [flat, Piece.items]

@[simp] theorem outside_nil : outside ([] : List (Piece α)) = [] := rfl

@[simp] theorem outside_shown : outside (.shown c :: ps) = c :: outside ps := by
  simp [outside, Piece.outside]

@[simp] theorem outside_stray : outside (.stray marker :: ps) = outside ps := by
  simp [outside, Piece.outside]

theorem flat_map_shown (items : List α) : flat (items.map .shown ++ ps) = items ++ flat ps := by
  induction items with
  | nil => rfl
  | cons c rest ih => simp [ih]

theorem outside_map_shown (items : List α) :
    outside (items.map .shown ++ ps) = items ++ outside ps := by
  induction items with
  | nil => rfl
  | cons c rest ih => simp [ih]

theorem scan_eq_outside (n : Nat) (text : List α) :
    scan key d false n text = outside (pieces key d n text) := by
  fun_induction pieces key d n text with
  | case1 => simp [scan]
  | case2 skip c rest ih => rw [scan, ih]
  | case3 c rest hclose ih => rw [scan, if_pos hclose, ih, outside_stray]
  | case4 c rest hclose hopen n hn ih =>
    have hblock : scan key d true 0 (rest.drop d.openTail.length) =
        scan key d false 0 ((rest.drop d.openTail.length).drop (n + d.closing.length)) := by
      have hscans : Scans key d true (rest.drop d.openTail.length ++ []) [] false
          ((rest.drop d.openTail.length).drop (n + d.closing.length) ++ []) := Scans.close_block hn
      simpa using hscans.scan_eq
    rw [scan, if_neg hclose, if_neg (by simp), if_pos hopen, scan_skip, hblock, ← ih,
      drop_drop, ← Nat.add_assoc]
    exact (scan_skip _).symm
  | case5 c rest hclose hopen hn =>
    rw [scan, if_neg hclose, if_neg (by simp), if_pos hopen, scan_skip,
      scan_of_none hn (by simp)]
    rfl
  | case6 c rest hclose hopen ih =>
    rw [scan, if_neg hclose, if_neg (by simp), if_neg hopen, ih, outside_shown]

/-! ### What the first pass leaves -/

theorem withoutBlocks_skip (n : Nat) :
    withoutBlocks key d n text = withoutBlocks key d 0 (text.drop n) := by
  induction text generalizing n with
  | nil => cases n <;> simp [withoutBlocks]
  | cons c rest ih =>
    cases n with
    | zero => simp
    | succ n => simp [withoutBlocks, ih n]

variable {key' : α → β}

section

variable (h : ∀ c ∈ text, key c = key' c)
include h

theorem startsWith_congr (marker : List β) :
    startsWith key marker text = startsWith key' marker text := by
  rw [startsWith, startsWith, map_congr_left h]

theorem position_congr (marker : List β) :
    position key marker text = position key' marker text := by
  induction text with
  | nil => rfl
  | cons c rest ih =>
    rw [position, position, startsWith_congr h, ih fun c hc => h c (mem_cons_of_mem _ hc)]

theorem withoutBlocks_congr (n : Nat) :
    withoutBlocks key d n text = withoutBlocks key' d n text := by
  induction text generalizing n with
  | nil => cases n <;> rfl
  | cons c rest ih =>
    have hrest : ∀ c ∈ rest, key c = key' c := fun c hc => h c (mem_cons_of_mem _ hc)
    cases n with
    | succ n => rw [withoutBlocks, withoutBlocks, ih hrest]
    | zero =>
      have hafter : position key d.closing (rest.drop d.openTail.length) =
          position key' d.closing (rest.drop d.openTail.length) :=
        position_congr (fun c hc => hrest c (mem_of_mem_drop hc)) d.closing
      rw [withoutBlocks, withoutBlocks, startsWith_congr h, hafter]
      simp only [ih hrest]

end

theorem withoutBlocks_take (hn : n ≤ text.length)
    (h : ∀ i < n, startsWith key d.opening (text.drop i) = false) :
    withoutBlocks key d 0 text = text.take n ++ withoutBlocks key d 0 (text.drop n) := by
  induction n generalizing text with
  | zero => simp
  | succ n ih =>
    cases text with
    | nil => simp at hn
    | cons c rest =>
      have hhere : startsWith key d.opening (c :: rest) = false := h 0 (by omega)
      have hroom : n ≤ rest.length := by simpa using hn
      have hrest := ih hroom fun i hi => h (i + 1) (by omega)
      rw [withoutBlocks, if_neg (by simp [hhere]), hrest, take_succ_cons, drop_succ_cons,
        cons_append]

/-- A text that begins with an opening marker, or nothing. -/
def Unclosed (key : α → β) (d : Delimiters β) (tail : List α) : Prop :=
  tail = [] ∨ startsWith key d.opening tail = true

theorem not_opening_of_closing (hapart : ¬ d.closeTail <+: d.openTail)
    (h : startsWith key d.closing text = true) :
    ∀ i < d.closing.length, startsWith key d.opening (text.drop i) = false := by
  intro i hi
  rcases Nat.eq_zero_or_pos i with rfl | hpos
  · by_contra hopen
    rw [Bool.not_eq_false, drop_zero, startsWith_iff] at hopen
    rcases prefix_or_prefix_of_prefix (startsWith_iff.mp h) hopen with hin | hin
    · exact hapart (cons_prefix_cons.mp hin).2
    · exact d.distinct (cons_prefix_cons.mp hin).2
  · exact not_startsWith_inside d.close_free h hpos (Nat.le_of_lt_succ hi)

theorem withoutBlocks_eq_flat (hapart : ¬ d.closeTail <+: d.openTail) (n : Nat) (text : List α) :
    ∃ tail, withoutBlocks key d n text = flat (pieces key d n text) ++ tail ∧ Unclosed key d tail := by
  fun_induction pieces key d n text with
  | case1 => exact ⟨[], by simp [withoutBlocks], .inl rfl⟩
  | case2 skip c rest ih =>
    rw [withoutBlocks]
    exact ih
  | case3 c rest hclose ih =>
    obtain ⟨tail, hrest, htail⟩ := ih
    refine ⟨tail, ?_, htail⟩
    have hskip : withoutBlocks key d d.closeTail.length rest =
        withoutBlocks key d 0 ((c :: rest).drop d.closing.length) := withoutBlocks_skip _
    rw [withoutBlocks_take (length_of_startsWith hclose) (not_opening_of_closing hapart hclose),
      ← hskip, hrest, flat_stray, append_assoc]
  | case4 c rest hclose hopen n hn ih =>
    obtain ⟨tail, hrest, htail⟩ := ih
    exact ⟨tail, by rw [withoutBlocks, if_pos hopen, hn, ← hrest], htail⟩
  | case5 c rest hclose hopen hn =>
    refine ⟨withoutBlocks key d 0 (c :: rest), rfl, .inr ?_⟩
    have hroom : d.openTail.length ≤ rest.length := by
      simpa [Delimiters.opening] using length_of_startsWith hopen
    have hfirst : ∀ i < d.openTail.length, startsWith key d.opening (rest.drop i) = false := by
      intro i hi
      rw [← drop_succ_cons (a := c)]
      exact not_startsWith_inside d.open_free hopen (Nat.succ_pos i) hi
    have hmarker : startsWith key d.opening ((c :: rest).take d.opening.length) = true :=
      startsWith_take hopen le_rfl
    rw [withoutBlocks, if_pos hopen, hn]
    rw [withoutBlocks_take hroom hfirst, ← cons_append]
    exact startsWith_append hmarker _
  | case6 c rest hclose hopen ih =>
    obtain ⟨tail, hrest, htail⟩ := ih
    refine ⟨tail, ?_, htail⟩
    rw [withoutBlocks, if_neg hopen, hrest, flat_shown, cons_append]

def Strays (key : α → β) (d : Delimiters β) (ps : List (Piece α)) : Prop :=
  ∀ marker, .stray marker ∈ ps → marker.map key = d.closing

omit [DecidableEq β] in
theorem Strays.of_cons {piece : Piece α} (h : Strays key d (piece :: ps)) : Strays key d ps :=
  fun marker hmarker => h marker (mem_cons_of_mem piece hmarker)

omit [DecidableEq β] in
theorem Strays.of_append {qs : List (Piece α)} (h : Strays key d (qs ++ ps)) : Strays key d ps :=
  fun marker hmarker => h marker (mem_append_right qs hmarker)

theorem strays_pieces (n : Nat) (text : List α) : Strays key d (pieces key d n text) := by
  fun_induction pieces key d n text with
  | case1 => simp [Strays]
  | case2 skip c rest ih => exact ih
  | case3 c rest hclose ih =>
    intro marker hmarker
    rcases mem_cons.mp hmarker with hhere | hrest
    · obtain rfl := Piece.stray.inj hhere
      rw [map_take]
      exact (prefix_iff_eq_take.mp (startsWith_iff.mp hclose)).symm
    · exact ih marker hrest
  | case4 c rest hclose hopen n hn ih => exact ih
  | case5 => simp [Strays]
  | case6 c rest hclose hopen ih =>
    intro marker hmarker
    exact ih marker (by simpa using hmarker)

omit [DecidableEq β] in
theorem shown_of_prefix (hps : Strays key d ps) (hfree : d.lead ∉ text.map key)
    (h : text <+: flat ps) : ∃ qs, ps = text.map .shown ++ qs := by
  induction text generalizing ps with
  | nil => exact ⟨ps, rfl⟩
  | cons c others ih =>
    rw [map_cons, mem_cons, not_or] at hfree
    cases ps with
    | nil => simp at h
    | cons piece ps =>
      cases piece with
      | shown item =>
        rw [flat_shown, cons_prefix_cons] at h
        obtain ⟨qs, hqs⟩ := ih (fun marker hmarker => hps marker (mem_cons_of_mem _ hmarker))
          hfree.2 h.2
        exact ⟨qs, by rw [map_cons, cons_append, ← hqs, h.1]⟩
      | stray marker =>
        exfalso
        have hmarker := hps marker mem_cons_self
        cases marker with
        | nil => simp [Delimiters.closing] at hmarker
        | cons first marker =>
          rw [flat_stray, cons_append, cons_prefix_cons] at h
          rw [map_cons, ← h.1] at hmarker
          exact hfree.1 (List.cons.inj hmarker).1.symm

variable {keys : List β}

omit [DecidableEq β] in
theorem length_of_keys (h : marker.map key = keys) :
    marker.length = keys.length := by
  rw [← h, length_map]

theorem startsWith_of_keys (h : marker.map key = keys) (rest : List α) :
    startsWith key keys (marker ++ rest) = true := by
  rw [startsWith_iff, map_append, h]
  exact prefix_append keys _

/-- Keys by which the items of the markers are told apart from spaces, and the leading one from
    all others. -/
structure Legible (key : α → β) (d : Delimiters β) (lead : α) (space : α → Bool) : Prop where
  lead_key : ∀ c, key c = d.lead → c = lead
  solid : ∀ c, key c ∈ d.opening ∨ key c ∈ d.closing → space c = false

variable {lead : α} {space : α → Bool}

omit [DecidableEq β] in
theorem Legible.isWord (h : Legible key d lead space) (hfree : d.lead ∉ keys)
    (hmember : ∀ k ∈ d.lead :: keys, k ∈ d.opening ∨ k ∈ d.closing)
    (hmarker : marker.map key = d.lead :: keys) : IsWord lead space marker := by
  cases marker with
  | nil => cases hmarker
  | cons c tail =>
    have hkeys := List.cons.inj hmarker
    constructor
    · refine ⟨tail, by rw [h.lead_key c hkeys.1], fun hlead => hfree ?_⟩
      rw [← hkeys.2, ← hkeys.1, h.lead_key c hkeys.1]
      exact mem_map_of_mem hlead
    · intro item hitem
      apply h.solid item
      apply hmember
      rw [← hmarker]
      exact mem_map_of_mem hitem

/-! ### What the second and the third pass leave -/

theorem beforeMarker_append {marker : List β}
    (h : ∀ i < text.length, startsWith key marker ((text ++ rest).drop i) = false) :
    beforeMarker key marker (text ++ rest) = text ++ beforeMarker key marker rest := by
  induction text with
  | nil => rfl
  | cons c others ih =>
    have hhere : startsWith key marker (c :: (others ++ rest)) = false := h 0 (by simp)
    have hothers := ih fun i hi => h (i + 1) (by simpa using hi)
    rw [cons_append, beforeMarker, if_neg (by simp [hhere]), hothers, cons_append]

theorem startsWith_append_unclosed (htail : Unclosed key d tail) (c : α) (rest : List α) :
    startsWith key d.opening (c :: rest ++ tail) = startsWith key d.opening (c :: rest) := by
  rw [Bool.eq_iff_iff]
  refine ⟨fun hstart => ?_, fun hstart => startsWith_append hstart tail⟩
  rcases htail with rfl | hopen
  · rwa [append_nil] at hstart
  rcases startsWith_or_reaches hstart with hin | hreaches
  · exact hin
  · rcases Nat.lt_or_ge (c :: rest).length d.opening.length with hshort | hlong
    · have hinside : startsWith key d.opening ((c :: rest ++ tail).drop (c :: rest).length) = false :=
        not_startsWith_inside d.open_free hstart (by simp) (Nat.le_of_lt_succ hshort)
      rw [drop_left, hopen] at hinside
      cases hinside
    · rw [startsWith_iff, hreaches.eq_of_length_le (by simpa using hlong)]

theorem beforeMarker_unclosed (htail : Unclosed key d tail) (text : List α) :
    beforeMarker key d.opening (text ++ tail) = beforeMarker key d.opening text := by
  induction text with
  | nil =>
    rcases htail with rfl | hopen
    · rfl
    · cases tail with
      | nil => rfl
      | cons c rest => exact if_pos hopen
  | cons c rest ih =>
    have hsame := startsWith_append_unclosed htail c rest
    rw [cons_append] at hsame ⊢
    rw [beforeMarker, beforeMarker, hsame, ih]

theorem beforeMarker_prefix (marker : List β) (text : List α) :
    beforeMarker key marker text <+: text := by
  induction text with
  | nil => exact nil_prefix
  | cons c rest ih =>
    rw [beforeMarker]
    split
    · exact nil_prefix
    · rw [cons_prefix_cons]
      exact ⟨rfl, ih⟩

theorem beforeMarker_closing (hapart : ¬ d.closeTail <+: d.openTail)
    (hmarker : marker.map key = d.closing) (rest : List α) :
    beforeMarker key d.opening (marker ++ rest) = marker ++ beforeMarker key d.opening rest := by
  apply beforeMarker_append
  rw [length_of_keys hmarker]
  exact not_opening_of_closing hapart (startsWith_of_keys hmarker rest)

variable [DecidableEq α]

theorem removeWord_skip (n : Nat) : removeWord word n text = removeWord word 0 (text.drop n) := by
  induction text generalizing n with
  | nil => cases n <;> simp [removeWord]
  | cons c rest ih =>
    cases n with
    | zero => simp
    | succ n => simp [removeWord, ih n]

theorem removeWord_word (hne : word ≠ []) :
    removeWord word 0 (word ++ rest) = removeWord word 0 rest := by
  obtain ⟨c, others, rfl⟩ := exists_cons_of_ne_nil hne
  have hstart : (c :: others).isPrefixOf (c :: (others ++ rest)) = true := by
    rw [List.isPrefixOf_iff_prefix, ← cons_append]
    exact prefix_append _ _
  rw [cons_append, removeWord, if_pos hstart, removeWord_skip]
  simp

theorem removeWord_append (h : ∀ i < text.length, ¬ word <+: (text ++ rest).drop i) :
    removeWord word 0 (text ++ rest) = text ++ removeWord word 0 rest := by
  induction text with
  | nil => rfl
  | cons c others ih =>
    have hhere : ¬ word <+: c :: (others ++ rest) := h 0 (by simp)
    have hothers := ih fun i hi => h (i + 1) (by simpa using hi)
    rw [cons_append, removeWord, if_neg (by rwa [List.isPrefixOf_iff_prefix]), hothers,
      cons_append]

/-! ### The passes and the scan as steps -/

/-- A closing marker that is not the word: the passes leave it, the scan does not show it. -/
def OtherClosing (key : α → β) (d : Delimiters β) (word marker : List α) : Prop :=
  marker.map key = d.closing ∧ marker ≠ word

/-- What the scan shows and a pass cuts where it begins with a shown item. -/
def WordOrOpening (key : α → β) (d : Delimiters β) (word marker : List α) : Prop :=
  marker = word ∨ marker.map key = d.opening

/-- The steps write what the passes leave of the pieces, and what the scan shows of them up to
    an opening marker, where the passes stop. -/
structure Shows (key : α → β) (d : Delimiters β) (word : List α) (ps : List (Piece α))
    (steps : List (Step α)) (leftover : List α) : Prop where
  written : Written d.closing.length (OtherClosing key d word) (WordOrOpening key d word) steps
  begun : Begun (WordOrOpening key d word) leftover
  left : removeWord word 0 (beforeMarker key d.opening (flat ps)) = leftOut steps
  right : outside ps = rightOut steps ++ leftover
  even : seamless key d word ps = true ↔ WordQueue.Even steps ∧ leftover = []

theorem removeWord_closing (hword : word.map key = d.closing) (hmarker : marker.map key = d.closing)
    (hother : marker ≠ word) (rest : List α) :
    removeWord word 0 (marker ++ rest) = marker ++ removeWord word 0 rest := by
  apply removeWord_append
  intro i hi hprefix
  have hclosing : startsWith key d.closing ((marker ++ rest).drop i) = true := by
    obtain ⟨after, hafter⟩ := hprefix
    rw [← hafter]
    exact startsWith_of_keys hword after
  rcases Nat.eq_zero_or_pos i with rfl | hpos
  · have hlength : word.length = marker.length := (length_of_keys hword).trans (length_of_keys hmarker).symm
    have hin : word <+: marker :=
      prefix_of_prefix_length_le hprefix (prefix_append marker rest) hlength.le
    exact hother (hin.eq_of_length hlength).symm
  · rw [length_of_keys hmarker] at hi
    have hnot : startsWith key d.closing ((marker ++ rest).drop i) = false :=
      not_startsWith_inside d.close_free (startsWith_of_keys hmarker rest) hpos (Nat.le_of_lt_succ hi)
    rw [hclosing] at hnot
    cases hnot

variable {steps : List (Step α)} {leftover : List α}

theorem Shows.nil : Shows key d word [] [] [] where
  written := ⟨by simp, by simp⟩
  begun := .inl rfl
  left := rfl
  right := rfl
  even := by simp [seamless, WordQueue.Even]

section

variable (hapart : ¬ d.closeTail <+: d.openTail) (hword : word.map key = d.closing)
include hapart hword

theorem Shows.stray_word
    (h : Shows key d word ps steps leftover) :
    Shows key d word (.stray word :: ps) steps leftover := { h with
  left := by
    have hne : word ≠ [] := by
      rintro rfl
      simp [Delimiters.closing] at hword
    rw [flat_stray, beforeMarker_closing hapart hword, removeWord_word hne, h.left]
  right := by rw [outside_stray, h.right]
  even := by simpa [seamless] using h.even }

theorem Shows.stray_other
    (hmarker : OtherClosing key d word marker) (h : Shows key d word ps steps leftover) :
    Shows key d word (.stray marker :: ps) (.left marker :: steps) leftover where
  written := h.written.cons_left hmarker (length_of_keys hmarker.1).ge
  begun := h.begun
  left := by
    rw [flat_stray, beforeMarker_closing hapart hmarker.1,
      removeWord_closing hword hmarker.1 hmarker.2, h.left, leftOut_left]
  right := by rw [outside_stray, h.right, rightOut_left]
  even := by simp [seamless, hmarker.2, WordQueue.Even]

end

theorem Shows.opening (hps : Strays key d ps) (h : startsWith key d.opening (c :: flat ps) = true) :
    Shows key d word (.shown c :: ps) [] (c :: outside ps) where
  written := ⟨by simp, by simp⟩
  begun := by
    rw [startsWith_iff, map_cons, Delimiters.opening, cons_prefix_cons] at h
    have hkeys : ((flat ps).take d.openTail.length).map key = d.openTail := by
      rw [map_take]
      exact (prefix_iff_eq_take.mp h.2).symm
    obtain ⟨qs, hqs⟩ := shown_of_prefix hps (by rw [hkeys]; exact d.open_free)
      (List.take_prefix d.openTail.length (flat ps))
    refine .inr ⟨c :: (flat ps).take d.openTail.length, .inr ?_, outside qs, ?_⟩
    · rw [map_cons, hkeys, ← h.1]
      rfl
    · rw [hqs, outside_map_shown, ← hqs, cons_append]
  left := by rw [flat_shown, beforeMarker, if_pos h]; rfl
  right := outside_shown
  even := by simp [seamless, h]

theorem Shows.created (hapart : ¬ d.closeTail <+: d.openTail) (hword : (c :: tail).map key = d.closing)
    (h : Shows key d (c :: tail) ps steps leftover) :
    Shows key d (c :: tail) (.shown c :: tail.map .shown ++ ps) (.right (c :: tail) :: steps) leftover where
  written := h.written.cons_right (.inl rfl) (length_of_keys hword).ge
  begun := h.begun
  left := by
    rw [cons_append, flat_shown, flat_map_shown, ← cons_append,
      beforeMarker_closing hapart hword, removeWord_word (cons_ne_nil c tail), h.left,
      leftOut_right]
  right := by
    rw [cons_append, outside_shown, outside_map_shown, h.right, rightOut_right]
    simp
  even := by
    have hbegins : tail.isPrefixOf (tail ++ flat ps) = true :=
      isPrefixOf_iff_prefix.mpr (prefix_append tail _)
    simp [seamless, flat_map_shown, WordQueue.Even, hbegins]

theorem Shows.shown (hopen : startsWith key d.opening (c :: flat ps) = false)
    (hnot : ¬ word <+: c :: flat ps) (h : Shows key d word ps steps leftover) :
    Shows key d word (.shown c :: ps) (.both c :: steps) leftover where
  written := h.written.cons_both
  begun := h.begun
  left := by
    have hrest : ¬ word <+: c :: beforeMarker key d.opening (flat ps) := by
      intro hprefix
      apply hnot
      exact hprefix.trans (cons_prefix_cons.mpr ⟨rfl, beforeMarker_prefix _ _⟩)
    rw [flat_shown, beforeMarker, if_neg (by simp [hopen]), removeWord,
      if_neg (by rwa [List.isPrefixOf_iff_prefix]), h.left, leftOut_both]
  right := by rw [outside_shown, h.right, rightOut_both, cons_append]
  even := by
    have hother : word.isPrefixOf (c :: flat ps) = false := by
      rwa [Bool.eq_false_iff, ne_eq, isPrefixOf_iff_prefix]
    rw [even_cons, ← h.even]
    simp [seamless, hopen, hother]

/-- **The passes and the scan as one sequence of steps.** -/
theorem exists_shows (hapart : ¬ d.closeTail <+: d.openTail) (hword : word.map key = d.closing) :
    ∀ ps : List (Piece α), Strays key d ps → ∃ steps leftover, Shows key d word ps steps leftover
  | [], _ => ⟨[], [], .nil⟩
  | .stray marker :: rest, hps => by
    obtain ⟨steps, leftover, hrest⟩ := exists_shows hapart hword rest hps.of_cons
    by_cases hmarker : marker = word
    · rw [hmarker]
      exact ⟨steps, leftover, hrest.stray_word hapart hword⟩
    · have hother : OtherClosing key d word marker := ⟨hps marker mem_cons_self, hmarker⟩
      exact ⟨_, leftover, hrest.stray_other hapart hword hother⟩
  | .shown c :: rest, hps => by
    rcases hopen : startsWith key d.opening (c :: flat rest) with _ | _
    · by_cases hbegins : word <+: c :: flat rest
      · -- the whole word is shown items
        obtain ⟨tail, htail⟩ : ∃ tail, word = c :: tail := by
          cases word with
          | nil => simp [Delimiters.closing] at hword
          | cons first tail => exact ⟨tail, by rw [(cons_prefix_cons.mp hbegins).1]⟩
        have hkeys : tail.map key = d.closeTail := by
          rw [htail] at hword
          exact (List.cons.inj hword).2
        rw [htail, cons_prefix_cons] at hbegins
        obtain ⟨qs, hqs⟩ := shown_of_prefix hps.of_cons (by rw [hkeys]; exact d.close_free) hbegins.2
        have hstrays : Strays key d qs := by
          rw [hqs] at hps
          exact hps.of_cons.of_append
        obtain ⟨steps, leftover, hrest⟩ := exists_shows hapart hword qs hstrays
        subst htail hqs
        exact ⟨_, leftover, hrest.created hapart hword⟩
      · obtain ⟨steps, leftover, hrest⟩ := exists_shows hapart hword rest hps.of_cons
        exact ⟨_, leftover, hrest.shown hopen hbegins⟩
    · exact ⟨[], _, .opening hps.of_cons hopen⟩
termination_by ps => ps.length
decreasing_by
  · simp
  · rw [hqs]
    simp only [length_cons, length_append]
    omega
  · simp

theorem passes_of_seamless (hapart : ¬ d.closeTail <+: d.openTail) (hword : word.map key = d.closing)
    (hps : Strays key d ps) (h : seamless key d word ps = true) :
    removeWord word 0 (beforeMarker key d.opening (flat ps)) = outside ps := by
  obtain ⟨steps, leftover, hshows⟩ := exists_shows hapart hword ps hps
  obtain ⟨heven, hleftover⟩ := hshows.even.mp h
  rw [hshows.left, hshows.right, hleftover, heven.rightOut_eq, append_nil]

section

variable (h : Legible key d lead space)
  (hapart : ¬ d.closeTail <+: d.openTail)
  (hshort : d.openTail.length ≤ d.closeTail.length)
  (hword : word.map key = d.closing)
include h hapart hshort hword

omit [DecidableEq β] [DecidableEq α] in
theorem rivals_markers :
    Rivals lead space d.closing.length (OtherClosing key d word) (WordOrOpening key d word) := by
  have hclosing : ∀ marker, marker.map key = d.closing → IsWord lead space marker :=
    fun marker hmarker => h.isWord d.close_free (fun k hk => .inr hk) hmarker
  have hopening : ∀ marker, marker.map key = d.opening → IsWord lead space marker :=
    fun marker hmarker => h.isWord d.open_free (fun k hk => .inl hk) hmarker
  have hapart' := d.distinct
  constructor
  · intro marker hmarker
    exact ⟨hclosing marker hmarker.1, (length_of_keys hmarker.1).le⟩
  · rintro marker (rfl | hmarker)
    · exact ⟨hclosing marker hword, (length_of_keys hword).le⟩
    · refine ⟨hopening marker hmarker, (length_of_keys hmarker).le.trans ?_⟩
      simpa [Delimiters.opening, Delimiters.closing] using hshort
  all_goals
    rintro marker other hmarker (rfl | hother) hbegins
    · have hlength := (length_of_keys hmarker.1).trans (length_of_keys hword).symm
      exact hmarker.2 (by simpa [hlength, eq_comm] using hbegins.eq_of_length)
    · have hkeys := hbegins.map key
      rw [hmarker.1, hother] at hkeys
      exact absurd (cons_prefix_cons.mp hkeys).2 ‹_›

/-- **But for spaces around them, the passes and the scan leave the same exactly where nothing is
    put together.** -/
theorem passes_strip_iff
    (hps : Strays key d ps) :
    strip space (removeWord word 0 (beforeMarker key d.opening (flat ps))) = strip space (outside ps) ↔
      seamless key d word ps = true := by
  constructor
  · intro heq
    obtain ⟨steps, leftover, hshows⟩ := exists_shows hapart hword ps hps
    rw [hshows.left, hshows.right] at heq
    exact hshows.even.mpr
      (even_of_strip_eq (rivals_markers h hapart hshort hword) hshows.written hshows.begun heq)
  · intro hseamless
    rw [passes_of_seamless hapart hword hps hseamless]

end

end

end MultiRag.MarkerScan
