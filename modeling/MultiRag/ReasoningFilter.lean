/-
  **The streaming filter that keeps model reasoning private.**

  `feed` removes `<think>` blocks from text that arrives in deltas.  It searches
  the lower-cased pending text and cuts the original at the position it finds.
  The two agree while every character has a lower case of one code point; the
  dotted capital I is the one character whose lower case has two.
-/
import Mathlib.Data.List.Flatten
import MultiRag.MarkerScan

namespace MultiRag.Reasoning

open MarkerScan List
open Option (some.inj some.injEq)

/-! ### Lower case and markers -/

def dottedCapitalI : Char := Char.ofNat 0x130

def combiningDot : Char := Char.ofNat 0x307

/-- `str.lower` of one character, `single` where it is one code point.  The form a final
    sigma takes depends on its neighbours, but neither form occurs in a marker. -/
def lowerChar (single : Char → Char) (c : Char) : List Char :=
  if c = dottedCapitalI then ['i', combiningDot] else [single c]

def lower (single : Char → Char) (text : List Char) : List Char :=
  text.flatMap (lowerChar single)

inductive Marker where
  | opening
  | closing
deriving DecidableEq

def Marker.text : Marker → List Char
  | .opening => ['<', 't', 'h', 'i', 'n', 'k', '>']
  | .closing => ['<', '/', 't', 'h', 'i', 'n', 'k', '>']

def find (sub : List Char) : List Char → Option Nat
  | [] => if sub = [] then some 0 else none
  | c :: rest => if sub.isPrefixOf (c :: rest) then some 0 else (find sub rest).map (· + 1)

/-! ### The filter -/

structure ReasoningFilter where
  pending : List Char
  inReasoning : Bool

def ReasoningFilter.init : ReasoningFilter := ⟨[], false⟩

def suffixLength (marker lowered : List Char) : Nat → Nat
  | 0 => 0
  | length + 1 =>
    if (lowered.drop (lowered.length - (length + 1))).isPrefixOf marker then length + 1
    else suffixLength marker lowered length

def partialMarkerSuffix (single : Char → Char) (pending : List Char) (marker : Marker) : Nat :=
  suffixLength marker.text (lower single pending)
    (min (lower single pending).length (marker.text.length - 1))

def nextMarker : Option Nat → Option Nat → Option (Nat × Marker)
  | none, none => none
  | none, some closingAt => some (closingAt, .closing)
  | some openingAt, none => some (openingAt, .opening)
  | some openingAt, some closingAt =>
    if openingAt < closingAt then some (openingAt, .opening) else some (closingAt, .closing)

def release (pending : List Char) (keep : Nat) : List Char := pending.take (pending.length - keep)

def retain (pending : List Char) (keep : Nat) : List Char := pending.drop (pending.length - keep)

/-- The loop of `feed`: what it appends to `visible`, and the filter it leaves. -/
def feedLoop (single : Char → Char) (f : ReasoningFilter) : List Char × ReasoningFilter :=
  if f.pending = [] then ([], f)
  else if f.inReasoning then
    match find Marker.closing.text (lower single f.pending) with
    | some closingAt =>
      feedLoop single ⟨f.pending.drop (closingAt + Marker.closing.text.length), false⟩
    | none => ([], ⟨retain f.pending (partialMarkerSuffix single f.pending .closing), true⟩)
  else
    match nextMarker (find Marker.opening.text (lower single f.pending))
        (find Marker.closing.text (lower single f.pending)) with
    | some (markerAt, marker) =>
      let next := feedLoop single
        ⟨f.pending.drop (markerAt + marker.text.length), marker == .opening⟩
      (f.pending.take markerAt ++ next.1, next.2)
    | none =>
      let keep := max (partialMarkerSuffix single f.pending .opening)
        (partialMarkerSuffix single f.pending .closing)
      (release f.pending keep, ⟨retain f.pending keep, false⟩)
termination_by f.pending.length
decreasing_by
  · have hpos : 0 < f.pending.length := length_pos_iff.mpr ‹_›
    simp [Marker.text]
    omega
  · have hpos : 0 < f.pending.length := length_pos_iff.mpr ‹_›
    cases marker <;> simp [Marker.text] <;> omega

def feed (single : Char → Char) (f : ReasoningFilter) (content : List Char) :
    List Char × ReasoningFilter :=
  feedLoop single { f with pending := f.pending ++ content }

def finish (f : ReasoningFilter) : List Char := if f.inReasoning then [] else f.pending

/-- What `feed` over the deltas and then `finish` emit. -/
def visible (single : Char → Char) (f : ReasoningFilter) : List (List Char) → List Char
  | [] => finish f
  | content :: rest =>
    let step := feed single f content
    step.1 ++ visible single step.2 rest

def thinkMarkers : Delimiters (List Char) where
  lead := ['<']
  openTail := [['t'], ['h'], ['i'], ['n'], ['k'], ['>']]
  closeTail := [['/'], ['t'], ['h'], ['i'], ['n'], ['k'], ['>']]
  open_free := by decide
  close_free := by decide
  distinct := by decide

def outsideBlocks (single : Char → Char) (text : List Char) : List Char :=
  scan (lowerChar single) thinkMarkers false 0 text

/-- No marker that the scan acts on stands behind a dotted capital I: outside the blocks no
    marker follows one at all, and the block it stands in is not closed, or only by the
    end of the text. -/
def Unshifted (single : Char → Char) : Bool → Nat → List Char → Prop
  | _, _, [] => True
  | inside, skip + 1, _ :: rest => Unshifted single inside skip rest
  | inside, 0, c :: rest =>
    if startsWith (lowerChar single) thinkMarkers.closing (c :: rest) then
      Unshifted single false thinkMarkers.closeTail.length rest
    else if inside then
      (c = dottedCapitalI → ∀ n, position (lowerChar single) thinkMarkers.closing rest = some n →
        rest.length = n + thinkMarkers.closing.length) ∧ Unshifted single true 0 rest
    else if startsWith (lowerChar single) thinkMarkers.opening (c :: rest) then
      Unshifted single true thinkMarkers.openTail.length rest
    else
      (c = dottedCapitalI → position (lowerChar single) thinkMarkers.closing rest = none ∧
        position (lowerChar single) thinkMarkers.opening rest = none) ∧
      Unshifted single false 0 rest

variable {single : Char → Char}

/-! ### Positions in the lower-cased text -/

theorem lowerChar_dotted : lowerChar single dottedCapitalI = ['i', combiningDot] := if_pos rfl

variable {c : Char}

theorem lowerChar_plain (h : c ≠ dottedCapitalI) : lowerChar single c = [single c] :=
  if_neg h

@[simp] theorem lower_nil : lower single [] = [] := rfl

@[simp] theorem lower_dotted (rest : List Char) :
    lower single (dottedCapitalI :: rest) = 'i' :: combiningDot :: lower single rest := by
  simp [lower, lowerChar_dotted]

theorem lower_plain (h : c ≠ dottedCapitalI) (rest : List Char) :
    lower single (c :: rest) = single c :: lower single rest := by
  simp [lower, lowerChar_plain h]

theorem Marker.keys (marker : Marker) :
    marker.text.map (fun c => [c]) = match marker with
      | .opening => thinkMarkers.opening
      | .closing => thinkMarkers.closing := by
  cases marker <;> rfl

/-- What keeps a word apart from the lower case of the dotted capital I. -/
structure Apart (word : List Char) : Prop where
  undotted : combiningDot ∉ word
  ending : word.getLast? ≠ some 'i'

theorem Marker.apart (marker : Marker) : Apart marker.text := by
  cases marker <;> exact ⟨by decide, by decide⟩

variable {word : List Char}

theorem Apart.tail (h : Apart (c :: word)) : Apart word := by
  refine ⟨fun hmem => h.undotted (mem_cons_of_mem c hmem), ?_⟩
  cases word with
  | nil => simp
  | cons next others => simpa using h.ending

theorem prefix_lower_iff (hword : Apart word) (text : List Char) :
    word <+: lower single text ↔ word.map (fun c => [c]) <+: text.map (lowerChar single) := by
  induction word generalizing text with
  | nil => simp
  | cons first others ih =>
    cases text with
    | nil => simp
    | cons c rest =>
      by_cases hc : c = dottedCapitalI
      · subst hc
        have hnot : ¬ (first :: others) <+: lower single (dottedCapitalI :: rest) := by
          rw [lower_dotted, cons_prefix_cons]
          rintro ⟨rfl, hothers⟩
          cases others with
          | nil => exact hword.ending rfl
          | cons second others =>
            rw [cons_prefix_cons] at hothers
            exact hword.undotted (by simp [hothers.1])
        simp only [hnot, false_iff]
        simp [lowerChar_dotted, cons_prefix_cons]
      · rw [lower_plain hc, map_cons, map_cons, lowerChar_plain hc,
          cons_prefix_cons, cons_prefix_cons, ih hword.tail]
        simp

theorem isPrefixOf_lower (hword : Apart word) (text : List Char) :
    word.isPrefixOf (lower single text) =
      startsWith (lowerChar single) (word.map fun c => [c]) text := by
  rw [Bool.eq_iff_iff, isPrefixOf_iff_prefix, startsWith_iff]
  exact prefix_lower_iff hword text

theorem find_lower (hword : Apart word) (hne : word ≠ []) (text : List Char) :
    find word (lower single text) =
      (position (lowerChar single) (word.map fun c => [c]) text).map
        fun n => (lower single (text.take n)).length := by
  induction text with
  | nil => simp [lower, find, position, hne]
  | cons c rest ih =>
    have hstart : word.isPrefixOf (lower single (c :: rest)) = _ := isPrefixOf_lower hword _
    unfold position
    by_cases hc : c = dottedCapitalI
    · subst hc
      have hdot : word.isPrefixOf (combiningDot :: lower single rest) = false := by
        cases word with
        | nil => exact absurd rfl hne
        | cons first others =>
          have hfirst : first ≠ combiningDot := fun h => hword.undotted (by simp [h])
          simp [List.isPrefixOf, hfirst]
      rw [← hstart, lower_dotted, find]
      split
      · rfl
      · rw [find, if_neg (by simp [hdot]), ih]
        simp [Function.comp_def]
    · rw [← hstart, lower_plain hc, find]
      split
      · rfl
      · rw [ih]
        simp [Function.comp_def, lower_plain hc]

theorem find_marker (marker : Marker) (text : List Char) :
    find marker.text (lower single text) =
      (position (lowerChar single) (marker.text.map fun c => [c]) text).map
        fun n => (lower single (text.take n)).length :=
  find_lower marker.apart (by cases marker <;> simp [Marker.text]) text

variable {text : List Char}

theorem length_lower (h : dottedCapitalI ∉ text) :
    (lower single text).length = text.length := by
  induction text with
  | nil => rfl
  | cons c rest ih =>
    rw [mem_cons, not_or] at h
    rw [lower_plain (Ne.symm h.1), length_cons, length_cons, ih h.2]

theorem le_length_lower (text : List Char) : text.length ≤ (lower single text).length := by
  induction text with
  | nil => simp
  | cons c rest ih =>
    by_cases hc : c = dottedCapitalI
    · subst hc
      simp
      omega
    · rw [lower_plain hc]
      simpa using ih

theorem lt_length_lower (h : dottedCapitalI ∈ text) :
    text.length < (lower single text).length := by
  induction text with
  | nil => cases h
  | cons c rest ih =>
    have hrest : rest.length ≤ (lower single rest).length := le_length_lower rest
    by_cases hc : c = dottedCapitalI
    · subst hc
      simp
      omega
    · rw [lower_plain hc]
      simpa using ih ((mem_cons.mp h).resolve_left (Ne.symm hc))

theorem lower_append (text rest : List Char) :
    lower single (text ++ rest) = lower single text ++ lower single rest :=
  flatMap_append

theorem length_lower_take_lt {i j : Nat} (hij : i < j) (hj : j ≤ text.length) :
    (lower single (text.take i)).length < (lower single (text.take j)).length := by
  have hsplit : text.take j = text.take i ++ (text.drop i).take (j - i) := by
    rw [← take_add, show i + (j - i) = j by omega]
  have hpos : 0 < ((text.drop i).take (j - i)).length := by
    rw [length_take, length_drop]
    omega
  have hgrown : ((text.drop i).take (j - i)).length ≤
      (lower single ((text.drop i).take (j - i))).length := le_length_lower _
  rw [hsplit, lower_append, length_append]
  exact Nat.lt_add_of_pos_right (Nat.lt_of_lt_of_le hpos hgrown)

def First (single : Char → Char) (text : List Char) (n : Nat) : Marker → Prop
  | .opening => position (lowerChar single) thinkMarkers.opening text = some n ∧
      ∀ m, position (lowerChar single) thinkMarkers.closing text = some m → n < m
  | .closing => position (lowerChar single) thinkMarkers.closing text = some n ∧
      ∀ m, position (lowerChar single) thinkMarkers.opening text = some m → n ≤ m

variable {n : Nat} {marker : Marker}

theorem First.unique {m : Nat} {other : Marker} (h : First single text n marker)
    (h' : First single text m other) : n = m ∧ marker = other := by
  cases marker with
  | opening =>
    cases other with
    | opening => exact ⟨some.inj (h.1.symm.trans h'.1), rfl⟩
    | closing =>
      have hlt := h.2 m h'.1
      have hle := h'.2 n h.1
      omega
  | closing =>
    cases other with
    | opening =>
      have hle := h.2 m h'.1
      have hlt := h'.2 n h.1
      omega
    | closing => exact ⟨some.inj (h.1.symm.trans h'.1), rfl⟩

theorem First.room (h : First single text n marker) :
    n + marker.text.length ≤ text.length := by
  have hroom : ∀ word : List (List Char), position (lowerChar single) word text = some n →
      n + word.length ≤ text.length := by
    intro word hword
    obtain ⟨hlt, hat, -⟩ := position_eq_some_iff.mp hword
    have hlength := length_of_startsWith hat
    rw [length_drop] at hlength
    omega
  cases marker with
  | opening => exact hroom _ h.1
  | closing => exact hroom _ h.1

theorem nextMarker_eq_some {markerAt : Nat}
    (h : nextMarker (find Marker.opening.text (lower single text))
      (find Marker.closing.text (lower single text)) = some (markerAt, marker)) :
    ∃ n, markerAt = (lower single (text.take n)).length ∧ First single text n marker := by
  rw [find_marker, find_marker, Marker.keys, Marker.keys] at h
  rcases hopen : position (lowerChar single) thinkMarkers.opening text with _ | openingAt
  · rcases hclose : position (lowerChar single) thinkMarkers.closing text with _ | closingAt
    · simp [hopen, hclose, nextMarker] at h
    · simp only [hopen, hclose, Option.map_none, Option.map_some, nextMarker, some.injEq,
        Prod.mk.injEq] at h
      obtain ⟨rfl, rfl⟩ := h
      exact ⟨closingAt, rfl, hclose, by simp [hopen]⟩
  · rcases hclose : position (lowerChar single) thinkMarkers.closing text with _ | closingAt
    · simp only [hopen, hclose, Option.map_none, Option.map_some, nextMarker, some.injEq,
        Prod.mk.injEq] at h
      obtain ⟨rfl, rfl⟩ := h
      exact ⟨openingAt, rfl, hopen, by simp [hclose]⟩
    · simp only [hopen, hclose, Option.map_some, nextMarker] at h
      have hroomOpen := (position_eq_some_iff.mp hopen).1
      have hroomClose := (position_eq_some_iff.mp hclose).1
      split at h
      · next hlt =>
        rw [some.injEq, Prod.mk.injEq] at h
        obtain ⟨rfl, rfl⟩ := h
        refine ⟨openingAt, rfl, hopen, fun m hm => ?_⟩
        rw [hclose, some.injEq] at hm
        subst hm
        by_contra hge
        rcases Nat.eq_or_lt_of_le (Nat.le_of_not_lt hge) with heq | hless
        · rw [heq] at hlt
          exact absurd hlt (Nat.lt_irrefl _)
        · have hgrown : (lower single (text.take closingAt)).length <
              (lower single (text.take openingAt)).length := length_lower_take_lt hless hroomOpen.le
          omega
      · next hge =>
        rw [some.injEq, Prod.mk.injEq] at h
        obtain ⟨rfl, rfl⟩ := h
        refine ⟨closingAt, rfl, hclose, fun m hm => ?_⟩
        rw [hopen, some.injEq] at hm
        by_contra hless
        have hgrown : (lower single (text.take openingAt)).length <
            (lower single (text.take closingAt)).length :=
          length_lower_take_lt (by omega) hroomClose.le
        omega

theorem nextMarker_eq_none
    (h : nextMarker (find Marker.opening.text (lower single text))
      (find Marker.closing.text (lower single text)) = none) :
    position (lowerChar single) thinkMarkers.opening text = none ∧
      position (lowerChar single) thinkMarkers.closing text = none := by
  rw [find_marker, find_marker, Marker.keys, Marker.keys] at h
  rcases hopen : position (lowerChar single) thinkMarkers.opening text with _ | openingAt
  · rcases hclose : position (lowerChar single) thinkMarkers.closing text with _ | closingAt
    · exact ⟨rfl, rfl⟩
    · simp [hopen, hclose, nextMarker] at h
  · rcases hclose : position (lowerChar single) thinkMarkers.closing text with _ | closingAt
    · simp [hopen, hclose, nextMarker] at h
    · simp only [hopen, hclose, Option.map_some, nextMarker] at h
      split at h <;> cases h

theorem First.nextMarker_eq (h : First single text n marker) :
    nextMarker (find Marker.opening.text (lower single text))
      (find Marker.closing.text (lower single text)) =
        some ((lower single (text.take n)).length, marker) := by
  rcases hnext : nextMarker (find Marker.opening.text (lower single text))
      (find Marker.closing.text (lower single text)) with _ | ⟨markerAt, other⟩
  · obtain ⟨hopen, hclose⟩ := nextMarker_eq_none hnext
    cases marker with
    | opening => exact absurd (hopen.symm.trans h.1) (by simp)
    | closing => exact absurd (hclose.symm.trans h.1) (by simp)
  · obtain ⟨m, rfl, hm⟩ := nextMarker_eq_some hnext
    obtain ⟨rfl, rfl⟩ := h.unique hm
    rfl

theorem First.scans (h : First single text n marker) (rest : List Char) :
    Scans (lowerChar single) thinkMarkers false (text ++ rest) (text.take n) (marker == .opening)
      (text.drop (n + marker.text.length) ++ rest) := by
  cases marker with
  | opening => exact Scans.enter_block h.1 h.2
  | closing => exact Scans.pass_closing h.1 h.2

theorem map_lowerChar (h : dottedCapitalI ∉ text) :
    text.map (lowerChar single) = (lower single text).map fun c => [c] := by
  induction text with
  | nil => rfl
  | cons c rest ih =>
    rw [mem_cons, not_or] at h
    rw [lower_plain (Ne.symm h.1), map_cons, map_cons, lowerChar_plain (Ne.symm h.1),
      ih h.2]

theorem undotted_of_lower (h : combiningDot ∉ lower single text) :
    dottedCapitalI ∉ text := by
  intro hmem
  refine h (mem_flatMap.mpr ⟨dottedCapitalI, hmem, ?_⟩)
  simp [lowerChar_dotted]

theorem lower_of_keys (h : text.map (lowerChar single) = word.map fun c => [c]) :
    lower single text = word := by
  rw [lower, flatMap_def, h, ← flatMap_def, flatMap_singleton']

theorem plain_of_begun (marker : Marker)
    (h : text.map (lowerChar single) <+: marker.text.map fun c => [c]) :
    dottedCapitalI ∉ text := by
  intro hmem
  have hkey := h.mem (mem_map_of_mem hmem)
  simp [lowerChar_dotted] at hkey

/-! ### Suffixes of the lower-cased text -/

theorem suffix_lower (hword : combiningDot ∉ word) (h : word <:+ lower single text) :
    ∃ tail, tail <:+ text ∧ tail.length = word.length ∧
      tail.map (lowerChar single) = word.map (fun c => [c]) := by
  induction text with
  | nil =>
    rw [lower_nil, suffix_nil] at h
    exact ⟨[], suffix_refl _, by simp [h]⟩
  | cons c rest ih =>
    have hlater : word <:+ lower single rest → ∃ tail, tail <:+ c :: rest ∧
        tail.length = word.length ∧ tail.map (lowerChar single) = word.map (fun c => [c]) := by
      intro hrest
      obtain ⟨tail, htail, hlength, hkeys⟩ := ih hrest
      exact ⟨tail, htail.trans (suffix_cons c rest), hlength, hkeys⟩
    by_cases hc : c = dottedCapitalI
    · subst hc
      rw [lower_dotted, suffix_cons_iff, suffix_cons_iff] at h
      rcases h with rfl | rfl | hrest
      · exact absurd (by simp) hword
      · exact absurd (by simp) hword
      · exact hlater hrest
    · rw [lower_plain hc, suffix_cons_iff] at h
      rcases h with rfl | hrest
      · rw [← lower_plain hc] at hword ⊢
        have hplain := undotted_of_lower hword
        exact ⟨c :: rest, suffix_refl _, (length_lower hplain).symm, map_lowerChar hplain⟩
      · exact hlater hrest

theorem suffixLength_le (marker lowered : List Char) (n : Nat) :
    suffixLength marker lowered n ≤ n := by
  induction n with
  | zero => simp [suffixLength]
  | succ n ih =>
    unfold suffixLength
    split
    · exact le_rfl
    · omega

theorem suffixLength_prefix (marker lowered : List Char) (n : Nat) :
    suffixLength marker lowered n = 0 ∨
      lowered.drop (lowered.length - suffixLength marker lowered n) <+: marker := by
  induction n with
  | zero => simp [suffixLength]
  | succ n ih =>
    unfold suffixLength
    split
    · next hbegun => exact .inr (List.isPrefixOf_iff_prefix.mp hbegun)
    · exact ih

theorem le_suffixLength {marker lowered : List Char} {k : Nat} (hk : k ≤ n)
    (h : lowered.drop (lowered.length - k) <+: marker) : k ≤ suffixLength marker lowered n := by
  induction n with
  | zero => omega
  | succ n ih =>
    unfold suffixLength
    split
    · exact hk
    · next hnot =>
      rcases Nat.lt_or_ge k (n + 1) with hlt | hge
      · exact ih (by omega)
      · have heq : k = n + 1 := by omega
        subst heq
        exact absurd (List.isPrefixOf_iff_prefix.mpr h) hnot

theorem retain_keys (single : Char → Char) (text : List Char) (marker : Marker) :
    partialMarkerSuffix single text marker ≤ text.length ∧
      (retain text (partialMarkerSuffix single text marker)).map (lowerChar single) <+:
        marker.text.map fun c => [c] := by
  have hle := suffixLength_le marker.text (lower single text)
    (min (lower single text).length (marker.text.length - 1))
  rcases suffixLength_prefix marker.text (lower single text)
    (min (lower single text).length (marker.text.length - 1)) with hzero | hbegun
  · simp [partialMarkerSuffix, hzero, retain]
  · rw [← partialMarkerSuffix] at hle hbegun
    generalize partialMarkerSuffix single text marker = keep at hle hbegun
    have hundotted : combiningDot ∉ (lower single text).drop ((lower single text).length - keep) :=
      fun hmem => marker.apart.undotted (hbegun.mem hmem)
    obtain ⟨tail, htail, hlength, hkeys⟩ := suffix_lower hundotted (drop_suffix _ _)
    have hkeep : tail.length = keep := by
      rw [hlength, length_drop]
      omega
    refine ⟨hkeep ▸ htail.length_le, ?_⟩
    have hretain : retain text keep = tail := by
      rw [retain, ← hkeep]
      exact (suffix_iff_eq_drop.mp htail).symm
    rw [hretain, hkeys]
    exact hbegun.map _

theorem le_partialMarkerSuffix {i : Nat}
    (h : (text.drop i).map (lowerChar single) <+: marker.text.map fun c => [c])
    (hshort : text.length - i < marker.text.length) :
    text.length - i ≤ partialMarkerSuffix single text marker := by
  obtain ⟨word, hword, hkeys⟩ : ∃ word, word <+: marker.text ∧
      (text.drop i).map (lowerChar single) = word.map fun c => [c] := by
    refine ⟨marker.text.take (text.length - i), take_prefix _ _, ?_⟩
    have heq := prefix_iff_eq_take.mp h
    rw [length_map, length_drop, ← map_take] at heq
    exact heq
  have hlower : lower single (text.drop i) = word := lower_of_keys hkeys
  have hlength : word.length = text.length - i := by
    have hlengths := congrArg List.length hkeys
    rw [length_map, length_map, length_drop] at hlengths
    exact hlengths.symm
  have hsplit : lower single text = lower single (text.take i) ++ word := by
    rw [← hlower, ← lower_append, take_append_drop]
  refine le_suffixLength ?_ ?_
  · rw [hsplit, length_append]
    omega
  · rw [hsplit, length_append, ← hlength, Nat.add_sub_cancel, drop_left]
    exact hword

end MultiRag.Reasoning
