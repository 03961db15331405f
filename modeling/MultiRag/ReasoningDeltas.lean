/-
  **The reasoning filter, over every cutting of a text into deltas.**

  Character by character it always does.  Whatever the text is, the filter only leaves out
  (`visible_sublist`).
-/
import MultiRag.ReasoningFilter

namespace MultiRag.Reasoning

open MarkerScan List

variable {single : Char → Char} {inside mode : Bool} {text rest left out : List Char}

/-! ### The condition along the scan -/

theorem unshifted_skip (n : Nat) :
    Unshifted single inside n text ↔ Unshifted single inside 0 (text.drop n) := by
  induction text generalizing n with
  | nil => cases n <;> simp [Unshifted]
  | cons c rest ih =>
    cases n with
    | zero => simp
    | succ n => simp [Unshifted, ih n]

theorem unshifted_closed (h : startsWith (lowerChar single) thinkMarkers.closing text = true) :
    Unshifted single inside 0 text ↔
      Unshifted single false 0 (text.drop thinkMarkers.closing.length) := by
  cases text with
  | nil => simp [Delimiters.closing, startsWith_nil] at h
  | cons c rest =>
    rw [Unshifted, if_pos h, unshifted_skip]
    rfl

theorem unshifted_opened (hclose : startsWith (lowerChar single) thinkMarkers.closing text = false)
    (h : startsWith (lowerChar single) thinkMarkers.opening text = true) :
    Unshifted single false 0 text ↔
      Unshifted single true 0 (text.drop thinkMarkers.opening.length) := by
  cases text with
  | nil => simp [Delimiters.opening, startsWith_nil] at h
  | cons c rest =>
    rw [Unshifted, if_neg (by simp [hclose]), if_neg (by simp), if_pos h, unshifted_skip]
    rfl

theorem unshifted_hidden {c : Char}
    (hclose : startsWith (lowerChar single) thinkMarkers.closing (c :: rest) = false) :
    Unshifted single true 0 (c :: rest) ↔
      (c = dottedCapitalI → ∀ n, position (lowerChar single) thinkMarkers.closing rest = some n →
        rest.length = n + thinkMarkers.closing.length) ∧ Unshifted single true 0 rest := by
  rw [Unshifted, if_neg (by simp [hclose]), if_pos rfl]

theorem unshifted_shown {c : Char}
    (hclose : startsWith (lowerChar single) thinkMarkers.closing (c :: rest) = false)
    (hopen : startsWith (lowerChar single) thinkMarkers.opening (c :: rest) = false) :
    Unshifted single false 0 (c :: rest) ↔
      (c = dottedCapitalI → position (lowerChar single) thinkMarkers.closing rest = none ∧
        position (lowerChar single) thinkMarkers.opening rest = none) ∧
      Unshifted single false 0 rest := by
  rw [Unshifted, if_neg (by simp [hclose]), if_neg (by simp), if_neg (by simp [hopen])]

theorem plain_drop (hplain : ∀ passed, text = passed ++ left → dottedCapitalI ∉ passed) (n : Nat) (other : List Char)
    (hother : text.drop n = other ++ left) : dottedCapitalI ∉ other := by
  intro hmem
  refine hplain (text.take n ++ other) ?_ (mem_append_right _ hmem)
  rw [append_assoc, ← hother, take_append_drop]

section

variable (h : Scans (lowerChar single) thinkMarkers inside text out mode left)
include h

theorem unshifted_of_scans
    (htext : Unshifted single inside 0 text) : Unshifted single mode 0 left := by
  induction h with
  | done => exact htext
  | shown hclose hopen _ ih => exact ih ((unshifted_shown hclose hopen).mp htext).2
  | hidden hclose _ ih => exact ih ((unshifted_hidden hclose).mp htext).2
  | opened hclose hopen _ ih => exact ih ((unshifted_opened hclose hopen).mp htext)
  | closed hclose _ ih => exact ih ((unshifted_closed hclose).mp htext)

theorem left_suffix :
    left <:+ text := by
  induction h with
  | done => exact suffix_refl _
  | shown _ _ _ ih => exact ih.trans (suffix_cons _ _)
  | hidden _ _ ih => exact ih.trans (suffix_cons _ _)
  | opened _ _ _ ih => exact ih.trans (drop_suffix _ _)
  | closed _ _ ih => exact ih.trans (drop_suffix _ _)

theorem unshifted_before
    (hplain : ∀ passed, text = passed ++ left → dottedCapitalI ∉ passed)
    (hleft : Unshifted single mode 0 left) : Unshifted single inside 0 text := by
  induction h with
  | done => exact hleft
  | @shown c rest out mode left hclose hopen hscans ih =>
    obtain ⟨passed, hpassed⟩ := left_suffix hscans
    have hnot := hplain (c :: passed) (by rw [cons_append, hpassed])
    rw [unshifted_shown hclose hopen]
    exact ⟨fun hc => absurd (hc ▸ mem_cons_self) hnot, ih (plain_drop hplain 1) hleft⟩
  | @hidden c rest out mode left hclose hscans ih =>
    obtain ⟨passed, hpassed⟩ := left_suffix hscans
    have hnot := hplain (c :: passed) (by rw [cons_append, hpassed])
    rw [unshifted_hidden hclose]
    exact ⟨fun hc => absurd (hc ▸ mem_cons_self) hnot, ih (plain_drop hplain 1) hleft⟩
  | @opened text out mode left hclose hopen hscans ih =>
    rw [unshifted_opened hclose hopen]
    exact ih (plain_drop hplain _) hleft
  | @closed inside text out mode left hclose hscans ih =>
    rw [unshifted_closed hclose]
    exact ih (plain_drop hplain _) hleft

end

theorem unshifted_plain (h : dottedCapitalI ∉ text) (n : Nat) : Unshifted single inside n text := by
  induction text generalizing inside n with
  | nil => cases n <;> simp [Unshifted]
  | cons c rest ih =>
    rw [mem_cons, not_or] at h
    have hc : c ≠ dottedCapitalI := Ne.symm h.1
    cases n with
    | zero => simp [Unshifted, hc, ih h.2]
    | succ n => simp [Unshifted, ih h.2]

theorem starts_or_plain (marker : Marker)
    (h : startsWith (lowerChar single) (marker.text.map fun c => [c]) (text ++ rest) = true) :
    startsWith (lowerChar single) (marker.text.map fun c => [c]) text = true ∨
      dottedCapitalI ∉ text := by
  rcases startsWith_or_reaches h with hwithin | hreaches
  · exact .inl hwithin
  · exact .inr (plain_of_begun marker hreaches)

theorem unshifted_append (n : Nat) (h : Unshifted single inside n (text ++ rest)) :
    Unshifted single inside n text := by
  induction text generalizing inside n with
  | nil => cases n <;> simp [Unshifted]
  | cons c others ih =>
    by_cases hplain : dottedCapitalI ∉ c :: others
    · exact unshifted_plain hplain n
    have hfree : ∀ marker : Marker,
        startsWith (lowerChar single) (marker.text.map fun c => [c]) (c :: (others ++ rest)) =
          startsWith (lowerChar single) (marker.text.map fun c => [c]) (c :: others) := by
      intro marker
      rw [Bool.eq_iff_iff]
      constructor
      · exact fun hstart => (starts_or_plain marker hstart).resolve_right hplain
      · exact fun hstart => startsWith_append hstart rest
    have hclose := hfree .closing
    have hopen := hfree .opening
    rw [Marker.keys] at hclose hopen
    cases n with
    | succ n =>
      exact ih n h
    | zero =>
      simp only [cons_append, Unshifted, hclose, hopen] at h ⊢
      split at h
      · next hstart =>
        rw [if_pos hstart]
        exact ih _ h
      · next hstart =>
        rw [if_neg hstart]
        split at h
        · next hinside =>
          rw [if_pos hinside]
          refine ⟨fun hc n hn => ?_, ih 0 h.2⟩
          have hend := h.1 hc n (position_append thinkMarkers.close_free hn rest)
          obtain ⟨-, hat, -⟩ := position_eq_some_iff.mp hn
          have hroom := length_of_startsWith hat
          rw [length_append] at hend
          rw [length_drop] at hroom
          have hpos : 0 < thinkMarkers.closing.length := by decide
          omega
        · next hinside =>
          rw [if_neg hinside]
          split at h
          · next hstarts =>
            rw [if_pos hstarts]
            exact ih _ h
          · next hstarts =>
            rw [if_neg hstarts]
            refine ⟨fun hc => ?_, ih 0 h.2⟩
            exact ⟨position_of_append_none thinkMarkers.close_free (h.1 hc).1,
              position_of_append_none thinkMarkers.open_free (h.1 hc).2⟩

/-! ### One round of the filter -/

variable {n : Nat}

theorem plain_before_closing (h : Unshifted single true 0 text)
    (hn : position (lowerChar single) thinkMarkers.closing text = some n) :
    dottedCapitalI ∉ text.take n ∨ text.length = n + thinkMarkers.closing.length := by
  induction text generalizing n with
  | nil => simp [position] at hn
  | cons c rest ih =>
    unfold position at hn
    split at hn
    · rw [← Option.some.inj hn]
      simp
    · next hclose =>
      rw [Option.map_eq_some_iff] at hn
      obtain ⟨m, hm, rfl⟩ := hn
      rw [unshifted_hidden (by simpa using hclose)] at h
      by_cases hc : c = dottedCapitalI
      · right
        rw [length_cons, h.1 hc m hm]
        omega
      · rcases ih h.2 hm with hplain | hend
        · left
          simp [Ne.symm hc, hplain]
        · right
          rw [length_cons, hend]
          omega

theorem plain_before_marker (h : Unshifted single false 0 text)
    (hbefore : ∀ i < n, startsWith (lowerChar single) thinkMarkers.closing (text.drop i) = false ∧
      startsWith (lowerChar single) thinkMarkers.opening (text.drop i) = false)
    (hat : startsWith (lowerChar single) thinkMarkers.closing (text.drop n) = true ∨
      startsWith (lowerChar single) thinkMarkers.opening (text.drop n) = true) :
    dottedCapitalI ∉ text.take n := by
  induction n generalizing text with
  | zero => simp
  | succ n ih =>
    cases text with
    | nil => simp
    | cons c rest =>
      have hhere := hbefore 0 (by omega)
      rw [unshifted_shown hhere.1 hhere.2] at h
      have hrest := ih h.2 (fun i hi => hbefore (i + 1) (by omega)) hat
      have hc : c ≠ dottedCapitalI := by
        intro hc
        obtain ⟨hclose, hopen⟩ := h.1 hc
        rw [drop_succ_cons] at hat
        rcases hat with hat | hat
        · exact absurd hat (Bool.eq_false_iff.mp (startsWith_drop_of_none hclose n))
        · exact absurd hat (Bool.eq_false_iff.mp (startsWith_drop_of_none hopen n))
      simp [Ne.symm hc, hrest]

variable {marker : Marker}

theorem First.plain (hfirst : First single text n marker) (h : Unshifted single false 0 text) :
    n ≤ text.length ∧ dottedCapitalI ∉ text.take n := by
  cases marker with
  | opening =>
    obtain ⟨hopen, hclose⟩ := hfirst
    obtain ⟨hlt, hat, hbefore⟩ := position_eq_some_iff.mp hopen
    exact ⟨hlt.le, plain_before_marker h (fun i hi =>
      ⟨before_position (fun m hm => (hclose m hm).le) hi, hbefore i hi⟩) (.inr hat)⟩
  | closing =>
    obtain ⟨hclose, hopen⟩ := hfirst
    obtain ⟨hlt, hat, hbefore⟩ := position_eq_some_iff.mp hclose
    exact ⟨hlt.le, plain_before_marker h (fun i hi =>
      ⟨hbefore i hi, before_position hopen hi⟩) (.inl hat)⟩

theorem drop_shifted {k : Nat} (hn : n ≤ text.length)
    (h : dottedCapitalI ∉ text.take n ∨ text.length = n + k) :
    text.drop ((lower single (text.take n)).length + k) = text.drop (n + k) := by
  rcases h with hplain | hend
  · rw [length_lower hplain, length_take, Nat.min_eq_left hn]
  · have hgrown : (text.take n).length ≤ (lower single (text.take n)).length := le_length_lower _
    rw [length_take, Nat.min_eq_left hn] at hgrown
    rw [drop_eq_nil_of_le (by omega), drop_eq_nil_of_le (by omega)]

/-- What a round leaves pending: plain text without a marker to act on. -/
structure Quiet (single : Char → Char) (f : ReasoningFilter) : Prop where
  plain : dottedCapitalI ∉ f.pending
  unclosed : position (lowerChar single) thinkMarkers.closing f.pending = none
  unopened : f.inReasoning = false →
    position (lowerChar single) thinkMarkers.opening f.pending = none

structure Round (single : Char → Char) (f : ReasoningFilter) (emitted : List Char)
    (next : ReasoningFilter) : Prop where
  quiet : Quiet single next
  scans : ∀ rest, Scans (lowerChar single) thinkMarkers f.inReasoning (f.pending ++ rest) emitted
    next.inReasoning (next.pending ++ rest)

theorem quiet_empty (mode : Bool) : Quiet single ⟨[], mode⟩ :=
  ⟨by simp, rfl, fun _ => rfl⟩

theorem find_eq_none (h : find marker.text (lower single text) = none) :
    position (lowerChar single) (marker.text.map fun c => [c]) text = none := by
  rw [find_marker, Option.map_eq_none_iff] at h
  exact h

theorem not_prefix_before {keep i : Nat}
    (hnone : position (lowerChar single) (marker.text.map fun c => [c]) text = none)
    (hkeep : partialMarkerSuffix single text marker ≤ keep) (hi : i < text.length - keep) :
    ¬ (text.drop i).map (lowerChar single) <+: marker.text.map fun c => [c] := by
  intro hbegun
  rcases Nat.lt_or_ge (text.length - i) marker.text.length with hshort | hlong
  · have hle := le_partialMarkerSuffix hbegun hshort
    omega
  · have hwhole : (text.drop i).map (lowerChar single) = marker.text.map fun c => [c] :=
      hbegun.eq_of_length_le (by simpa using hlong)
    have hstart := position_eq_none_iff.mp hnone i (by omega)
    rw [← Bool.not_eq_true, startsWith_iff, hwhole] at hstart
    exact hstart (prefix_refl _)

variable {f : ReasoningFilter}

theorem Round.after {g next : ReasoningFilter} {first emitted : List Char}
    (hfirst : ∀ rest, Scans (lowerChar single) thinkMarkers f.inReasoning (f.pending ++ rest) first
      g.inReasoning (g.pending ++ rest))
    (h : Round single g emitted next) : Round single f (first ++ emitted) next where
  quiet := h.quiet
  scans rest := (hfirst rest).trans (h.scans rest)

theorem feedLoop_round (f : ReasoningFilter) (h : Unshifted single f.inReasoning 0 f.pending) :
    Round single f (feedLoop single f).1 (feedLoop single f).2 := by
  fun_induction feedLoop single f with
  | case1 f hempty =>
    obtain ⟨pending, inReasoning⟩ := f
    subst hempty
    exact ⟨quiet_empty _, fun rest => .done _ _⟩
  | case2 f hne hin closingAt hfind ih =>
    obtain ⟨pending, inReasoning⟩ := f
    subst hin
    rw [find_marker, Option.map_eq_some_iff] at hfind
    obtain ⟨n, hn, rfl⟩ := hfind
    rw [Marker.keys] at hn
    have hle : n ≤ pending.length := (position_eq_some_iff.mp hn).1.le
    have hdrop : pending.drop ((lower single (pending.take n)).length + Marker.closing.text.length) =
        pending.drop (n + thinkMarkers.closing.length) :=
      drop_shifted hle (plain_before_closing h hn)
    have hstep : ∀ rest, Scans (lowerChar single) thinkMarkers true (pending ++ rest) [] false
        (pending.drop ((lower single (pending.take n)).length + Marker.closing.text.length) ++
          rest) := by
      intro rest
      rw [hdrop]
      exact Scans.close_block hn
    have hafter := unshifted_of_scans (hstep []) (by simpa using h)
    exact Round.after (f := ⟨pending, true⟩) hstep (ih (by simpa using hafter))
  | case3 f hne hin hfind =>
    obtain ⟨pending, inReasoning⟩ := f
    subst hin
    have hnone := find_eq_none hfind
    obtain ⟨hkeep, hkeys⟩ := retain_keys single pending .closing
    refine ⟨⟨plain_of_begun .closing hkeys, position_drop_of_none hnone _, fun hmode => ?_⟩,
      fun rest => ?_⟩
    · cases hmode
    · exact Scans.hold_inside (Nat.sub_le _ _) hnone fun i hi =>
        not_prefix_before hnone le_rfl hi
  | case4 f hne hout markerAt marker hfind next ih =>
    obtain ⟨pending, inReasoning⟩ := f
    simp only [Bool.not_eq_true] at hout h hfind ih hne
    subst hout
    obtain ⟨n, rfl, hfirst⟩ := nextMarker_eq_some hfind
    obtain ⟨hle, hplain⟩ := hfirst.plain h
    have hat : (lower single (pending.take n)).length = n := by
      rw [length_lower hplain, length_take, Nat.min_eq_left hle]
    simp only [next, hat] at ih ⊢
    have hafter := unshifted_of_scans (hfirst.scans []) (by simpa using h)
    exact Round.after (f := ⟨pending, false⟩) hfirst.scans (ih (by simpa using hafter))
  | case5 f hne hout hfind keep =>
    obtain ⟨pending, inReasoning⟩ := f
    simp only [Bool.not_eq_true] at hout h hfind hne
    subst hout
    obtain ⟨hopen, hclose⟩ := nextMarker_eq_none hfind
    obtain ⟨hkeepOpen, hkeysOpen⟩ := retain_keys single pending .opening
    obtain ⟨hkeepClose, hkeysClose⟩ := retain_keys single pending .closing
    refine ⟨⟨?_, position_drop_of_none hclose _, fun _ => position_drop_of_none hopen _⟩,
      fun rest => Scans.hold_outside (Nat.sub_le _ _) hclose hopen fun i hi => ?_⟩
    · rcases Nat.le_total (partialMarkerSuffix single pending .opening)
        (partialMarkerSuffix single pending .closing) with hle | hle
      · simp only [keep, Nat.max_eq_right hle]
        exact plain_of_begun .closing hkeysClose
      · simp only [keep, Nat.max_eq_left hle]
        exact plain_of_begun .opening hkeysOpen
    · exact ⟨not_prefix_before hclose (le_max_right _ _) hi,
        not_prefix_before hopen (le_max_left _ _) hi⟩

/-! ### All deltas -/

theorem finish_eq (hquiet : Quiet single f) :
    finish f = scan (lowerChar single) thinkMarkers f.inReasoning 0 f.pending := by
  rw [scan_of_none hquiet.unclosed hquiet.unopened, finish]

theorem visible_of_unshifted (deltas : List (List Char)) (hquiet : Quiet single f)
    (h : Unshifted single f.inReasoning 0 (f.pending ++ deltas.flatten)) :
    visible single f deltas =
      scan (lowerChar single) thinkMarkers f.inReasoning 0 (f.pending ++ deltas.flatten) := by
  induction deltas generalizing f with
  | nil => simp [visible, finish_eq hquiet]
  | cons content others ih =>
    rw [flatten_cons, ← append_assoc] at h ⊢
    have hround := feedLoop_round ⟨f.pending ++ content, f.inReasoning⟩ (unshifted_append 0 h)
    have hscans := hround.scans others.flatten
    rw [hscans.scan_eq, ← ih hround.quiet (unshifted_of_scans hscans h)]
    rfl

theorem unshifted_concat (h : dottedCapitalI ∉ text) (n : Nat) (c : Char) :
    Unshifted single inside n (text ++ [c]) := by
  induction text generalizing inside n with
  | nil => cases n <;> simp [Unshifted, position]
  | cons first others ih =>
    rw [mem_cons, not_or] at h
    have hfirst : first ≠ dottedCapitalI := Ne.symm h.1
    cases n with
    | zero => simp [Unshifted, hfirst, ih h.2]
    | succ n => simp [Unshifted, ih h.2]

theorem visible_singles (text : List Char) (hquiet : Quiet single f) :
    visible single f (text.map fun c => [c]) =
      scan (lowerChar single) thinkMarkers f.inReasoning 0 (f.pending ++ text) := by
  induction text generalizing f with
  | nil => simp [visible, finish_eq hquiet]
  | cons c rest ih =>
    have hunshifted : Unshifted single f.inReasoning 0 (f.pending ++ [c]) :=
      unshifted_concat hquiet.plain 0 c
    have hround := feedLoop_round ⟨f.pending ++ [c], f.inReasoning⟩ hunshifted
    rw [append_cons, (hround.scans rest).scan_eq, ← ih hround.quiet]
    rfl

/-! ### Whatever the characters are -/

theorem feedLoop_sublist (f : ReasoningFilter) :
    ((feedLoop single f).1 ++ (feedLoop single f).2.pending).Sublist f.pending := by
  induction f using feedLoop.induct single with
  | case1 f hempty => rw [feedLoop, if_pos hempty, nil_append]
  | case2 f hne hin closingAt hfind ih =>
    rw [feedLoop, if_neg hne, if_pos hin, hfind]
    exact ih.trans (drop_sublist _ _)
  | case3 f hne hin hfind =>
    rw [feedLoop, if_neg hne, if_pos hin, hfind]
    exact drop_sublist _ _
  | case4 f hne hout markerAt marker hfind ih =>
    rw [feedLoop, if_neg hne, if_neg hout, hfind]
    have hrest := ih.trans (drop_sublist_drop_left f.pending (Nat.le_add_right markerAt _))
    have happend := (Sublist.refl (f.pending.take markerAt)).append hrest
    rwa [take_append_drop, ← append_assoc] at happend
  | case5 f hne hout hfind =>
    rw [feedLoop, if_neg hne, if_neg hout, hfind]
    exact (take_append_drop _ _).symm ▸ Sublist.refl _

/-- The filter only leaves out: nothing is shown twice, out of order or made up. -/
theorem visible_sublist (f : ReasoningFilter) (deltas : List (List Char)) :
    (visible single f deltas).Sublist (f.pending ++ deltas.flatten) := by
  induction deltas generalizing f with
  | nil =>
    rw [visible, finish]
    split <;> simp
  | cons content rest ih =>
    have hstep := @feedLoop_sublist single { f with pending := f.pending ++ content }
    have hrest := hstep.append (Sublist.refl rest.flatten)
    rw [append_assoc, append_assoc] at hrest
    exact ((Sublist.refl _).append (ih _)).trans hrest

end MultiRag.Reasoning
