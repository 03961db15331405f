/-
  **What a dotted capital I does to the reasoning filter.**

  Before a marker the scan acts on, it moves the position that the filter finds: the
  filter emits the start of the marker, or cuts behind the block and loses what
  follows.
-/
import MultiRag.ReasoningDeltas

namespace MultiRag.Reasoning

open MarkerScan List

variable {single : Char → Char} {f : ReasoningFilter} {text rest : List Char}

theorem startsWith_dotted (marker : Marker)
    (h : startsWith (lowerChar single) (marker.text.map fun c => [c])
      (text ++ dottedCapitalI :: rest) = true) :
    startsWith (lowerChar single) (marker.text.map fun c => [c]) text = true := by
  rw [append_cons] at h
  rcases starts_or_plain marker h with hwithin | hplain
  · rw [startsWith_iff, map_append, map_singleton, prefix_concat_iff] at hwithin
    rcases hwithin with hwhole | hprefix
    · have hkey : lowerChar single dottedCapitalI ∈ marker.text.map fun c => [c] := by
        rw [hwhole]
        simp
      simp [lowerChar_dotted] at hkey
    · exact startsWith_iff.mpr hprefix
  · exact absurd (by simp) hplain

/-- The markers that the scan acts on in the filter's mode. -/
def Marker.acted (marker : Marker) (inReasoning : Bool) : Prop :=
  inReasoning = true → marker = .closing

variable {marker : Marker}

theorem Quiet.position_none (hquiet : Quiet single f)
    (hacted : marker.acted f.inReasoning) :
    position (lowerChar single) (marker.text.map fun c => [c]) f.pending = none := by
  rw [Marker.keys]
  cases marker with
  | closing => exact hquiet.unclosed
  | opening =>
    refine hquiet.unopened (Bool.eq_false_iff.mpr fun hin => ?_)
    cases hacted hin

theorem no_marker_before (hquiet : Quiet single f)
    (hacted : marker.acted f.inReasoning) {n : Nat}
    (hfirst : ∀ j < n,
      startsWith (lowerChar single) (marker.text.map fun c => [c]) (rest.drop j) = false)
    {i : Nat} (hi : i < f.pending.length + 1 + n) :
    startsWith (lowerChar single) (marker.text.map fun c => [c])
      ((f.pending ++ dottedCapitalI :: rest).drop i) = false := by
  rcases Nat.lt_or_ge f.pending.length i with hlate | hearly
  · have hdrop : (f.pending ++ dottedCapitalI :: rest).drop i =
        rest.drop (i - (f.pending.length + 1)) := by
      rw [append_cons, drop_append, drop_eq_nil_of_le (by simp; omega)]
      simp
    rw [hdrop]
    exact hfirst _ (by omega)
  · rw [drop_append_of_le_length hearly]
    by_contra hstart
    rw [Bool.not_eq_false] at hstart
    have hwithin := startsWith_dotted marker hstart
    have hnone := hquiet.position_none hacted
    cases marker with
    | opening | closing => exact absurd hwithin (Bool.eq_false_iff.mp (startsWith_drop_of_none hnone i))

theorem feedLoop_nil (mode : Bool) : feedLoop single ⟨[], mode⟩ = ([], ⟨[], mode⟩) := by
  rw [feedLoop, if_pos rfl]

theorem feedLoop_shown {n : Nat} (hfirst : First single text n marker)
    (hdotted : dottedCapitalI ∈ text.take n) (hend : text.length = n + marker.text.length) :
    ∃ emitted, feedLoop single ⟨text, false⟩ = (emitted, ⟨[], marker == .opening⟩) ∧
      n < emitted.length := by
  have hgrown : (text.take n).length < (lower single (text.take n)).length :=
    lt_length_lower hdotted
  have hpos : 0 < marker.text.length := by cases marker <;> simp [Marker.text]
  rw [length_take, Nat.min_eq_left (by omega)] at hgrown
  have hne : text ≠ [] := ne_nil_of_length_pos (by omega)
  refine ⟨text.take (lower single (text.take n)).length, ?_, by rw [length_take]; omega⟩
  rw [feedLoop, if_neg hne, if_neg (by simp), hfirst.nextMarker_eq]
  simp only
  rw [drop_eq_nil_of_le (by omega), feedLoop_nil, append_nil]

theorem feedLoop_dropped {n : Nat}
    (hclose : position (lowerChar single) thinkMarkers.closing text = some n)
    (hdotted : dottedCapitalI ∈ text.take n)
    (hend : text.length = n + thinkMarkers.closing.length + 1) :
    feedLoop single ⟨text, true⟩ = ([], ⟨[], false⟩) := by
  have hgrown : (text.take n).length < (lower single (text.take n)).length :=
    lt_length_lower hdotted
  rw [length_take, Nat.min_eq_left (by omega)] at hgrown
  have hne : text ≠ [] := ne_nil_of_length_pos (by omega)
  have hlength : thinkMarkers.closing.length = Marker.closing.text.length := rfl
  rw [feedLoop, if_neg hne, if_pos rfl, find_marker, Marker.keys, hclose, Option.map_some]
  simp only
  rw [drop_eq_nil_of_le (by omega), feedLoop_nil]

variable {n : Nat}

theorem not_startsWith_taken (hquiet : Quiet single f)
    (hacted : marker.acted f.inReasoning)
    (h : ∀ m, position (lowerChar single) (marker.text.map fun c => [c]) rest = some m → n ≤ m)
    (k : Nat) {i : Nat} (hi : i < f.pending.length + 1 + n) :
    startsWith (lowerChar single) (marker.text.map fun c => [c])
      (((f.pending ++ dottedCapitalI :: rest).take k).drop i) = false := by
  by_contra hstart
  rw [Bool.not_eq_false] at hstart
  have hfirst : ∀ j < n,
      startsWith (lowerChar single) (marker.text.map fun c => [c]) (rest.drop j) = false := by
    cases marker with
    | opening => exact fun j hj => before_position h hj
    | closing => exact fun j hj => before_position h hj
  exact absurd (startsWith_of_take hstart)
    (Bool.eq_false_iff.mp (no_marker_before hquiet hacted hfirst hi))

theorem position_taken (hquiet : Quiet single f) (marker : Marker)
    (hacted : marker.acted f.inReasoning)
    (h : position (lowerChar single) (marker.text.map fun c => [c]) rest = some n) {k : Nat}
    (hk : marker.text.length ≤ k) :
    position (lowerChar single) (marker.text.map fun c => [c])
      ((f.pending ++ dottedCapitalI :: rest).take (f.pending.length + 1 + (n + k))) =
        some (f.pending.length + 1 + n) := by
  obtain ⟨hlt, hat, -⟩ := position_eq_some_iff.mp h
  have hpos : 0 < marker.text.length := by cases marker <;> simp [Marker.text]
  rw [position_eq_some_iff]
  refine ⟨?_, ?_, fun i hi => not_startsWith_taken hquiet hacted (fun m hm => ?_) _ hi⟩
  · rw [length_take, length_append, length_cons]
    omega
  · rw [drop_take, ← Nat.add_assoc, Nat.add_sub_cancel_left, append_cons, drop_append,
      drop_eq_nil_of_le (by simp), nil_append]
    refine startsWith_take ?_ (by simpa using hk)
    simpa using hat
  · rw [h, Option.some.injEq] at hm
    omega

theorem First.taken (hquiet : Quiet single f) (hout : f.inReasoning = false)
    (h : First single rest n marker) :
    First single
      ((f.pending ++ dottedCapitalI :: rest).take (f.pending.length + 1 + (n + marker.text.length)))
      (f.pending.length + 1 + n) marker := by
  have hacted : ∀ other : Marker, other.acted f.inReasoning := by simp [Marker.acted, hout]
  cases marker with
  | opening =>
    obtain ⟨hopen, hclose⟩ := h
    refine ⟨position_taken hquiet .opening (hacted .opening) hopen le_rfl, fun m hm => ?_⟩
    exact le_position (fun i hi => not_startsWith_taken (n := n + 1) hquiet (hacted .closing)
      hclose _ hi) hm
  | closing =>
    obtain ⟨hclose, hopen⟩ := h
    refine ⟨position_taken hquiet .closing (hacted .closing) hclose le_rfl, fun m hm => ?_⟩
    exact le_position (fun i hi => not_startsWith_taken hquiet (hacted .opening) hopen _ hi) hm

theorem dotted_mem_taken (f : ReasoningFilter) (rest : List Char) (n k : Nat) :
    dottedCapitalI ∈
      ((f.pending ++ dottedCapitalI :: rest).take (f.pending.length + 1 + (n + k))).take
        (f.pending.length + 1 + n) := by
  rw [take_take, Nat.min_eq_left (by omega), append_cons, take_append]
  refine mem_append_left _ ?_
  rw [take_of_length_le (by simp)]
  simp

theorem taken_append (f : ReasoningFilter) (rest : List Char) (k : Nat) :
    (f.pending ++ dottedCapitalI :: rest).take (f.pending.length + 1 + k) ++ rest.drop k =
      f.pending ++ dottedCapitalI :: rest := by
  have hdrop : (f.pending ++ dottedCapitalI :: rest).drop (f.pending.length + 1 + k) =
      rest.drop k := by
    rw [append_cons, drop_append, drop_eq_nil_of_le (by simp), nil_append]
    simp
  rw [← hdrop, take_append_drop]

theorem length_taken (f : ReasoningFilter) {k : Nat} (hk : k ≤ rest.length) :
    ((f.pending ++ dottedCapitalI :: rest).take (f.pending.length + 1 + k)).length =
      f.pending.length + 1 + k := by
  rw [length_take, length_append, length_cons]
  omega

theorem visible_cut (k : Nat) {emitted : List Char} {mode : Bool}
    (h : feedLoop single ⟨(f.pending ++ dottedCapitalI :: rest).take (f.pending.length + 1 + k),
      f.inReasoning⟩ = (emitted, ⟨[], mode⟩)) :
    ∃ deltas : List (List Char), deltas.flatten = dottedCapitalI :: rest ∧
      visible single f deltas =
        emitted ++ scan (lowerChar single) thinkMarkers mode 0 (rest.drop k) := by
  refine ⟨(dottedCapitalI :: rest.take k) :: (rest.drop k).map fun c => [c], ?_, ?_⟩
  · rw [flatten_cons, ← flatMap_def, flatMap_singleton', cons_append,
      take_append_drop]
  · have htaken : (f.pending ++ dottedCapitalI :: rest).take (f.pending.length + 1 + k) =
        f.pending ++ dottedCapitalI :: rest.take k := by
      rw [append_cons, take_append, take_of_length_le (by simp)]
      simp
    rw [htaken] at h
    have hstep : feed single f (dottedCapitalI :: rest.take k) = (emitted, ⟨[], mode⟩) := h
    have hsingles := visible_singles (rest.drop k) (quiet_empty mode : Quiet single ⟨[], mode⟩)
    simp only [visible, hstep]
    rw [hsingles, nil_append]

section

variable (hquiet : Quiet single f)
include hquiet

theorem shown_differs (hout : f.inReasoning = false)
    (h : First single rest n marker) :
    ∃ deltas : List (List Char), deltas.flatten = dottedCapitalI :: rest ∧
      visible single f deltas ≠
        scan (lowerChar single) thinkMarkers f.inReasoning 0
          (f.pending ++ dottedCapitalI :: rest) := by
  have hroom := h.room
  have htaken := h.taken hquiet hout
  have hdotted := dotted_mem_taken f rest n marker.text.length
  have hlength := length_taken f hroom
  obtain ⟨emitted, hfeed, hmore⟩ :=
    feedLoop_shown htaken hdotted (hlength.trans (Nat.add_assoc _ _ _).symm)
  rw [← hout] at hfeed
  obtain ⟨deltas, hdeltas, hvisible⟩ := visible_cut _ hfeed
  refine ⟨deltas, hdeltas, fun heq => ?_⟩
  have hscan := (htaken.scans (rest.drop (n + marker.text.length))).scan_eq
  rw [taken_append, drop_eq_nil_of_le (by omega), nil_append] at hscan
  rw [hvisible, hout, hscan] at heq
  have hsame := congrArg List.length heq
  simp only [length_append, length_take] at hsame
  omega

theorem dropped_differs (hin : f.inReasoning = true)
    (h : position (lowerChar single) thinkMarkers.closing rest = some n)
    (hmore : rest.length ≠ n + thinkMarkers.closing.length) :
    ∃ deltas : List (List Char), deltas.flatten = dottedCapitalI :: rest ∧
      visible single f deltas ≠
        scan (lowerChar single) thinkMarkers f.inReasoning 0
          (f.pending ++ dottedCapitalI :: rest) := by
  obtain ⟨hlt, hat, -⟩ := position_eq_some_iff.mp h
  have hroom := length_of_startsWith hat
  rw [length_drop] at hroom
  have hkept : n + (thinkMarkers.closing.length + 1) ≤ rest.length := by omega
  have htaken : position (lowerChar single) thinkMarkers.closing
      ((f.pending ++ dottedCapitalI :: rest).take
        (f.pending.length + 1 + (n + (thinkMarkers.closing.length + 1)))) = _ :=
    position_taken hquiet .closing (fun _ => rfl) h (Nat.le_succ _)
  have hdotted := dotted_mem_taken f rest n (thinkMarkers.closing.length + 1)
  have hlength := length_taken f hkept
  have hsplit := taken_append f rest (n + (thinkMarkers.closing.length + 1))
  have hfeed := feedLoop_dropped htaken hdotted (hlength.trans (by omega))
  rw [← hin] at hfeed
  obtain ⟨deltas, hdeltas, hvisible⟩ := visible_cut _ hfeed
  refine ⟨deltas, hdeltas, fun heq => ?_⟩
  generalize (f.pending ++ dottedCapitalI :: rest).take
    (f.pending.length + 1 + (n + (thinkMarkers.closing.length + 1))) = taken at *
  have hone : (taken.drop (f.pending.length + 1 + n + thinkMarkers.closing.length)).length = 1 := by
    rw [length_drop, hlength]
    omega
  obtain ⟨c, hc⟩ := length_eq_one_iff.mp hone
  have hclosed : Scans (lowerChar single) thinkMarkers true
      (taken ++ rest.drop (n + (thinkMarkers.closing.length + 1))) [] false _ :=
    Scans.close_block htaken
  have hscan := hclosed.scan_eq
  rw [hsplit, hc, nil_append, singleton_append] at hscan
  rw [hvisible, nil_append, hin, hscan] at heq
  exact scan_cons_ne (by decide) (by decide) c _ heq.symm

/-! ### Every text -/

theorem reaches_dotted (rest : List Char) :
    ∃ out, Scans (lowerChar single) thinkMarkers f.inReasoning (f.pending ++ dottedCapitalI :: rest)
      out f.inReasoning (dottedCapitalI :: rest) := by
  obtain ⟨pending, inReasoning⟩ := f
  have hnone : ∀ marker : Marker, marker.acted inReasoning → ∀ i < pending.length,
      startsWith (lowerChar single) (marker.text.map fun c => [c])
        ((pending ++ dottedCapitalI :: rest).drop i) = false := by
    intro marker hacted i hi
    exact no_marker_before hquiet hacted (n := 0) (by simp) (Nat.lt_succ_of_lt hi)
  have hlength : pending.length ≤ (pending ++ dottedCapitalI :: rest).length := by simp
  have hdrop : (pending ++ dottedCapitalI :: rest).drop pending.length = dottedCapitalI :: rest := by
    simp
  cases inReasoning with
  | true =>
    have hscans := Scans.drop_hidden (d := thinkMarkers) hlength (hnone .closing fun _ => rfl)
    rw [hdrop] at hscans
    exact ⟨_, hscans⟩
  | false =>
    have hscans := Scans.take_shown (d := thinkMarkers) hlength fun i hi =>
      ⟨hnone .closing (fun _ => rfl) i hi, hnone .opening (by simp [Marker.acted]) i hi⟩
    rw [hdrop] at hscans
    exact ⟨_, hscans⟩

theorem unshifted_pending
    (h : Unshifted single f.inReasoning 0 (dottedCapitalI :: rest)) :
    Unshifted single f.inReasoning 0 (f.pending ++ dottedCapitalI :: rest) := by
  obtain ⟨out, hscans⟩ := reaches_dotted hquiet rest
  refine unshifted_before hscans (fun passed hpassed => ?_) h
  rw [append_cancel_right_eq] at hpassed
  exact hpassed ▸ hquiet.plain

end

theorem feedLoop_mode {pending : List Char} (inReasoning : Bool)
    (h : ∀ marker : Marker, marker.acted inReasoning →
      position (lowerChar single) (marker.text.map fun c => [c]) pending = none) :
    (feedLoop single ⟨pending, inReasoning⟩).2.inReasoning = inReasoning := by
  have hfind : ∀ marker : Marker, marker.acted inReasoning →
      find marker.text (lower single pending) = none := by
    intro marker hacted
    rw [find_marker, h marker hacted, Option.map_none]
  rw [feedLoop]
  split
  · rfl
  · cases inReasoning with
    | true => simp [hfind .closing fun _ => rfl]
    | false =>
      simp [hfind .closing fun _ => rfl, hfind .opening (by simp [Marker.acted]), nextMarker]

theorem feed_dotted (hquiet : Quiet single f) :
    (feed single f [dottedCapitalI]).2 = ⟨[], f.inReasoning⟩ := by
  have hunshifted : Unshifted single f.inReasoning 0 (f.pending ++ [dottedCapitalI]) :=
    unshifted_concat hquiet.plain 0 _
  have hround := feedLoop_round ⟨f.pending ++ [dottedCapitalI], f.inReasoning⟩ hunshifted
  have hsuffix := left_suffix (hround.scans [])
  rw [append_nil, append_nil] at hsuffix
  have hempty : (feed single f [dottedCapitalI]).2.pending = [] := by
    rcases suffix_concat_iff.mp hsuffix with hnil | ⟨before, hbefore, -⟩
    · exact hnil
    · refine absurd ?_ hround.quiet.plain
      rw [hbefore]
      simp
  have hmode : (feed single f [dottedCapitalI]).2.inReasoning = f.inReasoning := by
    refine feedLoop_mode f.inReasoning fun marker hacted => position_eq_none_iff.mpr fun i hi => ?_
    refine no_marker_before hquiet hacted (n := 0) (by simp) ?_
    simpa using hi
  generalize (feed single f [dottedCapitalI]).2 = next at hempty hmode
  obtain ⟨pending, inReasoning⟩ := next
  simp only at hempty hmode
  rw [hempty, hmode]

theorem exists_first (h : ¬ (position (lowerChar single) thinkMarkers.closing text = none ∧
      position (lowerChar single) thinkMarkers.opening text = none)) :
    ∃ marker n, First single text n marker := by
  rcases hnext : nextMarker (find Marker.opening.text (lower single text))
      (find Marker.closing.text (lower single text)) with _ | ⟨markerAt, marker⟩
  · exact absurd (nextMarker_eq_none hnext).symm h
  · obtain ⟨n, -, hfirst⟩ := nextMarker_eq_some hnext
    exact ⟨marker, n, hfirst⟩

theorem shifted_differs (text : List Char) (hquiet : Quiet single f)
    (h : ¬ Unshifted single f.inReasoning 0 (f.pending ++ text)) :
    ∃ deltas : List (List Char), deltas.flatten = text ∧
      visible single f deltas ≠
        scan (lowerChar single) thinkMarkers f.inReasoning 0 (f.pending ++ text) := by
  induction text generalizing f with
  | nil => exact absurd (unshifted_plain (by simpa using hquiet.plain) 0) h
  | cons c rest ih =>
    have hunshifted : Unshifted single f.inReasoning 0 (f.pending ++ [c]) :=
      unshifted_concat hquiet.plain 0 c
    have hround : Round single _ (feed single f [c]).1 (feed single f [c]).2 :=
      feedLoop_round ⟨f.pending ++ [c], f.inReasoning⟩ hunshifted
    have hscans := hround.scans rest
    -- the character alone is a right delta: what differs, differs later
    have hlater : ¬ Unshifted single (feed single f [c]).2.inReasoning 0
        ((feed single f [c]).2.pending ++ rest) → ∃ deltas : List (List Char),
          deltas.flatten = c :: rest ∧ visible single f deltas ≠
            scan (lowerChar single) thinkMarkers f.inReasoning 0 (f.pending ++ c :: rest) := by
      intro hnot
      obtain ⟨deltas, hdeltas, hdiffers⟩ := ih hround.quiet hnot
      refine ⟨[c] :: deltas, by simp [hdeltas], fun heq => hdiffers ?_⟩
      rw [append_cons, hscans.scan_eq] at heq
      exact append_cancel_left heq
    by_cases hc : c = dottedCapitalI
    · subst hc
      rw [feed_dotted hquiet] at hlater
      have hhere : ¬ Unshifted single f.inReasoning 0 (dottedCapitalI :: rest) :=
        fun hunshifted => h (unshifted_pending hquiet hunshifted)
      have hnone : ∀ marker : Marker, startsWith (lowerChar single) (marker.text.map fun c => [c])
          (dottedCapitalI :: rest) = false := by
        intro marker
        rw [Bool.eq_false_iff]
        intro hstart
        have hempty : startsWith (lowerChar single) (marker.text.map fun c => [c]) [] = true :=
          startsWith_dotted marker hstart
        cases marker <;> simp [startsWith, Marker.text] at hempty
      rcases hmode : f.inReasoning with _ | _
      · rw [hmode, unshifted_shown (hnone .closing) (hnone .opening), not_and_or] at hhere
        rcases hhere with hmarker | hrest
        · obtain ⟨marker, n, hfirst⟩ := exists_first fun hnot => hmarker fun _ => hnot
          rw [← hmode]
          exact shown_differs hquiet hmode hfirst
        · rw [hmode] at hlater
          exact hlater hrest
      · rw [hmode, unshifted_hidden (hnone .closing), not_and_or] at hhere
        rcases hhere with hmarker | hrest
        · simp only [forall_const, not_forall, exists_prop] at hmarker
          obtain ⟨n, hn, hmore⟩ := hmarker
          rw [← hmode]
          exact dropped_differs hquiet hmode hn hmore
        · rw [hmode] at hlater
          exact hlater hrest
    · refine hlater fun hrest => h ?_
      rw [append_cons]
      refine unshifted_before hscans (fun passed hpassed hmem => ?_) hrest
      have hwithin : f.pending ++ [c] = passed ++ (feed single f [c]).2.pending := by
        rwa [← append_assoc, append_cancel_right_eq] at hpassed
      have hin : dottedCapitalI ∈ f.pending ++ [c] := hwithin ▸ mem_append_left _ hmem
      rcases mem_append.mp hin with hpend | hlast
      · exact hquiet.plain hpend
      · exact hc (mem_singleton.mp hlast).symm

/-- **The filter is the scan, however the text is cut, exactly for the unshifted texts.** -/
theorem filter_iff (single : Char → Char) (text : List Char) :
    (∀ deltas : List (List Char), deltas.flatten = text →
      visible single .init deltas = outsideBlocks single text) ↔
    Unshifted single false 0 text := by
  constructor
  · intro hall
    by_contra hshifted
    obtain ⟨deltas, hdeltas, hdiffers⟩ := shifted_differs text (quiet_empty false) hshifted
    exact hdiffers (hall deltas hdeltas)
  · rintro h deltas rfl
    exact visible_of_unshifted deltas (quiet_empty false) h

/-- A dotted capital I in one block, and the next block is not hidden. -/
theorem block_revealed :
    ¬ ∀ (text : List Char) (deltas : List (List Char)), deltas.flatten = text →
      visible Char.toLower .init deltas = outsideBlocks Char.toLower text := by
  intro h
  have hsame := h _ [Marker.opening.text ++ [dottedCapitalI] ++ Marker.closing.text ++
    Marker.opening.text ++ ['s'] ++ Marker.closing.text] rfl
  revert hsame
  decide +kernel

end MultiRag.Reasoning
