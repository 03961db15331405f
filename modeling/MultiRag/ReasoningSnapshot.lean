/-
  **The snapshot of an answer, and the stream of it.**

  `strip_reasoning` uses two regular expressions and a replacement; the streaming filter
  passes the text once.  The expressions ignore case as `re.IGNORECASE` does, the filter
  searches the result of `str.lower`, and the replacement minds case.
-/
import MultiRag.MarkerPieces
import MultiRag.PyText
import MultiRag.ReasoningShift

namespace MultiRag.Reasoning

open MarkerScan List

def dotlessI : Char := Char.ofNat 0x131

/-- What a character counts as under `re.IGNORECASE`: its lower case of one code point.
    The dotless i matches an `i`. -/
def foldChar (single : Char → Char) (c : Char) : List Char :=
  if c = dottedCapitalI ∨ single c = dotlessI then ['i'] else [single c]

def stripReasoning (single : Char → Char) (text : List Char) : List Char :=
  -- re.sub of `<think>.*?</think>`, then of `<think>.*$`
  let withoutBlocks := withoutBlocks (foldChar single) thinkMarkers 0 text
  let withoutUnclosed := beforeMarker (foldChar single) thinkMarkers.opening withoutBlocks
  stripChars isPySpace (removeWord Marker.closing.text 0 withoutUnclosed)

/-- What `str.lower` does to the characters of a marker, and to spaces. -/
structure LowerCase (single : Char → Char) : Prop where
  marker : ∀ c ∈ Marker.closing.text, single c = c
  lead : ∀ c, single c = '<' → c = '<'
  space : ∀ c, isPySpace c = true → single c = c

/-- The texts of which snapshot and stream show the same.  No marker that the filter acts on
    stands behind a dotted capital I; the blocks are the same for the expression and for the
    filter; and what the blocks leave is seamless. -/
structure Agreeable (single : Char → Char) (text : List Char) : Prop where
  unshifted : Unshifted single false 0 text
  blocks : withoutBlocks (foldChar single) thinkMarkers 0 text =
    withoutBlocks (lowerChar single) thinkMarkers 0 text
  seamless : seamless (foldChar single) thinkMarkers Marker.closing.text
    (pieces (lowerChar single) thinkMarkers 0 text) = true

variable {single : Char → Char} {text : List Char} {c : Char}

theorem foldChar_plain (h : c ≠ dottedCapitalI ∧ single c ≠ dotlessI) :
    foldChar single c = lowerChar single c := by
  rw [foldChar, if_neg (by simp [h.1, h.2]), lowerChar_plain h.1]

theorem foldChar_of_lowerChar {x : Char} (hx : x ≠ dotlessI) (h : lowerChar single c = [x]) :
    foldChar single c = [x] := by
  by_cases hc : c = dottedCapitalI
  · rw [hc, lowerChar_dotted] at h
    cases h
  · rw [lowerChar_plain hc, List.cons.injEq] at h
    rw [foldChar_plain ⟨hc, by rw [h.1]; exact hx⟩, lowerChar_plain hc, h.1]

theorem map_foldChar {word : List Char} (hword : dotlessI ∉ word)
    (h : text.map (lowerChar single) = word.map fun x => [x]) :
    text.map (foldChar single) = word.map fun x => [x] := by
  induction text generalizing word with
  | nil =>
    rw [map_nil] at h ⊢
    exact h
  | cons c rest ih =>
    cases word with
    | nil => cases h
    | cons x word =>
      rw [mem_cons, not_or] at hword
      rw [map_cons, map_cons, List.cons.injEq] at h
      rw [map_cons, map_cons, foldChar_of_lowerChar (Ne.symm hword.1) h.1, ih hword.2 h.2]

theorem Marker.dotted (marker : Marker) : dotlessI ∉ marker.text := by
  cases marker <;> decide

theorem Marker.solid (marker : Marker) : ∀ c ∈ marker.text, isPySpace c = false := by
  intro c hc
  have hall : marker.text.all (fun x => !isPySpace x) = true := by
    cases marker <;> decide +kernel
  simpa using all_eq_true.mp hall c hc

theorem startsWith_foldChar (marker : Marker)
    (h : startsWith (lowerChar single) (marker.text.map fun x => [x]) text = true) :
    startsWith (foldChar single) (marker.text.map fun x => [x]) text = true := by
  have hkeys : (text.take marker.text.length).map (lowerChar single) = marker.text.map fun x => [x] := by
    have hmarker := prefix_iff_eq_take.mp (startsWith_iff.mp h)
    rw [length_map] at hmarker
    rw [map_take, ← hmarker]
  rw [startsWith_iff, ← map_foldChar marker.dotted hkeys, map_take]
  exact take_prefix _ _

theorem strays_foldChar (text : List Char) :
    Strays (foldChar single) thinkMarkers (pieces (lowerChar single) thinkMarkers 0 text) := by
  intro marker hmarker
  have hkeys : marker.map (lowerChar single) = Marker.closing.text.map fun x => [x] :=
    strays_pieces 0 text marker hmarker
  exact map_foldChar Marker.closing.dotted hkeys

theorem LowerCase.foldChar_marker (h : LowerCase single) (hc : c ∈ Marker.closing.text) :
    foldChar single c = [c] := by
  have hsame := h.marker c hc
  have hplain : c ≠ dottedCapitalI ∧ c ≠ dotlessI := by
    constructor
    · rintro rfl
      revert hc
      decide
    · rintro rfl
      revert hc
      decide
  rw [foldChar, hsame, if_neg (by simp [hplain.1, hplain.2])]

theorem LowerCase.closing (h : LowerCase single) :
    Marker.closing.text.map (foldChar single) = thinkMarkers.closing := by
  rw [map_congr_left fun c hc => h.foldChar_marker hc]
  rfl

theorem LowerCase.legible (h : LowerCase single) :
    Legible (foldChar single) thinkMarkers '<' isPySpace := by
  constructor
  · intro c hc
    by_cases hfold : c = dottedCapitalI ∨ single c = dotlessI
    · rw [foldChar, if_pos hfold] at hc
      exact absurd hc (by decide)
    · rw [foldChar, if_neg hfold] at hc
      exact h.lead c (List.cons.inj hc).1
  · intro c hc
    by_contra hspace
    rw [Bool.not_eq_false] at hspace
    have hsame := h.space c hspace
    have hplain : c ≠ dottedCapitalI ∧ single c ≠ dotlessI := by
      rw [hsame]
      constructor
      · rintro rfl
        exact absurd hspace (by decide)
      · rintro rfl
        exact absurd hspace (by decide)
    rw [foldChar_plain hplain, lowerChar_plain hplain.1, hsame] at hc
    have hmember : ∀ marker : Marker, [c] ∈ marker.text.map (fun x => [x]) → False := by
      intro marker hmarker
      obtain ⟨x, hx, hxc⟩ := mem_map.mp hmarker
      rw [(List.cons.inj hxc).1] at hx
      exact absurd hspace (by rw [Bool.not_eq_true]; exact marker.solid c hx)
    rcases hc with hc | hc
    · exact hmember .opening hc
    · exact hmember .closing hc

theorem withoutBlocks_plain (h : ∀ c ∈ text, c ≠ dottedCapitalI ∧ single c ≠ dotlessI) :
    withoutBlocks (foldChar single) thinkMarkers 0 text =
      withoutBlocks (lowerChar single) thinkMarkers 0 text :=
  withoutBlocks_congr (fun c hc => foldChar_plain (h c hc)) 0

theorem stripReasoning_eq (hblocks : withoutBlocks (foldChar single) thinkMarkers 0 text =
    withoutBlocks (lowerChar single) thinkMarkers 0 text) :
    stripReasoning single text =
      stripChars isPySpace (removeWord Marker.closing.text 0
        (beforeMarker (foldChar single) thinkMarkers.opening
          (flat (pieces (lowerChar single) thinkMarkers 0 text)))) := by
  have hapart : ¬ thinkMarkers.closeTail <+: thinkMarkers.openTail := by decide
  obtain ⟨tail, hflat, htail⟩ := @withoutBlocks_eq_flat _ _ _ (lowerChar single) _ hapart 0 text
  have hunclosed : Unclosed (foldChar single) thinkMarkers tail := by
    rcases htail with rfl | hopen
    · exact .inl rfl
    · exact .inr (startsWith_foldChar .opening hopen)
  rw [stripReasoning, hblocks, hflat, beforeMarker_unclosed hunclosed]

theorem visible_eq_outside (deltas : List (List Char)) (h : Unshifted single false 0 deltas.flatten) :
    visible single .init deltas = outside (pieces (lowerChar single) thinkMarkers 0 deltas.flatten) := by
  have hscan := visible_of_unshifted deltas (quiet_empty false) h
  rw [← scan_eq_outside]
  exact hscan

/-- **Snapshot and stream show the same of an agreeable text, however it is cut.**  Of a text
    without a dotted capital and a dotless i they show the same only if it is agreeable. -/
theorem snapshot_iff (hlower : LowerCase single) (text : List Char) :
    (Agreeable single text → ∀ deltas : List (List Char), deltas.flatten = text →
      stripReasoning single text = stripChars isPySpace (visible single .init deltas)) ∧
    ((∀ c ∈ text, c ≠ dottedCapitalI ∧ single c ≠ dotlessI) →
      ∀ deltas : List (List Char), deltas.flatten = text →
        (stripReasoning single text = stripChars isPySpace (visible single .init deltas) ↔
          Agreeable single text)) := by
  have hagreed : Agreeable single text → ∀ deltas : List (List Char), deltas.flatten = text →
      stripReasoning single text = stripChars isPySpace (visible single .init deltas) := by
    rintro hagree deltas rfl
    rw [stripReasoning_eq hagree.blocks, visible_eq_outside deltas hagree.unshifted,
      passes_of_seamless (by decide) hlower.closing (strays_foldChar _) hagree.seamless]
  refine ⟨hagreed, fun hplain deltas hdeltas => ⟨fun heq => ?_, fun h => hagreed h deltas hdeltas⟩⟩
  subst hdeltas
  have hdotted : dottedCapitalI ∉ deltas.flatten := fun hmem => (hplain _ hmem).1 rfl
  have hunshifted : Unshifted single false 0 deltas.flatten := unshifted_plain hdotted 0
  have hblocks := withoutBlocks_plain hplain
  rw [stripReasoning_eq hblocks, visible_eq_outside deltas hunshifted] at heq
  refine ⟨hunshifted, hblocks, ?_⟩
  exact (passes_strip_iff hlower.legible (by decide) (by decide) hlower.closing
    (strays_foldChar _)).mp heq

theorem toLower_lowerCase : LowerCase Char.toLower := by
  have hsmall : ∀ c : Char, ¬ (c.val ≥ 'A'.val ∧ c.val ≤ 'Z'.val) → c.toLower = c :=
    fun c hc => dif_neg hc
  have hmarker : Marker.closing.text.all (fun c => decide (c.toLower = c)) = true := by
    decide +kernel
  refine ⟨fun c hc => of_decide_eq_true (all_eq_true.mp hmarker c hc), fun c hc => ?_,
    fun c hspace => hsmall c fun hcapital => ?_⟩
  · by_cases hcapital : c.val ≥ 'A'.val ∧ c.val ≤ 'Z'.val
    · exfalso
      have hlower : c.toLower = ⟨c.val + ('a'.val - 'A'.val), _⟩ := dif_pos hcapital
      rw [hlower] at hc
      have hlow : 65 ≤ c.val.toNat := hcapital.1
      have hhigh : c.val.toNat ≤ 90 := hcapital.2
      have hval := congrArg (fun c => c.val.toNat) hc
      have hshift : ('a'.val - 'A'.val).toNat = 32 := rfl
      have hlead : '<'.val.toNat = 60 := rfl
      simp only [UInt32.toNat_add, hshift, hlead] at hval
      omega
    · rwa [hsmall c hcapital] at hc
  · have hlow : 65 ≤ c.toNat := hcapital.1
    have hhigh : c.toNat ≤ 90 := hcapital.2
    simp [isPySpace] at hspace
    omega

/-- A block, cut within its opening marker. -/
theorem snapshot_iff_block :
    stripReasoning Char.toLower "a<Think>b</think> c".toList =
      stripChars isPySpace (visible Char.toLower .init ["a<Thi".toList, "nk>b</think> c".toList]) := by
  refine (snapshot_iff toLower_lowerCase _).1 ⟨unshifted_plain ?_ 0, ?_, ?_⟩ _ rfl
  · decide +kernel
  · decide +kernel
  · decide +kernel

/-- The snapshot keeps a closing marker in capitals. -/
theorem capitals_kept :
    ¬ ∀ (text : List Char) (deltas : List (List Char)), deltas.flatten = text →
      stripReasoning Char.toLower text = stripChars isPySpace (visible Char.toLower .init deltas) := by
  intro h
  have hsame := h _ ["a</THINK>b".toList] rfl
  revert hsame
  decide +kernel

end MultiRag.Reasoning
