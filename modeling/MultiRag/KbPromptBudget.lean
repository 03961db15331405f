/-
  **Which chunks a knowledge prompt shows.**

  `kb_prompt` counts the chunks up to the one that crosses the token budget, without
  those that have no text, and then shows so many chunks from the front of the list.
  The chunk that crosses is counted, a chunk without text is shown in another's place:
  the two errors cancel where exactly one chunk before the crossing one has no text
  (`shows_longest_iff`).
-/
import Mathlib.Algebra.GroupWithZero.Nat
import Mathlib.Algebra.Order.Ring.Rat
import MultiRag.CanvasReferences
import MultiRag.Fallible

namespace MultiRag.Agent

open List

variable {sha1 : String → Nat} {isPrintable : Char → Bool} {numTokens : String → Nat}
  {hashId : Bool} {limit : ℚ} {chunks texts front rest : List Json} {c : Json} {used : Nat}

/-- `max_tokens * 0.97 < used_token_count`, where the product is the limit. -/
def full (limit : ℚ) (used : Nat) : Bool := decide (limit < used)

/-- The tokens of the contents, where a chunk without text has none. -/
def contentTokens (numTokens : String → Nat) (texts : List Json) : Nat :=
  (texts.map fun c => if c.truthy then knowledgeTokens numTokens c else 0).sum

/-- The prompt of the first `k` chunks. -/
def rendered (sha1 : String → Nat) (isPrintable : Char → Bool) (hashId : Bool) (chunks : List Json)
    (k : Nat) : Option (List PromptEntry) :=
  (chunks.take k).zipIdx.mapM fun shown => promptEntry sha1 isPrintable hashId shown.2 shown.1

/-- The first `k` contents are the longest prefix within the budget. -/
structure IsLongest (numTokens : String → Nat) (limit : ℚ) (texts : List Json) (k : Nat) : Prop where
  le : k ≤ texts.length
  fits : full limit (contentTokens numTokens (texts.take k)) = false
  longest : ∀ j ≤ texts.length, full limit (contentTokens numTokens (texts.take j)) = false → j ≤ k

/-- `c` is the first content that crosses the budget, behind `front`. -/
structure Crosses (numTokens : String → Nat) (limit : ℚ) (front : List Json) (c : Json) : Prop where
  before : full limit (contentTokens numTokens front) = false
  after : full limit (contentTokens numTokens (front ++ [c])) = true

/-- A chunk that `kb_prompt` can render. -/
structure IsChunk (ck : Json) : Prop where
  isObj : ck.isObj = true
  text : (knowledgeText ck).isSome = true
  metadata : (metadataItems ck).isSome = true
  id : ∃ id, getValue ck "id" "chunk_id" = .str id

theorem full_mono {used' : Nat} (hle : used ≤ used') (h : full limit used = true) :
    full limit used' = true := by
  simp only [full, decide_eq_true_eq] at h ⊢
  exact h.trans_le (by exact_mod_cast hle)

theorem full_zero : full limit 0 = false ↔ 0 ≤ limit := by
  simp [full]

@[simp] theorem contentTokens_nil : contentTokens numTokens [] = 0 := rfl

theorem contentTokens_append (front rest : List Json) :
    contentTokens numTokens (front ++ rest) = contentTokens numTokens front + contentTokens numTokens rest := by
  simp [contentTokens]

theorem contentTokens_cons (c : Json) (rest : List Json) :
    contentTokens numTokens (c :: rest) =
      (if c.truthy then knowledgeTokens numTokens c else 0) + contentTokens numTokens rest := by
  simp [contentTokens]

/-! ### How many chunks are counted -/

theorem chunksNum_cons (hlow : full limit used = false) (c : Json) (rest : List Json) :
    chunksNum numTokens (full limit) used (c :: rest) =
      (if c.truthy then 1 else 0) +
        if full limit (used + contentTokens numTokens [c]) then 0
        else chunksNum numTokens (full limit) (used + contentTokens numTokens [c]) rest := by
  rw [chunksNum, contentTokens_cons, contentTokens_nil]
  by_cases hc : c.truthy = true
  · simp only [hc, Bool.not_true, Bool.false_eq_true, if_true, if_false, Nat.add_zero]
    split
    · rfl
    · rfl
  · simp [hc, hlow]

theorem chunksNum_append (hlow : full limit (used + contentTokens numTokens front) = false)
    (rest : List Json) :
    chunksNum numTokens (full limit) used (front ++ rest) = front.countP Json.truthy +
      chunksNum numTokens (full limit) (used + contentTokens numTokens front) rest := by
  induction front generalizing used with
  | nil => simp
  | cons c front ih =>
    have hsum : used + contentTokens numTokens (c :: front) =
        used + contentTokens numTokens [c] + contentTokens numTokens front := by
      rw [← singleton_append, contentTokens_append, Nat.add_assoc]
    have hnot : ∀ n ≤ used + contentTokens numTokens (c :: front), full limit n = false := by
      intro n hn
      by_contra hfull
      rw [full_mono hn (by simpa using hfull)] at hlow
      cases hlow
    have hfirst := hnot (used + contentTokens numTokens [c]) (by omega)
    rw [cons_append, chunksNum_cons (hnot used (by omega)), hfirst, ih (by rw [← hsum]; exact hlow),
      ← hsum, countP_cons]
    simp only [Bool.false_eq_true, if_false]
    omega

theorem chunksNum_fits (h : full limit (contentTokens numTokens texts) = false) :
    chunksNum numTokens (full limit) 0 texts = texts.countP Json.truthy := by
  have happend := @chunksNum_append numTokens limit texts 0 (by rwa [Nat.zero_add]) []
  rw [append_nil, chunksNum] at happend
  exact happend

theorem Crosses.exceeds (h : Crosses numTokens limit front c) (rest : List Json) :
    full limit (contentTokens numTokens (front ++ c :: rest)) = true := by
  rw [append_cons, contentTokens_append]
  exact full_mono (Nat.le_add_right _ _) h.after

theorem chunksNum_crosses (h : Crosses numTokens limit front c) (rest : List Json) :
    chunksNum numTokens (full limit) 0 (front ++ c :: rest) = front.countP Json.truthy + 1 := by
  obtain ⟨hbefore, hafter⟩ := h
  rw [contentTokens_append] at hafter
  have hc : c.truthy = true := by
    by_contra hempty
    rw [contentTokens_cons, if_neg hempty] at hafter
    exact Bool.false_ne_true (hbefore.symm.trans hafter)
  rw [chunksNum_append (by rwa [Nat.zero_add]), Nat.zero_add, chunksNum_cons hbefore, if_pos hc, if_pos hafter]

/-! ### The longest prefix -/

theorem exists_crossing (hlow : full limit (contentTokens numTokens front) = false)
    (hfull : full limit (contentTokens numTokens (front ++ rest)) = true) :
    ∃ more c after, rest = more ++ c :: after ∧ Crosses numTokens limit (front ++ more) c := by
  induction rest generalizing front with
  | nil =>
    rw [append_nil, hlow] at hfull
    cases hfull
  | cons c rest ih =>
    by_cases hc : full limit (contentTokens numTokens (front ++ [c])) = true
    · exact ⟨[], c, rest, rfl, by rwa [append_nil], by rwa [append_nil]⟩
    · rw [Bool.not_eq_true] at hc
      obtain ⟨more, c', after, rfl, hcrosses⟩ := ih hc (by simpa using hfull)
      exact ⟨c :: more, c', after, rfl, by simpa using hcrosses⟩

theorem isLongest_fits (h : full limit (contentTokens numTokens texts) = false) {k : Nat} :
    IsLongest numTokens limit texts k ↔ k = texts.length := by
  constructor
  · intro hk
    have hall := hk.longest texts.length le_rfl (by rwa [take_length])
    exact Nat.le_antisymm hk.le hall
  · rintro rfl
    exact ⟨le_rfl, by rwa [take_length], fun j hj _ => hj⟩

theorem isLongest_crosses (h : Crosses numTokens limit front c) {k : Nat} :
    IsLongest numTokens limit (front ++ c :: rest) k ↔ k = front.length := by
  have hfront : (front ++ c :: rest).take front.length = front := take_left
  have hlow : ∀ j, full limit (contentTokens numTokens ((front ++ c :: rest).take j)) = false →
      j ≤ front.length := by
    intro j hj
    by_contra hlong
    obtain ⟨m, rfl⟩ := Nat.exists_eq_add_of_lt (Nat.not_le.mp hlong)
    have htake : (front ++ c :: rest).take (front.length + m + 1) = front ++ [c] ++ rest.take m := by
      rw [Nat.add_assoc, take_length_add_append]
      simp
    rw [htake, contentTokens_append] at hj
    rw [full_mono (Nat.le_add_right _ _) h.after] at hj
    cases hj
  constructor
  · intro hk
    have hall := hk.longest front.length (by simp) (by rw [hfront]; exact h.before)
    exact Nat.le_antisymm (hlow k hk.fits) hall
  · rintro rfl
    exact ⟨by simp, by rw [hfront]; exact h.before, fun j _ hj => hlow j hj⟩

/-! ### What is shown -/

theorem exists_rendered (h : ∀ ck ∈ chunks, IsChunk ck) (k : Nat) :
    ∃ entries, rendered sha1 isPrintable hashId chunks k = some entries ∧
      entries.length = min k chunks.length := by
  have hentry : ∀ shown ∈ (chunks.take k).zipIdx,
      ∃ entry, promptEntry sha1 isPrintable hashId shown.2 shown.1 = some entry := by
    intro shown hshown
    have hck := h shown.1 (mem_of_mem_take (fst_mem_of_mem_zipIdx hshown))
    obtain ⟨id, hid⟩ := hck.id
    obtain ⟨text, htext⟩ := Option.isSome_iff_exists.mp hck.text
    obtain ⟨metadata, hmeta⟩ := Option.isSome_iff_exists.mp hck.metadata
    simp only [promptEntry, promptId, hid, hashStr2int, htext, hmeta]
    split
    · exact ⟨_, rfl⟩
    · exact ⟨_, rfl⟩
  obtain ⟨entries, hentries⟩ : ∃ entries, rendered sha1 isPrintable hashId chunks k = some entries := by
    unfold rendered
    generalize (chunks.take k).zipIdx = shownAll at hentry
    induction shownAll with
    | nil => exact ⟨[], rfl⟩
    | cons shown shownRest ih =>
      obtain ⟨entry, hentry'⟩ := hentry shown mem_cons_self
      obtain ⟨entries, hentries⟩ := ih fun other hother => hentry other (mem_cons_of_mem _ hother)
      exact ⟨entry :: entries, by simp [hentry', hentries]⟩
  refine ⟨entries, hentries, ?_⟩
  have hlength := (mapM_some_iff_forall₂.mp hentries).length_eq
  simpa using hlength.symm

/-- The prompt shows the chunks of the longest prefix whose contents fit in the budget. -/
def ShowsLongest (sha1 : String → Nat) (isPrintable : Char → Bool) (numTokens : String → Nat)
    (limit : ℚ) (hashId : Bool) (chunks : List Json) : Prop :=
  ∃ k, IsLongest numTokens limit (chunks.map knowledge) k ∧
    kbPrompt sha1 isPrintable numTokens (full limit) hashId chunks =
      rendered sha1 isPrintable hashId chunks k

theorem shows_iff_count (h : ∀ ck ∈ chunks, IsChunk ck) :
    ShowsLongest sha1 isPrintable numTokens limit hashId chunks ↔
      ∃ k, IsLongest numTokens limit (chunks.map knowledge) k ∧
        min (chunksNum numTokens (full limit) 0 (chunks.map knowledge)) chunks.length = k := by
  have hobj : chunks.all Json.isObj = true := all_eq_true.mpr fun ck hck => (h ck hck).isObj
  apply exists_congr
  intro k
  apply and_congr_right
  intro hk
  have hle : k ≤ chunks.length := by simpa using hk.le
  rw [kbPrompt, if_pos hobj]
  constructor
  · intro heq
    obtain ⟨entries, hentries, hlength⟩ := @exists_rendered sha1 isPrintable hashId chunks h k
    obtain ⟨shown, hshown, hcount⟩ := @exists_rendered sha1 isPrintable hashId chunks h
      (chunksNum numTokens (full limit) 0 (chunks.map knowledge))
    rw [← heq] at hentries
    rw [Option.some.inj (hentries.symm.trans hshown), hcount] at hlength
    omega
  · rintro rfl
    rw [rendered, ← take_eq_take_min]

/-- **The prompt shows the longest prefix exactly when all contents fit and none is empty, or one
    crosses the budget and exactly one before it is empty.** -/
theorem shows_longest_iff (h : ∀ ck ∈ chunks, IsChunk ck) :
    ShowsLongest sha1 isPrintable numTokens limit hashId chunks ↔ 0 ≤ limit ∧
      ((full limit (contentTokens numTokens (chunks.map knowledge)) = false ∧
          ∀ ck ∈ chunks, (knowledge ck).truthy = true) ∨
        ∃ front c rest, chunks.map knowledge = front ++ c :: rest ∧ Crosses numTokens limit front c ∧
          front.countP (fun c => !c.truthy) = 1) := by
  rw [shows_iff_count h, ← full_zero]
  have hlength : chunks.length = (chunks.map knowledge).length := by simp
  have hempty : (∀ ck ∈ chunks, (knowledge ck).truthy = true) ↔
      ∀ c ∈ chunks.map knowledge, c.truthy = true := by simp
  rw [hempty, hlength]
  generalize chunks.map knowledge = texts
  by_cases hzero : full limit 0 = true
  · constructor
    · rintro ⟨k, hk, -⟩
      have hfits := hk.fits
      rw [full_mono (Nat.zero_le _) hzero] at hfits
      cases hfits
    · rintro ⟨hlow, -⟩
      rw [hzero] at hlow
      cases hlow
  rw [Bool.not_eq_true] at hzero
  by_cases hfits : full limit (contentTokens numTokens texts) = false
  · simp only [isLongest_fits hfits, exists_eq_left, chunksNum_fits hfits, hzero, hfits, true_and]
    constructor
    · intro hcount
      have hle : texts.countP Json.truthy ≤ texts.length := countP_le_length
      exact .inl (countP_eq_length.mp (by omega))
    · rintro (hall | ⟨front, c, rest, rfl, hcrosses, -⟩)
      · rw [countP_eq_length.mpr hall, Nat.min_self]
      · rw [hcrosses.exceeds rest] at hfits
        cases hfits
  · rw [Bool.not_eq_false] at hfits
    obtain ⟨front, c, rest, rfl, hcrosses⟩ := @exists_crossing numTokens limit [] texts hzero hfits
    rw [nil_append] at hcrosses
    have hcount : front.length = front.countP Json.truthy + front.countP (fun c => !c.truthy) := by
      simpa using length_eq_countP_add_countP Json.truthy
    simp only [isLongest_crosses hcrosses, exists_eq_left, chunksNum_crosses hcrosses, hzero, hfits, true_and,
      Bool.true_eq_false, false_and, false_or]
    rw [length_append, length_cons]
    constructor
    · intro hmin
      exact ⟨front, c, rest, rfl, hcrosses, by omega⟩
    · rintro ⟨front', c', rest', heq, hcrosses', hone⟩
      have hlength : front'.length = front.length := by
        have hlongest := (@isLongest_crosses numTokens limit front' rest' c' hcrosses' _).mpr rfl
        rw [← heq, isLongest_crosses hcrosses] at hlongest
        exact hlongest
      rw [← (append_inj heq hlength.symm).1] at hone
      omega

def chunkOf (text : String) : Json := .obj [("content_with_weight", .str text), ("id", .str text)]

theorem isChunk_chunkOf (text : String) : IsChunk (chunkOf text) := by
  have hknowledge : knowledge (chunkOf text) = .str text := by
    by_cases htext : text = ""
    · rw [htext]
      rfl
    · have htruthy : (Json.str text).truthy = true := by simpa [Json.truthy] using htext
      have hget : (chunkOf text).getD "content_with_weight" = .str text := rfl
      have hnone : ((chunkOf text).getD "text").truthy = false := rfl
      rw [knowledge, Json.pyOr, Json.pyOr, Json.pyOr, hnone, hget]
      simp [htruthy]
  exact ⟨rfl, by rw [knowledgeText, hknowledge]; rfl, rfl, text, rfl⟩

theorem shows_longest_once : ShowsLongest (fun _ => 0) (fun _ => true) String.length 5 false
    [chunkOf "", chunkOf "aaaa", chunkOf "bbbb"] := by
  refine (shows_longest_iff ?_).mpr ⟨by decide +kernel, .inr ?_⟩
  · simp [isChunk_chunkOf]
  · refine ⟨[.str "", .str "aaaa"], .str "bbbb", [], by decide +kernel, ⟨?_, ?_⟩, by decide +kernel⟩
    · decide +kernel
    · decide +kernel

/-- The second of two chunks is shown, although it crosses the budget. -/
theorem crossing_chunk_shown : ¬ ShowsLongest (fun _ => 0) (fun _ => true) String.length 5 false
    [chunkOf "aaaa", chunkOf "bbbb"] := by
  rw [shows_iff_count (by simp [isChunk_chunkOf])]
  rintro ⟨k, hk, hcount⟩
  have htwo : k = 2 := by
    rw [← hcount]
    decide +kernel
  have hfits := hk.fits
  rw [htwo] at hfits
  revert hfits
  decide +kernel

end MultiRag.Agent
