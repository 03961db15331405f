/-
  **What the loops around a table find.**

  The loops over the blocks above and below give the empty text exactly where all blocks they
  would read are empty.
-/
import MultiRag.Fallible
import MultiRag.TableContext

namespace MultiRag.TableContext

open Regex List

variable {I C : Type} {tokens : String → Nat} {size : Int} {entries : List (Int × Block C)}

/-! ### Sentences -/

theorem append_eq_empty_iff₃ {a b c : String} : a ++ b ++ c = "" ↔ a = "" ∧ b = "" ∧ c = "" := by
  rw [String.append_eq_empty_iff, String.append_eq_empty_iff, and_assoc]

variable {txt : String}

theorem not_empty_of_enough (hsize : ¬ size < tokens "") (henough : size < tokens txt) :
    txt ≠ "" := by
  rintro rfl
  exact hsize henough

theorem prepend_eq_empty (hsize : ¬ size < tokens "") (parts : List String) (txt : String) :
    prepend tokens size parts txt = "" ↔ txt = "" ∧ ∀ part ∈ parts, part = "" := by
  fun_induction prepend tokens size parts txt with
  | case1 txt => simp
  | case2 first txt => simp [String.append_eq_empty_iff, and_comm]
  | case3 last stop rest txt henough =>
    have hne := not_empty_of_enough hsize henough
    refine iff_of_false hne ?_
    rintro ⟨rfl, hall⟩
    apply hne
    rw [hall last (by simp), hall stop (by simp)]
    rfl
  | case4 last stop rest txt henough ih =>
    rw [ih, append_eq_empty_iff₃]
    simp only [forall_mem_cons]
    tauto

theorem append_eq_empty (hsize : ¬ size < tokens "") (parts : List String) (txt : String) :
    append tokens size parts txt = "" ↔ txt = "" ∧ ∀ part ∈ parts, part = "" := by
  fun_induction append tokens size parts txt with
  | case1 txt => simp
  | case2 last txt => simp [String.append_eq_empty_iff]
  | case3 first stop rest txt henough =>
    have hne := not_empty_of_enough hsize henough
    refine iff_of_false hne ?_
    rintro ⟨rfl, hall⟩
    apply hne
    rw [hall first (by simp), hall stop (by simp)]
    rfl
  | case4 first stop rest txt henough ih =>
    rw [ih, String.append_eq_empty_iff, String.append_eq_empty_iff]
    simp only [forall_mem_cons]
    tauto

theorem sentences_eq_empty {cnt : String} : (∀ part ∈ sentences cnt, part = "") ↔ cnt = "" := by
  have hjoin : String.join (sentences cnt) = cnt := split_join _ cnt
  constructor
  · intro hall
    rw [← hjoin, ← String.toList_eq_nil_iff, String.toList_join, flatMap_eq_nil_iff]
    intro part hpart
    rw [hall part hpart]
    rfl
  · rintro rfl part hpart
    rw [← String.toList_eq_nil_iff, String.toList_join, flatMap_eq_nil_iff] at hjoin
    exact String.toList_eq_nil_iff.mp (hjoin part hpart)

/-! ### Empty blocks -/

def Blank (blocks : List (Block C)) : Prop := ∀ blk ∈ blocks, blk.txt = ""

/-- All blocks up to `i` are empty, and those of the pages that come before without a gap. -/
def BlankAbove (entries : List (Int × Block C)) (page i : Int) : Prop :=
  Blank ((bucket entries page).take (i + 1).toNat) ∧
    ∀ q, 0 ≤ q → q < page → (∀ r, q ≤ r → r < page → bucket entries r ≠ []) → Blank (bucket entries q)

/-- All blocks from `i` on are empty, and those of the pages that follow without a gap. -/
def BlankBelow (entries : List (Int × Block C)) (page i : Int) : Prop :=
  Blank ((bucket entries page).drop i.toNat) ∧
    ∀ q, page < q → (∀ r, page < r → r ≤ q → bucket entries r ≠ []) → Blank (bucket entries q)

variable {page : Int}

theorem blankAbove_step {i : Nat} (hi : i < (bucket entries page).length) :
    BlankAbove entries page i ↔ ((bucket entries page)[i]).txt = "" ∧ BlankAbove entries page (i - 1) := by
  have htake : (bucket entries page).take ((i : Int) + 1).toNat =
      (bucket entries page).take ((i : Int) - 1 + 1).toNat ++ [(bucket entries page)[i]] := by
    have hnext : ((i : Int) + 1).toNat = i + 1 := by omega
    have hthis : ((i : Int) - 1 + 1).toNat = i := by omega
    rw [hnext, hthis, take_append_getElem hi]
  rw [BlankAbove, BlankAbove, htake]
  simp only [Blank, forall_mem_append, forall_mem_singleton]
  tauto

theorem blankAbove_none (h : page - 1 < 0 ∨ bucket entries (page - 1) = []) :
    BlankAbove entries page (-1) := by
  refine ⟨by intro blk hblk; simp at hblk, ?_⟩
  intro q hq hpage hgap
  rcases h with hneg | hempty
  · omega
  · exact absurd hempty (hgap (page - 1) (by omega) (by omega))

theorem blankAbove_page (hpage : 0 ≤ page - 1) (hbucket : bucket entries (page - 1) ≠ []) :
    BlankAbove entries page (-1) ↔
      BlankAbove entries (page - 1) ((bucket entries (page - 1)).length - 1) := by
  have htake : (((bucket entries (page - 1)).length : Int) - 1 + 1).toNat = (bucket entries (page - 1)).length := by
    omega
  rw [BlankAbove, BlankAbove, htake, take_length]
  constructor
  · rintro ⟨-, hpages⟩
    refine ⟨hpages (page - 1) hpage (by omega) ?_, ?_⟩
    · intro r hr hrp
      obtain rfl : r = page - 1 := by omega
      exact hbucket
    · intro q hq hqp hgap
      apply hpages q hq (by omega)
      intro r hr hrp
      rcases Int.lt_or_eq_of_le (show r ≤ page - 1 by omega) with hlt | rfl
      · exact hgap r hr hlt
      · exact hbucket
  · rintro ⟨hblocks, hpages⟩
    refine ⟨by intro blk hblk; simp at hblk, ?_⟩
    intro q hq hqp hgap
    rcases Int.lt_or_eq_of_le (show q ≤ page - 1 by omega) with hlt | rfl
    · exact hpages q hq hlt (fun r hr hrp => hgap r hr (by omega))
    · exact hblocks

theorem blankBelow_step {i : Nat} (hi : i < (bucket entries page).length) :
    BlankBelow entries page i ↔ ((bucket entries page)[i]).txt = "" ∧ BlankBelow entries page (i + 1) := by
  have hdrop : (bucket entries page).drop (i : Int).toNat =
      (bucket entries page)[i] :: (bucket entries page).drop ((i : Int) + 1).toNat := by
    have hnext : ((i : Int) + 1).toNat = i + 1 := by omega
    rw [hnext, Int.toNat_natCast, drop_eq_getElem_cons hi]
  rw [BlankBelow, BlankBelow, hdrop]
  simp only [Blank, forall_mem_cons]
  tauto

variable {i : Int}

theorem blankBelow_none (hi : ((bucket entries page).length : Int) ≤ i)
    (h : bucket entries (page + 1) = []) : BlankBelow entries page i := by
  refine ⟨?_, ?_⟩
  · intro blk hblk
    rw [drop_eq_nil_of_le (by omega)] at hblk
    cases hblk
  · intro q hq hgap
    exact absurd h (hgap (page + 1) (by omega) (by omega))

theorem blankBelow_page (hi : ((bucket entries page).length : Int) ≤ i)
    (hbucket : bucket entries (page + 1) ≠ []) :
    BlankBelow entries page i ↔ BlankBelow entries (page + 1) 0 := by
  rw [BlankBelow, BlankBelow, drop_eq_nil_of_le (by omega)]
  constructor
  · rintro ⟨-, hpages⟩
    refine ⟨hpages (page + 1) (by omega) ?_, ?_⟩
    · intro r hr hrp
      obtain rfl : r = page + 1 := by omega
      exact hbucket
    · intro q hq hgap
      apply hpages q (by omega)
      intro r hr hrp
      rcases Int.lt_or_eq_of_le (show page + 1 ≤ r by omega) with hlt | rfl
      · exact hgap r hlt hrp
      · exact hbucket
  · rintro ⟨hblocks, hpages⟩
    refine ⟨by intro blk hblk; simp at hblk, ?_⟩
    intro q hq hgap
    rcases Int.lt_or_eq_of_le (show page + 1 ≤ q by omega) with hlt | rfl
    · exact hpages q hlt (fun r hr hrp => hgap r (by omega) hrp)
    · exact hblocks

/-! ### The loops -/

theorem bucket_length (entries : List (Int × Block C)) (page : Int) :
    (bucket entries page).length = entries.countP (·.1 = page) := by
  rw [bucket, length_map, countP_eq_length_filter]

theorem countP_split {α : Type} {p q r : α → Bool} (hp : ∀ x, p x = true → r x = true ∧ q x = false)
    (hrest : ∀ x, p x = false → q x = r x) (l : List α) : l.countP p + l.countP q = l.countP r := by
  induction l with
  | nil => rfl
  | cons x l ih =>
    rw [countP_cons, countP_cons, countP_cons, ← ih]
    cases hx : p x with
    | true =>
      rw [(hp x hx).1, (hp x hx).2]
      simp only [if_true, Bool.false_eq_true, if_false]
      omega
    | false =>
      rw [hrest x hx]
      simp only [Bool.false_eq_true, if_false]
      omega

theorem countP_before (entries : List (Int × Block C)) (page : Int) :
    entries.countP (·.1 < page) + (bucket entries page).length = entries.countP (·.1 < page + 1) := by
  rw [bucket_length]
  apply countP_split
  · intro entry
    simp only [decide_eq_true_eq, decide_eq_false_iff_not]
    omega
  · intro entry
    simp only [decide_eq_false_iff_not, decide_eq_decide]
    omega

theorem countP_after (entries : List (Int × Block C)) (page : Int) :
    entries.countP (page + 1 < ·.1) + (bucket entries (page + 1)).length = entries.countP (page < ·.1) := by
  rw [bucket_length]
  apply countP_split
  · intro entry
    simp only [decide_eq_true_eq, decide_eq_false_iff_not]
    omega
  · intro entry
    simp only [decide_eq_false_iff_not, decide_eq_decide]
    omega

theorem ne_empty_of_enough (hsize : 0 < size) (htokens : tokens "" = 0)
    (henough : ¬ (tokens txt : Int) < size) : txt ≠ "" := by
  rintro rfl
  rw [htokens] at henough
  exact henough hsize

theorem pyItem_natCast {α : Type} {items : List α} {i : Nat} (hi : i < items.length) :
    pyItem items (i : Int) = some items[i] := by
  rw [pyItem, if_pos (Int.natCast_nonneg i), Int.toNat_natCast, getElem?_eq_getElem hi]

/-- Reading the block with number `i`, then the blocks above it. -/
def readUp (tokens : String → Nat) (size : Int) (entries : List (Int × Block C)) (rounds : Nat) (page i : Int)
    (txt : String) : Option String :=
  (pyItem (bucket entries page) i).bind fun blk =>
    upperLoop tokens size entries rounds page (i - 1) (prepend tokens size (sentences blk.txt).reverse txt)

/-- Reading the block with number `i`, then the blocks below it. -/
def readDown (tokens : String → Nat) (size : Int) (entries : List (Int × Block C)) (rounds : Nat) (page i : Int)
    (txt : String) : Option String :=
  (pyItem (bucket entries page) i).bind fun blk =>
    lowerLoop tokens size entries rounds page (i + 1) (append tokens size (sentences blk.txt) txt)

/-- `out` is empty exactly where the text before is, and the blocks are. -/
def Emptied (out : Option String) (txt : String) (blocks : Prop) : Prop :=
  ∃ text, out = some text ∧ (text = "" ↔ txt = "" ∧ blocks)

theorem readUp_spec (hsize : ¬ size < tokens "") (rounds : Nat) {i : Nat} (txt : String)
    (hi : i < (bucket entries page).length)
    (hrest : ∀ txt, Emptied (upperLoop tokens size entries rounds page (i - 1) txt) txt
      (BlankAbove entries page (i - 1))) :
    Emptied (readUp tokens size entries rounds page i txt) txt (BlankAbove entries page i) := by
  rw [readUp, pyItem_natCast hi, Option.bind_some]
  obtain ⟨text, htext, hempty⟩ := hrest (prepend tokens size (sentences (bucket entries page)[i].txt).reverse txt)
  refine ⟨text, htext, ?_⟩
  rw [hempty, prepend_eq_empty hsize, blankAbove_step hi]
  simp only [mem_reverse]
  rw [sentences_eq_empty, and_assoc]

theorem readDown_spec (hsize : ¬ size < tokens "") (rounds : Nat) {i : Nat} (txt : String)
    (hi : i < (bucket entries page).length)
    (hrest : ∀ txt, Emptied (lowerLoop tokens size entries rounds page (i + 1) txt) txt
      (BlankBelow entries page (i + 1))) :
    Emptied (readDown tokens size entries rounds page i txt) txt (BlankBelow entries page i) := by
  rw [readDown, pyItem_natCast hi, Option.bind_some]
  obtain ⟨text, htext, hempty⟩ := hrest (append tokens size (sentences (bucket entries page)[i].txt) txt)
  refine ⟨text, htext, ?_⟩
  rw [hempty, append_eq_empty hsize, blankBelow_step hi, sentences_eq_empty, and_assoc]

theorem Emptied.stopped {blocks : Prop} (h : txt = "" → blocks) :
    Emptied (some txt) txt blocks := by
  refine ⟨txt, rfl, ?_⟩
  constructor
  · intro hempty
    exact ⟨hempty, h hempty⟩
  · rintro ⟨hempty, -⟩
    exact hempty

theorem upperLoop_spec (hsize : 0 < size) (htokens : tokens "" = 0) {rounds : Nat} (txt : String)
    (hi : -1 ≤ i) (hlen : i < (bucket entries page).length)
    (hfuel : entries.countP (·.1 < page) + (i + 1).toNat < rounds) :
    Emptied (upperLoop tokens size entries rounds page i txt) txt (BlankAbove entries page i) := by
  induction rounds generalizing page i txt with
  | zero => omega
  | succ rounds ih =>
    have hsize' : ¬ size < tokens "" := by omega
    rw [upperLoop]
    by_cases henough : (tokens txt : Int) < size
    · rw [if_neg (not_not_intro henough)]
      by_cases hneg : i < 0
      · obtain rfl : i = -1 := by omega
        rw [if_pos hneg]
        by_cases hend : page - 1 < 0 ∨ bucket entries (page - 1) = []
        · rw [if_pos hend]
          exact Emptied.stopped fun _ => blankAbove_none hend
        · rw [if_neg hend]
          push Not at hend
          rw [blankAbove_page hend.1 hend.2]
          have hpos := length_pos_iff.mpr hend.2
          have hbefore := countP_before entries (page - 1)
          rw [show page - 1 + 1 = page by omega] at hbefore
          obtain ⟨last, hlast⟩ : ∃ last : Nat, (bucket entries (page - 1)).length = last + 1 :=
            ⟨_, (Nat.succ_pred_eq_of_pos hpos).symm⟩
          rw [hlast, show ((last + 1 : Nat) : Int) - 1 = (last : Int) by omega,
            show ((last + 1 : Nat) : Int) - 2 = (last : Int) - 1 by omega]
          exact readUp_spec hsize' rounds txt (by omega) (fun txt => ih txt (by omega) (by omega) (by omega))
      · rw [if_neg hneg]
        obtain ⟨k, rfl⟩ := Int.eq_ofNat_of_zero_le (show 0 ≤ i by omega)
        exact readUp_spec hsize' rounds txt (by omega) (fun txt => ih txt (by omega) (by omega) (by omega))
    · rw [if_pos henough]
      exact Emptied.stopped fun hempty => absurd hempty (ne_empty_of_enough hsize htokens henough)

theorem lowerLoop_spec (hsize : 0 < size) (htokens : tokens "" = 0) {rounds : Nat} (txt : String)
    (hi : 0 ≤ i)
    (hfuel : entries.countP (page < ·.1) + (bucket entries page).length < rounds + i.toNat)
    (hlen : i ≤ (bucket entries page).length) :
    Emptied (lowerLoop tokens size entries rounds page i txt) txt (BlankBelow entries page i) := by
  induction rounds generalizing page i txt with
  | zero => omega
  | succ rounds ih =>
    have hsize' : ¬ size < tokens "" := by omega
    rw [lowerLoop]
    by_cases henough : (tokens txt : Int) < size
    · rw [if_neg (not_not_intro henough)]
      by_cases hover : (bucket entries page).length ≤ i
      · rw [if_pos hover]
        by_cases hend : bucket entries (page + 1) = []
        · rw [if_pos hend]
          exact Emptied.stopped fun _ => blankBelow_none hover hend
        · rw [if_neg hend, blankBelow_page hover hend]
          have hpos := length_pos_iff.mpr hend
          have hafter := countP_after entries page
          exact readDown_spec hsize' rounds (i := 0) txt hpos
            (fun txt => ih txt (by omega) (by omega) (by omega))
      · rw [if_neg hover]
        obtain ⟨k, rfl⟩ := Int.eq_ofNat_of_zero_le hi
        exact readDown_spec hsize' rounds txt (by omega) (fun txt => ih txt (by omega) (by omega) (by omega))
    · rw [if_pos henough]
      exact Emptied.stopped fun hempty => absurd hempty (ne_empty_of_enough hsize htokens henough)

theorem countP_before_le (entries : List (Int × Block C)) (page : Int) :
    entries.countP (·.1 < page) + (bucket entries page).length ≤ entries.length := by
  rw [countP_before]
  exact countP_le_length

theorem countP_after_le (entries : List (Int × Block C)) (page : Int) :
    entries.countP (page < ·.1) + (bucket entries page).length ≤ entries.length := by
  have hafter := countP_after entries (page - 1)
  rw [show page - 1 + 1 = page by omega] at hafter
  rw [hafter]
  exact countP_le_length

theorem blankAbove_negative (entries : List (Int × Block C)) (page : Int)
    (hempty : bucket entries page = []) :
    BlankAbove entries page i ↔ BlankAbove entries page (-1) := by
  simp [BlankAbove, hempty]

theorem upperContext_spec (hsize : 0 < size) (htokens : tokens "" = 0) (hi : -1 ≤ i)
    (hlen : bucket entries page ≠ [] → i < (bucket entries page).length) :
    Emptied (upperContext tokens size entries page i) "" (BlankAbove entries page i) := by
  have hle := countP_before_le entries page
  rw [upperContext]
  by_cases hempty : bucket entries page = []
  · rw [if_pos hempty, blankAbove_negative entries page hempty]
    exact upperLoop_spec hsize htokens "" (by omega) (by omega) (by omega)
  · rw [if_neg hempty]
    have hlt := hlen hempty
    exact upperLoop_spec hsize htokens "" hi hlt (by omega)

def NothingBelow (entries : List (Int × Block C)) (page i : Int) : Prop :=
  bucket entries page = [] ∨ BlankBelow entries page i

theorem lowerContext_spec (hsize : 0 < size) (htokens : tokens "" = 0) (hi : 0 ≤ i)
    (hlen : i ≤ (bucket entries page).length) :
    Emptied (lowerContext tokens size entries page i) "" (NothingBelow entries page i) := by
  have hle := countP_after_le entries page
  rw [lowerContext]
  by_cases hempty : bucket entries page = []
  · rw [if_pos hempty]
    exact Emptied.stopped fun _ => .inl hempty
  · rw [if_neg hempty, NothingBelow, or_iff_right hempty]
    exact lowerLoop_spec hsize htokens "" hi (by omega) hlen

section

variable [LT C]

/-- The loop over the blocks of a page goes on past the first `i` blocks. -/
def Passed (top bottom : C) (blocks : List (Block C)) (i : Nat) : Prop :=
  ∀ j < i, ∀ blk ∈ blocks[j]?, ∀ next ∈ blocks[j + 1]?, ¬ top < blk.box.bottom ∧ next.box.top < bottom

theorem passed_zero (top bottom : C) (blocks : List (Block C)) : Passed top bottom blocks 0 := by
  intro j hj
  omega

variable {top bottom : C} {blk next : Block C} {rest : List (Block C)} {i : Nat}

theorem passed_cons :
    Passed top bottom (blk :: next :: rest) (i + 1) ↔
      (¬ top < blk.box.bottom ∧ next.box.top < bottom) ∧ Passed top bottom (next :: rest) i := by
  constructor
  · intro h
    refine ⟨h 0 (by omega) blk (by simp) next (by simp), ?_⟩
    intro j hj b hb c hc
    exact h (j + 1) (by omega) b (by simpa using hb) c (by simpa using hc)
  · rintro ⟨hfirst, hrest⟩ j hj b hb c hc
    cases j with
    | zero =>
      obtain rfl : blk = b := by simpa using hb
      obtain rfl : next = c := by simpa using hc
      exact hfirst
    | succ j => exact hrest j (by omega) b (by simpa using hb) c (by simpa using hc)

/-- The block with number `i` ends above the top of the table, and the next one starts below its bottom. -/
def Parted (top bottom : C) (blocks : List (Block C)) (i : Nat) : Prop :=
  ∃ blk ∈ blocks[i]?, ∃ next ∈ blocks[i + 1]?, ¬ top < blk.box.bottom ∧ ¬ next.box.top < bottom

@[simp] theorem parted_zero :
    Parted top bottom (blk :: next :: rest) 0 ↔ ¬ top < blk.box.bottom ∧ ¬ next.box.top < bottom := by
  simp [Parted]

@[simp] theorem parted_succ :
    Parted top bottom (blk :: rest) (i + 1) ↔ Parted top bottom rest i := by
  simp [Parted]

theorem exists_passed_cons {start k : Nat} (stop : Nat → Prop) :
    (∃ i, k = start + i ∧ Passed top bottom (blk :: next :: rest) i ∧ stop i) ↔
      (k = start ∧ stop 0) ∨ ((¬ top < blk.box.bottom ∧ next.box.top < bottom) ∧
        ∃ i, k = start + 1 + i ∧ Passed top bottom (next :: rest) i ∧ stop (i + 1)) := by
  rw [← Nat.or_exists_add_one]
  simp only [passed_zero, passed_cons, Nat.add_zero, true_and, Nat.add_right_comm start 1, Nat.add_assoc]
  apply or_congr_right
  constructor
  · rintro ⟨i, hk, ⟨hblk, hpassed⟩, hstop⟩
    exact ⟨hblk, i, hk, hpassed, hstop⟩
  · rintro ⟨hblk, i, hk, hpassed, hstop⟩
    exact ⟨i, hk, ⟨hblk, hpassed⟩, hstop⟩

variable [DecidableLT C] {blocks : List (Block C)}

theorem scanPage_spec {start k : Nat} :
    (scanPage top bottom blocks start = .between k ↔
      ∃ i, k = start + i ∧ Passed top bottom blocks i ∧ Parted top bottom blocks i) ∧
    (scanPage top bottom blocks start = .atLast k ↔
      ∃ i, k = start + i ∧ Passed top bottom blocks i ∧ i + 1 = blocks.length) := by
  induction blocks generalizing start with
  | nil => simp [scanPage, Parted]
  | cons blk rest ih =>
    cases rest with
    | nil => simp [scanPage, Parted, passed_zero, eq_comm]
    | cons next rest =>
      rw [scanPage, exists_passed_cons, exists_passed_cons]
      by_cases htop : top < blk.box.bottom
      · simp [htop]
      · rw [if_neg htop]
        by_cases hnext : next.box.top < bottom
        · rw [if_pos hnext, ih.1, ih.2]
          simp [htop, hnext]
        · rw [if_neg hnext]
          simp [htop, hnext, eq_comm]

/-- A table of the pages `first` to `last` is placed after block `i` of a page: the loop passes all blocks of
    the pages before. -/
structure StandsAfter (entries : List (Int × Block C)) (top bottom : C) (first last page : Int) (i : Nat) : Prop where
  first_le : first ≤ page
  le_last : page = first ∨ page ≤ last
  pages : ∀ q, first ≤ q → q < page →
    bucket entries q ≠ [] ∧ Passed top bottom (bucket entries q) ((bucket entries q).length - 1)
  blocks : Passed top bottom (bucket entries page) i
  stop : Parted top bottom (bucket entries page) i ∨ (i + 1 = (bucket entries page).length ∧ last ≤ page)

variable {first : Int}

omit [DecidableLT C] in
theorem standsAfter_iff {last : Int} :
    StandsAfter entries top bottom first last page i ↔
      (page = first ∧ Passed top bottom (bucket entries first) i ∧
        (Parted top bottom (bucket entries first) i ∨ (i + 1 = (bucket entries first).length ∧ last ≤ first))) ∨
      (first < last ∧ bucket entries first ≠ [] ∧
        Passed top bottom (bucket entries first) ((bucket entries first).length - 1) ∧
        StandsAfter entries top bottom (first + 1) last page i) := by
  constructor
  · intro h
    rcases Int.lt_or_eq_of_le h.first_le with hlt | rfl
    · right
      obtain ⟨hne, hpassed⟩ := h.pages first (by omega) hlt
      have hlast := h.le_last
      refine ⟨by omega, hne, hpassed, by omega, by omega, ?_, h.blocks, h.stop⟩
      intro q hq hqp
      exact h.pages q (by omega) hqp
    · left
      exact ⟨rfl, h.blocks, h.stop⟩
  · rintro (⟨rfl, hblocks, hstop⟩ | ⟨hlt, hne, hpassed, h⟩)
    · exact ⟨by omega, .inl rfl, fun q hq hqp => by omega, hblocks, hstop⟩
    · have hfirst := h.first_le
      have hlast := h.le_last
      refine ⟨by omega, by omega, ?_, h.blocks, h.stop⟩
      intro q hq hqp
      rcases Int.lt_or_eq_of_le hq with hlt | rfl
      · exact h.pages q (by omega) hqp
      · exact ⟨hne, hpassed⟩

theorem scanPage_eq_between :
    scanPage top bottom blocks 0 = .between i ↔ Passed top bottom blocks i ∧ Parted top bottom blocks i := by
  rw [scanPage_spec.1]
  simp

theorem scanPage_eq_atLast :
    scanPage top bottom blocks 0 = .atLast i ↔ Passed top bottom blocks i ∧ i + 1 = blocks.length := by
  rw [scanPage_spec.2]
  simp

theorem scanPage_passed :
    (∃ i, scanPage top bottom blocks 0 = .atLast i) ↔
      blocks ≠ [] ∧ Passed top bottom blocks (blocks.length - 1) := by
  simp only [scanPage_eq_atLast]
  constructor
  · rintro ⟨i, hpassed, hlen⟩
    rw [← hlen]
    refine ⟨?_, hpassed⟩
    rintro rfl
    simp at hlen
  · rintro ⟨hne, hpassed⟩
    have hpos := length_pos_iff.mpr hne
    exact ⟨_, hpassed, by omega⟩

theorem scan_upper {last : Int} {pages : Nat} (hpages : (last - first).toNat = pages) :
    ((scan entries top bottom pages first).upper = some i ∧ (scan entries top bottom pages first).page = page) ↔
      StandsAfter entries top bottom first last page i := by
  induction pages generalizing first with
  | zero =>
    rw [standsAfter_iff, scan]
    have hle : last ≤ first := by omega
    rw [or_iff_left (by rintro ⟨hlt, -⟩; omega)]
    simp only [hle, and_true, and_or_left, ← scanPage_eq_between, ← scanPage_eq_atLast]
    cases hscan : scanPage top bottom (bucket entries first) 0 with
    | nowhere => simp
    | between k => simp [and_comm, eq_comm]
    | atLast k => simp [and_comm, eq_comm]
  | succ pages ih =>
    rw [standsAfter_iff, scan]
    have hlt : first < last := by omega
    have hnext := @ih (first + 1) (by omega)
    simp only [hlt, Int.not_le.mpr hlt, and_false, or_false, true_and, ← scanPage_eq_between]
    rw [← and_assoc (b := Passed _ _ _ _), ← scanPage_passed]
    cases hscan : scanPage top bottom (bucket entries first) 0 with
    | nowhere => simp
    | between k => simp [and_comm, eq_comm]
    | atLast k => simp [hnext]

/-- Where the text below the table starts, for a table after block `i` of a page. -/
def below (entries : List (Int × Block C)) (page : Int) (i : Nat) : Int × Nat :=
  if i + 1 < (bucket entries page).length then (page, i) else (page + 1, 0)

omit [LT C] [DecidableLT C] in
theorem below_le (entries : List (Int × Block C)) (page : Int) (i : Nat) :
    (below entries page i).2 ≤ (bucket entries (below entries page i).1).length := by
  rw [below]
  split
  · next hlt => exact Nat.le_of_lt (Nat.lt_of_succ_lt hlt)
  · exact Nat.zero_le _

theorem exists_scan_zero (entries : List (Int × Block C)) (top bottom : C) (pages : Nat) (first : Int) :
    ∃ page, scan entries top bottom pages first = scan entries top bottom 0 page := by
  induction pages generalizing first with
  | zero => exact ⟨first, rfl⟩
  | succ pages ih =>
    obtain ⟨page, hpage⟩ := ih (first + 1)
    cases hscan : scanPage top bottom (bucket entries first) 0 with
    | nowhere => exact ⟨first, by rw [scan, scan, hscan]⟩
    | between k => exact ⟨first, by rw [scan, scan, hscan]⟩
    | atLast k =>
      refine ⟨page, ?_⟩
      rw [← hpage, scan, hscan]

theorem scan_lower {pages : Nat} {place : Place}
    (hplace : scan entries top bottom pages first = place) (hupper : place.upper = some i) :
    i < (bucket entries place.page).length ∧ (place.lowerPage, place.lower) = below entries place.page i := by
  obtain ⟨page, hpage⟩ := exists_scan_zero entries top bottom pages first
  rw [hpage, scan] at hplace
  cases hscan : scanPage top bottom (bucket entries page) 0 with
  | nowhere =>
    rw [hscan] at hplace
    subst hplace
    cases hupper
  | between k =>
    rw [hscan] at hplace
    subst hplace
    obtain rfl := Option.some.inj hupper
    obtain ⟨-, blk, hblk, next, hnext, -⟩ := scanPage_eq_between.mp hscan
    obtain ⟨hlt, -⟩ := List.getElem?_eq_some_iff.mp hnext
    simp only [below, if_pos hlt, and_true]
    omega
  | atLast k =>
    rw [hscan] at hplace
    subst hplace
    obtain rfl := Option.some.inj hupper
    have hlen := (scanPage_eq_atLast.mp hscan).2
    simp only [below, if_neg (show ¬ k + 1 < (bucket entries page).length by omega), and_true]
    omega

end

end MultiRag.TableContext
