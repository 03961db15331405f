/-
  **Cutting marked blocks out of a text, at once or piece by piece.**

  A block runs from an opening marker to the next closing marker. `scan` is the one pass over the
  whole text; `Scans` is the same pass as a relation between two positions, so that passes
  compose. Items are compared by a key, so that a case-insensitive marker is a list of keys. Both
  markers begin with the same key, which occurs nowhere else in them: a marker never begins inside
  another one.
-/
import Mathlib.Data.List.Infix

namespace MultiRag.MarkerScan

open List

structure Delimiters (β : Type) where
  lead : β
  openTail : List β
  closeTail : List β
  open_free : lead ∉ openTail
  close_free : lead ∉ closeTail
  distinct : ¬ openTail <+: closeTail

section

variable {α β : Type} [DecidableEq β] (key : α → β)

def Delimiters.opening (d : Delimiters β) : List β := d.lead :: d.openTail

def Delimiters.closing (d : Delimiters β) : List β := d.lead :: d.closeTail

def startsWith (marker : List β) (text : List α) : Bool :=
  marker.isPrefixOf (text.map key)

def position (marker : List β) : List α → Option Nat
  | [] => none
  | c :: rest =>
    if startsWith key marker (c :: rest) then some 0 else (position marker rest).map (· + 1)

variable (d : Delimiters β)

/-- The text outside the blocks.  `skip` items of a marker are still to be passed. -/
def scan : Bool → Nat → List α → List α
  | _, _, [] => []
  | inside, skip + 1, _ :: rest => scan inside skip rest
  | inside, 0, c :: rest =>
    if startsWith key d.closing (c :: rest) then scan false d.closeTail.length rest
    else if inside then scan true 0 rest
    else if startsWith key d.opening (c :: rest) then scan true d.openTail.length rest
    else c :: scan false 0 rest

/-- The scan gets from one mode and text to another, showing some items. -/
inductive Scans : Bool → List α → List α → Bool → List α → Prop where
  | done (inside : Bool) (text : List α) : Scans inside text [] inside text
  | shown {c : α} {rest out : List α} {mode : Bool} {left : List α} :
      startsWith key d.closing (c :: rest) = false → startsWith key d.opening (c :: rest) = false →
      Scans false rest out mode left → Scans false (c :: rest) (c :: out) mode left
  | hidden {c : α} {rest out : List α} {mode : Bool} {left : List α} :
      startsWith key d.closing (c :: rest) = false →
      Scans true rest out mode left → Scans true (c :: rest) out mode left
  | opened {text out : List α} {mode : Bool} {left : List α} :
      startsWith key d.closing text = false → startsWith key d.opening text = true →
      Scans true (text.drop d.opening.length) out mode left → Scans false text out mode left
  | closed {inside : Bool} {text out : List α} {mode : Bool} {left : List α} :
      startsWith key d.closing text = true →
      Scans false (text.drop d.closing.length) out mode left → Scans inside text out mode left

variable {key d} {inside mode mode' : Bool} {text rest left left' out out' : List α} {marker : List β}

theorem startsWith_iff : startsWith key marker text = true ↔ marker <+: text.map key := by
  rw [startsWith, isPrefixOf_iff_prefix]

variable {b : β}

theorem startsWith_nil : startsWith key (b :: marker) ([] : List α) = false := by
  simp [startsWith]

variable {c : α}

theorem head_of_startsWith (h : startsWith key (b :: marker) (c :: rest) = true) :
    key c = b := by
  rw [startsWith_iff, map_cons, cons_prefix_cons] at h
  exact h.1.symm

theorem length_of_startsWith (h : startsWith key marker text = true) :
    marker.length ≤ text.length := by
  rw [startsWith_iff] at h
  simpa using h.length_le

theorem startsWith_append (h : startsWith key marker text = true) (rest : List α) :
    startsWith key marker (text ++ rest) = true := by
  rw [startsWith_iff] at h ⊢
  rw [map_append]
  exact h.trans (prefix_append _ _)

theorem startsWith_or_reaches (h : startsWith key marker (text ++ rest) = true) :
    startsWith key marker text = true ∨ text.map key <+: marker := by
  rw [startsWith_iff, map_append] at h
  rcases prefix_or_prefix_of_prefix h (prefix_append (text.map key) _) with hin | hout
  · exact .inl (startsWith_iff.mpr hin)
  · exact .inr hout

/-! ### Positions -/

theorem position_eq_none_iff :
    position key marker text = none ↔
      ∀ i < text.length, startsWith key marker (text.drop i) = false := by
  induction text with
  | nil => simp [position]
  | cons c rest ih =>
    unfold position
    split
    · next hstart =>
      simp only [reduceCtorEq, false_iff]
      intro hall
      have hnot := hall 0 (by simp)
      rw [drop_zero, hstart] at hnot
      cases hnot
    · next hstart =>
      rw [Option.map_eq_none_iff, ih]
      constructor
      · intro hall i hi
        cases i with
        | zero => simpa using hstart
        | succ i => exact hall i (by simpa using hi)
      · intro hall i hi
        exact hall (i + 1) (by simpa using hi)

variable {n : Nat}

theorem position_eq_some_iff :
    position key marker text = some n ↔
      n < text.length ∧ startsWith key marker (text.drop n) = true ∧
        ∀ i < n, startsWith key marker (text.drop i) = false := by
  induction text generalizing n with
  | nil => simp [position]
  | cons c rest ih =>
    unfold position
    split
    · next hstart =>
      rw [Option.some.injEq]
      constructor
      · rintro rfl
        simpa using hstart
      · rintro ⟨-, -, hfirst⟩
        rcases Nat.eq_zero_or_pos n with rfl | hpos
        · rfl
        · have hnot := hfirst 0 hpos
          rw [drop_zero, hstart] at hnot
          cases hnot
    · next hstart =>
      rw [Option.map_eq_some_iff]
      constructor
      · rintro ⟨m, hm, rfl⟩
        obtain ⟨hlt, hat, hfirst⟩ := ih.mp hm
        refine ⟨by simpa using hlt, by simpa using hat, fun i hi => ?_⟩
        cases i with
        | zero => simpa using hstart
        | succ i => exact hfirst i (by omega)
      · rintro ⟨hlt, hat, hfirst⟩
        cases n with
        | zero => exact absurd hat hstart
        | succ n =>
          exact ⟨n, ih.mpr ⟨by simpa using hlt, by simpa using hat,
            fun i hi => hfirst (i + 1) (by omega)⟩, rfl⟩

theorem startsWith_drop_of_none (h : position key (b :: marker) text = none) (i : Nat) :
    startsWith key (b :: marker) (text.drop i) = false := by
  by_cases hi : i < text.length
  · exact position_eq_none_iff.mp h i hi
  · rw [drop_eq_nil_of_le (by omega)]
    exact startsWith_nil

variable {i : Nat}

theorem before_position (h : ∀ m, position key (b :: marker) text = some m → n ≤ m) (hi : i < n) :
    startsWith key (b :: marker) (text.drop i) = false := by
  rcases hposition : position key (b :: marker) text with _ | m
  · exact startsWith_drop_of_none hposition i
  · have hle := h m hposition
    exact (position_eq_some_iff.mp hposition).2.2 i (by omega)

theorem le_position {m : Nat} (h : ∀ i < n, startsWith key marker (text.drop i) = false)
    (hm : position key marker text = some m) : n ≤ m := by
  by_contra hlt
  obtain ⟨-, hat, -⟩ := position_eq_some_iff.mp hm
  rw [h m (by omega)] at hat
  cases hat

theorem position_drop_of_none (h : position key marker text = none) (n : Nat) :
    position key marker (text.drop n) = none := by
  rw [position_eq_none_iff] at h ⊢
  intro i hi
  rw [length_drop] at hi
  rw [drop_drop]
  exact h (n + i) (by omega)

variable {tail other : List β}

theorem not_startsWith_of_reaches (hfree : b ∉ tail) (h : text.map key <+: b :: tail) (hi : 0 < i) :
    startsWith key (b :: other) (text.drop i) = false := by
  by_contra hstart
  rw [Bool.not_eq_false] at hstart
  rcases hdrop : text.drop i with _ | ⟨c, after⟩
  · rw [hdrop, startsWith_nil] at hstart
    cases hstart
  · rw [hdrop] at hstart
    have hkey : key c = b := head_of_startsWith hstart
    have hmem : c ∈ text.tail := by
      have hsuffix : text.drop i <:+ text.tail := by
        rw [← drop_one]
        exact drop_suffix_drop_left text hi
      exact hsuffix.mem (by rw [hdrop]; exact mem_cons_self)
    cases text with
    | nil => simp at hmem
    | cons first others =>
      rw [map_cons, cons_prefix_cons] at h
      exact hfree (h.2.mem (hkey ▸ mem_map_of_mem hmem))

/-! ### The scan and its steps -/

theorem scan_skip (n : Nat) : scan key d inside n text = scan key d inside 0 (text.drop n) := by
  induction text generalizing n with
  | nil => cases n <;> simp [scan]
  | cons c rest ih =>
    cases n with
    | zero => simp
    | succ n => simp [scan, ih n]

theorem scan_closed (h : startsWith key d.closing text = true) :
    scan key d inside 0 text = scan key d false 0 (text.drop d.closing.length) := by
  cases text with
  | nil => simp [Delimiters.closing, startsWith_nil] at h
  | cons c rest =>
    rw [scan, if_pos h, scan_skip]
    rfl

theorem scan_opened (hclose : startsWith key d.closing text = false)
    (h : startsWith key d.opening text = true) :
    scan key d false 0 text = scan key d true 0 (text.drop d.opening.length) := by
  cases text with
  | nil => simp [Delimiters.opening, startsWith_nil] at h
  | cons c rest =>
    rw [scan, if_neg (by simp [hclose]), if_neg (by simp), if_pos h, scan_skip]
    rfl

theorem scan_hidden (hclose : startsWith key d.closing (c :: rest) = false) :
    scan key d true 0 (c :: rest) = scan key d true 0 rest := by
  rw [scan, if_neg (by simp [hclose]), if_pos rfl]

theorem scan_shown (hclose : startsWith key d.closing (c :: rest) = false)
    (hopen : startsWith key d.opening (c :: rest) = false) :
    scan key d false 0 (c :: rest) = c :: scan key d false 0 rest := by
  rw [scan, if_neg (by simp [hclose]), if_neg (by simp), if_neg (by simp [hopen])]

theorem Scans.scan_eq (h : Scans key d inside text out mode left) :
    scan key d inside 0 text = out ++ scan key d mode 0 left := by
  induction h with
  | done => rfl
  | shown hclose hopen _ ih => rw [scan_shown hclose hopen, ih, cons_append]
  | hidden hclose _ ih => rw [scan_hidden hclose, ih]
  | opened hclose hopen _ ih => rw [scan_opened hclose hopen, ih]
  | closed hclose _ ih => rw [scan_closed hclose, ih]

theorem Scans.trans (first : Scans key d inside text out mode left)
    (last : Scans key d mode left out' mode' left') :
    Scans key d inside text (out ++ out') mode' left' := by
  induction first with
  | done => exact last
  | shown hclose hopen _ ih => exact .shown hclose hopen (ih last)
  | hidden hclose _ ih => exact .hidden hclose (ih last)
  | opened hclose hopen _ ih => exact .opened hclose hopen (ih last)
  | closed hclose _ ih => exact .closed hclose (ih last)

theorem Scans.take_shown (hn : n ≤ text.length)
    (h : ∀ i < n, startsWith key d.closing (text.drop i) = false ∧
      startsWith key d.opening (text.drop i) = false) :
    Scans key d false text (text.take n) false (text.drop n) := by
  induction n generalizing text with
  | zero => exact .done false text
  | succ n ih =>
    cases text with
    | nil => simp at hn
    | cons c rest =>
      have hhere := h 0 (by omega)
      exact .shown hhere.1 hhere.2 (ih (by simpa using hn) fun i hi => h (i + 1) (by omega))

theorem Scans.drop_hidden (hn : n ≤ text.length)
    (h : ∀ i < n, startsWith key d.closing (text.drop i) = false) :
    Scans key d true text [] true (text.drop n) := by
  induction n generalizing text with
  | zero => exact .done true text
  | succ n ih =>
    cases text with
    | nil => simp at hn
    | cons c rest =>
      exact .hidden (h 0 (by omega)) (ih (by simpa using hn) fun i hi => h (i + 1) (by omega))

/-! ### Steps that a first part of the text decides -/

theorem startsWith_before_marker (hfree : b ∉ tail) (hin : i < n)
    (hat : startsWith key (b :: other) (text.drop n) = true)
    (hnot : startsWith key (b :: tail) (text.drop i) = false) :
    startsWith key (b :: tail) (text.drop i ++ rest) = false := by
  by_contra hstart
  rw [Bool.not_eq_false] at hstart
  rcases startsWith_or_reaches hstart with hwithin | hreaches
  · rw [hwithin] at hnot
    cases hnot
  · have hfalse : startsWith key (b :: other) ((text.drop i).drop (n - i)) = false :=
      not_startsWith_of_reaches hfree hreaches (by omega)
    rw [drop_drop, show i + (n - i) = n by omega, hat] at hfalse
    cases hfalse

theorem position_append (hfree : b ∉ tail) (h : position key (b :: tail) text = some n)
    (rest : List α) :
    position key (b :: tail) (text ++ rest) = some n := by
  obtain ⟨hlt, hat, hfirst⟩ := position_eq_some_iff.mp h
  rw [position_eq_some_iff]
  refine ⟨by simp; omega, ?_, fun i hi => ?_⟩
  · rw [drop_append_of_le_length (by omega)]
    exact startsWith_append hat rest
  · rw [drop_append_of_le_length (by omega)]
    exact startsWith_before_marker hfree hi hat (hfirst i hi)

theorem position_of_append_none (hfree : b ∉ tail)
    (h : position key (b :: tail) (text ++ rest) = none) :
    position key (b :: tail) text = none := by
  rcases hposition : position key (b :: tail) text with _ | n
  · rfl
  · rw [position_append hfree hposition rest] at h
    cases h

theorem Scans.close_block (h : position key d.closing text = some n) :
    Scans key d true (text ++ rest) [] false (text.drop (n + d.closing.length) ++ rest) := by
  obtain ⟨hlt, hat, hfirst⟩ := position_eq_some_iff.mp h
  have hskip : Scans key d true (text ++ rest) [] true (text.drop n ++ rest) := by
    rw [← drop_append_of_le_length (by omega)]
    refine Scans.drop_hidden (by simp; omega) fun i hi => ?_
    rw [drop_append_of_le_length (by omega)]
    exact startsWith_before_marker d.close_free hi hat (hfirst i hi)
  have hlen : d.closing.length ≤ (text.drop n).length := length_of_startsWith hat
  refine hskip.trans (.closed (startsWith_append hat rest) ?_)
  rw [drop_append_of_le_length hlen, drop_drop]
  exact .done _ _

theorem Scans.show_before (hn : n ≤ text.length)
    (hclose : ∀ i < n, startsWith key d.closing (text.drop i) = false)
    (hopen : ∀ i < n, startsWith key d.opening (text.drop i) = false)
    (hat : startsWith key d.closing (text.drop n) = true ∨
      startsWith key d.opening (text.drop n) = true) :
    Scans key d false (text ++ rest) (text.take n) false (text.drop n ++ rest) := by
  rw [← drop_append_of_le_length hn, ← take_append_of_le_length hn]
  refine Scans.take_shown (by simp; omega) fun i hi => ?_
  rw [drop_append_of_le_length (by omega)]
  rcases hat with hat | hat
  all_goals exact ⟨startsWith_before_marker d.close_free hi hat (hclose i hi),
    startsWith_before_marker d.open_free hi hat (hopen i hi)⟩

theorem Scans.pass_closing (hclose : position key d.closing text = some n)
    (hopen : ∀ m, position key d.opening text = some m → n ≤ m) :
    Scans key d false (text ++ rest) (text.take n) false
      (text.drop (n + d.closing.length) ++ rest) := by
  obtain ⟨hlt, hat, hfirst⟩ := position_eq_some_iff.mp hclose
  have hbefore : ∀ i < n, startsWith key d.opening (text.drop i) = false :=
    fun i hi => before_position hopen hi
  have hpass : Scans key d false (text.drop n ++ rest) [] false
      (text.drop (n + d.closing.length) ++ rest) := by
    refine .closed (startsWith_append hat rest) ?_
    rw [drop_append_of_le_length (length_of_startsWith hat), drop_drop]
    exact .done _ _
  simpa using (Scans.show_before (by omega) hfirst hbefore (.inl hat)).trans hpass

theorem Scans.enter_block (hopen : position key d.opening text = some n)
    (hclose : ∀ m, position key d.closing text = some m → n < m) :
    Scans key d false (text ++ rest) (text.take n) true
      (text.drop (n + d.opening.length) ++ rest) := by
  obtain ⟨hlt, hat, hfirst⟩ := position_eq_some_iff.mp hopen
  have hnot : ∀ i, i ≤ n → startsWith key d.closing (text.drop i) = false :=
    fun i hi => before_position hclose (Nat.lt_succ_of_le hi)
  have hpass : Scans key d false (text.drop n ++ rest) [] true
      (text.drop (n + d.opening.length) ++ rest) := by
    refine .opened ?_ (startsWith_append hat rest) ?_
    · by_contra hstart
      rw [Bool.not_eq_false] at hstart
      rcases startsWith_or_reaches hstart with hwithin | hreaches
      · rw [hnot n (le_refl n)] at hwithin
        cases hwithin
      · have hprefix : d.opening <+: d.closing := (startsWith_iff.mp hat).trans hreaches
        exact d.distinct (cons_prefix_cons.mp hprefix).2
    · rw [drop_append_of_le_length (length_of_startsWith hat), drop_drop]
      exact .done _ _
  simpa using (Scans.show_before (by omega) (fun i hi => hnot i (by omega)) hfirst
    (.inr hat)).trans hpass

theorem startsWith_append_of_none (hnone : position key (b :: tail) text = none)
    (hreach : ¬ (text.drop i).map key <+: b :: tail) :
    startsWith key (b :: tail) (text.drop i ++ rest) = false := by
  by_contra hstart
  rw [Bool.not_eq_false] at hstart
  rcases startsWith_or_reaches hstart with hwithin | hreaches
  · rw [startsWith_drop_of_none hnone i] at hwithin
    cases hwithin
  · exact hreach hreaches

theorem Scans.hold_inside (hn : n ≤ text.length) (hclose : position key d.closing text = none)
    (hreach : ∀ i < n, ¬ (text.drop i).map key <+: d.closing) :
    Scans key d true (text ++ rest) [] true (text.drop n ++ rest) := by
  rw [← drop_append_of_le_length hn]
  refine Scans.drop_hidden (by simp; omega) fun i hi => ?_
  rw [drop_append_of_le_length (by omega)]
  exact startsWith_append_of_none hclose (hreach i hi)

theorem Scans.hold_outside (hn : n ≤ text.length) (hclose : position key d.closing text = none)
    (hopen : position key d.opening text = none)
    (hreach : ∀ i < n, ¬ (text.drop i).map key <+: d.closing ∧ ¬ (text.drop i).map key <+: d.opening) :
    Scans key d false (text ++ rest) (text.take n) false (text.drop n ++ rest) := by
  rw [← drop_append_of_le_length hn, ← take_append_of_le_length hn]
  refine Scans.take_shown (by simp; omega) fun i hi => ?_
  rw [drop_append_of_le_length (by omega)]
  exact ⟨startsWith_append_of_none hclose (hreach i hi).1,
    startsWith_append_of_none hopen (hreach i hi).2⟩

theorem scan_of_none (hclose : position key d.closing text = none)
    (hopen : inside = false → position key d.opening text = none) :
    scan key d inside 0 text = if inside then [] else text := by
  cases inside with
  | true =>
    have h := (Scans.drop_hidden (d := d) (le_refl text.length)
      fun i _ => startsWith_drop_of_none hclose i).scan_eq
    simpa [scan] using h
  | false =>
    have h := (Scans.take_shown (d := d) (le_refl text.length) fun i _ =>
      ⟨startsWith_drop_of_none hclose i, startsWith_drop_of_none (hopen rfl) i⟩).scan_eq
    simpa [scan] using h

theorem startsWith_of_take {k : Nat} (h : startsWith key marker ((text.take k).drop i) = true) :
    startsWith key marker (text.drop i) = true := by
  rw [startsWith_iff, drop_take, map_take] at h
  rw [startsWith_iff]
  exact h.trans (List.take_prefix _ _)

theorem startsWith_take {k : Nat} (h : startsWith key marker text = true)
    (hk : marker.length ≤ k) : startsWith key marker (text.take k) = true := by
  rw [startsWith_iff] at h ⊢
  rw [map_take]
  exact prefix_take_iff.mpr ⟨h, hk⟩

/-! ### An item before a text -/

theorem not_startsWith_inside (hfree : b ∉ tail) (h : startsWith key (b :: tail) text = true)
    (hpos : 0 < i) (hi : i ≤ tail.length) :
    startsWith key (b :: other) (text.drop i) = false := by
  by_contra hstart
  rw [Bool.not_eq_false] at hstart
  have hshort : startsWith key (b :: []) (text.drop i) = true := by
    rw [startsWith_iff] at hstart ⊢
    exact (cons_prefix_cons.mpr ⟨rfl, nil_prefix⟩).trans hstart
  have hwithin : startsWith key (b :: []) ((text.take (tail.length + 1)).drop i) = true := by
    rw [drop_take]
    exact startsWith_take hshort (by simp; omega)
  have hreaches : (text.take (tail.length + 1)).map key <+: b :: tail := by
    have hmarker := prefix_iff_eq_take.mp (startsWith_iff.mp h)
    rw [map_take, ← length_cons (a := b), ← hmarker]
  rw [not_startsWith_of_reaches hfree hreaches hpos] at hwithin
  cases hwithin

theorem scan_inside_le (text : List α) :
    (scan key d true 0 text).length ≤ (scan key d false 0 text).length := by
  induction text with
  | nil => simp [scan]
  | cons c rest ih =>
    rcases hclose : startsWith key d.closing (c :: rest) with _ | _
    · rcases hopen : startsWith key d.opening (c :: rest) with _ | _
      · rw [scan_hidden hclose, scan_shown hclose hopen, length_cons]
        omega
      · have hroom : d.opening.length ≤ (c :: rest).length := length_of_startsWith hopen
        have hhidden := (Scans.drop_hidden (d := d) hroom fun i hi => by
          rcases Nat.eq_zero_or_pos i with rfl | hpos
          · exact hclose
          · exact not_startsWith_inside d.open_free hopen hpos (Nat.le_of_lt_succ hi)).scan_eq
        rw [hhidden, scan_opened hclose hopen, nil_append]
    · rw [scan_closed hclose, scan_closed hclose]

theorem scan_tail (hfree : d.lead ∉ tail) (h : startsWith key (d.lead :: tail) (c :: rest) = true) :
    (scan key d false 0 rest).length =
      tail.length + (scan key d false 0 (rest.drop tail.length)).length := by
  have hroom : tail.length ≤ rest.length := by
    simpa using length_of_startsWith h
  have hfirst : ∀ other, ∀ i < tail.length,
      startsWith key (d.lead :: other) (rest.drop i) = false := by
    intro other i hi
    rw [← drop_succ_cons (a := c)]
    exact not_startsWith_inside hfree h (Nat.succ_pos i) hi
  have hshown := (Scans.take_shown (d := d) hroom fun i hi =>
    ⟨hfirst d.closeTail i hi, hfirst d.openTail i hi⟩).scan_eq
  rw [hshown, length_append, length_take, Nat.min_eq_left hroom]

theorem scan_cons_ne (hopenTail : d.openTail ≠ []) (hcloseTail : d.closeTail ≠ []) (c : α)
    (rest : List α) : scan key d false 0 (c :: rest) ≠ scan key d false 0 rest := by
  intro heq
  have hlength := congrArg List.length heq
  rcases hclose : startsWith key d.closing (c :: rest) with _ | _
  · rcases hopen : startsWith key d.opening (c :: rest) with _ | _
    · rw [scan_shown hclose hopen, length_cons] at hlength
      omega
    · have hpos : 0 < d.openTail.length := length_pos_iff.mpr hopenTail
      have hle : (scan key d true 0 (rest.drop d.openTail.length)).length ≤
          (scan key d false 0 (rest.drop d.openTail.length)).length := scan_inside_le _
      rw [scan_opened hclose hopen, scan_tail d.open_free hopen] at hlength
      simp only [Delimiters.opening, length_cons, drop_succ_cons] at hlength
      omega
  · have hpos : 0 < d.closeTail.length := length_pos_iff.mpr hcloseTail
    rw [scan_closed hclose, scan_tail d.close_free hclose] at hlength
    simp only [Delimiters.closing, length_cons, drop_succ_cons] at hlength
    omega

end

end MultiRag.MarkerScan
