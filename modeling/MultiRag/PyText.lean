/-
  **Python lists and texts by position.**

  `items[i]`, `items[:stop]` and `items[start:]` with positions from the end, and
  `str.strip`.
-/
import Mathlib.Data.List.TakeWhile
import MultiRag.Json

namespace MultiRag

open List

def pyItem {α : Type} (items : List α) (i : Int) : Option α :=
  if 0 ≤ i then items[i.toNat]?
  else if -(items.length : Int) ≤ i then items[(items.length + i).toNat]?
  else none

theorem mem_of_pyItem {α : Type} {items : List α} {i : Int} {x : α} (h : pyItem items i = some x) :
    x ∈ items := by
  rw [pyItem] at h
  split at h
  · exact mem_of_getElem? h
  · split at h
    · exact mem_of_getElem? h
    · cases h

theorem exists_pyItem {α : Type} {items : List α} {i : Int} (hlow : -(items.length : Int) ≤ i)
    (hhigh : i < items.length) : ∃ x, pyItem items i = some x := by
  rw [pyItem]
  by_cases hi : 0 ≤ i
  · rw [if_pos hi, getElem?_eq_getElem (by omega)]
    exact ⟨_, rfl⟩
  · rw [if_neg hi, if_pos hlow, getElem?_eq_getElem (by omega)]
    exact ⟨_, rfl⟩

def pyTake {α : Type} (items : List α) (stop : Int) : List α :=
  items.take (if 0 ≤ stop then stop.toNat else items.length - (-stop).toNat)

def pyDrop {α : Type} (items : List α) (start : Int) : List α :=
  items.drop (if 0 ≤ start then start.toNat else items.length - (-start).toNat)

/-! ### `strip` -/

def stripChars (stripped : Char → Bool) (text : List Char) : List Char :=
  ((text.dropWhile stripped).reverse.dropWhile stripped).reverse

def stripLines (text : String) : String := String.ofList (stripChars (· == '\n') text.toList)

variable {p : Char → Bool} {text : List Char}

theorem mem_dropWhile {c : Char} (hc : c ∈ text) (hp : p c = false) :
    c ∈ text.dropWhile p := by
  have hsplit : text.takeWhile p ++ text.dropWhile p = text := takeWhile_append_dropWhile
  rw [← hsplit, mem_append] at hc
  rcases hc with htaken | hdropped
  · rw [mem_takeWhile_imp htaken] at hp
    cases hp
  · exact hdropped

variable {stripped : Char → Bool}

theorem mem_stripChars {c : Char} (hc : c ∈ text)
    (hstripped : stripped c = false) : c ∈ stripChars stripped text := by
  rw [stripChars, mem_reverse]
  apply mem_dropWhile _ hstripped
  rw [mem_reverse]
  exact mem_dropWhile hc hstripped

theorem exists_of_stripChars_ne_nil
    (h : stripChars stripped text ≠ []) : ∃ c ∈ text, stripped c = false := by
  by_contra hnone
  push Not at hnone
  have hall : text.dropWhile stripped = [] := by
    rw [dropWhile_eq_nil_iff]
    intro c hc
    simpa using hnone c hc
  exact h (by rw [stripChars, hall]; rfl)

theorem pyStrip_toList (text : String) : (pyStrip text).toList = stripChars isPySpace text.toList := by
  rw [pyStrip, String.toList_ofList, stripChars]

theorem dropWhile_of_head {l : List Char} (h : ∀ c ∈ l.head?, p c = false) : l.dropWhile p = l := by
  cases l with
  | nil => rfl
  | cons c l => rw [dropWhile_cons_of_neg]; simpa using h c rfl

theorem head?_dropWhile {l : List Char} : ∀ c ∈ (l.dropWhile p).head?, p c = false := by
  intro c hc
  have hhead := head?_dropWhile_not p l
  rwa [hc] at hhead

theorem stripChars_idem (p : Char → Bool) (l : List Char) : stripChars p (stripChars p l) = stripChars p l := by
  have hfront : ∀ c ∈ (stripChars p l).head?, p c = false := by
    intro c hc
    rw [stripChars, head?_reverse] at hc
    have hsuffix : (l.dropWhile p).reverse.dropWhile p <:+ (l.dropWhile p).reverse := dropWhile_suffix p
    obtain ⟨before, hbefore⟩ := hsuffix
    apply head?_dropWhile (l := l) c
    rw [← reverse_reverse (l.dropWhile p), head?_reverse, ← hbefore, getLast?_append, hc]
    rfl
  have hback : (stripChars p l).reverse.dropWhile p = (stripChars p l).reverse := by
    rw [stripChars, reverse_reverse]
    exact dropWhile_of_head head?_dropWhile
  rw [stripChars, dropWhile_of_head hfront, hback, reverse_reverse]

theorem pyStrip_pyStrip (text : String) : pyStrip (pyStrip text) = pyStrip text := by
  rw [← String.toList_inj, pyStrip_toList, pyStrip_toList, stripChars_idem]

end MultiRag
