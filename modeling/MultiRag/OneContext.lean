/-
  **How many contexts a table gets.**

  A table is *bare* when it stands after a block but only empty blocks are around it.
-/
import MultiRag.TableContextPairs

namespace MultiRag.TableContext

open List

variable {I C : Type} {tokens : String → Nat} {number : String → Option C} {size : Int}
  {entries : List (Int × Block C)}

section

variable [LT C]

def Table.StandsAt (entries : List (Int × Block C)) (table : Table I C) (page : Int) (i : Nat) : Prop :=
  StandsAfter entries table.firstPosition.2.top table.lastPosition.2.bottom table.firstPosition.1
    table.lastPosition.1 page i

/-- The table stands after a block, with no text above it and none below. -/
def Bare (entries : List (Int × Block C)) (table : Table I C) : Prop :=
  ∃ page i, table.StandsAt entries page i ∧ BlankAbove entries page i ∧
    NothingBelow entries (below entries page i).1 (below entries page i).2

variable [DecidableLT C] {table : Table I C} {i : Nat}

theorem place_upper {page : Int} :
    ((table.place entries).upper = some i ∧ (table.place entries).page = page) ↔ table.StandsAt entries page i :=
  scan_upper rfl

theorem place_lower (hupper : (table.place entries).upper = some i) :
    i < (bucket entries (table.place entries).page).length ∧
      ((table.place entries).lowerPage, (table.place entries).lower) = below entries (table.place entries).page i :=
  scan_lower rfl hupper

theorem bare_iff (hupper : (table.place entries).upper = some i) :
    Bare entries table ↔ BlankAbove entries (table.place entries).page i ∧
      NothingBelow entries (table.place entries).lowerPage (table.place entries).lower := by
  obtain ⟨-, hbelow⟩ := place_lower hupper
  rw [show (table.place entries).lowerPage = _ from congrArg Prod.fst hbelow,
    show (table.place entries).lower = _ from congrArg Prod.snd hbelow]
  constructor
  · rintro ⟨page, k, hstands, hblank⟩
    obtain ⟨hk, rfl⟩ := place_upper.mpr hstands
    obtain rfl := Option.some.inj (hupper.symm.trans hk)
    exact hblank
  · intro hblank
    exact ⟨_, i, place_upper.mp ⟨hupper, rfl⟩, hblank⟩

theorem not_bare (hupper : (table.place entries).upper = none) : ¬ Bare entries table := by
  rintro ⟨page, i, hstands, -⟩
  have hsome := (place_upper.mpr hstands).1
  rw [hupper] at hsome
  cases hsome

end

/-! ### One table -/

def stripped (around : String × String) : String × String := (pyStrip around.1, pyStrip around.2)

def Table.within (table : Table I C) (around : String × String) : I × String × List (Int × Box C) :=
  (table.img, around.1 ++ table.tb.joined ++ around.2, table.poss)

def Results.put (results : Results I C) (table : Table I C) (contexts : List (String × String))
    (around : String × String) : Results I C :=
  ⟨results.contexts ++ contexts, results.res ++ [table.within around]⟩

/-- There is at least one context for each table so far. -/
def Results.Kept (results : Results I C) : Prop := results.res.length ≤ results.contexts.length

theorem surrounded_eq {upper tb lower : String} : tb = upper ++ tb ++ lower ↔ upper = "" ∧ lower = "" := by
  constructor
  · intro h
    have hlen := congrArg String.length h
    simp only [String.length_append] at hlen
    have hupper : upper.length = 0 := by omega
    have hlower : lower.length = 0 := by omega
    exact ⟨String.length_eq_zero_iff.mp hupper, String.length_eq_zero_iff.mp hlower⟩
  · rintro ⟨rfl, rfl⟩
    simp

variable {results : Results I C}

theorem close_put (hkept : results.Kept) (table : Table I C) (around : String × String)
    (before : List (String × String)) :
    (⟨results.contexts ++ (before ++ [stripped around]), results.res⟩ : Results I C).close table
        (around.1 ++ table.tb.joined ++ around.2) =
      results.put table (before ++ [stripped around]) around := by
  have hlen : ¬ (results.contexts ++ (before ++ [stripped around])).length < results.res.length + 1 := by
    rw [Results.Kept] at hkept
    simp only [length_append, length_singleton]
    omega
  rw [Results.close]
  simp only [if_neg hlen, Results.put, Table.within]

theorem between_contexts (entries : List (Int × Block C)) (hsize : 0 < size) (htokens : tokens "" = 0) (page : Int) :
    ∃ around : String × String, upperContext tokens size entries page (-1) = some around.1 ∧
      lowerContext tokens size entries (page + 1) 0 = some around.2 := by
  have habove : Emptied (upperContext tokens size entries page (-1)) "" _ :=
    upperContext_spec hsize htokens (by omega) (by omega)
  have hbelow : Emptied (lowerContext tokens size entries (page + 1) 0) "" _ :=
    lowerContext_spec hsize htokens (by omega) (by omega)
  obtain ⟨upper, hupper, -⟩ := habove
  obtain ⟨lower, hlower, -⟩ := hbelow
  exact ⟨(upper, lower), hupper, hlower⟩

variable [LT C] [DecidableLT C]

theorem atPlace_spec (hsize : 0 < size) (htokens : tokens "" = 0) {table : Table I C} {i : Nat}
    (hupper : (table.place entries).upper = some i) (results : Results I C) :
    ∃ around, atPlace tokens size entries (table.place entries) table.tb.joined results =
        some (around.1 ++ table.tb.joined ++ around.2, results.addContext around.1 around.2) ∧
      (Bare entries table ↔ around = ("", "")) := by
  obtain ⟨hi, hbelow⟩ := place_lower hupper
  have hle := below_le entries (table.place entries).page i
  rw [← hbelow] at hle
  have habove : Emptied (upperContext tokens size entries (table.place entries).page i) "" _ :=
    upperContext_spec hsize htokens (by omega) (fun _ => by exact_mod_cast hi)
  have hunder : Emptied (lowerContext tokens size entries (table.place entries).lowerPage (table.place entries).lower)
      "" _ := lowerContext_spec hsize htokens (by omega) (by exact_mod_cast hle)
  obtain ⟨upper, hupperContext, hupperEmpty⟩ := habove
  obtain ⟨lower, hlowerContext, hlowerEmpty⟩ := hunder
  refine ⟨(upper, lower), ?_, ?_⟩
  · rw [atPlace, hupper]
    dsimp only
    rw [hupperContext, hlowerContext]
    rfl
  · rw [bare_iff hupper, Prod.mk.injEq, hupperEmpty, hlowerEmpty]
    simp

theorem addTable_spec (entries : List (Int × Block C)) (hsize : 0 < size) (htokens : tokens "" = 0)
    (hkept : results.Kept) (table : Table I C) :
    ∃ around before, addTable tokens size entries results table =
        some (results.put table (before ++ [stripped around]) around) ∧
      (Bare entries table ∧ before = [("", "")] ∨ ¬ Bare entries table ∧ before = []) := by
  obtain ⟨between, hup, hdown⟩ := between_contexts entries hsize htokens (table.place entries).page
  rw [addTable]
  cases hupper : (table.place entries).upper with
  | none =>
    refine ⟨between, [], ?_, .inr ⟨not_bare hupper, rfl⟩⟩
    rw [atPlace, hupper]
    rw [Option.bind_some, betweenPages, if_pos rfl, hup, hdown]
    exact congrArg some (close_put hkept table between [])
  | some i =>
    obtain ⟨around, hplaced, hbare⟩ := atPlace_spec hsize htokens hupper results
    rw [hplaced, Option.bind_some, betweenPages]
    by_cases hempty : around = ("", "")
    · subst hempty
      refine ⟨between, [("", "")], ?_, .inl ⟨hbare.mpr rfl, rfl⟩⟩
      have htb : "" ++ table.tb.joined ++ "" = table.tb.joined := by simp
      rw [if_pos (surrounded_eq.mpr ⟨rfl, rfl⟩), hup, hdown, htb]
      have hclose := close_put hkept table between [("", "")]
      rw [← append_assoc] at hclose
      exact congrArg some hclose
    · refine ⟨around, [], ?_, .inr ⟨fun h => hempty (hbare.mp h), rfl⟩⟩
      rw [if_neg (fun h => hempty (Prod.ext (surrounded_eq.mp h).1 (surrounded_eq.mp h).2))]
      exact congrArg some (close_put hkept table around [])

/-! ### All tables -/

theorem addTables_spec (entries : List (Int × Block C)) (hsize : 0 < size)
    (htokens : tokens "" = 0) (hkept : results.Kept) (tabls : List (Table I C)) :
    ∃ final, tabls.foldlM (addTable tokens size entries) results = some final ∧ final.Kept ∧
      results.contexts.length + tabls.length ≤ final.contexts.length ∧
      ((∃ table ∈ tabls, Bare entries table) → results.contexts.length + tabls.length < final.contexts.length) ∧
      ((∀ table ∈ tabls, ¬ Bare entries table) → ∃ arounds : List (String × String),
        arounds.length = tabls.length ∧ final.contexts = results.contexts ++ arounds.map stripped ∧
        final.res = results.res ++ zipWith Table.within tabls arounds) := by
  induction tabls generalizing results with
  | nil =>
    refine ⟨results, rfl, hkept, le_rfl, ?_, ?_⟩
    · rintro ⟨table, hmem, -⟩
      cases hmem
    · intro _
      exact ⟨[], rfl, by simp, by simp⟩
  | cons table tabls ih =>
    obtain ⟨around, before, hadd, hbefore⟩ := addTable_spec entries hsize htokens hkept table
    have hkept' : (results.put table (before ++ [stripped around]) around).Kept := by
      rw [Results.Kept] at hkept ⊢
      simp only [Results.put, length_append, length_singleton]
      omega
    obtain ⟨final, hfinal, hkeptFinal, hlen, hmore, heach⟩ := ih hkept'
    have hput : (results.put table (before ++ [stripped around]) around).contexts.length =
        results.contexts.length + before.length + 1 := by
      simp only [Results.put, length_append, length_singleton]
      omega
    rw [hput] at hlen hmore
    simp only [length_cons, exists_mem_cons_iff, forall_mem_cons]
    refine ⟨final, ?_, hkeptFinal, by omega, ?_, ?_⟩
    · rw [foldlM_cons, hadd]
      exact hfinal
    · rintro (hbare | hrest)
      · rcases hbefore with ⟨-, rfl⟩ | ⟨hnot, -⟩
        · simp only [length_singleton] at hlen
          omega
        · exact absurd hbare hnot
      · have hlt := hmore hrest
        omega
    · rintro ⟨hnot, hrest⟩
      rcases hbefore with ⟨hbare, -⟩ | ⟨-, rfl⟩
      · exact absurd hbare hnot
      · obtain ⟨arounds, harounds, hcontexts, hres⟩ := heach hrest
        refine ⟨around :: arounds, by simpa using harounds, ?_, ?_⟩
        · rw [hcontexts, Results.put, map_cons, nil_append, append_assoc]
          rfl
        · rw [hres, Results.put, zipWith_cons_cons, append_assoc]
          rfl

def OneEach (tokens : String → Nat) (number : String → Option C) (size : Int) (sections : List (Section C))
    (tabls : List (Table I C)) : Prop :=
  ∃ arounds : List (String × String), arounds.length = tabls.length ∧
    appendContext2table tokens number size sections tabls true = some (.contexts (arounds.map stripped)) ∧
    appendContext2table tokens number size sections tabls false =
      some (.tables (zipWith Table.within tabls arounds))

def sampleTable : Table Nat Nat := ⟨7, .whole "T", [(0, ⟨0, 1, 2, 3⟩)], by simp⟩

def sampleSection (txt : String) : Section Nat := ⟨txt, .list [(.number 0, ⟨0, 1, 0, 1⟩)]⟩

end MultiRag.TableContext
