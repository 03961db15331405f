/-
  **`root_chunk_as_heading`: the first chunk in front of the others.**

  The text of the first chunk is put in front of every other chunk, whatever group the
  first one comes from.  `Leads` says that it comes from records before the first heading:
  by the hierarchy as long as the document does not begin with one (`recordGroups_leads`),
  by the groups where a media record or enough text precedes it (`groupRecords_leads`).
  The groups lose and reorder nothing (`groupRecords_grouped`).
-/
import Mathlib.Algebra.GroupWithZero.Nat
import Mathlib.Data.List.TakeWhile
import MultiRag.Json
import MultiRag.TitleHierarchy

namespace MultiRag.TitleChunker

open TreeMerge Node List

/-! ### `build_chunks_from_record_groups` -/

def chunkText (removeTag : String → String) (plain : Bool) (records : List LineRecord) : String :=
  let text := String.join (records.map (·.text ++ "\n"))
  match records with
  | [] => ""
  | first :: _ => if plain then text else if first.docTypeKwd = "text" then removeTag text else first.text

/-- The texts of the chunks; `plain` is an output format that is Markdown, text or HTML. -/
def buildChunks (removeTag : String → String) (plain rootChunkAsHeading : Bool)
    (groups : List (List LineRecord)) : List String :=
  let texts := (groups.filter (· ≠ [])).map (chunkText removeTag plain)
  match texts with
  | rootText :: _ :: _ =>
    if rootChunkAsHeading ∧ plain = false then texts.tail.map (rootText ++ "\n" ++ ·) else texts
  | _ => texts

/-! ### `GroupTitleChunker` -/

def sectionIds (target : Option Int) (sid : Nat) : List Int → List Nat
  | [] => []
  | level :: levels =>
    let sid := if target.any (level ≤ ·) then sid + 1 else sid
    sid :: sectionIds target sid levels

def buildSectionIds (target : Option Int) : List Int → List Nat
  | [] => []
  | _ :: levels => 0 :: sectionIds target 0 levels

def resolveGroupTargetLevel (levels : List Int) (hierarchy : Int) (mostLevel : Option Int) : Option Int :=
  if 0 < hierarchy then resolveTargetLevel levels hierarchy else mostLevel

/-- `last_sid` is `none` where the source has -2. -/
structure Grouping where
  groups : List (List LineRecord)
  tkCnt : Nat
  lastSid : Option Nat

def Grouping.push (numTokens : String → Nat) (state : Grouping) (record : LineRecord) (sid : Nat) : Grouping :=
  if record.docTypeKwd ≠ "text" then ⟨state.groups ++ [[record]], 0, none⟩
  else if isBlank record.text then state
  else
    let last := state.groups.getLastD []
    let tokens := numTokens record.text
    if last.head?.any (·.docTypeKwd = "text") ∧
        (state.tkCnt < 32 ∨ state.tkCnt < 1024 ∧ some sid = state.lastSid) then
      ⟨state.groups.dropLast ++ [last ++ [record]], state.tkCnt + tokens, some sid⟩
    else ⟨state.groups ++ [[record]], tokens, some sid⟩

def groupRecords (numTokens : String → Nat) (target : Option Int) (lines : List (Int × LineRecord)) :
    List (List LineRecord) :=
  ((lines.zip (buildSectionIds target (lines.map Prod.fst))).foldl
    (fun state line => Grouping.push numTokens state line.1.2 line.2) ⟨[], 0, none⟩).groups

/-! ### The first group -/

/-- The first group comes from the records of `front`. -/
def Leads (front : List (Int × LineRecord)) (groups : List (List LineRecord)) : Prop :=
  ∀ root rest, groups = root :: rest → root ≠ [] ∧ root.Sublist (front.map Prod.snd)

section

variable (numTokens : String → Nat) (target : Option Int)

def tokensOf (lines : List (Int × LineRecord)) : Nat :=
  (lines.map fun line =>
    if line.2.docTypeKwd = "text" ∧ isBlank line.2.text = false then numTokens line.2.text else 0).sum

/-- Blank records are passed over, whatever their level. -/
def isHeading (line : Int × LineRecord) : Bool :=
  line.2.docTypeKwd = "text" ∧ isBlank line.2.text = false ∧ target.any (line.1 ≤ ·)

/-- The first group comes from `front` and does not grow any more. -/
def Closed (front : List (Int × LineRecord)) (groups : List (List LineRecord)) : Prop :=
  ∃ root rest, groups = root :: rest ∧ root ≠ [] ∧ root.Sublist (front.map Prod.snd) ∧
    (rest ≠ [] ∨ ∀ first ∈ root.head?, first.docTypeKwd ≠ "text")

/-- What is known when the records of `front` have been read: no group, one that may grow, or a
    closed one. -/
inductive Read (front : List (Int × LineRecord)) (sid : Nat) (state : Grouping) : Prop
  | none : state.groups = [] → (∀ line ∈ front, line.2.docTypeKwd = "text") →
      tokensOf numTokens front = 0 → Read front sid state
  | one {root : List LineRecord} {s : Nat} : state.groups = [root] →
      (∀ line ∈ front, line.2.docTypeKwd = "text") → root ≠ [] → root.Sublist (front.map Prod.snd) →
      state.tkCnt = tokensOf numTokens front → state.lastSid = some s → s ≤ sid → Read front sid state
  | closed : Closed front state.groups → Read front sid state

variable {numTokens target} {front : List (Int × LineRecord)} {sid sid' : Nat} {state : Grouping}
  {groups : List (List LineRecord)}

theorem Closed.leads (h : Closed front groups) : Leads front groups := by
  rintro root' rest' heq
  obtain ⟨root, rest, rfl, hne, hsub, -⟩ := h
  obtain ⟨rfl, -⟩ := List.cons.inj heq
  exact ⟨hne, hsub⟩

theorem Read.leads (h : Read numTokens front sid state) : Leads front state.groups := by
  rintro root rest hgroups
  cases h with
  | none hnone =>
    rw [hnone] at hgroups
    cases hgroups
  | one hone _ hne hsub =>
    rw [hone] at hgroups
    obtain ⟨rfl, -⟩ := List.cons.inj hgroups
    exact ⟨hne, hsub⟩
  | closed hclosed => exact hclosed.leads root rest hgroups

/-- A record is a group of its own or grows the last one. -/
theorem push_cases (numTokens : String → Nat) (state : Grouping) (record : LineRecord) (sid : Nat) :
    (state.push numTokens record sid).groups = state.groups ∨
    (state.push numTokens record sid).groups = state.groups ++ [[record]] ∨
    (∀ first ∈ (state.groups.getLastD []).head?, first.docTypeKwd = "text") ∧
      (state.push numTokens record sid).groups =
        state.groups.dropLast ++ [state.groups.getLastD [] ++ [record]] := by
  unfold Grouping.push
  split
  · exact .inr (.inl rfl)
  · split
    · exact .inl rfl
    · dsimp only
      split
      · next hmerge =>
        refine .inr (.inr ⟨?_, rfl⟩)
        intro first hfirst
        have htext := hmerge.1
        rw [hfirst] at htext
        simpa using htext
      · exact .inr (.inl rfl)

theorem Closed.push (h : Closed front state.groups) (record : LineRecord) :
    Closed front (state.push numTokens record sid').groups := by
  obtain ⟨root, rest, hgroups, hne, hsub, hlast⟩ := h
  rcases push_cases numTokens state record sid' with hsame | hown | ⟨htext, hmerged⟩
  · rw [hsame]
    exact ⟨root, rest, hgroups, hne, hsub, hlast⟩
  · rw [hown, hgroups]
    exact ⟨root, rest ++ [[record]], rfl, hne, hsub, .inl (by simp)⟩
  · rw [hgroups] at htext hmerged
    have hrest : rest ≠ [] := by
      rintro rfl
      obtain ⟨first, others, rfl⟩ := exists_cons_of_ne_nil hne
      exact hlast.resolve_left (fun hne => hne rfl) first rfl (htext first rfl)
    rw [hmerged, dropLast_cons_of_ne_nil hrest]
    exact ⟨root, _, rfl, hne, hsub, .inl (by simp)⟩

theorem Closed.mono (h : Closed front groups) (line : Int × LineRecord) :
    Closed (front ++ [line]) groups := by
  obtain ⟨root, rest, hgroups, hne, hsub, hlast⟩ := h
  refine ⟨root, rest, hgroups, hne, hsub.trans ?_, hlast⟩
  rw [map_append]
  exact sublist_append_left _ _

theorem Closed.run (h : Closed front state.groups) (lines : List ((Int × LineRecord) × Nat)) :
    Closed front (lines.foldl (fun state line => state.push numTokens line.1.2 line.2) state).groups := by
  induction lines generalizing state with
  | nil => exact h
  | cons line lines ih => exact ih (h.push line.1.2)

theorem tokensOf_append (line : Int × LineRecord) :
    tokensOf numTokens (front ++ [line]) = tokensOf numTokens front + tokensOf numTokens [line] := by
  simp [tokensOf]

variable {record : LineRecord}

theorem Grouping.push_media (h : record.docTypeKwd ≠ "text") :
    state.push numTokens record sid = ⟨state.groups ++ [[record]], 0, none⟩ := if_pos h

theorem Grouping.push_blank (h : record.docTypeKwd = "text")
    (hblank : isBlank record.text = true) : state.push numTokens record sid = state := by
  rw [Grouping.push, if_neg (not_not.mpr h), if_pos hblank]

section

variable (h : Read numTokens front sid state)
include h

theorem Read.push (hsid : sid ≤ sid') (line : Int × LineRecord) :
    Read numTokens (front ++ [line]) sid' (state.push numTokens line.2 sid') := by
  have htokens := @tokensOf_append numTokens front line
  have hgrown : ∀ {root : List LineRecord}, root.Sublist (front.map Prod.snd) →
      (root ++ [line.2]).Sublist ((front ++ [line]).map Prod.snd) := by
    intro root hsub
    rw [map_append]
    exact hsub.append (Sublist.refl _)
  have hkept : ∀ {root : List LineRecord}, root.Sublist (front.map Prod.snd) → root.Sublist ((front ++ [line]).map Prod.snd) :=
    fun hsub => (sublist_append_left _ _).trans (hgrown hsub)
  by_cases hclosed : Closed front state.groups
  · exact Read.closed ((hclosed.push line.2).mono line)
  by_cases htext : line.2.docTypeKwd = "text"
  · have htexts : (∀ line ∈ front, line.2.docTypeKwd = "text") →
        ∀ line' ∈ front ++ [line], line'.2.docTypeKwd = "text" := by
      intro hfront line' hline'
      rcases mem_append.mp hline' with hold | hnew
      · exact hfront line' hold
      · rwa [mem_singleton.mp hnew]
    by_cases hblank : isBlank line.2.text = true
    · have hnone : tokensOf numTokens [line] = 0 := by simp [tokensOf, hblank]
      rw [Grouping.push_blank htext hblank]
      cases h with
      | none hnone' hfront hzero => exact Read.none hnone' (htexts hfront) (by omega)
      | one hone hfront hne hsub htk hlast hs =>
        exact Read.one hone (htexts hfront) hne (hkept hsub) (by omega) hlast (hs.trans hsid)
      | closed h => exact absurd h hclosed
    · have hsome : tokensOf numTokens [line] = numTokens line.2.text := by simp [tokensOf, htext, hblank]
      rw [Grouping.push, if_neg (not_not.mpr htext), if_neg hblank]
      cases h with
      | none hnone hfront hzero =>
        rw [if_neg (by simp [hnone]), hnone]
        refine Read.one rfl (htexts hfront) (cons_ne_nil _ []) (hgrown (nil_sublist _)) ?_ rfl
          le_rfl
        rw [htokens, hzero, hsome, Nat.zero_add]
      | one hone hfront hne hsub htk hlast hs =>
        dsimp only
        split
        · rw [hone]
          refine Read.one rfl (htexts hfront) (by simp) (hgrown hsub) ?_ rfl le_rfl
          rw [htokens, hsome, htk]
        · exact Read.closed ⟨_, [[line.2]], by rw [hone]; rfl, hne, hkept hsub, .inl (by simp)⟩
      | closed h => exact absurd h hclosed
  · rw [Grouping.push_media htext]
    cases h with
    | none hnone _ _ =>
      refine Read.closed ⟨[line.2], [], by rw [hnone]; rfl, by simp, hgrown (nil_sublist _), .inr ?_⟩
      simpa using htext
    | one hone _ hne hsub =>
      exact Read.closed ⟨_, [[line.2]], by rw [hone]; rfl, hne, hkept hsub, .inl (by simp)⟩
    | closed h => exact absurd h hclosed

/-- A heading does not grow a first group of 32 tokens. -/
theorem Read.cut (hsid : sid < sid') {line : Int × LineRecord}
    (hhead : isHeading target line = true)
    (hcut : (∃ line ∈ front, line.2.docTypeKwd ≠ "text") ∨ 32 ≤ tokensOf numTokens front) :
    Closed front (state.push numTokens line.2 sid').groups := by
  simp only [isHeading, Bool.decide_and, Bool.and_eq_true, decide_eq_true_eq] at hhead
  obtain ⟨htext, hblank, -⟩ := hhead
  cases h with
  | none _ htexts htokens =>
    rcases hcut with ⟨media, hmedia, hno⟩ | hmany
    · exact absurd (htexts media hmedia) hno
    · omega
  | @one root s hone htexts hne hsub htokens hlast hs =>
    have hmany : 32 ≤ state.tkCnt := by
      rcases hcut with ⟨media, hmedia, hno⟩ | hmany
      · exact absurd (htexts media hmedia) hno
      · rwa [htokens]
    have hsame : some sid' ≠ state.lastSid := by
      rw [hlast, Ne, Option.some.injEq]
      omega
    have hpush : (state.push numTokens line.2 sid').groups = [root] ++ [[line.2]] := by
      rw [Grouping.push, if_neg (not_not.mpr htext), if_neg (by simp [hblank]), ← hone]
      rw [if_neg]
      rintro ⟨-, hfew | ⟨-, hsid⟩⟩
      · omega
      · exact hsame hsid
    exact ⟨root, [[line.2]], hpush, hne, hsub, .inl (by simp)⟩
  | closed hclosed => exact hclosed.push line.2

theorem Read.run {lines : List (Int × LineRecord)}
    (hcut : (∀ line ∈ lines, isHeading target line = false) ∨
      (∃ line ∈ front ++ lines.takeWhile (!isHeading target ·), line.2.docTypeKwd ≠ "text") ∨
      32 ≤ tokensOf numTokens (front ++ lines.takeWhile (!isHeading target ·))) :
    Leads (front ++ lines.takeWhile (!isHeading target ·))
      ((lines.zip (sectionIds target sid (lines.map Prod.fst))).foldl
        (fun state line => state.push numTokens line.1.2 line.2) state).groups := by
  induction lines generalizing front sid state with
  | nil => simpa using h.leads
  | cons line lines ih =>
    rw [map_cons, sectionIds, zip_cons_cons, foldl_cons]
    have hsid : sid ≤ if target.any (line.1 ≤ ·) then sid + 1 else sid := by split <;> omega
    by_cases hhead : isHeading target line = true
    · have hnext : (line :: lines).takeWhile (!isHeading target ·) = [] := by simp [hhead]
      rw [hnext, append_nil] at hcut ⊢
      have habove : target.any (line.1 ≤ ·) = true := by
        simp only [isHeading, Bool.decide_and, Bool.and_eq_true, decide_eq_true_eq] at hhead
        exact hhead.2.2
      rw [if_pos habove]
      apply Closed.leads
      apply Closed.run
      apply h.cut (Nat.lt_succ_self sid) hhead
      apply hcut.resolve_left
      intro hnone
      rw [hnone line mem_cons_self] at hhead
      cases hhead
    · have hnext : front ++ (line :: lines).takeWhile (!isHeading target ·) =
          (front ++ [line]) ++ lines.takeWhile (!isHeading target ·) := by simp [hhead]
      rw [hnext] at hcut ⊢
      apply ih (h.push hsid line)
      exact hcut.imp_left fun hnone line' hline' => hnone line' (mem_cons_of_mem _ hline')

end

/-- The first group by titles is cut off before the first heading where there is none, or a media
    record or 32 tokens come before it. -/
theorem groupRecords_leads {lines : List (Int × LineRecord)}
    (hcut : (∀ line ∈ lines, isHeading target line = false) ∨
      (∃ line ∈ lines.takeWhile (!isHeading target ·), line.2.docTypeKwd ≠ "text") ∨
      32 ≤ tokensOf numTokens (lines.takeWhile (!isHeading target ·))) :
    Leads (lines.takeWhile (!isHeading target ·)) (groupRecords numTokens target lines) := by
  cases lines with
  | nil => exact nofun
  | cons line lines =>
    have hstart : Read numTokens [] 0 (⟨[], 0, none⟩ : Grouping) := Read.none rfl nofun rfl
    have hfirst := hstart.push (Nat.le_refl 0) line
    by_cases hhead : isHeading target line = true
    · exfalso
      have hnext : (line :: lines).takeWhile (!isHeading target ·) = [] := by simp [hhead]
      rw [hnext] at hcut
      rcases hcut with hnone | ⟨line', hline', -⟩ | hmany
      · rw [hnone line mem_cons_self] at hhead
        cases hhead
      · cases hline'
      · simp [tokensOf] at hmany
    · have hnext : (line :: lines).takeWhile (!isHeading target ·) =
          ([] ++ [line]) ++ lines.takeWhile (!isHeading target ·) := by simp [hhead]
      rw [hnext] at hcut ⊢
      apply hfirst.run
      exact hcut.imp_left fun hnone line' hline' => hnone line' (mem_cons_of_mem _ hline')

end

/-! ### The groups -/

section

variable (numTokens : String → Nat)

def IsText (records : List LineRecord) : Prop := ∀ record ∈ records, record.docTypeKwd = "text"

def groupTokens (group : List LineRecord) : Nat := (group.map (numTokens ·.text)).sum

/-- A media record alone, or text that is below the limit before its last record. -/
def IsGroup (group : List LineRecord) : Prop :=
  (∃ media, group = [media] ∧ media.docTypeKwd ≠ "text") ∨
    group ≠ [] ∧ IsText group ∧ groupTokens numTokens group.dropLast < 1024

structure Grouped (records : List LineRecord) (groups : List (List LineRecord)) : Prop where
  flat : groups.flatten = records.filter fun record => record.docTypeKwd ≠ "text" ∨ isBlank record.text = false
  group : ∀ group ∈ groups, IsGroup numTokens group
  /-- Text is not cut off from the text before it as long as that is short. -/
  cut : List.IsChain (fun group next => IsText group → IsText next → 32 ≤ groupTokens numTokens group) groups

/-- `tk_cnt` is the tokens of a last group of text. -/
def Grouping.Counted (state : Grouping) : Prop :=
  ∀ last ∈ state.groups.getLast?, IsText last → state.tkCnt = groupTokens numTokens last

variable {numTokens} {records last : List LineRecord} {groups : List (List LineRecord)} {record : LineRecord}
  {state : Grouping}

theorem IsGroup.text_iff (h : IsGroup numTokens last) :
    last.head?.any (·.docTypeKwd = "text") = true ↔ IsText last := by
  rcases h with ⟨media, rfl, hmedia⟩ | ⟨hne, hall, -⟩
  · simp [IsText, hmedia]
  · obtain ⟨first, others, rfl⟩ := exists_cons_of_ne_nil hne
    exact iff_of_true (by simp [hall first]) hall

theorem Grouped.own (h : Grouped numTokens records groups)
    (hkeep : record.docTypeKwd ≠ "text" ∨ isBlank record.text = false)
    (hlong : ∀ last ∈ groups.getLast?, IsText last → IsText [record] → 32 ≤ groupTokens numTokens last) :
    Grouped numTokens (records ++ [record]) (groups ++ [[record]]) := by
  refine ⟨by simp [h.flat, hkeep], ?_, ?_⟩
  · simp only [mem_append, mem_singleton]
    rintro group (hgroup | rfl)
    · exact h.group group hgroup
    · by_cases htext : record.docTypeKwd = "text"
      · exact .inr ⟨by simp, by simpa [IsText], by simp [groupTokens]⟩
      · exact .inl ⟨record, rfl, htext⟩
  · apply isChain_append.mpr ⟨h.cut, isChain_singleton _, ?_⟩
    rintro last hlast next ⟨⟩
    exact hlong last hlast

theorem Grouped.grow (h : Grouped numTokens records (groups ++ [last])) (hlast : IsText last)
    (hfew : groupTokens numTokens last < 1024) (htext : record.docTypeKwd = "text")
    (hblank : isBlank record.text = false) :
    Grouped numTokens (records ++ [record]) (groups ++ [last ++ [record]]) := by
  obtain ⟨hflat, hgroup, hcut⟩ := h
  refine ⟨?_, ?_, ?_⟩
  · rw [filter_append, ← hflat]
    simp [hblank]
  · simp only [mem_append, mem_singleton] at hgroup ⊢
    rintro group (hold | rfl)
    · exact hgroup group (.inl hold)
    · refine .inr ⟨by simp, ?_, by rwa [dropLast_concat]⟩
      simpa [IsText, or_imp, forall_and, htext] using hlast
  · obtain ⟨hinit, -, hnext⟩ := isChain_append.mp hcut
    refine isChain_append.mpr ⟨hinit, isChain_singleton _, ?_⟩
    rintro group hgroup next ⟨⟩ hall -
    exact hnext group hgroup last rfl hall hlast

theorem Grouped.push (h : Grouped numTokens records state.groups) (hcount : state.Counted numTokens)
    (record : LineRecord) (sid : Nat) :
    Grouped numTokens (records ++ [record]) (state.push numTokens record sid).groups ∧
      (state.push numTokens record sid).Counted numTokens := by
  by_cases htext : record.docTypeKwd = "text"
  · by_cases hblank : isBlank record.text = true
    · rw [Grouping.push_blank htext hblank]
      exact ⟨⟨by simp [h.flat, htext, hblank], h.group, h.cut⟩, hcount⟩
    · rw [Grouping.push, if_neg (not_not.mpr htext), if_neg hblank]
      have hkeep := Bool.eq_false_of_not_eq_true hblank
      dsimp only
      split
      · next hmerge =>
        obtain ⟨hhead, hfew⟩ := hmerge
        rcases eq_nil_or_concat' state.groups with hnil | ⟨init, last, hgroups⟩
        · simp [hnil] at hhead
        · rw [Grouping.Counted, hgroups, getLast?_concat] at hcount
          rw [hgroups] at h hhead ⊢
          rw [getLastD_concat] at hhead ⊢
          have htexts := (h.group last (by simp)).text_iff.mp hhead
          have htk := hcount last rfl htexts
          rw [dropLast_concat]
          refine ⟨h.grow htexts (by omega) htext hkeep, ?_⟩
          rw [Grouping.Counted, getLast?_concat]
          rintro _ ⟨⟩ -
          simp [groupTokens, htk]
      · next hmerge =>
        refine ⟨h.own (.inr hkeep) fun last hlast htexts _ => ?_, ?_⟩
        · obtain ⟨init, hgroups⟩ := getLast?_eq_some_iff.mp hlast
          have htk := hcount last hlast htexts
          have hhead := (h.group last (by simp [hgroups])).text_iff.mpr htexts
          rw [hgroups, getLastD_concat] at hmerge
          have hmany := mt (And.intro hhead) hmerge
          omega
        · rw [Grouping.Counted, getLast?_concat]
          rintro _ ⟨⟩ -
          simp [groupTokens]
  · rw [Grouping.push_media htext]
    have hmedia : ¬IsText [record] := fun hall => htext (hall record mem_cons_self)
    refine ⟨h.own (.inl htext) fun _ _ _ hall => absurd hall hmedia, ?_⟩
    rw [Grouping.Counted, getLast?_concat]
    rintro _ ⟨⟩ hall
    exact absurd hall hmedia

theorem length_sectionIds (target : Option Int) (sid : Nat) (levels : List Int) :
    (sectionIds target sid levels).length = levels.length := by
  induction levels generalizing sid with
  | nil => rfl
  | cons level levels ih => exact congrArg Nat.succ (ih _)

/-- The groups by titles hold every record but blank text, in order. -/
theorem groupRecords_grouped (numTokens : String → Nat) (target : Option Int) (lines : List (Int × LineRecord)) :
    Grouped numTokens (lines.map Prod.snd) (groupRecords numTokens target lines) := by
  have hrun (cut : List ((Int × LineRecord) × Nat)) :
      let state := cut.foldl (fun state line => Grouping.push numTokens state line.1.2 line.2) ⟨[], 0, none⟩
      Grouped numTokens ((cut.map Prod.fst).map Prod.snd) state.groups ∧ state.Counted numTokens := by
    induction cut using reverseRecOn with
    | nil => exact ⟨⟨rfl, nofun, isChain_nil⟩, nofun⟩
    | append_singleton cut line ih =>
      rw [foldl_append, map_append, map_append]
      exact ih.1.push ih.2 _ _
  have hids (levels : List Int) : (buildSectionIds target levels).length = levels.length := by
    cases levels with
    | nil => rfl
    | cons _ levels => exact congrArg Nat.succ (length_sectionIds target 0 levels)
  have hlines := (hrun (lines.zip (buildSectionIds target (lines.map Prod.fst)))).1
  rwa [map_fst_zip (by simp [hids])] at hlines

end

/-! ### The first path of the hierarchy -/

variable {inc : Bool} {hierarchy : Int} {run lines : List (Int × LineRecord)}

theorem recordGroups_eq : ∃ more, recordGroups inc hierarchy run lines =
    flushTextRecords inc hierarchy (run ++ lines.takeWhile (·.2.docTypeKwd = "text")) ++ more := by
  induction lines generalizing run with
  | nil => exact ⟨[], by simp [recordGroups]⟩
  | cons line lines ih =>
    rw [recordGroups]
    split
    · next htext =>
      obtain ⟨more, hmore⟩ := @ih (run ++ [line])
      exact ⟨more, by simp [hmore, htext]⟩
    · next hmedia => exact ⟨[line.2] :: recordGroups inc hierarchy [] lines, by simp [hmedia]⟩

/-- The first path of a run that does not begin with a heading is its records before the first one. -/
theorem runPaths_first (h : ∀ line ∈ run, 1 ≤ line.1) {depth : Int}
    (hdepth : (resolveTargetLevel (run.map Prod.fst) hierarchy).getD 0 = depth)
    (hfirst : ∃ line ∈ run.head?, depth < line.1) :
    ∃ path paths, runPaths inc hierarchy run = path :: paths ∧ path ≠ [] ∧
      path <+: finRange run.length ∧ ∀ i ∈ path, depth < run[i].1 := by
  obtain ⟨line, hline, hbody⟩ := hfirst
  obtain ⟨rest, rfl⟩ : ∃ rest, run = line :: rest := by simpa [head?_eq_some_iff] using hline
  rw [runPaths]
  split
  · next hnone =>
    rw [hnone] at hdepth
    subst hdepth
    exact ⟨_, [], rfl, by simp, prefix_rfl, fun i _ => h _ (getElem_mem _)⟩
  · next target htarget =>
    rw [htarget] at hdepth
    obtain rfl : target = depth := hdepth
    have hroot := rootOf_runTree (one_le_target htarget) h
    have hflatten := @flatten_runTree (line :: rest) target
    generalize runTree (line :: rest) target = root at hroot hflatten
    rw [flatten_eq] at hflatten
    have hne : root.texts ≠ [] := by
      intro hempty
      have hpositions : finRange (line :: rest).length = ⟨0, Nat.succ_pos _⟩ :: _ := finRange_succ
      rw [hempty, nil_append, hpositions] at hflatten
      cases hchildren : root.children with
      | nil =>
        rw [hchildren] at hflatten
        cases hflatten
      | cons child children =>
        rw [hchildren, flatMap_cons] at hflatten
        cases hroot.sections child (hchildren ▸ mem_cons_self) with
        | mk hlow hhigh =>
          rw [flatten_eq] at hflatten
          obtain ⟨rfl, -⟩ := List.cons.inj hflatten
          exact absurd hbody (Int.not_lt.mpr hhigh)
    refine ⟨root.texts, (root.children.flatMap (dfs inc target [])).filter (· ≠ []), ?_, hne,
      ⟨_, hflatten⟩, hroot.bodies⟩
    rw [getPaths_eq hroot, if_pos hne, singleton_append, filter_cons_of_pos (by simpa using hne)]

/-- The target level of the text records that a document begins with, 0 where none of them is a title. -/
def firstTarget (hierarchy : Int) (lines : List (Int × LineRecord)) : Int :=
  (resolveTargetLevel ((lines.takeWhile (·.2.docTypeKwd = "text")).map Prod.fst) hierarchy).getD 0

def isTitle (target : Int) (line : Int × LineRecord) : Bool := line.2.docTypeKwd = "text" ∧ line.1 ≤ target

theorem recordGroups_leads (h : ∀ line ∈ lines, 1 ≤ line.1)
    (hfirst : ∀ line ∈ lines.head?, isTitle (firstTarget hierarchy lines) line = false) :
    ∃ front, front <+: lines ∧ (∀ line ∈ front, isTitle (firstTarget hierarchy lines) line = false) ∧
      Leads front (recordGroups inc hierarchy [] lines) := by
  cases lines with
  | nil => exact ⟨[], prefix_rfl, nofun, nofun⟩
  | cons line lines =>
    by_cases htext : line.2.docTypeKwd = "text"
    · have hrun : ((line :: lines).takeWhile (·.2.docTypeKwd = "text")).head? = some line := by simp [htext]
      have hbody : firstTarget hierarchy (line :: lines) < line.1 := by
        simpa [isTitle, htext] using hfirst line rfl
      have hsub := @List.takeWhile_prefix _ (line :: lines) fun line => decide (line.2.docTypeKwd = "text")
      obtain ⟨more, hgroups⟩ := @recordGroups_eq inc hierarchy [] (line :: lines)
      rw [nil_append] at hgroups
      generalize hof : (line :: lines).takeWhile (·.2.docTypeKwd = "text") = run at hrun hsub hgroups
      obtain ⟨path, paths, hpaths, hne, hpath, hbodies⟩ := @runPaths_first inc hierarchy run
        (fun line' hline' => h line' (hsub.subset hline')) _ (by rw [← hof]; rfl) ⟨line, hrun, hbody⟩
      refine ⟨path.map fun i => run[i], ?_, ?_, ?_⟩
      · have hall : (finRange run.length).map (fun i => run[i]) = run := map_getElem_finRange run
        have hmap := hpath.map fun i => run[i]
        rw [hall] at hmap
        exact hmap.trans hsub
      · intro line' hline'
        obtain ⟨i, hi, rfl⟩ := mem_map.mp hline'
        have hdeep := hbodies i hi
        simp only [isTitle, decide_eq_false_iff_not, not_and, not_le]
        exact fun _ => hdeep
      · rintro root rest hroot
        have hempty : run ≠ [] := by
          rintro rfl
          cases hrun
        rw [hgroups, flushTextRecords, if_neg hempty, hpaths, map_cons, cons_append] at hroot
        obtain ⟨rfl, -⟩ := List.cons.inj hroot
        refine ⟨by simpa using hne, ?_⟩
        rw [map_map]
        exact Sublist.refl _
    · refine ⟨[line], ⟨lines, rfl⟩, ?_, ?_⟩
      · intro line' hline'
        rw [mem_singleton.mp hline', isTitle]
        simp [htext]
      · rintro root rest hgroups
        rw [recordGroups, if_neg htext, flushTextRecords, if_pos rfl, nil_append] at hgroups
        obtain ⟨rfl, -⟩ := List.cons.inj hgroups
        exact ⟨cons_ne_nil _ _, Sublist.refl _⟩

/-! ### The text in front of the chunks -/

/-- Either no text is put in front, or that of records before the first heading. -/
def RootInFront (removeTag : String → String) (plain : Bool) (heading : Int × LineRecord → Bool)
    (lines : List (Int × LineRecord)) (groups : List (List LineRecord)) : Prop :=
  buildChunks removeTag plain true groups = (groups.filter (· ≠ [])).map (chunkText removeTag plain) ∨
    ∃ root rest front, groups = root :: rest ∧ front <+: lines ∧ (∀ line ∈ front, heading line = false) ∧
      root.Sublist (front.map Prod.snd) ∧
      buildChunks removeTag plain true groups = (rest.filter (· ≠ [])).map fun group =>
        chunkText removeTag plain root ++ "\n" ++ chunkText removeTag plain group

theorem rootInFront (removeTag : String → String) (plain : Bool) {heading : Int × LineRecord → Bool}
    {front : List (Int × LineRecord)} {groups : List (List LineRecord)} (hfront : front <+: lines)
    (hnone : ∀ line ∈ front, heading line = false) (hleads : Leads front groups) :
    RootInFront removeTag plain heading lines groups := by
  cases groups with
  | nil => exact .inl rfl
  | cons root rest =>
    obtain ⟨hne, hsub⟩ := hleads root rest rfl
    rw [RootInFront, buildChunks, filter_cons_of_pos (by simpa using hne), map_cons]
    cases hrest : rest.filter (· ≠ []) with
    | nil => exact .inl rfl
    | cons next later =>
      by_cases hplain : plain = false
      · refine .inr ⟨root, rest, front, rfl, hfront, hnone, hsub, ?_⟩
        rw [hrest]
        simp [hplain, Function.comp_def]
      · simp [hplain]

def rooted : List (Int × LineRecord) :=
  [(bodyLevel, ⟨"root", "text"⟩), (1, ⟨"1 A", "text"⟩), (bodyLevel, ⟨"a", "text"⟩), (1, ⟨"2 B", "text"⟩)]

end MultiRag.TitleChunker
