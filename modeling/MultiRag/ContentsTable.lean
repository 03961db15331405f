/-
  **Removing a table of contents: `remove_contents_table`** (`core/nlp/__init__.py`).

  The loop takes out a heading such as "contents", the blank sections after it and the
  first entry; then it looks for the next section that starts like this entry, and takes
  out what stands before it.  The list here is `sections[i:]`: what stands before is
  neither read nor changed again.

  The start of the entry is used as a regular expression.  What `re` makes of a text is
  a parameter: `none` where it raises an exception.
-/
import MultiRag.PyNumerals
import MultiRag.PyText
import MultiRag.Regex

namespace MultiRag.ContentsTable

open Regex List

/-! ### Sections -/

inductive Section (R : Type) where
  | text (txt : String)
  | tuple (txt : String) (rest : R)

inductive Raised where
  | popFromEmptyList
  | badPattern

variable {R : Type}

def Section.get : Section R → String
  | text txt => pyStrip txt
  | tuple txt _ => pyStrip txt

def beforeTag : List Char → List Char
  | '@' :: '@' :: _ => []
  | c :: rest => c :: beforeTag rest
  | [] => []

def headingPattern : Regex :=
  seq (oneOfAll [lit "contents", lit "目录", lit "目次", lit "table of contents", lit "致谢", lit "acknowledge"]) atEnd

def removeSpaces (text : String) : String := (plus (alt (char ' ') (alt (char ' ') (char (Char.ofNat 0x3000))))).remove text

@[irreducible] def isHeading (sec : Section R) : Bool :=
  headingPattern.isMatch (removeSpaces (String.ofList (beforeTag sec.get.toList)))

def firstWords (text : String) : String :=
  " ".intercalate ((((text.toList.splitOnP isPySpace).filter (· ≠ [])).map String.ofList).take 2)

section

variable (compile : String → Option (String → Bool)) (eng : Bool)

def entryStart (sec : Section R) : String :=
  if eng then firstWords sec.get else String.ofList (sec.get.toList.take 3)

/-- The sections from the next one on that starts like the entry; it is one of the next 128. -/
def search (isStart : String → Bool) (sections : List (Section R)) : List (Section R) :=
  match (sections.take 128).findIdx? fun sec => isStart sec.get with
  | some j => sections.drop j
  | none => sections

def afterHeading (sections : List (Section R)) : Except Raised (List (Section R)) :=
  if sections = [] then .ok []
  else match sections.dropWhile (entryStart eng · = "") with
    | [] => .error .popFromEmptyList
    | entry :: rest =>
      if rest = [] then .ok []
      else match compile (entryStart eng entry) with
        | none => .error .badPattern
        | some isStart => .ok (search isStart rest)

theorem search_sublist (isStart : String → Bool) (sections : List (Section R)) :
    (search isStart sections).Sublist sections := by
  rw [search]
  split
  · exact drop_sublist _ _
  · exact Sublist.refl _

variable {sections next : List (Section R)}

theorem afterHeading_sublist (h : afterHeading compile eng sections = .ok next) :
    next.Sublist sections := by
  rw [afterHeading] at h
  split at h
  · obtain rfl := Except.ok.inj h
    exact nil_sublist _
  · split at h
    · cases h
    · next entry rest hrest =>
      have hsub : rest.Sublist sections :=
        (sublist_cons_self entry rest).trans (hrest ▸ dropWhile_sublist _)
      split at h
      · obtain rfl := Except.ok.inj h
        exact nil_sublist _
      · split at h
        · cases h
        · obtain rfl := Except.ok.inj h
          exact (search_sublist _ _).trans hsub

/-- The loop, from position `i` on. -/
def removeFrom : List (Section R) → Except Raised (List (Section R))
  | [] => .ok []
  | sec :: rest =>
    if isHeading sec then
      match _hnext : afterHeading compile eng rest with
      | .error raised => .error raised
      | .ok next => removeFrom next
    else (removeFrom rest).map (sec :: ·)
termination_by sections => sections.length
decreasing_by
  · have hle := (afterHeading_sublist compile eng _hnext).length_le
    simp only [length_cons]
    omega
  · simp

def removeContentsTable (sections : List (Section R)) : Except Raised (List (Section R)) :=
  removeFrom compile eng sections

/-! ### Rounds -/

def IsBlank (sec : Section R) : Prop := entryStart eng sec = ""

instance (sec : Section R) : Decidable (IsBlank eng sec) := inferInstanceAs (Decidable (_ = _))

/-- A round of the loop: the section is no heading, or all up to the next start of the entry goes. -/
inductive Next : List (Section R) → List (Section R) → Prop where
  | pass {sec : Section R} {rest : List (Section R)} (hheading : ¬ isHeading sec) : Next (sec :: rest) rest
  | alone {sec : Section R} (hheading : isHeading sec) : Next [sec] []
  | last {sec entry : Section R} {blanks : List (Section R)} (hheading : isHeading sec)
      (hblanks : ∀ blank ∈ blanks, IsBlank eng blank) (hentry : ¬ IsBlank eng entry) :
      Next (sec :: (blanks ++ [entry])) []
  | jump {sec entry : Section R} {blanks rest : List (Section R)} {isStart : String → Bool} (hheading : isHeading sec)
      (hblanks : ∀ blank ∈ blanks, IsBlank eng blank) (hentry : ¬ IsBlank eng entry) (hrest : rest ≠ [])
      (hcompile : compile (entryStart eng entry) = some isStart) :
      Next (sec :: (blanks ++ entry :: rest)) (search isStart rest)

/-- A heading with blank sections after it and nothing else, or with an entry whose start is no pattern. -/
inductive Fails : List (Section R) → Prop where
  | blanks {sec : Section R} {blanks : List (Section R)} (hheading : isHeading sec) (hne : blanks ≠ [])
      (hblanks : ∀ blank ∈ blanks, IsBlank eng blank) : Fails (sec :: blanks)
  | pattern {sec entry : Section R} {blanks rest : List (Section R)} (hheading : isHeading sec)
      (hblanks : ∀ blank ∈ blanks, IsBlank eng blank) (hentry : ¬ IsBlank eng entry) (hrest : rest ≠ [])
      (hcompile : compile (entryStart eng entry) = none) : Fails (sec :: (blanks ++ entry :: rest))

variable {compile eng} {blanks : List (Section R)}

theorem afterHeading_blanks (hne : blanks ≠ []) (hblanks : ∀ blank ∈ blanks, IsBlank eng blank) :
    afterHeading compile eng blanks = .error .popFromEmptyList := by
  have hdrop : blanks.dropWhile (entryStart eng · = "") = [] := by
    rw [dropWhile_eq_nil_iff]
    intro blank hblank
    exact decide_eq_true (hblanks blank hblank)
  rw [afterHeading, if_neg hne, hdrop]

variable {rest : List (Section R)}

theorem afterHeading_entry {entry : Section R} (hblanks : ∀ blank ∈ blanks, IsBlank eng blank)
    (hentry : ¬ IsBlank eng entry) :
    afterHeading compile eng (blanks ++ entry :: rest) =
      if rest = [] then .ok []
      else match compile (entryStart eng entry) with
        | none => .error .badPattern
        | some isStart => .ok (search isStart rest) := by
  have hdrop : (blanks ++ entry :: rest).dropWhile (entryStart eng · = "") = entry :: rest := by
    rw [dropWhile_append_of_pos, dropWhile_cons_of_neg]
    · simpa [IsBlank] using hentry
    · intro blank hblank
      exact decide_eq_true (hblanks blank hblank)
  rw [afterHeading, if_neg (by simp), hdrop]

theorem exists_blanks (eng : Bool) (sections : List (Section R)) :
    (∀ sec ∈ sections, IsBlank eng sec) ∨
      ∃ blanks entry rest, sections = blanks ++ entry :: rest ∧ (∀ blank ∈ blanks, IsBlank eng blank) ∧
        ¬ IsBlank eng entry := by
  induction sections with
  | nil => simp
  | cons sec sections ih =>
    by_cases hblank : IsBlank eng sec
    · rcases ih with hall | ⟨blanks, entry, rest, rfl, hblanks, hentry⟩
      · left
        exact forall_mem_cons.mpr ⟨hblank, hall⟩
      · right
        exact ⟨sec :: blanks, entry, rest, rfl, forall_mem_cons.mpr ⟨hblank, hblanks⟩, hentry⟩
    · right
      exact ⟨[], sec, sections, rfl, by simp, hblank⟩

theorem round_cases (compile : String → Option (String → Bool)) (eng : Bool) (sec : Section R)
    (rest : List (Section R)) : (∃ next, Next compile eng (sec :: rest) next) ∨ Fails compile eng (sec :: rest) := by
  by_cases hhead : isHeading sec
  · rcases exists_blanks eng rest with hall | ⟨blanks, entry, rest, rfl, hblanks, hentry⟩
    · by_cases hne : rest = []
      · subst hne
        left
        exact ⟨[], .alone hhead⟩
      · right
        exact .blanks hhead hne hall
    · by_cases hrest : rest = []
      · subst hrest
        left
        exact ⟨[], .last hhead hblanks hentry⟩
      · cases hcompile : compile (entryStart eng entry) with
        | none =>
          right
          exact .pattern hhead hblanks hentry hrest hcompile
        | some isStart =>
          left
          exact ⟨_, .jump hhead hblanks hentry hrest hcompile⟩
  · left
    exact ⟨rest, .pass hhead⟩

variable {sec : Section R}

theorem removeFrom_heading (hhead : isHeading sec)
    (hnext : afterHeading compile eng rest = .ok next) :
    removeFrom compile eng (sec :: rest) = removeFrom compile eng next := by
  rw [removeFrom, if_pos hhead]
  split
  · next hraised =>
    rw [hnext] at hraised
    cases hraised
  · next hfound =>
    rw [hnext] at hfound
    obtain rfl := Except.ok.inj hfound
    rfl

theorem removeFrom_raised {raised : Raised} (hhead : isHeading sec)
    (hnext : afterHeading compile eng rest = .error raised) :
    removeFrom compile eng (sec :: rest) = .error raised := by
  rw [removeFrom, if_pos hhead]
  split
  · next hraised =>
    rw [hnext] at hraised
    exact hraised.symm
  · next hfound =>
    rw [hnext] at hfound
    cases hfound

/-- Nothing is raised. -/
def Finishes (compile : String → Option (String → Bool)) (eng : Bool) (sections : List (Section R)) : Prop :=
  ∃ left, removeFrom compile eng sections = .ok left

theorem finishes_next (h : Next compile eng sections next) :
    Finishes compile eng sections ↔ Finishes compile eng next := by
  cases h with
  | @pass sec rest hhead =>
    rw [Finishes, removeFrom, if_neg hhead]
    constructor
    · rintro ⟨left, hleft⟩
      cases hrest : removeFrom compile eng next with
      | error raised =>
        rw [hrest] at hleft
        cases hleft
      | ok left => exact ⟨left, hrest⟩
    · rintro ⟨left, hleft⟩
      exact ⟨sec :: left, by rw [hleft]; rfl⟩
  | @alone sec hhead =>
    rw [Finishes, removeFrom_heading hhead]
    · rfl
    · rw [afterHeading, if_pos rfl]
  | @last sec entry blanks hhead hblanks hentry =>
    rw [Finishes, removeFrom_heading hhead]
    · rfl
    · rw [afterHeading_entry hblanks hentry, if_pos rfl]
  | @jump sec entry blanks rest isStart hhead hblanks hentry hrest hcompile =>
    have hnext : afterHeading compile eng (blanks ++ entry :: rest) = .ok (search isStart rest) := by
      rw [afterHeading_entry hblanks hentry, if_neg hrest, hcompile]
    rw [Finishes, removeFrom_heading hhead hnext]
    rfl

theorem not_finishes (h : Fails compile eng sections) :
    ¬ Finishes compile eng sections := by
  rintro ⟨left, hleft⟩
  cases h with
  | blanks hhead hne hblanks =>
    rw [removeFrom_raised hhead (afterHeading_blanks hne hblanks)] at hleft
    cases hleft
  | @pattern sec entry blanks rest hhead hblanks hentry hrest hcompile =>
    have hraised : afterHeading compile eng (blanks ++ entry :: rest) = .error .badPattern := by
      rw [afterHeading_entry hblanks hentry, if_neg hrest, hcompile]
    rw [removeFrom_raised hhead hraised] at hleft
    cases hleft

theorem next_length (h : Next compile eng sections next) :
    next.length < sections.length := by
  cases h with
  | pass hhead => simp
  | alone hhead => simp
  | last hhead hblanks hentry => simp
  | @jump sec entry blanks rest isStart hhead hblanks hentry hrest hcompile =>
    have hle := (search_sublist isStart rest).length_le
    simp only [length_cons, length_append]
    omega

theorem finishes_of_reaches
    (h : ∀ rest, Relation.ReflTransGen (Next compile eng) sections rest → ¬ Fails compile eng rest) :
    Finishes compile eng sections := by
  induction hn : sections.length using Nat.strong_induction_on generalizing sections with
  | _ n ih =>
    cases sections with
    | nil => exact ⟨[], by rw [removeFrom]⟩
    | cons sec rest =>
      rcases round_cases compile eng sec rest with ⟨next, hnext⟩ | hfails
      · rw [finishes_next hnext]
        apply ih next.length (hn ▸ next_length hnext) _ rfl
        intro later hlater
        exact h later (.head hnext hlater)
      · exact absurd hfails (h _ .refl)

theorem removeFrom_sublist (sections left : List (Section R)) (h : removeFrom compile eng sections = .ok left) :
    left.Sublist sections := by
  induction hn : sections.length using Nat.strong_induction_on generalizing sections left with
  | _ n ih =>
    cases sections with
    | nil =>
      rw [removeFrom] at h
      obtain rfl := Except.ok.inj h
      exact Sublist.refl _
    | cons sec rest =>
      by_cases hhead : isHeading sec
      · cases hnext : afterHeading compile eng rest with
        | error raised =>
          rw [removeFrom_raised hhead hnext] at h
          cases h
        | ok next =>
          rw [removeFrom_heading hhead hnext] at h
          have hsub := afterHeading_sublist compile eng hnext
          have hlt : next.length < n := by
            have hle := hsub.length_le
            rw [← hn, length_cons]
            omega
          exact ((ih next.length hlt next left h rfl).trans hsub).trans (sublist_cons_self sec rest)
      · rw [removeFrom, if_neg hhead] at h
        cases hrest : removeFrom compile eng rest with
        | error raised =>
          rw [hrest] at h
          cases h
        | ok kept =>
          rw [hrest] at h
          obtain rfl := Except.ok.inj h
          have hlt : rest.length < n := by
            rw [← hn, length_cons]
            omega
          exact (ih rest.length hlt rest kept hrest rfl).cons_cons sec

/-- The list that is left is a sublist, and nothing is raised, exactly where no round fails. -/
theorem removeContentsTable_total_iff (compile : String → Option (String → Bool)) (eng : Bool)
    (sections : List (Section R)) :
    (∃ left, removeContentsTable compile eng sections = .ok left ∧ left.Sublist sections) ↔
      ∀ rest, Relation.ReflTransGen (Next compile eng) sections rest → ¬ Fails compile eng rest := by
  constructor
  · rintro ⟨left, hleft, -⟩ rest hreach
    have hfinishes : Finishes compile eng rest := by
      induction hreach with
      | refl => exact ⟨left, hleft⟩
      | tail _ hnext ih => exact (finishes_next hnext).mp ih
    intro hfails
    exact not_finishes hfails hfinishes
  · intro h
    obtain ⟨left, hleft⟩ := finishes_of_reaches h
    exact ⟨left, hleft, removeFrom_sublist sections left hleft⟩

end

/-- A heading with an empty line after it. -/
theorem contents_only : ¬ ∃ left : List (Section Unit),
    removeContentsTable (fun start => some (start.isPrefixOf ·)) false [.text "目录", .text ""] = .ok left ∧
      left.Sublist [.text "目录", .text ""] := by
  rintro ⟨left, hleft, -⟩
  have hheading : isHeading (.text "目录" : Section Unit) = true := by decide +kernel
  have hblanks : ∀ blank ∈ [(.text "" : Section Unit)], IsBlank false blank := by decide +kernel
  have hraised := hleft.symm.trans (removeFrom_raised hheading (afterHeading_blanks (by simp) hblanks))
  cases hraised

end MultiRag.ContentsTable
