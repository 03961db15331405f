/-
  **Backtracking regular expressions.**

  `ends` lists the rests of a text after each match at its start, in the order in
  which a backtracking engine finds them: the first one is what the engine returns.

  Each round of a repetition consumes a character, so the length of the text bounds
  the number of rounds.
-/
import Mathlib.Data.List.Basic

namespace MultiRag

open List

inductive Regex where
  | nil
  | one (accepts : Char → Bool)
  | seq (first second : Regex)
  | alt (first second : Regex)
  | star (body : Regex)
  /-- `$`: the end, or a line feed before it. -/
  | atEnd

namespace Regex

def repeatEnds (ends : List Char → List (List Char)) : Nat → List Char → List (List Char)
  | 0, text => [text]
  | rounds + 1, text =>
    ((ends text).filter (·.length < text.length)).flatMap (repeatEnds ends rounds) ++ [text]

def ends : Regex → List Char → List (List Char)
  | nil, text => [text]
  | one _, [] => []
  | one accepts, c :: text => if accepts c then [text] else []
  | seq first second, text => (first.ends text).flatMap second.ends
  | alt first second, text => first.ends text ++ second.ends text
  | star body, text => repeatEnds body.ends text.length text
  | atEnd, text => if text = [] ∨ text = ['\n'] then [text] else []

/-! ### Expressions -/

def char (c : Char) : Regex := one (· == c)

/-- A text as it stands, as `re.escape` writes it. -/
def lit (text : String) : Regex := text.toList.foldr (fun c rest => seq (char c) rest) nil

/-- `[…]` -/
def oneOf (chars : String) : Regex := one fun c => chars.toList.contains c

/-- `[^…]` -/
def noneOf (chars : String) : Regex := one fun c => ! chars.toList.contains c

/-- `[0-9]` -/
def digit : Regex := oneOf "0123456789"

/-- `.`, without `re.DOTALL` -/
def dot : Regex := noneOf "\n"

def plus (body : Regex) : Regex := seq body (star body)

def optional (body : Regex) : Regex := alt body nil

def upTo : Nat → Regex → Regex
  | 0, _ => nil
  | n + 1, body => optional (seq body (upTo n body))

def oneOfAll : List Regex → Regex
  | [] => one fun _ => false
  | [last] => last
  | first :: rest => alt first (oneOfAll rest)

def all (parts : List Regex) : Regex := parts.foldr seq nil

/-! ### Matching -/

def matchRest (r : Regex) (text : List Char) : Option (List Char) := (r.ends text).head?

def isMatch (r : Regex) (text : String) : Bool := (r.matchRest text.toList).isSome

/-- `re.search` finds a match. -/
def isFound (r : Regex) (text : String) : Bool := text.toList.tails.any fun rest => (r.matchRest rest).isSome

/-- `re.fullmatch` finds a match. -/
def isFullMatch (r : Regex) (text : String) : Bool := (r.ends text.toList).contains []

/-- The characters and the matches of the text, from left to right; an empty match is none.
    Each step consumes a character. -/
def scanFrom (r : Regex) : Nat → List Char → List (Char ⊕ List Char)
  | 0, _ => []
  | _ + 1, [] => []
  | steps + 1, c :: text =>
    match r.matchRest (c :: text) with
    | none => .inl c :: scanFrom r steps text
    | some rest =>
      if rest.length ≤ text.length then
        .inr ((c :: text).take (text.length + 1 - rest.length)) :: scanFrom r steps rest
      else .inl c :: scanFrom r steps text

def scan (r : Regex) (text : List Char) : List (Char ⊕ List Char) := r.scanFrom text.length text

def remove (r : Regex) (text : String) : String :=
  String.ofList ((r.scan text.toList).filterMap Sum.getLeft?)

/-- `re.sub(r, replacement, text)` with a function of the match. -/
def replace (r : Regex) (replacement : List Char → List Char) (text : String) : String :=
  String.ofList ((r.scan text.toList).flatMap (Sum.elim (fun c => [c]) replacement))

def findAll (r : Regex) (text : String) : List String :=
  ((r.scan text.toList).filterMap Sum.getRight?).map String.ofList

def pieces : List (Char ⊕ List Char) → List (List Char)
  | [] => [[]]
  | .inl c :: rest => (pieces rest).modifyHead (c :: ·)
  | .inr found :: rest => [] :: found :: pieces rest

def split (r : Regex) (text : String) : List String := (pieces (r.scan text.toList)).map String.ofList

variable {ends : List Char → List (List Char)}

theorem isSuffix_of_mem_repeatEnds (hends : ∀ text rest, rest ∈ ends text → rest <:+ text)
    (rounds : Nat) (text rest : List Char) (h : rest ∈ repeatEnds ends rounds text) :
    rest <:+ text := by
  induction rounds generalizing text with
  | zero =>
    rw [repeatEnds, mem_singleton] at h
    exact h ▸ suffix_rfl
  | succ rounds ih =>
    rw [repeatEnds, mem_append, mem_singleton, mem_flatMap] at h
    rcases h with ⟨next, hnext, hrest⟩ | rfl
    · exact (ih next hrest).trans (hends text next (mem_of_mem_filter hnext))
    · exact suffix_rfl

theorem isSuffix_of_mem_ends (r : Regex) (text rest : List Char) (h : rest ∈ r.ends text) : rest <:+ text := by
  induction r generalizing text rest with
  | nil =>
    rw [ends, mem_singleton] at h
    exact h ▸ suffix_rfl
  | one accepts =>
    cases text with
    | nil => simp [ends] at h
    | cons c text =>
      have hrest : accepts c = true ∧ rest = text := by simpa [ends] using h
      rw [hrest.2]
      exact suffix_cons c text
  | seq first second hfirst hsecond =>
    rw [ends, mem_flatMap] at h
    obtain ⟨next, hnext, hrest⟩ := h
    exact (hsecond next rest hrest).trans (hfirst text next hnext)
  | alt first second hfirst hsecond =>
    rw [ends, mem_append] at h
    rcases h with h | h
    · exact hfirst text rest h
    · exact hsecond text rest h
  | star body hbody => exact isSuffix_of_mem_repeatEnds hbody text.length text rest h
  | atEnd =>
    have hrest : (text = [] ∨ text = ['\n']) ∧ rest = text := by simpa [ends] using h
    exact hrest.2 ▸ suffix_rfl

/-! ### Pieces -/

def content : Char ⊕ List Char → List Char
  | .inl c => [c]
  | .inr found => found

theorem scanFrom_content (r : Regex) (steps : Nat) (text : List Char) (h : text.length ≤ steps) :
    (r.scanFrom steps text).flatMap content = text := by
  induction steps generalizing text with
  | zero =>
    rw [length_eq_zero_iff.mp (Nat.le_zero.mp h)]
    rfl
  | succ steps ih =>
    cases text with
    | nil => rfl
    | cons c text =>
      rw [length_cons] at h
      rw [scanFrom]
      split
      · rw [flatMap_cons, ih text (by omega)]
        rfl
      · next rest hrest =>
        split
        · next hshorter =>
          obtain ⟨found, hfound⟩ := r.isSuffix_of_mem_ends _ _ (mem_of_mem_head? hrest)
          have hlength := congrArg List.length hfound
          rw [length_append, length_cons] at hlength
          have htaken : (c :: text).take (text.length + 1 - rest.length) = found := by
            rw [← hfound, take_left' (by omega)]
          rw [flatMap_cons, ih rest (by omega), htaken]
          exact hfound
        · rw [flatMap_cons, ih text (by omega)]
          rfl

theorem scan_content (r : Regex) (text : List Char) : (r.scan text).flatMap content = text :=
  scanFrom_content r _ _ (Nat.le_refl _)

theorem pieces_ne_nil (parts : List (Char ⊕ List Char)) : pieces parts ≠ [] := by
  induction parts with
  | nil => simp [pieces]
  | cons part parts ih =>
    cases part with
    | inl c => simpa [pieces] using ih
    | inr found => simp [pieces]

theorem pieces_flatten (parts : List (Char ⊕ List Char)) : (pieces parts).flatten = parts.flatMap content := by
  induction parts with
  | nil => rfl
  | cons part parts ih =>
    cases part with
    | inl c =>
      obtain ⟨first, rest, hpieces⟩ := exists_cons_of_ne_nil (pieces_ne_nil parts)
      rw [pieces, hpieces, flatMap_cons, ← ih, hpieces]
      rfl
    | inr found =>
      rw [pieces, flatMap_cons, ← ih]
      rfl

theorem split_join (r : Regex) (text : String) : String.join (r.split text) = text := by
  have hcont := scan_content r text.toList
  rw [← String.toList_inj, String.toList_join, split, flatMap_map]
  refine Eq.trans ?_ hcont
  rw [← pieces_flatten]
  simp only [String.toList_ofList, flatMap_def, map_id']

theorem replace_same (r : Regex) {replacement : List Char → List Char} (h : ∀ found, replacement found = found)
    (text : String) : r.replace replacement text = text := by
  have hcont : (Sum.elim (fun c => [c]) replacement : Char ⊕ List Char → List Char) = content := by
    funext part
    cases part with
    | inl c => rfl
    | inr found => exact h found
  rw [replace, hcont, scan_content, String.ofList_toList]

variable {r : Regex}

theorem replace_of_findAll_eq_nil {text : String} (h : r.findAll text = [])
    (replacement : List Char → List Char) : r.replace replacement text = text := by
  rw [findAll, map_eq_nil_iff, filterMap_eq_nil_iff] at h
  have hcont : (r.scan text.toList).flatMap (Sum.elim (fun c => [c]) replacement) =
      (r.scan text.toList).flatMap content := by
    apply flatMap_congr
    intro part hpart
    cases part with
    | inl c => rfl
    | inr found => cases h _ hpart
  rw [replace, hcont, scan_content, String.ofList_toList]

theorem replace_of_matchRest {text : String} (hne : text.toList ≠ [])
    (h : r.matchRest text.toList = some []) (replacement : List Char → List Char) :
    r.replace replacement text = String.ofList (replacement text.toList) := by
  obtain ⟨c, rest, htext⟩ := exists_cons_of_ne_nil hne
  have hscan : r.scan text.toList = [.inr text.toList] := by
    rw [htext] at h ⊢
    rw [scan, length_cons, scanFrom, h]
    dsimp only
    rw [length_nil, if_pos (Nat.zero_le _), Nat.sub_zero, take_of_length_le (by simp)]
    cases rest with
    | nil => rfl
    | cons d rest => rfl
  rw [replace, hscan, flatMap_cons, flatMap_nil, append_nil]
  rfl

/-! ### Runs of characters -/

/-- The rest after the run does not begin with another character of the kind. -/
def Bounded (accepts : Char → Bool) (rest : List Char) : Prop := ∀ c ∈ rest.head?, accepts c = false

variable {accepts : Char → Bool} {run rest : List Char}

theorem repeatEnds_run (hrun : ∀ c ∈ run, accepts c = true) (hrest : Bounded accepts rest)
    (n : Nat) (hn : run.length ≤ n) :
    (repeatEnds (one accepts).ends n (run ++ rest)).head? = some rest := by
  induction run generalizing n with
  | nil =>
    cases n with
    | zero => rfl
    | succ n =>
      cases rest with
      | nil => simp [repeatEnds, ends]
      | cons c rest =>
        have hc : accepts c = false := hrest c rfl
        simp [repeatEnds, ends, hc]
  | cons c run ih =>
    rw [length_cons] at hn
    obtain ⟨n, rfl⟩ := Nat.exists_eq_add_of_le' (Nat.lt_of_lt_of_le (Nat.zero_lt_succ _) hn)
    rw [forall_mem_cons] at hrun
    have hhead := ih hrun.2 n (by omega)
    rw [cons_append, repeatEnds, ends, if_pos hrun.1, filter_cons_of_pos (by simp), filter_nil,
      flatMap_cons, flatMap_nil, append_nil, head?_append, hhead]
    rfl

theorem matchRest_seq {first second : Regex} {text next out : List Char} (hfirst : first.matchRest text = some next)
    (hsecond : second.matchRest next = some out) : (seq first second).matchRest text = some out := by
  rw [matchRest] at hfirst hsecond ⊢
  obtain ⟨tail, htail⟩ := head?_eq_some_iff.mp hfirst
  obtain ⟨others, hothers⟩ := head?_eq_some_iff.mp hsecond
  rw [ends, htail, flatMap_cons, hothers, cons_append, head?_cons]

theorem matchRest_star_run (hrun : ∀ c ∈ run, accepts c = true) (hrest : Bounded accepts rest) :
    (star (one accepts)).matchRest (run ++ rest) = some rest := by
  rw [matchRest, ends]
  exact repeatEnds_run hrun hrest _ (by simp)

theorem matchRest_plus_run (hne : run ≠ []) (hrun : ∀ c ∈ run, accepts c = true)
    (hrest : Bounded accepts rest) :
    (plus (one accepts)).matchRest (run ++ rest) = some rest := by
  obtain ⟨c, run, rfl⟩ := exists_cons_of_ne_nil hne
  rw [forall_mem_cons] at hrun
  apply matchRest_seq _ (matchRest_star_run hrun.2 hrest)
  rw [matchRest, cons_append, ends, if_pos hrun.1, head?_cons]

/-! ### Texts without a character -/

def Avoids (c : Char) : Regex → Prop
  | nil => True
  | one accepts => accepts c = false
  | seq first second => Avoids c first ∧ Avoids c second
  | alt first second => Avoids c first ∧ Avoids c second
  | star body => Avoids c body
  | atEnd => False

theorem repeatEnds_congr (n m : Nat) (text : List Char) (hn : text.length ≤ n)
    (hm : text.length ≤ m) : repeatEnds ends n text = repeatEnds ends m text := by
  induction n generalizing m text with
  | zero =>
    rw [length_eq_zero_iff.mp (Nat.le_zero.mp hn)]
    cases m with
    | zero => rfl
    | succ m => simp [repeatEnds]
  | succ n ih =>
    cases m with
    | zero =>
      rw [length_eq_zero_iff.mp (Nat.le_zero.mp hm)]
      simp [repeatEnds]
    | succ m =>
      rw [repeatEnds, repeatEnds]
      congr 1
      apply flatMap_congr
      intro rest hrest
      have hshorter := (List.mem_filter.mp hrest).2
      rw [decide_eq_true_eq] at hshorter
      exact ih m rest (by omega) (by omega)

variable {c : Char}

theorem repeatEnds_append {back : List Char}
    (hends : ∀ front, ends (front ++ c :: back) = (ends front).map (· ++ c :: back)) (n : Nat)
    (front : List Char) :
    repeatEnds ends n (front ++ c :: back) = (repeatEnds ends n front).map (· ++ c :: back) := by
  induction n generalizing front with
  | zero => rfl
  | succ n ih =>
    rw [repeatEnds, repeatEnds, hends, map_append, List.filter_map, flatMap_map, map_flatMap]
    have hfilter : ((fun rest : List Char => decide (rest.length < (front ++ c :: back).length)) ∘ (· ++ c :: back)) =
        fun rest => decide (rest.length < front.length) := by
      funext rest
      simp
    rw [hfilter]
    congr 1
    apply flatMap_congr
    intro rest _
    exact ih rest

theorem ends_append (h : r.Avoids c) (front back : List Char) :
    r.ends (front ++ c :: back) = (r.ends front).map (· ++ c :: back) := by
  induction r generalizing front with
  | nil => rfl
  | one accepts =>
    cases front with
    | nil => simp [ends, show accepts c = false from h]
    | cons d front =>
      rw [cons_append, ends, ends]
      split
      · rfl
      · rfl
  | seq first second hfirst hsecond =>
    rw [ends, ends, hfirst h.1, flatMap_map, map_flatMap]
    apply flatMap_congr
    intro rest _
    exact hsecond h.2 rest
  | alt first second hfirst hsecond => rw [ends, ends, hfirst h.1, hsecond h.2, map_append]
  | star body hbody =>
    rw [ends, ends, repeatEnds_congr _ (front ++ c :: back).length front (Nat.le_refl _) (by simp)]
    exact repeatEnds_append (hbody h) _ front
  | atEnd => exact h.elim

theorem matchRest_append (h : r.Avoids c) (front back : List Char) :
    r.matchRest (front ++ c :: back) = (r.matchRest front).map (· ++ c :: back) := by
  rw [matchRest, matchRest, ends_append h, head?_map]

theorem scanFrom_congr (r : Regex) (n m : Nat) (text : List Char) (hn : text.length ≤ n) (hm : text.length ≤ m) :
    r.scanFrom n text = r.scanFrom m text := by
  induction n generalizing m text with
  | zero =>
    rw [length_eq_zero_iff.mp (Nat.le_zero.mp hn)]
    cases m with
    | zero => rfl
    | succ m => rfl
  | succ n ih =>
    cases text with
    | nil => cases m <;> rfl
    | cons d text =>
      rw [length_cons] at hn hm
      obtain ⟨m, rfl⟩ := Nat.exists_eq_add_of_le' (Nat.lt_of_lt_of_le (Nat.zero_lt_succ _) hm)
      rw [scanFrom, scanFrom]
      split
      · rw [ih m text (by omega) (by omega)]
      · split
        · rw [ih m _ (by omega) (by omega)]
        · rw [ih m text (by omega) (by omega)]

theorem scan_append (h : r.Avoids c) (front back : List Char) :
    r.scan (front ++ c :: back) = r.scan front ++ r.scan (c :: back) := by
  have hscan : ∀ n (front : List Char), front.length ≤ n →
      r.scanFrom (n + (c :: back).length) (front ++ c :: back) = r.scanFrom n front ++ r.scan (c :: back) := by
    intro n
    induction n with
    | zero =>
      intro front hfront
      rw [length_eq_zero_iff.mp (Nat.le_zero.mp hfront), Nat.zero_add]
      rfl
    | succ n ih =>
      intro front hfront
      cases front with
      | nil =>
        apply scanFrom_congr
        · simp
        · exact Nat.le_refl _
      | cons d front =>
        rw [length_cons] at hfront
        have hmatch := matchRest_append h (d :: front) back
        rw [cons_append] at hmatch ⊢
        rw [Nat.add_right_comm, scanFrom, scanFrom, hmatch]
        cases r.matchRest (d :: front) with
        | none =>
          dsimp only [Option.map_none]
          rw [ih front (by omega), cons_append]
        | some rest =>
          dsimp only [Option.map_some]
          by_cases hrest : rest.length ≤ front.length
          · rw [if_pos (by simpa using hrest), if_pos hrest, ih rest (by omega), cons_append]
            have htaken : (front ++ c :: back).length + 1 - (rest ++ c :: back).length =
                front.length + 1 - rest.length := by
              rw [length_append, length_append]
              omega
            have htake : ((d :: front) ++ c :: back).take (front.length + 1 - rest.length) =
                (d :: front).take (front.length + 1 - rest.length) := by
              apply take_append_of_le_length
              rw [length_cons]
              omega
            rw [cons_append] at htake
            rw [htaken, htake]
          · rw [if_neg (by simpa using hrest), if_neg hrest, ih front (by omega), cons_append]
  rw [scan, scan, ← hscan front.length front (Nat.le_refl _), length_append]

theorem remove_append (h : r.Avoids c) (front back : String) :
    r.remove (front ++ String.ofList (c :: back.toList)) = r.remove front ++ r.remove (String.ofList (c :: back.toList)) := by
  rw [remove, remove, remove, String.toList_append, String.toList_ofList, scan_append h, filterMap_append,
    String.ofList_append]

end Regex

end MultiRag
