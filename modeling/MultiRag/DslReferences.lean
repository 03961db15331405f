/-
  **References in a migrated DSL.**

  A bare reference, or one with other characters in its path, is no match and stays as it is; two
  components whose new ids agree become one.
-/
import MultiRag.DslMigrationLaws

namespace MultiRag.DslMigration

open Regex Dict VariableStore Option List

/-! ### Places -/

inductive Step where
  | key (key : String)
  | index (i : Nat)

def valueAt : List Step → Json → Option Json
  | [], value => some value
  | .key key :: steps, .obj items => (items.lookup key).bind (valueAt steps)
  | .index i :: steps, .arr items => (items[i]?).bind (valueAt steps)
  | _, _ => none

variable {ids : List String}

theorem rewriteItems_eq (ids : List String) (items : List Json) :
    rewriteItems ids items = items.map (rewriteValue ids) := by
  induction items with
  | nil => rfl
  | cons item items ih => rw [rewriteItems, ih, map_cons]

theorem rewriteFields_lookup (ids : List String) (items : List (String × Json)) (key : String) :
    (rewriteFields ids items).lookup key = (items.lookup key).map (rewriteValue ids) := by
  induction items with
  | nil => rfl
  | cons item items ih =>
    rw [rewriteFields, Dict.lookup_cons, Dict.lookup_cons, ih]
    split
    · rfl
    · rfl

theorem rewriteValue_at (ids : List String) (steps : List Step) (value : Json) :
    valueAt steps (rewriteValue ids value) = (valueAt steps value).map (rewriteValue ids) := by
  induction steps generalizing value with
  | nil => simp [valueAt]
  | cons step steps ih =>
    cases value with
    | obj items =>
      rw [rewriteValue]
      cases step with
      | key key =>
        rw [valueAt, valueAt, rewriteFields_lookup]
        cases items.lookup key with
        | none => rfl
        | some child => exact ih child
      | index i => rfl
    | arr items =>
      rw [rewriteValue, rewriteItems_eq]
      cases step with
      | key key => rfl
      | index i =>
        rw [valueAt, valueAt, getElem?_map]
        cases items[i]? with
        | none => rfl
        | some child => exact ih child
    | _ => cases step <;> simp [rewriteValue, valueAt]

variable {changed : Json}

theorem renameObj_params {value : Json} (h : onObj renameObj value = some changed)
    (steps : List Step) :
    valueAt (.key "params" :: steps) changed = valueAt (.key "params" :: steps) value := by
  cases value with
  | obj obj =>
    obtain ⟨after, hafter, rfl⟩ := map_eq_some_iff.mp h
    obtain ⟨name, -, rfl⟩ := map_eq_some_iff.mp hafter
    rw [valueAt, valueAt, lookup_assign_ne obj name (by decide)]
  | _ =>
    obtain rfl := some.inj h
    rfl

theorem component_params {component : Json} (h : rewriteComponent ids component = some changed)
    (steps : List Step) :
    valueAt (.key "obj" :: .key "params" :: steps) changed =
      (valueAt (.key "obj" :: .key "params" :: steps) component).map (rewriteValue ids) := by
  rw [← rewriteValue_at]
  rw [rewriteComponent] at h
  cases hvalue : rewriteValue ids component with
  | obj fields =>
    rw [hvalue] at h
    obtain ⟨after, hafter, rfl⟩ := map_eq_some_iff.mp h
    rw [valueAt, valueAt]
    rw [updates, componentChanges, foldlM_cons, bind_eq_bind, bind_eq_some_iff] at hafter
    obtain ⟨between, hbetween, hrest⟩ := hafter
    rw [updates_lookup_ne hrest (by simp)]
    cases hobj : fields.lookup "obj" with
    | none =>
      rw [update, hobj] at hbetween
      obtain rfl := some.inj hbetween
      rw [hobj]
    | some obj =>
      obtain ⟨renamed, hrenamed, hlookup⟩ := update_lookup_some hbetween hobj
      rw [hlookup]
      exact renameObj_params hrenamed steps
  | _ =>
    rw [hvalue] at h
    obtain rfl := some.inj h
    rfl

/-! ### Characters of a reference -/

variable {c : Char}

theorem code_of_isWordChar (h : isIdChar.isWordChar c = true) :
    (48 ≤ c.toNat ∧ c.toNat ≤ 57) ∨ (65 ≤ c.toNat ∧ c.toNat ≤ 90) ∨ (97 ≤ c.toNat ∧ c.toNat ≤ 122) := by
  simp only [isIdChar.isWordChar, Bool.or_eq_true, Bool.and_eq_true, decide_eq_true_eq, Char.le_def,
    UInt32.le_iff_toNat_le] at h
  change ((65 ≤ c.toNat ∧ c.toNat ≤ 90) ∨ (97 ≤ c.toNat ∧ c.toNat ≤ 122)) ∨ (48 ≤ c.toNat ∧ c.toNat ≤ 57) at h
  omega

theorem not_space_of_code (h : 45 ≤ c.toNat ∧ c.toNat ≤ 122) : isPySpace c = false := by
  simp only [isPySpace, Bool.or_eq_false_iff, Bool.and_eq_false_iff, decide_eq_false_iff_not, beq_eq_false_iff_ne]
  omega

/-- A character of an id or a path: no brace, no space and no `@`. -/
structure Inner (c : Char) : Prop where
  open_ne : c ≠ '\x7b'
  close_ne : c ≠ '\x7d'
  at_ne : c ≠ '@'
  space : isPySpace c = false

theorem inner_of_code (h : 45 ≤ c.toNat ∧ c.toNat ≤ 122) (hat : c.toNat ≠ 64) : Inner c := by
  refine ⟨?_, ?_, ?_, not_space_of_code h⟩
  · rintro rfl
    exact absurd h.2 (by decide)
  · rintro rfl
    exact absurd h.2 (by decide)
  · rintro rfl
    exact hat rfl

theorem inner_of_isIdChar (h : isIdChar c = true) : Inner c := by
  simp only [isIdChar, Bool.or_eq_true, beq_iff_eq] at h
  rcases h with ((hword | rfl) | rfl) | rfl
  · have hcode := code_of_isWordChar hword
    exact inner_of_code (by omega) (by omega)
  · exact inner_of_code (by decide) (by decide)
  · exact inner_of_code (by decide) (by decide)
  · exact inner_of_code (by decide) (by decide)

theorem inner_of_isPathChar (h : isPathChar c = true) : Inner c := by
  simp only [isPathChar, Bool.or_eq_true, beq_iff_eq] at h
  rcases h with ((hword | rfl) | rfl) | rfl
  · exact inner_of_isIdChar (by simp [isIdChar, hword])
  · exact inner_of_isIdChar (by decide)
  · exact inner_of_code (by decide) (by decide)
  · exact inner_of_isIdChar (by decide)

theorem Inner.not_lead (h : Inner c) : isLead c = false := by
  rw [isLead, h.space, Bool.or_false, beq_eq_false_iff_ne]
  exact h.open_ne

variable {accepts : Char → Bool} {front : List Char}

theorem bounded_of_all (back : List Char) (hne : front ≠ [])
    (hfront : ∀ c ∈ front, accepts c = false) : Bounded accepts (front ++ back) := by
  obtain ⟨d, front, rfl⟩ := exists_cons_of_ne_nil hne
  intro c hc
  obtain rfl : d = c := by simpa using hc
  exact hfront d mem_cons_self

variable {back : List Char}

theorem bounded_append (hfront : ∀ c ∈ front, accepts c = false) (hback : Bounded accepts back) :
    Bounded accepts (front ++ back) := by
  cases front with
  | nil => exact hback
  | cons d front => exact bounded_of_all back (cons_ne_nil d front) hfront

/-! ### Braces -/

structure Braces where
  opens : List Char
  before : List Char
  path : List Char
  after : List Char
  closes : List Char
  opens_ne : opens ≠ []
  opens_all : ∀ c ∈ opens, c = '\x7b'
  before_all : ∀ c ∈ before, c = ' '
  path_ne : path ≠ []
  path_all : ∀ c ∈ path, isPathChar c = true
  after_all : ∀ c ∈ after, c = ' '
  closes_ne : closes ≠ []
  closes_all : ∀ c ∈ closes, c = '\x7d'

structure IsId (cpnId : List Char) : Prop where
  ne : cpnId ≠ []
  all : ∀ c ∈ cpnId, isIdChar c = true

def Braces.rest (braces : Braces) : List Char := '@' :: (braces.path ++ (braces.after ++ braces.closes))

def Braces.around (braces : Braces) (cpnId : List Char) : List Char :=
  braces.opens ++ (braces.before ++ (cpnId ++ braces.rest))

variable (braces : Braces) {cpnId : List Char}

theorem Braces.after_bounded (hspace : accepts ' ' = false) (hclose : accepts '\x7d' = false) :
    Bounded accepts (braces.after ++ braces.closes) := by
  apply bounded_append
  · intro c hc
    rw [braces.after_all c hc]
    exact hspace
  · rw [← append_nil braces.closes]
    apply bounded_of_all [] braces.closes_ne
    intro c hc
    rw [braces.closes_all c hc]
    exact hclose

theorem matchRest_braced (hid : IsId cpnId) : VARIABLE_REF_PATTERN.matchRest (braces.around cpnId) = some [] := by
  have hopens : (plus (one (· == '\x7b'))).matchRest (braces.around cpnId) =
      some (braces.before ++ (cpnId ++ braces.rest)) := by
    apply matchRest_plus_run braces.opens_ne
    · intro c hc
      rw [braces.opens_all c hc]
      rfl
    · apply bounded_append
      · intro c hc
        rw [braces.before_all c hc]
        rfl
      · apply bounded_of_all _ hid.ne
        intro c hc
        exact beq_eq_false_iff_ne.mpr (inner_of_isIdChar (hid.all c hc)).open_ne
  have hbefore : (star (one isPySpace)).matchRest (braces.before ++ (cpnId ++ braces.rest)) =
      some (cpnId ++ braces.rest) := by
    apply matchRest_star_run
    · intro c hc
      rw [braces.before_all c hc]
      rfl
    · apply bounded_of_all _ hid.ne
      intro c hc
      exact (inner_of_isIdChar (hid.all c hc)).space
  have hcpnId : (plus (one isIdChar)).matchRest (cpnId ++ braces.rest) = some braces.rest := by
    apply matchRest_plus_run hid.ne hid.all
    intro c hc
    obtain rfl : '@' = c := by simpa [Braces.rest] using hc
    rfl
  have hat : (one (· == '@')).matchRest braces.rest = some (braces.path ++ (braces.after ++ braces.closes)) := rfl
  have hpath : (plus (one isPathChar)).matchRest (braces.path ++ (braces.after ++ braces.closes)) =
      some (braces.after ++ braces.closes) :=
    matchRest_plus_run braces.path_ne braces.path_all (braces.after_bounded rfl rfl)
  have hafter : (star (one isPySpace)).matchRest (braces.after ++ braces.closes) = some braces.closes := by
    apply matchRest_star_run
    · intro c hc
      rw [braces.after_all c hc]
      rfl
    · rw [← append_nil braces.closes]
      apply bounded_of_all [] braces.closes_ne
      intro c hc
      rw [braces.closes_all c hc]
      rfl
  have hcloses : (plus (one (· == '\x7d'))).matchRest braces.closes = some [] := by
    rw [← append_nil braces.closes]
    apply matchRest_plus_run braces.closes_ne
    · intro c hc
      rw [braces.closes_all c hc]
      rfl
    · exact nofun
  exact matchRest_seq hopens <| matchRest_seq hbefore <| matchRest_seq hcpnId <| matchRest_seq hat <|
    matchRest_seq hpath <| matchRest_seq hafter hcloses

/-! ### The reference after the migration -/

theorem takeWhile_run {run rest : List Char} (hrun : ∀ c ∈ run, accepts c = true)
    (hrest : Bounded accepts rest) :
    (run ++ rest).takeWhile accepts = run ∧ (run ++ rest).dropWhile accepts = rest := by
  have hnone : rest.takeWhile accepts = [] ∧ rest.dropWhile accepts = rest := by
    cases rest with
    | nil => exact ⟨rfl, rfl⟩
    | cons c rest =>
      have hc : ¬ accepts c = true := by
        rw [hrest c rfl]
        exact Bool.false_ne_true
      exact ⟨takeWhile_cons_of_neg hc, dropWhile_cons_of_neg hc⟩
  constructor
  · rw [takeWhile_append_of_pos hrun, hnone.1, append_nil]
  · rw [dropWhile_append_of_pos hrun, hnone.2]

theorem repl_braced (hid : IsId cpnId) :
    repl ids (braces.around cpnId) = braces.around (mapped ids (String.ofList cpnId)).toList := by
  have hinner : ∀ c ∈ cpnId, isLead c = false := fun c hc => (inner_of_isIdChar (hid.all c hc)).not_lead
  have hlead : ∀ c ∈ braces.opens ++ braces.before, isLead c = true := by
    intro c hc
    rcases mem_append.mp hc with hc | hc
    · rw [braces.opens_all c hc]
      rfl
    · rw [braces.before_all c hc]
      rfl
  obtain ⟨htake, hdrop⟩ := takeWhile_run hlead (bounded_of_all braces.rest hid.ne hinner)
  have hat : Bounded isIdChar braces.rest := by
    intro c hc
    obtain rfl : '@' = c := by simpa [Braces.rest] using hc
    rfl
  obtain ⟨hidTake, hidDrop⟩ := takeWhile_run hid.all hat
  rw [Braces.around, ← append_assoc, repl, htake, hdrop, hidTake, hidDrop, Braces.around]
  simp only [append_assoc]

variable {stripped : Char → Bool}

theorem stripChars_run {mid : List Char} (hfront : ∀ c ∈ front, stripped c = true)
    (hback : ∀ c ∈ back, stripped c = true) (hhead : Bounded stripped (mid ++ back))
    (hlast : Bounded stripped mid.reverse) :
    stripChars stripped (front ++ (mid ++ back)) = mid := by
  rw [stripChars, (takeWhile_run hfront hhead).2, reverse_append, (takeWhile_run ?_ hlast).2, reverse_reverse]
  intro c hc
  exact hback c (mem_reverse.mp hc)

def Braces.core (braces : Braces) (cpnId : List Char) : List Char := cpnId ++ '@' :: braces.path

theorem core_bounded (hid : IsId cpnId) (hinner : ∀ c, Inner c → stripped c = false)
    (back : List Char) :
    Bounded stripped (braces.core cpnId ++ back) ∧ Bounded stripped ((braces.core cpnId).reverse ++ back) := by
  constructor
  · rw [Braces.core, append_assoc]
    apply bounded_of_all _ hid.ne
    intro c hc
    exact hinner c (inner_of_isIdChar (hid.all c hc))
  · rw [Braces.core, reverse_append, reverse_cons, append_assoc, append_assoc]
    apply bounded_of_all _ (by simpa using braces.path_ne)
    intro c hc
    exact hinner c (inner_of_isPathChar (braces.path_all c (mem_reverse.mp hc)))

theorem bare_braced (hid : IsId cpnId) :
    bare (String.ofList (braces.around cpnId)) = braces.core cpnId := by
  have hopen : ∀ c, Inner c → (c == '\x7b') = false := fun c hc => beq_eq_false_iff_ne.mpr hc.open_ne
  have hclose : ∀ c, Inner c → (c == '\x7d') = false := fun c hc => beq_eq_false_iff_ne.mpr hc.close_ne
  have hspace : ∀ c, Inner c → (c == ' ') = false := by
    intro c hc
    rw [beq_eq_false_iff_ne]
    rintro rfl
    exact absurd hc.space (by decide)
  have htext : braces.around cpnId =
      braces.opens ++ ((braces.before ++ (braces.core cpnId ++ (braces.after ++ braces.closes))) ++ []) := by
    simp [Braces.around, Braces.rest, Braces.core]
  have hfirst : stripOne '\x7b' (braces.around cpnId) =
      braces.before ++ (braces.core cpnId ++ (braces.after ++ braces.closes)) := by
    rw [htext]
    apply stripChars_run
    · intro c hc
      rw [braces.opens_all c hc]
      rfl
    · exact nofun
    · rw [append_nil]
      apply bounded_append
      · intro c hc
        rw [braces.before_all c hc]
        rfl
      · exact (core_bounded braces hid hopen _).1
    · rw [← append_assoc, ← append_assoc, reverse_append]
      apply bounded_of_all _ (by simpa using braces.closes_ne)
      intro c hc
      rw [braces.closes_all c (mem_reverse.mp hc)]
      rfl
  have hsecond : stripOne '\x7d' (braces.before ++ (braces.core cpnId ++ (braces.after ++ braces.closes))) =
      braces.before ++ (braces.core cpnId ++ braces.after) := by
    have hsplit : braces.before ++ (braces.core cpnId ++ (braces.after ++ braces.closes)) =
        [] ++ ((braces.before ++ (braces.core cpnId ++ braces.after)) ++ braces.closes) := by simp
    rw [hsplit]
    apply stripChars_run
    · exact nofun
    · intro c hc
      rw [braces.closes_all c hc]
      rfl
    · rw [append_assoc]
      apply bounded_append
      · intro c hc
        rw [braces.before_all c hc]
        rfl
      · rw [append_assoc]
        exact (core_bounded braces hid hclose _).1
    · rw [reverse_append, reverse_append, append_assoc]
      apply bounded_append
      · intro c hc
        rw [braces.after_all c (mem_reverse.mp hc)]
        rfl
      · exact (core_bounded braces hid hclose _).2
  have hthird : stripOne ' ' (braces.before ++ (braces.core cpnId ++ braces.after)) = braces.core cpnId := by
    apply stripChars_run
    · intro c hc
      rw [braces.before_all c hc]
      rfl
    · intro c hc
      rw [braces.after_all c hc]
      rfl
    · exact (core_bounded braces hid hspace _).1
    · simpa using (core_bounded braces hid hspace []).2
  have hcore : ∀ {stripped : Char → Bool}, (∀ c, Inner c → stripped c = false) →
      stripChars stripped (braces.core cpnId) = braces.core cpnId := by
    intro stripped hinner
    have hrun : stripChars stripped ([] ++ (braces.core cpnId ++ [])) = braces.core cpnId :=
      stripChars_run (by simp) (by simp) (core_bounded braces hid hinner []).1
        (by simpa using (core_bounded braces hid hinner []).2)
    rw [nil_append, append_nil] at hrun
    exact hrun
  rw [bare, String.toList_ofList, hfirst, hsecond, hthird]
  exact (congrArg _ (hcore hopen)).trans (hcore hclose)

theorem parse_braced (hid : IsId cpnId) :
    parse (String.ofList (braces.around cpnId)) =
      some (.output (String.ofList cpnId) (splitVariable braces.path).1 (splitVariable braces.path).2) := by
  have hsplit : (braces.core cpnId).splitOn '@' = [cpnId, braces.path] := by
    have hid' : '@' ∉ cpnId := fun hmem => (inner_of_isIdChar (hid.all _ hmem)).at_ne rfl
    have hpath' : '@' ∉ braces.path := fun hmem => (inner_of_isPathChar (braces.path_all _ hmem)).at_ne rfl
    rw [Braces.core, splitOn_append_cons_self, splitOn_eq_singleton hid', splitOn_eq_singleton hpath']
    rfl
  rw [parse, bare_braced braces hid, hsplit]

theorem new_names_isId : ∀ rename ∈ COMPONENT_RENAMES, rename.2.toList ≠ [] ∧
    ∀ c ∈ rename.2.toList ++ ":".toList, isIdChar c = true := by
  have hall : (COMPONENT_RENAMES.all fun rename =>
      !rename.2.toList.isEmpty && (rename.2.toList ++ ":".toList).all isIdChar) = true := by
    decide +kernel
  intro rename hmem
  have hname := all_eq_true.mp hall rename hmem
  rw [Bool.and_eq_true, List.all_eq_true] at hname
  exact ⟨by simpa using hname.1, hname.2⟩

theorem isId_newId (hid : IsId cpnId) : IsId (newId (String.ofList cpnId)).toList := by
  rw [newId]
  split
  · next rename hfound =>
    obtain ⟨hne, hall⟩ := new_names_isId rename (mem_of_find?_eq_some hfound)
    rw [String.toList_append, String.toList_append, String.toList_ofList, String.toList_ofList]
    refine ⟨by simp [hne], ?_⟩
    intro c hc
    rcases mem_append.mp hc with hname | hrest
    · exact hall c hname
    · have hmem := mem_of_mem_drop hrest
      rw [String.toList_ofList] at hmem
      exact hid.all c hmem
  · rw [String.toList_ofList]
    exact hid

theorem rewrite_braced (hid : IsId cpnId) (hmem : String.ofList cpnId ∈ ids)
    (hnot : String.ofList (braces.around cpnId) ∉ ids) :
    rewriteVariableRefs ids (String.ofList (braces.around cpnId)) =
      String.ofList (braces.around (newId (String.ofList cpnId)).toList) := by
  have hne : (String.ofList (braces.around cpnId)).toList ≠ [] := by
    rw [String.toList_ofList, Braces.around]
    simp [braces.opens_ne]
  have hmatch : VARIABLE_REF_PATTERN.matchRest (String.ofList (braces.around cpnId)).toList = some [] := by
    rw [String.toList_ofList]
    exact matchRest_braced braces hid
  rw [rewriteVariableRefs, if_neg hnot, replace_of_matchRest hne hmatch, String.toList_ofList, repl_braced braces hid,
    mapped, if_pos hmem]

/-! ### The migration -/

structure Moved (ids : List String) (text after : String) : Prop where
  ofId : text ∈ ids → after = newId text
  /-- In any other string the references that are found get the new id. -/
  references : text ∉ ids → after = VARIABLE_REF_PATTERN.replace (repl ids) text
  /-- Without a reference the string stays. -/
  plain : text ∉ ids → VARIABLE_REF_PATTERN.findAll text = [] → after = text
  /-- A reference in braces then names the renamed component, with the same output and keys. -/
  braced : text ∉ ids → ∀ (braces : Braces) (cpnId : List Char), IsId cpnId → String.ofList cpnId ∈ ids →
    text = String.ofList (braces.around cpnId) → ∀ root keys,
      parse text = some (.output (String.ofList cpnId) root keys) →
      parse after = some (.output (newId (String.ofList cpnId)) root keys)

theorem moved (ids : List String) (text : String) : Moved ids text (rewriteVariableRefs ids text) := by
  constructor
  · intro hmem
    rw [rewriteVariableRefs, if_pos hmem]
  · intro hnot
    rw [rewriteVariableRefs, if_neg hnot]
  · intro hnot hnone
    rw [rewriteVariableRefs, if_neg hnot, replace_of_findAll_eq_nil hnone]
  · rintro hnot braces cpnId hid hmem rfl root keys hparse
    rw [parse_braced braces hid] at hparse
    obtain ⟨-, hroot, hkeys⟩ := Target.output.inj (some.inj hparse)
    rw [rewrite_braced braces hid hmem hnot, parse_braced braces (isId_newId hid), String.ofList_toList, hroot, hkeys]

/-- What a migration does by design: a second one changes nothing, and where the new ids are distinct no
    component is lost and the strings of its parameters move along. -/
structure Migrates (dsl migrated : Json) : Prop where
  again : normalizeChunkerDsl migrated = some migrated
  components : ∀ components, dsl.get? "components" = some (.obj components) →
    (components.map fun item => newId item.1).Nodup → ∃ kept, migrated.get? "components" = some (.obj kept) ∧
      kept.map Prod.fst = components.map (fun item => newId item.1) ∧
      ∀ item ∈ components, ∃ component, kept.lookup (newId item.1) = some component ∧
        ∀ steps text, valueAt (.key "obj" :: .key "params" :: steps) item.2 = some (.str text) →
          ∃ after, valueAt (.key "obj" :: .key "params" :: steps) component = some (.str after) ∧
            Moved (components.map Prod.fst) text after

def sampleDsl : Json :=
  .obj [("components", .obj [("Splitter:A", .obj [("obj", .obj [("component_name", .str "Splitter"),
    ("params", .obj [("name", .str "Splitter:A"), ("prompt", .str "{Splitter:A@chunks}")])])])])]

def sampleMigrated : Json :=
  .obj [("components", .obj [("TokenChunker:A", .obj [("obj", .obj [("component_name", .str "TokenChunker"),
    ("params", .obj [("name", .str "TokenChunker:A"), ("prompt", .str "{TokenChunker:A@chunks}")])])])])]

end MultiRag.DslMigration
