/-
  **When a written variable reads back and nothing else changes.**

  Below a dictionary a write succeeds and the path then reads the value (`readPath_writePath`).
  What is no dictionary on the way is replaced by one, so the write keeps the other paths exactly
  where they read nothing before (`kept_iff_clean`). In a canvas, a write through a value that is
  true and no dictionary raises, with nothing changed (`lens_iff_safe`).
-/
import MultiRag.VariableStore

namespace MultiRag.VariableStore

open List Option

variable {O : Type} {py : Python O}

/-! ### Paths -/

/-- Neither path is a beginning of the other. -/
def Apart (us ks : List String) : Prop := ¬ us <+: ks ∧ ¬ ks <+: us

variable {u k : String} {us : List String}

theorem apart_singleton : Apart (u :: us) [k] ↔ u ≠ k := by
  simp [Apart, cons_prefix_cons]
  tauto

variable {ks : List String}

theorem apart_cons :
    Apart (u :: us) (k :: ks) ↔ u ≠ k ∨ Apart us ks := by
  simp only [Apart, cons_prefix_cons]
  tauto

theorem not_apart_nil : ¬ Apart [] ks := by
  simp [Apart]

/-! ### Reading after a write -/

theorem readPath_null (us : List String) : readPath py (.json .null) us = .json .null := by
  induction us with
  | nil => rfl
  | cons u us ih => exact ih

theorem readPath_obj (items : List (String × Json)) (u : String) (us : List String) :
    readPath py (.json (.obj items)) (u :: us) = readPath py (.json ((items.lookup u).getD .null)) us := rfl

theorem exists_childAt (items : List (String × Json)) (key : String) : ∃ sub, childAt items key = .obj sub := by
  rw [childAt]
  split
  · next sub _ => exact ⟨sub, rfl⟩
  · exact ⟨[], rfl⟩

theorem writePath_obj (value : Json) (k : String) (ks : List String) (items : List (String × Json)) :
    ∃ written, writePath value (k :: ks) (.obj items) = (.obj (Dict.assign items k written), true) := by
  induction ks generalizing k items with
  | nil => exact ⟨value, rfl⟩
  | cons next ks ih =>
    obtain ⟨sub, hsub⟩ := exists_childAt items k
    obtain ⟨written, hwritten⟩ := ih next sub
    refine ⟨.obj (Dict.assign sub next written), ?_⟩
    rw [writePath, hsub, hwritten]

def written (value : Json) (ks : List String) (items : List (String × Json)) : Json :=
  (writePath value ks (.obj items)).1

theorem written_next (value : Json) (k next : String) (ks : List String) (items sub : List (String × Json))
    (hsub : childAt items k = .obj sub) :
    written value (k :: next :: ks) items = .obj (Dict.assign items k (written value (next :: ks) sub)) := by
  rw [written, writePath, hsub, written]

theorem readPath_assign_self (items : List (String × Json)) (k : String) (value : Json) (us : List String) :
    readPath py (.json (.obj (Dict.assign items k value))) (k :: us) = readPath py (.json value) us := by
  rw [readPath_obj, Dict.lookup_assign_self, getD_some]

theorem readPath_assign_ne (items : List (String × Json)) (value : Json) (us : List String)
    (hne : u ≠ k) :
    readPath py (.json (.obj (Dict.assign items k value))) (u :: us) = readPath py (.json (.obj items)) (u :: us) := by
  rw [readPath_obj, readPath_obj, Dict.lookup_assign_ne items value hne]

theorem readPath_written (value : Json) (k : String) (ks : List String) (items : List (String × Json)) :
    readPath py (.json (written value (k :: ks) items)) (k :: ks) = .json value := by
  induction ks generalizing k items with
  | nil => exact readPath_assign_self items k value []
  | cons next ks ih =>
    obtain ⟨sub, hsub⟩ := exists_childAt items k
    rw [written_next value k next ks items sub hsub, readPath_assign_self]
    exact ih next sub

theorem readPath_fresh (value : Json) (k : String) (ks us : List String) (hapart : Apart us (k :: ks)) :
    readPath py (.json (written value (k :: ks) [])) us = .json .null := by
  induction ks generalizing k us with
  | nil =>
    cases us with
    | nil => exact absurd hapart not_apart_nil
    | cons u us =>
      refine (readPath_assign_ne [] value us (apart_singleton.mp hapart)).trans ?_
      exact readPath_null us
  | cons next ks ih =>
    cases us with
    | nil => exact absurd hapart not_apart_nil
    | cons u us =>
      rw [written_next value k next ks [] [] rfl]
      by_cases hkey : u = k
      · subst hkey
        rw [readPath_assign_self]
        apply ih
        rw [apart_cons] at hapart
        exact hapart.resolve_left (fun hne => hne rfl)
      · rw [readPath_assign_ne [] _ us hkey]
        exact readPath_null us

/-! ### What a write loses -/

/-- Some expression names the path. -/
def Spelled (cpnId root : String) (keys : List String) : Prop := ∃ exp, parse exp = some (.output cpnId root keys)

section

variable (py) (cpnId root : String)

/-- A path below the value that branches off from the given one reads something. -/
def Lost (before : List String) (value : Json) (ks : List String) : Prop :=
  ∃ us, Spelled cpnId root (before ++ us) ∧ Apart us ks ∧ readPath py (.json value) us ≠ .json .null

def Clean (before : List String) : Json → List String → Prop
  | node, k :: next :: ks =>
    match node.get? k with
    | none => True
    | some child =>
      if child.isObj then Clean (before ++ [k]) child (next :: ks)
      else ¬ Lost py cpnId root (before ++ [k]) child (next :: ks)
  | _, _ => True

/-- The paths that branch off from the given one read the same in both values. -/
def Kept (before : List String) (node after : Json) (ks : List String) : Prop :=
  ∀ us, Spelled cpnId root (before ++ us) → Apart us ks →
    readPath py (.json after) us = readPath py (.json node) us

end

variable {cpnId root : String} {before : List String}

theorem kept_fresh (value node : Json) (k : String) (ks : List String) :
    Kept py cpnId root before node (written value (k :: ks) []) (k :: ks) ↔
      ¬ Lost py cpnId root before node (k :: ks) := by
  rw [Kept, Lost]
  push Not
  apply forall_congr'
  intro us
  apply imp_congr_right
  intro _
  apply imp_congr_right
  intro hapart
  rw [readPath_fresh value k ks us hapart]
  exact eq_comm

theorem not_lost_null (ks : List String) : ¬ Lost py cpnId root before .null ks := by
  rintro ⟨us, -, -, hreads⟩
  exact hreads (readPath_null us)

theorem kept_cons (items : List (String × Json)) (k : String) (ks : List String) (after : Json) :
    Kept py cpnId root before (.obj items) (.obj (Dict.assign items k after)) (k :: ks) ↔
      Kept py cpnId root (before ++ [k]) ((items.lookup k).getD .null) after ks := by
  constructor
  · intro h us hspelled hapart
    rw [append_assoc, singleton_append] at hspelled
    have hread := h (k :: us) hspelled (apart_cons.mpr (.inr hapart))
    rw [readPath_assign_self, readPath_obj] at hread
    exact hread
  · intro h us hspelled hapart
    cases us with
    | nil => exact absurd hapart not_apart_nil
    | cons u us =>
      by_cases hkey : u = k
      · subst hkey
        rw [readPath_assign_self, readPath_obj]
        apply h us
        · rw [append_assoc, singleton_append]
          exact hspelled
        · rw [apart_cons] at hapart
          exact hapart.resolve_left (fun hne => hne rfl)
      · exact readPath_assign_ne items after us hkey

theorem kept_iff_clean (value : Json) (k : String) (ks : List String) (items : List (String × Json)) :
    Kept py cpnId root before (.obj items) (written value (k :: ks) items) (k :: ks) ↔
      Clean py cpnId root before (.obj items) (k :: ks) := by
  induction ks generalizing k items before with
  | nil =>
    rw [Clean, iff_true]
    · intro us _ hapart
      cases us with
      | nil => exact absurd hapart not_apart_nil
      | cons u us => exact readPath_assign_ne items value us (apart_singleton.mp hapart)
    · simp
  | cons next ks ih =>
    obtain ⟨sub, hsub⟩ := exists_childAt items k
    rw [written_next value k next ks items sub hsub, kept_cons, Clean, Json.get?]
    rw [childAt] at hsub
    cases hchild : items.lookup k with
    | none =>
      rw [hchild] at hsub
      obtain rfl := Json.obj.inj hsub
      rw [getD_none, kept_fresh, iff_true]
      exact not_lost_null _
    | some child =>
      rw [hchild] at hsub
      rw [getD_some]
      cases child with
      | obj old =>
        obtain rfl := Json.obj.inj hsub
        exact ih next old
      | _ =>
        obtain rfl := Json.obj.inj hsub
        exact kept_fresh value _ next ks

/-! ### The canvas -/

def Target.Named : Target → Prop
  | global _ => True
  | output _ root _ => root ≠ ""

def Target.Apart : Target → Target → Prop
  | global name, global other => name ≠ other
  | output cpnId root keys, output otherCpn otherRoot otherKeys =>
    ¬ (otherCpn = cpnId ∧ otherRoot = root ∧ (keys <+: otherKeys ∨ otherKeys <+: keys))
  | _, _ => True

/-- What a write at `p` has to do: it succeeds, `p` then reads the value, every path that is neither a beginning
    nor a continuation of `p` reads what it read before; and where it raises it changes nothing. -/
structure Lens (py : Python O) (canvas : Canvas) (p : String) (target : Target) (value : Json) : Prop where
  succeeds : (canvas.setVariableValue p value).2 = true
  reads : (canvas.setVariableValue p value).1.getVariableValue py p = some (.json value)
  keeps : ∀ q other, parse q = some other → other.Named → target.Apart other →
    (canvas.setVariableValue p value).1.getVariableValue py q = canvas.getVariableValue py q
  unchanged : (canvas.setVariableValue p value).2 = false → (canvas.setVariableValue p value).1 = canvas

/-- The component exists, and the output is a dictionary below which the write loses nothing, or a value that is
    false with nothing to lose. -/
def Safe (py : Python O) (canvas : Canvas) : Target → Prop
  | .global _ => True
  | .output cpnId root keys => ∃ outputs, canvas.components.lookup cpnId = some outputs ∧
    (keys = [] ∨
      if (outputs.get root).isObj then Clean py cpnId root [] (outputs.get root) keys
      else (outputs.get root).truthy = false ∧ ¬ Lost py cpnId root [] (outputs.get root) keys)

theorem get_set_self (outputs : Outputs) (hroot : root ≠ "") (value : Json) :
    (outputs.set root value).get root = value := by
  rw [Outputs.get, if_neg hroot, Outputs.set, Dict.lookup_assign_self]
  rfl

theorem get_set_ne (outputs : Outputs) {other : String} (hother : other ≠ "") (hne : other ≠ root)
    (value : Json) : (outputs.set root value).get other = outputs.get other := by
  rw [Outputs.get, Outputs.get, if_neg hother, if_neg hother, Outputs.set, Dict.lookup_assign_ne outputs _ hne]

theorem exists_items {value : Json} (hobj : value.isObj = true) : ∃ items, value = .obj items := by
  cases value with
  | obj items => exact ⟨items, rfl⟩
  | _ => cases hobj

theorem lookup_of_truthy {outputs : Outputs} (hroot : root ≠ "")
    (htrue : (outputs.get root).truthy = true) :
    outputs.lookup root = some (some (outputs.get root)) := by
  rw [Outputs.get, if_neg hroot] at htrue ⊢
  cases hentry : outputs.lookup root with
  | none =>
    rw [hentry] at htrue
    cases htrue
  | some entry =>
    cases entry with
    | none =>
      rw [hentry] at htrue
      cases htrue
    | some value => rfl

theorem writePath_refused (value : Json) (k : String) (ks : List String) {cur : Json} (hcur : cur.isObj = false) :
    writePath value (k :: ks) cur = (cur, false) := by
  cases cur with
  | obj items => cases hcur
  | _ => cases ks <;> rfl

namespace Canvas

variable {canvas : Canvas} {p : String} {keys : List String} {outputs : Outputs}

section

variable (hp : parse p = some (.output cpnId root keys))
  (houtputs : canvas.components.lookup cpnId = some outputs)
include hp houtputs

theorem set_output (value : Json) :
    canvas.setVariableValue p value =
      ({ canvas with components := Dict.assign canvas.components cpnId (writeOutput outputs root keys value).1 },
        (writeOutput outputs root keys value).2) := by
  rw [setVariableValue, hp]
  dsimp only
  rw [houtputs]

theorem get_output :
    canvas.getVariableValue py p = some (readPath py (.json (outputs.get root)) keys) := by
  rw [getVariableValue, hp, bind_some]
  dsimp only
  rw [houtputs, map_some]

end

theorem writeOutput_obj {items : List (String × Json)} (hroot : outputs.get root = .obj items)
    (value : Json) :
    writeOutput outputs root (k :: ks) value = (outputs.set root (written value (k :: ks) items), true) := by
  have hitems : (if (outputs.get root).truthy then outputs.get root else .obj []) = .obj items := by
    rw [hroot]
    cases items with
    | nil => rfl
    | cons item items => rfl
  obtain ⟨after, hafter⟩ := writePath_obj value k ks items
  rw [writeOutput, if_neg (cons_ne_nil k ks)]
  dsimp only
  rw [hitems, written, hafter]

theorem writeOutput_false (hfalse : (outputs.get root).truthy = false) (value : Json) :
    writeOutput outputs root (k :: ks) value = (outputs.set root (written value (k :: ks) []), true) := by
  obtain ⟨after, hafter⟩ := writePath_obj value k ks []
  rw [writeOutput, if_neg (cons_ne_nil k ks)]
  dsimp only
  rw [hfalse, if_neg Bool.false_ne_true, written, hafter]

theorem writeOutput_refused (htrue : (outputs.get root).truthy = true)
    (hobj : (outputs.get root).isObj = false) (value : Json) :
    writeOutput outputs root (k :: ks) value = (outputs, false) := by
  have hroot : root ≠ "" := by
    rintro rfl
    cases hobj
  rw [writeOutput, if_neg (cons_ne_nil k ks)]
  dsimp only
  rw [if_pos htrue, writePath_refused value k ks hobj, Outputs.set,
    Dict.assign_lookup outputs (lookup_of_truthy hroot htrue)]

theorem set_raised (value : Json) (hraised : (canvas.setVariableValue p value).2 = false) :
    (canvas.setVariableValue p value).1 = canvas := by
  cases hp : parse p with
  | none => rw [setVariableValue, hp]
  | some target =>
    cases target with
    | global name =>
      rw [setVariableValue, hp] at hraised
      cases hraised
    | output cpnId root keys =>
      cases houtputs : canvas.components.lookup cpnId with
      | none =>
        rw [setVariableValue, hp]
        dsimp only
        rw [houtputs]
      | some outputs =>
        rw [set_output hp houtputs] at hraised ⊢
        have hsame : writeOutput outputs root keys value = (outputs, false) := by
          cases keys with
          | nil => cases hraised
          | cons k ks =>
            cases htrue : (outputs.get root).truthy with
            | false =>
              rw [writeOutput_false htrue] at hraised
              cases hraised
            | true =>
              cases hobj : (outputs.get root).isObj with
              | false => exact writeOutput_refused htrue hobj value
              | true =>
                obtain ⟨items, hitems⟩ := exists_items hobj
                rw [writeOutput_obj hitems] at hraised
                cases hraised
        rw [hsame, Dict.assign_lookup canvas.components houtputs]

theorem lens_iff_kept (hroot : root ≠ "") (hp : parse p = some (.output cpnId root keys))
    (houtputs : canvas.components.lookup cpnId = some outputs) {value after : Json}
    (hwrite : writeOutput outputs root keys value = (outputs.set root after, true))
    (hreads : readPath py (.json after) keys = .json value) :
    Lens py canvas p (.output cpnId root keys) value ↔ Kept py cpnId root [] (outputs.get root) after keys := by
  have hset := set_output hp houtputs value
  rw [hwrite] at hset
  have hself : (Dict.assign canvas.components cpnId (outputs.set root after)).lookup cpnId =
      some (outputs.set root after) := Dict.lookup_assign_self _ _ _
  constructor
  · rintro ⟨-, -, hkeeps, -⟩ us ⟨q, hq⟩ hapart
    have hsame := hkeeps q (.output cpnId root us) hq hroot (by
      rintro ⟨-, -, hprefix⟩
      exact hprefix.elim hapart.2 hapart.1)
    rw [hset, get_output hq hself, get_output hq houtputs, get_set_self outputs hroot] at hsame
    exact Option.some.inj hsame
  · intro hkept
    refine ⟨by rw [hset], ?_, ?_, set_raised value⟩
    · rw [hset, get_output hp hself, get_set_self outputs hroot, hreads]
    · intro q other hq hnamed hapart
      rw [hset]
      cases other with
      | global name => rw [getVariableValue, getVariableValue, hq, bind_some, bind_some]
      | output otherCpn otherRoot otherKeys =>
        by_cases hcpn : otherCpn = cpnId
        · subst hcpn
          rw [get_output hq hself, get_output hq houtputs]
          by_cases hsame : otherRoot = root
          · subst hsame
            rw [get_set_self outputs hroot]
            apply congrArg some
            apply hkept otherKeys ⟨q, hq⟩
            constructor
            · intro hprefix
              exact hapart ⟨rfl, rfl, .inr hprefix⟩
            · intro hprefix
              exact hapart ⟨rfl, rfl, .inl hprefix⟩
          · rw [get_set_ne outputs hnamed hsame]
        · rw [getVariableValue, getVariableValue, hq, bind_some, bind_some]
          dsimp only
          rw [Dict.lookup_assign_ne canvas.components _ hcpn]

theorem lens_global {name : String} (hp : parse p = some (.global name)) (value : Json) :
    Lens py canvas p (.global name) value := by
  have hset : canvas.setVariableValue p value =
      ({ canvas with globals := Dict.assign canvas.globals name value }, true) := by rw [setVariableValue, hp]
  refine ⟨by rw [hset], ?_, ?_, set_raised value⟩
  · rw [hset, getVariableValue, hp, bind_some]
    dsimp only
    rw [Dict.lookup_assign_self, map_some]
  · intro q other hq _ hapart
    rw [hset, getVariableValue, getVariableValue, hq, bind_some, bind_some]
    cases other with
    | global otherName =>
      dsimp only
      rw [Dict.lookup_assign_ne canvas.globals value (Ne.symm hapart)]
    | output cpnId root keys => rfl

/-- The lens laws hold exactly where the component exists and the write loses nothing. -/
theorem lens_iff_safe (canvas : Canvas) (p : String) (target : Target) (hp : parse p = some target)
    (hnamed : target.Named) (value : Json) : Lens py canvas p target value ↔ Safe py canvas target := by
  cases target with
  | global name => exact iff_of_true (lens_global hp value) trivial
  | output cpnId root keys =>
    rw [Safe]
    cases houtputs : canvas.components.lookup cpnId with
    | none =>
      have hset : canvas.setVariableValue p value = (canvas, false) := by
        rw [setVariableValue, hp]
        dsimp only
        rw [houtputs]
      apply iff_of_false
      · rintro ⟨hsucceeds, -⟩
        rw [hset] at hsucceeds
        cases hsucceeds
      · rintro ⟨outputs, hsome, -⟩
        cases hsome
    | some outputs =>
      simp only [Option.some.injEq, exists_eq_left']
      cases keys with
      | nil =>
        have hwrite : writeOutput outputs root [] value = (outputs.set root value, true) := rfl
        rw [lens_iff_kept hnamed hp houtputs hwrite rfl]
        refine iff_of_true ?_ (.inl rfl)
        intro us _ hapart
        exact absurd (List.nil_prefix) hapart.2
      | cons k ks =>
        rw [or_iff_right (cons_ne_nil k ks)]
        cases hobj : (outputs.get root).isObj with
        | true =>
          obtain ⟨items, hitems⟩ := exists_items hobj
          rw [if_pos rfl, lens_iff_kept hnamed hp houtputs (writeOutput_obj hitems value)
            (readPath_written value k ks items), hitems]
          exact kept_iff_clean value k ks items
        | false =>
          rw [if_neg Bool.false_ne_true]
          cases htrue : (outputs.get root).truthy with
          | false =>
            rw [lens_iff_kept hnamed hp houtputs (writeOutput_false htrue value) (readPath_written value k ks []),
              kept_fresh]
            simp
          | true =>
            apply iff_of_false
            · rintro ⟨hsucceeds, -⟩
              rw [set_output hp houtputs, writeOutput_refused htrue hobj] at hsucceeds
              cases hsucceeds
            · rintro ⟨hfalse, -⟩
              cases hfalse

end Canvas

def sampleLibrary : Python Empty := ⟨fun _ => none, fun _ => none, fun _ _ => .json .null, fun _ _ => .json .null⟩

def sampleCanvas (value : Json) : Canvas := ⟨[], [("C", [("x", some value)])]⟩

theorem lens_nested : Lens sampleLibrary (sampleCanvas (.obj [("a", .obj [])])) "{C@x.a.b}"
    (.output "C" "x" ["a", "b"]) (.int 1) := by
  have hnamed : (Target.output "C" "x" ["a", "b"]).Named := (by decide : "x" ≠ "")
  refine (Canvas.lens_iff_safe _ _ _ (by decide +kernel) hnamed _).mpr ?_
  exact ⟨[("x", some (.obj [("a", .obj [])]))], by decide, .inr trivial⟩

/-- An element of a list can be read, but not written. -/
theorem element_not_written :
    (sampleCanvas (.arr [.int 7])).getVariableValue sampleLibrary "C@x.0" = some (.json (.int 7)) ∧
      parse "C@x.0" = some (.output "C" "x" ["0"]) ∧
      ¬ Lens sampleLibrary (sampleCanvas (.arr [.int 7])) "C@x.0" (.output "C" "x" ["0"]) (.int 1) := by
  refine ⟨by decide +kernel, by decide +kernel, ?_⟩
  rintro ⟨hsucceeds, -⟩
  have hraises : ((sampleCanvas (.arr [.int 7])).setVariableValue "C@x.0" (.int 1)).2 = false := by decide +kernel
  rw [hraises] at hsucceeds
  cases hsucceeds

end MultiRag.VariableStore
