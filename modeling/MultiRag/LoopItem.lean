/-
  **`LoopItem`: the counter of a Loop** (`agent/component/loopitem.py`).

  The start component of a Loop keeps the number of rounds `_idx` on the component object. Each
  invocation counts a round, or sets the counter to −1 when the maximum is reached; then
  post-processing asks `end`, which evaluates the conditions and sets the counter to −1 as well
  when they hold. Nothing sets it back to 0: an invocation after the end finds −1 and counts to 0.
-/
import MultiRag.CanvasRun
import MultiRag.PyValue

namespace MultiRag.Agent

open List

/-- An item of `loop_termination_condition`; a field that is missing has its default. -/
structure LoopCondition where
  variableRef : String
  operator : String
  inputMode : String
  value : Json

structure LoopParams where
  maximumLoopCount : Int
  loopTerminationCondition : List LoopCondition
  /-- `none` without the attribute. -/
  logicalOperator : Option String

/-! ### The termination condition -/

/-- `==`, `<` and `<=` of two values; `none` is a `TypeError`. -/
structure Comparisons where
  eq : Json → Json → Bool
  lt : Json → Json → Option Bool
  le : Json → Json → Option Bool

def textContains (var : String) : Json → Option Bool
  | .str value => some (value.toList <:+: var.toList)
  | _ => none

def evaluateText (var : String) (operator : String) (value : Json) : Option Bool :=
  match operator, value with
  | "contains", _ => textContains var value
  | "not contains", _ => (textContains var value).map not
  | "start with", .str start => some (start.toList <+: var.toList)
  | "end with", .str stop => some (stop.toList <:+ var.toList)
  | "is", _ => some (value = .str var)
  | "is not", _ => some (value ≠ .str var)
  | "empty", _ => some (var = "")
  | "not empty", _ => some (var ≠ "")
  | _, _ => none

def evaluateBool (var : Bool) (operator : String) (value : Json) : Option Bool :=
  match operator with
  | "is" => some (value = .bool var)
  | "is not" => some (value ≠ .bool var)
  | "empty" => some false
  | "not empty" => some true
  | _ => none

def evaluateNumber (cmp : Comparisons) (var : Json) (operator : String) (value : Json) : Option Bool :=
  match operator with
  | "=" => some (cmp.eq var value)
  | "≠" => some (!cmp.eq var value)
  | ">" => cmp.lt value var
  | "<" => cmp.lt var value
  | "≥" => cmp.le value var
  | "≤" => cmp.le var value
  | "empty" => some false
  | "not empty" => some true
  | _ => none

def evaluateList (cmp : Comparisons) (var : List Json) (operator : String) (value : Json) : Option Bool :=
  match operator with
  | "contains" => some (var.any fun item => cmp.eq item value)
  | "not contains" => some (!var.any fun item => cmp.eq item value)
  | "is" => some (cmp.eq (.arr var) value)
  | "is not" => some (!cmp.eq (.arr var) value)
  | "empty" => some var.isEmpty
  | "not empty" => some (!var.isEmpty)
  | _ => none

def evaluateCondition (cmp : Comparisons) (var : Json) (operator : String) (value : Json) : Option Bool :=
  match var with
  | .str text => evaluateText text operator value
  | .bool b => evaluateBool b operator value
  | .int _ | .float _ => evaluateNumber cmp var operator value
  | .obj items =>
    if operator = "empty" then some items.isEmpty
    else if operator = "not empty" then some (!items.isEmpty)
    else none
  | .arr items => evaluateList cmp items operator value
  | .null => some (operator = "empty")

/-- What one call of `end` reads: the variables; `none` is an exception. -/
structure LoopReads where
  getVariableValue : String → Option Json

def LoopReads.reference (reads : LoopReads) : Json → Option Json
  | .str text => reads.getVariableValue text
  | _ => none

def LoopCondition.compared (item : LoopCondition) (reads : LoopReads) : Option Json :=
  if item.inputMode = "variable" then reads.reference item.value
  else if item.inputMode = "constant" then some item.value
  else none

def LoopCondition.holds (cmp : Comparisons) (item : LoopCondition) (reads : LoopReads) : Option Bool :=
  if item.variableRef = "" ∨ item.operator = "" then none
  else (reads.getVariableValue item.variableRef).bind fun var =>
    (item.compared reads).bind fun value => evaluateCondition cmp var item.operator value

def LoopParams.shouldEnd (cmp : Comparisons) (params : LoopParams) (reads : LoopReads) : Option Bool :=
  (params.loopTerminationCondition.mapM fun item : LoopCondition => item.holds cmp reads).bind fun conditions =>
    if params.logicalOperator.getD "and" = "and" then some (conditions.all id)
    else if params.logicalOperator.getD "and" = "or" then some (conditions.any id)
    else none

/-! ### The counter -/

structure LoopItemState where
  idx : Int
  error : Bool

/-- The answers of `check_if_canceled` in one invocation; the second one is asked after the first round only. -/
structure CancelChecks where
  first : Bool
  second : Bool

def invokeLoopItem (params : LoopParams) (checks : CancelChecks) (state : LoopItemState) : LoopItemState :=
  if checks.first then { state with error := true }
  else if params.maximumLoopCount ≤ state.idx then { state with idx := -1 }
  else if 0 < state.idx ∧ checks.second then { state with error := true }
  else { state with idx := state.idx + 1 }

def invokeLoopItems (params : LoopParams) (checks : List CancelChecks) (state : LoopItemState) : LoopItemState :=
  checks.foldl (fun state checks => invokeLoopItem params checks state) state

def loopItemEnd (cmp : Comparisons) (params : LoopParams) (reads : LoopReads) (state : LoopItemState) :
    Option (Bool × LoopItemState) :=
  if state.idx = -1 then some (true, state)
  else (params.shouldEnd cmp reads).map fun shouldEnd =>
    if shouldEnd then (true, { state with idx := -1 }) else (false, state)

/-- The calls of `end` in one post-processing. -/
def loopItemEnds (cmp : Comparisons) (params : LoopParams) :
    List LoopReads → LoopItemState → Option (List Bool × LoopItemState)
  | [], state => some ([], state)
  | reads :: rest, state =>
    (loopItemEnd cmp params reads state).bind fun first =>
      (loopItemEnds cmp params rest first.2).map fun later => (first.1 :: later.1, later.2)

/-! ### What a batch does to the counter -/

variable {cmp : Comparisons} {params : LoopParams} {reads : LoopReads}

theorem shouldEnd_nil_or (hnil : params.loopTerminationCondition = [])
    (hor : params.logicalOperator = some "or") : params.shouldEnd cmp reads = some false := by
  rw [LoopParams.shouldEnd, hnil, hor]
  rfl

theorem invokeLoopItem_cases (params : LoopParams) (checks : CancelChecks) (state : LoopItemState) :
    invokeLoopItem params checks state = { state with error := true } ∨
      (params.maximumLoopCount ≤ state.idx ∧ invokeLoopItem params checks state = { state with idx := -1 }) ∨
      (state.idx < params.maximumLoopCount ∧
        invokeLoopItem params checks state = { state with idx := state.idx + 1 }) := by
  rw [invokeLoopItem]
  split
  · exact .inl rfl
  · split
    · next hmax => exact .inr (.inl ⟨hmax, rfl⟩)
    · next hmax =>
      split
      · exact .inl rfl
      · exact .inr (.inr ⟨by omega, rfl⟩)

variable {state : LoopItemState}

theorem invokeLoopItems_error (params : LoopParams) (checks : List CancelChecks)
    (herror : state.error = true) : (invokeLoopItems params checks state).error = true := by
  induction checks generalizing state with
  | nil => exact herror
  | cons first checks ih =>
    have hfirst : (invokeLoopItem params first state).error = true := by
      rcases invokeLoopItem_cases params first state with h | ⟨-, h⟩ | ⟨-, h⟩
      · rw [h]
      · rw [h]
        exact herror
      · rw [h]
        exact herror
    exact ih hfirst

/-- The counter of a batch that has no invocation after the end. -/
structure Counted (params : LoopParams) (before after : LoopItemState) (invocations : Nat) : Prop where
  low : -1 ≤ after.idx
  high : after.idx ≤ params.maximumLoopCount.toNat
  grows : after.idx ≠ -1 → before.idx ≤ after.idx
  counts : after.idx ≠ -1 → after.error = false → after.idx = before.idx + invocations

theorem invokeLoopItems_cons (params : LoopParams) (first : CancelChecks) (checks : List CancelChecks)
    (state : LoopItemState) : invokeLoopItems params (first :: checks) state =
      invokeLoopItems params checks (invokeLoopItem params first state) := rfl

theorem invokeLoopItems_counted (params : LoopParams) (checks : List CancelChecks) (state : LoopItemState)
    (hlow : 0 ≤ state.idx) (hhigh : state.idx ≤ params.maximumLoopCount.toNat)
    (hroom : checks.length ≤ 1 ∨ state.idx + checks.length ≤ params.maximumLoopCount + 1) :
    Counted params state (invokeLoopItems params checks state) checks.length := by
  induction checks generalizing state with
  | nil =>
    have hsame : invokeLoopItems params [] state = state := rfl
    rw [hsame]
    exact ⟨by omega, hhigh, fun _ => le_rfl, fun _ _ => by simp⟩
  | cons first checks ih =>
    rw [length_cons] at hroom
    rw [invokeLoopItems_cons]
    rcases invokeLoopItem_cases params first state with h | ⟨hmax, h⟩ | ⟨hmax, h⟩
    · -- canceled: the counter stays
      rw [h]
      obtain ⟨hafterLow, hafterHigh, hgrows, -⟩ := ih { state with error := true } hlow hhigh (by simp only; omega)
      refine ⟨hafterLow, hafterHigh, hgrows, ?_⟩
      intro _ hnone
      rw [invokeLoopItems_error params checks rfl] at hnone
      cases hnone
    · -- the maximum: this is the last invocation of the batch
      obtain rfl : checks = [] := length_eq_zero_iff.mp (by omega)
      rw [h]
      exact ⟨le_rfl, by simp [invokeLoopItems], fun hne => absurd rfl hne, fun hne => absurd rfl hne⟩
    · rw [h]
      obtain ⟨hafterLow, hafterHigh, hgrows, hexact⟩ :=
        ih { state with idx := state.idx + 1 } (by simp only; omega) (by simp only; omega) (by simp only; omega)
      refine ⟨hafterLow, hafterHigh, ?_, ?_⟩
      · intro hne
        have hle := hgrows hne
        simp only at hle
        omega
      · intro hne hnone
        rw [hexact hne hnone, length_cons]
        simp only
        omega

theorem invokeLoopItems_open (params : LoopParams) (checks : List CancelChecks)
    (hlow : 0 ≤ state.idx) (hroom : state.idx + checks.length ≤ params.maximumLoopCount) :
    0 ≤ (invokeLoopItems params checks state).idx := by
  induction checks generalizing state with
  | nil => exact hlow
  | cons first checks ih =>
    rw [length_cons] at hroom
    rw [invokeLoopItems_cons]
    apply ih
    all_goals
      rcases invokeLoopItem_cases params first state with h | ⟨hmax, -⟩ | ⟨-, h⟩
      · rw [h]
        dsimp only
        omega
      · omega
      · rw [h]
        dsimp only
        omega

/-- What the calls of `end` make of the counter. -/
structure Ended (cmp : Comparisons) (params : LoopParams) (reads : List LoopReads) (before : LoopItemState)
    (ends : List Bool) (after : LoopItemState) : Prop where
  error : after.error = before.error
  idx : after.idx = before.idx ∨ after.idx = -1
  started : ends.count false ≤ reads.length
  closed : before.idx = -1 → ends.count false = 0
  /-- A round starts only where the condition does not hold. -/
  condition : Forall₂ (fun reads ended => ended = false → params.shouldEnd cmp reads = some false) reads ends

theorem loopItemEnd_spec {before after : LoopItemState} {ended : Bool}
    (h : loopItemEnd cmp params reads before = some (ended, after)) :
    (ended = true ∧ after = { before with idx := -1 }) ∨
      (ended = false ∧ after = before ∧ before.idx ≠ -1 ∧ params.shouldEnd cmp reads = some false) := by
  rw [loopItemEnd] at h
  split at h
  · next hidx =>
    obtain ⟨rfl, rfl⟩ := Prod.mk.inj (Option.some.inj h)
    left
    refine ⟨rfl, ?_⟩
    rw [← hidx]
  · next hidx =>
    obtain ⟨shouldEnd, hshould, heq⟩ := Option.map_eq_some_iff.mp h
    cases shouldEnd with
    | true =>
      obtain ⟨rfl, rfl⟩ := Prod.mk.inj heq
      exact .inl ⟨rfl, rfl⟩
    | false =>
      obtain ⟨rfl, rfl⟩ := Prod.mk.inj heq
      exact .inr ⟨rfl, rfl, hidx, hshould⟩

theorem loopItemEnds_spec {reads : List LoopReads} {before after : LoopItemState} {ends : List Bool}
    (h : loopItemEnds cmp params reads before = some (ends, after)) : Ended cmp params reads before ends after := by
  induction reads generalizing before ends with
  | nil =>
    obtain ⟨rfl, rfl⟩ := Prod.mk.inj (Option.some.inj h)
    exact ⟨rfl, .inl rfl, le_rfl, fun _ => rfl, .nil⟩
  | cons first reads ih =>
    rw [loopItemEnds, Option.bind_eq_some_iff] at h
    obtain ⟨⟨ended, between⟩, hfirst, hrest⟩ := h
    obtain ⟨⟨later, last⟩, hlater, heq⟩ := Option.map_eq_some_iff.mp hrest
    obtain ⟨rfl, rfl⟩ := Prod.mk.inj heq
    obtain ⟨herror, hidx, hstart, hover, hcondition⟩ := ih hlater
    rcases loopItemEnd_spec hfirst with ⟨rfl, rfl⟩ | ⟨rfl, rfl, hgoes, hshould⟩
    · have hnone := hover rfl
      refine ⟨herror, .inr (hidx.elim id id), ?_, ?_, .cons (fun h => absurd h Bool.noConfusion) hcondition⟩
      · rw [count_cons_of_ne (by simp), hnone]
        exact Nat.zero_le _
      · intro _
        rw [count_cons_of_ne (by simp), hnone]
    · refine ⟨herror, hidx, ?_, fun hover => absurd hover hgoes, .cons (fun _ => hshould) hcondition⟩
      rw [count_cons_self, length_cons]
      exact Nat.succ_le_succ hstart

theorem loopItemEnds_open (hnil : params.loopTerminationCondition = [])
    (hor : params.logicalOperator = some "or") (reads : List LoopReads)
    (hgoes : 0 ≤ state.idx) :
    loopItemEnds cmp params reads state = some (replicate reads.length false, state) := by
  induction reads with
  | nil => rfl
  | cons first reads ih =>
    have hfirst : loopItemEnd cmp params first state = some (false, state) := by
      rw [loopItemEnd, if_neg (by omega), shouldEnd_nil_or hnil hor]
      rfl
    rw [loopItemEnds, hfirst, Option.bind_some, ih]
    rfl

end MultiRag.Agent
