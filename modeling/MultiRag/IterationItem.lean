/-
  **`IterationItem`: the position of an Iteration.**

  The start component of an Iteration keeps the position `_idx` on the component object. Each
  invocation reads the list again, collates the outputs of the round that is over, and shows the
  next item or ends with `_idx = -1`.
-/
import MultiRag.CanvasRun

namespace MultiRag.Agent

variable {V : Type}

/-! ### Invocations -/

/-- What one invocation reads: the value of `items_ref`, unless it is not a list, and
    the outputs of the components at that moment. -/
structure ItemReads (V : Type) where
  items : Option (List V)
  outputs : String → String → V

/-- `_idx`, the outputs `item` (`result` is a copy) and `index`, the collated outputs of
    the Iteration (a falsy one is an empty list), and `_ERROR`. -/
structure ItemState (V : Type) where
  idx : Int
  item : Option V
  index : Option Int
  lists : String → List V
  error : Bool

inductive Shown (V : Type) where
  | item (index : Int) (value : V)
  | ended
  | raised
deriving DecidableEq

def pyIndex (arr : List V) (i : Int) : Option V :=
  if 0 ≤ i then arr[i.toNat]?
  else if -(arr.length : Int) ≤ i then arr[(arr.length + i).toNat]?
  else none

example : pyIndex ["a", "b"] (-1) = some "b" := by decide

/-- What `output_collation` appends to one output of the Iteration.  (The test there on
    the kind of the parent is never true of an Iteration.) -/
def collated (canvas : Canvas) (parent : Component) (outputs : String → String → V)
    (name : String) : List V :=
  canvas.rows.flatMap (fun cpn =>
    if cpn.parentId = some parent.id then
      parent.refOutputs.flatMap (fun o =>
        if o.cid = cpn.id ∧ o.name = name then [outputs cpn.id o.var] else [])
    else [])

def outputCollation (canvas : Canvas) (parent : Component) (outputs : String → String → V)
    (state : ItemState V) : ItemState V :=
  { state with lists := fun name => state.lists name ++ collated canvas parent outputs name }

def collateRound (canvas : Canvas) (parent : Component) (outputs : String → String → V)
    (state : ItemState V) : ItemState V :=
  if 0 < state.idx then outputCollation canvas parent outputs state else state

/-- `invoke` around an exception of `_invoke`. -/
def ItemState.raise (state : ItemState V) (cpn : Component) : ItemState V :=
  if truthy cpn.getExceptionDefaultValue then state else { state with error := true }

def invokeItem (canvas : Canvas) (cpn parent : Component) (state : ItemState V)
    (reads : ItemReads V) : Shown V × ItemState V :=
  match reads.items with
  | none => (.raised, ItemState.raise { state with idx := -1 } cpn)
  | some arr =>
      let state := collateRound canvas parent reads.outputs state
      if (arr.length : Int) ≤ state.idx then (.ended, { state with idx := -1 })
      else
        match pyIndex arr state.idx with
        | none => (.raised, state.raise cpn)
        | some current =>
            (.item state.idx current,
              { state with item := some current, index := some state.idx, idx := state.idx + 1 })

def ItemState.ended (state : ItemState V) : Bool := decide (state.idx = -1)

def invokeItems (canvas : Canvas) (cpn parent : Component) :
    List (ItemReads V) → ItemState V → List (Shown V) × ItemState V
  | [], state => ([], state)
  | reads :: rest, state =>
      let first := invokeItem canvas cpn parent state reads
      let later := invokeItems canvas cpn parent rest first.2
      (first.1 :: later.1, later.2)

/-! ### Runs with one Iteration in view -/

structure IterationState (V : Type) where
  run : RunState
  item : ItemState V

/-- A turn, with what the invocations of the start component read and did in it. -/
structure IterationTurn (V : Type) where
  turn : Turn
  reads : List (ItemReads V)
  shown : List (Shown V)

/-- A step of the run; the start component `cpn` of `parent` is invoked as often as it
    stands in what has run, and post-processing sees its state. -/
structure IterationStep (canvas : Canvas) (cpn parent : Component) (s : IterationState V)
    (e : IterationTurn V) (s' : IterationState V) : Prop where
  turn : RunStep canvas s.run e.turn s'.run
  reads : e.reads.length = e.turn.ran.count cpn.id
  item : invokeItems canvas cpn parent e.reads s.item = (e.shown, s'.item)
  outcome : ∀ done ∈ e.turn.done, done.1 = cpn.id →
    done.2.ended = s'.item.ended ∧ done.2.error = s'.item.error

/-! ### One invocation -/

section

variable {canvas : Canvas} {cpn parent : Component} {state : ItemState V} {reads : ItemReads V}

@[simp] theorem collateRound_idx (outputs : String → String → V) :
    (collateRound canvas parent outputs state).idx = state.idx := by
  unfold collateRound
  split
  · rfl
  · rfl

@[simp] theorem collateRound_error (outputs : String → String → V) :
    (collateRound canvas parent outputs state).error = state.error := by
  unfold collateRound
  split
  · rfl
  · rfl

variable (canvas cpn parent) in
theorem invokeItem_of_lt {arr : List V} {k : Nat} (hitems : reads.items = some arr)
    (hidx : state.idx = k) (hlt : k < arr.length) :
    (invokeItem canvas cpn parent state reads).1 = .item k arr[k] ∧
      (invokeItem canvas cpn parent state reads).2.idx = k + 1 ∧
      (invokeItem canvas cpn parent state reads).2.error = state.error ∧
      (invokeItem canvas cpn parent state reads).2.lists =
        (collateRound canvas parent reads.outputs state).lists := by
  have hnot : ¬ (arr.length : Int) ≤ k := by omega
  have hindex : pyIndex arr k = some arr[k] := by simp [pyIndex, hlt]
  simp [invokeItem, hitems, hidx, hnot, hindex]

variable (canvas cpn parent) in
theorem invokeItem_of_eq {arr : List V} (hitems : reads.items = some arr)
    (hidx : state.idx = arr.length) :
    (invokeItem canvas cpn parent state reads).1 = .ended ∧
      (invokeItem canvas cpn parent state reads).2.idx = -1 ∧
      (invokeItem canvas cpn parent state reads).2.error = state.error ∧
      (invokeItem canvas cpn parent state reads).2.lists =
        (collateRound canvas parent reads.outputs state).lists := by
  simp [invokeItem, hitems, hidx]

variable {child : Component}

theorem collated_eq {o : RefOutput} {outputs : String → String → V}
    (ho : o ∈ parent.refOutputs) (hchild : child ∈ canvas) (hid : child.id = o.cid)
    (hparent : child.parentId = some parent.id) :
    collated canvas parent outputs o.name = [outputs o.cid o.var] := by
  unfold collated
  rw [Table.flatMap_eq_of_nodup_map canvas.nodup (Table.mem_def.mp hchild), if_pos hparent,
    Table.flatMap_eq_of_nodup_map parent.refNames ho, if_pos ⟨hid.symm, rfl⟩, hid]
  · intro o' _ hne
    rw [if_neg (fun h => hne h.2)]
  · intro cpn _ hne
    split
    · rw [List.flatMap_eq_nil_iff]
      intro o' ho'
      rw [if_neg]
      rintro ⟨hcid, hname⟩
      have hsame : o' = o := List.inj_on_of_nodup_map parent.refNames ho' ho hname
      rw [hsame, ← hid] at hcid
      exact hne hcid.symm
    · rfl

theorem collateRound_lists {o : RefOutput} (outputs : String → String → V)
    (ho : o ∈ parent.refOutputs) (hchild : child ∈ canvas) (hid : child.id = o.cid)
    (hparent : child.parentId = some parent.id) :
    (collateRound canvas parent outputs state).lists o.name =
      if 0 < state.idx then state.lists o.name ++ [outputs o.cid o.var] else state.lists o.name := by
  unfold collateRound
  split
  · simp [outputCollation, collated_eq ho hchild hid hparent]
  · rfl

end

end MultiRag.Agent
