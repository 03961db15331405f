/-
  **Agent canvases: components, edges and the lookups of the scheduler.**

  Of a component, the scheduler reads its kind, its downstream list, the container it lives in
  (`parent_id`), the components its input elements refer to, and what to do when it fails. What it
  computes is the `Outcome` that a run supplies.
-/
import Mathlib.Data.List.Infix
import MultiRag.Table

namespace MultiRag.Agent

/-! ### Components -/

/-- `component_name.lower()`, as far as the scheduler tells names apart. -/
inductive ComponentKind where
  | begin
  | userFillUp
  | iteration
  | iterationItem
  | loop
  | loopItem
  | exitLoop
  | categorize
  | switch
  | other
deriving DecidableEq

structure RefOutput where
  name : String
  cid : String
  var : String
deriving DecidableEq

structure Component where
  id : String
  kind : ComponentKind
  downstream : List String
  parentId : Option String
  /-- The `_cpn_id` of the input elements, where there is one. -/
  references : List String
  exceptionMethod : Option String
  exceptionGoto : List String
  exceptionDefaultValue : Option String
  refOutputs : List RefOutput
  /-- Outputs are a mapping from names. -/
  refNames : (refOutputs.map RefOutput.name).Nodup
deriving DecidableEq

/-- `components` of the DSL, in the order of the mapping. -/
abbrev Canvas := Table Component Component.id

def truthy (value : Option String) : Bool := value.any (fun text => text != "")

def ComponentKind.takesRunInputs : ComponentKind → Bool
  | .begin | .userFillUp => true
  | _ => false

structure ExceptionHandler where
  goto : List String
  defaultValue : Option String

def Component.exceptionHandler (cpn : Component) : Option ExceptionHandler :=
  if truthy cpn.exceptionMethod then some ⟨cpn.exceptionGoto, cpn.exceptionDefaultValue⟩ else none

def Component.getExceptionDefaultValue (cpn : Component) : Option String :=
  if cpn.exceptionMethod = some "comment" then cpn.exceptionDefaultValue else some ""

def fillUpId (cpnId : String) : Bool :=
  decide ("userfillup".toList <:+: cpnId.toList.map Char.toLower)

example : fillUpId "UserFillUp:GoldBroomsRelate" = true := by decide +kernel

/-! ### Lookups

`none` is the `TypeError`, `AttributeError` or `KeyError` that ends the run. -/

/-- `get_parent`; the inner `none` is a component outside every container. -/
def Canvas.getParent (canvas : Canvas) (cpn : Component) : Option (Option Component) :=
  match cpn.parentId with
  | none => some none
  | some parentId => if parentId = "" then some none else (canvas.get? parentId).map some

/-- The first component of a kind that names the container as its parent.  A
    component of that kind without a parent before it is the `KeyError`. -/
def Canvas.firstChild (canvas : Canvas) (kind : ComponentKind) (parentId : String) :
    Option (Option String) :=
  match canvas.rows.find? (fun cpn => decide (cpn.kind = kind) &&
      (cpn.parentId.isNone || decide (cpn.parentId = some parentId))) with
  | none => some none
  | some cpn => if cpn.parentId.isNone then none else some (some cpn.id)

def Canvas.getStart (canvas : Canvas) (cpn : Component) : Option (Option String) :=
  match cpn.kind with
  | .iteration => canvas.firstChild .iterationItem cpn.id
  | .loop => canvas.firstChild .loopItem cpn.id
  | _ => none

/-- What post-processing reads of a component after its batch. -/
structure Outcome where
  /-- `bool(cpn_obj.error())` -/
  error : Bool
  /-- `cpn_obj.output("_next")` -/
  next : List String
  /-- `cpn_obj.end()` -/
  ended : Bool
deriving DecidableEq

def Canvas.parentDownstream (canvas : Canvas) (cpn : Component) : Option (List String) :=
  match canvas.getParent cpn with
  | some (some parent) => some parent.downstream
  | _ => none

def Canvas.ownSuccessors (canvas : Canvas) (cpn : Component) : Option (List (Option String)) :=
  if cpn.downstream = [] then
    match canvas.getParent cpn with
    | none => none
    | some none => some []
    | some (some container) => (canvas.getStart container).map (fun start => [start])
  else some (cpn.downstream.map some)

/-- The ids that post-processing hands to `_append_path` or `_extend_path`.  A
    container without an item hands over `None`, and no lookup accepts that. -/
def Canvas.successors (canvas : Canvas) (cpn : Component) (outcome : Outcome) :
    Option (List (Option String)) :=
  if (cpn.kind = .iterationItem ∨ cpn.kind = .loopItem) ∧ outcome.ended = true then
    (canvas.parentDownstream cpn).map (List.map some)
  else if cpn.kind = .categorize ∨ cpn.kind = .switch then
    some (outcome.next.map some)
  else if cpn.kind = .iteration ∨ cpn.kind = .loop then
    (canvas.getStart cpn).map (fun start => [start])
  else if cpn.kind = .exitLoop then
    match canvas.getParent cpn with
    | some (some container) =>
        if container.kind = .loop then some (container.downstream.map some)
        else canvas.ownSuccessors cpn
    | _ => none
  else canvas.ownSuccessors cpn

end MultiRag.Agent
