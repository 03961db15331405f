/-
  **Reading and writing variables of a canvas** (`agent/canvas.py`,
  `common/variable_utils.py`).

  A reference such as `Component:Id@output.key.key` names a path into an output of a
  component, one without `@` a global variable.  The reader goes through dictionaries,
  lists and JSON texts, and asks everything else for an attribute; the writer only goes
  through dictionaries.  An attribute may be any Python object: `O` is the type of those
  that are no JSON value.
-/
import MultiRag.Dict
import MultiRag.PyNumerals
import MultiRag.PyText

namespace MultiRag.VariableStore

inductive Reading (O : Type) where
  | json (value : Json)
  | other (object : O)
deriving DecidableEq

structure Python (O : Type) where
  loads : String → Option Json
  unicodeDecimal : Char → Option Nat
  /-- `getattr(value, key, None)` -/
  attr : Json → String → Reading O
  /-- What the loop makes of any other object and a key. -/
  attrOf : O → String → Reading O

variable {O : Type} (py : Python O)

def pyInt (unicodeDecimal : Char → Option Nat) (text : String) : Option Int :=
  let (negative, chars) := signed (stripChars isFloatSpace (text.toList.map (asciiDecimal unicodeDecimal)))
  match dropUnderscores ' ' chars with
  | none => none
  | some digits =>
    if digits = [] ∨ ¬ digits.all isAsciiDigit ∨ 4300 < digits.length then none
    else some (if negative then -digitsValue (asciiDigits digits) else digitsValue (asciiDigits digits))

def readItem (key : String) : Json → Reading O
  | .obj items => .json ((items.lookup key).getD .null)
  | .arr items => .json (((pyInt py.unicodeDecimal key).bind (pyItem items)).getD .null)
  | value => py.attr value key

/-- One round of the loop; `None` ends it and stays. -/
def readKey (cur : Reading O) (key : String) : Reading O :=
  match cur with
  | .other object => py.attrOf object key
  | .json .null => .json .null
  | .json (.str text) =>
    match py.loads text with
    | none => .json .null
    | some value => readItem py key value
  | .json value => readItem py key value

/-- `get_variable_param_value`, for a path that is split at its dots. -/
def readPath (cur : Reading O) (keys : List String) : Reading O := keys.foldl (readKey py) cur

def childAt (items : List (String × Json)) (key : String) : Json :=
  match items.lookup key with
  | some (.obj sub) => .obj sub
  | _ => .obj []

/-- `set_variable_param_value`: the object afterwards, changed in place, and whether no exception was raised.
    What is no dictionary refuses both `key not in cur` or `cur[key] = …`. -/
def writePath (value : Json) : List String → Json → Json × Bool
  | [], cur => (cur, true)
  | [key], .obj items => (.obj (Dict.assign items key value), true)
  | key :: next :: keys, .obj items =>
    let written := writePath value (next :: keys) (childAt items key)
    (.obj (Dict.assign items key written.1), written.2)
  | _ :: _, cur => (cur, false)

/-! ### References -/

inductive Target where
  | global (name : String)
  | output (cpnId root : String) (keys : List String)
deriving DecidableEq

def stripOne (c : Char) : List Char → List Char := stripChars (· == c)

def bare (exp : String) : List Char :=
  stripOne '\x7d' (stripOne '\x7b' (stripOne ' ' (stripOne '\x7d' (stripOne '\x7b' exp.toList))))

def splitVariable (varNm : List Char) : String × List String :=
  let rest := (varNm.dropWhile (· ≠ '.')).tail
  (String.ofList (varNm.takeWhile (· ≠ '.')), if rest = [] then [] else (rest.splitOn '.').map String.ofList)

/-- A reference with more than one `@` names nothing: `exp.split("@")` does not give two parts. -/
def parse (exp : String) : Option Target :=
  match (bare exp).splitOn '@' with
  | [name] => some (.global (String.ofList name))
  | [cpnId, varNm] => some (.output (String.ofList cpnId) (splitVariable varNm).1 (splitVariable varNm).2)
  | _ => none

/-! ### Components -/

abbrev Outputs := List (String × Option Json)

/-- `ComponentBase.output`; without a name it returns all outputs. -/
def Outputs.get (outputs : Outputs) (varNm : String) : Json :=
  if varNm = "" then .obj (outputs.map fun entry => (entry.1, entry.2.getD .null))
  else match outputs.lookup varNm with
    | none => .str ""
    | some entry => entry.getD (.str "")

def Outputs.set (outputs : Outputs) (key : String) (value : Json) : Outputs := Dict.assign outputs key (some value)

structure Canvas where
  globals : List (String × Json)
  components : List (String × Outputs)

namespace Canvas

def getVariableValue {O : Type} (py : Python O) (canvas : Canvas) (exp : String) : Option (Reading O) :=
  (parse exp).bind fun target =>
    match target with
    | .global name => (canvas.globals.lookup name).map .json
    | .output cpnId root keys =>
      (canvas.components.lookup cpnId).map fun outputs => readPath py (.json (outputs.get root)) keys

/-- The outputs after a write, and whether no exception was raised; a value that is false counts as a new
    dictionary, any other is changed in place. -/
def writeOutput (outputs : Outputs) (root : String) (keys : List String) (value : Json) : Outputs × Bool :=
  if keys = [] then (outputs.set root value, true)
  else
    let rootVal := outputs.get root
    let written := writePath value keys (if rootVal.truthy then rootVal else .obj [])
    (outputs.set root written.1, written.2)

/-- `set_variable_value`: the canvas afterwards, and whether no exception was raised. -/
def setVariableValue (canvas : Canvas) (exp : String) (value : Json) : Canvas × Bool :=
  match parse exp with
  | none => (canvas, false)
  | some (.global name) => ({ canvas with globals := Dict.assign canvas.globals name value }, true)
  | some (.output cpnId root keys) =>
    match canvas.components.lookup cpnId with
    | none => (canvas, false)
    | some outputs =>
      let written := writeOutput outputs root keys value
      ({ canvas with components := Dict.assign canvas.components cpnId written.1 }, written.2)

end Canvas

end MultiRag.VariableStore
