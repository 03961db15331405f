/-
  **Migrating an old DSL: `normalize_chunker_dsl`** (`agent/dsl_migration.py`).

  Components with an old name get a new id, and what names them is rewritten: a string that is an
  id, references in braces inside other strings, and the ids of nodes and edges. A change is `none`
  where `dict.get` is asked for a list or a dictionary and raises.
-/
import MultiRag.Dict
import MultiRag.PyValue
import MultiRag.Regex

namespace MultiRag.DslMigration

open Regex

/-! ### Names -/

def COMPONENT_RENAMES : List (String × String) :=
  [("Splitter", "TokenChunker"), ("HierarchicalMerger", "TitleChunker"), ("PDFGenerator", "DocGenerator")]

def NODE_TYPE_RENAMES : List (String × String) := [("splitterNode", "chunkerNode")]

def renamed (renames : List (String × String)) (name : String) : String := (renames.lookup name).getD name

def newId (componentId : String) : String :=
  match COMPONENT_RENAMES.find? fun rename => (rename.1 ++ ":").toList.isPrefixOf componentId.toList with
  | some rename => rename.2 ++ ":" ++ String.ofList (componentId.toList.drop (rename.1 ++ ":").toList.length)
  | none => componentId

/-- `component_id_map.get(text, text)` -/
def mapped (ids : List String) (text : String) : String := if text ∈ ids then newId text else text

/-! ### References in strings -/

def isIdChar (c : Char) : Bool := isWordChar c || c == ':' || c == '_' || c == '-'
where
  isWordChar (c : Char) : Bool := ('A' ≤ c && c ≤ 'Z') || ('a' ≤ c && c ≤ 'z') || ('0' ≤ c && c ≤ '9')

def isPathChar (c : Char) : Bool := isIdChar.isWordChar c || c == '_' || c == '.' || c == '-'

/-- `(\{+\s*)([A-Za-z0-9:_-]+)(@[A-Za-z0-9_.-]+)(\s*\}+)` -/
def VARIABLE_REF_PATTERN : Regex :=
  seq (plus (one (· == '\x7b'))) <| seq (star (one isPySpace)) <| seq (plus (one isIdChar)) <|
    seq (one (· == '@')) <| seq (plus (one isPathChar)) <| seq (star (one isPySpace)) <| plus (one (· == '\x7d'))

def isLead (c : Char) : Bool := c == '\x7b' || isPySpace c

def repl (ids : List String) (found : List Char) : List Char :=
  let rest := found.dropWhile isLead
  found.takeWhile isLead ++ (mapped ids (String.ofList (rest.takeWhile isIdChar))).toList ++ rest.dropWhile isIdChar

def rewriteVariableRefs (ids : List String) (text : String) : String :=
  if text ∈ ids then newId text else VARIABLE_REF_PATTERN.replace (repl ids) text

mutual

def rewriteValue (ids : List String) : Json → Json
  | .str text => .str (rewriteVariableRefs ids text)
  | .arr items => .arr (rewriteItems ids items)
  | .obj items => .obj (rewriteFields ids items)
  | value => value

def rewriteItems (ids : List String) : List Json → List Json
  | [] => []
  | item :: items => rewriteValue ids item :: rewriteItems ids items

def rewriteFields (ids : List String) : List (String × Json) → List (String × Json)
  | [] => []
  | (key, value) :: items => (key, rewriteValue ids value) :: rewriteFields ids items

end

/-! ### Changes of a value -/

def onStr (f : String → String) : Json → Option Json
  | .str text => some (.str (f text))
  | value => some value

def onList (f : Json → Option Json) : Json → Option Json
  | .arr items => (items.mapM f).map .arr
  | value => some value

def onObj (f : List (String × Json) → Option (List (String × Json))) : Json → Option Json
  | .obj items => (f items).map .obj
  | value => some value

/-- `mapping.get(value, value)` of a dictionary with strings as keys. -/
def getKey (f : String → String) : Json → Option Json
  | .arr _ => none
  | .obj _ => none
  | .str text => some (.str (f text))
  | value => some value

/-! ### Components -/

def renameObj (obj : List (String × Json)) : Option (List (String × Json)) :=
  (getKey (renamed COMPONENT_RENAMES) ((obj.lookup "component_name").getD .null)).map (Dict.assign obj "component_name")

def componentChanges (ids : List String) : List (String × (Json → Option Json)) :=
  [("obj", onObj renameObj), ("downstream", onList (getKey (mapped ids))), ("upstream", onList (getKey (mapped ids))),
    ("parent_id", onStr (mapped ids))]

def rewriteComponent (ids : List String) (component : Json) : Option Json :=
  onObj (Dict.updates (componentChanges ids)) (rewriteValue ids component)

def rewriteComponents (ids : List String) (components : List (String × Json)) : Option (List (String × Json)) :=
  (components.mapM fun item => (rewriteComponent ids item.2).map fun component => (newId item.1, component)).map
    Dict.ofItems

/-! ### The graph -/

/-- `text.replace(old, new)`, where `old` is not empty; each step consumes a character. -/
def pyReplace (old new : List Char) : Nat → List Char → List Char
  | 0, text => text
  | _ + 1, [] => []
  | steps + 1, c :: text =>
    if old.isPrefixOf (c :: text) then new ++ pyReplace old new steps ((c :: text).drop old.length)
    else c :: pyReplace old new steps text

def replaceId (text componentId : String) : String :=
  if componentId = "" then text
  else String.ofList (pyReplace componentId.toList (newId componentId).toList text.length text.toList)

def replaceIds (ids : List String) (edgeId : String) : String :=
  (ids.mergeSort fun a b => b.length ≤ a.length).foldl replaceId edgeId

def dataChanges (ids : List String) : List (String × (Json → Option Json)) :=
  [("label", onStr (renamed COMPONENT_RENAMES)), ("name", onStr (renamed COMPONENT_RENAMES)),
    ("form", fun form => some (rewriteValue ids form))]

def nodeChanges (ids : List String) : List (String × (Json → Option Json)) :=
  [("id", onStr (mapped ids)), ("parentId", onStr (mapped ids)), ("type", onStr (renamed NODE_TYPE_RENAMES)),
    ("data", onObj (Dict.updates (dataChanges ids)))]

def edgeChanges (ids : List String) : List (String × (Json → Option Json)) :=
  [("source", onStr (mapped ids)), ("target", onStr (mapped ids)), ("id", onStr (replaceIds ids))]

def graphChanges (ids : List String) : List (String × (Json → Option Json)) :=
  [("nodes", onList (onObj (Dict.updates (nodeChanges ids)))),
    ("edges", onList (onObj (Dict.updates (edgeChanges ids))))]

def dslChanges (ids : List String) : List (String × (Json → Option Json)) :=
  [("components", onObj (rewriteComponents ids)), ("path", onList (getKey (mapped ids))),
    ("graph", onObj (Dict.updates (graphChanges ids))), ("history", fun value => some (rewriteValue ids value)),
    ("messages", fun value => some (rewriteValue ids value)), ("reference", fun value => some (rewriteValue ids value))]

def normalizeChunkerDsl (dsl : Json) : Option Json :=
  match dsl.get? "components" with
  | some (.obj components) => onObj (Dict.updates (dslChanges (components.map Prod.fst))) dsl
  | _ => some dsl

end MultiRag.DslMigration
