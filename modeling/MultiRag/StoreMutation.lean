/-
  **Updates and deletions of the document stores** (`core/utils/es_conn.py`,
  `core/utils/milvus_conn.py`).

  `ESConnection.update` and `.delete` build a bool query, `MilvusConnection.update` and `.delete`
  the text of a filter. Both act on one row at a time, so an operation is modelled by what becomes
  of a row (`Effect`); `none` is a deleted row. What a store does with a request is an input
  (`Reply`).
-/
import MultiRag.Conjunction
import MultiRag.Fallible
import MultiRag.PyValue

namespace MultiRag.StoreMutation

open Conjunction

abbrev Row := Record String String Json

abbrev Effect := Row → Option Row

def setItem (items : List (String × Json)) (key : String) (value : Json) : List (String × Json) :=
  if items.any (·.1 == key) then items.map fun e => if e.1 = key then (key, value) else e
  else items ++ [(key, value)]

def asList : Json → List Json
  | .arr items => items
  | value => [value]

def isScalar : Json → Bool
  | .str _ | .int _ | .float _ | .bool _ => true
  | _ => false

/-! ### Requests -/

structure Reply where
  reached : Row → Bool
  patched : Row → Row
  again : Bool

/-- The requests of a loop; `write` is what a request does to a row it reaches. -/
def perform (selects : Row → Bool) (write : Reply → Effect) : Nat → List Reply → Effect
  | 0, _, row => some row
  | _ + 1, [], row => some row
  | attempts + 1, reply :: replies, row =>
      match (if selects row && reply.reached row then write reply row else some row) with
      | none => none
      | some row' =>
          if reply.again then perform selects write attempts replies row' else some row'

def each (replies : List Reply) : List Reply :=
  replies.map fun reply => { reply with again := true }

def updating (reply : Reply) : Effect := fun row => some (reply.patched row)

def deleting (_ : Reply) : Effect := fun _ => none

def ATTEMPT_TIME : Nat := 2

/-! ### Elasticsearch queries -/

inductive EsClause where
  | ids (values : List Json)
  | terms (field : String) (values : List Json)
  | term (field : String) (value : Json)
  | exists (field : Json)

structure BoolQuery where
  filter : List EsClause
  must : List EsClause
  mustNot : List EsClause

inductive EsQuery where
  | matchAll
  | bool (query : BoolQuery)

def idText : Json → String
  | .str s => s
  | value => value.dumps

def EsClause.matches (row : Row) : EsClause → Bool
  | .ids values => values.any (idText · == row.key)
  | .terms field values =>
      if field = "id" then values.any (idText · == row.key)
      else (row.values field).any (· ∈ values)
  | .term field value =>
      if field = "id" then idText value == row.key else (row.values field).any (· == value)
  | .exists (.str field) => field != "" && row.values field != []
  | .exists _ => false

def BoolQuery.matches (query : BoolQuery) (row : Row) : Bool :=
  query.filter.all (·.matches row) && query.must.all (·.matches row) &&
    query.mustNot.all (!·.matches row)

def EsQuery.matches (row : Row) : EsQuery → Bool
  | .matchAll => true
  | .bool query => query.matches row

mutual

/-- `json.dumps(value, ensure_ascii=False)` -/
def jsonText : Json → String
  | .arr items => "[" ++ ", ".intercalate (jsonItems items) ++ "]"
  | .obj items => "\x7b" ++ ", ".intercalate (jsonFields items) ++ "\x7d"
  | value => value.dumps

def jsonItems : List Json → List String
  | [] => []
  | x :: xs => jsonText x :: jsonItems xs

def jsonFields : List (String × Json) → List String
  | [] => []
  | (key, x) :: rest => (Json.quote key ++ ": " ++ jsonText x) :: jsonFields rest

end

def typeText : Json → String
  | .null => "<class 'NoneType'>"
  | .bool _ => "<class 'bool'>"
  | .int _ => "<class 'int'>"
  | .float _ => "<class 'float'>"
  | .str _ => "<class 'str'>"
  | .arr _ => "<class 'list'>"
  | .obj _ => "<class 'dict'>"

/-! ### The Elasticsearch connection -/

namespace ESConnection

variable (isPrintable : Char → Bool)

def updateClause (entry : String × Json) : Except String (Option EsClause) :=
  if entry.2.truthy = false then .ok none
  else if entry.1 = "exists" then .ok (some (.exists entry.2))
  else
    match entry.2 with
    | .arr values => .ok (some (.terms entry.1 values))
    | .str _ | .int _ | .bool _ => .ok (some (.term entry.1 entry.2))
    | value => .error ("Condition `" ++ entry.1 ++ "=" ++ pyStr isPrintable value ++
        "` value type is " ++ typeText value ++ ", expected to be int, str or list.")

/-- `re.sub(r"(['\n\r]|\\.)", " ", value)` -/
def scriptText : List Char → List Char
  | [] => []
  | [c] => [if c = '\'' ∨ c = '\n' ∨ c = '\r' then ' ' else c]
  | c :: d :: rest =>
      if c = '\'' ∨ c = '\n' ∨ c = '\r' then ' ' :: scriptText (d :: rest)
      else if c = '\\' ∧ d ≠ '\n' then ' ' :: scriptText rest
      else c :: scriptText (d :: rest)

def scriptsOf (entry : String × Json) : Except String (List (String × List (String × Json))) :=
  if entry.1 = "remove" then
    match entry.2 with
    | .str field => .ok [("ctx._source.remove('" ++ field ++ "');", [])]
    | .obj fields => .ok (fields.map fun f =>
        ("int i=ctx._source." ++ f.1 ++ ".indexOf(params.p_" ++ f.1 ++ ");ctx._source." ++ f.1 ++
          ".remove(i);", [("p_" ++ f.1, f.2)]))
    | _ => .ok []
  else if entry.1 = "add" then
    match entry.2 with
    | .obj fields => fields.mapM fun f =>
        match f.2 with
        | .str text => .ok ("ctx._source." ++ f.1 ++ ".add(params.pp_" ++ f.1 ++ ");",
            [("pp_" ++ f.1, Json.str (pyStrip text))])
        | value => .error (typeText value ++ " object has no attribute 'strip'")
    | _ => .ok []
  else if entry.2.truthy = false ∧ entry.1 ≠ "available_int" then .ok []
  else
    match entry.2 with
    | .str text => .ok [("ctx._source." ++ entry.1 ++ "=params.pp_" ++ entry.1 ++ ";",
        [("pp_" ++ entry.1, .str (String.ofList (scriptText text.toList)))])]
    | .arr items => .ok [("ctx._source." ++ entry.1 ++ "=params.pp_" ++ entry.1 ++ ";",
        [("pp_" ++ entry.1, .str (jsonText (.arr items)))])]
    | .int _ | .float _ | .bool _ =>
        .ok [("ctx._source." ++ entry.1 ++ "=" ++ pyStr isPrintable entry.2 ++ ";", [])]
    | value => .error ("newValue `" ++ entry.1 ++ "=" ++ pyStr isPrintable value ++
        "` value type is " ++ typeText value ++ ", expected to be int, str.")

structure UpdateByQuery where
  query : BoolQuery
  source : String
  params : List (String × Json)

def updateByQuery (condition newValue : List (String × Json)) : Except String UpdateByQuery := do
  let clauses ← condition.mapM (updateClause isPrintable)
  let scripts ← newValue.mapM (scriptsOf isPrintable)
  .ok { query := ⟨clauses.reduceOption, [], []⟩
        source := String.join (scripts.flatten.map Prod.fst)
        params := (scripts.flatten.map Prod.snd).flatten }

/-- The fields whose name ends in `feas` are removed before a document is updated. -/
def isFeature (key : String) : Bool := (key.toList.splitOn '_').getLast? == some "feas".toList

/-- `update`; an exception leaves the rows as they are. -/
def update (condition newValue : List (String × Json)) (knowledgebaseId : String)
    (replies : List Reply) : Except String Effect :=
  let doc := newValue.filter (·.1 ≠ "id")
  let condition := setItem condition "kb_id" (.str knowledgebaseId)
  match condition.lookup "id" with
  | some (.str chunkId) =>
      -- one request for each feature, one for the document; an empty id is refused
      .ok (perform (fun row => chunkId != "" && row.key == chunkId) updating
        ((doc.filter fun e => isFeature e.1).length + 1) (each replies))
  | _ => do
      let request ← updateByQuery isPrintable condition newValue
      .ok (perform request.query.matches updating ATTEMPT_TIME replies)

def deleteClause (entry : String × Json) : Except String BoolQuery :=
  if entry.1 = "id" then .ok ⟨[], [], []⟩
  else if entry.1 = "exists" then .ok ⟨[.exists entry.2], [], []⟩
  else if entry.1 = "must_not" then
    match entry.2 with
    | .obj fields =>
        .ok ⟨[], [], (fields.filter (·.1 = "exists")).map fun f => .exists f.2⟩
    | _ => .ok ⟨[], [], []⟩
  else
    match entry.2 with
    | .arr values => .ok ⟨[], [.terms entry.1 values], []⟩
    | .str _ | .int _ | .bool _ => .ok ⟨[], [.term entry.1 entry.2], []⟩
    | .null => .ok ⟨[], [], []⟩
    | _ => .error "Condition value must be int, str or list."

def deleteIds (condition : List (String × Json)) : List EsClause :=
  match condition.lookup "id" with
  | none => []
  | some value => if asList value = [] then [] else [.ids (asList value)]

def deleteQuery (condition : List (String × Json)) : Except String EsQuery := do
  let clauses ← condition.mapM deleteClause
  let query : BoolQuery :=
    ⟨deleteIds condition ++ clauses.flatMap BoolQuery.filter, clauses.flatMap BoolQuery.must,
      clauses.flatMap BoolQuery.mustNot⟩
  .ok (if query.filter.isEmpty && query.must.isEmpty && query.mustNot.isEmpty then .matchAll
    else .bool query)

def delete (condition : List (String × Json)) (knowledgebaseId : String) (replies : List Reply) :
    Except String Effect :=
  if condition.any (·.1 == "_id") then .error "AssertionError"
  else do
    let query ← deleteQuery (setItem condition "kb_id" (.str knowledgebaseId))
    .ok (perform query.matches deleting ATTEMPT_TIME replies)

end ESConnection

/-! ### The Milvus connection -/

/-- How Milvus reads a filter; `none` when it refuses it. -/
abbrev Backend := String → Option (Row → Bool)

inductive IndexName where
  | name (collection : String)
  | names (collections : List String)

def IndexName.collection : IndexName → Option String
  | .name collection => some collection
  | .names collections => collections.head?

namespace MilvusConnection

def ARRAY_FILTER_FIELDS : List String := ["important_kwd", "question_kwd", "entities_kwd"]

def wellNamed (name : String) : Bool :=
  match name.toList with
  | [] => false
  | c :: rest =>
      (c.isAlpha || c == '_') && rest.all fun d => d.isAlpha || d.isDigit || d == '_'

def updateName (name : String) : String :=
  if name = "id" ∨ name = "_id" then "pk" else name

def updatePart (entry : String × Json) : Except String String :=
  let name := updateName entry.1
  if name = "exists" ∨ name = "must_not" ∨ wellNamed name = false then
    .error ("Unsupported Milvus update condition: " ++ name)
  else if (asList entry.2).any (!isScalar ·) then
    .error ("Unsupported Milvus update condition value: " ++ name)
  else if ARRAY_FILTER_FIELDS.contains name then
    match entry.2 with
    | .arr items => .ok ("ARRAY_CONTAINS_ANY(" ++ name ++ ", " ++ jsonText (.arr items) ++ ")")
    | value => .ok ("ARRAY_CONTAINS(" ++ name ++ ", " ++ jsonText value ++ ")")
  else
    match entry.2 with
    | .arr items => .ok (name ++ " in " ++ jsonText (.arr items))
    | value => .ok (name ++ " == " ++ jsonText value)

def buildMilvusUpdateFilter (condition : List (String × Json)) : Except String String := do
  let parts ← condition.mapM updatePart
  .ok (" && ".intercalate parts)

/-- `update`; an unsupported or empty condition changes nothing. -/
def update (index : IndexName) (condition : List (String × Json)) (backend : Backend)
    (replies : List Reply) : Effect :=
  match index.collection, buildMilvusUpdateFilter condition with
  | some _, .ok filterExpr =>
      if filterExpr = "" then some
      else
        match backend filterExpr with
        | none => some
        | some selects => perform selects updating ATTEMPT_TIME replies
  | _, _ => some

variable (isPrintable : Char → Bool)

def quoteMilvusFilterValue : Json → String
  | .str s => "'" ++ s ++ "'"
  | value => pyStr isPrintable value

def buildMilvusFilterClause (name : String) (value : Json) : String :=
  if ARRAY_FILTER_FIELDS.contains name then
    match value with
    | .arr items => "ARRAY_CONTAINS_ANY(" ++ name ++ ", [" ++
        ",".intercalate (items.map (quoteMilvusFilterValue isPrintable)) ++ "])"
    | value => "ARRAY_CONTAINS(" ++ name ++ ", " ++ quoteMilvusFilterValue isPrintable value ++ ")"
  else
    match value with
    | .arr items => name ++ " in [" ++
        ",".intercalate (items.map (quoteMilvusFilterValue isPrintable)) ++ "]"
    | .str s => name ++ " == '" ++ s ++ "'"
    | value => name ++ " == " ++ pyStr isPrintable value

def deleteScope (condition : List (String × Json)) (datasetId : Option String) :
    List (String × Json) :=
  match datasetId with
  | none => condition
  | some dataset =>
      if dataset ≠ "" ∧ condition.any (·.1 == "kb_id") = false then
        condition ++ [("kb_id", .str dataset)]
      else condition

def chunkIds (condition : List (String × Json)) : Json :=
  ((condition.lookup "id").getD .null).pyOr ((condition.lookup "pk").getD .null)

def idPart (condition : List (String × Json)) : List String :=
  if (chunkIds condition).truthy = false then []
  else
    let texts := (asList (chunkIds condition)).map fun id => "'" ++ pyStr isPrintable id ++ "'"
    ["pk in [" ++ ",".intercalate texts ++ "]"]

def deletePart (entry : String × Json) : Option String :=
  if entry.1 = "pk" ∨ entry.1 = "id" ∨ entry.2.truthy = false then none
  else
    match entry.2 with
    | .arr _ | .str _ | .int _ | .float _ | .bool _ =>
        some (buildMilvusFilterClause isPrintable entry.1 entry.2)
    | _ => none

def deleteFilter (condition : List (String × Json)) (datasetId : Option String) : String :=
  let condition := deleteScope condition datasetId
  " && ".intercalate (idPart isPrintable condition ++ condition.filterMap (deletePart isPrintable))

/-- `delete`; a missing collection or an empty filter changes nothing. -/
def delete (index : IndexName) (hasCollection : String → Bool) (condition : List (String × Json))
    (datasetId : Option String) (backend : Backend) (replies : List Reply) : Effect :=
  match index.collection with
  | none => some
  | some collection =>
      if hasCollection collection = false then some
      else if deleteFilter isPrintable condition datasetId = "" then some
      else
        match backend (deleteFilter isPrintable condition datasetId) with
        | none => some
        | some selects => perform selects deleting 1 replies

end MilvusConnection

end MultiRag.StoreMutation
