/-
  **JSON values and Python's canonical `json.dumps`.**

  The value type of everything the program persists or hashes: what `json.loads` returns. An
  object is the list of its items in key order, so two objects are equal exactly when the Python
  dictionaries are, and writing the items in list order is `sort_keys=True`. A float is kept as
  the text `json.dumps` writes for it (only finite floats occur: every writer passes
  `allow_nan=False`). `dumps` is `json.dumps(value, ensure_ascii=False, allow_nan=False,
  separators=(",", ":"), sort_keys=True)`, the one form the program hashes, measures and encrypts.
-/
import Mathlib.Data.List.Basic

namespace MultiRag

inductive Json where
  | null
  | bool (b : Bool)
  | int (n : Int)
  | float (text : String)
  | str (s : String)
  | arr (items : List Json)
  | obj (items : List (String × Json))
deriving Repr

namespace Json

/-! ### Decidable equality (through the nested lists) -/

mutual

def decEq : (a b : Json) → Decidable (a = b)
  | .null, .null => isTrue rfl
  | .bool a, .bool b => decidable_of_iff (a = b) (by simp)
  | .int a, .int b => decidable_of_iff (a = b) (by simp)
  | .float a, .float b => decidable_of_iff (a = b) (by simp)
  | .str a, .str b => decidable_of_iff (a = b) (by simp)
  | .arr a, .arr b =>
      match decEqItems a b with
      | isTrue h => isTrue (by rw [h])
      | isFalse h => isFalse (by simpa using h)
  | .obj a, .obj b =>
      match decEqFields a b with
      | isTrue h => isTrue (by rw [h])
      | isFalse h => isFalse (by simpa using h)
  | .null, .bool _ | .null, .int _ | .null, .float _ | .null, .str _ | .null, .arr _
  | .null, .obj _ | .bool _, .null | .bool _, .int _ | .bool _, .float _ | .bool _, .str _
  | .bool _, .arr _ | .bool _, .obj _ | .int _, .null | .int _, .bool _ | .int _, .float _
  | .int _, .str _ | .int _, .arr _ | .int _, .obj _ | .float _, .null | .float _, .bool _
  | .float _, .int _ | .float _, .str _ | .float _, .arr _ | .float _, .obj _ | .str _, .null
  | .str _, .bool _ | .str _, .int _ | .str _, .float _ | .str _, .arr _ | .str _, .obj _
  | .arr _, .null | .arr _, .bool _ | .arr _, .int _ | .arr _, .float _ | .arr _, .str _
  | .arr _, .obj _ | .obj _, .null | .obj _, .bool _ | .obj _, .int _ | .obj _, .float _
  | .obj _, .str _ | .obj _, .arr _ => isFalse (by simp)

def decEqItems : (a b : List Json) → Decidable (a = b)
  | [], [] => isTrue rfl
  | [], _ :: _ | _ :: _, [] => isFalse (by simp)
  | x :: xs, y :: ys =>
      match decEq x y, decEqItems xs ys with
      | isTrue h, isTrue hs => isTrue (by rw [h, hs])
      | isFalse h, _ => isFalse (by simp [h])
      | _, isFalse hs => isFalse (by simp [hs])

def decEqFields : (a b : List (String × Json)) → Decidable (a = b)
  | [], [] => isTrue rfl
  | [], _ :: _ | _ :: _, [] => isFalse (by simp)
  | (k, x) :: xs, (l, y) :: ys =>
      match decEq x y, decEqFields xs ys with
      | isTrue h, isTrue hs => decidable_of_iff (k = l) (by simp [h, hs])
      | isFalse h, _ => isFalse (by simp [h])
      | _, isFalse hs => isFalse (by simp [hs])

end

instance : DecidableEq Json := decEq

/-! ### Access -/

/-- `value.get(key)` on an object; `none` also for every other value. -/
def get? (key : String) : Json → Option Json
  | .obj items => items.lookup key
  | _ => none

def keys : Json → List String
  | .obj items => items.map Prod.fst
  | _ => []

def isObj : Json → Bool
  | .obj _ => true
  | _ => false

def isStr : Json → Bool
  | .str _ => true
  | _ => false

/-! ### Canonical text -/

def hexDigit (n : Nat) : Char := "0123456789abcdef".toList.getD n '0'

/-- One character of a JSON string with `ensure_ascii=False`. -/
def escapeChar (c : Char) : String :=
  if c = '"' then "\\\""
  else if c = '\\' then "\\\\"
  else if c = '\n' then "\\n"
  else if c = '\r' then "\\r"
  else if c = '\t' then "\\t"
  else if c = '\x08' then "\\b"
  else if c = '\x0c' then "\\f"
  else if c.toNat < 32 then
    "\\u00" ++ String.ofList [hexDigit (c.toNat / 16), hexDigit (c.toNat % 16)]
  else String.singleton c

def quote (s : String) : String := "\"" ++ String.join (s.toList.map escapeChar) ++ "\""

mutual

def dumps : Json → String
  | .null => "null"
  | .bool true => "true"
  | .bool false => "false"
  | .int n => toString n
  | .float text => text
  | .str s => quote s
  | .arr items => "[" ++ ",".intercalate (dumpsItems items) ++ "]"
  | .obj items => "\x7b" ++ ",".intercalate (dumpsFields items) ++ "\x7d"

def dumpsItems : List Json → List String
  | [] => []
  | x :: xs => dumps x :: dumpsItems xs

def dumpsFields : List (String × Json) → List String
  | [] => []
  | (k, x) :: xs => (quote k ++ ":" ++ dumps x) :: dumpsFields xs

end

def payloadSize (value : Json) : Nat := value.dumps.utf8ByteSize

example : (Json.obj [("a", .arr [.int 1, .null]), ("b", .str "x\"y")]).dumps
    = "\x7b\"a\":[1,null],\"b\":\"x\\\"y\"\x7d" := by decide

end Json

/-- `str.isspace` on one character. -/
def isPySpace (c : Char) : Bool :=
  let n := c.toNat
  (9 ≤ n && n ≤ 13) || (28 ≤ n && n ≤ 32) || n == 0x85 || n == 0xa0 || n == 0x1680 ||
    (0x2000 ≤ n && n ≤ 0x200a) || n == 0x2028 || n == 0x2029 || n == 0x202f || n == 0x205f ||
    n == 0x3000

def pyStrip (s : String) : String :=
  String.ofList (((s.toList.dropWhile isPySpace).reverse.dropWhile isPySpace).reverse)

/-- `not value.strip()`. -/
def isBlank (s : String) : Bool := s.toList.all isPySpace

def microsecondsPerSecond : Int := 1000000

def seconds (count : Int) : Int := count * microsecondsPerSecond

end MultiRag
