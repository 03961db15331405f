/-
  **Python operations on JSON values.**

  Truth, `or`, `dict.get`, `repr` and `str`, for code that works on values as
  `json.loads` returns them.  `repr` escapes what is not printable;
  `str.isprintable` above ASCII is the parameter `isPrintable`.
-/
import MultiRag.Dict
import MultiRag.Json

namespace MultiRag

open List

theorem intercalate_ne_empty {separator : String} {parts : List String} {part : String} (hpart : part ∈ parts)
    (h : part ≠ "") : separator.intercalate parts ≠ "" := by
  induction parts with
  | nil => cases hpart
  | cons first rest ih =>
    by_cases hrest : rest = []
    · rw [hrest] at hpart ⊢
      rwa [String.intercalate_singleton, ← mem_singleton.mp hpart]
    · rw [String.intercalate_cons_of_ne_nil hrest, Ne, String.append_eq_empty_iff, String.append_eq_empty_iff]
      rintro ⟨⟨rfl, -⟩, hempty⟩
      exact ih ((mem_cons.mp hpart).resolve_left h) hempty

namespace Json

theorem get?_obj {items : List (String × Json)} {key : String} {value : Json}
    (hdist : (items.map Prod.fst).Nodup) :
    (obj items).get? key = some value ↔ (key, value) ∈ items :=
  lookup_iff_mem hdist

def truthy : Json → Bool
  | .null => false
  | .bool b => b
  | .int n => n != 0
  | .float text => text != "0.0" && text != "-0.0"
  | .str s => s != ""
  | .arr items => !items.isEmpty
  | .obj items => !items.isEmpty

/-- `a or b` -/
def pyOr (a b : Json) : Json := if a.truthy then a else b

def getD (d : Json) (key : String) : Json := (d.get? key).getD .null

end Json

variable (isPrintable : Char → Bool)

def hexDigits : Nat → Nat → List Char
  | 0, _ => []
  | count + 1, n => hexDigits count (n / 16) ++ [Json.hexDigit (n % 16)]

def reprChar (quote c : Char) : List Char :=
  if c = quote ∨ c = '\\' then ['\\', c]
  else if c = '\t' then ['\\', 't']
  else if c = '\n' then ['\\', 'n']
  else if c = '\r' then ['\\', 'r']
  else if 32 ≤ c.toNat ∧ c.toNat < 127 then [c]
  else if 127 < c.toNat ∧ isPrintable c then [c]
  else if c.toNat < 256 then '\\' :: 'x' :: hexDigits 2 c.toNat
  else if c.toNat < 65536 then '\\' :: 'u' :: hexDigits 4 c.toNat
  else '\\' :: 'U' :: hexDigits 8 c.toNat

def reprQuote (s : String) : Char :=
  if s.toList.contains '\'' && !s.toList.contains '"' then '"' else '\''

def reprString (s : String) : List Char :=
  reprQuote s :: s.toList.flatMap (reprChar isPrintable (reprQuote s)) ++ [reprQuote s]

mutual

/-- `repr(value)`, as characters. -/
def reprChars : Json → List Char
  | .null => ['N', 'o', 'n', 'e']
  | .bool true => ['T', 'r', 'u', 'e']
  | .bool false => ['F', 'a', 'l', 's', 'e']
  | .int n => (toString n).toList
  | .float text => text.toList
  | .str s => reprString isPrintable s
  | .arr items => '[' :: reprItems items ++ [']']
  | .obj items => '\x7b' :: reprFields items ++ ['\x7d']

def reprItems : List Json → List Char
  | [] => []
  | [x] => reprChars x
  | x :: y :: rest => reprChars x ++ ',' :: ' ' :: reprItems (y :: rest)

def reprFields : List (String × Json) → List Char
  | [] => []
  | [(key, x)] => reprString isPrintable key ++ ':' :: ' ' :: reprChars x
  | (key, x) :: y :: rest =>
      reprString isPrintable key ++ ':' :: ' ' :: reprChars x ++ ',' :: ' ' :: reprFields (y :: rest)

end

def pyRepr (value : Json) : String := String.ofList (reprChars isPrintable value)

def pyStr : Json → String
  | .str s => s
  | value => pyRepr isPrintable value

example : pyStr (fun _ => false) (.arr [.int 1, .str "it's", .obj [("k", .null)]])
    = "[1, \"it's\", \x7b'k': None\x7d]" := by decide +kernel

end MultiRag
