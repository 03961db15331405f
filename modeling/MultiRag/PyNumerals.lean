/-
  **Numbers and words in Python strings.**

  `float(text)` and `int(text)` with underscores, Unicode digits and the limit on
  long integers, and `str.split`.
-/
import MultiRag.PyData

namespace MultiRag

def isAsciiDigit (c : Char) : Bool := '0' ≤ c && c ≤ '9'

def digitsValue (digits : List Nat) : Nat := digits.foldl (fun value digit => value * 10 + digit) 0

def joinWords (text : String) : String :=
  " ".intercalate (((text.toList.splitOnP isPySpace).filter (· ≠ [])).map String.ofList)

variable (unicodeDecimal : Char → Option Nat)

/-- Digits and spaces above ASCII become ASCII ones, everything else there `?`. -/
def asciiDecimal (c : Char) : Char :=
  if c.toNat < 128 then c
  else if isPySpace c then ' '
  else match unicodeDecimal c with
    | some digit => Char.ofNat (48 + digit)
    | none => '?'

def isFloatSpace (c : Char) : Bool := (9 ≤ c.toNat && c.toNat ≤ 13) || c == ' '

def dropUnderscores (previous : Char) : List Char → Option (List Char)
  | [] => if previous = '_' then none else some []
  | c :: rest =>
    if c = '_' then if isAsciiDigit previous then dropUnderscores c rest else none
    else if previous = '_' ∧ ¬ isAsciiDigit c then none
    else (dropUnderscores c rest).map (c :: ·)

def signed : List Char → Bool × List Char
  | '-' :: rest => (true, rest)
  | '+' :: rest => (false, rest)
  | chars => (false, chars)

def asciiDigits (chars : List Char) : List Nat := chars.map fun c => c.toNat - 48

def exponentPart : List Char → Option Int
  | [] => some 0
  | c :: rest =>
    if c = 'e' ∨ c = 'E' then
      let (negative, digits) := signed rest
      if digits ≠ [] ∧ digits.all isAsciiDigit then
        some (if negative then -digitsValue (asciiDigits digits) else digitsValue (asciiDigits digits))
      else none
    else none

/-- Digits, a point with more digits, and an exponent: the number is `mantissa * 10 ^ exponent`. -/
def decimalPart (chars : List Char) : Option (Nat × Int) :=
  let (whole, rest) := chars.span isAsciiDigit
  let (fraction, rest) := match rest with
    | '.' :: rest => rest.span isAsciiDigit
    | rest => ([], rest)
  if whole = [] ∧ fraction = [] then none
  else (exponentPart rest).map fun exponent =>
    (digitsValue (asciiDigits (whole ++ fraction)), exponent - fraction.length)

def infinityOrNan (chars : List Char) : Option Float.Model :=
  let lower := String.ofList (chars.map Char.toLower)
  if lower = "inf" ∨ lower = "infinity" then some (.pack (.infinity .positive))
  else if lower = "nan" then some (.pack .notANumber)
  else none

def floatOfText (text : String) : Option Float.Model :=
  let chars := text.toList.map (asciiDecimal unicodeDecimal)
  let stripped := ((chars.dropWhile isFloatSpace).reverse.dropWhile isFloatSpace).reverse
  match dropUnderscores '\x00' stripped with
  | none => none
  | some chars =>
    let (negative, magnitude) := signed chars
    let value := match decimalPart magnitude with
      | some (mantissa, exponent) => some (Float.Model.ofScientific mantissa exponent)
      | none => infinityOrNan magnitude
    value.map fun x => if negative then x.neg else x

/-! ### `int(text)` -/

def decimalDigit (c : Char) : Option Nat :=
  if isAsciiDigit c then some (c.toNat - 48) else if c.toNat < 128 then none else unicodeDecimal c

/-- The text matches `0|[1-9]\d*`; its digits. -/
def naturalDigits : List Char → Option (List Nat)
  | [] => none
  | ['0'] => some [0]
  | c :: rest =>
    if '1' ≤ c ∧ c ≤ '9' then (rest.mapM (decimalDigit unicodeDecimal)).map ((c.toNat - 48) :: ·) else none

/-- `int(text)` where the text is an integer in normal form; Python refuses more than 4300 digits. -/
def intOfText (text : String) : Option Int :=
  let (negative, chars) := match text.toList with
    | '-' :: rest => (true, rest)
    | chars => (false, chars)
  match naturalDigits unicodeDecimal chars with
  | none => none
  | some digits =>
    if 4300 < digits.length then none
    else some (if negative then -digitsValue digits else digitsValue digits)

example : ([" -1_0.5 ", "5.25e1", "1__0", ".", "-inf", "1e400"].map fun text =>
      (floatOfText (fun _ => none) text).map floatReal) =
    [some (.finite (-21 / 2)), some (.finite (105 / 2)), none, none, some (.infinite true),
      some (.infinite false)] := by decide +kernel
example : ["-120", "007", "1.0", "-0"].map (intOfText fun _ => none) =
    [some (-120), none, none, some 0] := by decide +kernel

end MultiRag
