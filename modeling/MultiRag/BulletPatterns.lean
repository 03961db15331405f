/-
  **The headings of a document.**

  `BULLET_PATTERN` and what `hierarchical_merge` and `tree_merge` share: the shape of
  their sections, the filter, and the tests for titles.
-/
import MultiRag.PyNumerals
import MultiRag.Regex

namespace MultiRag.Bullets

open Regex

/-- `[零一二三四五六七八九十百0-9]+` -/
def numeral : Regex := plus (oneOf "零一二三四五六七八九十百0123456789")

/-- `[零一二三四五六七八九十百]+` -/
def hanNumeral : Regex := plus (oneOf "零一二三四五六七八九十百")

/-- `[\(（]…[\)）]` -/
def parenthesized (body : Regex) : Regex := all [oneOf "(（", body, oneOf ")）"]

/-- `[0-9]{,2}` -/
def shortNumber : Regex := upTo 2 digit

def letters : String := "abcdefghijklmnopqrstuvwxyzABCDEFGHIJKLMNOPQRSTUVWXYZ"

/-- The anchors `^` of the last category are left out: `re.match` starts there. -/
def bulletPattern : List (List Regex) :=
  [[all [lit "第", numeral, alt (all [optional (lit "分"), lit "编"]) (lit "部分")],
    all [lit "第", numeral, lit "章"],
    all [lit "第", numeral, lit "节"],
    all [lit "第", numeral, lit "条"],
    parenthesized hanNumeral],
   [all [lit "第", plus digit, lit "章"],
    all [lit "第", plus digit, lit "节"],
    all [shortNumber, oneOf ". 、"],
    all [shortNumber, lit ".", shortNumber, noneOf (letters ++ "/%~-")],
    all [shortNumber, lit ".", shortNumber, lit ".", shortNumber],
    all [shortNumber, lit ".", shortNumber, lit ".", shortNumber, lit ".", shortNumber]],
   [all [lit "第", numeral, lit "章"],
    all [lit "第", numeral, lit "节"],
    all [hanNumeral, oneOf " 、"],
    parenthesized hanNumeral,
    parenthesized shortNumber],
   [all [lit "PART ", oneOfAll (["ONE", "TWO", "THREE", "FOUR", "FIVE", "SIX", "SEVEN", "EIGHT", "NINE", "TEN"].map lit)],
    all [lit "Chapter ", oneOfAll [all [plus (char 'I'), optional (char 'V')], all [char 'V', star (char 'I')],
      lit "XI", lit "IX", lit "X"]],
    all [lit "Section ", plus digit],
    all [lit "Article ", plus digit]],
   [all [lit "#", noneOf "#"],
    all [lit "##", noneOf "#"],
    all [lit "###", star dot],
    all [lit "####", star dot],
    all [lit "#####", star dot],
    all [lit "######", star dot]]]

def firstMatch (patterns : List Regex) (text : String) : Option Nat := patterns.findIdx? (·.isMatch text)

theorem firstMatch_lt {patterns : List Regex} {text : String} {level : Nat}
    (h : firstMatch patterns text = some level) : level < patterns.length := by
  obtain ⟨hlevel, -⟩ := List.findIdx?_eq_some_iff_getElem.mp h
  exact hlevel

def wordCount (text : String) : Nat := ((text.toList.splitOnP isPySpace).filter (· ≠ [])).length

def notTitle (txt : String) : Bool :=
  if (all [lit "第", numeral, lit "条"]).isMatch txt then false
  else if 12 < wordCount txt ∨ ' ' ∉ txt.toList ∧ 32 ≤ txt.length then true
  else (oneOf ",;，。；！!").isFound txt

def isTitleLayout (layout : String) : Bool := (alt (lit "title") (lit "head")).isFound layout

/-! ### Sections -/

inductive Sections where
  | plain (texts : List String)
  | laidOut (sections : List (String × String))

namespace Sections

def isEmpty : Sections → Bool
  | plain texts => texts.isEmpty
  | laidOut sections => sections.isEmpty

def paired : Sections → List (String × String)
  | plain texts => texts.map fun text => (text, "")
  | laidOut sections => sections

end Sections

def untagged (text : String) : String := pyStrip (String.ofList (text.toList.takeWhile (· ≠ '@')))

def isKept : String × String → Bool
  | (text, _) =>
    text ≠ "" && 1 < (untagged text).length && ! (seq (plus digit) atEnd).isMatch (untagged text)

def kept (sections : Sections) : List (String × String) := sections.paired.filter isKept

end MultiRag.Bullets
