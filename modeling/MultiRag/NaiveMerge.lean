/-
  **`naive_merge` and `naive_merge_with_images`** (`core/nlp/__init__.py`).

  Sections are packed into chunks by a counter of tokens, or cut at custom delimiters. The two
  functions are modelled apart, as the source has them.
-/
import Mathlib.Algebra.Order.Ring.Rat
import Mathlib.Data.List.Dedup
import Mathlib.Data.List.Infix
import Mathlib.Data.List.Sort
import MultiRag.BulletPatterns
import MultiRag.PyText

namespace MultiRag.NaiveMerge

open Bullets Regex

def pyInt (q : ℚ) : Int := q.num.tdiv q.den

/-- `remove_tag` of the PDF parser: `re.sub(r"@@[\t0-9.-]+?##", "", txt)`. -/
def tagPattern : Regex := all [lit "@@", plus (oneOf "\t0123456789.-"), lit "##"]

def removeTag (txt : String) : String := tagPattern.remove txt

def contains (text part : String) : Bool := part.toList <:+: text.toList

/-! ### Custom delimiters -/

def backtick : Char := Char.ofNat 96

def customDelimiters (delimiter : String) : List String :=
  let quoted := all [char backtick, plus (one (· ≠ backtick)), char backtick]
  (quoted.findAll delimiter).map fun found => String.ofList (found.toList.drop 1).dropLast

def customPattern (delimiters : List String) : Regex :=
  oneOfAll ((delimiters.dedup.insertionSort (fun a b => b.length ≤ a.length)).map lit)

variable (tokens : String → Nat) (chunkTokenNum : Int) (overlappedPercent : ℚ)

structure Chunks where
  closed : List String
  last : String
  tokenCount : Nat

def Chunks.all (chunks : Chunks) : List String := chunks.closed ++ [chunks.last]

def limit : ℚ := chunkTokenNum * (100 - overlappedPercent) / 100

def overlap (chunk : String) : String :=
  let overlapped := removeTag chunk
  String.ofList (pyDrop overlapped.toList (pyInt (overlapped.length * (100 - overlappedPercent) / 100)))

def shownPosition (t pos : String) : String := if tokens t < 8 then "" else pos

/-- A text with its position, unless `context` shows the position. -/
def located (context t pos : String) : String := if contains context pos then t else t ++ pos

def addChunk (chunks : Chunks) (t pos : String) : Chunks :=
  let tnum := tokens t
  let pos := shownPosition tokens t pos
  if chunks.last = "" ∨ limit chunkTokenNum overlappedPercent < chunks.tokenCount then
    let t := overlap overlappedPercent chunks.last ++ t
    ⟨chunks.closed ++ [chunks.last], located t t pos, tnum⟩
  else
    ⟨chunks.closed, chunks.last ++ located chunks.last t pos, chunks.tokenCount + tnum⟩

def cutChunk (subSec pos : String) : String :=
  let text := "\n" ++ subSec
  located text text (shownPosition tokens text pos)

def cutSection (pattern : Regex) (sec : String × String) : List String :=
  ((pattern.split sec.1).filter (! pattern.isFullMatch ·)).map (cutChunk tokens · sec.2)

/-- `naive_merge` of a list; of pairs, if it does not hold texts. -/
def naiveMerge (delimiter : String) (sections : Sections) : List String :=
  if sections.isEmpty then []
  else
    let delimiters := customDelimiters delimiter
    if delimiters ≠ [] then sections.paired.flatMap (cutSection tokens (customPattern delimiters))
    else
      (sections.paired.foldl
        (fun chunks sec => addChunk tokens chunkTokenNum overlappedPercent chunks ("\n" ++ sec.1) sec.2)
        ⟨[], "", 0⟩).all

def naiveMergeText (delimiter : String) (text : String) : List String :=
  if text = "" then [] else naiveMerge tokens chunkTokenNum overlappedPercent delimiter (.plain [text])

end MultiRag.NaiveMerge
