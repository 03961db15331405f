/-
  **The text around tables: `append_context2table_image4pdf`** (`core/nlp/__init__.py`).

  The texts of the sections are put into blocks by page. A table is placed after some block of its
  pages, and takes sentences from the blocks above and below until it has enough tokens. `none`
  stands for an exception, and in a loop also for fuel that has run out.
-/
import MultiRag.BulletPatterns
import MultiRag.PyText
import Mathlib.Data.List.Infix

namespace MultiRag.TableContext

open Regex

/-! ### Positions -/

structure Box (C : Type) where
  left : C
  right : C
  top : C
  bottom : C

inductive PageRef where
  | number (page : Int)
  | pages (pages : List Int)

def PageRef.first : PageRef → Int
  | number page => page
  | pages [] => 0
  | pages (page :: _) => page

abbrev Position (C : Type) := PageRef × Box C

def splitOnChar (c : Char) (text : String) : List String := (text.toList.splitOn c).map String.ofList

def stripChar (c : Char) (text : String) : String := String.ofList (stripChars (· == c) text.toList)

/-- `int(p)` of ASCII digits; Python refuses more than 4300 of them. -/
def parsePage (p : String) : Option Int :=
  if p = "" ∨ 4300 < p.length then none else some (digitsValue (asciiDigits p.toList))

def positionPattern : Regex :=
  all [lit "@@", plus (oneOf "0123456789-"), char '\t', plus (oneOf "0123456789.\t"), lit "##"]

section

variable {C : Type} (number : String → Option C)

def parsePosition (tag : String) : Option (Position C) :=
  match splitOnChar '\t' (stripChar '@' (stripChar '#' tag)) with
  | [pn, left, right, top, bottom] => do
    let left ← number left
    let right ← number right
    let top ← number top
    let bottom ← number bottom
    let pages ← (splitOnChar '-' pn).mapM parsePage
    some (.pages (pages.map (· - 1)), ⟨left, right, top, bottom⟩)
  | _ => none

def extractPositions (txt : String) : Option (List (Position C)) :=
  (positionPattern.findAll txt).mapM (parsePosition number)

/-! ### Sections -/

/-- What stands next to the text of a section: positions, a tag, or something else. -/
inductive Poss (C : Type) where
  | list (positions : List (Position C))
  | tag (tag : String)
  | other

structure Section (C : Type) where
  txt : String
  poss : Poss C

def hasTag (text : String) : Bool := "@@".toList <:+: text.toList

def Section.positions (sec : Section C) : Option (List (Position C)) :=
  match sec.poss with
  | .list positions => some positions
  | .tag tag => extractPositions number (if ¬ hasTag tag ∧ hasTag sec.txt then sec.txt else tag)
  | .other => if hasTag sec.txt then extractPositions number sec.txt else some []

def Section.content (sec : Section C) : String :=
  if hasTag sec.txt then pyStrip (positionPattern.remove sec.txt) else sec.txt

structure Block (C : Type) where
  box : Box C
  txt : String

def Section.blocks (sec : Section C) : Option (List (Int × Block C)) :=
  (sec.positions number).map fun positions =>
    positions.map fun position => (position.1.first, ⟨position.2, sec.content⟩)

def allBlocks (sections : List (Section C)) : Option (List (Int × Block C)) :=
  (sections.mapM (Section.blocks number)).map List.flatten

end

section

variable {C : Type} (tokens : String → Nat) (size : Int) (entries : List (Int × Block C))

def bucket (page : Int) : List (Block C) := (entries.filter (·.1 = page)).map Prod.snd

def sentences (cnt : String) : List String := (alt (oneOf "。!?？；！\n") (lit ". ")).split cnt

/-- The sentences from the last one up, each with what ends it, in front of the text. -/
def prepend : List String → String → String
  | [], txt => txt
  | [first], txt => first ++ txt
  | last :: stop :: rest, txt =>
    if size < tokens (stop ++ last ++ txt) then stop ++ last ++ txt else prepend rest (stop ++ last ++ txt)

def append : List String → String → String
  | [], txt => txt
  | [last], txt => txt ++ last
  | first :: stop :: rest, txt =>
    if size < tokens (txt ++ (first ++ stop)) then txt ++ (first ++ stop) else append rest (txt ++ (first ++ stop))

/-! ### `upper_context` and `lower_context` -/

def upperLoop : Nat → Int → Int → String → Option String
  | 0, _, _, _ => none
  | rounds + 1, page, i, txt =>
    if ¬ (tokens txt : Int) < size then some txt
    else if i < 0 then
      if page - 1 < 0 ∨ bucket entries (page - 1) = [] then some txt
      else (pyItem (bucket entries (page - 1)) ((bucket entries (page - 1)).length - 1)).bind fun blk =>
        upperLoop rounds (page - 1) ((bucket entries (page - 1)).length - 2)
          (prepend tokens size (sentences blk.txt).reverse txt)
    else (pyItem (bucket entries page) i).bind fun blk =>
      upperLoop rounds page (i - 1) (prepend tokens size (sentences blk.txt).reverse txt)

def upperContext (page i : Int) : Option String :=
  upperLoop tokens size entries (entries.length + 1) page (if bucket entries page = [] then -1 else i) ""

def lowerLoop : Nat → Int → Int → String → Option String
  | 0, _, _, _ => none
  | rounds + 1, page, i, txt =>
    if ¬ (tokens txt : Int) < size then some txt
    else if (bucket entries page).length ≤ i then
      if bucket entries (page + 1) = [] then some txt
      else (pyItem (bucket entries (page + 1)) 0).bind fun blk =>
        lowerLoop rounds (page + 1) 1 (append tokens size (sentences blk.txt) txt)
    else (pyItem (bucket entries page) i).bind fun blk =>
      lowerLoop rounds page (i + 1) (append tokens size (sentences blk.txt) txt)

def lowerContext (page i : Int) : Option String :=
  if bucket entries page = [] then some ""
  else lowerLoop tokens size entries (entries.length + 1) page i ""

end

/-! ### Tables -/

inductive TableText where
  | whole (text : String)
  | parts (lines : List String)

def TableText.joined : TableText → String
  | whole text => text
  | parts lines => "\n".intercalate lines

/-- A table or figure with its image; it has at least one position. -/
structure Table (I C : Type) where
  img : I
  tb : TableText
  poss : List (Int × Box C)
  nonempty : poss ≠ []

namespace Table

variable {I C : Type}

def firstPosition (table : Table I C) : Int × Box C := table.poss.head table.nonempty

def lastPosition (table : Table I C) : Int × Box C := table.poss.getLast table.nonempty

end Table

variable {I C : Type} [LT C] [DecidableLT C]

inductive Stop where
  /-- There is no block, or one that ends below the top of the table. -/
  | nowhere
  /-- The block before the table. -/
  | between (i : Nat)
  /-- The last block of the page. -/
  | atLast (i : Nat)

/-- The loop over the blocks of a page, from the block with number `i`. -/
def scanPage (top bottom : C) : List (Block C) → Nat → Stop
  | [], _ => .nowhere
  | [_], i => .atLast i
  | blk :: next :: rest, i =>
    if top < blk.box.bottom then .nowhere
    else if next.box.top < bottom then scanPage top bottom (next :: rest) (i + 1)
    else .between i

/-- The block after which the table is placed, and where the text below it starts; `pages` counts
    the pages up to the last one of the table. -/
structure Place where
  page : Int
  upper : Option Nat
  lowerPage : Int
  lower : Nat

def scan (entries : List (Int × Block C)) (top bottom : C) : Nat → Int → Place
  | pages, page =>
    match scanPage top bottom (bucket entries page) 0 with
    | .nowhere => ⟨page, none, page + 1, 0⟩
    | .between i => ⟨page, some i, page, i⟩
    | .atLast i =>
      match pages with
      | 0 => ⟨page, some i, page + 1, 0⟩
      | pages + 1 => scan entries top bottom pages (page + 1)

def Table.place (entries : List (Int × Block C)) (table : Table I C) : Place :=
  scan entries table.firstPosition.2.top table.lastPosition.2.bottom
    (table.lastPosition.1 - table.firstPosition.1).toNat table.firstPosition.1

variable (tokens : String → Nat) (number : String → Option C) (size : Int)

structure Results (I C : Type) where
  contexts : List (String × String)
  res : List (I × String × List (Int × Box C))

def Results.addContext (results : Results I C) (upper lower : String) : Results I C :=
  { results with contexts := results.contexts ++ [(pyStrip upper, pyStrip lower)] }

/-- The context at the place where the loop stops, if it does: the text of the table with it. -/
def atPlace (entries : List (Int × Block C)) (place : Place) (tb : String) (results : Results I C) :
    Option (String × Results I C) :=
  match place.upper with
  | none => some (tb, results)
  | some i => do
    let upper ← upperContext tokens size entries place.page i
    let lower ← lowerContext tokens size entries place.lowerPage place.lower
    some (upper ++ tb ++ lower, results.addContext upper lower)

def betweenPages (entries : List (Int × Block C)) (place : Place) (original tb : String) (results : Results I C) :
    Option (String × Results I C) :=
  if original = tb then do
    let upper ← upperContext tokens size entries place.page (-1)
    let lower ← lowerContext tokens size entries (place.page + 1) 0
    some (upper ++ tb ++ lower, results.addContext upper lower)
  else some (tb, results)

def Results.close (results : Results I C) (table : Table I C) (tb : String) : Results I C :=
  let results := if results.contexts.length < results.res.length + 1 then results.addContext "" "" else results
  { results with res := results.res ++ [(table.img, tb, table.poss)] }

def addTable (entries : List (Int × Block C)) (results : Results I C) (table : Table I C) : Option (Results I C) :=
  let place := table.place entries
  (atPlace tokens size entries place table.tb.joined results).bind fun placed =>
    (betweenPages tokens size entries place table.tb.joined placed.1 placed.2).map fun final =>
      final.2.close table final.1

def addTables (sections : List (Section C)) (tabls : List (Table I C)) : Option (Results I C) := do
  let entries ← allBlocks number sections
  tabls.foldlM (addTable tokens size entries) ⟨[], []⟩

/-- What is returned: contexts, the tables as they came, or the tables with their contexts. -/
inductive Returned (I C : Type) where
  | contexts (contexts : List (String × String))
  | unchanged (tabls : List (Table I C))
  | tables (res : List (I × String × List (Int × Box C)))

def appendContext2table (sections : List (Section C)) (tabls : List (Table I C)) (returnContext : Bool) :
    Option (Returned I C) :=
  if size ≤ 0 then some (if returnContext then .contexts [] else .unchanged tabls)
  else (addTables tokens number size sections tabls).map fun results =>
    if returnContext then .contexts results.contexts else .tables results.res

end MultiRag.TableContext
