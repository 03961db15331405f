/-
  **`message_fit_in`: messages within a token budget** (`core/prompts/generator.py`).

  The system messages and the last turn stay, with their tool payloads; their texts are cut one
  after the other to what is left of the budget (`Fits`).
-/
import Mathlib.Algebra.GroupWithZero.Nat
import MultiRag.Fallible
import MultiRag.PyValue

namespace MultiRag.MessageBudget

open List

/-- `tiktoken`, as far as it is called; the empty list of tokens is the empty text. -/
structure Encoder (τ : Type) where
  encode : String → List τ
  decode : List τ → String
  empty : encode (decode []) = []

inductive Part where
  | text (text : String) (fields : Json)
  | other (value : Json)

inductive Content where
  | text (text : String)
  | parts (parts : List Part)
  | other (value : Json)

/-- A missing field is `null`. -/
structure Message where
  role : Json
  content : Content
  toolCalls : Json
  functionCall : Json
  reasoningContent : Json
  fields : Json

def Message.isSystem (message : Message) : Bool := message.role = .str "system"

def Message.isTool (message : Message) : Bool := message.role = .str "tool"

section Budget

variable {τ : Type} (encoder : Encoder τ) (dumps : Json → String)

def numTokens (text : String) : Nat := (encoder.encode text).length

def partCount : Part → Nat
  | .text text _ => numTokens encoder text
  | .other _ => 0

def textCount : Content → Nat
  | .text text => numTokens encoder text
  | .parts parts => (parts.map (partCount encoder)).sum
  | .other _ => 0

def payloadCount (value : Json) : Nat :=
  if value.truthy then
    match value with
    | .str text => numTokens encoder text
    | value => numTokens encoder (dumps value)
  else 0

def fixedCount (message : Message) : Nat :=
  payloadCount encoder dumps message.toolCalls + payloadCount encoder dumps message.functionCall +
    payloadCount encoder dumps message.reasoningContent

def textTotal (messages : List Message) : Nat := (messages.map fun m => textCount encoder m.content).sum

def kindTotal (system : Bool) (messages : List Message) : Nat :=
  (messages.map fun m => if m.isSystem = system then textCount encoder m.content else 0).sum

def fixedTotal (messages : List Message) : Nat := (messages.map (fixedCount encoder dumps)).sum

def count (messages : List Message) : Nat :=
  (messages.map fun m => textCount encoder m.content + fixedCount encoder dumps m).sum

/-- `tokens.pop()` as long as the first `n` tokens are too many again. -/
def popTokens (limit : Int) (tokens : List τ) : Nat → String
  | 0 => encoder.decode []
  | n + 1 =>
    let trimmed := encoder.decode (tokens.take (n + 1))
    if limit < numTokens encoder trimmed then popTokens limit tokens n else trimmed

def trimText (text : String) (limit : Int) : String :=
  if numTokens encoder text ≤ limit then text
  else
    let tokens := (encoder.encode text).take (max 0 limit).toNat
    popTokens encoder limit tokens tokens.length

def trimParts (remaining : Int) : List Part → Int × List Part
  | [] => (remaining, [])
  | .text text fields :: parts =>
    let trimmed := trimText encoder text remaining
    let rest := trimParts (remaining - numTokens encoder trimmed) parts
    (rest.1, .text trimmed fields :: rest.2)
  | .other value :: parts =>
    let rest := trimParts remaining parts
    (rest.1, .other value :: rest.2)

def trimContent (remaining : Int) : Content → Int × Content
  | .text text =>
    let trimmed := trimText encoder text remaining
    (remaining - numTokens encoder trimmed, .text trimmed)
  | .parts parts =>
    let rest := trimParts encoder remaining parts
    (rest.1, .parts rest.2)
  | .other value => (remaining, .other value)

/-- The loop over the system messages or over the others, in their order. -/
def trimMessages (system : Bool) (remaining : Int) : List Message → Int × List Message
  | [] => (remaining, [])
  | m :: messages =>
    if m.isSystem = system then
      let trimmed := trimContent encoder remaining m.content
      let rest := trimMessages system trimmed.1 messages
      (rest.1, { m with content := trimmed.2 } :: rest.2)
    else
      let rest := trimMessages system remaining messages
      (rest.1, m :: rest.2)

/-- Where the last turn starts: trailing tool replies go with the call before them. -/
def lastStart (msg : List Message) : Nat → Nat
  | 0 => 0
  | i + 1 => if (msg[i + 1]?).any Message.isTool then lastStart msg i else i + 1

/-- The system messages are more than four fifths of the text. -/
def systemDominates (fitted : List Message) : Bool :=
  4 * textTotal encoder fitted < 5 * kindTotal encoder true fitted

def messageFitIn (msg : List Message) (maxLength : Int) : Except String (Nat × List Message) :=
  let maxLength := if maxLength ≤ 0 then 8192 else maxLength
  if count encoder dumps msg ≤ maxLength then .ok (count encoder dumps msg, msg)
  else
    let start := lastStart msg (msg.length - 1)
    let fitted := (msg.take start).filter Message.isSystem ++ msg.drop start
    if count encoder dumps fitted ≤ maxLength then .ok (count encoder dumps fitted, fitted)
    else if maxLength < fixedTotal encoder dumps fitted then
      .error "Tool-call payload exceeds the message token budget"
    else
      let first := !systemDominates encoder fitted
      let front := trimMessages encoder first (maxLength - fixedTotal encoder dumps fitted) fitted
      let back := trimMessages encoder (!first) front.1 front.2
      .ok (count encoder dumps back.2, back.2)

/-! ### What is returned -/

/-- The text, or what the first tokens of it decode to. -/
def TokenPrefix (text trimmed : String) : Prop :=
  trimmed = text ∨ ∃ n, trimmed = encoder.decode ((encoder.encode text).take n)

inductive TrimmedPart : Part → Part → Prop
  | text {text trimmed : String} {fields : Json} (h : TokenPrefix encoder text trimmed) :
      TrimmedPart (.text text fields) (.text trimmed fields)
  | other (value : Json) : TrimmedPart (.other value) (.other value)

inductive TrimmedContent : Content → Content → Prop
  | text {text trimmed : String} (h : TokenPrefix encoder text trimmed) :
      TrimmedContent (.text text) (.text trimmed)
  | parts {parts trimmed : List Part} (h : Forall₂ (TrimmedPart encoder) parts trimmed) :
      TrimmedContent (.parts parts) (.parts trimmed)
  | other (value : Json) : TrimmedContent (.other value) (.other value)

/-- The same message, but for texts that are cut. -/
def Trimmed (m m' : Message) : Prop :=
  ∃ content, TrimmedContent encoder m.content content ∧ m' = { m with content := content }

/-- The last message, or the trailing tool replies with the message before them. -/
def LastTurn (before turn : List Message) : Prop :=
  ∃ first replies, turn = first :: replies ∧ (∀ m ∈ replies, m.isTool) ∧ (first.isTool → before = [])

structure Fits (msg : List Message) (budget : Int) (used : Nat) (returned : List Message) : Prop where
  counted : used = count encoder dumps returned
  within : used ≤ budget
  /-- The system messages and the last turn are kept, and nothing but texts changes. -/
  kept : ∃ kept before turn, msg = before ++ turn ∧ LastTurn before turn ∧ kept.Sublist msg ∧
    (before.filter Message.isSystem ++ turn).Sublist kept ∧ Forall₂ (Trimmed encoder) kept returned

variable {encoder} {dumps} {limit remaining : Int} {text : String}

/-! ### Cutting a text -/

theorem numTokens_popTokens (h : 0 ≤ limit) (tokens : List τ) (n : Nat) :
    numTokens encoder (popTokens encoder limit tokens n) ≤ limit := by
  induction n with
  | zero => simpa [popTokens, numTokens, encoder.empty] using h
  | succ n ih =>
    simp only [popTokens]
    split
    · exact ih
    · next hfits => exact Int.not_lt.mp hfits

theorem popTokens_take (tokens : List τ) (n : Nat) :
    ∃ k, popTokens encoder limit tokens n = encoder.decode (tokens.take k) := by
  induction n with
  | zero => exact ⟨0, rfl⟩
  | succ n ih =>
    simp only [popTokens]
    split
    · exact ih
    · exact ⟨n + 1, rfl⟩

theorem numTokens_trimText (h : 0 ≤ limit) (text : String) :
    numTokens encoder (trimText encoder text limit) ≤ limit := by
  rw [trimText]
  split
  · assumption
  · exact numTokens_popTokens h _ _

theorem trimText_prefix (text : String) (limit : Int) :
    TokenPrefix encoder text (trimText encoder text limit) := by
  rw [trimText]
  split
  · exact .inl rfl
  · right
    obtain ⟨k, hk⟩ := @popTokens_take _ encoder limit ((encoder.encode text).take (max 0 limit).toNat)
      ((encoder.encode text).take (max 0 limit).toNat).length
    rw [take_take] at hk
    exact ⟨_, hk⟩

/-! ### Cutting messages -/

theorem trimParts_spec (h : 0 ≤ remaining) (parts : List Part) :
    0 ≤ (trimParts encoder remaining parts).1 ∧
      (trimParts encoder remaining parts).1 +
        (((trimParts encoder remaining parts).2.map (partCount encoder)).sum : Nat) = remaining ∧
      Forall₂ (TrimmedPart encoder) parts (trimParts encoder remaining parts).2 := by
  induction parts generalizing remaining with
  | nil => exact ⟨h, by simp [trimParts], Forall₂.nil⟩
  | cons part parts ih =>
    cases part with
    | text text fields =>
      have hfits := @numTokens_trimText _ encoder _ h text
      obtain ⟨hleft, hsum, hall⟩ := @ih (remaining - numTokens encoder (trimText encoder text remaining)) (by omega)
      refine ⟨hleft, ?_, Forall₂.cons (TrimmedPart.text ( trimText_prefix _ _)) hall⟩
      simp only [trimParts, map_cons, sum_cons, partCount]
      omega
    | other value =>
      obtain ⟨hleft, hsum, hall⟩ := ih h
      refine ⟨hleft, ?_, Forall₂.cons (TrimmedPart.other _) hall⟩
      simpa [trimParts, partCount] using hsum

theorem trimContent_spec (h : 0 ≤ remaining) (content : Content) :
    0 ≤ (trimContent encoder remaining content).1 ∧
      (trimContent encoder remaining content).1 +
        (textCount encoder (trimContent encoder remaining content).2 : Nat) = remaining ∧
      TrimmedContent encoder content (trimContent encoder remaining content).2 := by
  cases content with
  | text text =>
    have hfits := @numTokens_trimText _ encoder _ h text
    refine ⟨?_, ?_, TrimmedContent.text ( trimText_prefix _ _)⟩
    · simp only [trimContent]
      omega
    · simp [trimContent, textCount]
  | parts parts =>
    obtain ⟨hleft, hsum, hall⟩ := @trimParts_spec _ encoder _ h parts
    exact ⟨hleft, hsum, TrimmedContent.parts hall⟩
  | other value => exact ⟨h, by simp [trimContent, textCount], TrimmedContent.other value⟩

/-- What the loop makes of one message. -/
def Cut (encoder : Encoder τ) (system : Bool) (m m' : Message) : Prop :=
  Trimmed encoder m m' ∧ (m.isSystem ≠ system → m' = m)

theorem TrimmedContent.refl (content : Content) : TrimmedContent encoder content content := by
  cases content with
  | text text => exact TrimmedContent.text (.inl rfl)
  | parts parts =>
    apply TrimmedContent.parts
    apply forall₂_same.mpr
    intro part _
    cases part with
    | text text fields => exact TrimmedPart.text (.inl rfl)
    | other value => exact TrimmedPart.other value
  | other value => exact TrimmedContent.other value

theorem Trimmed.refl (m : Message) : Trimmed encoder m m := ⟨m.content, TrimmedContent.refl _, rfl⟩

theorem trimMessages_spec (system : Bool) (h : 0 ≤ remaining) (messages : List Message) :
    0 ≤ (trimMessages encoder system remaining messages).1 ∧
      (trimMessages encoder system remaining messages).1 +
        (kindTotal encoder system (trimMessages encoder system remaining messages).2 : Nat) = remaining ∧
      kindTotal encoder (!system) (trimMessages encoder system remaining messages).2 =
        kindTotal encoder (!system) messages ∧
      Forall₂ (Cut encoder system) messages (trimMessages encoder system remaining messages).2 := by
  induction messages generalizing remaining with
  | nil => exact ⟨h, by simp [trimMessages, kindTotal], rfl, Forall₂.nil⟩
  | cons m messages ih =>
    simp only [kindTotal, trimMessages, map_cons, sum_cons] at ih ⊢
    by_cases hm : m.isSystem = system
    · obtain ⟨hfirst, hcount, htrimmed⟩ := @trimContent_spec _ encoder _ h m.content
      obtain ⟨hleft, hsum, hother, hall⟩ := ih hfirst
      rw [if_pos hm]
      have hm' : Message.isSystem { m with content := (trimContent encoder remaining m.content).2 } = system := hm
      refine ⟨hleft, ?_, ?_, Forall₂.cons ⟨⟨_, htrimmed, rfl⟩, absurd hm⟩ hall⟩
      · simp only [map_cons, sum_cons, if_pos hm']
        omega
      · simp [hm, hm', hother]
    · obtain ⟨hleft, hsum, hother, hall⟩ := ih h
      rw [if_neg hm]
      refine ⟨hleft, ?_, ?_, Forall₂.cons ⟨Trimmed.refl m, fun _ => rfl⟩ hall⟩
      · simpa [hm] using hsum
      · simp [hother]

theorem fixedTotal_trimmed {messages cut : List Message} (h : Forall₂ (Trimmed encoder) messages cut) :
    fixedTotal encoder dumps cut = fixedTotal encoder dumps messages := by
  induction h with
  | nil => rfl
  | cons hm _ ih =>
    obtain ⟨content, -, rfl⟩ := hm
    simp only [fixedTotal, map_cons, sum_cons] at ih ⊢
    rw [ih]
    rfl

theorem textTotal_kinds (system : Bool) (messages : List Message) :
    textTotal encoder messages = kindTotal encoder system messages + kindTotal encoder (!system) messages := by
  induction messages with
  | nil => rfl
  | cons m messages ih =>
    simp only [kindTotal, textTotal, map_cons, sum_cons] at ih ⊢
    rw [ih]
    by_cases hm : m.isSystem = system
    · simp [hm, Nat.add_assoc]
    · simp [hm, Nat.add_left_comm]

theorem count_eq (messages : List Message) :
    count encoder dumps messages = textTotal encoder messages + fixedTotal encoder dumps messages := by
  induction messages with
  | nil => rfl
  | cons m messages ih =>
    simp only [count, textTotal, fixedTotal, map_cons, sum_cons] at ih ⊢
    omega

/-- The two loops cut every message once, to texts that are within the budget together. -/
theorem two_loops (first : Bool) (h : 0 ≤ remaining) (messages : List Message) {front back : Int × List Message}
    (hfront : trimMessages encoder first remaining messages = front)
    (hback : trimMessages encoder (!first) front.1 front.2 = back) :
    textTotal encoder back.2 ≤ remaining ∧ Forall₂ (Trimmed encoder) messages back.2 := by
  obtain ⟨hleft, hsum, -, hall⟩ := hfront ▸ @trimMessages_spec _ encoder _ first h messages
  obtain ⟨hleft', hsum', hother, hall'⟩ := hback ▸ @trimMessages_spec _ encoder _ (!first) hleft front.2
  rw [Bool.not_not] at hother
  refine ⟨?_, ?_⟩
  · rw [textTotal_kinds first]
    push_cast
    omega
  · apply (forall₂_comp hall hall').imp
    rintro m m'' ⟨m', ⟨htrimmed, hkept⟩, htrimmed', hkept'⟩
    by_cases hm : m.isSystem = first
    · have hsame : m'.isSystem = m.isSystem := by
        obtain ⟨content, -, rfl⟩ := htrimmed
        rfl
      rwa [hkept' (by simp [hsame, hm])]
    · rwa [hkept hm] at htrimmed'

/-! ### What is kept -/

theorem lastTurn_lastStart (msg : List Message) (i : Nat) (h : i < msg.length)
    (hreplies : ∀ m ∈ msg.drop (i + 1), m.isTool) :
    LastTurn (msg.take (lastStart msg i)) (msg.drop (lastStart msg i)) := by
  induction i with
  | zero => exact ⟨_, _, drop_eq_getElem_cons h, hreplies, fun _ => rfl⟩
  | succ i ih =>
    simp only [lastStart, getElem?_eq_getElem h, Option.any_some]
    split
    · next htool =>
      apply ih (by omega)
      intro m hm
      rw [drop_eq_getElem_cons h] at hm
      obtain rfl | hm := mem_cons.mp hm
      · exact htool
      · exact hreplies m hm
    · next htool => exact ⟨_, _, drop_eq_getElem_cons h, hreplies, fun hfirst => absurd hfirst htool⟩

variable (encoder) (dumps)

end Budget

end MultiRag.MessageBudget
