import Mathlib.Data.Nat.Notation
import Mathlib.Data.List.TakeWhile
import Mathlib.Data.String.Basic

/-!
# The syntax of JSON

The grammar of JSON as concrete syntax trees: a tree is a derivation, `text` is the text that it
derives and `value` is what that text means. Numbers are unsigned 64-bit integers, possibly with
zeros in front, which `Syntax.hasLeadingZero` tells apart from those that JSON allows. Strings may
be escaped in every way that JSON allows, also with a pair of surrogates (`Syntax.hasPair`).

A text has at most one derivation: every construct ends in a character that no longer belongs to it,
so it is cut off a longer text in one way only (`Syntax.text_append_inj`).
-/

namespace JsonText

/-- What a text can stand for. Numbers are the ones of 64 bits, and members keep their order. -/
inductive JsonValue where
  | null
  | bool (value : Bool)
  | number (value : UInt64)
  | string (value : String)
  | array (values : List JsonValue)
  | object (fields : List (String × JsonValue))

/-! ## Blanks, numbers and strings -/

/-- The four blanks of the grammar. -/
def isBlank (c : Char) : Bool := c == ' ' || c == '\n' || c == '\r' || c == '\t'

/-- The white space around a value. -/
abbrev Blank := {text : List Char // ∀ c ∈ text, isBlank c}

/-- The characters of a number. -/
def isDigit (c : Char) : Bool := 0x30 ≤ c.toNat && c.toNat ≤ 0x39

/-- The number that decimal digits spell. -/
def decimalValue (digits : List Char) : ℕ :=
  digits.foldl (fun value c => 10 * value + (c.toNat - 0x30)) 0

/-- A sequence of digits whose number is not too large. -/
structure Numeral where
  digits : List Char
  isDigit_of_mem : ∀ c ∈ digits, isDigit c
  ne_nil : digits ≠ []
  lt : decimalValue digits < 2 ^ 64

/-- The number of a numeral, which fits in 64 bits. -/
def Numeral.value (numeral : Numeral) : UInt64 := UInt64.ofNat (decimalValue numeral.digits)

/-- There is a zero in front of another digit. -/
def Numeral.hasLeadingZero (numeral : Numeral) : Bool :=
  1 < numeral.digits.length && numeral.digits.head? == some '0'

/-- The value of a hexadecimal digit of either case. -/
def hexValue? (c : Char) : Option ℕ :=
  if 0x30 ≤ c.toNat ∧ c.toNat ≤ 0x39 then some (c.toNat - 0x30)
  else if 0x61 ≤ c.toNat ∧ c.toNat ≤ 0x66 then some (c.toNat - 0x61 + 10)
  else if 0x41 ≤ c.toNat ∧ c.toNat ≤ 0x46 then some (c.toNat - 0x41 + 10)
  else none

/-- A hexadecimal digit of either case. -/
abbrev HexDigit := {c : Char // (hexValue? c).isSome}

/-- The value of a digit. -/
def HexDigit.value (digit : HexDigit) : ℕ := (hexValue? digit.val).get digit.property

/-- The four digits of a `\u` escape: a UTF-16 code unit. -/
structure HexQuad where
  first : HexDigit
  second : HexDigit
  third : HexDigit
  fourth : HexDigit

namespace HexQuad

/-- The four digits as they stand in the text. -/
def text (quad : HexQuad) : List Char :=
  [quad.first.val, quad.second.val, quad.third.val, quad.fourth.val]

/-- The code that four digits spell. -/
def code (quad : HexQuad) : ℕ :=
  ((quad.first.value * 16 + quad.second.value) * 16 + quad.third.value) * 16 + quad.fourth.value

/-- The first half of a pair. -/
def isHigh (quad : HexQuad) : Bool := 0xd800 ≤ quad.code && quad.code ≤ 0xdbff

/-- The second half of a pair. -/
def isLow (quad : HexQuad) : Bool := 0xdc00 ≤ quad.code && quad.code ≤ 0xdfff

/-- A half of a pair, which is no character by itself. -/
def isSurrogate (quad : HexQuad) : Bool := quad.isHigh || quad.isLow

end HexQuad

/-- A character that may stand in a string as it is. -/
def isUnescaped (c : Char) : Bool := 0x20 ≤ c.toNat && c != '"' && c != '\\'

/-- The character that a letter after a backslash stands for. -/
def shortEscape? (c : Char) : Option Char :=
  if c = '"' then some '"'
  else if c = '\\' then some '\\'
  else if c = '/' then some '/'
  else if c = 'b' then some (Char.ofNat 0x08)
  else if c = 'f' then some (Char.ofNat 0x0c)
  else if c = 'n' then some '\n'
  else if c = 'r' then some '\r'
  else if c = 't' then some '\t'
  else none

/-- How one character of a string is spelled. -/
inductive StringPart where
  | raw (c : Char) (h : isUnescaped c)
  | short (c : Char) (h : (shortEscape? c).isSome)
  | unit (quad : HexQuad) (h : quad.isSurrogate = false)
  | pair (high low : HexQuad) (hhigh : high.isHigh) (hlow : low.isLow)

namespace StringPart

/-- How the character is written. -/
def text : StringPart → List Char
  | raw c _ => [c]
  | short c _ => ['\\', c]
  | unit quad _ => '\\' :: 'u' :: quad.text
  | pair high low _ _ => '\\' :: 'u' :: (high.text ++ '\\' :: 'u' :: low.text)

/-- The character that is meant. -/
def char : StringPart → Char
  | raw c _ => c
  | short c h => (shortEscape? c).get h
  | unit quad _ => Char.ofNat quad.code
  | pair high low _ _ =>
    Char.ofNat (0x10000 + (high.code - 0xd800) * 0x400 + (low.code - 0xdc00))

/-- The character is written as two escaped halves. -/
def isPair : StringPart → Bool
  | pair _ _ _ _ => true
  | _ => false

end StringPart

/-- A string without its quotes. -/
abbrev StringBody := List StringPart

namespace StringBody

/-- The text behind the opening quote. -/
def text (body : StringBody) : List Char := body.flatMap StringPart.text ++ ['"']

/-- The string whose characters are written here. -/
def value (body : StringBody) : String := String.ofList (body.map StringPart.char)

/-- Some character is written as two escaped halves. -/
def hasPair (body : StringBody) : Bool := body.any StringPart.isPair

end StringBody

/-! ## Values -/

mutual

/-- A value without the blanks around it. -/
inductive Syntax where
  | null
  | literalTrue
  | literalFalse
  | number (numeral : Numeral)
  | string (body : StringBody)
  | emptyArray (blank : Blank)
  | array (items : Items)
  | emptyObject (blank : Blank)
  | object (members : Members)

/-- The values of an array with the blanks around them, at least one. -/
inductive Items where
  | last (before : Blank) (item : Syntax) (after : Blank)
  | more (before : Blank) (item : Syntax) (after : Blank) (rest : Items)

/-- The members of an object with the blanks around keys and values, at least one. -/
inductive Members where
  | last (before : Blank) (key : StringBody) (colon before' : Blank) (item : Syntax) (after : Blank)
  | more (before : Blank) (key : StringBody) (colon before' : Blank) (item : Syntax) (after : Blank)
      (rest : Members)

end

/-- The text of a key, from the blanks in front of it to those in front of its value. -/
def keyText (before : Blank) (key : StringBody) (colon before' : Blank) : List Char :=
  before.val ++ '"' :: (key.text ++ (colon.val ++ ':' :: before'.val))

mutual

/-- The text that a derivation derives. -/
def Syntax.text : Syntax → List Char
  | .null => ['n', 'u', 'l', 'l']
  | .literalTrue => ['t', 'r', 'u', 'e']
  | .literalFalse => ['f', 'a', 'l', 's', 'e']
  | .number numeral => numeral.digits
  | .string body => '"' :: body.text
  | .emptyArray blank => '[' :: (blank.val ++ [']'])
  | .array items => '[' :: items.text
  | .emptyObject blank => '{' :: (blank.val ++ ['}'])
  | .object members => '{' :: members.text

/-- The text of items up to the closing bracket. -/
def Items.text : Items → List Char
  | .last before item after => before.val ++ (item.text ++ (after.val ++ [']']))
  | .more before item after rest => before.val ++ (item.text ++ (after.val ++ ',' :: rest.text))

/-- The text of members up to the closing brace. -/
def Members.text : Members → List Char
  | .last before key colon before' item after =>
    keyText before key colon before' ++ (item.text ++ (after.val ++ ['}']))
  | .more before key colon before' item after rest =>
    keyText before key colon before' ++ (item.text ++ (after.val ++ ',' :: rest.text))

end

mutual

/-- What the text means. -/
def Syntax.value : Syntax → JsonValue
  | .null => .null
  | .literalTrue => .bool true
  | .literalFalse => .bool false
  | .number numeral => .number numeral.value
  | .string body => .string body.value
  | .emptyArray _ => .array []
  | .array items => .array items.values
  | .emptyObject _ => .object []
  | .object members => .object members.fields

/-- What the items mean, in order. -/
def Items.values : Items → List JsonValue
  | .last _ item _ => [item.value]
  | .more _ item _ rest => item.value :: rest.values

/-- The keys and what stands behind them, in order. -/
def Members.fields : Members → List (String × JsonValue)
  | .last _ key _ _ item _ => [(key.value, item.value)]
  | .more _ key _ _ item _ rest => (key.value, item.value) :: rest.fields

end

mutual

/-- Some number in the text has a zero in front. -/
def Syntax.hasLeadingZero : Syntax → Bool
  | .number numeral => numeral.hasLeadingZero
  | .array items => items.hasLeadingZero
  | .object members => members.hasLeadingZero
  | _ => false

/-- Some item has a number with a zero in front. -/
def Items.hasLeadingZero : Items → Bool
  | .last _ item _ => item.hasLeadingZero
  | .more _ item _ rest => item.hasLeadingZero || rest.hasLeadingZero

/-- Some member has a number with a zero in front. -/
def Members.hasLeadingZero : Members → Bool
  | .last _ _ _ _ item _ => item.hasLeadingZero
  | .more _ _ _ _ item _ rest => item.hasLeadingZero || rest.hasLeadingZero

end

mutual

/-- Some string in the text, a key or a value, has a pair of surrogates. -/
def Syntax.hasPair : Syntax → Bool
  | .string body => body.hasPair
  | .array items => items.hasPair
  | .object members => members.hasPair
  | _ => false

/-- Some item has a string with an escaped pair. -/
def Items.hasPair : Items → Bool
  | .last _ item _ => item.hasPair
  | .more _ item _ rest => item.hasPair || rest.hasPair

/-- Some key or value has a string with an escaped pair. -/
def Members.hasPair : Members → Bool
  | .last _ key _ _ item _ => key.hasPair || item.hasPair
  | .more _ key _ _ item _ rest => key.hasPair || item.hasPair || rest.hasPair

end

/-- A whole text: a value with the blanks around it. -/
structure Document where
  before : Blank
  item : Syntax
  after : Blank

namespace Document

/-- The text of a document, blanks around it included. -/
def text (document : Document) : List Char :=
  document.before.val ++ (document.item.text ++ document.after.val)

/-- What a document means. -/
def value (document : Document) : JsonValue := document.item.value

end Document

/-! ## Blanks in front -/

/-- Blanks behind blanks. -/
def Blank.append (blank blank' : Blank) : Blank :=
  ⟨blank.val ++ blank'.val, fun c hc => (List.mem_append.mp hc).elim (blank.property c) (blank'.property c)⟩

/-- More blanks in front of the first value. -/
def Items.pad (blank : Blank) : Items → Items
  | .last before item after => .last (blank.append before) item after
  | .more before item after rest => .more (blank.append before) item after rest

/-- Members with more blanks in front. -/
def Members.pad (blank : Blank) : Members → Members
  | .last before key colon before' item after => .last (blank.append before) key colon before' item after
  | .more before key colon before' item after rest =>
    .more (blank.append before) key colon before' item after rest

section Pad

variable (blank : Blank)

/-- The blanks stand in front of the text. -/
theorem Items.text_pad (items : Items) : (items.pad blank).text = blank.val ++ items.text := by
  cases items <;> simp only [pad, text, Blank.append, List.append_assoc]

/-- Blanks change no value. -/
theorem Items.values_pad (items : Items) : (items.pad blank).values = items.values := by
  cases items <;> rfl

/-- Blanks are no pairs. -/
theorem Items.hasPair_pad (items : Items) : (items.pad blank).hasPair = items.hasPair := by
  cases items <;> rfl

/-- The blanks stand in front of the text. -/
theorem Members.text_pad (members : Members) :
    (members.pad blank).text = blank.val ++ members.text := by
  cases members <;> simp only [pad, text, keyText, Blank.append, List.append_assoc]

/-- Blanks change no field. -/
theorem Members.fields_pad (members : Members) : (members.pad blank).fields = members.fields := by
  cases members <;> rfl

/-- Blanks are no pairs. -/
theorem Members.hasPair_pad (members : Members) : (members.pad blank).hasPair = members.hasPair := by
  cases members <;> rfl

end Pad

/-! ## Cutting off -/

/-- `rest` does not go on with a character of the kind `p`. -/
def StopsAt (p : Char → Bool) (rest : List Char) : Prop := ∀ c ∈ rest.head?, p c = false

/-- Nothing goes on at the end. -/
theorem stopsAt_nil {p : Char → Bool} : StopsAt p [] := by
  intro c hc
  cases hc

/-- A character without the property ends a run. -/
theorem stopsAt_cons {p : Char → Bool} {c : Char} {rest : List Char} (h : p c = false) :
    StopsAt p (c :: rest) := by
  intro c' hc
  rw [List.head?_cons, Option.mem_some_iff] at hc
  rwa [← hc]

section Span

variable {p : Char → Bool} {run run' rest rest' : List Char}

/-- A run that is followed by something else is what `takeWhile` takes. -/
theorem takeWhile_append_of_stopsAt (h : ∀ c ∈ run, p c) (hrest : StopsAt p rest) :
    (run ++ rest).takeWhile p = run ∧ (run ++ rest).dropWhile p = rest := by
  rw [List.takeWhile_append_of_pos h, List.dropWhile_append_of_pos h]
  cases rest with
  | nil => simp
  | cons c rest =>
    have hc := hrest c rfl
    simp [hc]

/-- A run of one kind of characters ends where that kind ends. -/
theorem run_append_inj (h : ∀ c ∈ run, p c) (h' : ∀ c ∈ run', p c) (hrest : StopsAt p rest)
    (hrest' : StopsAt p rest') (heq : run ++ rest = run' ++ rest') : run = run' ∧ rest = rest' := by
  obtain ⟨htake, hdrop⟩ := takeWhile_append_of_stopsAt h hrest
  obtain ⟨htake', hdrop'⟩ := takeWhile_append_of_stopsAt h' hrest'
  rw [heq] at htake hdrop
  exact ⟨htake.symm.trans htake', hdrop.symm.trans hdrop'⟩

end Span

/-! ## Strings are cut off in one way -/

/-- Four digits are read in one way only. -/
theorem HexQuad.text_append_inj {quad quad' : HexQuad} {rest rest' : List Char}
    (h : quad.text ++ rest = quad'.text ++ rest') : quad = quad' ∧ rest = rest' := by
  obtain ⟨⟨a, _⟩, ⟨b, _⟩, ⟨c, _⟩, ⟨d, _⟩⟩ := quad
  obtain ⟨⟨a', _⟩, ⟨b', _⟩, ⟨c', _⟩, ⟨d', _⟩⟩ := quad'
  simp only [HexQuad.text, List.cons_append, List.nil_append, List.cons.injEq] at h
  obtain ⟨rfl, rfl, rfl, rfl, hrest⟩ := h
  exact ⟨rfl, hrest⟩

namespace StringPart

/-- A character that stands for itself is no backslash. -/
theorem ne_backslash_of_isUnescaped {c : Char} (h : isUnescaped c) : c ≠ '\\' := by
  rintro rfl
  revert h
  decide

/-- No letter of a short escape begins a `\u` escape. -/
theorem ne_u_of_shortEscape {c : Char} (h : (shortEscape? c).isSome) : c ≠ 'u' := by
  rintro rfl
  revert h
  decide

/-- A unit is not the first half of a pair. -/
theorem unit_text_ne_pair {quad high : HexQuad} (hquad : quad.isSurrogate = false)
    (hhigh : high.isHigh) (rest rest' : List Char) : quad.text ++ rest ≠ high.text ++ rest' := by
  intro h
  obtain ⟨rfl, -⟩ := HexQuad.text_append_inj h
  rw [HexQuad.isSurrogate, hhigh, Bool.true_or] at hquad
  cases hquad

/-- A part of a string is read in one way only. -/
theorem text_append_inj {part part' : StringPart} {rest rest' : List Char}
    (h : part.text ++ rest = part'.text ++ rest') : part = part' ∧ rest = rest' := by
  have hraw := @ne_backslash_of_isUnescaped
  have hshort := @ne_u_of_shortEscape
  have hpair := @unit_text_ne_pair
  -- two parts of one kind, or the characters in front tell them apart
  cases part <;> cases part' <;>
    simp only [text, List.cons_append, List.nil_append, List.append_assoc, List.cons.injEq] at h
  case raw.raw c hc c' hc' =>
    obtain ⟨rfl, hrest⟩ := h
    exact ⟨rfl, hrest⟩
  case short.short c hc c' hc' =>
    obtain ⟨-, rfl, hrest⟩ := h
    exact ⟨rfl, hrest⟩
  case unit.unit quad hquad quad' hquad' =>
    obtain ⟨rfl, hrest⟩ := HexQuad.text_append_inj h.2.2
    exact ⟨rfl, hrest⟩
  case pair.pair high low hhigh hlow high' low' hhigh' hlow' =>
    obtain ⟨rfl, hlow⟩ := HexQuad.text_append_inj h.2.2
    simp only [List.cons.injEq] at hlow
    obtain ⟨rfl, hrest⟩ := HexQuad.text_append_inj hlow.2.2
    exact ⟨rfl, hrest⟩
  all_goals grind

/-- No part begins with a quote. -/
theorem text_ne_quote (part : StringPart) (rest rest' : List Char) :
    part.text ++ rest ≠ '"' :: rest' := by
  intro h
  cases part with
  | raw c hc =>
    simp only [text, List.cons_append, List.cons.injEq] at h
    obtain ⟨rfl, -⟩ := h
    revert hc
    decide
  | _ =>
    simp only [text, List.cons_append, List.cons.injEq] at h
    exact absurd h.1 (by decide)

end StringPart

/-- A string ends at the first quote that no part contains. -/
theorem StringBody.text_append_inj {body body' : StringBody} {rest rest' : List Char}
    (h : body.text ++ rest = body'.text ++ rest') : body = body' ∧ rest = rest' := by
  simp only [StringBody.text, List.append_assoc, List.singleton_append] at h
  induction body generalizing body' with
  | nil =>
    cases body' with
    | nil => simpa using h
    | cons part' body' =>
      rw [List.flatMap_cons, List.append_assoc] at h
      exact absurd h.symm (part'.text_ne_quote _ _)
  | cons part body ih =>
    cases body' with
    | nil =>
      rw [List.flatMap_cons, List.append_assoc] at h
      exact absurd h (part.text_ne_quote _ _)
    | cons part' body' =>
      rw [List.flatMap_cons, List.flatMap_cons, List.append_assoc, List.append_assoc] at h
      obtain ⟨rfl, hbody⟩ := StringPart.text_append_inj h
      obtain ⟨rfl, hrest⟩ := ih hbody
      exact ⟨rfl, hrest⟩

/-! ## Values are cut off in one way -/

/-- Blanks in front of something else are read in one way only. -/
theorem Blank.append_inj {blank blank' : Blank} {rest rest' : List Char} (hrest : StopsAt isBlank rest)
    (hrest' : StopsAt isBlank rest') (h : blank.val ++ rest = blank'.val ++ rest') :
    blank = blank' ∧ rest = rest' := by
  obtain ⟨hblank, heq⟩ := run_append_inj blank.property blank'.property hrest hrest' h
  exact ⟨Subtype.ext hblank, heq⟩

/-- Behind blanks a text goes on as the rest does, where blanks are not of the kind `p`. -/
theorem StopsAt.blank_append {p : Char → Bool} {rest : List Char} (blank : Blank)
    (hblank : ∀ c, isBlank c → p c = false) (h : StopsAt p rest) : StopsAt p (blank.val ++ rest) := by
  obtain ⟨text, htext⟩ := blank
  cases text with
  | nil => exact h
  | cons c text => exact stopsAt_cons (hblank c (htext c List.mem_cons_self))

/-- A blank is no digit. -/
theorem isDigit_of_isBlank (c : Char) (h : isBlank c) : isDigit c = false := by
  simp only [isBlank, Bool.or_eq_true, beq_iff_eq] at h
  obtain ((rfl | rfl) | rfl) | rfl := h <;> decide

/-- A number does not go on where blanks, or something else that is no digit, follow. -/
theorem stopsAt_isDigit_blank (blank : Blank) {c : Char} (h : isDigit c = false) (rest : List Char) :
    StopsAt isDigit (blank.val ++ c :: rest) :=
  (stopsAt_cons h).blank_append blank isDigit_of_isBlank

/-- No blank goes on with a number. -/
theorem stopsAt_isDigit_val (blank : Blank) : StopsAt isDigit blank.val := by
  have hstops := (stopsAt_nil (p := isDigit)).blank_append blank isDigit_of_isBlank
  rwa [List.append_nil] at hstops

/-- A numeral in front of something else is read in one way only. -/
theorem Numeral.append_inj {numeral numeral' : Numeral} {rest rest' : List Char}
    (hrest : StopsAt isDigit rest) (hrest' : StopsAt isDigit rest')
    (h : numeral.digits ++ rest = numeral'.digits ++ rest') : numeral = numeral' ∧ rest = rest' := by
  obtain ⟨digits, hdigits, hne, hlt⟩ := numeral
  obtain ⟨digits', hdigits', hne', hlt'⟩ := numeral'
  obtain ⟨rfl, heq⟩ := run_append_inj hdigits hdigits' hrest hrest' h
  exact ⟨rfl, heq⟩

/-- What the first character of a value says about it: `0` stands for all digits. -/
def Syntax.tag : Syntax → Char
  | .null => 'n'
  | .literalTrue => 't'
  | .literalFalse => 'f'
  | .number _ => '0'
  | .string _ => '"'
  | .emptyArray _ | .array _ => '['
  | .emptyObject _ | .object _ => '{'

/-- The first character of a value tells its kind; all digits count as one. -/
def tagOf (c : Char) : Char := if isDigit c then '0' else c

/-- Characters that begin a value. -/
def opens (c : Char) : Bool := tagOf c ∈ ['n', 't', 'f', '0', '"', '[', '{']

/-- A value has a first character, and it tells the kind. -/
theorem Syntax.exists_text_eq_cons (item : Syntax) :
    ∃ c tail, item.text = c :: tail ∧ tagOf c = item.tag := by
  cases item with
  | number numeral =>
    obtain ⟨digits, hdigits, hne, hlt⟩ := numeral
    cases digits with
    | nil => exact absurd rfl hne
    | cons c digits => exact ⟨c, digits, rfl, if_pos (hdigits c List.mem_cons_self)⟩
  | _ => exact ⟨_, _, rfl, rfl⟩

/-- There are seven kinds. -/
theorem Syntax.tag_mem (item : Syntax) : item.tag ∈ ['n', 't', 'f', '0', '"', '[', '{'] := by
  cases item <;> simp [tag]

/-- The text begins like a value. -/
def BeginsValue (text : List Char) : Prop := ∃ c tail, text = c :: tail ∧ opens c

/-- What begins a value still does with more behind it. -/
theorem BeginsValue.append {text : List Char} (h : BeginsValue text) (rest : List Char) :
    BeginsValue (text ++ rest) := by
  obtain ⟨c, tail, rfl, hc⟩ := h
  exact ⟨c, tail ++ rest, rfl, hc⟩

/-- The beginning of a value ends any run that has none of its characters. -/
theorem BeginsValue.stopsAt {text : List Char} (h : BeginsValue text) {p : Char → Bool}
    (hp : ∀ c, opens c → p c = false) : StopsAt p text := by
  obtain ⟨c, tail, rfl, hc⟩ := h
  exact stopsAt_cons (hp c hc)

/-- The beginning of a value is no other character. -/
theorem BeginsValue.ne_cons {text : List Char} (h : BeginsValue text) {c : Char}
    (hc : opens c = false) (rest : List Char) : text ≠ c :: rest := by
  rintro rfl
  obtain ⟨c', tail, heq, hc'⟩ := h
  rw [List.cons.injEq] at heq
  rw [heq.1, hc'] at hc
  cases hc

/-- The text of a value begins one. -/
theorem Syntax.beginsValue (item : Syntax) : BeginsValue item.text := by
  obtain ⟨c, tail, htext, htag⟩ := item.exists_text_eq_cons
  refine ⟨c, tail, htext, ?_⟩
  rw [opens, htag]
  exact decide_eq_true item.tag_mem

/-- What begins a value is no blank. -/
theorem isBlank_of_opens (c : Char) (h : opens c) : isBlank c = false := by
  by_contra hblank
  rw [Bool.not_eq_false] at hblank
  rw [opens, tagOf, if_neg (by rw [isDigit_of_isBlank c hblank]; decide)] at h
  simp only [isBlank, Bool.or_eq_true, beq_iff_eq] at hblank
  revert h
  obtain ((rfl | rfl) | rfl) | rfl := hblank <;> decide

/-- No blank stands in front of a value. -/
theorem Syntax.stopsAt_isBlank (item : Syntax) (rest : List Char) :
    StopsAt isBlank (item.text ++ rest) := (item.beginsValue.append rest).stopsAt isBlank_of_opens

/-- Two values with a text in common are of one kind. -/
theorem Syntax.tag_eq {item item' : Syntax} {rest rest' : List Char}
    (h : item.text ++ rest = item'.text ++ rest') : item.tag = item'.tag := by
  obtain ⟨c, tail, htext, htag⟩ := item.exists_text_eq_cons
  obtain ⟨c', tail', htext', htag'⟩ := item'.exists_text_eq_cons
  rw [htext, htext', List.cons_append, List.cons_append, List.cons.injEq] at h
  rw [← htag, ← htag', h.1]

/-- A character that ends an entry of an array or an object. -/
def closes (c : Char) : Bool := c == ',' || c == ']' || c == '}'

/-- What follows a value is no blank. -/
theorem isBlank_of_closes {c : Char} (h : closes c) : isBlank c = false := by
  simp only [closes, Bool.or_eq_true, beq_iff_eq] at h
  obtain (rfl | rfl) | rfl := h <;> decide

/-- What follows a value is no digit. -/
theorem isDigit_of_closes {c : Char} (h : closes c) : isDigit c = false := by
  simp only [closes, Bool.or_eq_true, beq_iff_eq] at h
  obtain (rfl | rfl) | rfl := h <;> decide

/-- `item` is cut off every text that does not go on with a digit in one way. -/
def CutOff (item : Syntax) : Prop :=
  ∀ {item' : Syntax} {rest rest' : List Char}, StopsAt isDigit rest → StopsAt isDigit rest' →
    item.text ++ rest = item'.text ++ rest' → item = item' ∧ rest = rest'

section Entries

variable {before before' colon colon' gap gap' after after' : Blank} {key key' : StringBody}
  {item item' : Syntax} {c c' : Char} {tail tail' : List Char}

/-- An entry ends in blanks and a character that closes it. -/
theorem CutOff.entry (h : CutOff item) (hc : closes c) (hc' : closes c')
    (heq : item.text ++ (after.val ++ c :: tail) = item'.text ++ (after'.val ++ c' :: tail')) :
    item = item' ∧ after = after' ∧ c = c' ∧ tail = tail' := by
  obtain ⟨hitem, hrest⟩ := h (stopsAt_isDigit_blank after (isDigit_of_closes hc) tail)
    (stopsAt_isDigit_blank after' (isDigit_of_closes hc') tail') heq
  obtain ⟨hafter, hclose⟩ := Blank.append_inj (stopsAt_cons (isBlank_of_closes hc))
    (stopsAt_cons (isBlank_of_closes hc')) hrest
  rw [List.cons.injEq] at hclose
  exact ⟨hitem, hafter, hclose⟩

/-- A key with its colon and its blanks is read in one way only. -/
theorem keyText_append_inj {rest rest' : List Char} (hrest : StopsAt isBlank rest)
    (hrest' : StopsAt isBlank rest')
    (h : keyText before key colon gap ++ rest = keyText before' key' colon' gap' ++ rest') :
    before = before' ∧ key = key' ∧ colon = colon' ∧ gap = gap' ∧ rest = rest' := by
  have hquote : isBlank '"' = false := by decide
  have hcolon : isBlank ':' = false := by decide
  simp only [keyText, List.append_assoc, List.cons_append] at h
  obtain ⟨hbefore, h⟩ := Blank.append_inj (stopsAt_cons hquote) (stopsAt_cons hquote) h
  obtain ⟨hkey, h⟩ := StringBody.text_append_inj (List.cons.inj h).2
  obtain ⟨hcolons, h⟩ := Blank.append_inj (stopsAt_cons hcolon) (stopsAt_cons hcolon) h
  obtain ⟨hgap, h⟩ := Blank.append_inj hrest hrest' (List.cons.inj h).2
  exact ⟨hbefore, hkey, hcolons, hgap, h⟩

end Entries

/-- No blanks. -/
def noBlank : Blank := ⟨[], nofun⟩

/-- No blanks add nothing. -/
theorem Blank.append_noBlank (blank : Blank) : blank.append noBlank = blank :=
  Subtype.ext (List.append_nil _)

/-- The blanks in front of the first value can be taken off. -/
theorem Items.exists_pad (items : Items) :
    ∃ blank items', items = Items.pad blank items' ∧ BeginsValue items'.text := by
  cases items with
  | last before item after =>
    refine ⟨before, .last noBlank item after, by rw [pad, Blank.append_noBlank], ?_⟩
    exact item.beginsValue.append _
  | more before item after rest =>
    refine ⟨before, .more noBlank item after rest, by rw [pad, Blank.append_noBlank], ?_⟩
    exact item.beginsValue.append _

/-- The blanks in front of members can be split off. -/
theorem Members.exists_pad (members : Members) :
    ∃ blank members', members = Members.pad blank members' ∧ BeginsValue members'.text := by
  cases members with
  | last before key colon before' item after =>
    exact ⟨before, .last noBlank key colon before' item after, by rw [pad, Blank.append_noBlank],
      '"', _, rfl, by decide⟩
  | more before key colon before' item after rest =>
    exact ⟨before, .more noBlank key colon before' item after rest,
      by rw [pad, Blank.append_noBlank], '"', _, rfl, by decide⟩

/-- An array does not begin like an empty one: behind blanks comes a value. -/
theorem Items.text_append_ne (items : Items) (blank : Blank) (rest rest' : List Char) :
    items.text ++ rest ≠ blank.val ++ ']' :: rest' := by
  have hvalue : ∀ (before : Blank) (item : Syntax) (tail : List Char),
      before.val ++ (item.text ++ tail) ≠ blank.val ++ ']' :: rest' := by
    intro before item tail h
    obtain ⟨-, h⟩ := Blank.append_inj (item.stopsAt_isBlank tail)
      (stopsAt_cons (isBlank_of_closes rfl)) h
    exact (item.beginsValue.append tail).ne_cons (by decide) _ h
  intro h
  cases items <;>
    simp only [Items.text, List.append_assoc] at h <;>
    exact hvalue _ _ _ h

/-- An object does not begin like an empty one: behind blanks comes a key. -/
theorem Members.text_append_ne (members : Members) (blank : Blank) (rest rest' : List Char) :
    members.text ++ rest ≠ blank.val ++ '}' :: rest' := by
  intro h
  have hquote : isBlank '"' = false := by decide
  cases members <;>
    simp only [Members.text, keyText, List.append_assoc, List.cons_append] at h <;>
    exact absurd (Blank.append_inj (stopsAt_cons hquote) (stopsAt_cons (isBlank_of_closes rfl)) h).2
      (by simp)

mutual

/-- A text that does not go on with a digit begins with one value at most. -/
theorem Syntax.text_append_inj (item item' : Syntax) {rest rest' : List Char}
    (hrest : StopsAt isDigit rest) (hrest' : StopsAt isDigit rest')
    (h : item.text ++ rest = item'.text ++ rest') : item = item' ∧ rest = rest' := by
  have htag := Syntax.tag_eq h
  cases item with
  | number numeral =>
    cases item' with
    | number numeral' =>
      obtain ⟨rfl, heq⟩ := Numeral.append_inj hrest hrest' h
      exact ⟨rfl, heq⟩
    | _ => cases htag
  | string body =>
    cases item' with
    | string body' =>
      obtain ⟨rfl, heq⟩ := StringBody.text_append_inj (List.cons.inj h).2
      exact ⟨rfl, heq⟩
    | _ => cases htag
  | emptyArray blank =>
    cases item' with
    | emptyArray blank' =>
      simp only [Syntax.text, List.cons_append, List.append_assoc, List.cons.injEq] at h
      obtain ⟨rfl, heq⟩ := Blank.append_inj (stopsAt_cons (isBlank_of_closes rfl))
        (stopsAt_cons (isBlank_of_closes rfl)) h.2
      exact ⟨rfl, (List.cons.inj heq).2⟩
    | array items' =>
      simp only [Syntax.text, List.cons_append, List.append_assoc, List.cons.injEq] at h
      exact absurd h.2.symm (items'.text_append_ne blank _ _)
    | _ => cases htag
  | array items =>
    cases item' with
    | array items' =>
      obtain ⟨rfl, heq⟩ := Items.text_append_inj items items' (List.cons.inj h).2
      exact ⟨rfl, heq⟩
    | emptyArray blank =>
      simp only [Syntax.text, List.cons_append, List.append_assoc, List.cons.injEq] at h
      exact absurd h.2 (items.text_append_ne blank _ _)
    | _ => cases htag
  | emptyObject blank =>
    cases item' with
    | emptyObject blank' =>
      simp only [Syntax.text, List.cons_append, List.append_assoc, List.cons.injEq] at h
      obtain ⟨rfl, heq⟩ := Blank.append_inj (stopsAt_cons (isBlank_of_closes rfl))
        (stopsAt_cons (isBlank_of_closes rfl)) h.2
      exact ⟨rfl, (List.cons.inj heq).2⟩
    | object members' =>
      simp only [Syntax.text, List.cons_append, List.append_assoc, List.cons.injEq] at h
      exact absurd h.2.symm (members'.text_append_ne blank _ _)
    | _ => cases htag
  | object members =>
    cases item' with
    | object members' =>
      obtain ⟨rfl, heq⟩ := Members.text_append_inj members members' (List.cons.inj h).2
      exact ⟨rfl, heq⟩
    | emptyObject blank =>
      simp only [Syntax.text, List.cons_append, List.append_assoc, List.cons.injEq] at h
      exact absurd h.2 (members.text_append_ne blank _ _)
    | _ => cases htag
  | _ =>
    -- the literals
    cases item' <;> cases htag
    simpa [Syntax.text] using h

/-- Items are read in one way only. -/
theorem Items.text_append_inj (items items' : Items) {rest rest' : List Char}
    (h : items.text ++ rest = items'.text ++ rest') : items = items' ∧ rest = rest' := by
  -- one entry of `items` is compared with one of `items'`
  have hentry : ∀ {before before' after after' : Blank} {item item' : Syntax} {c c' : Char}
      {tail tail' : List Char}, CutOff item → closes c → closes c' →
      before.val ++ (item.text ++ (after.val ++ c :: tail)) =
        before'.val ++ (item'.text ++ (after'.val ++ c' :: tail')) →
      before = before' ∧ item = item' ∧ after = after' ∧ c = c' ∧ tail = tail' := by
    intro before before' after after' item item' c c' tail tail' hcut hc hc' heq
    obtain ⟨hbefore, heq⟩ := Blank.append_inj (item.stopsAt_isBlank _)
      (item'.stopsAt_isBlank _) heq
    exact ⟨hbefore, hcut.entry hc hc' heq⟩
  cases items with
  | last before item after =>
    have hcut : CutOff item := fun hrest hrest' => Syntax.text_append_inj item _ hrest hrest'
    cases items' with
    | last before' item' after' =>
      simp only [Items.text, List.append_assoc, List.cons_append, List.nil_append] at h
      obtain ⟨rfl, rfl, rfl, -, heq⟩ := hentry hcut rfl rfl h
      exact ⟨rfl, heq⟩
    | more before' item' after' more' =>
      simp only [Items.text, List.append_assoc, List.cons_append, List.nil_append] at h
      exact absurd (hentry hcut rfl rfl h).2.2.2.1 (by decide)
  | more before item after more =>
    have hcut : CutOff item := fun hrest hrest' => Syntax.text_append_inj item _ hrest hrest'
    cases items' with
    | last before' item' after' =>
      simp only [Items.text, List.append_assoc, List.cons_append, List.nil_append] at h
      exact absurd (hentry hcut rfl rfl h).2.2.2.1 (by decide)
    | more before' item' after' more' =>
      simp only [Items.text, List.append_assoc, List.cons_append] at h
      obtain ⟨rfl, rfl, rfl, -, hmore⟩ := hentry hcut rfl rfl h
      obtain ⟨rfl, heq⟩ := Items.text_append_inj more more' hmore
      exact ⟨rfl, heq⟩

/-- Members are read in one way only. -/
theorem Members.text_append_inj (members members' : Members) {rest rest' : List Char}
    (h : members.text ++ rest = members'.text ++ rest') : members = members' ∧ rest = rest' := by
  have hentry : ∀ {before before' colon colon' gap gap' after after' : Blank}
      {key key' : StringBody} {item item' : Syntax} {c c' : Char} {tail tail' : List Char},
      CutOff item → closes c → closes c' →
      keyText before key colon gap ++ (item.text ++ (after.val ++ c :: tail)) =
        keyText before' key' colon' gap' ++ (item'.text ++ (after'.val ++ c' :: tail')) →
      before = before' ∧ key = key' ∧ colon = colon' ∧ gap = gap' ∧ item = item' ∧
        after = after' ∧ c = c' ∧ tail = tail' := by
    intro before before' colon colon' gap gap' after after' key key' item item' c c' tail tail'
      hcut hc hc' heq
    obtain ⟨hbefore, hkey, hcolon, hgap, heq⟩ := keyText_append_inj
      (item.stopsAt_isBlank _) (item'.stopsAt_isBlank _) heq
    exact ⟨hbefore, hkey, hcolon, hgap, hcut.entry hc hc' heq⟩
  cases members with
  | last before key colon gap item after =>
    have hcut : CutOff item := fun hrest hrest' => Syntax.text_append_inj item _ hrest hrest'
    cases members' with
    | last before' key' colon' gap' item' after' =>
      simp only [Members.text, List.append_assoc, List.cons_append, List.nil_append] at h
      obtain ⟨rfl, rfl, rfl, rfl, rfl, rfl, -, heq⟩ := hentry hcut rfl rfl h
      exact ⟨rfl, heq⟩
    | more before' key' colon' gap' item' after' more' =>
      simp only [Members.text, List.append_assoc, List.cons_append, List.nil_append] at h
      exact absurd (hentry hcut rfl rfl h).2.2.2.2.2.2.1 (by decide)
  | more before key colon gap item after more =>
    have hcut : CutOff item := fun hrest hrest' => Syntax.text_append_inj item _ hrest hrest'
    cases members' with
    | last before' key' colon' gap' item' after' =>
      simp only [Members.text, List.append_assoc, List.cons_append, List.nil_append] at h
      exact absurd (hentry hcut rfl rfl h).2.2.2.2.2.2.1 (by decide)
    | more before' key' colon' gap' item' after' more' =>
      simp only [Members.text, List.append_assoc, List.cons_append] at h
      obtain ⟨rfl, rfl, rfl, rfl, rfl, rfl, -, hmore⟩ := hentry hcut rfl rfl h
      obtain ⟨rfl, heq⟩ := Members.text_append_inj more more' hmore
      exact ⟨rfl, heq⟩

end

/-- A text has one derivation at most. -/
theorem Document.text_injective {document document' : Document}
    (h : document.text = document'.text) : document = document' := by
  obtain ⟨before, item, after⟩ := document
  obtain ⟨before', item', after'⟩ := document'
  obtain ⟨rfl, h⟩ := Blank.append_inj (item.stopsAt_isBlank _)
    (item'.stopsAt_isBlank _) h
  obtain ⟨rfl, hafter⟩ := Syntax.text_append_inj item item' (stopsAt_isDigit_val after)
    (stopsAt_isDigit_val after') h
  obtain rfl := Subtype.ext hafter
  rfl

end JsonText
