import Hyf.Common.CursorM
import Hyf.Common.Text
import Mathlib.Data.Nat.Digits.Defs

/-!
# JSON texts written piece by piece

A serializer is a program over a sink, of which it knows only how to write bytes to it: a buffer
that may be too small, or a hash. `Emits` lists what a property of programs needs so that it can be
shown of a whole serializer, and the lemmas below go once through the pieces for all sinks.
-/

namespace JsonText

open ByteCodec

section Programs

variable {ε σ : Type} (write : List UInt8 → EStateM (Fault ε) σ Unit)

/-- A byte by itself. -/
def pushByte (byte : UInt8) : EStateM (Fault ε) σ Unit := write [byte]

variable (writeControlEscape : Char → EStateM (Fault ε) σ Unit)

/-- A character, escaped where JSON asks for it. -/
def writeJsonChar (character : Char) : EStateM (Fault ε) σ Unit :=
  if character.toNat = 0x22 then write [0x5c, 0x22]
  else if character.toNat = 0x5c then write [0x5c, 0x5c]
  else if character.toNat = 0x0a then write [0x5c, 0x6e]
  else if character.toNat = 0x0d then write [0x5c, 0x72]
  else if character.toNat = 0x09 then write [0x5c, 0x74]
  else if character.toNat = 0x08 then write [0x5c, 0x62]
  else if character.toNat = 0x0c then write [0x5c, 0x66]
  else if character.toNat ≤ 0x1f then writeControlEscape character
  else write (String.utf8EncodeChar character)

/-- `for character in value.chars()`. -/
def writeJsonChars : List Char → EStateM (Fault ε) σ Unit
  | [] => return ()
  | character :: characters => do
    writeJsonChar write writeControlEscape character
    writeJsonChars characters

/-- A string in quotes. -/
def writeJsonString (value : String) : EStateM (Fault ε) σ Unit := do
  pushByte write 0x22
  writeJsonChars write writeControlEscape value.toList
  pushByte write 0x22

/-- The comma in front of every item but the first. -/
def writeComma (index : ℕ) : EStateM (Fault ε) σ Unit :=
  if index > 0 then pushByte write 0x2c else return ()

/-- A loop over `items`, from the position `index` on. -/
def writeSeparated {α : Type} (writeItem : α → EStateM (Fault ε) σ Unit) (index : ℕ) :
    List α → EStateM (Fault ε) σ Unit
  | [] => return ()
  | item :: items => do
    writeComma write index
    writeItem item
    writeSeparated writeItem (index + 1) items

/-- One row of `writeRows`. -/
def writeRow (values : List String) : EStateM (Fault ε) σ Unit := do
  pushByte write 0x5b
  writeSeparated write (writeJsonString write writeControlEscape) 0 values
  pushByte write 0x5d

/-- An array of arrays of strings. -/
def writeRows (rows : List (List String)) : EStateM (Fault ε) σ Unit := do
  pushByte write 0x5b
  writeSeparated write (writeRow write writeControlEscape) 0 rows
  pushByte write 0x5d

end Programs

/-! ## Decimal numbers -/

section Decimal

variable {ε : Type}

/-- The last decimal digit of a number. -/
def lastDigit (value : ℕ) : UInt8 := UInt8.ofNat (0x30 + value % 10)

/-- `while value > 0` from the back of a scratch array: `cursor` places are left in front of
`digits`. -/
def digitsWhile : ℕ → ℕ → List UInt8 → Outcome ε (List UInt8)
  | _, 0, digits => .ok digits
  | 0, _ + 1, _ => .error .panic
  | cursor + 1, value + 1, digits =>
    digitsWhile cursor ((value + 1) / 10) (lastDigit (value + 1) :: digits)

/-- The same loop with its test at the end. -/
def digitsLoop : ℕ → ℕ → List UInt8 → Outcome ε (List UInt8)
  | 0, _, _ => .error .panic
  | cursor + 1, remaining, digits =>
    if remaining / 10 = 0 then .ok (lastDigit remaining :: digits)
    else digitsLoop cursor (remaining / 10) (lastDigit remaining :: digits)

/-- The decimal digits of a number. -/
def decimal (value : ℕ) : List UInt8 :=
  if value = 0 then [0x30] else ((Nat.digits 10 value).map lastDigit).reverse

/-- The last digit depends on the rest by ten only. -/
theorem lastDigit_mod (value : ℕ) : lastDigit (value % 10) = lastDigit value := by
  rw [lastDigit, Nat.mod_mod]
  rfl

/-- With room for all digits the loop writes them in front of what is there. -/
theorem digitsWhile_eq {cursor value : ℕ} (h : value < 10 ^ cursor) (digits : List UInt8) :
    (digitsWhile cursor value digits : Outcome ε (List UInt8)) =
      .ok (((Nat.digits 10 value).map lastDigit).reverse ++ digits) := by
  induction cursor generalizing value digits with
  | zero =>
    obtain rfl : value = 0 := by simpa using h
    rfl
  | succ cursor ih =>
    match value with
    | 0 => rfl
    | value + 1 =>
      have hdiv : (value + 1) / 10 < 10 ^ cursor := by
        rw [Nat.div_lt_iff_lt_mul (by norm_num)]
        rwa [pow_succ] at h
      rw [digitsWhile, ih hdiv, Nat.digits_def' (by norm_num) (Nat.succ_pos value), List.map_cons,
        List.reverse_cons, lastDigit_mod, List.append_assoc, List.singleton_append]

/-- The last digit stands behind the digits of the rest. -/
theorem decimal_div_ten {value : ℕ} (h : value / 10 ≠ 0) :
    decimal (value / 10) ++ [lastDigit value] = decimal value := by
  have hvalue : value ≠ 0 := by
    rintro rfl
    exact h rfl
  rw [decimal, decimal, if_neg h, if_neg hvalue,
    Nat.digits_def' (by norm_num) (Nat.pos_of_ne_zero hvalue), List.map_cons, List.reverse_cons,
    lastDigit_mod]

/-- A number below ten has one digit. -/
theorem decimal_of_lt_ten {value : ℕ} (h : value / 10 = 0) : decimal value = [lastDigit value] := by
  rcases Nat.eq_zero_or_pos value with rfl | hpos
  · rfl
  · have hlt : value < 10 := by omega
    rw [decimal, if_neg (by omega), Nat.digits_of_lt 10 value (by omega) hlt]
    rfl

/-- The loop that writes at least one digit writes the decimal digits. -/
theorem digitsLoop_eq {cursor value : ℕ} (h : value < 10 ^ (cursor + 1)) (digits : List UInt8) :
    (digitsLoop (cursor + 1) value digits : Outcome ε (List UInt8)) =
      .ok (decimal value ++ digits) := by
  induction cursor generalizing value digits with
  | zero =>
    have hsmall : value / 10 = 0 := by omega
    rw [digitsLoop, if_pos hsmall, decimal_of_lt_ten hsmall]
    rfl
  | succ cursor ih =>
    rw [digitsLoop]
    split_ifs with hsmall
    · rw [decimal_of_lt_ten hsmall]
      rfl
    · have hdiv : value / 10 < 10 ^ (cursor + 1) := by
        rw [Nat.div_lt_iff_lt_mul (by norm_num)]
        rwa [pow_succ] at h
      rw [ih hdiv, ← decimal_div_ten hsmall, List.append_assoc, List.singleton_append]

end Decimal

/-! ## What is written -/

section Layout

/-- The bytes of a character inside a string. -/
def jsonChar (controlEscape : Char → List UInt8) (character : Char) : List UInt8 :=
  if character.toNat = 0x22 then [0x5c, 0x22]
  else if character.toNat = 0x5c then [0x5c, 0x5c]
  else if character.toNat = 0x0a then [0x5c, 0x6e]
  else if character.toNat = 0x0d then [0x5c, 0x72]
  else if character.toNat = 0x09 then [0x5c, 0x74]
  else if character.toNat = 0x08 then [0x5c, 0x62]
  else if character.toNat = 0x0c then [0x5c, 0x66]
  else if character.toNat ≤ 0x1f then controlEscape character
  else String.utf8EncodeChar character

/-- The bytes of a string, quotes included. -/
def jsonString (controlEscape : Char → List UInt8) (value : String) : List UInt8 :=
  [0x22] ++ (value.toList.flatMap (jsonChar controlEscape) ++ [0x22])

/-- The items with commas between them, from the position `index` on. -/
def separated (index : ℕ) : List (List UInt8) → List UInt8
  | [] => []
  | item :: items => (if index > 0 then [0x2c] else []) ++ (item ++ separated (index + 1) items)

/-- The bytes of an array of strings. -/
def jsonRow (controlEscape : Char → List UInt8) (values : List String) : List UInt8 :=
  [0x5b] ++ (separated 0 (values.map (jsonString controlEscape)) ++ [0x5d])

/-- The bytes of an array of such arrays. -/
def jsonRows (controlEscape : Char → List UInt8) (rows : List (List String)) : List UInt8 :=
  [0x5b] ++ (separated 0 (rows.map (jsonRow controlEscape)) ++ [0x5d])

end Layout

section Emits

variable {ε σ : Type}

/-- `P` says of a program which bytes it writes, for a sink that is written by `write`. -/
structure Emits (P : EStateM (Fault ε) σ Unit → List UInt8 → Prop)
    (write : List UInt8 → EStateM (Fault ε) σ Unit) : Prop where
  nil : P (pure ()) []
  bind : ∀ {first second : EStateM (Fault ε) σ Unit} {a b : List UInt8}, P first a → P second b →
    P (do first; second) (a ++ b)
  write : ∀ bytes, P (write bytes) bytes

variable {P : EStateM (Fault ε) σ Unit → List UInt8 → Prop}
  {write : List UInt8 → EStateM (Fault ε) σ Unit} {writeControlEscape : Char → EStateM (Fault ε) σ Unit}
  {controlEscape : Char → List UInt8}

/-- A choice writes what its branches write. -/
theorem emits_ite {c : Prop} [Decidable c] {first second : EStateM (Fault ε) σ Unit}
    {a b : List UInt8} (hfirst : P first a) (hsecond : P second b) :
    P (if c then first else second) (if c then a else b) := by
  by_cases hc : c
  · rwa [if_pos hc, if_pos hc]
  · rwa [if_neg hc, if_neg hc]

/-- A writer that emits bytes emits a character as its escaped bytes. -/
theorem Emits.writeJsonChar (h : Emits P write)
    (hescape : ∀ character, P (writeControlEscape character) (controlEscape character))
    (character : Char) :
    P (JsonText.writeJsonChar write writeControlEscape character)
      (jsonChar controlEscape character) := by
  unfold JsonText.writeJsonChar jsonChar
  -- the characters with an escape of their own
  apply emits_ite (h.write _)
  apply emits_ite (h.write _)
  apply emits_ite (h.write _)
  apply emits_ite (h.write _)
  apply emits_ite (h.write _)
  apply emits_ite (h.write _)
  apply emits_ite (h.write _)
  exact emits_ite (hescape character) (h.write _)

/-- It emits a string as its bytes in quotes. -/
theorem Emits.writeJsonString (h : Emits P write)
    (hescape : ∀ character, P (writeControlEscape character) (controlEscape character))
    (value : String) :
    P (JsonText.writeJsonString write writeControlEscape value) (jsonString controlEscape value) := by
  have hchars : ∀ characters, P (writeJsonChars write writeControlEscape characters)
      (characters.flatMap (jsonChar controlEscape)) := by
    intro characters
    induction characters with
    | nil => exact h.nil
    | cons character characters ih =>
      rw [List.flatMap_cons]
      exact h.bind (h.writeJsonChar hescape character) ih
  exact h.bind (h.write _) (h.bind (hchars _) (h.write _))

/-- It emits items with commas between them. -/
theorem Emits.writeSeparated (h : Emits P write) {α : Type}
    {writeItem : α → EStateM (Fault ε) σ Unit} {itemBytes : α → List UInt8}
    (hitem : ∀ item, P (writeItem item) (itemBytes item)) (items : List α) (index : ℕ) :
    P (JsonText.writeSeparated write writeItem index items)
      (separated index (items.map itemBytes)) := by
  induction items generalizing index with
  | nil => exact h.nil
  | cons item items ih =>
    rw [List.map_cons, separated]
    refine h.bind ?_ (h.bind (hitem item) (ih (index + 1)))
    exact emits_ite (h.write _) h.nil

/-- It emits rows of strings. -/
theorem Emits.writeRows (h : Emits P write)
    (hescape : ∀ character, P (writeControlEscape character) (controlEscape character))
    (rows : List (List String)) :
    P (JsonText.writeRows write writeControlEscape rows) (jsonRows controlEscape rows) := by
  have hrow : ∀ values, P (writeRow write writeControlEscape values) (jsonRow controlEscape values) :=
    fun values => h.bind (h.write _)
      (h.bind (h.writeSeparated (h.writeJsonString hescape) values 0) (h.write _))
  exact h.bind (h.write _) (h.bind (h.writeSeparated hrow rows 0) (h.write _))

end Emits

end JsonText
