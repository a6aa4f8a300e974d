import Hyf.Common.JsonSyntax
import Hyf.Common.JsonText

/-!
# Compact JSON

The trees that a serializer spells: no blanks, no zeros in front, short escapes where there are any
and `\u00xx` for the other control characters. Their texts are the byte strings of `JsonText`, so what
is known of trees holds of everything that a serializer writes: `bytes_stringOf`, `bytes_numberOf`,
`bytes_arrayOf` and `bytes_objectOf`.
-/

namespace JsonText

open ByteCodec

/-- The bytes of a value. -/
def Syntax.bytes (item : Syntax) : List UInt8 := utf8Bytes item.text

/-! ## Strings -/

/-- The lower-case digit of a number below 16. -/
def hexDigitOf (n : Fin 16) : HexDigit :=
  ⟨Char.ofNat (if n.val < 10 then 0x30 + n.val else 0x57 + n.val), by revert n; decide⟩

/-- The code unit of a number below 256. -/
def quadOf (n : ℕ) : HexQuad :=
  ⟨hexDigitOf 0, hexDigitOf 0, hexDigitOf (Fin.ofNat 16 (n / 16)), hexDigitOf (Fin.ofNat 16 n)⟩

/-- The four digits of a small code are no half of a pair. -/
theorem isSurrogate_quadOf (n : ℕ) : (quadOf n).isSurrogate = false := by
  have hsmall : ∀ high low : Fin 16, HexQuad.isSurrogate
      ⟨hexDigitOf 0, hexDigitOf 0, hexDigitOf high, hexDigitOf low⟩ = false := by
    decide
  exact hsmall _ _

/-- How a serializer spells a character. -/
def partOf (c : Char) : StringPart :=
  if h : isUnescaped c then .raw c h
  else if c = '"' then .short '"' rfl
  else if c = '\\' then .short '\\' rfl
  else if c = '\n' then .short 'n' rfl
  else if c = '\r' then .short 'r' rfl
  else if c = '\t' then .short 't' rfl
  else if c = Char.ofNat 0x08 then .short 'b' rfl
  else if c = Char.ofNat 0x0c then .short 'f' rfl
  else .unit (quadOf c.toNat) (isSurrogate_quadOf _)

/-- The writer escapes no pairs. -/
theorem isPair_partOf (c : Char) : (partOf c).isPair = false := by
  unfold partOf
  split_ifs <;> rfl

/-- What holds of the characters below 128 and of those that are spelled as they are. -/
theorem forall_partOf {P : Char → Prop} (hascii : ∀ n : Fin 128, P (Char.ofNat n))
    (hwide : ∀ c, 128 ≤ c.toNat → ∀ h : isUnescaped c, partOf c = .raw c h → P c) (c : Char) : P c := by
  by_cases hlt : c.toNat < 128
  · have hc := hascii ⟨c.toNat, hlt⟩
    rwa [Char.ofNat_toNat] at hc
  · have hraw : isUnescaped c := by
      simp only [isUnescaped, Bool.and_eq_true, decide_eq_true_eq, bne_iff_ne]
      refine ⟨⟨by omega, ?_⟩, ?_⟩ <;> rintro rfl <;> exact hlt (by decide)
    exact hwide c (not_lt.mp hlt) hraw (dif_pos hraw)

/-- A character is written as one that means it. -/
theorem char_partOf (c : Char) : (partOf c).char = c := by
  apply forall_partOf (P := fun c => (partOf c).char = c)
  · decide
  · intro c _ h hpart
    rw [hpart, StringPart.char]

/-- The derivation of a string as the writer writes it. -/
def stringOf (value : String) : Syntax := .string (value.toList.map partOf)

/-- The written characters mean the string. -/
theorem value_bodyOf (value : String) : StringBody.value (value.toList.map partOf) = value := by
  have hchars : value.toList.map (StringPart.char ∘ partOf) = value.toList := by
    apply List.map_id''
    exact char_partOf
  rw [StringBody.value, List.map_map, hchars, String.ofList_toList]

/-- A written string has no pairs. -/
theorem hasPair_bodyOf (value : String) :
    StringBody.hasPair (value.toList.map partOf) = false := by
  rw [StringBody.hasPair, List.any_map, List.any_eq_false]
  intro c _
  rw [Function.comp_apply, isPair_partOf]
  exact Bool.false_ne_true

section Bytes

variable {controlEscape : Char → List UInt8}
  (h : ∀ c, jsonChar controlEscape c = utf8Bytes (partOf c).text)

include h

/-- The quotes and the written characters are the bytes of the writer. -/
theorem bytes_bodyOf (value : String) :
    utf8Bytes ('"' :: StringBody.text (value.toList.map partOf)) = jsonString controlEscape value := by
  have hchars : ∀ characters : List Char,
      utf8Bytes ((characters.map partOf).flatMap StringPart.text) =
        characters.flatMap (jsonChar controlEscape) := by
    intro characters
    induction characters with
    | nil => rfl
    | cons c characters ih =>
      rw [List.map_cons, List.flatMap_cons, utf8Bytes_append, ih, List.flatMap_cons, h c]
  rw [utf8Bytes_cons, StringBody.text, utf8Bytes_append, hchars]
  rfl

/-- A string is derived as the writer writes it. -/
theorem bytes_stringOf (value : String) : (stringOf value).bytes = jsonString controlEscape value :=
  bytes_bodyOf h value

end Bytes

/-! ## Numbers -/

/-- The digits of a number as characters. -/
def digitsOf (value : ℕ) : List Char := (decimal value).map fun byte => Char.ofNat byte.toNat

/-- The last digit is a digit of the grammar with its value. -/
theorem lastDigit_char (value : ℕ) :
    isDigit (Char.ofNat (lastDigit value).toNat) ∧
      (Char.ofNat (lastDigit value).toNat).toNat - 0x30 = value % 10 ∧ lastDigit value < 128 := by
  have hdigits : ∀ digit : Fin 10, isDigit (Char.ofNat (lastDigit digit).toNat) ∧
      (Char.ofNat (lastDigit digit).toNat).toNat - 0x30 = digit ∧ lastDigit digit < 128 := by
    decide
  have hdigit := hdigits ⟨value % 10, Nat.mod_lt _ (by decide)⟩
  rwa [lastDigit_mod] at hdigit

/-- A number is its last digit behind the digits of a tenth of it. -/
theorem decimal_induction {P : ℕ → List UInt8 → Prop}
    (hsmall : ∀ value, value < 10 → P value [lastDigit value])
    (hstep : ∀ value, 10 ≤ value → P (value / 10) (decimal (value / 10)) →
      P value (decimal (value / 10) ++ [lastDigit value])) (value : ℕ) : P value (decimal value) := by
  induction value using Nat.strong_induction_on with
  | _ value ih =>
    by_cases hlt : value < 10
    · rw [decimal_of_lt_ten (Nat.div_eq_of_lt hlt)]
      exact hsmall value hlt
    · have hne : value / 10 ≠ 0 := by omega
      rw [← decimal_div_ten hne]
      exact hstep value (not_lt.mp hlt) (ih (value / 10) (by omega))

/-- The digits of a number spell it. -/
theorem decimalValue_digitsOf (value : ℕ) : decimalValue (digitsOf value) = value := by
  apply decimal_induction (P := fun value bytes =>
    decimalValue (bytes.map fun byte => Char.ofNat byte.toNat) = value)
  · intro value hlt
    obtain ⟨-, hdigit, -⟩ := lastDigit_char value
    rw [List.map_singleton, decimalValue, List.foldl_cons, List.foldl_nil, hdigit,
      Nat.mod_eq_of_lt hlt]
    omega
  · intro value hge ih
    obtain ⟨-, hdigit, -⟩ := lastDigit_char value
    rw [List.map_append, List.map_singleton, decimalValue, List.foldl_append, List.foldl_cons,
      List.foldl_nil, hdigit]
    rw [decimalValue] at ih
    rw [ih]
    omega

/-- The writer of numbers writes digits, and at least one. -/
theorem decimal_ascii (value : ℕ) :
    decimal value ≠ [] ∧ ∀ byte ∈ decimal value, byte < 128 ∧ isDigit (Char.ofNat byte.toNat) := by
  apply decimal_induction (P := fun _ bytes =>
    bytes ≠ [] ∧ ∀ byte ∈ bytes, byte < 128 ∧ isDigit (Char.ofNat byte.toNat))
  · intro value _
    obtain ⟨hdigit, -, hlt⟩ := lastDigit_char value
    exact ⟨List.cons_ne_nil _ _, List.forall_mem_singleton.mpr ⟨hlt, hdigit⟩⟩
  · intro value _ ih
    obtain ⟨hdigit, -, hlt⟩ := lastDigit_char value
    refine ⟨List.append_ne_nil_of_left_ne_nil ih.1 _, ?_⟩
    rw [List.forall_mem_append]
    exact ⟨ih.2, List.forall_mem_singleton.mpr ⟨hlt, hdigit⟩⟩

/-- The digits of a number are digits of the grammar. -/
theorem isDigit_digitsOf (value : ℕ) : ∀ c ∈ digitsOf value, isDigit c := by
  intro c hc
  obtain ⟨byte, hbyte, rfl⟩ := List.mem_map.mp hc
  exact ((decimal_ascii value).2 byte hbyte).2

/-- The derivation of a number as the writer writes it. -/
def numberOf (value : UInt64) : Syntax :=
  .number ⟨digitsOf value.toNat, isDigit_digitsOf _,
    fun hnil => (decimal_ascii value.toNat).1 (List.map_eq_nil_iff.mp hnil),
    (decimalValue_digitsOf _).symm ▸ value.toNat_lt⟩

/-- The written digits mean the number. -/
theorem value_numberOf (value : UInt64) : (numberOf value).value = .number value := by
  rw [numberOf, Syntax.value, Numeral.value, decimalValue_digitsOf, UInt64.ofNat_toNat]

/-- A number is derived as the writer writes it. -/
theorem bytes_numberOf (value : UInt64) : (numberOf value).bytes = decimal value.toNat :=
  utf8Bytes_map_ofNat fun byte hbyte => ((decimal_ascii value.toNat).2 byte hbyte).1

/-! ## Arrays and objects -/

/-- The derivation of a literal. -/
def boolOf (value : Bool) : Syntax := if value then .literalTrue else .literalFalse

/-- The literal means the truth value. -/
theorem value_boolOf (value : Bool) : (boolOf value).value = .bool value := by
  cases value <;> rfl

/-- Items without blanks. -/
def itemsOf (first : Syntax) : List Syntax → Items
  | [] => .last noBlank first noBlank
  | second :: rest => .more noBlank first noBlank (itemsOf second rest)

/-- The derivation of an array without blanks. -/
def arrayOf : List Syntax → Syntax
  | [] => .emptyArray noBlank
  | first :: rest => .array (itemsOf first rest)

/-- Members without blanks. -/
def membersOf (first : String × Syntax) : List (String × Syntax) → Members
  | [] => .last noBlank (first.1.toList.map partOf) noBlank noBlank first.2 noBlank
  | second :: rest =>
    .more noBlank (first.1.toList.map partOf) noBlank noBlank first.2 noBlank (membersOf second rest)

/-- The derivation of an object without blanks. -/
def objectOf : List (String × Syntax) → Syntax
  | [] => .emptyObject noBlank
  | first :: rest => .object (membersOf first rest)

/-- A compact array means what its items mean. -/
theorem value_arrayOf (items : List Syntax) :
    (arrayOf items).value = .array (items.map Syntax.value) := by
  have hitems : ∀ first rest, (itemsOf first rest).values = first.value :: rest.map Syntax.value := by
    intro first rest
    induction rest generalizing first with
    | nil => rfl
    | cons second rest ih => rw [itemsOf, Items.values, ih, List.map_cons]
  cases items with
  | nil => rfl
  | cons first rest => rw [arrayOf, Syntax.value, hitems, List.map_cons]

/-- An array has no pairs if its items have none. -/
theorem hasPair_arrayOf {items : List Syntax} (h : ∀ item ∈ items, item.hasPair = false) :
    (arrayOf items).hasPair = false := by
  have hitems : ∀ first rest, (∀ item ∈ first :: rest, item.hasPair = false) →
      (itemsOf first rest).hasPair = false := by
    intro first rest hrest
    induction rest generalizing first with
    | nil => exact hrest first List.mem_cons_self
    | cons second rest ih =>
      rw [List.forall_mem_cons] at hrest
      rw [itemsOf, Items.hasPair, hrest.1, ih second hrest.2, Bool.or_self]
  cases items with
  | nil => rfl
  | cons first rest => exact hitems first rest h

/-- A compact object means its keys with what stands behind them. -/
theorem value_objectOf (members : List (String × Syntax)) :
    (objectOf members).value = .object (members.map fun member => (member.1, member.2.value)) := by
  have hmembers : ∀ first rest, (membersOf first rest).fields =
      (first :: rest).map fun member => (member.1, member.2.value) := by
    intro first rest
    induction rest generalizing first with
    | nil => rw [membersOf, Members.fields, value_bodyOf, List.map_singleton]
    | cons second rest ih =>
      rw [membersOf, Members.fields, value_bodyOf, ih]
      rfl
  cases members with
  | nil => rfl
  | cons first rest => rw [objectOf, Syntax.value, hmembers]

/-- An object has no pairs if its members have none. -/
theorem hasPair_objectOf {members : List (String × Syntax)}
    (h : ∀ member ∈ members, member.2.hasPair = false) : (objectOf members).hasPair = false := by
  have hmembers : ∀ first rest, (∀ member ∈ first :: rest, member.2.hasPair = false) →
      (membersOf first rest).hasPair = false := by
    intro first rest hrest
    induction rest generalizing first with
    | nil =>
      rw [membersOf, Members.hasPair, hasPair_bodyOf, hrest first List.mem_cons_self, Bool.or_self]
    | cons second rest ih =>
      rw [List.forall_mem_cons] at hrest
      rw [membersOf, Members.hasPair, hasPair_bodyOf, hrest.1, ih second hrest.2, Bool.or_self,
        Bool.or_self]
  cases members with
  | nil => rfl
  | cons first rest => exact hmembers first rest h

/-- Behind the first item only its presence counts. -/
theorem separated_succ (index : ℕ) (items : List (List UInt8)) :
    separated (index + 1) items = separated 1 items := by
  induction items generalizing index with
  | nil => rfl
  | cons item items ih =>
    rw [separated, separated, if_pos (Nat.succ_pos _), if_pos Nat.one_pos, ih (index + 1), ih 1]

/-- The first item has no comma in front. -/
theorem separated_zero_cons (item : List UInt8) (items : List (List UInt8)) :
    separated 0 (item :: items) = item ++ separated 1 items := rfl

/-- Every later item has one. -/
theorem separated_one_cons (item : List UInt8) (items : List (List UInt8)) :
    separated 1 (item :: items) = [0x2c] ++ (item ++ separated 1 items) := by
  rw [separated, if_pos Nat.one_pos, separated_succ 1]

/-- A comma stands between the first two items. -/
theorem separated_cons_cons (first second : List UInt8) (rest : List (List UInt8)) :
    separated 0 (first :: second :: rest) = first ++ [0x2c] ++ separated 0 (second :: rest) := by
  rw [separated_zero_cons, separated_one_cons, separated_zero_cons, List.append_assoc]

/-- One item has no comma. -/
theorem separated_singleton (item : List UInt8) : separated 0 [item] = item := by
  rw [separated, separated, if_neg (by decide), List.append_nil, List.nil_append]

/-- The bytes of a compact array: brackets around the items, commas between them. -/
theorem bytes_arrayOf (items : List Syntax) :
    (arrayOf items).bytes = [0x5b] ++ (separated 0 (items.map Syntax.bytes) ++ [0x5d]) := by
  have hitems : ∀ first rest, utf8Bytes (itemsOf first rest).text =
      separated 0 ((first :: rest).map Syntax.bytes) ++ [0x5d] := by
    intro first rest
    induction rest generalizing first with
    | nil =>
      rw [List.map_singleton, separated_singleton]
      exact utf8Bytes_append first.text [']']
    | cons second rest ih =>
      rw [List.map_cons, List.map_cons, separated_cons_cons, ← List.map_cons, List.append_assoc, ← ih,
        List.append_assoc]
      exact utf8Bytes_append first.text (',' :: (itemsOf second rest).text)
  cases items with
  | nil => rfl
  | cons first rest =>
    rw [arrayOf, Syntax.bytes, Syntax.text, utf8Bytes_cons, hitems]
    rfl

/-- The bytes of a member: its key, a colon and its value. -/
def memberBytes (controlEscape : Char → List UInt8) (member : String × Syntax) : List UInt8 :=
  jsonString controlEscape member.1 ++ ([0x3a] ++ member.2.bytes)

/-- The bytes of a compact object: braces around the members, commas between them. -/
theorem bytes_objectOf {controlEscape : Char → List UInt8}
    (h : ∀ c, jsonChar controlEscape c = utf8Bytes (partOf c).text)
    (members : List (String × Syntax)) : (objectOf members).bytes =
      [0x7b] ++ (separated 0 (members.map (memberBytes controlEscape)) ++ [0x7d]) := by
  have hmember : ∀ (member : String × Syntax) (rest : List Char),
      utf8Bytes (keyText noBlank (member.1.toList.map partOf) noBlank noBlank ++
        (member.2.text ++ (noBlank.val ++ rest))) =
      memberBytes controlEscape member ++ utf8Bytes rest := by
    intro member rest
    have hkey := bytes_bodyOf h member.1
    rw [memberBytes, ← hkey, List.append_assoc, List.append_assoc]
    simp only [keyText, noBlank, List.nil_append, List.append_assoc, List.cons_append]
    rw [← List.cons_append, utf8Bytes_append, utf8Bytes_cons ':', utf8Bytes_append]
    rfl
  have hmembers : ∀ first rest, utf8Bytes (membersOf first rest).text =
      separated 0 ((first :: rest).map (memberBytes controlEscape)) ++ [0x7d] := by
    intro first rest
    induction rest generalizing first with
    | nil =>
      rw [List.map_singleton, separated_singleton]
      exact hmember first ['}']
    | cons second rest ih =>
      rw [List.map_cons, List.map_cons, separated_cons_cons, ← List.map_cons, List.append_assoc, ← ih,
        List.append_assoc]
      exact hmember first (',' :: (membersOf second rest).text)
  cases members with
  | nil => rfl
  | cons first rest =>
    rw [objectOf, Syntax.bytes, Syntax.text, utf8Bytes_cons, hmembers]
    rfl

/-- A text that a serializer spells is read back. -/
def documentOf (item : Syntax) : Document := ⟨noBlank, item, noBlank⟩

/-- A document without blanks around it has the text of its item. -/
theorem text_documentOf (item : Syntax) : (documentOf item).text = item.text :=
  List.append_nil item.text

/-- **Serialized values with the same bytes are the same value.** -/
theorem value_eq_of_bytes_eq {item item' : Syntax} (h : item.bytes = item'.bytes) :
    item.value = item'.value := by
  have htext := utf8Bytes_injective h
  rw [← text_documentOf item, ← text_documentOf item'] at htext
  exact congrArg Document.value (Document.text_injective htext)

end JsonText
