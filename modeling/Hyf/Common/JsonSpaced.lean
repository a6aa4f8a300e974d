import Hyf.Common.JsonCompact

/-!
# JSON over several lines

The trees of a serializer that begins a line for every entry of an array or an object, and one for the
bracket that closes it. `bytes_items` and `bytes_members` are their texts; the strings may be spelled in any
way, and numbers have no zeros in front.
-/

namespace JsonText

open ByteCodec

/-! ## Lines -/

/-- A line break and an indent are blanks. -/
theorem isBlank_replicate (indent : ℕ) : ∀ c ∈ '\n' :: List.replicate indent ' ', isBlank c := by
  intro c hc
  rw [List.mem_cons, List.mem_replicate] at hc
  obtain rfl | ⟨-, rfl⟩ := hc <;> rfl

/-- A line break and the indentation of the next line. -/
def lineBreak (indent : ℕ) : Blank := ⟨'\n' :: List.replicate indent ' ', isBlank_replicate indent⟩

/-- A space is a blank. -/
theorem isBlank_space : ∀ c ∈ [' '], isBlank c := by
  intro c hc
  rw [List.mem_singleton] at hc
  subst hc
  rfl

/-- One space. -/
def space : Blank := ⟨[' '], isBlank_space⟩

/-- The items of an array, each behind `before`, and `close` in front of the bracket. -/
def spacedItems (before close : Blank) (first : Syntax) : List Syntax → Items
  | [] => .last before first close
  | second :: rest => .more before first noBlank (spacedItems before close second rest)

/-- The members of an object, each behind `before`, and `close` in front of the brace. -/
def spacedMembers (before close : Blank) (first : StringBody × Syntax) :
    List (StringBody × Syntax) → Members
  | [] => .last before first.1 noBlank space first.2 close
  | second :: rest =>
    .more before first.1 noBlank space first.2 noBlank (spacedMembers before close second rest)

variable {before close : Blank}

/-- Spaced items mean what they mean without blanks. -/
theorem values_spacedItems (first : Syntax) (rest : List Syntax) :
    (spacedItems before close first rest).values = (first :: rest).map Syntax.value := by
  induction rest generalizing first with
  | nil => rfl
  | cons second rest ih =>
    rw [spacedItems, Items.values, ih]
    rfl

/-- Spaced members mean what they mean without blanks. -/
theorem fields_spacedMembers (first : StringBody × Syntax) (rest : List (StringBody × Syntax)) :
    (spacedMembers before close first rest).fields =
      (first :: rest).map fun member => (member.1.value, member.2.value) := by
  induction rest generalizing first with
  | nil => rfl
  | cons second rest ih =>
    rw [spacedMembers, Members.fields, ih]
    rfl

/-- Spaced items have no zeros in front if the items have none. -/
theorem hasLeadingZero_spacedItems {first : Syntax} {rest : List Syntax}
    (h : ∀ item ∈ first :: rest, item.hasLeadingZero = false) :
    (spacedItems before close first rest).hasLeadingZero = false := by
  induction rest generalizing first with
  | nil => exact h first List.mem_cons_self
  | cons second rest ih =>
    rw [List.forall_mem_cons] at h
    rw [spacedItems, Items.hasLeadingZero, h.1, ih h.2, Bool.or_self]

/-- Spaced members have no zeros in front if their values have none. -/
theorem hasLeadingZero_spacedMembers {first : StringBody × Syntax} {rest : List (StringBody × Syntax)}
    (h : ∀ member ∈ first :: rest, member.2.hasLeadingZero = false) :
    (spacedMembers before close first rest).hasLeadingZero = false := by
  induction rest generalizing first with
  | nil => exact h first List.mem_cons_self
  | cons second rest ih =>
    rw [List.forall_mem_cons] at h
    rw [spacedMembers, Members.hasLeadingZero, h.1, ih h.2, Bool.or_self]

/-! ## Bytes -/

/-- The bytes of a string. -/
def bodyBytes (body : StringBody) : List UInt8 := utf8Bytes ('"' :: body.text)

/-- The bytes of an entry of an array, with the line break in front. -/
def itemBytes (before : Blank) (item : Syntax) : List UInt8 := utf8Bytes before.val ++ item.bytes

/-- The bytes of an entry of an object, with the line break in front. -/
def spacedMemberBytes (before : Blank) (member : StringBody × Syntax) : List UInt8 :=
  utf8Bytes before.val ++ (bodyBytes member.1 ++ ([0x3a, 0x20] ++ member.2.bytes))

/-- The bytes of spaced items, up to the closing bracket. -/
theorem bytes_items (first : Syntax) (rest : List Syntax) :
    utf8Bytes (spacedItems before close first rest).text =
      separated 0 ((first :: rest).map (itemBytes before)) ++ (utf8Bytes close.val ++ [0x5d]) := by
  induction rest generalizing first with
  | nil =>
    rw [List.map_singleton, separated_singleton, spacedItems, Items.text, utf8Bytes_append,
      utf8Bytes_append, utf8Bytes_append, itemBytes, List.append_assoc]
    rfl
  | cons second rest ih =>
    rw [List.map_cons, List.map_cons, separated_cons_cons, ← List.map_cons, List.append_assoc, ← ih,
      spacedItems, Items.text, utf8Bytes_append, utf8Bytes_append, utf8Bytes_append, itemBytes,
      utf8Bytes_cons]
    simp only [List.append_assoc]
    rfl

/-- The bytes of a member: a key, a colon, a space and the value. -/
theorem bytes_keyText (member : StringBody × Syntax) (rest : List Char) :
    utf8Bytes (keyText before member.1 noBlank space ++ (member.2.text ++ rest)) =
      spacedMemberBytes before member ++ utf8Bytes rest := by
  have hkey : keyText before member.1 noBlank space ++ (member.2.text ++ rest) =
      before.val ++ (('"' :: member.1.text) ++ ([':', ' '] ++ (member.2.text ++ rest))) := by
    simp [keyText, noBlank, space]
  rw [hkey, utf8Bytes_append, utf8Bytes_append, utf8Bytes_append, utf8Bytes_append, spacedMemberBytes]
  simp only [List.append_assoc]
  rfl

/-- The bytes of spaced members, up to the closing brace. -/
theorem bytes_members (first : StringBody × Syntax) (rest : List (StringBody × Syntax)) :
    utf8Bytes (spacedMembers before close first rest).text =
      separated 0 ((first :: rest).map (spacedMemberBytes before)) ++ (utf8Bytes close.val ++ [0x7d]) := by
  induction rest generalizing first with
  | nil =>
    rw [List.map_singleton, separated_singleton, spacedMembers, Members.text, bytes_keyText,
      utf8Bytes_append]
    rfl
  | cons second rest ih =>
    rw [List.map_cons, List.map_cons, separated_cons_cons, ← List.map_cons, List.append_assoc, ← ih,
      spacedMembers, Members.text, bytes_keyText, List.append_assoc]
    rfl

/-- The bytes of a spaced array. -/
theorem bytes_array (before close : Blank) (first : Syntax) (rest : List Syntax) :
    (Syntax.array (spacedItems before close first rest)).bytes = [0x5b] ++
      (separated 0 ((first :: rest).map (itemBytes before)) ++ (utf8Bytes close.val ++ [0x5d])) := by
  rw [Syntax.bytes, Syntax.text, utf8Bytes_cons, bytes_items]
  rfl

/-- The bytes of a spaced object. -/
theorem bytes_object (before close : Blank) (first : StringBody × Syntax)
    (rest : List (StringBody × Syntax)) :
    (Syntax.object (spacedMembers before close first rest)).bytes = [0x7b] ++
      (separated 0 ((first :: rest).map (spacedMemberBytes before)) ++
        (utf8Bytes close.val ++ [0x7d])) := by
  rw [Syntax.bytes, Syntax.text, utf8Bytes_cons, bytes_members]
  rfl

/-! ## Numbers -/

/-- The digits of a number do not begin with a zero, unless it is zero. -/
theorem head_decimal {value : ℕ} (h : value ≠ 0) : (decimal value).head? ≠ some 0x30 := by
  revert h
  apply decimal_induction (P := fun value bytes => value ≠ 0 → bytes.head? ≠ some 0x30)
  · intro value hlt hne
    have hdigits : ∀ digit < 10, digit ≠ 0 → [lastDigit digit].head? ≠ some 0x30 := by decide
    exact hdigits value hlt hne
  · intro value hge ih _
    have htenth : value / 10 ≠ 0 := by omega
    have hne := (decimal_ascii (value / 10)).1
    rw [List.head?_append_of_ne_nil _ hne]
    exact ih htenth

/-- A number other than zero is written without a zero in front. -/
theorem hasLeadingZero_numberOf {value : UInt64} (h : value ≠ 0) :
    (numberOf value).hasLeadingZero = false := by
  have hvalue : value.toNat ≠ 0 := fun hzero => h (UInt64.toNat_inj.mp hzero)
  have hhead := head_decimal hvalue
  have hchars : (digitsOf value.toNat).head? ≠ some '0' := by
    rw [digitsOf, List.head?_map]
    intro hzero
    obtain ⟨byte, hbyte, hchar⟩ := Option.map_eq_some_iff.mp hzero
    obtain ⟨hlt, -⟩ := (decimal_ascii value.toNat).2 byte (List.mem_of_mem_head? hbyte)
    have hencoded := congrArg String.utf8EncodeChar hchar
    rw [utf8EncodeChar_ofNat byte hlt] at hencoded
    have hbyteZero : byte = 0x30 := (List.cons.inj hencoded).1
    rw [hbyteZero] at hbyte
    exact hhead hbyte
  show (_ && _) = false
  rw [Bool.and_eq_false_iff]
  exact .inr (beq_eq_false_iff_ne.mpr hchars)

end JsonText
