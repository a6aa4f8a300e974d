import Hyf.Nostr.JsonParser

/-!
# What the JSON parser accepts (`hyf_link_nostr`)

Every parser is compared with the part of the grammar that it reads: `derives_…` says that what it
takes is derived there, `takes_…` that it takes what is derived.
-/

namespace Hyf.Nostr.JsonParser

open ByteCodec ByteCodec.TextParser JsonText

/-! ## Blanks and single characters -/

/-- The blanks of the parser are the ones of the grammar. -/
theorem isWsByte_eq (byte : UInt8) : (byte < 128 → isWsByte byte = isBlank (Char.ofNat byte.toNat)) ∧
    (128 ≤ byte → isWsByte byte = false) := by
  revert byte
  apply forall_byte
  decide

/-- The digits of the parser are the ones of the grammar. -/
theorem isDigitByte_eq (byte : UInt8) :
    (byte < 128 → isDigitByte byte = isDigit (Char.ofNat byte.toNat)) ∧
      (128 ≤ byte → isDigitByte byte = false) := by
  revert byte
  apply forall_byte
  decide

/-- Blanks are below 128. -/
theorem isBlank_lt {c : Char} (h : isBlank c) : c.toNat < 128 := by
  simp only [isBlank, Bool.or_eq_true, beq_iff_eq] at h
  obtain ((rfl | rfl) | rfl) | rfl := h <;> decide

/-- Digits are below 128. -/
theorem isDigit_lt {c : Char} (h : isDigit c) : c.toNat < 128 := by
  simp only [isDigit, Bool.and_eq_true, decide_eq_true_eq] at h
  omega

/-- Dropping blanks from the bytes drops them from the characters. -/
theorem dropWhile_isWsByte (chars : List Char) :
    (utf8Bytes chars).dropWhile isWsByte = utf8Bytes (chars.dropWhile isBlank) :=
  (takeWhile_utf8Bytes (fun byte => (isWsByte_eq byte).1) (fun byte => (isWsByte_eq byte).2)
    (fun _ => isBlank_lt) chars).2

/-- What is skipped is blank. -/
theorem derives_skipWs (n : ℕ) :
    Derives n skipWs fun _ text => ∃ blank : Blank, text = blank.val := by
  intro chars _
  refine EndsWith.of_ok rfl ⟨chars.takeWhile isBlank, chars.dropWhile isBlank,
    List.takeWhile_append_dropWhile.symm, dropWhile_isWsByte chars, ?_⟩
  exact ⟨⟨_, fun c hc => List.mem_takeWhile_imp hc⟩, rfl⟩

/-- All blanks are skipped. -/
theorem takes_skipWs (blank : Blank) : Takes skipWs blank.val () (StopsAt isBlank) := by
  intro rest hrest
  have hdrop := (takeWhile_append_of_stopsAt blank.property hrest).2
  show EStateM.Result.ok () ((utf8Bytes (blank.val ++ rest)).dropWhile isWsByte) = _
  rw [dropWhile_isWsByte, hdrop]

/-- What was expected has been taken. -/
theorem derives_expectByte (n : ℕ) {byte : UInt8} (hbyte : byte < 128) :
    Derives n (expectByte byte) fun _ text => text = [Char.ofNat byte.toNat] := by
  unfold expectByte
  apply (derives_consumeByte n hbyte).bind
  intro found text htext chars _
  cases found with
  | true => exact DerivesAt.pure ((List.append_nil text).trans htext)
  | false => exact DerivesAt.throw _

/-- What is expected is taken. -/
theorem takes_expectByte {byte : UInt8} (hbyte : byte < 128) :
    Takes (expectByte byte) [Char.ofNat byte.toNat] () anyRest :=
  (takes_consumeByte hbyte).bind_any (Takes.pure () anyRest)

/-! ## Literals -/

/-- A string of bytes below 128 at the front is a string of characters. -/
theorem exists_of_utf8Bytes_eq_append {literal : List UInt8} (hliteral : ∀ byte ∈ literal, byte < 128)
    {chars : List Char} {rest : List UInt8} (h : utf8Bytes chars = literal ++ rest) :
    ∃ tail, chars = (literal.map fun byte => Char.ofNat byte.toNat) ++ tail ∧
      rest = utf8Bytes tail := by
  induction literal generalizing chars with
  | nil => exact ⟨chars, rfl, h.symm⟩
  | cons byte literal ih =>
    rw [List.forall_mem_cons] at hliteral
    obtain ⟨tail, rfl, htail⟩ := utf8Bytes_eq_cons hliteral.1 h
    obtain ⟨tail', rfl, hrest⟩ := ih hliteral.2 htail.symm
    exact ⟨tail', rfl, hrest⟩

/-- A literal that was parsed is the one asked for. -/
theorem derives_parseLiteral (n : ℕ) {literal : List UInt8} (value : JsonValue)
    (hliteral : ∀ byte ∈ literal, byte < 128) :
    Derives n (parseLiteral literal value) fun result text =>
      text = (literal.map fun byte => Char.ofNat byte.toNat) ∧ result = value := by
  intro chars _
  unfold parseLiteral
  apply EndsWith.get_bind
  by_cases htake : (utf8Bytes chars).take literal.length = literal
  · rw [if_pos htake]
    have hsplit := (List.take_append_drop literal.length (utf8Bytes chars)).symm
    rw [htake] at hsplit
    obtain ⟨tail, rfl, htail⟩ := exists_of_utf8Bytes_eq_append hliteral hsplit
    exact EndsWith.of_ok rfl ⟨_, tail, rfl, htail, rfl, rfl⟩
  · rw [if_neg htake]
    exact DerivesAt.throw _

/-- A literal is parsed from its characters. -/
theorem takes_parseLiteral (literal : List UInt8) (value : JsonValue)
    (hliteral : ∀ byte ∈ literal, byte < 128) :
    Takes (parseLiteral literal value) (literal.map fun byte => Char.ofNat byte.toNat) value
      anyRest := by
  intro rest _
  rw [utf8Bytes_append, utf8Bytes_map_ofNat hliteral, parseLiteral, run_get_bind,
    if_pos (List.take_left ..)]
  show EStateM.Result.ok value ((literal ++ utf8Bytes rest).drop literal.length) = _
  rw [List.drop_left]

/-! ## Numbers -/

/-- The digits of a number as the parser sees them. -/
theorem utf8Bytes_digits {digits : List Char} (h : ∀ c ∈ digits, isDigit c) (value : ℕ) :
    (utf8Bytes digits).foldl (fun value digit => 10 * value + (digit.toNat - 0x30)) value =
      digits.foldl (fun value c => 10 * value + (c.toNat - 0x30)) value := by
  induction digits generalizing value with
  | nil => rfl
  | cons c digits ih =>
    rw [List.forall_mem_cons] at h
    have hlt := isDigit_lt h.1
    obtain ⟨-, hc⟩ | ⟨hle, -⟩ := utf8EncodeChar_cases c
    · rw [utf8Bytes_cons, hc, List.singleton_append, List.foldl_cons, List.foldl_cons, ih h.2,
        UInt8.toNat_ofNat', Nat.mod_eq_of_lt (by omega)]
    · omega

/-- The parser's sum over the bytes is the number that the digits spell. -/
theorem value_utf8Bytes {digits : List Char} (h : ∀ c ∈ digits, isDigit c) :
    (utf8Bytes digits).foldl (fun value digit => 10 * value + (digit.toNat - 0x30)) 0 =
      decimalValue digits := utf8Bytes_digits h 0

/-- Digits are a number if there are some and it fits in 64 bits. -/
theorem parseU64_utf8Bytes {digits : List Char} (h : ∀ c ∈ digits, isDigit c) :
    parseU64 (utf8Bytes digits) =
      if digits ≠ [] ∧ decimalValue digits < 2 ^ 64 then some (UInt64.ofNat (decimalValue digits))
      else none := by
  have hnil : utf8Bytes digits ≠ [] ↔ digits ≠ [] := by
    have hlen := length_le_utf8Bytes digits
    rw [not_iff_not]
    refine ⟨fun hempty => ?_, fun hempty => by rw [hempty]; rfl⟩
    rw [hempty] at hlen
    exact List.length_eq_zero_iff.mp (Nat.le_zero.mp hlen)
  unfold parseU64
  simp only [value_utf8Bytes h]
  by_cases hvalue : digits ≠ [] ∧ decimalValue digits < 2 ^ 64
  · rw [if_pos hvalue, if_pos ⟨hnil.mpr hvalue.1, hvalue.2⟩]
  · rw [if_neg hvalue, if_neg fun hbytes => hvalue ⟨hnil.mp hbytes.1, hbytes.2⟩]

/-- The value of the digits at the front, and what is behind them. -/
theorem run_parseNumber (chars : List Char) :
    parseNumber (utf8Bytes chars) =
      if chars.takeWhile isDigit ≠ [] ∧ decimalValue (chars.takeWhile isDigit) < 2 ^ 64 then
        .ok (.number (UInt64.ofNat (decimalValue (chars.takeWhile isDigit))))
          (utf8Bytes (chars.dropWhile isDigit))
      else .error (.error .malformedMessage) (utf8Bytes (chars.dropWhile isDigit)) := by
  obtain ⟨htake, hdrop⟩ := takeWhile_utf8Bytes (fun byte => (isDigitByte_eq byte).1)
    (fun byte => (isDigitByte_eq byte).2) (fun _ => isDigit_lt) chars
  have hdigits : ∀ c ∈ chars.takeWhile isDigit, isDigit c := fun c hc => List.mem_takeWhile_imp hc
  have hvalue := parseU64_utf8Bytes hdigits
  rw [parseNumber, run_get_bind]
  simp only [htake]
  have hmodify : (modify (List.dropWhile isDigitByte) : JsonParser Unit) (utf8Bytes chars) =
      .ok () (utf8Bytes (chars.dropWhile isDigit)) := congrArg (EStateM.Result.ok ()) hdrop
  rw [run_bind_of_ok hmodify, fromUtf8_utf8Bytes]
  simp only [asBytes_ofList, hvalue]
  split_ifs <;> rfl

/-- A number that was parsed is a numeral, perhaps with zeros in front. -/
theorem derives_parseNumber (n : ℕ) :
    Derives n parseNumber fun value text =>
      ∃ numeral : Numeral, text = numeral.digits ∧ value = .number numeral.value := by
  intro chars _
  by_cases h : chars.takeWhile isDigit ≠ [] ∧ decimalValue (chars.takeWhile isDigit) < 2 ^ 64
  · refine EndsWith.of_ok ((run_parseNumber chars).trans (if_pos h)) ⟨chars.takeWhile isDigit,
      chars.dropWhile isDigit, List.takeWhile_append_dropWhile.symm, rfl, ?_⟩
    exact ⟨⟨_, fun c hc => List.mem_takeWhile_imp hc, h.1, h.2⟩, rfl, rfl⟩
  · exact EndsWith.of_error ((run_parseNumber chars).trans (if_neg h)) trivial

/-- A numeral is parsed to its value, up to its last digit. -/
theorem takes_parseNumber (numeral : Numeral) :
    Takes parseNumber numeral.digits (.number numeral.value) (StopsAt isDigit) := by
  intro rest hrest
  obtain ⟨htake, hdrop⟩ := takeWhile_append_of_stopsAt numeral.isDigit_of_mem hrest
  rw [run_parseNumber, htake, hdrop, if_pos ⟨numeral.ne_nil, numeral.lt⟩]
  rfl

/-! ## Escapes -/

/-- The parser and the grammar agree on the hexadecimal digits. -/
theorem hexValue_cases (byte : UInt8) (h : byte < 128) :
    (∃ digit : Fin 16, hexValue byte = .ok (UInt8.ofNat digit) ∧
      hexValue? (Char.ofNat byte.toNat) = some digit.val) ∨
    (hexValue byte = fail .malformedMessage ∧ hexValue? (Char.ofNat byte.toNat) = none) := by
  revert h
  revert byte
  apply forall_byte
  decide

/-- No byte from 128 on is a digit. -/
theorem hexValue_of_le (byte : UInt8) (h : 128 ≤ byte) : hexValue byte = fail .malformedMessage := by
  revert h
  revert byte
  apply forall_byte
  decide

/-- One more digit of a code unit. -/
theorem toNat_shift_or {value : UInt32} (h : value.toNat < 2 ^ 28) (digit : Fin 16) :
    ((value <<< 4) ||| (UInt8.ofNat digit).toUInt32).toNat = value.toNat * 16 + digit := by
  have hdigit : (UInt8.ofNat digit.val).toUInt32.toNat = digit := by
    rw [UInt8.toNat_toUInt32, UInt8.toNat_ofNat', Nat.mod_eq_of_lt (by omega)]
  have hshift : (value <<< 4).toNat = value.toNat <<< 4 := by
    rw [UInt32.toNat_shiftLeft]
    exact Nat.mod_eq_of_lt (by rw [Nat.shiftLeft_eq]; show _ * 2 ^ 4 < _; omega)
  rw [UInt32.toNat_or, hdigit, hshift, ← Nat.shiftLeft_add_eq_or_of_lt (show digit.val < 2 ^ 4 by omega),
    Nat.shiftLeft_eq]

/-- The number of the digits so far. -/
def hexFold (value : ℕ) (digits : List HexDigit) : ℕ :=
  digits.foldl (fun value digit => value * 16 + digit.value) value

/-- The loop has room for the digits that are left. -/
theorem derives_parseHexDigits (n k rounds : ℕ) (hrounds : k + rounds ≤ 7) {value : UInt32}
    (hvalue : value.toNat < 16 ^ k) :
    Derives n (parseHexDigits rounds value) fun result text => ∃ digits : List HexDigit,
      digits.length = rounds ∧ text = digits.map Subtype.val ∧
      result.toNat = hexFold value.toNat digits := by
  induction rounds generalizing n k value with
  | zero => exact fun _ _ => DerivesAt.pure ⟨[], rfl, rfl, rfl⟩
  | succ rounds ih =>
    intro chars hlen
    rw [parseHexDigits]
    apply derivesAt_nextByte_bind
    · exact DerivesAt.throw _
    · rintro byte tail hbyte rfl
      simp only
      rcases hexValue_cases byte hbyte with ⟨digit, hdigit, hchar⟩ | ⟨hfail, -⟩
      · have hsmall : value.toNat < 2 ^ 28 := by
          have hpow : 16 ^ k ≤ 16 ^ 6 := Nat.pow_le_pow_right (by decide) (by omega)
          omega
        have hnext := toNat_shift_or hsmall digit
        have hbound : ((value <<< 4) ||| (UInt8.ofNat digit).toUInt32).toNat < 16 ^ (k + 1) := by
          rw [hnext, pow_succ]
          omega
        have hhex : (hexValue? (Char.ofNat byte.toNat)).isSome := by
          rw [hchar]
          rfl
        have hget : HexDigit.value ⟨Char.ofNat byte.toNat, hhex⟩ = digit := by
          simp only [HexDigit.value, hchar, Option.get_some]
        rw [Outcome.lift_bind hdigit]
        rw [List.length_cons] at hlen
        apply (ih n (k + 1) (by omega) hbound tail (by omega)).mono
        rintro result text ⟨digits, rfl, rfl, hresult⟩ -
        refine ⟨⟨_, hhex⟩ :: digits, rfl, rfl, ?_⟩
        rw [hresult, hnext, hexFold, hexFold, List.foldl_cons, hget]
      · rw [hfail]
        exact DerivesAt.throw _
    · intro byte hbyte
      refine ⟨.malformedMessage, ?_⟩
      simp only [hexValue_of_le byte hbyte]
      rfl

/-- A hexadecimal digit is a byte of which the parser knows the value. -/
theorem exists_byte_of_hexDigit (digit : HexDigit) : ∃ byte : UInt8, byte < 128 ∧
    digit.val = Char.ofNat byte.toNat ∧ hexValue byte = .ok (UInt8.ofNat digit.value) ∧
    digit.value < 16 := by
  obtain ⟨c, hc⟩ := digit
  have hlt : c.toNat < 128 := by
    by_contra hge
    simp only [hexValue?] at hc
    rw [if_neg (by omega), if_neg (by omega), if_neg (by omega)] at hc
    cases hc
  have hnat : (UInt8.ofNat c.toNat).toNat = c.toNat := by
    rw [UInt8.toNat_ofNat', Nat.mod_eq_of_lt (by omega)]
  have hbyte : UInt8.ofNat c.toNat < 128 := by
    rw [UInt8.lt_iff_toNat_lt, hnat]
    exact hlt
  rcases hexValue_cases _ hbyte with ⟨value, hvalue, hchar⟩ | ⟨-, hnone⟩
  · rw [hnat, Char.ofNat_toNat] at hchar
    have hget : HexDigit.value ⟨c, hc⟩ = value := by
      simp only [HexDigit.value, hchar, Option.get_some]
    exact ⟨_, hbyte, by rw [hnat, Char.ofNat_toNat], by rw [hget, hvalue], by rw [hget]; omega⟩
  · rw [hnat, Char.ofNat_toNat] at hnone
    rw [hnone] at hc
    cases hc

/-- Hexadecimal digits are parsed one by one. Seven of them do not overflow 32 bits. -/
theorem takes_parseHexDigits (k : ℕ) (digits : List HexDigit) (hrounds : k + digits.length ≤ 7)
    (value : UInt32) (hvalue : value.toNat < 16 ^ k) :
    ∃ result : UInt32, result.toNat = hexFold value.toNat digits ∧
      Takes (parseHexDigits digits.length value) (digits.map Subtype.val) result anyRest := by
  induction digits generalizing k value with
  | nil => exact ⟨value, rfl, Takes.pure value anyRest⟩
  | cons digit digits ih =>
    obtain ⟨byte, hbyte, hchar, hhex, hdigit⟩ := exists_byte_of_hexDigit digit
    rw [List.length_cons] at hrounds
    have hsmall : value.toNat < 2 ^ 28 := by
      have hpow : 16 ^ k ≤ 16 ^ 6 := Nat.pow_le_pow_right (by decide) (by omega)
      omega
    have hnext := toNat_shift_or hsmall ⟨digit.value, hdigit⟩
    have hbound : ((value <<< 4) ||| (UInt8.ofNat digit.value).toUInt32).toNat < 16 ^ (k + 1) := by
      rw [hnext, pow_succ]
      omega
    obtain ⟨result, hresult, htakes⟩ := ih (k + 1) (by omega) _ hbound
    refine ⟨result, by rw [hresult, hnext]; rfl, ?_⟩
    rw [List.map_cons, List.length_cons, parseHexDigits, hchar]
    exact (takes_nextByte hbyte).bind_any (htakes.lift_bind hhex)

/-- A code is a character if it is no surrogate and within Unicode. -/
theorem charFromU32_eq (value : UInt32) : charFromU32 value =
    if value.toNat.isValidChar then some (Char.ofNat value.toNat) else none := by
  unfold charFromU32
  split_ifs with h
  · rw [Char.ofNat, dif_pos h]
    rfl
  · rfl

/-- A code unit is a character when it is no surrogate. -/
theorem isValidChar_code_iff (quad : HexQuad) :
    quad.code.isValidChar ↔ quad.isSurrogate = false := by
  have hlt : quad.code < 0x10000 := by
    obtain ⟨-, -, -, -, ha⟩ := exists_byte_of_hexDigit quad.first
    obtain ⟨-, -, -, -, hb⟩ := exists_byte_of_hexDigit quad.second
    obtain ⟨-, -, -, -, hc⟩ := exists_byte_of_hexDigit quad.third
    obtain ⟨-, -, -, -, hd⟩ := exists_byte_of_hexDigit quad.fourth
    unfold HexQuad.code
    omega
  simp only [HexQuad.isSurrogate, HexQuad.isHigh, HexQuad.isLow, Nat.isValidChar, Bool.or_eq_false_iff,
    Bool.and_eq_false_iff, decide_eq_false_iff_not]
  omega

/-- What was parsed after `\u` is four digits, no half of a pair, and their character. -/
theorem derives_parseUnicodeEscape (n : ℕ) :
    Derives n parseUnicodeEscape fun c text => ∃ quad : HexQuad, quad.isSurrogate = false ∧
      text = quad.text ∧ c = Char.ofNat quad.code := by
  unfold parseUnicodeEscape
  apply (derives_parseHexDigits n 3 4 le_rfl (by decide)).bind
  rintro value text ⟨digits, hlen, rfl, hvalue⟩ chars -
  match digits, hlen with
  | [a, b, c, d], _ =>
    have hcode : value.toNat = HexQuad.code ⟨a, b, c, d⟩ := by
      rw [hvalue]
      simp [hexFold, HexQuad.code]
    simp only [charFromU32_eq, hcode]
    by_cases hvalid : (HexQuad.code ⟨a, b, c, d⟩).isValidChar
    · simp only [if_pos hvalid]
      exact DerivesAt.pure ⟨⟨a, b, c, d⟩, (isValidChar_code_iff _).mp hvalid, rfl, rfl⟩
    · simp only [if_neg hvalid]
      exact DerivesAt.throw _

/-- Four digits that are no half of a pair are parsed to their character. -/
theorem takes_parseUnicodeEscape {quad : HexQuad} (h : quad.isSurrogate = false) :
    Takes parseUnicodeEscape quad.text (Char.ofNat quad.code) anyRest := by
  obtain ⟨value, hvalue, htakes⟩ := takes_parseHexDigits 3
    [quad.first, quad.second, quad.third, quad.fourth] le_rfl 0 (by decide)
  have hcode : value.toNat = quad.code := by
    rw [hvalue]
    simp [hexFold, HexQuad.code]
  have hvalid := (isValidChar_code_iff quad).mpr h
  apply htakes.bind_any
  rw [charFromU32_eq, hcode, if_pos hvalid]
  exact Takes.pure _ _

/-- The letters of the short escapes. -/
theorem parseEscapeAt_short {byte : UInt8} {c : Char} (out : String) (hbyte : byte < 128)
    (h : shortEscape? (Char.ofNat byte.toNat) = some c) :
    parseEscapeAt out (some byte) = pure (out.push c) := by
  have hletters : ∀ byte : UInt8, byte < 128 → (shortEscape? (Char.ofNat byte.toNat)).isSome →
      byte = 0x22 ∨ byte = 0x5c ∨ byte = 0x2f ∨ byte = 0x62 ∨ byte = 0x66 ∨ byte = 0x6e ∨
        byte = 0x72 ∨ byte = 0x74 := by
    apply forall_byte
    decide
  have hsome : (shortEscape? (Char.ofNat byte.toNat)).isSome := by
    rw [h]
    rfl
  obtain rfl | rfl | rfl | rfl | rfl | rfl | rfl | rfl := hletters byte hbyte hsome <;>
    obtain rfl := Option.some.inj h <;> rfl

/-- Every other byte but the `u` is refused. -/
theorem parseEscapeAt_other {byte : UInt8} (out : String)
    (h : byte < 128 → shortEscape? (Char.ofNat byte.toNat) = none) (hu : byte ≠ 0x75) :
    parseEscapeAt out (some byte) = malformed := by
  have hne : byte ≠ 0x22 ∧ byte ≠ 0x5c ∧ byte ≠ 0x2f ∧ byte ≠ 0x62 ∧ byte ≠ 0x66 ∧ byte ≠ 0x6e ∧
      byte ≠ 0x72 ∧ byte ≠ 0x74 := by
    refine ⟨?_, ?_, ?_, ?_, ?_, ?_, ?_, ?_⟩ <;> rintro rfl <;> cases h (by decide)
  unfold parseEscapeAt
  simp only [hne, hu, if_false]

/-- What an escape adds to the string: a character that is not spelled as a pair. -/
def EscapeText (out result : String) (text : List Char) : Prop :=
  ∃ part : StringPart, part.isPair = false ∧ '\\' :: text = part.text ∧ result = out.push part.char

/-- What was parsed after a backslash is an escape of the grammar without pairs. -/
theorem derives_parseEscape (n : ℕ) (out : String) :
    Derives n (parseEscape out) (EscapeText out) := by
  intro chars hlen
  apply derivesAt_nextByte_bind
  · exact DerivesAt.throw _
  · rintro byte tail hbyte rfl
    rw [List.length_cons] at hlen
    cases hshort : shortEscape? (Char.ofNat byte.toNat) with
    | some c =>
      have hsome : (shortEscape? (Char.ofNat byte.toNat)).isSome := by
        rw [hshort]
        rfl
      rw [parseEscapeAt_short out hbyte hshort]
      refine DerivesAt.pure ⟨.short _ hsome, rfl, rfl, ?_⟩
      simp only [StringPart.char, hshort, Option.get_some]
    | none =>
      by_cases hu : byte = 0x75
      · subst hu
        apply (derives_parseUnicodeEscape n tail (by omega)).bind
        rintro c text _ - ⟨quad, hquad, rfl, rfl⟩
        refine DerivesAt.pure ⟨.unit quad hquad, rfl, ?_, rfl⟩
        rw [List.append_nil]
        rfl
      · rw [parseEscapeAt_other out (fun _ => hshort) hu]
        exact DerivesAt.throw _
  · intro byte hbyte
    refine ⟨.malformedMessage, parseEscapeAt_other out (fun hlt => ?_) ?_⟩
    · exact absurd hlt (UInt8.not_lt.mpr hbyte)
    · rintro rfl
      exact absurd hbyte (by decide)

/-- The short escapes are letters and signs below 128. -/
theorem shortEscape_lt {c : Char} (h : (shortEscape? c).isSome) : c.toNat < 128 := by
  unfold shortEscape? at h
  split_ifs at h with h₁ h₂ h₃ h₄ h₅ h₆ h₇ h₈ <;> first | (subst_vars; decide) | cases h

/-- A character below 128 is a byte. -/
theorem exists_byte {c : Char} (h : c.toNat < 128) :
    ∃ byte : UInt8, byte < 128 ∧ c = Char.ofNat byte.toNat := by
  have hnat : (UInt8.ofNat c.toNat).toNat = c.toNat := by
    rw [UInt8.toNat_ofNat', Nat.mod_eq_of_lt (by omega)]
  refine ⟨UInt8.ofNat c.toNat, ?_, by rw [hnat, Char.ofNat_toNat]⟩
  rw [UInt8.lt_iff_toNat_lt, hnat]
  exact h

/-- An escape of the grammar without pairs is parsed. -/
theorem takes_parseEscape {out result : String} {text : List Char} (h : EscapeText out result text) :
    Takes (parseEscape out) text result anyRest := by
  obtain ⟨part, hpair, htext, rfl⟩ := h
  cases part with
  | raw c hc =>
    obtain rfl := (List.cons.inj htext).1
    exact absurd rfl (StringPart.ne_backslash_of_isUnescaped hc)
  | short c hc =>
    obtain rfl := (List.cons.inj htext).2
    obtain ⟨byte, hbyte, rfl⟩ := exists_byte (shortEscape_lt hc)
    have hshort := (Option.some_get hc).symm
    have hend : Takes (parseEscapeAt out (some byte)) []
        (out.push (StringPart.short (Char.ofNat byte.toNat) hc).char) anyRest := by
      rw [parseEscapeAt_short out hbyte hshort]
      exact Takes.pure _ _
    exact (takes_nextByte hbyte).bind_any hend
  | unit quad hquad =>
    obtain rfl := (List.cons.inj htext).2
    have hend : Takes (parseEscapeAt out (some 0x75)) (quad.text ++ [])
        (out.push (Char.ofNat quad.code)) anyRest :=
      (takes_parseUnicodeEscape hquad).bind_any (Takes.pure _ _)
    rw [List.append_nil] at hend
    exact (takes_nextByte (show (0x75 : UInt8) < 128 by decide)).bind_any hend
  | pair high low hhigh hlow => cases hpair

/-! ## Strings -/

/-- What one round of a string does: it meets the closing quote, or adds a character. -/
def StringRoundText (out : String) : String ⊕ String → List Char → Prop
  | .inr result, text => text = ['"'] ∧ result = out
  | .inl next, text =>
    ∃ part : StringPart, part.isPair = false ∧ text = part.text ∧ next = out.push part.char

/-- A character of any width is taken as a whole. -/
theorem takes_parseCharacter (out : String) (c : Char) :
    Takes (parseCharacter out) [c] (out.push c) anyRest := by
  intro rest _
  have htext : (String.ofList (c :: rest)).toList = c :: rest := String.toList_ofList
  rw [List.singleton_append, parseCharacter, run_get_bind]
  simp only [fromUtf8_utf8Bytes, htext]
  have hadvance : (advance c.utf8Size : JsonParser Unit) (utf8Bytes (c :: rest)) =
      .ok () (utf8Bytes rest) := by
    show EStateM.Result.ok () ((utf8Bytes (c :: rest)).drop c.utf8Size) = _
    rw [utf8Bytes_cons, ← String.length_utf8EncodeChar, List.drop_left]
  exact run_bind_of_ok hadvance _

/-- A character of more than one byte is a turn of the string. -/
theorem takes_wideCharacter (out : String) (c : Char) :
    Takes (do let out ← parseCharacter out; return .inl out : JsonParser (String ⊕ String)) [c]
      (.inl (out.push c)) anyRest :=
  (takes_parseCharacter out c).bind_pure rfl

/-- Bytes from 128 on begin a character of more than one byte. -/
theorem stringRoundAt_of_le (out : String) {byte : UInt8} (h : 128 ≤ byte) :
    stringRoundAt out (some byte) = do let out ← parseCharacter out; return .inl out := by
  have hne : byte ≠ 0x22 ∧ byte ≠ 0x5c ∧ ¬byte ≤ 0x1f ∧ ¬byte ≤ 0x7f := by
    refine ⟨?_, ?_, ?_, ?_⟩
    · rintro rfl
      exact absurd h (by decide)
    · rintro rfl
      exact absurd h (by decide)
    · exact fun hle => absurd (UInt8.le_trans h hle) (by decide)
    · exact fun hle => absurd (UInt8.le_trans h hle) (by decide)
  unfold stringRoundAt
  simp only [hne, if_false]

/-- From 128 on every character stands for itself. -/
theorem isUnescaped_of_le {c : Char} (h : 128 ≤ c.toNat) : isUnescaped c := by
  simp only [isUnescaped, Bool.and_eq_true, decide_eq_true_eq, bne_iff_ne]
  refine ⟨⟨by omega, ?_⟩, ?_⟩ <;> rintro rfl <;> exact absurd h (by decide)

/-- Below 128 all but the control characters, the quote and the backslash do. -/
theorem isUnescaped_ascii {byte : UInt8} (hbyte : byte < 128) (hcontrol : ¬byte ≤ 0x1f)
    (hquote : byte ≠ 0x22) (hbackslash : byte ≠ 0x5c) : isUnescaped (Char.ofNat byte.toNat) := by
  have hall : ∀ byte : UInt8, byte < 128 → ¬byte ≤ 0x1f → byte ≠ 0x22 → byte ≠ 0x5c →
      isUnescaped (Char.ofNat byte.toNat) := by
    apply forall_byte
    decide
  exact hall byte hbyte hcontrol hquote hbackslash

/-- A turn of the string takes the quote at its end or one character. -/
theorem derives_stringRound (n : ℕ) (out : String) :
    Derives n (stringRound out) (StringRoundText out) := by
  intro chars hlen
  apply derivesAt_peek_bind
  · exact DerivesAt.throw _
  · rintro byte tail hbyte rfl
    rw [List.length_cons] at hlen
    apply DerivesAt.ite
    · rintro rfl
      apply (derivesAt_advance_one _ hbyte tail).bind
      rintro _ _ _ - rfl
      exact DerivesAt.pure ⟨rfl, rfl⟩
    intro hquote
    apply DerivesAt.ite
    · rintro rfl
      apply (derivesAt_advance_one _ hbyte tail).bind
      rintro _ _ tail' htail rfl
      obtain rfl := (List.cons.inj htail).2
      apply (derives_parseEscape n out _ (by omega)).bind
      rintro result text _ - ⟨part, hpair, htext, rfl⟩
      refine DerivesAt.pure ⟨part, hpair, ?_, rfl⟩
      rw [List.append_nil, ← htext]
      rfl
    intro hbackslash
    apply DerivesAt.ite
    · exact fun _ => DerivesAt.throw _
    intro hcontrol
    apply DerivesAt.ite
    · intro _
      apply (derivesAt_advance_one _ hbyte tail).bind
      rintro _ _ _ - rfl
      exact DerivesAt.pure ⟨.raw _ (isUnescaped_ascii hbyte hcontrol hquote hbackslash), rfl, rfl, rfl⟩
    · intro hlarge
      rw [UInt8.le_iff_toNat_le] at hlarge
      exact absurd (Nat.le_of_lt_succ (UInt8.lt_iff_toNat_lt.mp hbyte)) hlarge
  · rintro byte c tail hbyte hc rfl
    rw [stringRoundAt_of_le out hbyte]
    have hrun := takes_wideCharacter out c tail trivial
    exact EndsWith.of_ok hrun ⟨[c], tail, rfl, rfl, .raw c (isUnescaped_of_le hc), rfl, rfl, rfl⟩

/-- A character that stands for itself. -/
theorem takes_stringRound_raw (out : String) {c : Char} (hc : isUnescaped c) :
    Takes (stringRound out) [c] (.inl (out.push c)) anyRest := by
  by_cases hlt : c.toNat < 128
  · obtain ⟨byte, hbyte, rfl⟩ := exists_byte hlt
    have hkind : ∀ byte : UInt8, byte < 128 → isUnescaped (Char.ofNat byte.toNat) →
        byte ≠ 0x22 ∧ byte ≠ 0x5c ∧ ¬byte ≤ 0x1f ∧ byte ≤ 0x7f := by
      apply forall_byte
      decide
    obtain ⟨hquote, hbackslash, hcontrol, hascii⟩ := hkind byte hbyte hc
    apply takes_peek_bind hbyte
    rw [stringRoundAt, if_neg hquote, if_neg hbackslash, if_neg hcontrol, if_pos hascii]
    exact (takes_advance hbyte).bind_pure rfl
  · intro rest _
    obtain ⟨hlt', -⟩ | ⟨-, byte, bytes, hbyte, hbytes⟩ := utf8EncodeChar_cases c
    · exact absurd hlt' hlt
    · rw [← takes_wideCharacter out c rest trivial, ← stringRoundAt_of_le out hbyte,
        List.singleton_append, utf8Bytes_cons, hbytes]
      rfl

/-- A character of the grammar is one turn. -/
theorem takes_stringRound {out : String} {next : String ⊕ String} {text : List Char}
    (h : StringRoundText out next text) : Takes (stringRound out) text next anyRest := by
  cases next with
  | inr result =>
    obtain ⟨rfl, rfl⟩ := h
    exact takes_peek_bind (show (0x22 : UInt8) < 128 by decide)
      ((takes_advance (by decide)).bind_any (Takes.pure _ _))
  | inl next =>
    obtain ⟨part, hpair, rfl, rfl⟩ := h
    by_cases hescape : ∃ text, part.text = '\\' :: text
    · obtain ⟨text, htext⟩ := hescape
      have hrest : Takes (parseEscape out) text (out.push part.char) anyRest :=
        takes_parseEscape ⟨part, hpair, htext.symm, rfl⟩
      rw [htext]
      exact takes_peek_bind (show (0x5c : UInt8) < 128 by decide)
        ((takes_advance (by decide)).bind_any (hrest.bind_pure rfl))
    · cases part with
      | raw c hc => exact takes_stringRound_raw out hc
      | _ => exact absurd ⟨_, rfl⟩ hescape

/-- The rounds of a string spell its characters up to the closing quote. -/
theorem iterates_stringRound {out result : String} {text : List Char}
    (h : Iterates StringRoundText out result text) : ∃ body : StringBody, body.hasPair = false ∧
      text = body.text ∧ result.toList = out.toList ++ body.map StringPart.char := by
  induction h with
  | stop h =>
    obtain ⟨rfl, rfl⟩ := h
    exact ⟨[], rfl, rfl, (List.append_nil _).symm⟩
  | step h _ ih =>
    obtain ⟨part, hpair, rfl, rfl⟩ := h
    obtain ⟨body, hbody, rfl, hresult⟩ := ih
    refine ⟨part :: body, ?_, ?_, ?_⟩
    · rw [StringBody.hasPair, List.any_cons, hpair, Bool.false_or]
      exact hbody
    · rw [StringBody.text, StringBody.text, List.flatMap_cons, List.append_assoc]
    · rw [hresult, String.toList_push, List.map_cons, List.append_assoc, List.singleton_append]

/-- The characters of a string are turns, one behind the other. -/
theorem iterates_of_body (body : StringBody) (h : body.hasPair = false) (out : String) :
    Iterates StringRoundText out (String.ofList (out.toList ++ body.map StringPart.char))
      body.text := by
  induction body generalizing out with
  | nil =>
    rw [List.map_nil, List.append_nil, String.ofList_toList]
    exact .stop ⟨rfl, rfl⟩
  | cons part body ih =>
    rw [StringBody.hasPair, List.any_cons, Bool.or_eq_false_iff] at h
    have hrest := ih h.2 (out.push part.char)
    rw [String.toList_push, List.append_assoc, List.singleton_append] at hrest
    rw [StringBody.text, List.flatMap_cons, List.append_assoc]
    exact .step ⟨part, h.1, rfl, rfl⟩ hrest

/-- A string literal without surrogates, and its value. -/
def StringText (value : String) (text : List Char) : Prop :=
  ∃ body : StringBody, body.hasPair = false ∧ text = '"' :: body.text ∧ value = body.value

/-- A turn that goes on takes something. -/
theorem stringRound_ne_nil (out next : String) (text : List Char)
    (h : StringRoundText out (.inl next) text) : text ≠ [] := by
  obtain ⟨part, -, rfl, -⟩ := h
  cases part <;> exact List.cons_ne_nil _ _

/-- A string that was parsed is one of the grammar without pairs. -/
theorem derives_parseString (n : ℕ) : Derives n parseString StringText := by
  unfold parseString
  apply (derives_expectByte n (by decide)).bind
  rintro _ _ rfl
  apply (derives_loopRest (derives_stringRound n) stringRound_ne_nil "").mono
  intro value text h
  obtain ⟨body, hpair, rfl, hvalue⟩ := iterates_stringRound h
  refine ⟨body, hpair, rfl, ?_⟩
  rw [← String.ofList_toList (s := value), hvalue]
  rfl

/-- A string of the grammar without pairs is parsed to its characters. -/
theorem takes_parseString {value : String} {text : List Char} (h : StringText value text) :
    Takes parseString text value anyRest := by
  obtain ⟨body, hpair, rfl, rfl⟩ := h
  have hloop := takes_loopRest @takes_stringRound stringRound_ne_nil
    (iterates_of_body body hpair "")
  exact (takes_expectByte (show (0x22 : UInt8) < 128 by decide)).bind_any hloop

/-! ## Arrays and objects -/

/-- How a round of a loop over items ends: with a comma it goes on, with `close` it returns. -/
def EndText {α β : Type} (close : Char) (state : α) (result : β) : α ⊕ β → List Char → Prop
  | .inl next, text => (∃ after : Blank, text = after.val ++ [',']) ∧ next = state
  | .inr last, text => (∃ after : Blank, text = after.val ++ [close]) ∧ last = result

/-- The end of a round. -/
def roundEnd {α β : Type} (close : UInt8) (state : α) (result : β) : JsonParser (α ⊕ β) := do
  skipWs
  if ← consumeByte close then return .inr result
  else do
    expectByte 0x2c
    return .inl state

section RoundEnd

variable {α β : Type} {close : UInt8}

/-- Behind an item comes a comma or the end. -/
theorem derives_roundEnd (n : ℕ) (hclose : close < 128) (state : α) (result : β) :
    Derives n (roundEnd close state result) (EndText (Char.ofNat close.toNat) state result) := by
  apply (derives_skipWs n).bind
  rintro _ _ ⟨after, rfl⟩
  apply (derives_consumeByte n hclose).bind
  rintro found _ rfl
  cases found with
  | true => exact fun _ _ => DerivesAt.pure ⟨⟨after, rfl⟩, rfl⟩
  | false =>
    apply (derives_expectByte n (by decide)).bind
    rintro _ _ rfl
    exact fun _ _ => DerivesAt.pure ⟨⟨after, rfl⟩, rfl⟩

/-- A comma goes on, the closing character ends. -/
theorem takes_roundEnd (hclose : close < 128) (hclosing : closes (Char.ofNat close.toNat))
    (hcomma : Char.ofNat close.toNat ≠ ',') {state : α} {result : β} {next : α ⊕ β}
    {text : List Char} (h : EndText (Char.ofNat close.toNat) state result next text) :
    Takes (roundEnd close state result) text next anyRest := by
  intro rest _
  cases next with
  | inr last =>
    obtain ⟨⟨after, rfl⟩, rfl⟩ := h
    have hskip := takes_skipWs after (Char.ofNat close.toNat :: rest)
      (stopsAt_cons (isBlank_of_closes hclosing))
    have hconsume : (consumeByte close : JsonParser Bool) (utf8Bytes (Char.ofNat close.toNat :: rest)) =
        .ok true (utf8Bytes rest) := takes_consumeByte hclose rest trivial
    rw [List.append_assoc, List.singleton_append, roundEnd, run_bind_of_ok hskip,
      run_bind_of_ok hconsume]
    rfl
  | inl next =>
    obtain ⟨⟨after, rfl⟩, rfl⟩ := h
    have hskip := takes_skipWs after (',' :: rest) (stopsAt_cons (isBlank_of_closes rfl))
    have hother : (consumeByte close : JsonParser Bool) (utf8Bytes (',' :: rest)) =
        .ok false (utf8Bytes (',' :: rest)) :=
      takes_consumeByte_ne hclose _ fun tail heq => hcomma (List.cons.inj heq).1.symm
    have hexpect := takes_expectByte (show (0x2c : UInt8) < 128 by decide) rest trivial
    rw [List.append_assoc, List.singleton_append, roundEnd, run_bind_of_ok hskip,
      run_bind_of_ok hother]
    exact run_bind_of_ok hexpect _

end RoundEnd

/-- One round of an array: a value, of which `V` lists the texts, and the end of the round. -/
def ArrayRoundText (V : JsonValue → List Char → Prop) (values : List JsonValue)
    (next : List JsonValue ⊕ JsonValue) (text : List Char) : Prop :=
  ∃ value first second, V value first ∧ text = first ++ second ∧
    EndText ']' (values ++ [value]) (JsonValue.array (values ++ [value])) next second

/-- The text of a key and its colon. -/
def KeyText (key : String) (text : List Char) : Prop :=
  ∃ (before : Blank) (body : StringBody) (colon : Blank), body.hasPair = false ∧
    text = before.val ++ '"' :: (body.text ++ (colon.val ++ [':'])) ∧ key = body.value

/-- One round of an object. -/
def ObjectRoundText (V : JsonValue → List Char → Prop) (fields : List (String × JsonValue))
    (next : List (String × JsonValue) ⊕ JsonValue) (text : List Char) : Prop :=
  ∃ key value head first second, KeyText key head ∧ V value first ∧
    text = head ++ (first ++ second) ∧
    EndText '}' (fields ++ [(key, value)]) (JsonValue.object (fields ++ [(key, value)])) next second

section Rounds

variable {n : ℕ} {parseValue : JsonParser JsonValue} {V : JsonValue → List Char → Prop}

/-- A turn of an array takes an item and what ends it. -/
theorem derives_arrayRound (h : Derives n parseValue V) (values : List JsonValue) :
    Derives n (arrayRound parseValue values) (ArrayRoundText V values) := by
  apply h.bind
  intro value first hvalue
  apply (derives_roundEnd n (show (0x5d : UInt8) < 128 by decide) _ _).mono
  exact fun next second hend => ⟨value, first, second, hvalue, rfl, hend⟩

/-- A turn of an object takes a member and what ends it. -/
theorem derives_objectRound (h : Derives n parseValue V) (fields : List (String × JsonValue)) :
    Derives n (objectRound parseValue fields) (ObjectRoundText V fields) := by
  apply (derives_skipWs n).bind
  rintro _ _ ⟨before, rfl⟩
  apply (derives_parseString n).bind
  rintro key _ ⟨body, hpair, rfl, rfl⟩
  apply (derives_skipWs n).bind
  rintro _ _ ⟨colon, rfl⟩
  apply (derives_expectByte n (by decide)).bind
  rintro _ _ rfl
  apply h.bind
  intro value first hvalue
  apply (derives_roundEnd n (show (0x7d : UInt8) < 128 by decide) _ _).mono
  intro next second hend
  refine ⟨body.value, value, _, first, second, ⟨before, body, colon, hpair, rfl, rfl⟩, hvalue, ?_,
    hend⟩
  simp only [List.append_assoc, List.cons_append, List.nil_append]
  rfl

/-- The value of a round is followed by blanks and a character that is no digit. -/
theorem EndText.stopsAt_isDigit {α β : Type} {close : Char} {state : α} {result : β} {next : α ⊕ β}
    {text : List Char} (h : EndText close state result next text) (hclose : closes close)
    (rest : List Char) : StopsAt isDigit (text ++ rest) := by
  cases next with
  | inl next =>
    obtain ⟨⟨after, rfl⟩, -⟩ := h
    rw [List.append_assoc]
    exact stopsAt_isDigit_blank after (isDigit_of_closes rfl) rest
  | inr last =>
    obtain ⟨⟨after, rfl⟩, -⟩ := h
    rw [List.append_assoc]
    exact stopsAt_isDigit_blank after (isDigit_of_closes hclose) rest

variable (h : ∀ value text, V value text → Takes parseValue text value (StopsAt isDigit))

include h

/-- An item of the grammar is one turn. -/
theorem takes_arrayRound (values : List JsonValue) (next : List JsonValue ⊕ JsonValue)
    (text : List Char) (hround : ArrayRoundText V values next text) :
    Takes (arrayRound parseValue values) text next anyRest := by
  obtain ⟨value, first, second, hvalue, rfl, hend⟩ := hround
  have hclose : (0x5d : UInt8) < 128 := by decide
  exact (h value first hvalue).bind (takes_roundEnd hclose rfl (by decide) hend)
    fun rest _ => hend.stopsAt_isDigit rfl rest

/-- A member of the grammar is one turn. -/
theorem takes_objectRound (fields : List (String × JsonValue))
    (next : List (String × JsonValue) ⊕ JsonValue) (text : List Char)
    (hround : ObjectRoundText V fields next text) :
    Takes (objectRound parseValue fields) text next anyRest := by
  obtain ⟨key, value, head, first, second, ⟨before, body, colon, hpair, rfl, rfl⟩, hvalue, rfl,
    hend⟩ := hround
  have hclose : (0x7d : UInt8) < 128 := by decide
  have htail : Takes (do
      let value ← parseValue
      roundEnd 0x7d (fields ++ [(body.value, value)])
        (JsonValue.object (fields ++ [(body.value, value)]))) (first ++ second) next anyRest :=
    (h value first hvalue).bind (takes_roundEnd hclose rfl (by decide) hend)
      fun rest _ => hend.stopsAt_isDigit rfl rest
  intro rest _
  simp only [List.append_assoc, List.cons_append, List.nil_append]
  unfold objectRound
  refine (run_bind_of_ok (takes_skipWs before _ (stopsAt_cons (by decide))) _).trans ?_
  refine (run_bind_of_ok (takes_parseString ⟨body, hpair, rfl, rfl⟩ _ trivial) _).trans ?_
  refine (run_bind_of_ok (takes_skipWs colon _ (stopsAt_cons (by decide))) _).trans ?_
  refine (run_bind_of_ok (takes_expectByte (by decide) _ trivial) _).trans ?_
  have hrest := htail rest trivial
  rw [List.append_assoc] at hrest
  exact hrest

end Rounds

end Hyf.Nostr.JsonParser
