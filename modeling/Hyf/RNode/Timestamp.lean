import Hyf.Common.Text
import Mathlib.Tactic.DeprecateTo
import Mathlib.Tactic.IntervalCases

/-!
# Timestamps of the hardware tests (`hyf_link_rnode::hil`)

The report of a hardware test is kept under a directory named after the time of the test. The time is
checked to be a UTC time of the calendar, and the name is the same text without what a file name should not
contain. The calendar is that of `Std.Time`, which knows nothing of the check. `artifactPath_spec` says
which texts pass it, and that different times have different directories.
-/

namespace Hyf

open ByteCodec

def rnodeHilManifestFileName : String := "manifest.json"

/-! ## Texts in pieces -/

/-- `str::split_once`. -/
def splitOnce (separator : Char) : List Char → Option (List Char × List Char)
  | [] => none
  | c :: text =>
    if c = separator then some ([], text)
    else (splitOnce separator text).map fun (before, after) => (c :: before, after)

/-- `str::strip_suffix`. -/
def stripSuffix (suffix : Char) (text : List Char) : Option (List Char) :=
  if text.getLast? = some suffix then some text.dropLast else none

/-- `u8::is_ascii_digit`. -/
def isAsciiDigit (byte : UInt8) : Bool := 0x30 ≤ byte && byte ≤ 0x39

/-- The loop of `parse_digits`. The fields have at most four digits, so that nothing overflows. -/
def parseDigitsFrom (value : ℕ) : List UInt8 → Option ℕ
  | [] => some value
  | byte :: bytes =>
    if isAsciiDigit byte then parseDigitsFrom (value * 10 + (byte - 0x30).toNat) bytes else none

/-- `parse_digits`. -/
def parseDigits (bytes : List UInt8) : Option ℕ := parseDigitsFrom 0 bytes

/-! ## The check -/

/-- `is_leap_year`. -/
def isLeapYear (year : ℕ) : Bool := year % 4 == 0 && (year % 100 != 0 || year % 400 == 0)

/-- The days of a month, if it is one. -/
def maxDay (year month : ℕ) : Option ℕ :=
  match month with
  | 1 | 3 | 5 | 7 | 8 | 10 | 12 => some 31
  | 4 | 6 | 9 | 11 => some 30
  | 2 => if isLeapYear year then some 29 else some 28
  | _ => none

/-- `valid_rfc3339_date`. -/
def validRfc3339Date (date : List Char) : Bool :=
  let bytes := utf8Bytes date
  if bytes.length ≠ 10 ∨ bytes[4]? ≠ some 0x2d ∨ bytes[7]? ≠ some 0x2d then false
  else
    match parseDigits (bytes.take 4), parseDigits ((bytes.drop 5).take 2),
      parseDigits ((bytes.drop 8).take 2) with
    | some year, some month, some day =>
      if year = 0 ∨ ¬(1 ≤ month ∧ month ≤ 12) then false
      else
        match maxDay year month with
        | some maxDay => 1 ≤ day && day ≤ maxDay
        | none => false
    | _, _, _ => false

/-- `valid_rfc3339_time` of what stands in front of the point and behind it. -/
def validClock (wholeTime : List Char) (fractional : Option (List Char)) : Bool :=
  let bytes := utf8Bytes wholeTime
  if bytes.length ≠ 8 ∨ bytes[2]? ≠ some 0x3a ∨ bytes[5]? ≠ some 0x3a then false
  else
    match parseDigits (bytes.take 2), parseDigits ((bytes.drop 3).take 2),
      parseDigits ((bytes.drop 6).take 2) with
    | some hour, some minute, some second =>
      hour ≤ 23 && minute ≤ 59 && second ≤ 59 &&
        fractional.all fun value => !value.isEmpty && (utf8Bytes value).all isAsciiDigit
    | _, _, _ => false

/-- `valid_rfc3339_time`. -/
def validRfc3339Time (time : List Char) : Bool :=
  match splitOnce '.' time with
  | some (wholeTime, fractional) => validClock wholeTime (some fractional)
  | none => validClock time none

/-- `is_utc_rfc3339_timestamp`. -/
def isUtcRfc3339Timestamp (value : String) : Bool :=
  match splitOnce 'T' value.toList with
  | none => false
  | some (date, timeWithZone) =>
    match stripSuffix 'Z' timeWithZone with
    | none => false
    | some time => validRfc3339Date date && validRfc3339Time time

/-! ## The name -/

/-- A character of the timestamp in the name of a directory. -/
def segmentChar (character : Char) : List Char :=
  match character with
  | ':' => []
  | '.' => ['-']
  | character => [character]

/-- `artifact_timestamp_segment`. -/
def artifactTimestampSegment (generatedAt : String) : String :=
  .ofList (generatedAt.toList.flatMap segmentChar)

/-- The errors of the path. -/
inductive RNodeHilTimestampError where
  | emptyGeneratedAt
  | invalidGeneratedAt
  deriving DecidableEq

/-- A path is the list of its components; the name that is joined is relative. -/
def hilManifestArtifactPath (root : List String) (generatedAt : String) :
    Except RNodeHilTimestampError (List String) :=
  if generatedAt.toList = [] then .error .emptyGeneratedAt
  else if !isUtcRfc3339Timestamp generatedAt then .error .invalidGeneratedAt
  else .ok (root ++ [artifactTimestampSegment generatedAt] ++ [rnodeHilManifestFileName])

/-! ## Decimal fields -/

/-- The last `width` decimal digits of a number. -/
def decimals : ℕ → ℕ → List UInt8
  | 0, _ => []
  | width + 1, value => decimals width (value / 10) ++ [UInt8.ofNat (0x30 + value % 10)]

/-- A number in a given width has as many digits. -/
@[simp] theorem length_decimals (width value : ℕ) : (decimals width value).length = width := by
  induction width generalizing value with
  | zero => rfl
  | succ width ih => rw [decimals, List.length_append, ih, List.length_singleton]

/-- The digits are the ten codes from zero on. -/
theorem isAsciiDigit_iff {byte : UInt8} : isAsciiDigit byte = true ↔ ∃ digit < 10,
    byte = UInt8.ofNat (0x30 + digit) := by
  revert byte
  apply forall_byte
  decide +kernel

/-- A digit less the code of zero is its value. -/
theorem toNat_sub_digit {digit : ℕ} (h : digit < 10) :
    (UInt8.ofNat (0x30 + digit) - 0x30).toNat = digit := by
  revert h
  revert digit
  decide

/-- The digits of a field are digits. -/
theorem isAsciiDigit_of_mem_decimals {width value : ℕ} {byte : UInt8} (h : byte ∈ decimals width value) :
    isAsciiDigit byte = true := by
  induction width generalizing value with
  | zero => cases h
  | succ width ih =>
    rw [decimals, List.mem_append, List.mem_singleton] at h
    obtain h | rfl := h
    · exact ih h
    · exact isAsciiDigit_iff.mpr ⟨value % 10, Nat.mod_lt _ (by decide), rfl⟩

/-- Digits in two parts are parsed one after the other. -/
theorem parseDigitsFrom_append (value : ℕ) (first second : List UInt8) :
    parseDigitsFrom value (first ++ second) =
      (parseDigitsFrom value first).bind fun value => parseDigitsFrom value second := by
  induction first generalizing value with
  | nil => rfl
  | cons byte first ih =>
    rw [List.cons_append, parseDigitsFrom, parseDigitsFrom]
    by_cases hbyte : isAsciiDigit byte
    · rw [if_pos hbyte, if_pos hbyte, ih]
    · rw [if_neg hbyte, if_neg hbyte]
      rfl

/-- The number of a field is read from just the digits that it is written with. -/
theorem parseDigits_eq_some_iff {bytes : List UInt8} {value : ℕ} :
    parseDigits bytes = some value ↔ value < 10 ^ bytes.length ∧ bytes = decimals bytes.length value := by
  unfold parseDigits
  induction bytes using List.reverseRecOn generalizing value with
  | nil =>
    rw [parseDigitsFrom, Option.some.injEq, List.length_nil, Nat.pow_zero, Nat.lt_one_iff]
    exact ⟨fun h => ⟨h.symm, rfl⟩, fun h => h.1.symm⟩
  | append_singleton bytes byte ih =>
    rw [parseDigitsFrom_append, List.length_append, List.length_singleton, decimals, Nat.pow_succ]
    constructor
    · intro h
      obtain ⟨front, hfront, hlast⟩ := Option.bind_eq_some_iff.mp h
      rw [parseDigitsFrom] at hlast
      by_cases hbyte : isAsciiDigit byte
      · obtain ⟨digit, hdigit, rfl⟩ := isAsciiDigit_iff.mp hbyte
        rw [if_pos hbyte, parseDigitsFrom, Option.some.injEq, toNat_sub_digit hdigit] at hlast
        obtain ⟨hlt, hbytes⟩ := ih.mp hfront
        have hdiv : value / 10 = front := by omega
        have hmod : value % 10 = digit := by omega
        rw [hdiv, hmod, ← hbytes]
        exact ⟨by omega, rfl⟩
      · rw [if_neg hbyte] at hlast
        cases hlast
    · rintro ⟨hlt, hbytes⟩
      obtain ⟨hfront, hlast⟩ := List.append_inj' hbytes rfl
      rw [List.cons.injEq] at hlast
      have hdigit : value % 10 < 10 := Nat.mod_lt _ (by decide)
      have hparse := ih.mpr ⟨(by omega : value / 10 < 10 ^ bytes.length), hfront⟩
      rw [hparse, Option.bind_some, parseDigitsFrom, hlast.1,
        if_pos (isAsciiDigit_iff.mpr ⟨_, hdigit, rfl⟩),
        toNat_sub_digit hdigit, parseDigitsFrom, Option.some.injEq]
      omega

/-- Numbers that fit a width are told apart by their digits. -/
theorem decimals_injective {width first second : ℕ} (hfirst : first < 10 ^ width)
    (hsecond : second < 10 ^ width) (h : decimals width first = decimals width second) : first = second := by
  have hread {value : ℕ} (hvalue : value < 10 ^ width) : parseDigits (decimals width value) = some value := by
    rw [parseDigits_eq_some_iff, length_decimals]
    exact ⟨hvalue, rfl⟩
  have hvalues := hread hfirst
  rwa [h, hread hsecond, Option.some.injEq, eq_comm] at hvalues

/-! ## Pieces of a text -/

/-- A text is split at its first separator. -/
theorem splitOnce_eq_some_iff {separator : Char} {text before after : List Char} :
    splitOnce separator text = some (before, after) ↔
      text = before ++ separator :: after ∧ separator ∉ before := by
  induction text generalizing before with
  | nil => simp [splitOnce]
  | cons c text ih =>
    rw [splitOnce]
    by_cases hc : c = separator
    · subst hc
      rw [if_pos rfl]
      cases before with
      | nil => simp [eq_comm]
      | cons first before =>
        simp only [Option.some.injEq, Prod.mk.injEq, List.cons_append, List.cons.injEq]
        constructor
        · exact fun h => (nomatch h.1)
        · rintro ⟨⟨rfl, -⟩, hmem⟩
          exact absurd List.mem_cons_self hmem
    · rw [if_neg hc]
      cases before with
      | nil => simp [hc]
      | cons first before =>
        simp only [Option.map_eq_some_iff, Prod.exists, Prod.mk.injEq, List.cons.injEq,
          List.cons_append, List.mem_cons, not_or]
        constructor
        · rintro ⟨front, rest, hsplit, ⟨rfl, rfl⟩, rfl⟩
          obtain ⟨htext, hmem⟩ := ih.mp hsplit
          exact ⟨⟨rfl, htext⟩, Ne.symm hc, hmem⟩
        · rintro ⟨⟨rfl, htext⟩, -, hmem⟩
          exact ⟨before, after, ih.mpr ⟨htext, hmem⟩, ⟨rfl, rfl⟩, rfl⟩

/-- A text without the separator is not split. -/
theorem splitOnce_eq_none_iff {separator : Char} {text : List Char} :
    splitOnce separator text = none ↔ separator ∉ text := by
  induction text with
  | nil => simp [splitOnce]
  | cons c text ih =>
    rw [splitOnce, List.mem_cons, not_or]
    by_cases hc : c = separator
    · rw [if_pos hc]
      exact ⟨fun h => (nomatch h), fun h => absurd hc.symm h.1⟩
    · rw [if_neg hc, Option.map_eq_none_iff, ih]
      exact ⟨fun h => ⟨Ne.symm hc, h⟩, And.right⟩

/-- A suffix is stripped where it stands at the end. -/
theorem stripSuffix_eq_some_iff {suffix : Char} {text rest : List Char} :
    stripSuffix suffix text = some rest ↔ text = rest ++ [suffix] := by
  unfold stripSuffix
  by_cases h : text.getLast? = some suffix
  · obtain ⟨front, rfl⟩ := List.getLast?_eq_some_iff.mp h
    rw [if_pos h, List.dropLast_concat, Option.some.injEq, List.append_left_inj]
  · rw [if_neg h]
    constructor
    · exact fun hnone => (nomatch hnone)
    · rintro rfl
      exact absurd List.getLast?_concat h

/-! ## The times of the calendar -/

/-- The digits of a fraction of a second, if there is one. -/
def IsFraction (fraction : Option (List UInt8)) : Prop :=
  ∀ digits ∈ fraction, digits ≠ [] ∧ ∀ byte ∈ digits, isAsciiDigit byte = true

/-- A time in UTC on a date of the calendar, in the years that four digits can write other than `0000`,
with the digits of a fraction of a second if it has one. There is no leap second. -/
@[ext]
structure UtcTimestamp where
  date : Std.Time.PlainDate
  hour : ℕ
  minute : ℕ
  second : ℕ
  fraction : Option (List UInt8)
  year_mem : 1 ≤ date.year.toInt ∧ date.year.toInt ≤ 9999
  hour_le : hour ≤ 23
  minute_le : minute ≤ 59
  second_le : second ≤ 59
  fraction_digits : IsFraction fraction

namespace UtcTimestamp

/-- The year of the date. -/
def year (time : UtcTimestamp) : ℕ := time.date.year.toInt.toNat

/-- The month of the date, from one on. -/
def month (time : UtcTimestamp) : ℕ := time.date.month.val.toNat

/-- The day of the month, from one on. -/
def day (time : UtcTimestamp) : ℕ := time.date.day.val.toNat

end UtcTimestamp

/-! ### The calendar of the check -/

/-- Only the months 1 to 12 have days, and at most 31. -/
theorem maxDay_le {year month last : ℕ} (h : maxDay year month = some last) :
    1 ≤ month ∧ month ≤ 12 ∧ last ≤ 31 := by
  unfold maxDay at h
  split at h
  all_goals first
    | (split_ifs at h <;> cases h <;> decide)
    | (cases h <;> decide)

/-- The leap years of the check are those of the calendar. -/
theorem isLeap_ofNat (year : ℕ) : (Std.Time.Year.Offset.ofNat year).isLeap = isLeapYear year := by
  have htmod (n : ℕ) : (year : ℤ).tmod n = (year % n : ℕ) := (Int.ofNat_tmod year n).symm
  have hyear : (Std.Time.Year.Offset.ofNat year).toInt = (year : ℤ) := rfl
  rw [Std.Time.Year.Offset.isLeap, isLeapYear, hyear, Bool.eq_iff_iff]
  have hfour := htmod 4
  have hhundred := htmod 100
  have hfourHundred := htmod 400
  norm_cast at hfour hhundred hfourHundred
  simp [hfour, hhundred, hfourHundred]
  omega

/-- The lengths of the months are those of the calendar. -/
theorem maxDay_eq (year : ℕ) (month : Std.Time.Month.Ordinal) :
    maxDay year month.val.toNat = some (month.days (isLeapYear year)).val.toNat := by
  obtain ⟨value, hlow, hhigh⟩ := month
  cases hleap : isLeapYear year <;> interval_cases value <;> simp [maxDay, hleap] <;> rfl

/-- **The days that the check accepts** are the dates of the calendar. -/
theorem exists_plainDate_iff {year month day : ℕ} :
    (∃ last, maxDay year month = some last ∧ 1 ≤ day ∧ day ≤ last) ↔
      ∃ date : Std.Time.PlainDate,
        date.year.toInt = year ∧ date.month.val = month ∧ date.day.val = day := by
  constructor
  · rintro ⟨last, hlast, hday, hday'⟩
    obtain ⟨hmonth, hmonth', hlast'⟩ := maxDay_le hlast
    have hlength := maxDay_eq year ⟨(month : ℤ), by omega, by omega⟩
    rw [show ((month : ℤ)).toNat = month from rfl, hlast, Option.some.injEq] at hlength
    refine ⟨⟨.ofNat year, ⟨(month : ℤ), by omega, by omega⟩, ⟨(day : ℤ), by omega, by omega⟩, ?_⟩,
      rfl, rfl, rfl⟩
    show (day : ℤ) ≤ (Std.Time.Month.Ordinal.days (Std.Time.Year.Offset.ofNat year).isLeap _).val
    rw [isLeap_ofNat]
    omega
  · rintro ⟨⟨yearOffset, monthOrdinal, dayOrdinal, hvalid⟩, hyear, hmonth, hday⟩
    obtain rfl : yearOffset = .ofNat year := hyear
    have hlength := maxDay_eq year monthOrdinal
    rw [show monthOrdinal.val = month from hmonth, show ((month : ℤ)).toNat = month from rfl] at hlength
    refine ⟨_, hlength, ?_, ?_⟩
    · have hlow : 1 ≤ dayOrdinal.val := dayOrdinal.property.1
      rw [show dayOrdinal.val = day from hday] at hlow
      omega
    · have hle : dayOrdinal.val ≤
          (monthOrdinal.days (Std.Time.Year.Offset.ofNat year).isLeap).val := hvalid
      rw [isLeap_ofNat, show dayOrdinal.val = day from hday] at hle
      omega

/-- The fields of a time pass the check of the date. -/
theorem UtcTimestamp.day_mem (time : UtcTimestamp) :
    ∃ last, maxDay time.year time.month = some last ∧ 1 ≤ time.day ∧ time.day ≤ last := by
  have hyear := time.year_mem.1
  have hmonth : 1 ≤ time.date.month.val := time.date.month.property.1
  have hday : 1 ≤ time.date.day.val := time.date.day.property.1
  refine exists_plainDate_iff.mpr ⟨time.date, ?_, ?_, ?_⟩
  · exact (Int.toNat_of_nonneg (by omega)).symm
  · exact (Int.toNat_of_nonneg (by omega)).symm
  · exact (Int.toNat_of_nonneg (by omega)).symm

/-- The year has four digits and is not zero. -/
theorem UtcTimestamp.year_mem_nat (time : UtcTimestamp) : 1 ≤ time.year ∧ time.year ≤ 9999 := by
  have hyear := time.year_mem
  rw [year]
  omega

/-- A date as RFC 3339 writes it. -/
def dateBytes (year month day : ℕ) : List UInt8 :=
  decimals 4 year ++ [0x2d] ++ decimals 2 month ++ [0x2d] ++ decimals 2 day

/-- A time of day as RFC 3339 writes it. -/
def clockBytes (hour minute second : ℕ) : List UInt8 :=
  decimals 2 hour ++ [0x3a] ++ decimals 2 minute ++ [0x3a] ++ decimals 2 second

/-- A fraction behind its separator. -/
def fractionBytes (separator : UInt8) : Option (List UInt8) → List UInt8
  | some digits => separator :: digits
  | none => []

/-- The text of a time. -/
def UtcTimestamp.bytes (time : UtcTimestamp) : List UInt8 :=
  dateBytes time.year time.month time.day ++ [0x54] ++ clockBytes time.hour time.minute time.second ++
    fractionBytes 0x2e time.fraction ++ [0x5a]

/-- Ten bytes with hyphens behind the fourth and the seventh. -/
theorem date_pieces {bytes : List UInt8} (hlength : bytes.length = 10) (hfirst : bytes[4]? = some 0x2d)
    (hsecond : bytes[7]? = some 0x2d) :
    bytes = bytes.take 4 ++ [0x2d] ++ (bytes.drop 5).take 2 ++ [0x2d] ++ (bytes.drop 8).take 2 := by
  match bytes, hlength with
  | [_, _, _, _, _, _, _, _, _, _], _ =>
    cases hfirst
    cases hsecond
    rfl

/-- Eight bytes with their colons in place are three fields of two. -/
theorem clock_pieces {bytes : List UInt8} (hlength : bytes.length = 8) (hfirst : bytes[2]? = some 0x3a)
    (hsecond : bytes[5]? = some 0x3a) :
    bytes = bytes.take 2 ++ [0x3a] ++ (bytes.drop 3).take 2 ++ [0x3a] ++ (bytes.drop 6).take 2 := by
  match bytes, hlength with
  | [_, _, _, _, _, _, _, _], _ =>
    cases hfirst
    cases hsecond
    rfl

/-- A field of some width is read as its digits. -/
theorem parseDigits_width {bytes : List UInt8} {width value : ℕ} (hwidth : bytes.length = width) :
    parseDigits bytes = some value ↔ value < 10 ^ width ∧ bytes = decimals width value := by
  rw [parseDigits_eq_some_iff, hwidth]

/-- The pieces of a date of these three fields. -/
theorem pieces_date {year month day : List UInt8} (hyear : year.length = 4) (hmonth : month.length = 2)
    (hday : day.length = 2) {bytes : List UInt8}
    (h : bytes = year ++ [0x2d] ++ month ++ [0x2d] ++ day) :
    ¬(bytes.length ≠ 10 ∨ bytes[4]? ≠ some 0x2d ∨ bytes[7]? ≠ some 0x2d) ∧ bytes.take 4 = year ∧
      (bytes.drop 5).take 2 = month ∧ (bytes.drop 8).take 2 = day := by
  subst h
  match year, month, day, hyear, hmonth, hday with
  | [_, _, _, _], [_, _], [_, _], _, _, _ => simp

/-- Three fields of two bytes, written with colons, are found again. -/
theorem pieces_clock {hour minute second : List UInt8} (hhour : hour.length = 2)
    (hminute : minute.length = 2) (hsecond : second.length = 2) {bytes : List UInt8}
    (h : bytes = hour ++ [0x3a] ++ minute ++ [0x3a] ++ second) :
    ¬(bytes.length ≠ 8 ∨ bytes[2]? ≠ some 0x3a ∨ bytes[5]? ≠ some 0x3a) ∧ bytes.take 2 = hour ∧
      (bytes.drop 3).take 2 = minute ∧ (bytes.drop 6).take 2 = second := by
  subst h
  match hour, minute, second, hhour, hminute, hsecond with
  | [_, _], [_, _], [_, _], _, _, _ => simp

/-- The digits of a number are parsed to it. -/
theorem parseDigits_decimals {width value : ℕ} (h : value < 10 ^ width) :
    parseDigits (decimals width value) = some value := by
  rw [parseDigits_eq_some_iff, length_decimals]
  exact ⟨h, rfl⟩

/-- A field within the bytes has two of them. -/
theorem length_field {bytes : List UInt8} {start : ℕ} (h : start + 2 ≤ bytes.length) :
    ((bytes.drop start).take 2).length = 2 := by
  rw [List.length_take, List.length_drop]
  omega

/-- The check accepts the dates that exist, as they are written. -/
theorem validRfc3339Date_iff (date : List Char) :
    validRfc3339Date date = true ↔ ∃ year month day last, 1 ≤ year ∧ year ≤ 9999 ∧
      maxDay year month = some last ∧ 1 ≤ day ∧ day ≤ last ∧ utf8Bytes date = dateBytes year month day := by
  unfold validRfc3339Date
  generalize utf8Bytes date = bytes
  constructor
  · intro h
    by_cases hshape : bytes.length ≠ 10 ∨ bytes[4]? ≠ some 0x2d ∨ bytes[7]? ≠ some 0x2d
    · rw [if_pos hshape] at h
      cases h
    · rw [if_neg hshape] at h
      simp only [ne_eq, not_or, not_not] at hshape
      obtain ⟨hlength, hfirst, hsecond⟩ := hshape
      split at h
      · rename_i year month day hyear hmonth hday
        have hfour : (bytes.take 4).length = 4 := by
          rw [List.length_take]
          omega
        obtain ⟨hyear, hyearBytes⟩ := (parseDigits_width hfour).mp hyear
        obtain ⟨-, hmonthBytes⟩ := (parseDigits_width (length_field (by omega))).mp hmonth
        obtain ⟨-, hdayBytes⟩ := (parseDigits_width (length_field (by omega))).mp hday
        split_ifs at h with hrange
        split at h
        · rename_i last hlast
          rw [Bool.and_eq_true, decide_eq_true_eq, decide_eq_true_eq] at h
          refine ⟨year, month, day, last, by omega, by omega, hlast, h.1, h.2, ?_⟩
          rw [date_pieces hlength hfirst hsecond, hyearBytes, hmonthBytes, hdayBytes]
          rfl
        · cases h
      · cases h
  · rintro ⟨year, month, day, last, hyear, hyear', hlast, hday, hday', hbytes⟩
    obtain ⟨hmonth, hmonth', hlast'⟩ := maxDay_le hlast
    obtain ⟨hshape, hyearBytes, hmonthBytes, hdayBytes⟩ :=
      pieces_date (length_decimals 4 year) (length_decimals 2 month) (length_decimals 2 day) hbytes
    have hrange : ¬(year = 0 ∨ ¬(1 ≤ month ∧ month ≤ 12)) := by omega
    simp only [if_neg hshape, hyearBytes, hmonthBytes, hdayBytes,
      parseDigits_decimals (by omega : year < 10 ^ 4), parseDigits_decimals (by omega : month < 10 ^ 2),
      parseDigits_decimals (by omega : day < 10 ^ 2), if_neg hrange, hlast]
    simp [hday, hday']

/-- The check of the clock accepts the times of a day as they are written, and digits behind the
point. -/
theorem validClock_iff (wholeTime : List Char) (fractional : Option (List Char)) :
    validClock wholeTime fractional = true ↔ (∃ hour minute second, hour ≤ 23 ∧ minute ≤ 59 ∧
      second ≤ 59 ∧ utf8Bytes wholeTime = clockBytes hour minute second) ∧
      ∀ value ∈ fractional, value ≠ [] ∧ ∀ byte ∈ utf8Bytes value, isAsciiDigit byte = true := by
  have hfraction : (fractional.all fun value => !value.isEmpty && (utf8Bytes value).all isAsciiDigit) =
      true ↔ ∀ value ∈ fractional, value ≠ [] ∧ ∀ byte ∈ utf8Bytes value, isAsciiDigit byte = true := by
    cases fractional <;> simp
  unfold validClock
  generalize utf8Bytes wholeTime = bytes
  constructor
  · intro h
    by_cases hshape : bytes.length ≠ 8 ∨ bytes[2]? ≠ some 0x3a ∨ bytes[5]? ≠ some 0x3a
    · rw [if_pos hshape] at h
      cases h
    · rw [if_neg hshape] at h
      simp only [ne_eq, not_or, not_not] at hshape
      obtain ⟨hlength, hfirst, hsecond⟩ := hshape
      split at h
      · rename_i hour minute second hhour hminute hsec
        have htwo : (bytes.take 2).length = 2 := by
          rw [List.length_take]
          omega
        obtain ⟨-, hhourBytes⟩ := (parseDigits_width htwo).mp hhour
        obtain ⟨-, hminuteBytes⟩ := (parseDigits_width (length_field (by omega))).mp hminute
        obtain ⟨-, hsecondBytes⟩ := (parseDigits_width (length_field (by omega))).mp hsec
        simp only [Bool.and_eq_true, decide_eq_true_eq] at h
        obtain ⟨⟨⟨hhour, hminute⟩, hsec⟩, hall⟩ := h
        refine ⟨⟨hour, minute, second, hhour, hminute, hsec, ?_⟩, hfraction.mp hall⟩
        rw [clock_pieces hlength hfirst hsecond, hhourBytes, hminuteBytes, hsecondBytes]
        rfl
      · cases h
  · rintro ⟨⟨hour, minute, second, hhour, hminute, hsecond, hbytes⟩, hall⟩
    obtain ⟨hshape, hhourBytes, hminuteBytes, hsecondBytes⟩ :=
      pieces_clock (length_decimals 2 hour) (length_decimals 2 minute) (length_decimals 2 second) hbytes
    simp only [if_neg hshape, hhourBytes, hminuteBytes, hsecondBytes,
      parseDigits_decimals (by omega : hour < 10 ^ 2), parseDigits_decimals (by omega : minute < 10 ^ 2),
      parseDigits_decimals (by omega : second < 10 ^ 2)]
    simp [hhour, hminute, hsecond, hfraction.mpr hall]

/-! ## Digits and separators -/

/-- Only digits and the bytes `separators`. -/
def Plain (separators bytes : List UInt8) : Prop :=
  ∀ byte ∈ bytes, isAsciiDigit byte = true ∨ byte ∈ separators

namespace Plain

variable {separators first second : List UInt8}

/-- Digits and separators, one behind the other. -/
theorem append (hfirst : Plain separators first) (hsecond : Plain separators second) :
    Plain separators (first ++ second) := by
  intro byte hbyte
  exact (List.mem_append.mp hbyte).elim (hfirst byte) (hsecond byte)

/-- The digits of a number are digits. -/
theorem decimals (separators : List UInt8) (width value : ℕ) : Plain separators (decimals width value) :=
  fun _ hbyte => .inl (isAsciiDigit_of_mem_decimals hbyte)

/-- A separator is one. -/
theorem separator {byte : UInt8} (h : byte ∈ separators) : Plain separators [byte] := by
  intro byte' hbyte
  rw [List.mem_singleton] at hbyte
  exact .inr (hbyte ▸ h)

/-- More separators may be allowed. -/
theorem mono {bytes wider : List UInt8} (h : Plain separators bytes) (hsub : separators ⊆ wider) :
    Plain wider bytes :=
  fun byte hbyte => (h byte hbyte).imp_right fun hmem => hsub hmem

/-- What is neither a digit nor a separator does not occur. -/
theorem not_mem {bytes : List UInt8} (h : Plain separators bytes) {byte : UInt8}
    (hdigit : isAsciiDigit byte = false) (hbyte : byte ∉ separators) : byte ∉ bytes := by
  intro hmem
  obtain hdigit' | hmem := h byte hmem
  · rw [hdigit] at hdigit'
    cases hdigit'
  · exact hbyte hmem

/-- Digits, and separators below 128, are all below 128. -/
theorem lt {bytes : List UInt8} (h : Plain separators bytes)
    (hbelow : (separators.all fun byte => decide (byte < 128)) = true) :
    ∀ byte ∈ bytes, byte < 128 := by
  intro byte hbyte
  obtain hdigit | hmem := h byte hbyte
  · obtain ⟨digit, hlt, rfl⟩ := isAsciiDigit_iff.mp hdigit
    clear hdigit hbyte
    revert hlt
    revert digit
    decide
  · exact of_decide_eq_true (List.all_eq_true.mp hbelow byte hmem)

end Plain

/-- A date has digits and hyphens. -/
theorem plain_dateBytes (year month day : ℕ) : Plain [0x2d] (dateBytes year month day) := by
  have hhyphen : Plain [0x2d] [0x2d] := .separator (List.mem_singleton_self _)
  exact ((((Plain.decimals _ 4 year).append hhyphen).append (.decimals _ 2 month)).append hhyphen).append
    (Plain.decimals _ 2 day)

/-- A clock has digits and colons. -/
theorem plain_clockBytes (hour minute second : ℕ) :
    Plain [0x3a] (clockBytes hour minute second) := by
  have hcolon : Plain [0x3a] [0x3a] := .separator (List.mem_singleton_self _)
  exact ((((Plain.decimals _ 2 hour).append hcolon).append (.decimals _ 2 minute)).append hcolon).append
    (Plain.decimals _ 2 second)

/-- A fraction has its separator and digits. -/
theorem plain_fractionBytes {separator : UInt8} {fraction : Option (List UInt8)}
    (h : IsFraction fraction) : Plain [separator] (fractionBytes separator fraction) := by
  cases fraction with
  | none => exact fun byte hbyte => (nomatch hbyte)
  | some digits =>
    intro byte hbyte
    rw [fractionBytes, List.mem_cons] at hbyte
    exact hbyte.elim (fun heq => .inr (List.mem_singleton.mpr heq))
      fun hbyte => .inl ((h digits rfl).2 byte hbyte)

/-- A timestamp has digits and its five separators. -/
theorem UtcTimestamp.plain_bytes (time : UtcTimestamp) :
    Plain [0x2d, 0x3a, 0x54, 0x2e, 0x5a] time.bytes :=
  (((((plain_dateBytes _ _ _).mono (by decide)).append (.separator (by decide))).append
    ((plain_clockBytes _ _ _).mono (by decide))).append
      ((plain_fractionBytes time.fraction_digits).mono (by decide))).append (.separator (by decide))

/-! ## The texts of times -/

/-- The characters of bytes below 128. -/
def asciiChars (bytes : List UInt8) : List Char := bytes.map fun byte => Char.ofNat byte.toNat

/-- Characters byte by byte, in two parts. -/
theorem asciiChars_append (first second : List UInt8) :
    asciiChars (first ++ second) = asciiChars first ++ asciiChars second := List.map_append

/-- A character below 128 stands for its byte. -/
theorem ofNat_toNat_injective {first second : UInt8} (hfirst : first < 128) (hsecond : second < 128)
    (h : Char.ofNat first.toNat = Char.ofNat second.toNat) : first = second := by
  have hbytes := congrArg String.utf8EncodeChar h
  rwa [utf8EncodeChar_ofNat first hfirst, utf8EncodeChar_ofNat second hsecond, List.cons.injEq,
    and_iff_left rfl] at hbytes

/-- A byte that does not occur is no character. -/
theorem not_mem_asciiChars {bytes : List UInt8} (h : ∀ byte ∈ bytes, byte < 128) {byte : UInt8}
    (hlt : byte < 128) (hbyte : byte ∉ bytes) : Char.ofNat byte.toNat ∉ asciiChars bytes := by
  intro hmem
  obtain ⟨byte', hbyte', heq⟩ := List.mem_map.mp hmem
  exact hbyte (ofNat_toNat_injective (h byte' hbyte') hlt heq ▸ hbyte')

/-- The characters of a text are those of its bytes, where these are below 128. -/
theorem utf8Bytes_eq_iff {text : List Char} {bytes : List UInt8} (h : ∀ byte ∈ bytes, byte < 128) :
    utf8Bytes text = bytes ↔ text = asciiChars bytes := by
  have hbytes : utf8Bytes (asciiChars bytes) = bytes := utf8Bytes_map_ofNat h
  constructor
  · intro htext
    apply utf8Bytes_injective
    rw [htext, hbytes]
  · rintro rfl
    exact hbytes

/-- A text with characters has bytes. -/
theorem ne_nil_of_utf8Bytes {text : List Char} (h : text ≠ []) : utf8Bytes text ≠ [] :=
  fun hnil => h (utf8Bytes_injective hnil)

/-- The check accepts the times of a day, with a fraction or without. -/
theorem validRfc3339Time_iff (time : List Char) :
    validRfc3339Time time = true ↔ ∃ hour minute second fraction, hour ≤ 23 ∧ minute ≤ 59 ∧ second ≤ 59 ∧
      IsFraction fraction ∧
      utf8Bytes time = clockBytes hour minute second ++ fractionBytes 0x2e fraction := by
  unfold validRfc3339Time
  constructor
  · intro h
    cases hsplit : splitOnce '.' time with
    | none =>
      rw [hsplit] at h
      obtain ⟨⟨hour, minute, second, hhour, hminute, hsecond, hbytes⟩, -⟩ := (validClock_iff _ _).mp h
      refine ⟨hour, minute, second, none, hhour, hminute, hsecond, by simp [IsFraction], ?_⟩
      rw [hbytes, fractionBytes, List.append_nil]
    | some pieces =>
      obtain ⟨wholeTime, fractional⟩ := pieces
      rw [hsplit] at h
      obtain ⟨⟨hour, minute, second, hhour, hminute, hsecond, hbytes⟩, hfraction⟩ :=
        (validClock_iff _ _).mp h
      obtain ⟨hne, hdigits⟩ := hfraction fractional rfl
      refine ⟨hour, minute, second, some (utf8Bytes fractional), hhour, hminute, hsecond, ?_, ?_⟩
      · intro digits hmem
        cases hmem
        exact ⟨ne_nil_of_utf8Bytes hne, hdigits⟩
      · rw [(splitOnce_eq_some_iff.mp hsplit).1, utf8Bytes_append, utf8Bytes_cons, hbytes]
        rfl
  · rintro ⟨hour, minute, second, fraction, hhour, hminute, hsecond, hfraction, hbytes⟩
    have hplain := plain_clockBytes hour minute second
    have hclock : ∀ byte ∈ clockBytes hour minute second, byte < 128 := hplain.lt rfl
    have hpoint : '.' ∉ asciiChars (clockBytes hour minute second) :=
      not_mem_asciiChars hclock (by decide : (0x2e : UInt8) < 128) (hplain.not_mem rfl (by decide))
    have hwhole : utf8Bytes (asciiChars (clockBytes hour minute second)) = clockBytes hour minute second :=
      utf8Bytes_map_ofNat hclock
    cases fraction with
    | none =>
      rw [fractionBytes, List.append_nil, utf8Bytes_eq_iff hclock] at hbytes
      subst hbytes
      rw [splitOnce_eq_none_iff.mpr hpoint]
      exact (validClock_iff _ _).mpr
        ⟨⟨hour, minute, second, hhour, hminute, hsecond, hwhole⟩, by simp⟩
    | some digits =>
      obtain ⟨hne, hdigits⟩ := hfraction digits rfl
      have hplainDigits : Plain [] digits := fun byte hbyte => .inl (hdigits byte hbyte)
      have hbelow : ∀ byte ∈ digits, byte < 128 := hplainDigits.lt rfl
      have hall : ∀ byte ∈ clockBytes hour minute second ++ fractionBytes 0x2e (some digits),
          byte < 128 := by
        rw [fractionBytes, List.forall_mem_append, List.forall_mem_cons]
        exact ⟨hclock, by decide, hbelow⟩
      rw [utf8Bytes_eq_iff hall, asciiChars_append] at hbytes
      have hsplit : splitOnce '.' time =
          some (asciiChars (clockBytes hour minute second), asciiChars digits) :=
        splitOnce_eq_some_iff.mpr ⟨hbytes, hpoint⟩
      rw [hsplit]
      refine (validClock_iff _ _).mpr ⟨⟨hour, minute, second, hhour, hminute, hsecond, hwhole⟩, ?_⟩
      intro value hvalue
      cases hvalue
      rw [asciiChars, utf8Bytes_map_ofNat hbelow]
      exact ⟨by simpa using hne, hdigits⟩

/-- A timestamp is its date, a `T`, its time with the fraction, and a `Z`. -/
theorem UtcTimestamp.bytes_eq (time : UtcTimestamp) :
    time.bytes = dateBytes time.year time.month time.day ++ 0x54 ::
      ((clockBytes time.hour time.minute time.second ++ fractionBytes 0x2e time.fraction) ++ [0x5a]) := by
  simp [bytes]

/-- **The check** accepts just the texts of times of the calendar. -/
theorem isUtcRfc3339Timestamp_iff (value : String) :
    isUtcRfc3339Timestamp value = true ↔ ∃ time : UtcTimestamp, asBytes value = time.bytes := by
  unfold isUtcRfc3339Timestamp
  constructor
  · intro h
    cases hsplit : splitOnce 'T' value.toList with
    | none =>
      rw [hsplit] at h
      cases h
    | some pieces =>
      obtain ⟨date, timeWithZone⟩ := pieces
      cases hstrip : stripSuffix 'Z' timeWithZone with
      | none =>
        simp only [hsplit, hstrip] at h
        cases h
      | some clock =>
        simp only [hsplit, hstrip, Bool.and_eq_true] at h
        obtain ⟨hdate, hclock⟩ := h
        obtain ⟨year, month, day, last, hyear, hyear', hlast, hday, hday', hdateBytes⟩ :=
          (validRfc3339Date_iff date).mp hdate
        obtain ⟨hour, minute, second, fraction, hhour, hminute, hsecond, hfraction, hclockBytes⟩ :=
          (validRfc3339Time_iff clock).mp hclock
        obtain ⟨onCalendar, hyearEq, hmonthEq, hdayEq⟩ :=
          exists_plainDate_iff.mp ⟨last, hlast, hday, hday'⟩
        have hfields : dateBytes onCalendar.year.toInt.toNat onCalendar.month.val.toNat
            onCalendar.day.val.toNat = dateBytes year month day := by
          rw [hyearEq, hmonthEq, hdayEq]
          rfl
        refine ⟨⟨onCalendar, hour, minute, second, fraction, by omega, hhour, hminute, hsecond,
          hfraction⟩, ?_⟩
        rw [UtcTimestamp.bytes_eq]
        show _ = dateBytes onCalendar.year.toInt.toNat onCalendar.month.val.toNat
          onCalendar.day.val.toNat ++ _
        rw [hfields, asBytes_eq, (splitOnce_eq_some_iff.mp hsplit).1,
          stripSuffix_eq_some_iff.mp hstrip, utf8Bytes_append, utf8Bytes_cons, utf8Bytes_append,
          hdateBytes, hclockBytes]
        rfl
  · rintro ⟨time, hvalue⟩
    have hdate := plain_dateBytes time.year time.month time.day
    have hdateBelow := hdate.lt rfl
    have hbelow := time.plain_bytes.lt rfl
    have hclockBelow : ∀ byte ∈ clockBytes time.hour time.minute time.second ++
        fractionBytes 0x2e time.fraction, byte < 128 := by
      rw [UtcTimestamp.bytes_eq, List.forall_mem_append, List.forall_mem_cons,
        List.forall_mem_append] at hbelow
      exact hbelow.2.2.1
    have htext : value.toList = asciiChars (dateBytes time.year time.month time.day) ++ 'T' ::
        (asciiChars (clockBytes time.hour time.minute time.second ++
          fractionBytes 0x2e time.fraction) ++ ['Z']) := by
      rw [asBytes_eq, utf8Bytes_eq_iff hbelow, UtcTimestamp.bytes_eq, asciiChars_append] at hvalue
      rw [hvalue]
      exact congrArg (fun rest => asciiChars (dateBytes _ _ _) ++ 'T' :: rest) (asciiChars_append _ [0x5a])
    have hzone : 'T' ∉ asciiChars (dateBytes time.year time.month time.day) :=
      not_mem_asciiChars hdateBelow (by decide : (0x54 : UInt8) < 128) (hdate.not_mem rfl (by decide))
    rw [splitOnce_eq_some_iff.mpr ⟨htext, hzone⟩]
    simp only [stripSuffix_eq_some_iff.mpr rfl, Bool.and_eq_true]
    obtain ⟨last, hlast, hday, hday'⟩ := time.day_mem
    exact ⟨(validRfc3339Date_iff _).mpr ⟨time.year, time.month, time.day, last, time.year_mem_nat.1,
        time.year_mem_nat.2, hlast, hday, hday', utf8Bytes_map_ofNat hdateBelow⟩,
      (validRfc3339Time_iff _).mpr ⟨time.hour, time.minute, time.second, time.fraction, time.hour_le,
        time.minute_le, time.second_le, time.fraction_digits, utf8Bytes_map_ofNat hclockBelow⟩⟩

/-! ## The names of times -/

/-- The name of a time. -/
def UtcTimestamp.segment (time : UtcTimestamp) : List UInt8 :=
  dateBytes time.year time.month time.day ++ [0x54] ++
    (decimals 2 time.hour ++ decimals 2 time.minute ++ decimals 2 time.second) ++
    fractionBytes 0x2d time.fraction ++ [0x5a]

/-- The segment has digits, hyphens and the two letters. -/
theorem UtcTimestamp.plain_segment (time : UtcTimestamp) :
    Plain [0x2d, 0x54, 0x5a] time.segment :=
  (((((plain_dateBytes _ _ _).mono (by decide)).append (.separator (by decide))).append
    (((Plain.decimals _ 2 _).append (.decimals _ 2 _)).append (.decimals _ 2 _))).append
      ((plain_fractionBytes time.fraction_digits).mono (by decide))).append (.separator (by decide))

/-- What a character below 128 becomes in the name. -/
def segmentByte (byte : UInt8) : List UInt8 :=
  if byte = 0x3a then [] else if byte = 0x2e then [0x2d] else [byte]

/-- A character below 128 is replaced like its byte. -/
theorem segmentChar_ofNat (byte : UInt8) : byte < 128 →
    segmentChar (Char.ofNat byte.toNat) = asciiChars (segmentByte byte) := by
  revert byte
  apply forall_byte
  decide

/-- A text below 128 is replaced byte by byte. -/
theorem flatMap_segmentChar {bytes : List UInt8} (h : ∀ byte ∈ bytes, byte < 128) :
    (asciiChars bytes).flatMap segmentChar = asciiChars (bytes.flatMap segmentByte) := by
  induction bytes with
  | nil => rfl
  | cons byte bytes ih =>
    rw [List.forall_mem_cons] at h
    rw [List.flatMap_cons, asciiChars_append, ← ih h.2, ← segmentChar_ofNat byte h.1]
    rfl

/-- Digits and hyphens stay as they are. -/
theorem flatMap_segmentByte {bytes : List UInt8} (h : Plain [0x2d] bytes) :
    bytes.flatMap segmentByte = bytes := by
  have hcolon : (0x3a : UInt8) ∉ bytes := h.not_mem rfl (by decide)
  have hpoint : (0x2e : UInt8) ∉ bytes := h.not_mem rfl (by decide)
  clear h
  induction bytes with
  | nil => rfl
  | cons byte bytes ih =>
    rw [List.mem_cons, not_or] at hcolon hpoint
    rw [List.flatMap_cons, ih hcolon.2 hpoint.2, segmentByte, if_neg (Ne.symm hcolon.1),
      if_neg (Ne.symm hpoint.1), List.singleton_append]

/-- The bytes of a timestamp, replaced, are its segment. -/
theorem UtcTimestamp.bytes_segment (time : UtcTimestamp) :
    time.bytes.flatMap segmentByte = time.segment := by
  have hfraction : (fractionBytes 0x2e time.fraction).flatMap segmentByte =
      fractionBytes 0x2d time.fraction := by
    cases h : time.fraction with
    | none => rfl
    | some digits =>
      have hdigits : Plain [0x2d] digits :=
        fun byte hbyte => .inl ((time.fraction_digits digits h).2 byte hbyte)
      rw [fractionBytes, fractionBytes, List.flatMap_cons, flatMap_segmentByte hdigits]
      rfl
  have hcolon : [(0x3a : UInt8)].flatMap segmentByte = [] := rfl
  have hzone : [(0x54 : UInt8)].flatMap segmentByte = [0x54] := rfl
  have hend : [(0x5a : UInt8)].flatMap segmentByte = [0x5a] := rfl
  rw [bytes, clockBytes]
  simp only [List.flatMap_append, flatMap_segmentByte (plain_dateBytes _ _ _),
    flatMap_segmentByte (Plain.decimals [0x2d] 2 _), hfraction, hcolon, hzone, hend, List.append_nil]
  rfl

/-- The segment of a text is the one of its timestamp. -/
theorem artifactTimestampSegment_eq {generatedAt : String} {time : UtcTimestamp}
    (h : asBytes generatedAt = time.bytes) :
    asBytes (artifactTimestampSegment generatedAt) = time.segment := by
  have hbelow := time.plain_bytes.lt rfl
  rw [asBytes_eq, utf8Bytes_eq_iff hbelow] at h
  rw [artifactTimestampSegment, asBytes_ofList, h, flatMap_segmentChar hbelow, time.bytes_segment]
  exact utf8Bytes_map_ofNat (time.plain_segment.lt rfl)

/-- Fractions are told apart by what is written. -/
theorem fractionBytes_injective {separator : UInt8} {first second : Option (List UInt8)}
    (h : fractionBytes separator first = fractionBytes separator second) : first = second := by
  cases first <;> cases second <;> simp_all [fractionBytes]

/-- A field in front is cut off in one way. -/
theorem decimals_append_inj {width first second : ℕ} {rest rest' : List UInt8} (hfirst : first < 10 ^ width)
    (hsecond : second < 10 ^ width) (h : decimals width first ++ rest = decimals width second ++ rest') :
    first = second ∧ rest = rest' := by
  obtain ⟨hfield, hrest⟩ := List.append_inj h (by rw [length_decimals, length_decimals])
  exact ⟨decimals_injective hfirst hsecond hfield, hrest⟩

/-- The fields of the date determine it. -/
theorem UtcTimestamp.date_eq {first second : UtcTimestamp} (hyears : first.year = second.year)
    (hmonths : first.month = second.month) (hdays : first.day = second.day) :
    first.date = second.date := by
  have hyear := first.year_mem.1
  have hyear' := second.year_mem.1
  have hmonth : 1 ≤ first.date.month.val := first.date.month.property.1
  have hmonth' : 1 ≤ second.date.month.val := second.date.month.property.1
  have hday : 1 ≤ first.date.day.val := first.date.day.property.1
  have hday' : 1 ≤ second.date.day.val := second.date.day.property.1
  rw [year, year] at hyears
  rw [month, month] at hmonths
  rw [day, day] at hdays
  apply Std.Time.PlainDate.ext
  · show first.date.year.toInt = second.date.year.toInt
    omega
  · apply Subtype.ext
    show first.date.month.val = second.date.month.val
    omega
  · apply Subtype.ext
    show first.date.day.val = second.date.day.val
    omega

/-- Two times with one name are the same. -/
theorem UtcTimestamp.segment_injective {first second : UtcTimestamp}
    (h : first.segment = second.segment) : first = second := by
  obtain ⟨hlow, hyear⟩ := first.year_mem_nat
  obtain ⟨hlow', hyear'⟩ := second.year_mem_nat
  obtain ⟨last, hlast, hlowDay, hday⟩ := first.day_mem
  obtain ⟨last', hlast', hlowDay', hday'⟩ := second.day_mem
  have hmonth := maxDay_le hlast
  have hmonth' := maxDay_le hlast'
  have hhour := first.hour_le
  have hhour' := second.hour_le
  have hminute := first.minute_le
  have hminute' := second.minute_le
  have hsecond := first.second_le
  have hsecond' := second.second_le
  simp only [segment, dateBytes, List.append_assoc] at h
  obtain ⟨hyears, h⟩ := decimals_append_inj (by omega) (by omega) h
  rw [List.append_cancel_left_eq] at h
  obtain ⟨hmonths, h⟩ := decimals_append_inj (by omega) (by omega) h
  rw [List.append_cancel_left_eq] at h
  obtain ⟨hdays, h⟩ := decimals_append_inj (by omega) (by omega) h
  rw [List.append_cancel_left_eq] at h
  obtain ⟨hhours, h⟩ := decimals_append_inj (by omega) (by omega) h
  obtain ⟨hminutes, h⟩ := decimals_append_inj (by omega) (by omega) h
  obtain ⟨hseconds, h⟩ := decimals_append_inj (by omega) (by omega) h
  rw [List.append_cancel_right_eq] at h
  have hfractions := fractionBytes_injective h
  exact UtcTimestamp.ext (date_eq hyears hmonths hdays) hhours hminutes hseconds hfractions

/-- There is a path exactly for a timestamp, and it has the segment and the file name behind the
root. -/
theorem hilManifestArtifactPath_eq_ok_iff {root path : List String} {generatedAt : String} :
    hilManifestArtifactPath root generatedAt = .ok path ↔
      (∃ time : UtcTimestamp, asBytes generatedAt = time.bytes) ∧
      path = root ++ [artifactTimestampSegment generatedAt, rnodeHilManifestFileName] := by
  unfold hilManifestArtifactPath
  by_cases hempty : generatedAt.toList = []
  · have hnone : ¬∃ time : UtcTimestamp, asBytes generatedAt = time.bytes := by
      rintro ⟨time, htime⟩
      rw [asBytes_eq, hempty, UtcTimestamp.bytes_eq] at htime
      exact absurd htime.symm (by simp [utf8Bytes])
    simp [hempty, hnone]
  · rw [if_neg hempty, ← isUtcRfc3339Timestamp_iff]
    cases isUtcRfc3339Timestamp generatedAt with
    | false => simp
    | true =>
      rw [if_neg (by decide), Except.ok.injEq, List.append_assoc, and_iff_right rfl, eq_comm]
      rfl

/-- **Paths of the reports.** A path is made just for the texts of times of the calendar, of the years 0001
to 9999, with the letters `T` and `Z` and no leap second; it consists of the root, a name of digits, hyphens,
`T` and `Z`, and the file name; and no two texts have the same path. -/
theorem artifactPath_spec (root : List String) :
    (∀ generatedAt, (∃ path, hilManifestArtifactPath root generatedAt = .ok path) ↔
      ∃ time : UtcTimestamp, asBytes generatedAt = time.bytes) ∧
    (∀ generatedAt path, hilManifestArtifactPath root generatedAt = .ok path →
      ∃ name, path = root ++ [name, rnodeHilManifestFileName] ∧ asBytes name ≠ [] ∧
        Plain [0x2d, 0x54, 0x5a] (asBytes name)) ∧
    ∀ first second path, hilManifestArtifactPath root first = .ok path →
      hilManifestArtifactPath root second = .ok path → first = second := by
  simp only [hilManifestArtifactPath_eq_ok_iff]
  refine ⟨fun generatedAt => ?_, ?_, ?_⟩
  · exact ⟨fun ⟨_, htime, _⟩ => htime, fun htime => ⟨_, htime, rfl⟩⟩
  · rintro generatedAt path ⟨⟨time, htime⟩, rfl⟩
    refine ⟨_, rfl, ?_, ?_⟩
    · rw [artifactTimestampSegment_eq htime, UtcTimestamp.segment]
      exact List.append_ne_nil_of_right_ne_nil _ (by simp)
    · rw [artifactTimestampSegment_eq htime]
      exact time.plain_segment
  · rintro first second path ⟨⟨time, htime⟩, hpath⟩ ⟨⟨time', htime'⟩, hpath'⟩
    rw [hpath, List.append_cancel_left_eq, List.cons.injEq] at hpath'
    have hsegment := congrArg asBytes hpath'.1
    rw [artifactTimestampSegment_eq htime, artifactTimestampSegment_eq htime'] at hsegment
    have hbytes : asBytes first = asBytes second := by
      rw [htime, htime', UtcTimestamp.segment_injective hsegment]
    have htexts := congrArg fromUtf8 hbytes
    rwa [fromUtf8_asBytes, fromUtf8_asBytes, Option.some.injEq] at htexts

/-- A leap day has a path, and a leap second has none. -/
example : hilManifestArtifactPath ["target"] "2024-02-29T23:59:59.5Z" =
      .ok ["target", "2024-02-29T235959-5Z", "manifest.json"] ∧
    hilManifestArtifactPath ["target"] "2016-12-31T23:59:60Z" = .error .invalidGeneratedAt := by
  decide +kernel

end Hyf
