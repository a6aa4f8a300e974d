import Mathlib.Data.Vector.Basic
import Mathlib.Data.List.Induction
import Mathlib.Algebra.Order.Ring.Nat
import Mathlib.Tactic.Ring

/-!
# Byte cursors and big-endian numbers

A binary format is written by a cursor that overwrites an output slice front to back and read by a
cursor that takes slices off an input. The two meet in `Reads`: a reader `Reads` a byte string as a
value when it consumes exactly those bytes, whatever follows them, and returns that value. `Reads`
composes along `bind`, so the round trip of a record is the list of the round trips of its fields.
-/

namespace ByteCodec

/-- Offsets are 64-bit; a cursor refuses an addition that would pass this limit. -/
def addressLimit : ℕ := 2 ^ 64

/-- `usize::checked_add`. -/
def checkedAdd (a b : ℕ) : Option ℕ := if a + b < addressLimit then some (a + b) else none

/-- `usize::checked_mul`. -/
def checkedMul (a b : ℕ) : Option ℕ := if a * b < addressLimit then some (a * b) else none

/-- A sum that fits does not overflow. -/
theorem checkedAdd_eq_some {a b : ℕ} (h : a + b < addressLimit) : checkedAdd a b = some (a + b) := by
  rw [checkedAdd, if_pos h]

/-! ## Big-endian numbers -/

/-- The low `width` bytes of `value`, most significant first. -/
def toBe : ℕ → ℕ → List UInt8
  | 0, _ => []
  | width + 1, value => toBe width (value / 256) ++ [UInt8.ofNat (value % 256)]

/-- The number a big-endian byte string spells. -/
def ofBe (bytes : List UInt8) : ℕ := bytes.foldl (fun acc byte => acc * 256 + byte.toNat) 0

/-- The big-endian bytes are as many as the width says. -/
@[simp] theorem length_toBe (width value : ℕ) : (toBe width value).length = width := by
  induction width generalizing value with
  | zero => rfl
  | succ width ih => rw [toBe, List.length_append, ih, List.length_singleton]

/-- The low bytes come last. -/
theorem drop_toBe (skipped width value : ℕ) :
    (toBe (skipped + width) value).drop skipped = toBe width value := by
  induction width generalizing value with
  | zero => exact List.drop_of_length_le (by rw [length_toBe, Nat.add_zero])
  | succ width ih =>
    rw [← Nat.add_assoc, toBe, List.drop_append_of_le_length (by rw [length_toBe]; omega), ih, toBe]

/-- The last byte counts once, all others 256 times more. -/
theorem ofBe_append_singleton (bytes : List UInt8) (byte : UInt8) :
    ofBe (bytes ++ [byte]) = ofBe bytes * 256 + byte.toNat := by
  simp [ofBe]

/-- A number that fits in `width` bytes survives the trip through them. -/
theorem ofBe_toBe {width value : ℕ} (h : value < 256 ^ width) :
    ofBe (toBe width value) = value := by
  induction width generalizing value with
  | zero =>
    rw [pow_zero, Nat.lt_one_iff] at h
    rw [h]
    rfl
  | succ width ih =>
    have hdiv : value / 256 < 256 ^ width := by
      rw [Nat.div_lt_iff_lt_mul (by norm_num)]
      rwa [pow_succ] at h
    have hbyte : (UInt8.ofNat (value % 256)).toNat = value % 256 := by
      rw [UInt8.toNat_ofNat', Nat.mod_mod]
    rw [toBe, ofBe_append_singleton, ih hdiv, hbyte]
    omega

/-- Distinct numbers have distinct spellings. -/
theorem toBe_injective {width a b : ℕ} (ha : a < 256 ^ width) (hb : b < 256 ^ width)
    (h : toBe width a = toBe width b) : a = b := by
  rw [← ofBe_toBe ha, h, ofBe_toBe hb]

/-- The number is below the bound its bytes allow. -/
theorem ofBe_lt (bytes : List UInt8) : ofBe bytes < 256 ^ bytes.length := by
  induction bytes using List.reverseRecOn with
  | nil => decide
  | append_singleton bytes byte ih =>
    have hbyte := byte.toNat_lt
    rw [ofBe_append_singleton, List.length_append, List.length_singleton, pow_succ]
    omega

/-- A byte string is the spelling of its number. -/
theorem toBe_ofBe (bytes : List UInt8) : toBe bytes.length (ofBe bytes) = bytes := by
  induction bytes using List.reverseRecOn with
  | nil => rfl
  | append_singleton bytes byte ih =>
    have hbyte := byte.toNat_lt
    have hdiv : (ofBe bytes * 256 + byte.toNat) / 256 = ofBe bytes := by omega
    have hmod : (ofBe bytes * 256 + byte.toNat) % 256 = byte.toNat := by omega
    rw [ofBe_append_singleton, List.length_append, List.length_singleton, toBe, hdiv, hmod, ih,
      UInt8.ofNat_toNat]

/-- A byte is its own spelling. -/
theorem toBe_one (byte : UInt8) : toBe 1 byte.toNat = [byte] := by
  have hlt := byte.toNat_lt
  rw [toBe, toBe, Nat.mod_eq_of_lt hlt, UInt8.ofNat_toNat]
  rfl

/-- What holds of every two nibbles holds of every byte. -/
theorem forall_byte {P : UInt8 → Prop} (h : ∀ high low : Fin 16, P (UInt8.ofNat (16 * high + low)))
    (byte : UInt8) : P byte := by
  have hhigh : byte.toNat / 16 < 16 := Nat.div_lt_of_lt_mul byte.toNat_lt
  have hlow : byte.toNat % 16 < 16 := Nat.mod_lt _ (by decide)
  have hbyte := h ⟨_, hhigh⟩ ⟨_, hlow⟩
  rwa [Nat.div_add_mod, UInt8.ofNat_toNat] at hbyte

/-! ## Writing -/

/-- A cursor over an output slice. -/
structure WriteCursor where
  output : List UInt8
  index : ℕ

namespace WriteCursor

def new (output : List UInt8) : WriteCursor := ⟨output, 0⟩

def writeArray (cursor : WriteCursor) (value : List UInt8) : WriteCursor where
  output := cursor.output.take cursor.index ++ value ++
    cursor.output.drop (cursor.index + value.length)
  index := cursor.index + value.length

def writeU8 (cursor : WriteCursor) (value : UInt8) : WriteCursor := cursor.writeArray [value]

def writeU16 (cursor : WriteCursor) (value : UInt16) : WriteCursor :=
  cursor.writeArray (toBe 2 value.toNat)

def writeU64 (cursor : WriteCursor) (value : UInt64) : WriteCursor :=
  cursor.writeArray (toBe 8 value.toNat)

/-- Two writes in a row are one write of the concatenation. -/
theorem writeArray_writeArray {cursor : WriteCursor} (h : cursor.index ≤ cursor.output.length)
    (a b : List UInt8) : (cursor.writeArray a).writeArray b = cursor.writeArray (a ++ b) := by
  have hlen : (cursor.output.take cursor.index ++ a).length = cursor.index + a.length := by
    rw [List.length_append, List.length_take]
    omega
  simp only [writeArray, WriteCursor.mk.injEq, List.length_append]
  refine ⟨?_, by omega⟩
  have hdrop : cursor.index + a.length + b.length - (cursor.index + a.length) = b.length := by
    omega
  rw [List.take_append_of_le_length hlen.ge, List.take_of_length_le hlen.le, List.drop_append,
    List.drop_of_length_le (by omega), hlen, hdrop, List.nil_append, List.drop_drop,
    ← List.append_assoc, Nat.add_assoc]

end WriteCursor

/-! ## Reading -/

/-- A cursor over an input slice. -/
structure ReadCursor where
  input : List UInt8
  index : ℕ

namespace ReadCursor

def new (input : List UInt8) : ReadCursor := ⟨input, 0⟩

def position (cursor : ReadCursor) : ℕ := cursor.index

end ReadCursor

/-- A reader: a cursor transformer that may reject its input. -/
abbrev Reader (ε : Type) := StateT ReadCursor (Except ε)

section Reader

variable {ε : Type} {α β : Type}

/-- Take `len` bytes, with the errors of the format for an offset overflow and for a short input. -/
def readSlice (overflow : ℕ → ε) (tooShort : ℕ → ℕ → ε) (len : ℕ) :
    Reader ε (List.Vector UInt8 len) := fun cursor =>
  match checkedAdd cursor.index len with
  | none => .error (overflow len)
  | some stop =>
    if h : cursor.index + len ≤ cursor.input.length then
      .ok (⟨(cursor.input.drop cursor.index).take len, by
        rw [List.length_take, List.length_drop]; omega⟩, ⟨cursor.input, stop⟩)
    else .error (tooShort cursor.input.length stop)

/-- `reader` consumes exactly `bytes`, whatever follows, and returns `a`. -/
def Reads (reader : Reader ε α) (bytes : List UInt8) (a : α) : Prop :=
  ∀ (cursor : ReadCursor) (rest : List UInt8), cursor.input.length < addressLimit →
    cursor.index ≤ cursor.input.length → cursor.input.drop cursor.index = bytes ++ rest →
    reader cursor = .ok (a, ⟨cursor.input, cursor.index + bytes.length⟩)

/-- A value without reading. -/
theorem Reads.pure (a : α) : Reads (Pure.pure a : Reader ε α) [] a := by
  intro cursor rest _ _ _
  rfl

/-- Reading one value and then another consumes both byte strings. -/
theorem Reads.bind {reader : Reader ε α} {next : α → Reader ε β} {first second : List UInt8}
    {a : α} {b : β} (hfirst : Reads reader first a) (hsecond : Reads (next a) second b) :
    Reads (reader >>= next) (first ++ second) b := by
  intro cursor rest hlimit hindex hrest
  rw [List.append_assoc] at hrest
  have hstep := hfirst cursor (second ++ rest) hlimit hindex hrest
  have hlen : cursor.input.length - cursor.index = first.length + (second ++ rest).length := by
    rw [← List.length_drop, hrest, List.length_append]
  have hnext := hsecond ⟨cursor.input, cursor.index + first.length⟩ rest hlimit (by simp; omega)
    (by rw [← List.drop_drop, hrest, List.drop_left])
  show (reader cursor >>= fun result => next result.1 result.2) = _
  rw [hstep]
  simp only [Except.bind, Bind.bind]
  rw [hnext, List.length_append]
  simp only [Nat.add_assoc]

/-- Reading a fixed number of bytes and mapping them. -/
theorem Reads.map {reader : Reader ε α} {bytes : List UInt8} {a : α} (h : Reads reader bytes a)
    (f : α → β) : Reads (reader >>= fun x => Pure.pure (f x)) bytes (f a) := by
  have hpure : Reads (Pure.pure (f a) : Reader ε β) [] (f a) := Reads.pure (f a)
  have hbind : Reads (reader >>= fun x => Pure.pure (f x)) (bytes ++ []) (f a) := h.bind hpure
  rwa [List.append_nil] at hbind

/-- A check that succeeds consumes nothing. -/
theorem Reads.check {x : Except ε α} {a : α} (h : x = .ok a) {next : α → Reader ε β}
    {bytes : List UInt8} {b : β} (hnext : Reads (next a) bytes b) :
    Reads (MonadExcept.ofExcept x >>= next) bytes b := by
  subst h
  exact (Reads.pure a).bind hnext

/-- A slice read takes exactly its bytes off the input. -/
theorem reads_readSlice (overflow : ℕ → ε) (tooShort : ℕ → ℕ → ε) {len : ℕ}
    (value : List.Vector UInt8 len) :
    Reads (readSlice overflow tooShort len) value.toList value := by
  intro cursor rest hlimit hindex hrest
  have hvalue : value.toList.length = len := value.toList_length
  have hlen : cursor.input.length - cursor.index = len + rest.length := by
    rw [← List.length_drop, hrest, List.length_append, hvalue]
  have hadd : checkedAdd cursor.index len = some (cursor.index + len) := by
    rw [checkedAdd, if_pos]
    have : cursor.index + len ≤ cursor.input.length := by omega
    omega
  simp only [readSlice, hadd]
  rw [dif_pos (by omega)]
  simp only [hrest, hvalue]
  congr 2
  apply List.Vector.toList_injective
  rw [List.Vector.toList_mk, List.take_append_of_le_length (by omega),
    List.take_of_length_le (by omega)]

end Reader

end ByteCodec
