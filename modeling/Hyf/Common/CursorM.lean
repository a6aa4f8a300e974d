import Hyf.Common.ByteCodec

/-!
# Cursor programs that can panic

In the source a slice with bad bounds, an index past the end and an unchecked addition that
overflows all panic. Here a call ends in an `Outcome`: a value, an error that it reports, or a panic,
and the primitives below panic exactly where the source does. That a decoder is free of panics is
then something to prove.

A decoder is a program over a `Cursor`. Two properties describe it from both sides: `CursorM.Reads`
says which byte string it takes and what it makes of it, and `CursorM.Yields` says that it never
panics and that whatever it returns is related to the bytes it took. Both compose along `bind`, so
that a format is verified field by field. `WriterM.Writes` is the counterpart for encoders.
-/

namespace ByteCodec

/-- How a call fails: with an error that it reports, or with a panic. -/
inductive Fault (ε : Type) where
  | error (error : ε)
  | panic
  deriving DecidableEq

/-- Conversion of the reported error, as `?` does it. -/
def Fault.map {ε δ : Type} (convert : ε → δ) : Fault ε → Fault δ
  | error e => error (convert e)
  | panic => panic

/-- The end of a call: a value, a reported error or a panic. -/
abbrev Outcome (ε α : Type) := Except (Fault ε) α

section Outcome

variable {ε δ α β : Type}

/-- `return Err(error)`. -/
def fail (error : ε) : Outcome ε α := .error (.error error)

/-- `if bad { return Err(error) }`. -/
def rejectIf (bad : Prop) [Decidable bad] (error : ε) : Outcome ε Unit :=
  if bad then fail error else .ok ()

/-- The `?` operator on a call whose error is converted. -/
def Outcome.convert (convert : ε → δ) : Outcome ε α → Outcome δ α := Except.mapError (Fault.map convert)

/-- The `?` operator on a call that cannot panic. -/
def ofResult (convert : ε → δ) : Except ε α → Outcome δ α
  | .ok a => .ok a
  | .error error => fail (convert error)

/-- Lift a call that does not touch the state. -/
def Outcome.lift {σ : Type} (outcome : Outcome ε α) : EStateM (Fault ε) σ α := fun state =>
  match outcome with
  | .ok a => .ok a state
  | .error fault => .error fault state

/-- Reading the state goes on with it. -/
theorem run_get_bind {σ : Type} (next : σ → EStateM ε σ α) (state : σ) :
    (get >>= next) state = next state state := rfl

/-- After a program that returned, the next one runs in the state that it left. -/
theorem run_bind_of_ok {σ : Type} {program : EStateM ε σ α} {state state' : σ} {a : α}
    (h : program state = .ok a state') (next : α → EStateM ε σ β) :
    (program >>= next) state = next a state' := by
  show EStateM.bind program next state = _
  rw [EStateM.bind, h]

/-- After a program that failed, nothing runs. -/
theorem run_bind_of_error {σ : Type} {program : EStateM ε σ α} {state state' : σ} {error : ε}
    (h : program state = .error error state') (next : α → EStateM ε σ β) :
    (program >>= next) state = .error error state' := by
  show EStateM.bind program next state = _
  rw [EStateM.bind, h]

/-- Two programs that returned, one after the other. -/
theorem exists_of_run_bind_eq_ok {σ : Type} {program : EStateM ε σ α} {next : α → EStateM ε σ β}
    {state state' : σ} {b : β} (h : (program >>= next) state = .ok b state') :
    ∃ a middle, program state = .ok a middle ∧ next a middle = .ok b state' := by
  cases hrun : program state with
  | ok a middle =>
    rw [run_bind_of_ok hrun] at h
    exact ⟨a, middle, rfl, h⟩
  | error error middle =>
    rw [run_bind_of_error hrun] at h
    cases h

/-- A computation on the side that returned. -/
theorem Outcome.eq_of_lift_eq_ok {σ : Type} {outcome : Outcome ε α} {state state' : σ} {a : α}
    (h : outcome.lift state = .ok a state') : outcome = .ok a ∧ state' = state := by
  cases outcome with
  | error fault => cases h
  | ok b =>
    cases h
    exact ⟨rfl, rfl⟩

/-- `a + b` on `usize`. -/
def addUsize (a b : ℕ) : Outcome ε ℕ := if a + b < addressLimit then .ok (a + b) else .error .panic

/-- `a - b` on `usize`. -/
def subUsize (a b : ℕ) : Outcome ε ℕ := if b ≤ a then .ok (a - b) else .error .panic

/-- `&bytes[start..stop]`. -/
def slice (bytes : List UInt8) (start stop : ℕ) : Outcome ε (List UInt8) :=
  if start ≤ stop ∧ stop ≤ bytes.length then .ok ((bytes.drop start).take (stop - start))
  else .error .panic

/-- `bytes[index]`. -/
def byteAt (bytes : List UInt8) (index : ℕ) : Outcome ε UInt8 :=
  match bytes[index]? with
  | some byte => .ok byte
  | none => .error .panic

/-- `copy_from_slice` into a new array `[0; n]`. -/
def toArray (n : ℕ) (bytes : List UInt8) : Outcome ε (List.Vector UInt8 n) :=
  if h : bytes.length = n then .ok ⟨bytes, h⟩ else .error .panic

/-- The call does not panic, and a value it returns satisfies `P`. -/
def Ends (outcome : Outcome ε α) (P : α → Prop) : Prop :=
  match outcome with
  | .ok a => P a
  | .error (.error _) => True
  | .error .panic => False

/-- A sequence ends with what the second part ensures on the values of the first. -/
theorem Ends.bind {outcome : Outcome ε α} {next : α → Outcome ε β} {P : α → Prop} {Q : β → Prop}
    (h : Ends outcome P) (hnext : ∀ a, P a → Ends (next a) Q) : Ends (outcome >>= next) Q := by
  match outcome, h with
  | .ok a, h => exact hnext a h
  | .error (.error _), _ => exact trivial

/-- A postcondition may be weakened. -/
theorem Ends.mono {outcome : Outcome ε α} {P Q : α → Prop} (h : Ends outcome P)
    (hPQ : ∀ a, P a → Q a) : Ends outcome Q := by
  match outcome, h with
  | .ok a, h => exact hPQ a h
  | .error (.error _), _ => exact trivial

/-- Converting the errors keeps what is ensured of the value. -/
theorem Ends.convert {outcome : Outcome ε α} {P : α → Prop} (h : Ends outcome P)
    (f : ε → δ) : Ends (outcome.convert f) P := by
  match outcome, h with
  | .ok a, h => exact h
  | .error (.error _), _ => exact trivial

/-- A value that is returned has what is ensured. -/
theorem Ends.of_ok {outcome : Outcome ε α} {P : α → Prop} {a : α} (h : Ends outcome P)
    (hok : outcome = .ok a) : P a := by
  subst hok
  exact h

/-- The value is known to be the one that is returned. -/
theorem Ends.with_eq {outcome : Outcome ε α} {P : α → Prop} (h : Ends outcome P) :
    Ends outcome fun a => P a ∧ outcome = .ok a := by
  match outcome, h with
  | .ok a, h => exact ⟨h, rfl⟩
  | .error (.error _), _ => exact trivial

/-- A call that succeeds hands its value on. -/
theorem Outcome.bind_eq {outcome : Outcome ε α} {a : α} (h : outcome = .ok a)
    (next : α → Outcome ε β) : (outcome >>= next) = next a := by
  subst h
  rfl

/-- A value is the same with its errors converted. -/
theorem Outcome.convert_eq {outcome : Outcome ε α} {a : α} (h : outcome = .ok a) (f : ε → δ) :
    outcome.convert f = .ok a := by
  subst h
  rfl

/-- A lifted value goes on without a step of the state. -/
theorem Outcome.lift_bind {outcome : Outcome ε α} {a : α} (h : outcome = .ok a) {σ : Type}
    (next : α → EStateM (Fault ε) σ β) : (outcome.lift >>= next) = next a := by
  subst h
  rfl

/-- A call that fails in front leaves the state alone. -/
theorem Outcome.run_lift_bind_fail {outcome : Outcome ε α} {error : ε} (h : outcome = fail error)
    {σ : Type} (next : α → EStateM (Fault ε) σ β) (state : σ) :
    (outcome.lift >>= next) state = .error (.error error) state := by
  subst h
  rfl

/-- What ends does not panic. -/
theorem Ends.ne_panic {outcome : Outcome ε α} {P : α → Prop} (h : Ends outcome P) :
    outcome ≠ .error .panic := by
  rintro rfl
  exact h

/-- Behind the check the condition does not hold. -/
theorem ends_rejectIf (bad : Prop) [Decidable bad] (error : ε) :
    Ends (rejectIf bad error) fun _ => ¬bad := by
  unfold rejectIf
  split_ifs with h
  · exact trivial
  · exact h

/-- The errors that the call reports satisfy `E`. -/
def Reports (outcome : Outcome ε α) (E : ε → Prop) : Prop :=
  ∀ error, outcome = .error (.error error) → E error

/-- A sequence reports the errors of its two parts. -/
theorem Reports.bind {outcome : Outcome ε α} {next : α → Outcome ε β} {E : ε → Prop}
    (h : Reports outcome E) (hnext : ∀ a, outcome = .ok a → Reports (next a) E) :
    Reports (outcome >>= next) E := by
  intro error herror
  cases houtcome : outcome with
  | ok a =>
    rw [houtcome] at herror
    exact hnext a houtcome error herror
  | error fault =>
    rw [houtcome] at herror
    cases herror
    exact h error houtcome

/-- Converted errors are what the errors are converted to. -/
theorem Reports.convert {outcome : Outcome ε α} {f : ε → δ} {E : ε → Prop} {D : δ → Prop}
    (h : Reports outcome E) (hED : ∀ error, E error → D (f error)) :
    Reports (outcome.convert f) D := by
  intro error herror
  match outcome, h with
  | .error (.error error'), h =>
    cases herror
    exact hED error' (h error' rfl)

/-- A check reports its error only. -/
theorem reports_rejectIf {bad : Prop} [Decidable bad] {error : ε} {E : ε → Prop} (h : E error) :
    Reports (rejectIf bad error) E := by
  intro error' herror
  unfold rejectIf at herror
  split_ifs at herror
  cases herror
  exact h

/-- A value reports no error. -/
theorem reports_ok (a : α) (E : ε → Prop) : Reports (.ok a : Outcome ε α) E :=
  fun _ herror => by cases herror

/-- What returns a value reports no error. -/
theorem reports_of_ok {outcome : Outcome ε α} {a : α} (h : outcome = .ok a) (E : ε → Prop) :
    Reports outcome E := by
  subst h
  exact reports_ok a E

/-- A failure reports its error. -/
theorem reports_fail {error : ε} {E : ε → Prop} (h : E error) : Reports (fail error : Outcome ε α) E := by
  intro error' herror
  cases herror
  exact h

/-- The check lets pass what is not bad. -/
theorem rejectIf_eq_ok {bad : Prop} [Decidable bad] {error : ε} (h : ¬bad) :
    rejectIf bad error = .ok () := by
  rw [rejectIf, if_neg h]

/-- The check fails on what is bad. -/
theorem rejectIf_eq_fail {bad : Prop} [Decidable bad] {error : ε} (h : bad) :
    rejectIf bad error = fail error := by
  rw [rejectIf, if_pos h]

/-- The check passes exactly when the condition does not hold. -/
theorem rejectIf_eq_ok_iff {bad : Prop} [Decidable bad] {error : ε} :
    rejectIf bad error = .ok () ↔ ¬bad := by
  constructor
  · intro h hbad
    rw [rejectIf_eq_fail hbad] at h
    cases h
  · exact rejectIf_eq_ok

/-- A loop of checks that each pass. -/
theorem forM_eq_ok {check : α → Outcome ε Unit} {list : List α} (h : ∀ a ∈ list, check a = .ok ()) :
    list.forM check = .ok () := by
  induction list with
  | nil => rfl
  | cons a list ih =>
    rw [List.forall_mem_cons] at h
    change (check a >>= fun _ => list.forM check) = _
    rw [h.1]
    exact ih h.2

/-- A loop of checks has made each of them. -/
theorem eq_ok_of_forM {check : α → Outcome ε Unit} {list : List α}
    (h : list.forM check = .ok ()) : ∀ a ∈ list, check a = .ok () := by
  induction list with
  | nil => simp
  | cons a list ih =>
    change (check a >>= fun _ => list.forM check) = _ at h
    cases hcheck : check a with
    | error fault =>
      rw [hcheck] at h
      cases h
    | ok _ =>
      rw [hcheck] at h
      rw [List.forall_mem_cons]
      exact ⟨hcheck, ih h⟩

/-- A value of the other crate is kept. -/
theorem ofResult_eq_ok {x : Except ε α} {a : α} (h : x = .ok a) (convert : ε → δ) :
    ofResult convert x = .ok a := by
  subst h
  rfl

/-- An error of the other crate is converted. -/
theorem ofResult_eq_fail {x : Except ε α} {error : ε} (h : x = .error error) (convert : ε → δ) :
    ofResult convert x = fail (convert error) := by
  subst h
  rfl

/-- A result of the other crate never panics here, and a value is the one it has. -/
theorem ends_ofResult (convert : ε → δ) (x : Except ε α) :
    Ends (ofResult convert x) fun a => x = .ok a := by
  cases x with
  | ok a => exact rfl
  | error error => exact trivial

/-- A difference that is not negative does not underflow. -/
theorem subUsize_eq_ok {a b : ℕ} (h : b ≤ a) : (subUsize a b : Outcome ε ℕ) = .ok (a - b) := if_pos h

/-- The part between two known ones. -/
theorem slice_append {before part after : List UInt8} {start stop : ℕ} (hstart : before.length = start)
    (hstop : start + part.length = stop) :
    (slice (before ++ part ++ after) start stop : Outcome ε (List UInt8)) = .ok part := by
  subst hstart
  subst hstop
  rw [slice, if_pos (by simp), List.append_assoc, List.drop_left, Nat.add_sub_cancel_left,
    List.take_left]

/-- The byte behind a front of known length. -/
theorem byteAt_append {before after : List UInt8} {byte : UInt8} {index : ℕ}
    (h : before.length = index) :
    (byteAt (before ++ byte :: after) index : Outcome ε UInt8) = .ok byte := by
  rw [byteAt, List.getElem?_append_right h.le, h, Nat.sub_self]
  rfl

/-- An index within the bytes does not panic. -/
theorem byteAt_eq_ok {bytes : List UInt8} {index : ℕ} (h : index < bytes.length) :
    (byteAt bytes index : Outcome ε UInt8) = .ok bytes[index] := by
  rw [byteAt, List.getElem?_eq_getElem h]

/-- Bounds in order and within the bytes give the part between them. -/
theorem slice_eq_ok {bytes : List UInt8} {start stop : ℕ} (hstart : start ≤ stop)
    (hstop : stop ≤ bytes.length) :
    (slice bytes start stop : Outcome ε (List UInt8)) = .ok ((bytes.drop start).take (stop - start)) := by
  rw [slice, if_pos ⟨hstart, hstop⟩]

/-- The front of a concatenation. -/
theorem slice_left {part after : List UInt8} {stop : ℕ} (h : part.length = stop) :
    (slice (part ++ after) 0 stop : Outcome ε (List UInt8)) = .ok part := by
  rw [slice_eq_ok (Nat.zero_le _) (by rw [List.length_append]; omega), List.drop_zero, Nat.sub_zero,
    List.take_left' h]

/-- A slice from the start. -/
theorem slice_take {bytes : List UInt8} {stop : ℕ} (h : stop ≤ bytes.length) :
    (slice bytes 0 stop : Outcome ε (List UInt8)) = .ok (bytes.take stop) := by
  rw [slice_eq_ok (Nat.zero_le _) h, List.drop_zero, Nat.sub_zero]

/-- A slice to the end. -/
theorem slice_drop {bytes : List UInt8} {start : ℕ} (h : start ≤ bytes.length) :
    (slice bytes start bytes.length : Outcome ε (List UInt8)) = .ok (bytes.drop start) := by
  rw [slice_eq_ok h le_rfl, List.take_of_length_le (by rw [List.length_drop])]

/-- Bytes of the right number make an array. -/
theorem toArray_eq_ok {n : ℕ} {bytes : List UInt8} (h : bytes.length = n) :
    (toArray n bytes : Outcome ε (List.Vector UInt8 n)) = .ok ⟨bytes, h⟩ := by
  rw [toArray, dif_pos h]

/-- The bytes of an array make it again. -/
theorem toArray_toList {n : ℕ} (array : List.Vector UInt8 n) :
    (toArray n array.toList : Outcome ε (List.Vector UInt8 n)) = .ok array :=
  toArray_eq_ok array.toList_length

/-- A slice within bounds is the part between them. -/
theorem ends_slice {bytes : List UInt8} {start stop : ℕ} (hstart : start ≤ stop)
    (hstop : stop ≤ bytes.length) :
    Ends (slice bytes start stop : Outcome ε (List UInt8))
      fun part => part = (bytes.drop start).take (stop - start) := by
  rw [slice, if_pos ⟨hstart, hstop⟩]
  exact rfl

end Outcome

/-! ## Reading -/

/-- A cursor over an input slice. `ticks` is not in the source: a program may count its calls
there, and nothing reads the count. -/
structure Cursor where
  input : List UInt8
  index : ℕ
  ticks : ℕ

/-- A decoder: a program over a cursor, which keeps its position also where it fails. -/
abbrev CursorM (ε : Type) := EStateM (Fault ε) Cursor

namespace CursorM

variable {ε α β : Type}

/-- Lift a call that does not touch the cursor. -/
def raise (outcome : Outcome ε α) : CursorM ε α := fun cursor =>
  match outcome with
  | .ok a => .ok a cursor
  | .error fault => .error fault cursor

/-- Run a decoder on an input from its start. -/
def runOn (reader : CursorM ε α) (input : List UInt8) : Outcome ε α :=
  match reader ⟨input, 0, 0⟩ with
  | .ok a _ => .ok a
  | .error fault _ => .error fault

/-- `read_slice`: take the next `len` bytes. The formats differ in the errors they report for an
offset that overflows and for an input that is too short. -/
def takeSlice (overflow tooShort : Cursor → ℕ → ε) (len : ℕ) : CursorM ε (List UInt8) := fun cursor =>
  match checkedAdd cursor.index len with
  | none => .error (.error (overflow cursor len)) cursor
  | some stop =>
    if stop > cursor.input.length then .error (.error (tooShort cursor len)) cursor
    else match (slice cursor.input cursor.index stop : Outcome ε (List UInt8)) with
      | .ok bytes => .ok bytes { cursor with index := stop }
      | .error fault => .error fault cursor

/-- The bytes that a reader takes, `&input[start..index]` around it. -/
def rawBytes (reader : CursorM ε Unit) : CursorM ε (List UInt8) := do
  let start := (← get).index
  reader
  let cursor ← get
  raise (slice cursor.input start cursor.index)

/-- Count one call. -/
def tick : CursorM ε Unit := modify fun cursor => { cursor with ticks := cursor.ticks + 1 }

/-- `finish`: nothing may follow. -/
def finish (trailing : Cursor → ε) : CursorM ε Unit := do
  let cursor ← get
  raise (rejectIf (cursor.index ≠ cursor.input.length) (trailing cursor))

section

variable (take : ℕ → CursorM ε (List UInt8))

/-- `read_array` over the source's way to take a slice. -/
def readArray (n : ℕ) : CursorM ε (List.Vector UInt8 n) := do
  let bytes ← take n
  raise (toArray n bytes)

/-- `read_u8`. -/
def readU8 : CursorM ε UInt8 := do
  let bytes ← take 1
  raise (byteAt bytes 0)

/-- `read_u16`, big-endian. -/
def readU16 : CursorM ε UInt16 := do
  let bytes ← readArray take 2
  return UInt16.ofNat (ofBe bytes.toList)

/-- `read_u32`, big-endian. -/
def readU32 : CursorM ε UInt32 := do
  let bytes ← readArray take 4
  return UInt32.ofNat (ofBe bytes.toList)

/-- `read_u64`, big-endian. -/
def readU64 : CursorM ε UInt64 := do
  let bytes ← readArray take 8
  return UInt64.ofNat (ofBe bytes.toList)

end

/-! ### What a decoder takes -/

/-- `cursor'` is `cursor` after `bytes`, which stand at its position. -/
structure Took (cursor cursor' : Cursor) (bytes : List UInt8) : Prop where
  input_eq : cursor'.input = cursor.input
  index_eq : cursor'.index = cursor.index + bytes.length
  bytes_prefix : bytes <+: cursor.input.drop cursor.index

/-- The index stays within the input. -/
theorem Took.index_le {cursor cursor' : Cursor} {bytes : List UInt8} (h : Took cursor cursor' bytes)
    (hindex : cursor.index ≤ cursor.input.length) : cursor'.index ≤ cursor'.input.length := by
  have hlen := h.bytes_prefix.length_le
  rw [List.length_drop] at hlen
  rw [h.input_eq, h.index_eq]
  omega

/-- Taking nothing. -/
theorem Took.refl (cursor : Cursor) : Took cursor cursor [] where
  input_eq := rfl
  index_eq := rfl
  bytes_prefix := List.nil_prefix

/-- What follows a byte string is read from the position after it. -/
theorem drop_add_length {input bytes rest : List UInt8} {index : ℕ}
    (h : input.drop index = bytes ++ rest) : input.drop (index + bytes.length) = rest := by
  rw [← List.drop_drop, h, List.drop_left]

/-- Bytes taken one after the other are taken together. -/
theorem Took.trans {first second third : Cursor} {a b : List UInt8} (h : Took first second a)
    (h' : Took second third b) : Took first third (a ++ b) where
  input_eq := h'.input_eq.trans h.input_eq
  index_eq := by rw [h'.index_eq, h.index_eq, List.length_append, Nat.add_assoc]
  bytes_prefix := by
    obtain ⟨rest, hrest⟩ := h.bytes_prefix
    have hsecond := h'.bytes_prefix
    rw [h.input_eq, h.index_eq, drop_add_length hrest.symm] at hsecond
    rw [← hrest]
    exact (List.prefix_append_right_inj a).mpr hsecond

/-- `reader` takes exactly `bytes`, whatever follows them, and returns `a`. -/
def Reads (reader : CursorM ε α) (bytes : List UInt8) (a : α) : Prop :=
  ∀ (cursor : Cursor) (rest : List UInt8), cursor.index + bytes.length < addressLimit →
    cursor.index ≤ cursor.input.length → cursor.input.drop cursor.index = bytes ++ rest →
    ∃ ticks, reader cursor = .ok a ⟨cursor.input, cursor.index + bytes.length, ticks⟩

/-- A value without reading. -/
theorem Reads.pure (a : α) : Reads (Pure.pure a : CursorM ε α) [] a := by
  intro cursor rest _ _ _
  exact ⟨cursor.ticks, rfl⟩

/-- Reading one value and then another takes both byte strings. -/
theorem Reads.bind {reader : CursorM ε α} {next : α → CursorM ε β} {first second : List UInt8}
    {a : α} {b : β} (hfirst : Reads reader first a) (hsecond : Reads (next a) second b) :
    Reads (reader >>= next) (first ++ second) b := by
  intro cursor rest hlimit hindex hrest
  rw [List.append_assoc] at hrest
  rw [List.length_append] at hlimit ⊢
  obtain ⟨ticks, hstep⟩ := hfirst cursor (second ++ rest) (by omega) hindex hrest
  have hlen : cursor.input.length - cursor.index = first.length + (second ++ rest).length := by
    rw [← List.length_drop, hrest, List.length_append]
  obtain ⟨ticks', hnext⟩ := hsecond ⟨cursor.input, cursor.index + first.length, ticks⟩ rest
    (by simp only; omega) (by simp only; omega) (drop_add_length hrest)
  refine ⟨ticks', ?_⟩
  show EStateM.bind reader next cursor = _
  rw [EStateM.bind, hstep]
  simp only
  rw [hnext, Nat.add_assoc]

/-- A call that succeeds without the cursor takes nothing. -/
theorem Reads.raise {x : Outcome ε α} {a : α} (h : x = .ok a) : Reads (raise x) [] a := by
  subst h
  exact Reads.pure a

/-- A call in front takes nothing when it succeeds without the cursor. -/
theorem Reads.check {x : Outcome ε α} {a : α} (h : x = .ok a) {next : α → CursorM ε β}
    {bytes : List UInt8} {b : β} (hnext : Reads (next a) bytes b) :
    Reads (CursorM.raise x >>= next) bytes b :=
  (Reads.raise h).bind hnext

/-- Mapping what was read. -/
theorem Reads.map {reader : CursorM ε α} {bytes : List UInt8} {a : α} (h : Reads reader bytes a)
    (f : α → β) : Reads (reader >>= fun x => Pure.pure (f x)) bytes (f a) := by
  have hpure : Reads (Pure.pure (f a) : CursorM ε β) [] (f a) := Reads.pure (f a)
  have hbind : Reads (reader >>= fun x => Pure.pure (f x)) (bytes ++ []) (f a) := h.bind hpure
  rwa [List.append_nil] at hbind

/-- `reader` never panics, and what it returns is related by `P` to the bytes it took. -/
structure Yields (reader : CursorM ε α) (P : α → List UInt8 → Prop) : Prop where
  noPanic : ∀ cursor cursor', cursor.index ≤ cursor.input.length →
    reader cursor ≠ .error .panic cursor'
  sound : ∀ cursor cursor' a, cursor.index ≤ cursor.input.length → reader cursor = .ok a cursor' →
    ∃ bytes, Took cursor cursor' bytes ∧ P a bytes

/-- What is ensured of the value and its bytes may be weakened. -/
theorem Yields.mono {reader : CursorM ε α} {P Q : α → List UInt8 → Prop} (h : Yields reader P)
    (hPQ : ∀ a bytes, P a bytes → Q a bytes) : Yields reader Q where
  noPanic := h.noPanic
  sound cursor cursor' a hindex hrun := by
    obtain ⟨bytes, htook, hP⟩ := h.sound cursor cursor' a hindex hrun
    exact ⟨bytes, htook, hPQ a bytes hP⟩

/-- A call that does not touch the cursor takes nothing. -/
theorem Yields.raise {x : Outcome ε α} {P : α → List UInt8 → Prop}
    (h : Ends x fun a => P a []) : Yields (CursorM.raise x) P where
  noPanic cursor cursor' _ hrun := by
    match x, h with
    | .ok a, _ => cases hrun
    | .error (.error _), _ => cases hrun
  sound cursor cursor' a _ hrun := by
    match x, h with
    | .ok a, h =>
      cases hrun
      exact ⟨[], Took.refl cursor, h⟩

/-- A value without reading yields itself over no bytes. -/
theorem Yields.pure {P : α → List UInt8 → Prop} {a : α} (h : P a []) :
    Yields (Pure.pure a : CursorM ε α) P :=
  Yields.raise (x := .ok a) h

/-- The bytes of the first part are known to the second. -/
theorem Yields.bind {reader : CursorM ε α} {next : α → CursorM ε β} {P : α → List UInt8 → Prop}
    {Q : β → List UInt8 → Prop} (h : Yields reader P)
    (hnext : ∀ a first, P a first → Yields (next a) fun b second => Q b (first ++ second)) :
    Yields (reader >>= next) Q where
  noPanic cursor cursor' hindex hrun := by
    change EStateM.bind reader next cursor = _ at hrun
    cases hfirst : reader cursor with
    | ok a middle =>
      obtain ⟨first, htook, hP⟩ := h.sound cursor middle a hindex hfirst
      simp only [EStateM.bind, hfirst] at hrun
      exact (hnext a first hP).noPanic middle cursor' (htook.index_le hindex) hrun
    | error fault middle =>
      simp only [EStateM.bind, hfirst, EStateM.Result.error.injEq] at hrun
      exact h.noPanic cursor middle hindex (hrun.1 ▸ hfirst)
  sound cursor cursor' b hindex hrun := by
    change EStateM.bind reader next cursor = _ at hrun
    cases hfirst : reader cursor with
    | ok a middle =>
      obtain ⟨first, htook, hP⟩ := h.sound cursor middle a hindex hfirst
      simp only [EStateM.bind, hfirst] at hrun
      -- the second part starts where the first one stopped
      obtain ⟨second, htook', hQ⟩ :=
        (hnext a first hP).sound middle cursor' b (htook.index_le hindex) hrun
      exact ⟨first ++ second, htook.trans htook', hQ⟩
    | error fault middle =>
      simp only [EStateM.bind, hfirst] at hrun
      cases hrun

/-- A check in front takes nothing and is known to have passed. -/
theorem Yields.check {x : Outcome ε α} {next : α → CursorM ε β} {P : α → Prop}
    {Q : β → List UInt8 → Prop} (h : Ends x P) (hnext : ∀ a, P a → Yields (next a) Q) :
    Yields (CursorM.raise x >>= next) Q := by
  refine Yields.bind (P := fun a bytes => P a ∧ bytes = []) (Yields.raise (h.mono ?_)) ?_
  · exact fun a ha => ⟨ha, rfl⟩
  · rintro a first ⟨ha, rfl⟩
    exact hnext a ha

/-- A case distinction of the source. -/
theorem Yields.ite {c : Prop} [Decidable c] {first second : CursorM ε α} {P : α → List UInt8 → Prop}
    (hfirst : c → Yields first P) (hsecond : ¬c → Yields second P) :
    Yields (if c then first else second) P := by
  split_ifs with h
  · exact hfirst h
  · exact hsecond h

/-! ### Raw bytes -/

/-- The slice around what was taken is what was taken. -/
theorem Took.slice_eq {cursor cursor' : Cursor} {bytes : List UInt8} (h : Took cursor cursor' bytes)
    (hindex : cursor.index ≤ cursor.input.length) :
    (slice cursor'.input cursor.index cursor'.index : Outcome ε (List UInt8)) = .ok bytes := by
  have hend := h.index_le hindex
  have hle : cursor.index ≤ cursor'.index := by
    rw [h.index_eq]
    omega
  rw [slice, if_pos ⟨hle, hend⟩, h.input_eq, h.index_eq, Nat.add_sub_cancel_left]
  exact congrArg Except.ok (List.prefix_iff_eq_take.mp h.bytes_prefix).symm

/-- The raw bytes of what a reader reads are these bytes. -/
theorem Reads.rawBytes {reader : CursorM ε Unit} {bytes : List UInt8} (h : Reads reader bytes ()) :
    Reads (rawBytes reader) bytes bytes := by
  intro cursor rest hlimit hindex hrest
  obtain ⟨ticks, hrun⟩ := h cursor rest hlimit hindex hrest
  have htook : Took cursor ⟨cursor.input, cursor.index + bytes.length, ticks⟩ bytes :=
    ⟨rfl, rfl, hrest ▸ List.prefix_append bytes rest⟩
  refine ⟨ticks, ?_⟩
  show EStateM.bind reader _ cursor = _
  rw [EStateM.bind, hrun]
  show CursorM.raise (slice cursor.input cursor.index (cursor.index + bytes.length)) _ = _
  rw [htook.slice_eq hindex]
  rfl

/-- The raw bytes are the ones that were taken, and the reader accepted them. -/
theorem Yields.rawBytes {reader : CursorM ε Unit} {P : List UInt8 → Prop}
    (h : Yields reader fun _ bytes => P bytes) :
    Yields (rawBytes reader) fun a bytes => a = bytes ∧ P bytes := by
  -- a run of the reader decides what the slice around it is
  have hok : ∀ {cursor middle : Cursor}, cursor.index ≤ cursor.input.length →
      reader cursor = .ok () middle → ∃ bytes, Took cursor middle bytes ∧ P bytes ∧
        CursorM.rawBytes reader cursor = .ok bytes middle := by
    intro cursor middle hindex hrun
    obtain ⟨bytes, htook, hP⟩ := h.sound cursor middle () hindex hrun
    refine ⟨bytes, htook, hP, ?_⟩
    show EStateM.bind reader _ cursor = _
    rw [EStateM.bind, hrun]
    show CursorM.raise (slice middle.input cursor.index middle.index) middle = _
    rw [htook.slice_eq hindex]
    rfl
  have herror : ∀ {cursor middle : Cursor} {fault : Fault ε}, reader cursor = .error fault middle →
      CursorM.rawBytes reader cursor = .error fault middle := by
    intro cursor middle fault hrun
    show EStateM.bind reader _ cursor = _
    rw [EStateM.bind, hrun]
  constructor
  · intro cursor cursor' hindex hrun
    cases hreader : reader cursor with
    | ok _ middle =>
      obtain ⟨bytes, -, -, hraw⟩ := hok hindex hreader
      rw [hraw] at hrun
      cases hrun
    | error fault middle =>
      rw [herror hreader] at hrun
      cases hrun
      exact h.noPanic cursor _ hindex hreader
  · intro cursor cursor' a hindex hrun
    cases hreader : reader cursor with
    | ok _ middle =>
      obtain ⟨bytes, htook, hP, hraw⟩ := hok hindex hreader
      rw [hraw] at hrun
      cases hrun
      exact ⟨_, htook, rfl, hP⟩
    | error fault middle =>
      rw [herror hreader] at hrun
      cases hrun

/-- Counting an item reads nothing. -/
theorem Reads.tick : Reads (tick : CursorM ε Unit) [] () := by
  intro cursor rest _ _ _
  exact ⟨cursor.ticks + 1, rfl⟩

/-- Counting an item takes no bytes. -/
theorem Yields.tick : Yields (tick : CursorM ε Unit) fun _ bytes => bytes = [] where
  noPanic cursor cursor' _ hrun := by cases hrun
  sound cursor cursor' a _ hrun := by
    cases hrun
    exact ⟨[], ⟨rfl, rfl, List.nil_prefix⟩, rfl⟩

/-! ### Slices and numbers -/

/-- A way to take slices, whatever errors it reports. -/
structure TakesSlices (take : ℕ → CursorM ε (List UInt8)) : Prop where
  reads : ∀ bytes, Reads (take bytes.length) bytes bytes
  yields : ∀ len, Yields (take len) fun a bytes => a = bytes ∧ bytes.length = len

/-- The checked slice takes the bytes asked for, or fails and takes none. -/
theorem takesSlices_takeSlice (overflow tooShort : Cursor → ℕ → ε) :
    TakesSlices (takeSlice overflow tooShort) where
  reads bytes := by
    intro cursor rest hlimit hindex hrest
    have hlen : cursor.input.length - cursor.index = bytes.length + rest.length := by
      rw [← List.length_drop, hrest, List.length_append]
    refine ⟨cursor.ticks, ?_⟩
    have hslice : (slice cursor.input cursor.index (cursor.index + bytes.length) :
        Outcome ε (List UInt8)) = .ok bytes := by
      rw [slice, if_pos (by omega), hrest, Nat.add_sub_cancel_left, List.take_left]
    simp only [takeSlice, checkedAdd, if_pos hlimit, hslice]
    rw [if_neg (by omega)]
  yields len := by
    -- both checks are made before the slice is taken, so its bounds are good
    have hcases : ∀ cursor : Cursor, (∃ error, takeSlice overflow tooShort len cursor =
        .error (.error error) cursor) ∨ (cursor.index + len ≤ cursor.input.length ∧
        takeSlice overflow tooShort len cursor = .ok ((cursor.input.drop cursor.index).take len)
          { cursor with index := cursor.index + len }) := by
      intro cursor
      unfold takeSlice checkedAdd
      split_ifs with hlimit
      · simp only
        split_ifs with hshort
        · exact .inl ⟨_, rfl⟩
        · right
          refine ⟨by omega, ?_⟩
          rw [slice, if_pos (by omega), Nat.add_sub_cancel_left]
      · exact .inl ⟨_, rfl⟩
    constructor
    · intro cursor cursor' _ hrun
      rcases hcases cursor with ⟨error, herror⟩ | ⟨-, hok⟩
      · rw [herror] at hrun
        cases hrun
      · rw [hok] at hrun
        cases hrun
    · intro cursor cursor' a _ hrun
      rcases hcases cursor with ⟨error, herror⟩ | ⟨hfits, hok⟩
      · rw [herror] at hrun
        cases hrun
      · rw [hok] at hrun
        cases hrun
        have hlen : ((cursor.input.drop cursor.index).take len).length = len := by
          rw [List.length_take, List.length_drop]
          omega
        exact ⟨_, ⟨rfl, by rw [hlen], List.take_prefix _ _⟩, rfl, hlen⟩

section

variable {take : ℕ → CursorM ε (List UInt8)} (htake : TakesSlices take)

include htake

/-- A slice as long as the bytes takes them. -/
theorem TakesSlices.reads_of_length {bytes : List UInt8} {len : ℕ} (h : len = bytes.length) :
    Reads (take len) bytes bytes := by
  subst h
  exact htake.reads bytes

/-- An array is read from its bytes. -/
theorem TakesSlices.reads_readArray {n : ℕ} (value : List.Vector UInt8 n) :
    Reads (readArray take n) value.toList value := by
  have hread : Reads (readArray take n) (value.toList ++ []) value :=
    (htake.reads_of_length value.toList_length.symm).bind (Reads.raise (toArray_toList value))
  rwa [List.append_nil] at hread

/-- An array that was read has the bytes that were taken. -/
theorem TakesSlices.yields_readArray (n : ℕ) :
    Yields (readArray take n) fun a bytes => bytes = a.toList := by
  apply (htake.yields n).bind
  rintro a first ⟨rfl, hlen⟩
  apply Yields.raise
  rw [toArray, dif_pos hlen]
  exact List.append_nil _

/-- A byte is read from itself. -/
theorem TakesSlices.reads_readU8 (value : UInt8) : Reads (readU8 take) [value] value := by
  have hbyte : (byteAt [value] 0 : Outcome ε UInt8) = .ok value := rfl
  exact (htake.reads [value]).bind (Reads.raise hbyte)

/-- A byte that was read is the one that was taken. -/
theorem TakesSlices.yields_readU8 : Yields (readU8 take) fun a bytes => bytes = [a] := by
  apply (htake.yields 1).bind
  rintro a first ⟨rfl, hlen⟩
  obtain ⟨byte, rfl⟩ := List.length_eq_one_iff.mp hlen
  exact Yields.raise (x := .ok byte) rfl

/-- A big-endian number is read back from its bytes. -/
theorem TakesSlices.reads_readBe {n value : ℕ} (hvalue : value < 256 ^ n) {f : ℕ → α} :
    Reads (do let bytes ← readArray take n; return f (ofBe bytes.toList)) (toBe n value)
      (f value) := by
  have hread := (htake.reads_readArray ⟨toBe n value, length_toBe n value⟩).map
    fun bytes => f (ofBe bytes.toList)
  rwa [List.Vector.toList_mk, ofBe_toBe hvalue] at hread

/-- A big-endian number is read from exactly its bytes. -/
theorem TakesSlices.yields_readBe (n : ℕ) {f : ℕ → α} :
    Yields (do let bytes ← readArray take n; return f (ofBe bytes.toList)) fun a bytes =>
      ∃ value < 256 ^ n, bytes = toBe n value ∧ a = f value := by
  apply (htake.yields_readArray n).bind
  rintro a first rfl
  refine Yields.pure ⟨ofBe a.toList, ?_, ?_, rfl⟩
  · have hlt := ofBe_lt a.toList
    rwa [a.toList_length] at hlt
  · have hbytes := toBe_ofBe a.toList
    rw [a.toList_length] at hbytes
    rw [hbytes, List.append_nil]

/-- A number of 16 bits is read from its big-endian bytes. -/
theorem TakesSlices.reads_readU16 (value : UInt16) :
    Reads (readU16 take) (toBe 2 value.toNat) value := by
  have hvalue : value.toNat < 256 ^ 2 := value.toNat_lt
  have hread := htake.reads_readBe hvalue (f := UInt16.ofNat)
  rwa [UInt16.ofNat_toNat] at hread

/-- A number of 32 bits is read from its big-endian bytes. -/
theorem TakesSlices.reads_readU32 (value : UInt32) :
    Reads (readU32 take) (toBe 4 value.toNat) value := by
  have hvalue : value.toNat < 256 ^ 4 := value.toNat_lt
  have hread := htake.reads_readBe hvalue (f := UInt32.ofNat)
  rwa [UInt32.ofNat_toNat] at hread

/-- A number of 64 bits is read from its big-endian bytes. -/
theorem TakesSlices.reads_readU64 (value : UInt64) :
    Reads (readU64 take) (toBe 8 value.toNat) value := by
  have hvalue : value.toNat < 256 ^ 8 := value.toNat_lt
  have hread := htake.reads_readBe hvalue (f := UInt64.ofNat)
  rwa [UInt64.ofNat_toNat] at hread

/-- The bytes that were taken are the big-endian ones of the number. -/
theorem TakesSlices.yields_readU16 :
    Yields (readU16 take) fun a bytes => bytes = toBe 2 a.toNat := by
  apply (htake.yields_readBe 2).mono
  rintro a bytes ⟨value, hvalue, rfl, rfl⟩
  have hmod : value % 2 ^ 16 = value := Nat.mod_eq_of_lt hvalue
  rw [UInt16.toNat_ofNat', hmod]

/-- The bytes that were taken are the big-endian ones of the number. -/
theorem TakesSlices.yields_readU32 :
    Yields (readU32 take) fun a bytes => bytes = toBe 4 a.toNat := by
  apply (htake.yields_readBe 4).mono
  rintro a bytes ⟨value, hvalue, rfl, rfl⟩
  have hmod : value % 2 ^ 32 = value := Nat.mod_eq_of_lt hvalue
  rw [UInt32.toNat_ofNat', hmod]

/-- The bytes that were taken are the big-endian ones of the number. -/
theorem TakesSlices.yields_readU64 :
    Yields (readU64 take) fun a bytes => bytes = toBe 8 a.toNat := by
  apply (htake.yields_readBe 8).mono
  rintro a bytes ⟨value, hvalue, rfl, rfl⟩
  have hmod : value % 2 ^ 64 = value := Nat.mod_eq_of_lt hvalue
  rw [UInt64.toNat_ofNat', hmod]

end

/-! ### Whole inputs -/

/-- `ending` succeeds exactly at the end of the input, and changes nothing. -/
def Finishes (ending : CursorM ε Unit) : Prop :=
  ∀ cursor, cursor.index ≤ cursor.input.length →
    (cursor.index = cursor.input.length ∧ ending cursor = .ok () cursor) ∨
    (cursor.index ≠ cursor.input.length ∧ ∃ error, ending cursor = .error (.error error) cursor)

/-- Finishing succeeds exactly at the end of the input. -/
theorem run_finish (trailing : Cursor → ε) (cursor : Cursor) :
    finish trailing cursor = if cursor.index = cursor.input.length then .ok () cursor
      else .error (.error (trailing cursor)) cursor := by
  show raise (rejectIf (cursor.index ≠ cursor.input.length) (trailing cursor)) cursor = _
  by_cases h : cursor.index = cursor.input.length
  · rw [rejectIf_eq_ok (not_not.mpr h), if_pos h]
    rfl
  · rw [rejectIf_eq_fail h, if_neg h]
    rfl

/-- The check for trailing bytes ends a reader. -/
theorem finishes_finish (trailing : Cursor → ε) : Finishes (finish trailing) := by
  intro cursor _
  rw [run_finish]
  by_cases h : cursor.index = cursor.input.length
  · exact .inl ⟨h, if_pos h⟩
  · exact .inr ⟨h, _, if_neg h⟩

/-- A decoder that then finishes returns a value related to the whole input. -/
theorem Yields.runOn_finishes {reader : CursorM ε α} {P : α → List UInt8 → Prop}
    (h : Yields reader P) {ending : CursorM ε Unit} (hending : Finishes ending)
    (input : List UInt8) :
    Ends (runOn (do let a ← reader; ending; return a) input) fun a => P a input := by
  have hindex : (⟨input, 0, 0⟩ : Cursor).index ≤ (⟨input, 0, 0⟩ : Cursor).input.length :=
    Nat.zero_le _
  simp only [CursorM.runOn, Bind.bind, EStateM.bind]
  cases hrun : reader ⟨input, 0, 0⟩ with
  | ok a cursor =>
    obtain ⟨bytes, htook, hP⟩ := h.sound _ cursor a hindex hrun
    rcases hending cursor (htook.index_le hindex) with ⟨hend, hok⟩ | ⟨-, error, herror⟩
    · rw [htook.index_eq, htook.input_eq, Nat.zero_add] at hend
      have hbytes : bytes = input := htook.bytes_prefix.eq_of_length hend
      simp only [hok]
      exact hbytes ▸ hP
    · simp only [herror]
      exact trivial
  | error fault cursor =>
    cases fault with
    | error error => exact trivial
    | panic => exact absurd hrun (h.noPanic _ cursor hindex)

/-- `reader` takes exactly `bytes` where they are all that is left, and returns `a`. -/
def ReadsRest (reader : CursorM ε α) (bytes : List UInt8) (a : α) : Prop :=
  ∀ cursor : Cursor, cursor.index + bytes.length < addressLimit →
    cursor.index ≤ cursor.input.length → cursor.input.drop cursor.index = bytes →
    ∃ ticks, reader cursor = .ok a ⟨cursor.input, cursor.index + bytes.length, ticks⟩

/-- A reader that takes these bytes takes them when nothing follows. -/
theorem Reads.rest {reader : CursorM ε α} {bytes : List UInt8} {a : α} (h : Reads reader bytes a) :
    ReadsRest reader bytes a := by
  intro cursor hlimit hindex hrest
  exact h cursor [] hlimit hindex (by rw [hrest, List.append_nil])

/-- A part, and then the rest of the input. -/
theorem Reads.bind_rest {reader : CursorM ε α} {next : α → CursorM ε β} {first second : List UInt8}
    {a : α} {b : β} (hfirst : Reads reader first a) (hsecond : ReadsRest (next a) second b) :
    ReadsRest (reader >>= next) (first ++ second) b := by
  intro cursor hlimit hindex hrest
  rw [List.length_append] at hlimit ⊢
  obtain ⟨ticks, hstep⟩ := hfirst cursor second (by omega) hindex hrest
  have hlen : cursor.input.length - cursor.index = first.length + second.length := by
    rw [← List.length_drop, hrest, List.length_append]
  obtain ⟨ticks', hnext⟩ := hsecond ⟨cursor.input, cursor.index + first.length, ticks⟩
    (by simp only; omega) (by simp only; omega) (drop_add_length hrest)
  refine ⟨ticks', ?_⟩
  show EStateM.bind reader next cursor = _
  rw [EStateM.bind, hstep]
  simp only
  rw [hnext, Nat.add_assoc]

/-- At the end of the input a finish passes. -/
theorem Finishes.bind_rest {ending : CursorM ε Unit} (h : Finishes ending) {next : Unit → CursorM ε α}
    {a : α} (hnext : ReadsRest (next ()) [] a) : ReadsRest (ending >>= next) [] a := by
  intro cursor hlimit hindex hrest
  have hend : cursor.index = cursor.input.length :=
    Nat.le_antisymm hindex (List.drop_eq_nil_iff.mp hrest)
  rcases h cursor hindex with ⟨-, hok⟩ | ⟨hne, -⟩
  · obtain ⟨ticks, hrun⟩ := hnext cursor hlimit hindex hrest
    refine ⟨ticks, ?_⟩
    show EStateM.bind ending next cursor = _
    rw [EStateM.bind, hok]
    exact hrun
  · exact absurd hend hne

/-- On its own a reader of the rest returns its value for these bytes. -/
theorem ReadsRest.runOn {reader : CursorM ε α} {bytes : List UInt8} {a : α}
    (h : ReadsRest reader bytes a) (hlimit : bytes.length < addressLimit) :
    CursorM.runOn reader bytes = .ok a := by
  obtain ⟨ticks, hrun⟩ := h ⟨bytes, 0, 0⟩ (by simpa using hlimit) (Nat.zero_le _) rfl
  rw [CursorM.runOn, hrun]

/-- A decoder that then finishes returns the value when its input is what it takes. -/
theorem Reads.runOn_finishes {reader : CursorM ε α} {bytes : List UInt8} {a : α}
    (h : Reads reader bytes a) {ending : CursorM ε Unit} (hending : Finishes ending)
    (hlimit : bytes.length < addressLimit) :
    CursorM.runOn (do let a ← reader; ending; return a) bytes = .ok a := by
  have hpure : ReadsRest (Pure.pure a : CursorM ε α) [] a := (Reads.pure a).rest
  have hrest : ReadsRest (do let a ← reader; ending; return a) (bytes ++ []) a :=
    h.bind_rest (hending.bind_rest hpure)
  rw [List.append_nil] at hrest
  exact hrest.runOn hlimit

/-- A decoder decides how much it takes: of one input it takes one byte string. -/
theorem Reads.unique {reader : CursorM ε α} {first second rest rest' : List UInt8} {a b : α}
    (h : Reads reader first a) (h' : Reads reader second b) (heq : first ++ rest = second ++ rest')
    (hlimit : (first ++ rest).length < addressLimit) : first = second ∧ a = b ∧ rest = rest' := by
  have hlen := congrArg List.length heq
  rw [List.length_append] at hlimit
  simp only [List.length_append] at hlen
  obtain ⟨ticks, hrun⟩ := h ⟨first ++ rest, 0, 0⟩ rest (by simp only; omega) (Nat.zero_le _) rfl
  obtain ⟨ticks', hrun'⟩ := h' ⟨first ++ rest, 0, 0⟩ rest' (by simp only; omega) (Nat.zero_le _) heq
  rw [hrun] at hrun'
  simp only [EStateM.Result.ok.injEq, Cursor.mk.injEq, true_and] at hrun'
  obtain ⟨hab, hindex, -⟩ := hrun'
  obtain ⟨hfirst, hrest⟩ := List.append_inj heq (by omega)
  exact ⟨hfirst, hab, hrest⟩

/-! ### Counted calls -/

/-- `cursor'` is further on in the same input, and the calls counted on the way are paid for by the
bytes taken, up to `slack`. -/
structure Advances (cursor cursor' : Cursor) (slack : ℤ) : Prop where
  input_eq : cursor'.input = cursor.input
  index_le : cursor'.index ≤ cursor'.input.length
  ticks_le : (cursor'.ticks : ℤ) - cursor.ticks ≤ cursor'.index - cursor.index + slack

/-- A bound on the calls that `reader` counts: `ok` more than it takes bytes when it succeeds, and
`err` more when it fails. -/
def Charges (ok err : ℤ) (reader : CursorM ε α) : Prop :=
  ∀ cursor, cursor.index ≤ cursor.input.length →
    match reader cursor with
    | .ok _ cursor' => Advances cursor cursor' ok
    | .error _ cursor' => Advances cursor cursor' err

/-- Two advances, with what both of them may spend. -/
theorem Advances.trans {first second third : Cursor} {a b slack : ℤ} (h : Advances first second a)
    (h' : Advances second third b) (hslack : a + b ≤ slack) : Advances first third slack where
  input_eq := h'.input_eq.trans h.input_eq
  index_le := h'.index_le
  ticks_le := by
    have := h.ticks_le
    have := h'.ticks_le
    omega

/-- An advance may be given more to spend. -/
theorem Advances.mono {cursor cursor' : Cursor} {a b : ℤ} (h : Advances cursor cursor' a)
    (hab : a ≤ b) : Advances cursor cursor' b where
  input_eq := h.input_eq
  index_le := h.index_le
  ticks_le := h.ticks_le.trans (by omega)

/-- A cursor that did not move and counted nothing. -/
theorem Advances.refl {cursor : Cursor} (hindex : cursor.index ≤ cursor.input.length) {slack : ℤ}
    (hslack : 0 ≤ slack) : Advances cursor cursor slack := ⟨rfl, hindex, by omega⟩

/-- An outcome on the side costs nothing. -/
theorem Charges.raise (outcome : Outcome ε α) : Charges 0 0 (raise outcome) := by
  intro cursor hindex
  cases outcome with
  | ok a => exact Advances.refl hindex le_rfl
  | error fault => exact Advances.refl hindex le_rfl

/-- A value costs nothing. -/
theorem Charges.pure (a : α) : Charges 0 0 (Pure.pure a : CursorM ε α) := Charges.raise (.ok a)

/-- Counting an item costs one. -/
theorem Charges.tick : Charges 1 0 (tick : CursorM ε Unit) := by
  intro cursor hindex
  exact ⟨rfl, hindex, by push_cast; omega⟩

/-- The bounds on the cost may be raised. -/
theorem Charges.mono {reader : CursorM ε α} {ok ok' err err' : ℤ} (h : Charges ok err reader)
    (hok : ok ≤ ok') (herr : err ≤ err') : Charges ok' err' reader := by
  intro cursor hindex
  have hrun := h cursor hindex
  cases hreader : reader cursor with
  | ok a cursor' =>
    rw [hreader] at hrun
    exact hrun.mono hok
  | error fault cursor' =>
    rw [hreader] at hrun
    exact hrun.mono herr

/-- The costs of two parts add up; an error of the first comes before the second is paid for. -/
theorem Charges.bind {reader : CursorM ε α} {next : α → CursorM ε β} {a b c d ok err : ℤ}
    (h : Charges a c reader) (hnext : ∀ x, Charges b d (next x)) (hok : a + b ≤ ok)
    (herr : c ≤ err) (herr' : a + d ≤ err) : Charges ok err (reader >>= next) := by
  intro cursor hindex
  have hrun := h cursor hindex
  simp only [Bind.bind, EStateM.bind]
  cases hreader : reader cursor with
  | error fault middle =>
    rw [hreader] at hrun
    exact hrun.mono herr
  | ok x middle =>
    rw [hreader] at hrun
    have hrest := hnext x middle hrun.index_le
    simp only
    cases hlast : next x middle with
    | ok y cursor' =>
      rw [hlast] at hrest
      exact hrun.trans hrest hok
    | error fault cursor' =>
      rw [hlast] at hrest
      exact hrun.trans hrest herr'

/-- Both branches within a bound are within it. -/
theorem Charges.ite {c : Prop} [Decidable c] {first second : CursorM ε α} {ok err : ℤ}
    (hfirst : Charges ok err first) (hsecond : Charges ok err second) :
    Charges ok err (if c then first else second) := by
  split_ifs
  · exact hfirst
  · exact hsecond

/-- A slice pays with its bytes. -/
theorem charges_takeSlice (overflow tooShort : Cursor → ℕ → ε) (len : ℕ) :
    Charges (-len) 0 (takeSlice overflow tooShort len) := by
  intro cursor hindex
  unfold takeSlice checkedAdd
  split_ifs with hlimit
  · simp only
    split_ifs with hshort
    · exact Advances.refl hindex le_rfl
    · rw [slice, if_pos (by omega)]
      refine ⟨rfl, ?_, ?_⟩
      · simp only
        omega
      · push_cast
        omega
  · exact Advances.refl hindex le_rfl

/-- The cursor that a run leaves, whether it succeeded or not. -/
def finalCursor : EStateM.Result (Fault ε) Cursor α → Cursor
  | .ok _ cursor => cursor
  | .error _ cursor => cursor

/-- However the reader ends, the calls it counted are bounded by the bytes that were left. -/
theorem Charges.ticks_le {reader : CursorM ε α} (h : Charges 0 1 reader) {cursor : Cursor}
    (hindex : cursor.index ≤ cursor.input.length) :
    (finalCursor (reader cursor)).ticks ≤
      cursor.ticks + (cursor.input.length - cursor.index) + 1 := by
  have hrun := h cursor hindex
  have hadvances : Advances cursor (finalCursor (reader cursor)) 1 := by
    cases hreader : reader cursor with
    | ok a cursor' =>
      rw [hreader] at hrun
      exact hrun.mono (by omega)
    | error fault cursor' =>
      rw [hreader] at hrun
      exact hrun
  obtain ⟨hinput, hle, hticks⟩ := hadvances
  rw [hinput] at hle
  omega

end CursorM

/-! ## Writing -/

/-- An encoder: a program over an output cursor. -/
abbrev WriterM (ε : Type) := EStateM (Fault ε) WriteCursor

namespace WriterM

variable {ε : Type}

/-- `write_array` of the cursors that trust their caller: the addition and the slice panic. -/
def writeArray (bytes : List UInt8) : WriterM ε Unit := fun cursor =>
  if cursor.index + bytes.length < addressLimit ∧
      cursor.index + bytes.length ≤ cursor.output.length then
    .ok () (cursor.writeArray bytes)
  else .error .panic cursor

/-- `write_u8`. -/
def writeU8 (value : UInt8) : WriterM ε Unit := writeArray [value]

/-- `write_u16`, big-endian. -/
def writeU16 (value : UInt16) : WriterM ε Unit := writeArray (toBe 2 value.toNat)

/-- `write_u64`, big-endian. -/
def writeU64 (value : UInt64) : WriterM ε Unit := writeArray (toBe 8 value.toNat)

/-- `write_slice` of the cursors that check: both cases are reported. -/
def writeSlice (overflow tooSmall : WriteCursor → List UInt8 → ε) (bytes : List UInt8) :
    WriterM ε Unit := fun cursor =>
  match checkedAdd cursor.index bytes.length with
  | none => .error (.error (overflow cursor bytes)) cursor
  | some stop =>
    if stop > cursor.output.length then .error (.error (tooSmall cursor bytes)) cursor
    else writeArray bytes cursor

/-- Run an encoder on an output from its start; the cursor it leaves. -/
def runOn (writer : WriterM ε Unit) (output : List UInt8) : Outcome ε WriteCursor :=
  match writer (WriteCursor.new output) with
  | .ok _ cursor => .ok cursor
  | .error fault _ => .error fault

/-- `writer` writes exactly `bytes` where there is room for them. -/
def Writes (writer : WriterM ε Unit) (bytes : List UInt8) : Prop :=
  ∀ cursor : WriteCursor, cursor.index + bytes.length < addressLimit →
    cursor.index + bytes.length ≤ cursor.output.length →
    writer cursor = .ok () (cursor.writeArray bytes)

/-- The bytes of an array are written. -/
theorem writes_writeArray (bytes : List UInt8) :
    Writes (writeArray bytes : WriterM ε Unit) bytes := by
  intro cursor hlimit hroom
  rw [writeArray, if_pos ⟨hlimit, hroom⟩]

/-- The bytes of a slice are written where there is room for them. -/
theorem writes_writeSlice (overflow tooSmall : WriteCursor → List UInt8 → ε) (bytes : List UInt8) :
    Writes (writeSlice overflow tooSmall bytes) bytes := by
  intro cursor hlimit hroom
  simp only [writeSlice, checkedAdd, if_pos hlimit]
  rw [if_neg (by omega)]
  exact writes_writeArray bytes cursor hlimit hroom

/-- Nothing is written. -/
theorem Writes.nil : Writes (pure () : WriterM ε Unit) [] := by
  intro cursor _ _
  show EStateM.Result.ok () cursor = _
  simp [WriteCursor.writeArray]

/-- `writer` writes exactly `bytes` where there is room for them, and returns `a`. -/
def WritesAs {α : Type} (writer : WriterM ε α) (bytes : List UInt8) (a : α) : Prop :=
  ∀ cursor : WriteCursor, cursor.index + bytes.length < addressLimit →
    cursor.index + bytes.length ≤ cursor.output.length →
    writer cursor = .ok a (cursor.writeArray bytes)

/-- Two writes in a row write the concatenation. -/
theorem WritesAs.bind {α β : Type} {first : WriterM ε α} {second : α → WriterM ε β}
    {a b : List UInt8} {x : α} {y : β} (h : WritesAs first a x) (h' : WritesAs (second x) b y) :
    WritesAs (first >>= second) (a ++ b) y := by
  intro cursor hlimit hroom
  rw [List.length_append] at hlimit hroom
  have hindex : cursor.index ≤ cursor.output.length := by omega
  have hlen : (cursor.writeArray a).output.length = cursor.output.length := by
    simp only [WriteCursor.writeArray, List.length_append, List.length_take, List.length_drop]
    omega
  have hfirst := h cursor (by omega) (by omega)
  have hsecond := h' (cursor.writeArray a)
    (by simp only [WriteCursor.writeArray]; omega)
    (by rw [hlen]; simp only [WriteCursor.writeArray]; omega)
  rw [run_bind_of_ok hfirst, hsecond, WriteCursor.writeArray_writeArray hindex]

/-- A value without writing. -/
theorem WritesAs.pure {α : Type} (a : α) : WritesAs (Pure.pure a : WriterM ε α) [] a := by
  intro cursor _ _
  show EStateM.Result.ok a cursor = _
  simp [WriteCursor.writeArray]

/-- What two parts write stands one behind the other. -/
theorem Writes.bind {first second : WriterM ε Unit} {a b : List UInt8} (h : Writes first a)
    (h' : Writes second b) : Writes (do first; second) (a ++ b) :=
  WritesAs.bind h h'

/-- `writer` writes exactly `bytes`, or reports an error. -/
def Attempts (writer : WriterM ε Unit) (bytes : List UInt8) : Prop :=
  ∀ cursor : WriteCursor, cursor.index ≤ cursor.output.length →
    (cursor.index + bytes.length ≤ cursor.output.length ∧
      writer cursor = .ok () (cursor.writeArray bytes)) ∨
    ∃ error cursor', writer cursor = .error (.error error) cursor'

/-- The checked slice writes its bytes, or fails and writes none. -/
theorem attempts_writeSlice (overflow tooSmall : WriteCursor → List UInt8 → ε)
    (bytes : List UInt8) : Attempts (writeSlice overflow tooSmall bytes) bytes := by
  intro cursor _
  by_cases hlimit : cursor.index + bytes.length < addressLimit
  · by_cases hroom : cursor.index + bytes.length ≤ cursor.output.length
    · exact .inl ⟨hroom, writes_writeSlice overflow tooSmall bytes cursor hlimit hroom⟩
    · refine .inr ⟨tooSmall cursor bytes, cursor, ?_⟩
      simp only [writeSlice, checkedAdd, if_pos hlimit]
      rw [if_pos (not_le.mp hroom)]
  · refine .inr ⟨overflow cursor bytes, cursor, ?_⟩
    simp only [writeSlice, checkedAdd, if_neg hlimit]

/-- Nothing is attempted. -/
theorem Attempts.nil : Attempts (pure () : WriterM ε Unit) [] := by
  intro cursor hindex
  refine .inl ⟨hindex, ?_⟩
  show EStateM.Result.ok () cursor = _
  simp [WriteCursor.writeArray]

/-- Two attempts, one behind the other. -/
theorem Attempts.bind {first second : WriterM ε Unit} {a b : List UInt8} (h : Attempts first a)
    (h' : Attempts second b) : Attempts (do first; second) (a ++ b) := by
  intro cursor hindex
  show (_ ∧ EStateM.bind first (fun _ => second) cursor = _) ∨
    ∃ error cursor', EStateM.bind first (fun _ => second) cursor = .error (.error error) cursor'
  rcases h cursor hindex with ⟨hroom, hfirst⟩ | ⟨error, cursor', herror⟩
  · have hlen : (cursor.writeArray a).output.length = cursor.output.length := by
      simp only [WriteCursor.writeArray, List.length_append, List.length_take, List.length_drop]
      omega
    have hnext : (cursor.writeArray a).index ≤ (cursor.writeArray a).output.length := by
      rw [hlen]
      exact hroom
    have hbind : EStateM.bind first (fun _ => second) cursor = second (cursor.writeArray a) := by
      rw [EStateM.bind, hfirst]
    rw [hbind]
    rcases h' _ hnext with ⟨hroom', hsecond⟩ | hfails
    · rw [hlen] at hroom'
      refine .inl ⟨?_, ?_⟩
      · rw [List.length_append, ← Nat.add_assoc]
        exact hroom'
      · rw [hsecond, WriteCursor.writeArray_writeArray hindex]
    · exact .inr hfails
  · refine .inr ⟨error, cursor', ?_⟩
    rw [EStateM.bind, herror]

/-- An encoder that attempts its bytes puts them at the front of the output, or reports an error. -/
theorem Attempts.ends_runOn {writer : WriterM ε Unit} {bytes : List UInt8}
    (h : Attempts writer bytes) (output : List UInt8) :
    Ends (runOn writer output) fun cursor => bytes.length ≤ output.length ∧
      cursor = ⟨bytes ++ output.drop bytes.length, bytes.length⟩ := by
  rcases h (WriteCursor.new output) (Nat.zero_le _) with ⟨hroom, hok⟩ | ⟨error, cursor, herror⟩
  · rw [runOn, hok]
    refine ⟨by simpa [WriteCursor.new] using hroom, ?_⟩
    simp [WriteCursor.writeArray, WriteCursor.new]
  · rw [runOn, herror]
    exact trivial

/-- An encoder with room for its bytes puts them at the front of the output and keeps the rest. -/
theorem Writes.runOn {writer : WriterM ε Unit} {bytes output : List UInt8} (h : Writes writer bytes)
    (hlimit : bytes.length < addressLimit) (hroom : bytes.length ≤ output.length) :
    runOn writer output = .ok ⟨bytes ++ output.drop bytes.length, bytes.length⟩ := by
  have hrun := h (WriteCursor.new output) (by simpa [WriteCursor.new] using hlimit)
    (by simpa [WriteCursor.new] using hroom)
  rw [WriterM.runOn, hrun]
  simp [WriteCursor.writeArray, WriteCursor.new]

end WriterM

end ByteCodec
