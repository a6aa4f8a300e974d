import Hyf.Common.CursorM

/-!
# Programs over an output slice

An encoder of the source that is given `output: &mut [u8]` and writes at fixed offsets is a program
over the slice: an index or a range out of bounds panics, and so does a copy between lengths that
differ. Such a program fills its output from the front, and `Extends` says by which bytes: with
`start` bytes done it puts its own behind them and leaves the rest alone. It composes along `bind`, so
that the layout of a record is the list of its fields. `run_within` is the rule for a call on a part of
the slice, and `run_forM_update` the one for a loop that rewrites a range in place.
-/

namespace ByteCodec

/-- A program over an output slice, which the caller sees also where it fails. -/
abbrev BufferM (ε : Type) := EStateM (Fault ε) (List UInt8)

namespace BufferM

variable {ε α : Type}

/-- `output[index]`. -/
def getByte (index : ℕ) : BufferM ε UInt8 := fun output =>
  match output[index]? with
  | some byte => .ok byte output
  | none => .error .panic output

/-- `output[index] = byte`. -/
def setByte (index : ℕ) (byte : UInt8) : BufferM ε Unit := fun output =>
  if index < output.length then .ok () (output.set index byte) else .error .panic output

/-- `output[start..stop].copy_from_slice(bytes)`. -/
def copyInto (start stop : ℕ) (bytes : List UInt8) : BufferM ε Unit := fun output =>
  if start ≤ stop ∧ stop ≤ output.length ∧ bytes.length = stop - start then
    .ok () (output.take start ++ bytes ++ output.drop stop)
  else .error .panic output

/-- `output[start..stop].fill(byte)`. -/
def fill (start stop : ℕ) (byte : UInt8) : BufferM ε Unit := fun output =>
  if start ≤ stop ∧ stop ≤ output.length then
    .ok () (output.take start ++ List.replicate (stop - start) byte ++ output.drop stop)
  else .error .panic output

/-- A call that is given `&mut output[start..stop]`. -/
def within (start stop : ℕ) (program : BufferM ε α) : BufferM ε α := fun output =>
  if start ≤ stop ∧ stop ≤ output.length then
    match program ((output.take stop).drop start) with
    | .ok a part => .ok a (output.take start ++ part ++ output.drop stop)
    | .error fault part => .error fault (output.take start ++ part ++ output.drop stop)
  else .error .panic output

/-- `if let Err(error) = program { cleanup; return Err(error); }`. -/
def onError (program : BufferM ε α) (cleanup : BufferM ε Unit) : BufferM ε α := fun output =>
  match program output with
  | .error (.error error) output' =>
    match cleanup output' with
    | .ok _ output'' => .error (.error error) output''
    | .error fault output'' => .error fault output''
  | result => result

/-- `output[index] = f(output[index])`. -/
def update (index : ℕ) (f : UInt8 → Outcome ε UInt8) : BufferM ε Unit := do
  let byte ← getByte index
  let updated ← (f byte).lift
  setByte index updated

/-- Run a program on a buffer of its own; the value it returns and the buffer that it leaves. -/
def runOn (program : BufferM ε α) (buffer : List UInt8) : Outcome ε (α × List UInt8) :=
  match program buffer with
  | .ok a buffer => .ok (a, buffer)
  | .error fault _ => .error fault

/-- A program that succeeds, run on a buffer of its own. -/
theorem runOn_eq_ok {program : BufferM ε α} {buffer buffer' : List UInt8} {a : α}
    (h : program buffer = .ok a buffer') : runOn program buffer = .ok (a, buffer') := by
  rw [runOn, h]

/-- A program that fails, run on a buffer of its own. -/
theorem runOn_eq_error {program : BufferM ε α} {buffer buffer' : List UInt8} {fault : Fault ε}
    (h : program buffer = .error fault buffer') : runOn program buffer = .error fault := by
  rw [runOn, h]

/-- The `?` operator on a call whose error is converted. -/
def convert {δ : Type} (program : BufferM ε α) (f : ε → δ) : BufferM δ α := fun output =>
  match program output with
  | .ok a output => .ok a output
  | .error fault output => .error (fault.map f) output

/-- Converting the errors changes no value. -/
theorem run_convert_ok {δ : Type} {program : BufferM ε α} {output output' : List UInt8} {a : α}
    (h : program output = .ok a output') (f : ε → δ) : program.convert f output = .ok a output' := by
  rw [convert, h]

/-! ## Filling the output from the front -/

/-- With `start` bytes of the output done, the program writes `bytes` behind them. -/
def Extends (program : BufferM ε Unit) (start : ℕ) (bytes : List UInt8) : Prop :=
  ∀ before rest, before.length = start → bytes.length ≤ rest.length →
    program (before ++ rest) = .ok () (before ++ bytes ++ rest.drop bytes.length)

/-- Setting a byte at the end of what is written extends it. -/
theorem extends_setByte (start : ℕ) (byte : UInt8) :
    Extends (setByte start byte : BufferM ε Unit) start [byte] := by
  intro before rest hbefore hroom
  match rest, hroom with
  | first :: rest, _ =>
    have hlt : start < (before ++ first :: rest).length := by
      rw [List.length_append, List.length_cons]
      omega
    rw [setByte, if_pos hlt, List.set_append_right _ _ hbefore.le, hbefore, Nat.sub_self]
    simp

/-- Copying to the end of what is written extends it. -/
theorem extends_copyInto (start : ℕ) {stop : ℕ} (bytes : List UInt8)
    (h : stop = start + bytes.length) :
    Extends (copyInto start stop bytes : BufferM ε Unit) start bytes := by
  intro before rest hbefore hroom
  have hstop : (before ++ rest).drop stop = rest.drop bytes.length := by
    rw [h, ← hbefore, ← List.drop_drop, List.drop_left]
  have hstart : (before ++ rest).take start = before := by rw [← hbefore, List.take_left]
  have hbounds : start ≤ stop ∧ stop ≤ (before ++ rest).length ∧ bytes.length = stop - start := by
    rw [List.length_append]
    omega
  rw [copyInto, if_pos hbounds, hstart, hstop]

/-- Filling from the end of what is written extends it. -/
theorem extends_fill (start count : ℕ) {stop : ℕ} (byte : UInt8) (h : stop = start + count) :
    Extends (fill start stop byte : BufferM ε Unit) start (List.replicate count byte) := by
  intro before rest hbefore hroom
  rw [List.length_replicate] at hroom ⊢
  have hcount : stop - start = count := by omega
  have hstop : (before ++ rest).drop stop = rest.drop count := by
    rw [h, ← hbefore, ← List.drop_drop, List.drop_left]
  have hstart : (before ++ rest).take start = before := by rw [← hbefore, List.take_left]
  have hbounds : start ≤ stop ∧ stop ≤ (before ++ rest).length := by
    rw [List.length_append]
    omega
  rw [fill, if_pos hbounds, hstart, hstop, hcount]

/-- Two parts in a row are filled by both byte strings. -/
theorem Extends.bind {first second : BufferM ε Unit} {start middle : ℕ} {a b : List UInt8}
    (h : Extends first start a) (h' : Extends second middle b) (hmiddle : middle = start + a.length) :
    Extends (do first; second) start (a ++ b) := by
  intro before rest hbefore hroom
  rw [List.length_append] at hroom
  have hfirst := h before rest hbefore (by omega)
  have hsecond := h' (before ++ a) (rest.drop a.length)
    (by rw [List.length_append, hbefore, hmiddle]) (by rw [List.length_drop]; omega)
  rw [run_bind_of_ok hfirst, hsecond, List.drop_drop, List.length_append, List.append_assoc]
  simp only [List.append_assoc]

/-- A program that fills from the start leaves what is behind its bytes alone. -/
theorem Extends.run {program : BufferM ε Unit} {bytes output : List UInt8}
    (h : Extends program 0 bytes) (hroom : bytes.length ≤ output.length) :
    program output = .ok () (bytes ++ output.drop bytes.length) := by
  have hrun := h [] output rfl hroom
  simpa using hrun

/-- Bytes that are copied to the front of a buffer with room for them. -/
theorem run_copyInto_front {bytes output : List UInt8} {stop : ℕ} (hstop : bytes.length = stop)
    (hroom : stop ≤ output.length) :
    (copyInto 0 stop bytes : BufferM ε Unit) output = .ok () (bytes ++ output.drop stop) := by
  subst hstop
  exact (extends_copyInto 0 bytes (Nat.zero_add bytes.length).symm).run hroom

/-- An array of zeros that bytes are copied to begins with them. -/
theorem exists_stored {bytes : List UInt8} {n : ℕ} (hroom : bytes.length ≤ n) :
    ∃ (written : List UInt8) (stored : List.Vector UInt8 n),
      (runOn (copyInto 0 bytes.length bytes) (List.replicate n 0) : Outcome ε _) =
        .ok ((), written) ∧
      (toArray n written : Outcome ε (List.Vector UInt8 n)) = .ok stored ∧
      stored.toList.take bytes.length = bytes := by
  have hzeros : bytes.length ≤ (List.replicate n (0 : UInt8)).length := by
    rw [List.length_replicate]
    exact hroom
  have hlen : (bytes ++ (List.replicate n (0 : UInt8)).drop bytes.length).length = n := by
    rw [List.length_append, List.length_drop, List.length_replicate]
    omega
  exact ⟨_, _, runOn_eq_ok (run_copyInto_front rfl hzeros), toArray_eq_ok hlen, List.take_left⟩

/-! ## A part of the output -/

section

variable {before middle rest : List UInt8} {start stop : ℕ}

/-- The bounds of the middle one of three parts. -/
theorem middle_bounds (hstart : before.length = start) (hstop : start + middle.length = stop) :
    start ≤ stop ∧ stop ≤ (before ++ middle ++ rest).length ∧
      (before ++ middle ++ rest).take start = before ∧
      (before ++ middle ++ rest).drop stop = rest ∧
      ((before ++ middle ++ rest).take stop).drop start = middle := by
  have hlen : (before ++ middle).length = stop := by rw [List.length_append, hstart, hstop]
  refine ⟨by omega, ?_, ?_, ?_, ?_⟩
  · rw [List.length_append, hlen]
    exact Nat.le_add_right _ _
  · rw [List.append_assoc, List.take_left' hstart]
  · rw [List.drop_left' hlen]
  · rw [List.take_left' hlen, List.drop_left' hstart]

/-- A copy replaces the bytes between its bounds. -/
theorem run_copyInto (hstart : before.length = start) (hstop : start + middle.length = stop)
    {bytes : List UInt8} (hbytes : bytes.length = middle.length) :
    (copyInto start stop bytes : BufferM ε Unit) (before ++ middle ++ rest) =
      .ok () (before ++ bytes ++ rest) := by
  obtain ⟨hle, hlen, hbefore, hrest, -⟩ := @middle_bounds before middle rest _ _ hstart hstop
  rw [copyInto, if_pos ⟨hle, hlen, by omega⟩, hbefore, hrest]

/-- A fill replaces the bytes between its bounds. -/
theorem run_fill (hstart : before.length = start) (hstop : start + middle.length = stop) (byte : UInt8) :
    (fill start stop byte : BufferM ε Unit) (before ++ middle ++ rest) =
      .ok () (before ++ List.replicate middle.length byte ++ rest) := by
  obtain ⟨hle, hlen, hbefore, hrest, -⟩ := @middle_bounds before middle rest _ _ hstart hstop
  have hcount : stop - start = middle.length := by omega
  rw [fill, if_pos ⟨hle, hlen⟩, hbefore, hrest, hcount]

/-- A call on a part leaves the rest of the output alone. -/
theorem run_within (hstart : before.length = start) (hstop : start + middle.length = stop)
    {program : BufferM ε α} {middle' : List UInt8} {a : α} (h : program middle = .ok a middle') :
    within start stop program (before ++ middle ++ rest) = .ok a (before ++ middle' ++ rest) := by
  obtain ⟨hle, hlen, hbefore, hrest, hmiddle⟩ := @middle_bounds before middle rest _ _ hstart hstop
  rw [within, if_pos ⟨hle, hlen⟩, hmiddle, h, hbefore, hrest]

/-- A program within bounds that fails leaves the bytes around them. -/
theorem run_within_error (hstart : before.length = start) (hstop : start + middle.length = stop)
    {program : BufferM ε α} {middle' : List UInt8} {fault : Fault ε}
    (h : program middle = .error fault middle') :
    within start stop program (before ++ middle ++ rest) = .error fault (before ++ middle' ++ rest) := by
  obtain ⟨hle, hlen, hbefore, hrest, hmiddle⟩ := @middle_bounds before middle rest _ _ hstart hstop
  rw [within, if_pos ⟨hle, hlen⟩, hmiddle, h, hbefore, hrest]

/-! The same with nothing before the part. -/

variable (rest)

/-- A copy to the front. -/
theorem run_copyInto_start {bytes : List UInt8} (hstop : middle.length = stop)
    (hbytes : bytes.length = middle.length) :
    (copyInto 0 stop bytes : BufferM ε Unit) (middle ++ rest) = .ok () (bytes ++ rest) :=
  @run_copyInto ε [] middle rest 0 stop rfl (by rw [Nat.zero_add, hstop]) bytes hbytes

/-- A fill of the front. -/
theorem run_fill_start (hstop : middle.length = stop) (byte : UInt8) :
    (fill 0 stop byte : BufferM ε Unit) (middle ++ rest) =
      .ok () (List.replicate middle.length byte ++ rest) :=
  @run_fill ε [] middle rest 0 stop rfl (by rw [Nat.zero_add, hstop]) byte

/-- A program within the front. -/
theorem run_within_start (hstop : middle.length = stop) {program : BufferM ε α}
    {middle' : List UInt8} {a : α} (h : program middle = .ok a middle') :
    within 0 stop program (middle ++ rest) = .ok a (middle' ++ rest) :=
  @run_within ε α [] middle rest 0 stop rfl (by rw [Nat.zero_add, hstop]) program middle' a h

/-- A program within the front that fails. -/
theorem run_within_start_error (hstop : middle.length = stop) {program : BufferM ε α}
    {middle' : List UInt8} {fault : Fault ε} (h : program middle = .error fault middle') :
    within 0 stop program (middle ++ rest) = .error fault (middle' ++ rest) :=
  @run_within_error ε α [] middle rest 0 stop rfl (by rw [Nat.zero_add, hstop]) program middle' fault h

end

/-- The cleanup does not run after a success. -/
theorem run_onError_ok {program : BufferM ε α} {output output' : List UInt8} {a : α}
    (h : program output = .ok a output') (cleanup : BufferM ε Unit) :
    onError program cleanup output = .ok a output' := by
  rw [onError, h]

/-- The error stays, and the output is the cleaned one. -/
theorem run_onError_error {program : BufferM ε α} {cleanup : BufferM ε Unit}
    {output middle output' : List UInt8} {error : ε} (h : program output = .error (.error error) middle)
    (hcleanup : cleanup middle = .ok () output') :
    onError program cleanup output = .error (.error error) output' := by
  rw [onError, h]
  simp only [hcleanup]

/-! ## Rewriting in place -/

/-- An update replaces one byte. -/
theorem run_update {before rest : List UInt8} {index : ℕ} {byte updated : UInt8}
    {f : UInt8 → Outcome ε UInt8} (hindex : before.length = index) (hf : f byte = .ok updated) :
    (update index f : BufferM ε Unit) (before ++ byte :: rest) =
      .ok () (before ++ updated :: rest) := by
  have hget : (getByte index : BufferM ε UInt8) (before ++ byte :: rest) =
      .ok byte (before ++ byte :: rest) := by
    rw [getByte, List.getElem?_append_right hindex.le, hindex, Nat.sub_self]
    rfl
  have hlt : index < (before ++ byte :: rest).length := by
    rw [List.length_append, List.length_cons]
    omega
  have hlift : ((f byte).lift : BufferM ε UInt8) (before ++ byte :: rest) =
      .ok updated (before ++ byte :: rest) := by
    rw [hf]
    rfl
  rw [update, run_bind_of_ok hget, run_bind_of_ok hlift, setByte, if_pos hlt,
    List.set_append_right _ _ hindex.le, hindex, Nat.sub_self, List.set_cons_zero]

/-- A loop over the indices of `middle` rewrites it byte by byte. -/
theorem run_forM_update {f : ℕ → UInt8 → Outcome ε UInt8} {middle updated : List UInt8}
    {start : ℕ} (hlen : updated.length = middle.length)
    (hf : ∀ j a b, middle[j]? = some a → updated[j]? = some b → f (start + j) a = .ok b)
    {before rest : List UInt8} (hstart : before.length = start) :
    ((List.range' start middle.length).forM fun index => update index (f index))
      (before ++ middle ++ rest) = .ok () (before ++ updated ++ rest) := by
  induction middle generalizing updated start before with
  | nil =>
    rw [List.eq_nil_of_length_eq_zero hlen]
    rfl
  | cons byte middle ih =>
    match updated, hlen with
    | first :: updated, hlen =>
      have hbyte : f start byte = .ok first := hf 0 byte first rfl rfl
      have hrest : ∀ j a b, middle[j]? = some a → updated[j]? = some b →
          f (start + 1 + j) a = .ok b := by
        intro j a b ha hb
        rw [Nat.add_assoc, Nat.add_comm 1]
        exact hf (j + 1) a b ha hb
      have hbefore : (before ++ [first]).length = start + 1 := by
        rw [List.length_append, List.length_singleton, hstart]
      have hrun := ih (Nat.succ_injective hlen) hrest hbefore
      rw [List.append_assoc, List.cons_append, List.length_cons, List.range'_succ, List.forM_eq_forM,
        List.forM_cons, run_bind_of_ok (run_update hstart hbyte)]
      simpa using hrun

end BufferM

end ByteCodec
