import Hyf.Common.LoggedSteps
import Hyf.Common.Mealy
import Hyf.Kiss.Kiss

/-!
# KISS round trip and resynchronisation

The decoder is a stream machine: every byte leads to one next state and reports nothing, one frame
or one error. `pushByte_eq` says that feeding a byte is a step of that machine, whatever the callback
does, so everything about chunks follows from facts about streams.

Between two frames the machine stands at `boundary`. A `FEND` leads there from every reachable state,
which is why the next frame is decoded correctly after any garbage.
-/

namespace Hyf

open ByteCodec

/-! ## Escaping -/

/-- What one payload byte is sent as. -/
def stuffByte (byte : UInt8) : List UInt8 :=
  if byte = kissFend then [kissFesc, kissTfend]
  else if byte = kissFesc then [kissFesc, kissTfesc]
  else [byte]

/-- What a payload is sent as. -/
def stuff (payload : List UInt8) : List UInt8 := payload.flatMap stuffByte

/-- A frame on the line. -/
def frameBytes (command : UInt8) (payload : List UInt8) : List UInt8 :=
  [kissFend, command] ++ stuff payload ++ [kissFend]

theorem stuff_cons (byte : UInt8) (payload : List UInt8) :
    stuff (byte :: payload) = stuffByte byte ++ stuff payload := List.flatMap_cons

theorem length_stuffByte (byte : UInt8) :
    (stuffByte byte).length = if byte = kissFend ∨ byte = kissFesc then 2 else 1 := by
  unfold stuffByte
  by_cases hfend : byte = kissFend
  · rw [if_pos hfend, if_pos (.inl hfend)]
    rfl
  · by_cases hfesc : byte = kissFesc
    · rw [if_neg hfend, if_pos hfesc, if_pos (.inr hfesc)]
      rfl
    · rw [if_neg hfend, if_neg hfesc, if_neg (not_or.mpr ⟨hfend, hfesc⟩)]
      rfl

theorem length_stuff_le (payload : List UInt8) : (stuff payload).length ≤ 2 * payload.length := by
  induction payload with
  | nil => exact Nat.le_refl 0
  | cons byte payload ih =>
    have hbyte : (stuffByte byte).length ≤ 2 := by
      rw [length_stuffByte]
      split_ifs <;> omega
    rw [stuff_cons, List.length_append, List.length_cons]
    omega

theorem length_frameBytes (command : UInt8) (payload : List UInt8) :
    (frameBytes command payload).length = 3 + (stuff payload).length := by
  simp [frameBytes]
  omega

/-! ## The encoder -/

/-- The length counter counts the escaped bytes. -/
theorem encodedLenFrom_eq {payload : List UInt8} {len : ℕ}
    (h : len + (stuff payload).length < addressLimit) :
    encodedLenFrom len payload = .ok (len + (stuff payload).length) := by
  induction payload generalizing len with
  | nil => rfl
  | cons byte payload ih =>
    rw [stuff_cons, List.length_append, length_stuffByte] at h ⊢
    rw [encodedLenFrom, checkedAdd_eq_some (by omega)]
    simp only
    rw [ih (by omega), Nat.add_assoc]

theorem encodedLen_eq {command : UInt8} {payload : List UInt8}
    (h : (frameBytes command payload).length < addressLimit) :
    encodedLen payload = .ok (frameBytes command payload).length := by
  rw [length_frameBytes] at h ⊢
  exact encodedLenFrom_eq h

theorem maxEncodedCommandLen_eq {payloadLen : ℕ} (h : payloadLen * 2 + 3 < addressLimit) :
    maxEncodedCommandLen payloadLen = .ok (payloadLen * 2 + 3) := by
  have hmul : checkedMul payloadLen 2 = some (payloadLen * 2) := if_pos (by omega)
  rw [maxEncodedCommandLen, hmul, Option.bind_eq_bind, Option.bind_some, checkedAdd_eq_some h]

/-- The payload loop stores the escaped payload. -/
theorem stores_encodePayload (payload : List UInt8) (offset : ℕ) :
    Stores (encodePayload offset payload) offset (stuff payload) (offset + (stuff payload).length) := by
  induction payload generalizing offset with
  | nil => exact Stores.pure offset
  | cons byte payload ih =>
    -- an escape stores a pair, every other byte is stored as it is
    have hpair (second : UInt8) : Stores
        (storeAt offset kissFesc >>= fun _ => storeAt (offset + 1) second >>= fun _ =>
          encodePayload (offset + 2) payload)
        offset ([kissFesc, second] ++ stuff payload)
        (offset + ([kissFesc, second] ++ stuff payload).length) := by
      have hlen : offset + ([kissFesc, second] ++ stuff payload).length =
          offset + 2 + (stuff payload).length := by
        rw [List.length_append, ← Nat.add_assoc]
        rfl
      rw [hlen]
      exact (Stores.storeAt kissFesc).bind rfl ((Stores.storeAt second).bind rfl (ih (offset + 2)))
    rw [stuff_cons]
    unfold encodePayload stuffByte
    by_cases hfend : byte = kissFend
    · rw [if_pos hfend, if_pos hfend]
      exact hpair kissTfend
    · rw [if_neg hfend, if_neg hfend]
      by_cases hfesc : byte = kissFesc
      · rw [if_pos hfesc, if_pos hfesc]
        exact hpair kissTfesc
      · rw [if_neg hfesc, if_neg hfesc, List.length_append, ← Nat.add_assoc]
        exact (Stores.storeAt byte).bind rfl (ih (offset + 1))

/-- **The encoder** writes exactly the frame when it fits, and nothing when it does not. -/
theorem encodeCommandFrame_eq {command : UInt8} {payload : List UInt8}
    (h : (frameBytes command payload).length < addressLimit) (out : List UInt8) :
    encodeCommandFrame command payload out =
      if out.length < (frameBytes command payload).length then
        .error (.error (.outputBufferTooShort out.length (frameBytes command payload).length)) out
      else .ok (frameBytes command payload).length
        (frameBytes command payload ++ out.drop (frameBytes command payload).length) := by
  have hlen : ofResult id (encodedLen payload) = .ok (frameBytes command payload).length :=
    ofResult_eq_ok (encodedLen_eq h) id
  rw [encodeCommandFrame, Outcome.lift_bind hlen, run_get_bind]
  by_cases hshort : out.length < (frameBytes command payload).length
  · rw [if_pos hshort, if_pos hshort]
    rfl
  · rw [if_neg hshort, if_neg hshort]
    -- the opening, the escaped payload and the closing byte, one behind the other
    have hframe : Stores (storeAt 0 kissFend >>= fun _ => storeAt 1 command >>= fun _ =>
        encodePayload 2 payload >>= fun offset => storeAt offset kissFend >>= fun _ =>
        pure (offset + 1)) 0 (frameBytes command payload) (2 + (stuff payload).length + 1) :=
      (Stores.storeAt kissFend).bind rfl ((Stores.storeAt command).bind rfl
        ((stores_encodePayload payload 2).bind rfl ((Stores.storeAt kissFend).bind rfl
          (Stores.pure _))))
    have hrun := hframe.run (Nat.le_of_not_lt hshort)
    have hoffset : 2 + (stuff payload).length + 1 = (frameBytes command payload).length := by
      rw [length_frameBytes]
      omega
    rw [hoffset] at hrun
    exact hrun

/-! ## The decoder as a stream machine -/

namespace KissDecoder

variable {capacity : ℕ} {σ : Type}

/-- What the decoder reports of one byte: a complete frame or an error. -/
abbrev Report := Except KissError KissFrameRef

/-- Between two frames. -/
def boundary (capacity : ℕ) : KissDecoder capacity where
  buffer := []
  inFrame := true
  escapePending := false
  length_le := Nat.zero_le capacity

/-- The frame that a `FEND` would end: none while nothing is buffered. -/
def openFrame (decoder : KissDecoder capacity) : Option KissFrameRef :=
  match decoder.buffer with
  | [] => none
  | command :: payload => some ⟨command, payload⟩

/-- A decoded byte is buffered, or does not fit. -/
def buffered (decoder : KissDecoder capacity) (byte : UInt8) :
    KissDecoder capacity × Option Report :=
  if h : decoder.buffer.length = capacity then
    (decoder.reset, some (.error (.frameTooLarge (decoder.buffer.length + 1) capacity)))
  else
    ({ decoder with
      buffer := decoder.buffer ++ [byte]
      length_le := length_concat_le byte h }, none)

/-- The machine behind `push_byte`. -/
def next : Mealy (KissDecoder capacity) UInt8 Report := fun decoder byte =>
  if byte = kissFend then
    if decoder.inFrame then (boundary capacity, decoder.openFrame.map .ok)
    else ({ decoder with inFrame := true, escapePending := false }, none)
  else if !decoder.inFrame then (decoder, none)
  else if decoder.escapePending then
    if byte = kissTfend then buffered { decoder with escapePending := false } kissFend
    else if byte = kissTfesc then buffered { decoder with escapePending := false } kissFesc
    else (decoder.reset, some (.error (.malformedEscape byte)))
  else if byte = kissFesc then ({ decoder with escapePending := true }, none)
  else buffered decoder byte

/-- What a byte's report makes of the call: the callback is asked about a frame. -/
def settle (onFrame : OnFrame σ) (captured : σ) :
    KissDecoder capacity × Option Report → EStateM.Result KissError (KissDecoder capacity × σ) Unit
  | (decoder, none) => .ok () (decoder, captured)
  | (decoder, some (.error error)) => .error error (decoder, captured)
  | (decoder, some (.ok frame)) =>
    match onFrame frame captured with
    | .ok () captured => .ok () (decoder, captured)
    | .error error captured => .error error (decoder, captured)

theorem pushDecodedByte_eq (onFrame : OnFrame σ) (byte : UInt8) (decoder : KissDecoder capacity)
    (captured : σ) :
    pushDecodedByte byte (decoder, captured) = settle onFrame captured (buffered decoder byte) := by
  simp only [pushDecodedByte, buffered]
  by_cases h : decoder.buffer.length = capacity
  · rw [dif_pos h, dif_pos h]
    rfl
  · rw [dif_neg h, dif_neg h]
    rfl

/-- A frame ends: the decoder is at a boundary, whatever the callback returns. -/
theorem finishFrame_bind (onFrame : OnFrame σ) {decoder : KissDecoder capacity}
    (hin : decoder.inFrame = true) (captured : σ) :
    (finishFrame onFrame >>= fun _ => modifyDecoder fun decoder =>
      { decoder with inFrame := true, escapePending := false }) (decoder, captured) =
      settle onFrame captured (boundary capacity, decoder.openFrame.map .ok) := by
  obtain ⟨buffer, inFrame, escapePending, hlength⟩ := decoder
  subst hin
  cases buffer with
  | nil => rfl
  | cons command payload =>
    show EStateM.bind (finishFrame onFrame) _ _ = _
    simp only [EStateM.bind, finishFrame, openFrame, Option.map_some, settle]
    cases onFrame ⟨command, payload⟩ captured with
    | ok _ captured => rfl
    | error error captured => rfl

/-- **The refinement**: pushing a byte is a step of the machine. -/
theorem pushByte_eq (onFrame : OnFrame σ) (byte : UInt8) (decoder : KissDecoder capacity)
    (captured : σ) :
    pushByte onFrame byte (decoder, captured) = settle onFrame captured (next decoder byte) := by
  unfold pushByte next
  rw [run_get_bind]
  simp only
  by_cases hfend : byte = kissFend
  · rw [if_pos hfend, if_pos hfend]
    by_cases hin : decoder.inFrame
    · rw [if_pos hin, if_pos hin]
      exact finishFrame_bind onFrame hin captured
    · rw [if_neg hin, if_neg hin]
      rfl
  · rw [if_neg hfend, if_neg hfend]
    by_cases hin : decoder.inFrame
    · have hout : ¬(!decoder.inFrame) = true := by simp [hin]
      rw [if_neg hout, if_neg hout]
      by_cases hescape : decoder.escapePending
      · rw [if_pos hescape, if_pos hescape]
        -- the escape is taken back before the byte is looked at
        show (if byte = kissTfend then pushDecodedByte kissFend
          else if byte = kissTfesc then pushDecodedByte kissFesc
          else modifyDecoder reset >>= fun _ => throw (.malformedEscape byte) : Feed capacity σ Unit)
            ({ decoder with escapePending := false }, captured) = _
        by_cases htfend : byte = kissTfend
        · rw [if_pos htfend, if_pos htfend, pushDecodedByte_eq onFrame]
        · rw [if_neg htfend, if_neg htfend]
          by_cases htfesc : byte = kissTfesc
          · rw [if_pos htfesc, if_pos htfesc, pushDecodedByte_eq onFrame]
          · rw [if_neg htfesc, if_neg htfesc]
            rfl
      · rw [if_neg hescape, if_neg hescape]
        by_cases hfesc : byte = kissFesc
        · rw [if_pos hfesc, if_pos hfesc]
          rfl
        · rw [if_neg hfesc, if_neg hfesc, pushDecodedByte_eq onFrame]
    · have hout : (!decoder.inFrame) = true := by simp [hin]
      rw [if_pos hout, if_pos hout]
      rfl

/-! ## Chunks -/

variable {onFrame : OnFrame σ} {byte : UInt8} {decoder decoder' : KissDecoder capacity}
  {captured captured' : σ}

/-- A byte that is taken without an error goes on with the rest of the chunk. -/
theorem pushBytes_cons_ok (h : settle onFrame captured (next decoder byte) = .ok () (decoder', captured'))
    (input : List UInt8) :
    pushBytes onFrame (byte :: input) (decoder, captured) =
      pushBytes onFrame input (decoder', captured') := by
  show EStateM.bind (pushByte onFrame byte) (fun _ => pushBytes onFrame input) _ = _
  rw [EStateM.bind, pushByte_eq, h]

/-- An error ends the chunk. -/
theorem pushBytes_cons_error {error : KissError}
    (h : settle onFrame captured (next decoder byte) = .error error (decoder', captured'))
    (input : List UInt8) :
    pushBytes onFrame (byte :: input) (decoder, captured) = .error error (decoder', captured') := by
  show EStateM.bind (pushByte onFrame byte) (fun _ => pushBytes onFrame input) _ = _
  rw [EStateM.bind, pushByte_eq, h]

/-- Whatever the callback returns, the decoder itself takes the machine's step. -/
theorem settle_state (onFrame : OnFrame σ) (captured : σ)
    (step : KissDecoder capacity × Option Report) :
    (∃ captured', settle onFrame captured step = .ok () (step.1, captured')) ∨
      ∃ error captured', settle onFrame captured step = .error error (step.1, captured') := by
  obtain ⟨decoder, _ | error | frame⟩ := step
  · exact .inl ⟨captured, rfl⟩
  · exact .inr ⟨error, captured, rfl⟩
  · cases hcall : onFrame frame captured with
    | ok _ captured' => exact .inl ⟨captured', by rw [settle, hcall]⟩
    | error error captured' => exact .inr ⟨error, captured', by rw [settle, hcall]⟩

/-- A chunk leads the decoder along a part of its bytes: all of them, or those up to an error. -/
theorem pushBytes_state (onFrame : OnFrame σ) (input : List UInt8) (decoder : KissDecoder capacity)
    (captured : σ) :
    ∃ taken, taken <+: input ∧
      (pushBytes onFrame input (decoder, captured)).state.1 = next.final decoder taken := by
  induction input generalizing decoder captured with
  | nil => exact ⟨[], List.nil_prefix, rfl⟩
  | cons byte input ih =>
    rcases settle_state onFrame captured (next decoder byte) with
      ⟨captured', hstep⟩ | ⟨error, captured', hstep⟩
    · obtain ⟨taken, hprefix, hstate⟩ := ih (next decoder byte).1 captured'
      refine ⟨byte :: taken, (List.prefix_cons_inj byte).mpr hprefix, ?_⟩
      rw [pushBytes_cons_ok hstep, hstate, Mealy.final_cons]
    · refine ⟨[byte], (List.prefix_cons_inj byte).mpr List.nil_prefix, ?_⟩
      rw [pushBytes_cons_error hstep]
      rfl

/-- Chunk after chunk. -/
def pushChunks (onFrame : OnFrame σ) (chunks : List (List UInt8)) : Feed capacity σ Unit :=
  chunks.forM (pushBytes onFrame)

/-- While no call fails, the chunks are one stream. -/
theorem pushChunks_eq (onFrame : OnFrame σ) (chunks : List (List UInt8)) :
    (pushChunks onFrame chunks : Feed capacity σ Unit) = pushBytes onFrame chunks.flatten := by
  induction chunks with
  | nil => rfl
  | cons chunk chunks ih =>
    have happend : (pushBytes onFrame (chunk ++ chunks.flatten) : Feed capacity σ Unit) =
        pushBytes onFrame chunk >>= fun _ => pushBytes onFrame chunks.flatten := List.forM_append
    rw [List.flatten_cons, happend, ← ih]
    rfl

/-- A callback that always returns `Ok`; `note` says what it keeps of a frame. -/
def accept (note : σ → KissFrameRef → σ) : OnFrame σ := fun frame => modify (note · frame)

/-- A stream without errors hands over its frames in order. -/
theorem pushBytes_accept {input : List UInt8} {frames : List KissFrameRef}
    (h : next.Runs decoder input (frames.map .ok) decoder') (note : σ → KissFrameRef → σ)
    (captured : σ) :
    pushBytes (accept note) input (decoder, captured) =
      .ok () (decoder', frames.foldl note captured) := by
  obtain ⟨hfinal, hreports⟩ := h
  induction input generalizing decoder captured frames with
  | nil =>
    rw [Mealy.outputs_nil, eq_comm, List.map_eq_nil_iff] at hreports
    subst hreports hfinal
    rfl
  | cons byte input ih =>
    rw [Mealy.final_cons] at hfinal
    rw [Mealy.outputs_cons] at hreports
    obtain ⟨after, report, hnext⟩ : ∃ after report, next decoder byte = (after, report) :=
      ⟨_, _, rfl⟩
    rw [hnext] at hfinal hreports
    match report with
    | none =>
      rw [pushBytes_cons_ok (by rw [hnext]; rfl)]
      exact ih captured hfinal hreports
    | some (.error error) => cases frames <;> simp at hreports
    | some (.ok frame) =>
      obtain ⟨first, frames, rfl⟩ : ∃ first rest, frames = first :: rest := by
        cases frames with
        | nil => simp at hreports
        | cons first rest => exact ⟨first, rest, rfl⟩
      simp only [Option.toList_some, List.cons_append, List.nil_append, List.map_cons,
        List.cons.injEq, Except.ok.injEq] at hreports
      obtain ⟨rfl, hreports⟩ := hreports
      rw [pushBytes_cons_ok (by rw [hnext]; rfl)]
      exact ih (note captured frame) hfinal hreports

/-- A chunk is read to its end, or up to its first error. -/
theorem pushBytes_accept_cases (note : σ → KissFrameRef → σ) (input : List UInt8)
    (decoder : KissDecoder capacity) (captured : σ) :
    (∃ (frames : List KissFrameRef) (after : KissDecoder capacity),
      next.Runs decoder input (frames.map .ok) after ∧
      pushBytes (accept note) input (decoder, captured) =
        .ok () (after, frames.foldl note captured)) ∨
    ∃ (taken rest : List UInt8) (frames : List KissFrameRef) (error : KissError)
      (after : KissDecoder capacity), input = taken ++ rest ∧
      next.Runs decoder taken (frames.map .ok ++ [.error error]) after ∧
      pushBytes (accept note) input (decoder, captured) =
        .error error (after, frames.foldl note captured) := by
  induction input generalizing decoder captured with
  | nil => exact .inl ⟨[], decoder, Mealy.Runs.nil _, rfl⟩
  | cons byte input ih =>
    obtain ⟨after, report, hnext⟩ : ∃ after report, next decoder byte = (after, report) :=
      ⟨_, _, rfl⟩
    match report with
    | none =>
      rw [pushBytes_cons_ok (by rw [hnext]; rfl)]
      obtain ⟨frames, last, hruns, hpush⟩ | ⟨taken, rest, frames, error, last, rfl, hruns, hpush⟩ :=
        ih after captured
      · exact .inl ⟨frames, last, Mealy.Runs.quiet hnext hruns, hpush⟩
      · exact .inr ⟨byte :: taken, rest, frames, error, last, rfl, Mealy.Runs.quiet hnext hruns, hpush⟩
    | some (.error error) =>
      rw [pushBytes_cons_error (by rw [hnext]; rfl)]
      exact .inr ⟨[byte], input, [], error, after, rfl, Mealy.Runs.single hnext, rfl⟩
    | some (.ok frame) =>
      rw [pushBytes_cons_ok (by rw [hnext]; rfl)]
      have hfirst : next.Runs decoder [byte] [.ok frame] after := Mealy.Runs.single hnext
      obtain ⟨frames, last, hruns, hpush⟩ | ⟨taken, rest, frames, error, last, rfl, hruns, hpush⟩ :=
        ih after (note captured frame)
      · exact .inl ⟨frame :: frames, last, hfirst.append hruns, hpush⟩
      · exact .inr ⟨byte :: taken, rest, frame :: frames, error, last, rfl, hfirst.append hruns, hpush⟩

end KissDecoder

end Hyf
