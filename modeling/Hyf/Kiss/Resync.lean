import Hyf.Kiss.KissTheorems

/-!
# Resynchronisation

Every state that the decoder can reach is `Idle`: outside a frame it has nothing buffered. From such
a state the bytes of an encoded frame lead to `boundary` and report that frame, after at most the one
frame that was open before. This needs no assumption about how the decoder got where it is.
-/

namespace Hyf

open ByteCodec

namespace KissDecoder

variable {capacity : ℕ} {σ : Type}

/-! ## What is kept -/

/-- Outside a frame nothing is buffered and no escape is open. -/
def Idle (decoder : KissDecoder capacity) : Prop :=
  decoder.inFrame = false → decoder.buffer = [] ∧ decoder.escapePending = false

theorem idle_new : (new capacity).Idle := fun _ => ⟨rfl, rfl⟩

theorem idle_boundary : (boundary capacity).Idle := fun _ => ⟨rfl, rfl⟩

theorem idle_of_inFrame {decoder : KissDecoder capacity} (h : decoder.inFrame = true) :
    decoder.Idle := by
  intro hout
  rw [h] at hout
  cases hout

/-- Buffering a byte stays inside the frame or leaves it empty. -/
theorem idle_buffered (decoder : KissDecoder capacity) (h : decoder.inFrame = true) (byte : UInt8) :
    (buffered decoder byte).1.Idle := by
  unfold buffered
  by_cases hfull : decoder.buffer.length = capacity
  · rw [dif_pos hfull]
    exact fun _ => ⟨rfl, rfl⟩
  · rw [dif_neg hfull]
    exact idle_of_inFrame h

theorem idle_next (decoder : KissDecoder capacity) (byte : UInt8) (h : decoder.Idle) :
    (next decoder byte).1.Idle := by
  unfold next
  by_cases hfend : byte = kissFend
  · rw [if_pos hfend]
    by_cases hin : decoder.inFrame
    · rw [if_pos hin]
      exact idle_boundary
    · rw [if_neg hin]
      exact idle_of_inFrame rfl
  · rw [if_neg hfend]
    by_cases hin : decoder.inFrame
    · rw [if_neg (by simp [hin])]
      split_ifs
      · exact idle_buffered { decoder with escapePending := false } hin _
      · exact idle_buffered { decoder with escapePending := false } hin _
      · exact fun _ => ⟨rfl, rfl⟩
      · exact idle_of_inFrame hin
      · exact idle_buffered _ hin _
    · rw [if_pos (by simp [hin])]
      exact h

/-- The states that any chunks lead to, with any callbacks. -/
inductive Reachable : KissDecoder capacity → Prop
  | new : Reachable (new capacity)
  | reset {decoder : KissDecoder capacity} (h : Reachable decoder) : Reachable decoder.reset
  | push {decoder : KissDecoder capacity} (h : Reachable decoder) {σ : Type} (onFrame : OnFrame σ)
      (chunk : List UInt8) (captured : σ) :
      Reachable (pushBytes onFrame chunk (decoder, captured)).state.1

theorem Reachable.idle {decoder : KissDecoder capacity} (h : Reachable decoder) : decoder.Idle := by
  induction h with
  | new => exact idle_new
  | reset _ _ => exact idle_new
  | push _ onFrame chunk captured ih =>
    obtain ⟨taken, -, hstate⟩ := pushBytes_state onFrame chunk _ captured
    rw [hstate]
    exact Mealy.final_invariant idle_next ih taken

/-! ## One frame -/

/-- Inside a frame, with the bytes decoded so far. -/
def inside (buffer : List UInt8) (h : buffer.length ≤ capacity) : KissDecoder capacity where
  buffer := buffer
  inFrame := true
  escapePending := false
  length_le := h

theorem buffered_inside {buffer : List UInt8} {byte : UInt8}
    (h : (buffer ++ [byte]).length ≤ capacity) (hbuffer : buffer.length ≤ capacity) :
    buffered (inside buffer hbuffer) byte = (inside (buffer ++ [byte]) h, none) := by
  rw [List.length_append, List.length_singleton] at h
  have hroom : (inside buffer hbuffer).buffer.length ≠ capacity := by
    show buffer.length ≠ capacity
    omega
  rw [buffered, dif_neg hroom]
  rfl

/-- An unescaped byte is buffered as it is. -/
theorem next_inside {buffer : List UInt8} {byte : UInt8} (hfend : byte ≠ kissFend)
    (hfesc : byte ≠ kissFesc) (h : (buffer ++ [byte]).length ≤ capacity)
    (hbuffer : buffer.length ≤ capacity) :
    next (inside buffer hbuffer) byte = (inside (buffer ++ [byte]) h, none) := by
  unfold next
  rw [if_neg hfend, if_neg (by simp [inside]), if_neg (by simp [inside]), if_neg hfesc,
    buffered_inside h]

/-- What one payload byte is sent as puts that byte into the buffer. -/
theorem runs_stuffByte {buffer : List UInt8} (byte : UInt8)
    (h : (buffer ++ [byte]).length ≤ capacity) (hbuffer : buffer.length ≤ capacity) :
    next.Runs (inside buffer hbuffer) (stuffByte byte) [] (inside (buffer ++ [byte]) h) := by
  -- the first byte of an escape opens it, the second stands for the byte
  have hopen : next (inside buffer hbuffer) kissFesc =
      ({ inside buffer hbuffer with escapePending := true }, none) := by
    rfl
  unfold stuffByte
  by_cases hfend : byte = kissFend
  · subst hfend
    rw [if_pos rfl]
    exact Mealy.Runs.quiet hopen (Mealy.Runs.quiet (buffered_inside h hbuffer) (Mealy.Runs.nil _))
  · rw [if_neg hfend]
    by_cases hfesc : byte = kissFesc
    · subst hfesc
      rw [if_pos rfl]
      exact Mealy.Runs.quiet hopen (Mealy.Runs.quiet (buffered_inside h hbuffer) (Mealy.Runs.nil _))
    · rw [if_neg hfesc]
      exact Mealy.Runs.quiet (next_inside hfend hfesc h hbuffer) (Mealy.Runs.nil _)

/-- What a payload is sent as puts the payload into the buffer. -/
theorem runs_stuff {buffer : List UInt8} (payload : List UInt8)
    (h : (buffer ++ payload).length ≤ capacity) (hbuffer : buffer.length ≤ capacity) :
    next.Runs (inside buffer hbuffer) (stuff payload) [] (inside (buffer ++ payload) h) := by
  induction payload generalizing buffer with
  | nil =>
    simp only [List.append_nil]
    exact Mealy.Runs.nil _
  | cons byte payload ih =>
    have hone : (buffer ++ [byte]).length ≤ capacity := by
      simp only [List.length_append, List.length_cons, List.length_nil] at h ⊢
      omega
    have hrest : (buffer ++ [byte] ++ payload).length ≤ capacity := by
      rwa [List.append_assoc]
    have hruns := (runs_stuffByte byte hone hbuffer).append (ih hrest hone)
    rw [stuff_cons]
    simpa only [List.append_assoc, List.singleton_append, List.nil_append] using hruns

/-- A `FEND` ends the open frame, if there is one, and starts the next. -/
theorem next_fend {decoder : KissDecoder capacity} (h : decoder.Idle) :
    next decoder kissFend = (boundary capacity, decoder.openFrame.map .ok) := by
  unfold next
  rw [if_pos rfl]
  by_cases hin : decoder.inFrame
  · rw [if_pos hin]
  · rw [if_neg hin]
    obtain ⟨buffer, inFrame, escapePending, hlength⟩ := decoder
    simp only [Bool.not_eq_true] at hin
    obtain ⟨rfl, rfl⟩ := h hin
    rfl

/-- The bytes of a frame up to its closing `FEND`: only the frame that was open is reported. -/
theorem runs_frame_body {decoder : KissDecoder capacity} (h : decoder.Idle) {command : UInt8}
    (hfend : command ≠ kissFend) (hfesc : command ≠ kissFesc) {payload : List UInt8}
    (hfit : (command :: payload).length ≤ capacity) :
    next.Runs decoder ([kissFend, command] ++ stuff payload)
      (decoder.openFrame.toList.map .ok) (inside (command :: payload) hfit) := by
  have hone : ([command] : List UInt8).length ≤ capacity := by
    simp only [List.length_cons] at hfit
    simp only [List.length_singleton]
    omega
  have hcommand : next (boundary capacity) command = (inside [command] hone, none) :=
    next_inside hfend hfesc hone (Nat.zero_le capacity)
  have hruns := (Mealy.Runs.single (next_fend h)).append
    (Mealy.Runs.quiet hcommand (runs_stuff payload hfit hone))
  rw [List.append_nil] at hruns
  have hreports : decoder.openFrame.toList.map Except.ok =
      (decoder.openFrame.map (Except.ok : KissFrameRef → Report)).toList := by
    cases decoder.openFrame <;> rfl
  rw [hreports]
  exact hruns

/-- **One frame**, from any reachable state: it is reported on its last byte, behind at most the frame
that was open. -/
theorem runs_frameBytes {decoder : KissDecoder capacity} (h : decoder.Idle) {command : UInt8}
    (hfend : command ≠ kissFend) (hfesc : command ≠ kissFesc) {payload : List UInt8}
    (hfit : 1 + payload.length ≤ capacity) :
    next.Runs decoder (frameBytes command payload)
      ((decoder.openFrame.toList ++ [KissFrameRef.mk command payload]).map .ok)
      (boundary capacity) := by
  have hfit' : (command :: payload).length ≤ capacity := by
    rw [List.length_cons]
    omega
  have hclose : next (inside (command :: payload) hfit') kissFend =
      (boundary capacity, some (.ok ⟨command, payload⟩)) := rfl
  have hruns := (runs_frame_body h hfend hfesc hfit').append (Mealy.Runs.single hclose)
  rw [List.map_append]
  exact hruns

/-! ## The round trip -/

/-- However `bytes` is cut into chunks, and whatever a callback that always returns `Ok` keeps of the
frames: no call fails, and exactly `frames` are handed over, in order. -/
def Delivers (decoder : KissDecoder capacity) (bytes : List UInt8) (frames : List KissFrameRef)
    (decoder' : KissDecoder capacity) : Prop :=
  ∀ {σ : Type} (note : σ → KissFrameRef → σ) (captured : σ) (chunks : List (List UInt8)),
    chunks.flatten = bytes →
      pushChunks (accept note) chunks (decoder, captured) =
        .ok () (decoder', frames.foldl note captured)

theorem delivers_of_runs {decoder decoder' : KissDecoder capacity} {bytes : List UInt8}
    {frames : List KissFrameRef} (h : next.Runs decoder bytes (frames.map .ok) decoder') :
    decoder.Delivers bytes frames decoder' := by
  intro σ note captured chunks hchunks
  rw [pushChunks_eq, hchunks, pushBytes_accept h]

end KissDecoder

/-- `encode_command_frame` turns the frame into `bytes`: it writes exactly these bytes, `encoded_len`
many and within `max_encoded_command_len`, or, into a slice that is too short, nothing. -/
structure EncodesTo (command : UInt8) (payload bytes : List UInt8) : Prop where
  encodedLen_eq : encodedLen payload = .ok bytes.length
  length_le_max : ∃ maximum, maxEncodedCommandLen payload.length = .ok maximum ∧
    bytes.length ≤ maximum
  writes : ∀ out, bytes.length ≤ out.length →
    encodeCommandFrame command payload out = .ok bytes.length (bytes ++ out.drop bytes.length)
  short : ∀ out, out.length < bytes.length →
    encodeCommandFrame command payload out =
      .error (.error (.outputBufferTooShort out.length bytes.length)) out

/-- A payload that fits into a decoder has an encoding: an array has less than `2 ^ 63` bytes, so the
length arithmetic does not overflow. -/
theorem encodesTo_frameBytes {capacity : ℕ} (hcapacity : capacity < 2 ^ 63) (command : UInt8)
    {payload : List UInt8} (hfit : 1 + payload.length ≤ capacity) :
    EncodesTo command payload (frameBytes command payload) := by
  have hstuff := length_stuff_le payload
  have hmax : payload.length * 2 + 3 < addressLimit := by
    rw [addressLimit]
    omega
  have hle : (frameBytes command payload).length ≤ payload.length * 2 + 3 := by
    rw [length_frameBytes]
    omega
  have hlimit : (frameBytes command payload).length < addressLimit := by omega
  refine ⟨encodedLen_eq hlimit, ⟨_, maxEncodedCommandLen_eq hmax, hle⟩, ?_, ?_⟩
  · intro out hout
    rw [encodeCommandFrame_eq hlimit, if_neg (Nat.not_lt.mpr hout)]
  · intro out hout
    rw [encodeCommandFrame_eq hlimit, if_pos hout]

namespace KissDecoder

/-- **KISS round trip with resynchronisation.** After any garbage, the bytes of an encoded frame are
decoded without an error, however they are cut. Up to the last byte only the frame that was left open
is handed over, if there is one; the last byte hands over the encoded frame. A further encoded frame
then yields exactly itself. -/
theorem kissFrame_roundTrip {capacity : ℕ} (hcapacity : capacity < 2 ^ 63)
    {decoder : KissDecoder capacity} (h : decoder.Reachable) {command : UInt8}
    (hfend : command ≠ kissFend) (hfesc : command ≠ kissFesc) {payload : List UInt8}
    (hfit : 1 + payload.length ≤ capacity) :
    ∃ encoded, EncodesTo command payload encoded ∧
      ∃ garbage : List KissFrameRef, garbage = decoder.openFrame.toList ∧ garbage.length ≤ 1 ∧
      ∃ last after : KissDecoder capacity,
        decoder.Delivers encoded.dropLast garbage last ∧
        decoder.Delivers encoded (garbage ++ [⟨command, payload⟩]) after ∧
        ∀ command' payload', command' ≠ kissFend → command' ≠ kissFesc →
          1 + payload'.length ≤ capacity →
          ∃ encoded', EncodesTo command' payload' encoded' ∧
            after.Delivers encoded' [⟨command', payload'⟩] after := by
  have hfit' : (command :: payload).length ≤ capacity := by
    rw [List.length_cons]
    omega
  refine ⟨frameBytes command payload, encodesTo_frameBytes hcapacity command hfit,
    decoder.openFrame.toList, rfl, Option.length_toList_le, inside (command :: payload) hfit',
    boundary capacity, ?_, ?_, ?_⟩
  · rw [frameBytes, List.dropLast_concat]
    exact delivers_of_runs (runs_frame_body h.idle hfend hfesc hfit')
  · exact delivers_of_runs (runs_frameBytes h.idle hfend hfesc hfit)
  · intro command' payload' hfend' hfesc' hfit'
    exact ⟨_, encodesTo_frameBytes hcapacity command' hfit',
      delivers_of_runs (runs_frameBytes idle_boundary hfend' hfesc' hfit')⟩

/-- A decoder after a malformed escape and an unfinished frame. -/
def garbledDecoder : KissDecoder 4 :=
  (pushBytes (accept List.concat) [0x01, 0xc0, 0x05]
    ((pushBytes (accept List.concat) [0xc0, 0xdb, 0x00, 0x07] (new 4, [])).state.1, [])).state.1

theorem reachable_garbledDecoder : garbledDecoder.Reachable :=
  .push (.push .new _ _ _) _ _ _

/-- A frame with an escaped byte comes out behind the unfinished frame. -/
theorem kissFrame_roundTrip_afterGarbage :
    ∃ encoded, EncodesTo kissCmdData [0xc0, 0x01] encoded ∧
      ∃ last after : KissDecoder 4,
        garbledDecoder.Delivers encoded.dropLast [⟨0x05, []⟩] last ∧
        garbledDecoder.Delivers encoded [⟨0x05, []⟩, ⟨kissCmdData, [0xc0, 0x01]⟩] after ∧
        ∀ command' payload', command' ≠ kissFend → command' ≠ kissFesc →
          1 + payload'.length ≤ 4 →
          ∃ encoded', EncodesTo command' payload' encoded' ∧
            after.Delivers encoded' [⟨command', payload'⟩] after := by
  have hopen : garbledDecoder.openFrame.toList = [⟨0x05, []⟩] := by decide +kernel
  obtain ⟨encoded, hencoded, garbage, rfl, -, last, after, hlast, hafter, hnext⟩ :=
    @kissFrame_roundTrip 4 (by decide) garbledDecoder reachable_garbledDecoder kissCmdData (by decide)
      (by decide) [0xc0, 0x01] (by decide)
  rw [hopen] at hlast hafter
  exact ⟨encoded, hencoded, last, after, hlast, hafter, hnext⟩

end KissDecoder

end Hyf
