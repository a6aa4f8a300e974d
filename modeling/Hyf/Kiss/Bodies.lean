import Hyf.Kiss.Resync

/-!
# What stands between two `FEND` bytes

A body is what stands behind a `FEND` up to the next one. From `boundary` the decoder reads a body in
one of three ways: it is the escaping of at most as many bytes as the buffer holds, it is such an
escaping with one more `FESC` behind it, or one of its bytes is reported as an error and the rest is
skipped (`runs_body`). A frame is handed over by the `FEND` behind a body, and the second kind of body
is handed over like the first (`deliversWellFormed_iff`).
-/

namespace Hyf

open ByteCodec

/-- Stuffing works byte by byte. -/
theorem stuff_append (first second : List UInt8) :
    stuff (first ++ second) = stuff first ++ stuff second := List.flatMap_append

/-- The last occurrence of a byte. -/
theorem exists_last_occurrence {byte : UInt8} {stream : List UInt8} (h : byte ∈ stream) :
    ∃ before after, stream = before ++ byte :: after ∧ byte ∉ after := by
  obtain ⟨after, before, hreverse, hafter⟩ :=
    List.eq_append_cons_of_mem (List.mem_reverse.mpr h)
  refine ⟨before.reverse, after.reverse, ?_, fun hmem => hafter (List.mem_reverse.mp hmem)⟩
  have hstream := congrArg List.reverse hreverse
  simpa using hstream

/-- Whether an escape is open at the end of a body. -/
def escapeOpen (body : List UInt8) : Bool :=
  body.foldl (fun isOpen byte => !isOpen && byte == kissFesc) false

/-- An escape is open behind an escape byte that is not escaped itself. -/
theorem escapeOpen_concat (body : List UInt8) (byte : UInt8) :
    escapeOpen (body ++ [byte]) = (!escapeOpen body && byte == kissFesc) := by
  rw [escapeOpen, List.foldl_append]
  rfl

/-- Stuffed bytes leave no escape open. -/
theorem escapeOpen_stuff (decoded : List UInt8) : escapeOpen (stuff decoded) = false := by
  induction decoded using List.reverseRecOn with
  | nil => rfl
  | append_singleton decoded byte ih =>
    have hone : stuff [byte] = stuffByte byte := List.flatMap_singleton _ _
    rw [stuff_append, hone, stuffByte]
    split_ifs with hfend hfesc
    · rw [show ([kissFesc, kissTfend] : List UInt8) = [kissFesc] ++ [kissTfend] from rfl,
        ← List.append_assoc, escapeOpen_concat, escapeOpen_concat, ih]
      rfl
    · rw [show ([kissFesc, kissTfesc] : List UInt8) = [kissFesc] ++ [kissTfesc] from rfl,
        ← List.append_assoc, escapeOpen_concat, escapeOpen_concat, ih]
      rfl
    · rw [escapeOpen_concat]
      simp [hfesc]

namespace KissDecoder

variable {capacity : ℕ} {σ : Type}

/-! ## The three ways to read a body -/

/-- Inside a frame, behind a `FESC`. -/
def escaping (buffer : List UInt8) (h : buffer.length ≤ capacity) : KissDecoder capacity :=
  { inside buffer h with escapePending := true }

/-- Before the first frame end nothing is decoded. -/
theorem next_new {byte : UInt8} (hfend : byte ≠ kissFend) :
    next (new capacity) byte = (new capacity, none) := by
  rw [next, if_neg hfend, if_pos (by rfl)]

/-- A stream without a frame end leaves a new decoder as it is. -/
theorem runs_new {stream : List UInt8} (hfend : kissFend ∉ stream) :
    next.Runs (new capacity) stream [] (new capacity) := by
  induction stream with
  | nil => exact .nil _
  | cons byte stream ih =>
    rw [List.mem_cons, not_or] at hfend
    exact .quiet (next_new (Ne.symm hfend.1)) (ih hfend.2)

/-- A decoded byte is buffered, or there is no room for it. -/
theorem buffered_inside_cases {buffer : List UInt8} (hbuffer : buffer.length ≤ capacity)
    (byte : UInt8) :
    (∃ h, buffered (inside buffer hbuffer) byte = (inside (buffer ++ [byte]) h, none)) ∨
      buffer.length = capacity ∧ ∃ error,
        buffered (inside buffer hbuffer) byte = (new capacity, some (.error error)) := by
  by_cases hfull : buffer.length = capacity
  · refine .inr ⟨hfull, .frameTooLarge (buffer.length + 1) capacity, ?_⟩
    rw [buffered, dif_pos (by exact hfull)]
    rfl
  · have hroom : (buffer ++ [byte]).length ≤ capacity := by
      rw [List.length_append, List.length_singleton]
      omega
    exact .inl ⟨hroom, buffered_inside hroom hbuffer⟩

/-- Why a body is rejected: an escape is malformed, unless the bytes before it were too many. -/
def RejectedFor (capacity : ℕ) (body : List UInt8) (error : KissError) : Prop :=
  (∃ byte, error = .malformedEscape byte) ∨
    ∃ decoded, capacity < decoded.length ∧ stuff decoded <+: body

/-- A body stays rejected, whatever follows. -/
theorem RejectedFor.append {body : List UInt8} {error : KissError}
    (h : RejectedFor capacity body error) (rest : List UInt8) :
    RejectedFor capacity (body ++ rest) error := by
  obtain hmalformed | ⟨decoded, hlong, hprefix⟩ := h
  · exact .inl hmalformed
  · exact .inr ⟨decoded, hlong, hprefix.trans (List.prefix_append _ _)⟩

/-- One byte more than the capacity is rejected. -/
theorem rejectedFor_of_full {decoded body : List UInt8} {byte : UInt8} {error : KissError}
    (hfull : decoded.length = capacity) (hbody : body = stuff (decoded ++ [byte])) :
    RejectedFor capacity body error := by
  refine .inr ⟨decoded ++ [byte], ?_, hbody ▸ List.prefix_rfl⟩
  rw [List.length_append, List.length_singleton]
  omega

/-- How the decoder stands behind a body, and what it has reported of it. -/
inductive ReadsBody (capacity : ℕ) (body : List UInt8) : Prop
  | escaped (decoded : List UInt8) (fits : decoded.length ≤ capacity) (body_eq : body = stuff decoded)
      (runs : next.Runs (boundary capacity) body [] (inside decoded fits))
  | loneFesc (decoded : List UInt8) (fits : decoded.length ≤ capacity)
      (body_eq : body = stuff decoded ++ [kissFesc])
      (runs : next.Runs (boundary capacity) body [] (escaping decoded fits))
  | rejected (error : KissError) (cause : RejectedFor capacity body error)
      (runs : next.Runs (boundary capacity) body [.error error] (new capacity))

/-- **A body is read in one of three ways.** -/
theorem readsBody {body : List UInt8} (hfend : kissFend ∉ body) : ReadsBody capacity body := by
  induction body using List.reverseRecOn with
  | nil => exact .escaped [] (Nat.zero_le capacity) rfl (.nil _)
  | append_singleton body byte ih =>
    rw [List.mem_append, List.mem_singleton, not_or] at hfend
    have hbyte : byte ≠ kissFend := Ne.symm hfend.2
    cases ih hfend.1 with
    | escaped decoded fits body_eq runs =>
      by_cases hfesc : byte = kissFesc
      · -- an escape opens
        have hopen : next (inside decoded fits) byte = (escaping decoded fits, none) := by
          rw [hfesc]
          rfl
        exact .loneFesc decoded fits (by rw [body_eq, hfesc]) (runs.append (.single hopen))
      · have hnext : next (inside decoded fits) byte = buffered (inside decoded fits) byte := by
          rw [next, if_neg hbyte, if_neg (by simp [inside]), if_neg (by simp [inside]), if_neg hfesc]
        have hstuff : body ++ [byte] = stuff (decoded ++ [byte]) := by
          rw [stuff_append, ← body_eq, stuff, List.flatMap_singleton, stuffByte, if_neg hbyte,
            if_neg hfesc]
        obtain ⟨fits', hbuffered⟩ | ⟨hfull, error, herror⟩ := buffered_inside_cases fits byte
        · exact .escaped (decoded ++ [byte]) fits' hstuff
            (runs.append (.single (hnext.trans hbuffered)))
        · exact .rejected error (rejectedFor_of_full hfull hstuff)
            (runs.append (.single (hnext.trans herror)))
    | loneFesc decoded fits body_eq runs =>
      -- the byte closes the escape, or it is malformed
      have hclose : ∀ original, stuffByte original = [kissFesc, byte] →
          next (escaping decoded fits) byte = buffered (inside decoded fits) original →
          ReadsBody capacity (body ++ [byte]) := by
        intro original horiginal hnext
        have hstuff : body ++ [byte] = stuff (decoded ++ [original]) := by
          rw [stuff_append, body_eq, List.append_assoc, stuff, stuff, List.flatMap_singleton,
            horiginal]
          rfl
        obtain ⟨fits', hbuffered⟩ | ⟨hfull, error, herror⟩ := buffered_inside_cases fits original
        · exact .escaped (decoded ++ [original]) fits' hstuff
            (runs.append (.single (hnext.trans hbuffered)))
        · exact .rejected error (rejectedFor_of_full hfull hstuff)
            (runs.append (.single (hnext.trans herror)))
      by_cases htfend : byte = kissTfend
      · subst htfend
        exact hclose kissFend rfl rfl
      by_cases htfesc : byte = kissTfesc
      · subst htfesc
        exact hclose kissFesc rfl rfl
      have hmalformed : next (escaping decoded fits) byte =
          (new capacity, some (.error (.malformedEscape byte))) := by
        rw [next, if_neg hbyte, if_neg (by simp [escaping, inside]), if_pos (by rfl), if_neg htfend,
          if_neg htfesc]
        rfl
      exact .rejected _ (.inl ⟨byte, rfl⟩) (runs.append (.single hmalformed))
    | rejected error cause runs =>
      exact .rejected error (cause.append [byte]) (runs.append (.single (next_new hbyte)))

/-! ## Streams -/

/-- The callback that keeps every frame. -/
abbrev keep : OnFrame (List KissFrameRef) := accept List.concat

/-- The decoder and the frames kept after a stream of bytes. An error ends a call, not the stream. -/
def pushStream (stream : List UInt8) (now : KissDecoder capacity × List KissFrameRef) :
    KissDecoder capacity × List KissFrameRef :=
  stream.foldl (fun now byte => (pushByte keep byte now).state) now

/-- The frames that a new decoder delivers along a stream. -/
def delivered (capacity : ℕ) (stream : List UInt8) : List KissFrameRef :=
  (pushStream stream (new capacity, [])).2

/-- The frames among the reports. -/
def framesOf (reports : List Report) : List KissFrameRef := reports.filterMap Except.toOption

/-- The frames of two lists of reports. -/
theorem framesOf_append (first second : List Report) :
    framesOf (first ++ second) = framesOf first ++ framesOf second := List.filterMap_append

/-- A step that keeps all frames adds its own. -/
theorem settle_keep (frames : List KissFrameRef) (step : KissDecoder capacity × Option Report) :
    (settle keep frames step).state = (step.1, frames ++ framesOf step.2.toList) := by
  obtain ⟨decoder, _ | error | frame⟩ := step
  · exact Prod.ext rfl (List.append_nil frames).symm
  · exact Prod.ext rfl (List.append_nil frames).symm
  · exact Prod.ext rfl List.concat_eq_append

/-- A stream leads the decoder along the machine, and the frames that the machine reports are kept. -/
theorem pushStream_eq (stream : List UInt8) (decoder : KissDecoder capacity)
    (frames : List KissFrameRef) : pushStream stream (decoder, frames) =
      (next.final decoder stream, frames ++ framesOf (next.outputs decoder stream)) := by
  induction stream generalizing decoder frames with
  | nil => exact Prod.ext rfl (List.append_nil frames).symm
  | cons byte stream ih =>
    have hcons : pushStream (byte :: stream) (decoder, frames) =
        pushStream stream (pushByte keep byte (decoder, frames)).state := rfl
    rw [hcons, pushByte_eq, settle_keep, ih, Mealy.final_cons, Mealy.outputs_cons, framesOf_append,
      List.append_assoc]

/-- What is delivered are the frames among the reports. -/
theorem delivered_eq (stream : List UInt8) :
    delivered capacity stream = framesOf (next.outputs (new capacity) stream) := by
  rw [delivered, pushStream_eq, List.nil_append]

/-- What is delivered of a stream in two parts. -/
theorem delivered_append (first second : List UInt8) :
    delivered capacity (first ++ second) = delivered capacity first ++
      framesOf (next.outputs (next.final (new capacity) first) second) := by
  rw [delivered_eq, delivered_eq, Mealy.outputs_append, framesOf_append]

/-- A call fails with the error that the machine reports. -/
theorem pushByte_error_iff {stream : List UInt8} {byte : UInt8} {error : KissError} :
    (pushByte keep byte (pushStream stream (new capacity, []))).outcome = .error error ↔
      (next (next.final (new capacity) stream) byte).2 = some (.error error) := by
  rw [pushStream_eq, pushByte_eq]
  obtain ⟨decoder, report⟩ := next (next.final (new capacity) stream) byte
  obtain _ | other | frame := report
  · simp [settle]
  · simp [settle]
  · simp only [settle, accept]
    constructor
    · intro h
      cases h
    · intro h
      cases h

/-- Behind a `FEND` the decoder is at a boundary. -/
theorem final_fend (stream : List UInt8) :
    next.final (new capacity) (stream ++ [kissFend]) = boundary capacity := by
  have hidle : (next.final (new capacity) stream).Idle := Mealy.final_invariant idle_next idle_new stream
  rw [Mealy.final_append, Mealy.final_cons, Mealy.final_nil, next_fend hidle]

/-- A frame end puts the decoder at a boundary. -/
theorem final_fend_append (stream body : List UInt8) :
    next.final (new capacity) (stream ++ kissFend :: body) = next.final (boundary capacity) body := by
  rw [← List.singleton_append, ← List.append_assoc, Mealy.final_append, final_fend]

/-! ## What is delivered -/

/-- A frame is reported by the `FEND` that ends it. -/
theorem of_next_eq_frame {decoder : KissDecoder capacity} {byte : UInt8} {frame : KissFrameRef}
    (h : (next decoder byte).2 = some (.ok frame)) :
    byte = kissFend ∧ decoder.inFrame = true ∧ decoder.openFrame = some frame := by
  have hbuffered : ∀ (decoder : KissDecoder capacity) byte, (buffered decoder byte).2 ≠ some (.ok frame) := by
    intro decoder byte
    rw [buffered]
    split_ifs <;> simp
  by_cases hfend : byte = kissFend
  · rw [next, if_pos hfend] at h
    by_cases hin : decoder.inFrame = true
    · rw [if_pos hin] at h
      refine ⟨hfend, hin, ?_⟩
      cases hopen : decoder.openFrame with
      | none =>
        rw [hopen] at h
        cases h
      | some opened =>
        rw [hopen] at h
        cases h
        rfl
    · rw [if_neg hin] at h
      cases h
  · rw [next, if_neg hfend] at h
    split_ifs at h
    · exact absurd h (hbuffered _ _)
    · exact absurd h (hbuffered _ _)
    · cases h
    · exact absurd h (hbuffered _ _)

/-- Stuffed bytes have no frame end. -/
theorem not_mem_stuff (decoded : List UInt8) : kissFend ∉ stuff decoded := by
  intro hmem
  obtain ⟨byte, -, hbyte⟩ := List.mem_flatMap.mp hmem
  rw [stuffByte] at hbyte
  split_ifs at hbyte with hfend hfesc
  · revert hbyte
    decide
  · revert hbyte
    decide
  · exact hfend (List.mem_singleton.mp hbyte).symm

/-- Inside a frame there was a `FEND`, and the decoder has read the body behind it. -/
theorem exists_body_of_inFrame {stream : List UInt8}
    (h : (next.final (new capacity) stream).inFrame = true) :
    ∃ earlier body, stream = earlier ++ kissFend :: body ∧ kissFend ∉ body ∧
      next.final (new capacity) stream = next.final (boundary capacity) body := by
  by_cases hmem : kissFend ∈ stream
  · obtain ⟨earlier, body, rfl, hbody⟩ := exists_last_occurrence hmem
    exact ⟨earlier, body, rfl, hbody, final_fend_append earlier body⟩
  · rw [(runs_new hmem).final_eq] at h
    cases h

/-- Only well-formed frames are delivered. What a byte delivers is ended by that byte, a `FEND`, and its
body is its escaping; and a body that ends in a lone `FESC` delivers nothing and is reported, as a
malformed escape unless it was too long before. -/
def DeliversWellFormed (capacity : ℕ) (stream : List UInt8) : Prop :=
  (∀ before byte after frame, stream = before ++ byte :: after →
    delivered capacity (before ++ [byte]) = delivered capacity before ++ [frame] →
    byte = kissFend ∧ ∃ earlier body, before = earlier ++ kissFend :: body ∧ kissFend ∉ body ∧
      body = stuff (frame.command :: frame.payload)) ∧
  ∀ earlier body after, stream = earlier ++ kissFend :: (body ++ kissFend :: after) →
    kissFend ∉ body → escapeOpen body = true →
    delivered capacity (earlier ++ kissFend :: (body ++ [kissFend])) =
        delivered capacity (earlier ++ [kissFend]) ∧
      ∃ read byte rest error, body ++ [kissFend] = read ++ byte :: rest ∧
        (pushByte keep byte (pushStream (earlier ++ kissFend :: read) (new capacity, []))).outcome =
          .error error ∧ RejectedFor capacity body error

/-- The frame that a byte delivers is the one that the machine reports. -/
theorem report_of_delivered {before : List UInt8} {byte : UInt8} {frame : KissFrameRef}
    (h : delivered capacity (before ++ [byte]) = delivered capacity before ++ [frame]) :
    (next (next.final (new capacity) before) byte).2 = some (.ok frame) := by
  rw [delivered_append, List.append_cancel_left_eq, Mealy.outputs_cons, Mealy.outputs_nil,
    List.append_nil] at h
  obtain hnone | ⟨error, herror⟩ | ⟨reported, hok⟩ :
      (next (next.final (new capacity) before) byte).2 = none ∨
      (∃ error, (next (next.final (new capacity) before) byte).2 = some (.error error)) ∨
      ∃ reported, (next (next.final (new capacity) before) byte).2 = some (.ok reported) := by
    rcases (next (next.final (new capacity) before) byte).2 with _ | error | reported
    · exact .inl rfl
    · exact .inr (.inl ⟨error, rfl⟩)
    · exact .inr (.inr ⟨reported, rfl⟩)
  · rw [hnone] at h
    cases h
  · rw [herror] at h
    cases h
  · rw [hok] at h ⊢
    cases h
    rfl

/-- What the `FEND` behind a body delivers, when the body has reported nothing else. -/
theorem delivered_body (earlier : List UInt8) {body : List UInt8} {reports : List Report}
    {decoder : KissDecoder capacity} (hruns : next.Runs (boundary capacity) body reports decoder)
    (hidle : decoder.Idle) :
    delivered capacity (earlier ++ kissFend :: (body ++ [kissFend])) =
      delivered capacity (earlier ++ [kissFend]) ++ framesOf reports ++ decoder.openFrame.toList := by
  have hstream : earlier ++ kissFend :: (body ++ [kissFend]) =
      (earlier ++ [kissFend]) ++ (body ++ [kissFend]) := by simp
  have hopen : framesOf (decoder.openFrame.map Except.ok).toList = decoder.openFrame.toList := by
    cases decoder.openFrame <;> rfl
  rw [hstream, delivered_append, final_fend, Mealy.outputs_append, hruns.outputs_eq, hruns.final_eq,
    Mealy.outputs_cons, Mealy.outputs_nil, List.append_nil, next_fend hidle, framesOf_append, hopen,
    List.append_assoc]

/-- **Deliveries are well formed exactly without a lone `FESC` before a `FEND`.** -/
theorem deliversWellFormed_iff (capacity : ℕ) (stream : List UInt8) :
    DeliversWellFormed capacity stream ↔ ∀ earlier decoded after, decoded.length ≤ capacity →
      stream ≠ earlier ++ kissFend :: (stuff decoded ++ [kissFesc] ++ kissFend :: after) := by
  constructor
  · rintro ⟨-, hlone⟩ earlier decoded after hfits rfl
    have hfend : kissFend ∉ stuff decoded ++ [kissFesc] := by
      rw [List.mem_append, not_or]
      exact ⟨not_mem_stuff decoded, by decide⟩
    have hopen : escapeOpen (stuff decoded ++ [kissFesc]) = true := by
      rw [escapeOpen_concat, escapeOpen_stuff]
      rfl
    obtain ⟨-, read, byte, rest, error, hbody, herror, -⟩ := hlone earlier _ after rfl hfend hopen
    rw [pushByte_error_iff, final_fend_append] at herror
    -- the body itself reports nothing, and a `FEND` never reports an error
    have hruns := (@runs_stuff capacity [] decoded hfits (Nat.zero_le capacity)).append
      (.single (rfl : next (inside decoded hfits) kissFesc = (escaping decoded hfits, none)))
    have houtputs := (hruns.append (.single (next_fend (idle_of_inFrame rfl)))).outputs_eq
    have hmem : (.error error : Report) ∈ next.outputs (boundary capacity)
        (stuff decoded ++ [kissFesc] ++ [kissFend]) :=
      (Mealy.mem_outputs next).mpr ⟨read, byte, rest, hbody, herror⟩
    have hboundary : inside [] (Nat.zero_le capacity) = boundary capacity := rfl
    rw [hboundary] at houtputs
    rw [houtputs] at hmem
    simp at hmem
  · intro hnone
    constructor
    · intro before byte after frame hstream hdelivered
      obtain ⟨rfl, hin, hframe⟩ := of_next_eq_frame (report_of_delivered hdelivered)
      obtain ⟨earlier, body, rfl, hbody, hfinal⟩ := exists_body_of_inFrame hin
      refine ⟨rfl, earlier, body, rfl, hbody, ?_⟩
      rw [hfinal] at hframe hin
      cases @readsBody capacity body hbody with
      | escaped decoded fits body_eq runs =>
        rw [runs.final_eq] at hframe
        obtain _ | ⟨command, payload⟩ := decoded
        · cases hframe
        · cases hframe
          exact body_eq
      | loneFesc decoded fits body_eq runs =>
        refine absurd ?_ (hnone earlier decoded after fits)
        rw [hstream, body_eq, List.append_assoc, List.cons_append]
      | rejected error cause runs =>
        rw [runs.final_eq] at hin
        cases hin
    · rintro earlier body after rfl hbody hopen
      cases @readsBody capacity body hbody with
      | escaped decoded fits body_eq runs =>
        rw [body_eq, escapeOpen_stuff] at hopen
        cases hopen
      | loneFesc decoded fits body_eq runs =>
        exact absurd (by rw [body_eq]) (hnone earlier decoded after fits)
      | rejected error cause runs =>
        constructor
        · rw [delivered_body earlier runs idle_new]
          simp [framesOf, Except.toOption, openFrame, new]
        · have hmem : (.error error : Report) ∈ next.outputs (boundary capacity) body := by
            rw [runs.outputs_eq]
            exact List.mem_cons_self
          obtain ⟨read, byte, rest, rfl, hreport⟩ := (Mealy.mem_outputs next).mp hmem
          refine ⟨read, byte, rest ++ [kissFend], error, by simp, ?_, cause⟩
          rw [pushByte_error_iff, final_fend_append]
          exact hreport

/-- A `FEND`, a data command, a `FESC` and a `FEND`: the frame is delivered as if it were complete. -/
theorem lone_fesc_is_delivered :
    delivered 4 [kissFend, kissCmdData, kissFesc, kissFend] = [⟨kissCmdData, []⟩] ∧
      ¬DeliversWellFormed 4 [kissFend, kissCmdData, kissFesc, kissFend] := by
  refine ⟨by decide, fun h => ?_⟩
  refine (deliversWellFormed_iff 4 _).mp h [] [kissCmdData] [] (by decide) ?_
  decide

end KissDecoder

end Hyf
