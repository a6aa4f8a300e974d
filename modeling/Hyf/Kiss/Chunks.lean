import Hyf.Kiss.Bodies

/-!
# Chunks

An error ends a chunk, and the bytes of the chunk behind it are never read. How a stream is cut into
chunks therefore makes no difference exactly when nothing of value follows an error: no later frame is
delivered, and the decoder ends outside a frame again.
-/

namespace Hyf

namespace KissDecoder

variable {capacity : ℕ}

/-! ## Chunk after chunk -/

/-- The calls of `push_bytes` for some chunks, each made whatever the one before returned. -/
def pushAll (chunks : List (List UInt8)) (now : KissDecoder capacity × List KissFrameRef) :
    KissDecoder capacity × List KissFrameRef :=
  chunks.foldl (fun now chunk => (pushBytes keep chunk now).state) now

theorem pushStream_append (first second : List UInt8)
    (now : KissDecoder capacity × List KissFrameRef) :
    pushStream (first ++ second) now = pushStream second (pushStream first now) := List.foldl_append

theorem pushStream_cons (byte : UInt8) (stream : List UInt8)
    (now : KissDecoder capacity × List KissFrameRef) :
    pushStream (byte :: stream) now = pushStream stream (pushByte keep byte now).state := rfl

/-- The callback that keeps every frame does not fail. -/
theorem error_of_settle_keep {frames : List KissFrameRef}
    {step : KissDecoder capacity × Option Report} {error : KissError}
    {now : KissDecoder capacity × List KissFrameRef}
    (h : settle keep frames step = .error error now) : step.2 = some (.error error) := by
  obtain ⟨decoder, _ | reported | frame⟩ := step
  · cases h
  · cases h
    rfl
  · cases h

/-- A chunk is read as a whole, or up to its first error. -/
theorem pushBytes_keep_state (chunk : List UInt8) (decoder : KissDecoder capacity)
    (frames : List KissFrameRef) :
    (pushBytes keep chunk (decoder, frames)).state = pushStream chunk (decoder, frames) ∨
      ∃ read byte rest error, chunk = read ++ byte :: rest ∧
        (next (next.final decoder read) byte).2 = some (.error error) ∧
        (pushBytes keep chunk (decoder, frames)).state =
          pushStream (read ++ [byte]) (decoder, frames) := by
  induction chunk generalizing decoder frames with
  | nil => exact .inl rfl
  | cons byte chunk ih =>
    have hbyte := pushByte_eq keep byte decoder frames
    obtain ⟨frames', hstep⟩ | ⟨error, frames', hstep⟩ := settle_state keep frames (next decoder byte)
    · rw [hstep] at hbyte
      rw [pushBytes_cons_ok hstep, pushStream_cons, hbyte]
      obtain hall | ⟨read, byte', rest, error, rfl, herror, hstate⟩ :=
        ih (next decoder byte).1 frames'
      · exact .inl hall
      · refine .inr ⟨byte :: read, byte', rest, error, rfl, herror, ?_⟩
        rw [hstate, List.cons_append, pushStream_cons, hbyte]
        rfl
    · refine .inr ⟨[], byte, chunk, error, rfl, error_of_settle_keep hstep, ?_⟩
      rw [pushBytes_cons_error hstep, List.nil_append, pushStream_cons, hbyte, hstep]
      rfl

/-- Byte by byte nothing is lost. -/
theorem pushAll_singletons (stream : List UInt8) (now : KissDecoder capacity × List KissFrameRef) :
    pushAll (stream.map fun byte => [byte]) now = pushStream stream now := by
  induction stream generalizing now with
  | nil => rfl
  | cons byte stream ih =>
    have hone : (pushBytes keep [byte] now).state = (pushByte keep byte now).state := by
      show (EStateM.bind (pushByte keep byte) (fun _ => pure ()) now).state = _
      rw [EStateM.bind]
      cases pushByte keep byte now <;> rfl
    rw [List.map_cons, pushStream_cons, ← hone, ← ih]
    rfl

theorem pushAll_append (first second : List (List UInt8))
    (now : KissDecoder capacity × List KissFrameRef) :
    pushAll (first ++ second) now = pushAll second (pushAll first now) := List.foldl_append

/-! ## What may be lost -/

/-- A stream that delivers no frame and leaves the decoder as if it were new. -/
def AddsNothing (decoder : KissDecoder capacity) (stream : List UInt8) : Prop :=
  framesOf (next.outputs decoder stream) = [] ∧ next.final decoder stream = new capacity

theorem AddsNothing.pushStream {decoder : KissDecoder capacity} {stream : List UInt8}
    (h : AddsNothing decoder stream) (frames : List KissFrameRef) :
    pushStream stream (decoder, frames) = (new capacity, frames) := by
  rw [pushStream_eq, h.1, h.2, List.append_nil]

/-- From the first `FEND` on it makes no difference where the decoder was. -/
theorem outputs_fend {decoder : KissDecoder capacity} (h : decoder.Idle) (garbage stream : List UInt8) :
    ∃ reports, next.outputs decoder (garbage ++ kissFend :: stream) =
        reports ++ next.outputs (boundary capacity) stream ∧
      next.final decoder (garbage ++ kissFend :: stream) = next.final (boundary capacity) stream := by
  have hidle : (next.final decoder garbage).Idle := Mealy.final_invariant idle_next h garbage
  rw [Mealy.outputs_append, Mealy.outputs_cons, Mealy.final_append, Mealy.final_cons, next_fend hidle]
  exact ⟨_, (List.append_assoc _ _ _).symm, rfl⟩

/-- If a stream adds nothing, none of its ends adds anything. -/
theorem AddsNothing.suffix {decoder : KissDecoder capacity} (h : decoder.Idle)
    {first second : List UInt8} (hnothing : AddsNothing decoder (first ++ second)) :
    AddsNothing (new capacity) second := by
  have hidle : (next.final decoder first).Idle := Mealy.final_invariant idle_next h first
  by_cases hmem : kissFend ∈ second
  · obtain ⟨garbage, stream, rfl, hgarbage⟩ := List.eq_append_cons_of_mem hmem
    obtain ⟨hframes, hfinal⟩ := hnothing
    rw [Mealy.outputs_append, framesOf_append, List.append_eq_nil_iff] at hframes
    rw [Mealy.final_append] at hfinal
    obtain ⟨reports, houtputs, hfinal'⟩ := outputs_fend hidle garbage stream
    rw [houtputs, framesOf_append, List.append_eq_nil_iff] at hframes
    have hnew := @runs_new capacity _ hgarbage
    constructor
    · rw [Mealy.outputs_append, hnew.outputs_eq, hnew.final_eq, Mealy.outputs_cons,
        next_fend idle_new]
      exact hframes.2.2
    · obtain ⟨-, -, hsame⟩ := outputs_fend (@idle_new capacity) garbage stream
      rw [hsame, ← hfinal', hfinal]
  · have hnew := @runs_new capacity _ hmem
    exact ⟨by rw [hnew.outputs_eq]; rfl, hnew.final_eq⟩

/-- Behind every error of the stream there is nothing to lose. -/
def Safe (decoder : KissDecoder capacity) (stream : List UInt8) : Prop :=
  ∀ read byte rest error, stream = read ++ byte :: rest →
    (next (next.final decoder read) byte).2 = some (.error error) → AddsNothing (new capacity) rest

theorem Safe.append {decoder : KissDecoder capacity} {first second : List UInt8}
    (h : Safe decoder (first ++ second)) : Safe (next.final decoder first) second := by
  rintro read byte rest error rfl herror
  refine h (first ++ read) byte rest error (by simp) ?_
  rwa [Mealy.final_append]

theorem AddsNothing.safe {first second : List UInt8}
    (h : AddsNothing (new capacity) (first ++ second)) : Safe (new capacity) second := by
  rintro read byte rest error rfl -
  have hsplit : first ++ (read ++ byte :: rest) = (first ++ read ++ [byte]) ++ rest := by simp
  exact (hsplit ▸ h).suffix idle_new

/-- An error resets the decoder. -/
theorem next_of_error {decoder : KissDecoder capacity} {byte : UInt8} {error : KissError}
    (h : (next decoder byte).2 = some (.error error)) : (next decoder byte).1 = new capacity := by
  have hbuffered : ∀ (decoder : KissDecoder capacity) byte,
      (buffered decoder byte).2 = some (.error error) → (buffered decoder byte).1 = new capacity := by
    intro decoder byte h
    rw [buffered] at h ⊢
    split_ifs at h ⊢
    · rfl
  rw [next] at h ⊢
  by_cases hfend : byte = kissFend
  · rw [if_pos hfend] at h
    split_ifs at h
    · cases hopen : decoder.openFrame <;> rw [hopen] at h <;> cases h
  · rw [if_neg hfend] at h ⊢
    split_ifs at h ⊢
    · exact hbuffered _ _ h
    · exact hbuffered _ _ h
    · rfl
    · exact hbuffered _ _ h

/-- **Where nothing is lost, chunks are one stream.** -/
theorem pushAll_eq (chunks : List (List UInt8)) {decoder : KissDecoder capacity} (h : decoder.Idle)
    (frames : List KissFrameRef) (hsafe : Safe decoder chunks.flatten) :
    pushAll chunks (decoder, frames) = pushStream chunks.flatten (decoder, frames) := by
  induction chunks generalizing decoder frames with
  | nil => rfl
  | cons chunk chunks ih =>
    have hcons : pushAll (chunk :: chunks) (decoder, frames) =
        pushAll chunks (pushBytes keep chunk (decoder, frames)).state := rfl
    rw [List.flatten_cons] at hsafe
    rw [hcons, List.flatten_cons, pushStream_append]
    obtain hall | ⟨read, byte, rest, error, rfl, herror, hstate⟩ :=
      pushBytes_keep_state chunk decoder frames
    · rw [hall, pushStream_eq chunk]
      exact ih (Mealy.final_invariant idle_next h chunk) _ hsafe.append
    · -- the rest of the chunk is lost, and it would have added nothing
      have hnothing : AddsNothing (new capacity) (rest ++ chunks.flatten) :=
        hsafe read byte (rest ++ chunks.flatten) error (by simp) herror
      have hreset : next.final decoder (read ++ [byte]) = new capacity := by
        rw [Mealy.final_append, Mealy.final_cons, Mealy.final_nil, next_of_error herror]
      have hread : pushStream (read ++ byte :: rest) (decoder, frames) =
          pushStream rest (pushStream (read ++ [byte]) (decoder, frames)) := by
        rw [← pushStream_append, List.append_assoc]
        rfl
      rw [hstate, hread, ← pushStream_append, pushStream_eq (read ++ [byte]), hreset,
        hnothing.pushStream, ih idle_new _ hnothing.safe,
        (hnothing.suffix idle_new).pushStream]

/-- How a stream is cut makes no difference: to the frames, nor to the live bytes and the flags of the
decoder at the end. -/
def ChunkIndependent (capacity : ℕ) (stream : List UInt8) : Prop :=
  ∀ chunks chunks' : List (List UInt8), chunks.flatten = stream → chunks'.flatten = stream →
    pushAll chunks (new capacity, []) = pushAll chunks' (new capacity, [])

theorem chunkIndependent_iff_safe (stream : List UInt8) :
    ChunkIndependent capacity stream ↔ Safe (new capacity) stream := by
  constructor
  · rintro hindependent read byte rest error rfl herror
    have hflatten : ∀ stream : List UInt8, (stream.map fun byte => [byte]).flatten = stream := by
      intro stream
      induction stream with
      | nil => rfl
      | cons byte stream ih => rw [List.map_cons, List.flatten_cons, ih, List.singleton_append]
    -- byte by byte, and the error with all that follows in one chunk
    have hsame := hindependent ((read ++ byte :: rest).map fun byte => [byte])
      ((read.map fun byte => [byte]) ++ [byte :: rest]) (hflatten _) (by
        rw [List.flatten_append, hflatten, List.flatten_singleton])
    have hnext : next (next.final (new capacity) read) byte = (new capacity, some (.error error)) :=
      Prod.ext (next_of_error herror) herror
    have hlost : pushAll [byte :: rest] (pushStream read (new capacity, [])) =
        (new capacity, delivered capacity read) := by
      rw [pushStream_eq, List.nil_append, ← delivered_eq]
      show (pushBytes keep (byte :: rest) _).state = _
      rw [pushBytes_cons_error (by rw [hnext]; rfl), EStateM.Result.state_error]
    rw [pushAll_singletons, pushAll_append, pushAll_singletons, hlost, pushStream_append,
      pushStream_eq read, pushStream_eq, Mealy.final_cons, Mealy.outputs_cons, hnext, List.nil_append,
      ← delivered_eq, Prod.mk.injEq, List.append_right_eq_self] at hsame
    exact ⟨hsame.2, hsame.1⟩
  · intro hsafe chunks chunks' hchunks hchunks'
    rw [pushAll_eq chunks idle_new [] (hchunks ▸ hsafe), pushAll_eq chunks' idle_new [] (hchunks' ▸ hsafe),
      hchunks, hchunks']

/-! ## In terms of the bytes -/

/-- A body that the decoder does not read to its end: an escape is malformed, or it is too long. -/
def Rejected (capacity : ℕ) (body : List UInt8) : Prop :=
  ∀ decoded, decoded.length ≤ capacity → body ≠ stuff decoded ∧ body ≠ stuff decoded ++ [kissFesc]

theorem rejected_iff {body : List UInt8} (hbody : kissFend ∉ body) :
    Rejected capacity body ↔ ∃ error, next.Runs (boundary capacity) body [.error error] (new capacity) := by
  constructor
  · intro hrejected
    cases @readsBody capacity body hbody with
    | escaped decoded fits body_eq runs => exact absurd body_eq (hrejected decoded fits).1
    | loneFesc decoded fits body_eq runs => exact absurd body_eq (hrejected decoded fits).2
    | rejected error cause runs => exact ⟨error, runs⟩
  · rintro ⟨error, hruns⟩ decoded hfits
    have hquiet := @runs_stuff capacity [] decoded hfits (Nat.zero_le capacity)
    have hnothing : ∀ {reports : List Report} {decoder : KissDecoder capacity},
        next.Runs (boundary capacity) body reports decoder → reports ≠ [] := by
      intro reports decoder hruns'
      rw [← hruns'.outputs_eq, hruns.outputs_eq]
      exact List.cons_ne_nil _ _
    constructor
    · rintro rfl
      exact hnothing hquiet rfl
    · rintro rfl
      exact hnothing (hquiet.append
        (.single (rfl : next (inside decoded hfits) kissFesc = (escaping decoded hfits, none)))) rfl

/-- Bodies with nothing to lose: a closed one is rejected, empty or a lone `FESC`, and the last one, that
is still open, is rejected. -/
structure Barren (capacity : ℕ) (stream : List UInt8) : Prop where
  closed : ∀ earlier body after, stream = earlier ++ kissFend :: (body ++ kissFend :: after) →
    kissFend ∉ body → Rejected capacity body ∨ body = [] ∨ body = [kissFesc]
  last : ∀ earlier body, stream = earlier ++ kissFend :: body → kissFend ∉ body →
    Rejected capacity body

/-- What is delivered by a closed body that adds nothing. -/
theorem AddsNothing.closed {earlier body after : List UInt8} (hbody : kissFend ∉ body)
    (h : AddsNothing (new capacity) (earlier ++ kissFend :: (body ++ kissFend :: after))) :
    Rejected capacity body ∨ body = [] ∨ body = [kissFesc] := by
  have hframes := h.1
  rw [← delivered_eq] at hframes
  have hstream : earlier ++ kissFend :: (body ++ kissFend :: after) =
      (earlier ++ kissFend :: (body ++ [kissFend])) ++ after := by simp
  rw [hstream, delivered_append, List.append_eq_nil_iff] at hframes
  have hnone : ∀ {decoder : KissDecoder capacity}, next.Runs (boundary capacity) body [] decoder →
      decoder.Idle → decoder.openFrame = none := by
    intro decoder hruns hidle
    have hdelivered := hframes.1
    rw [delivered_body earlier hruns hidle, List.append_eq_nil_iff] at hdelivered
    exact Option.toList_eq_nil_iff.mp hdelivered.2
  cases @readsBody capacity body hbody with
  | escaped decoded fits body_eq runs =>
    have hopen := hnone runs (idle_of_inFrame rfl)
    obtain _ | ⟨command, payload⟩ := decoded
    · exact .inr (.inl body_eq)
    · cases hopen
  | loneFesc decoded fits body_eq runs =>
    have hopen := hnone runs (idle_of_inFrame rfl)
    obtain _ | ⟨command, payload⟩ := decoded
    · exact .inr (.inr body_eq)
    · cases hopen
  | rejected error cause runs => exact .inl ((rejected_iff hbody).mpr ⟨error, runs⟩)

theorem addsNothing_iff_barren (stream : List UInt8) :
    AddsNothing (new capacity) stream ↔ Barren capacity stream := by
  constructor
  · intro h
    refine ⟨fun earlier body after hstream hbody => (hstream ▸ h).closed hbody, ?_⟩
    rintro earlier body rfl hbody
    have hfinal := h.2
    rw [final_fend_append] at hfinal
    cases @readsBody capacity body hbody with
    | escaped decoded fits body_eq runs =>
      rw [runs.final_eq] at hfinal
      cases congrArg inFrame hfinal
    | loneFesc decoded fits body_eq runs =>
      rw [runs.final_eq] at hfinal
      cases congrArg inFrame hfinal
    | rejected error cause runs => exact (rejected_iff hbody).mpr ⟨error, runs⟩
  · intro h
    constructor
    · -- a frame would be the frame of a closed body
      rw [List.eq_nil_iff_forall_not_mem]
      intro frame hframe
      obtain ⟨report, hmem, hok⟩ := List.mem_filterMap.mp hframe
      obtain ⟨before, byte, after, rfl, hreport⟩ := (Mealy.mem_outputs next).mp hmem
      obtain error | reported := report
      · cases hok
      obtain ⟨rfl, hin, hopen⟩ := of_next_eq_frame hreport
      obtain ⟨earlier, body, rfl, hbody, hfinal⟩ := exists_body_of_inFrame hin
      rw [hfinal] at hopen
      obtain hrejected | rfl | rfl := h.closed earlier body after (by simp) hbody
      · obtain ⟨error, hruns⟩ := (rejected_iff hbody).mp hrejected
        rw [hruns.final_eq] at hopen
        cases hopen
      · cases hopen
      · cases hopen
    · by_cases hmem : kissFend ∈ stream
      · obtain ⟨earlier, body, rfl, hbody⟩ := exists_last_occurrence hmem
        obtain ⟨error, hruns⟩ := (rejected_iff hbody).mp (h.last earlier body rfl hbody)
        rw [final_fend_append, hruns.final_eq]
      · exact (runs_new hmem).final_eq

/-- Without a `FEND` nothing happens to a new decoder. -/
theorem AddsNothing.of_append {garbage stream : List UInt8} (hgarbage : kissFend ∉ garbage)
    (h : AddsNothing (new capacity) stream) : AddsNothing (new capacity) (garbage ++ stream) := by
  have hruns := @runs_new capacity _ hgarbage
  constructor
  · rw [Mealy.outputs_append, hruns.outputs_eq, hruns.final_eq, List.nil_append]
    exact h.1
  · rw [Mealy.final_append, hruns.final_eq]
    exact h.2

/-- An error is reported by a byte of a body. -/
theorem of_next_eq_error {decoder : KissDecoder capacity} {byte : UInt8} {error : KissError}
    (h : (next decoder byte).2 = some (.error error)) : byte ≠ kissFend ∧ decoder.inFrame = true := by
  by_cases hin : decoder.inFrame = true
  · refine ⟨?_, hin⟩
    rintro rfl
    rw [next_fend (idle_of_inFrame hin)] at h
    cases hopen : decoder.openFrame <;> rw [hopen] at h <;> cases h
  · rw [next] at h
    by_cases hfend : byte = kissFend
    · rw [if_pos hfend, if_neg hin] at h
      cases h
    · rw [if_neg hfend, if_pos (by simp [hin])] at h
      cases h

/-- **Chunks make no difference exactly when nothing is worth losing behind a rejected body.** The
decoders at the end are compared by their live bytes and their two flags: the bytes of the array behind
`len`, which no call reads, are not part of the model. -/
theorem chunkIndependent_iff (capacity : ℕ) (stream : List UInt8) :
    ChunkIndependent capacity stream ↔ ∀ earlier body after,
      stream = earlier ++ kissFend :: (body ++ kissFend :: after) → kissFend ∉ body →
      Rejected capacity body → Barren capacity (kissFend :: after) := by
  rw [chunkIndependent_iff_safe]
  constructor
  · rintro hsafe earlier body after rfl hbody hrejected
    obtain ⟨error, hruns⟩ := (rejected_iff hbody).mp hrejected
    have hmem : (.error error : Report) ∈ next.outputs (boundary capacity) body := by
      rw [hruns.outputs_eq]
      exact List.mem_cons_self
    obtain ⟨read, byte, rest, rfl, hreport⟩ := (Mealy.mem_outputs next).mp hmem
    have hnothing := hsafe (earlier ++ kissFend :: read) byte (rest ++ kissFend :: after) error (by simp)
      (by rwa [final_fend_append])
    exact (addsNothing_iff_barren _).mp (hnothing.suffix idle_new)
  · rintro hbarren read byte rest error rfl herror
    obtain ⟨hbyte, hin⟩ := of_next_eq_error herror
    obtain ⟨earlier, front, rfl, hfront, hfinal⟩ := exists_body_of_inFrame hin
    by_cases hmem : kissFend ∈ rest
    · obtain ⟨back, after, rfl, hback⟩ := List.eq_append_cons_of_mem hmem
      have hbody : kissFend ∉ front ++ byte :: back := by
        rw [List.mem_append, List.mem_cons, not_or, not_or]
        exact ⟨hfront, Ne.symm hbyte, hback⟩
      -- the byte stands in a body, which is rejected
      have hreported : (.error error : Report) ∈ next.outputs (boundary capacity)
          (front ++ byte :: back) :=
        (Mealy.mem_outputs next).mpr ⟨front, byte, back, rfl, hfinal ▸ herror⟩
      have hrejected : Rejected capacity (front ++ byte :: back) := by
        cases @readsBody capacity _ hbody with
        | escaped decoded fits body_eq runs =>
          rw [runs.outputs_eq] at hreported
          cases hreported
        | loneFesc decoded fits body_eq runs =>
          rw [runs.outputs_eq] at hreported
          cases hreported
        | rejected error cause runs => exact (rejected_iff hbody).mpr ⟨error, runs⟩
      have := hbarren earlier (front ++ byte :: back) after (by simp) hbody hrejected
      exact ((addsNothing_iff_barren _).mpr this).of_append hback
    · have hnil : AddsNothing (new capacity) [] := ⟨rfl, rfl⟩
      have := hnil.of_append hmem
      rwa [List.append_nil] at this

/-- A body with a malformed escape, and a good frame behind it. -/
def malformedThenGood : List UInt8 :=
  [kissFend, kissCmdData, kissFesc, 0x00, kissFend, kissCmdData, 0x01, kissFend]

/-- In one chunk the good frame is lost, byte by byte it is delivered. -/
theorem chunk_loses_frame : (pushAll [malformedThenGood] (new 4, [])).2 = [] ∧
    (pushAll (malformedThenGood.map fun byte => [byte]) (new 4, [])).2 = [⟨kissCmdData, [0x01]⟩] ∧
    ¬ChunkIndependent 4 malformedThenGood := by
  have hchunk : (pushAll [malformedThenGood] (new 4, [])).2 = [] := by decide
  have hbytes : (pushAll (malformedThenGood.map fun byte => [byte]) (new 4, [])).2 =
      [⟨kissCmdData, [0x01]⟩] := by decide
  refine ⟨hchunk, hbytes, fun h => ?_⟩
  have hsame := congrArg Prod.snd (h [malformedThenGood] (malformedThenGood.map fun byte => [byte])
    (by decide) (by decide))
  rw [hchunk, hbytes] at hsame
  cases hsame

end KissDecoder

end Hyf
