import Hyf.Common.EndsWith
import Hyf.RNode.Encoding

/-!
# The readiness probe (`hyf_link_rnode::hil`)

Before a hardware test the host asks the modem to identify itself and to report its radio state, and then
reads until a ready report has come or the reads are used up. `probe_ends` says how that ends, whatever the
port returns: the reports are those of the stream that was read, although each read decodes on its own.
-/

namespace Hyf

open ByteCodec

def rnodeHilReadinessMaxReads : ℕ := 32
def rnodeHilReadinessReadBufLen : ℕ := 128

/-! ## The port -/

/-- `io::ErrorKind`; `other` stands for the kinds that the probe does not tell apart. -/
inductive IoErrorKind where
  | timedOut
  | wouldBlock
  | other (code : ℕ)
  deriving DecidableEq

/-- `T: Read + Write` over its state. A read returns at most as many bytes as the buffer holds. -/
structure Transport (τ : Type) where
  read (capacity : ℕ) : EStateM IoErrorKind τ { bytes : List UInt8 // bytes.length ≤ capacity }
  writeAll (bytes : List UInt8) : EStateM IoErrorKind τ Unit
  flush : EStateM IoErrorKind τ Unit

/-! ## The probe -/

/-- What the probe has heard so far. -/
structure RNodeHilReadiness where
  ready : Bool
  firmwareVersion : Option RNodeFirmwareVersion
  radioState : Option RNodeRadioState
  bytesRead : ℕ
  deriving DecidableEq

/-- Nothing was heard. -/
def RNodeHilReadiness.new : RNodeHilReadiness where
  ready := false
  firmwareVersion := none
  radioState := none
  bytesRead := 0

/-- The errors of the probe over an open port. The source's `RNode` carries the errors of both directions:
`command` those of `encode_command`, `rnode` those of `parse_command_frame`. -/
inductive RNodeHilReadinessError where
  | io (kind : IoErrorKind)
  | kiss (error : KissError)
  | command (error : RNodeCommandError)
  | rnode (error : RNodeError)
  | deviceError (error : RNodeHardwareError)
  | unsupportedFirmware (major minor : UInt8)
  | noReady
  deriving DecidableEq

/-- A part of the probe, over the state of the port. -/
abbrev ProbeM (τ : Type) := EStateM (Fault RNodeHilReadinessError) τ

/-- The `?` operator on a call of the port. -/
def ofIo {τ α : Type} (call : EStateM IoErrorKind τ α) : ProbeM τ α := fun port =>
  match call port with
  | .ok a port => .ok a port
  | .error kind port => .error (.error (.io kind)) port

/-- `apply_readiness_event`. -/
def applyReadinessEvent : RNodeEvent → EStateM RNodeHilReadinessError RNodeHilReadiness Unit
  | .ready => modify fun readiness => { readiness with ready := true }
  | .firmwareVersion version => do
    if !version.supported then
      throw (.unsupportedFirmware version.major version.minor)
    modify fun readiness => { readiness with firmwareVersion := some version }
  | .configReport (.radioState state) =>
    modify fun readiness => { readiness with radioState := some state }
  | .error error => throw (.deviceError error)
  | _ => return

/-- What the callback has captured: the readiness, and the last error of an event. -/
abbrev Captured := RNodeHilReadiness × Option RNodeHilReadinessError

/-- The callback, which never fails. -/
def noteFrame (captured : Captured) (frame : KissFrameRef) : Captured :=
  match parseCommandFrame frame with
  | .ok event =>
    match applyReadinessEvent event captured.1 with
    | .ok () readiness => (readiness, captured.2)
    | .error error readiness => (readiness, some error)
  | .error error => (captured.1, some (.rnode error))

variable {τ : Type}

/-- The rounds of the loop of `read_rnode_readiness` that are left. -/
def readRounds (transport : Transport τ) :
    ℕ → KissDecoder 256 → RNodeHilReadiness → ProbeM τ RNodeHilReadiness
  | 0, _, _ => throw (.error .noReady)
  | rounds + 1, decoder, readiness => fun port =>
    match transport.read rnodeHilReadinessReadBufLen port with
    | .error kind port =>
      if kind = .timedOut ∨ kind = .wouldBlock then
        readRounds transport rounds decoder readiness port
      else .error (.error (.io kind)) port
    | .ok bytes port =>
      if bytes.val.length = 0 then readRounds transport rounds decoder readiness port
      else
        let readiness := { readiness with bytesRead := readiness.bytesRead + bytes.val.length }
        match KissDecoder.pushBytes (KissDecoder.accept noteFrame) bytes.val
            (decoder, (readiness, none)) with
        | .error error _ => .error (.error (.kiss error)) port
        | .ok () (_, (_, some error)) => .error (.error error) port
        | .ok () (decoder, (readiness, none)) =>
          if readiness.ready then .ok readiness port
          else readRounds transport rounds decoder readiness port

/-- `read_rnode_readiness`, with a decoder of 256 bytes. -/
def readRnodeReadiness (transport : Transport τ) : ProbeM τ RNodeHilReadiness :=
  readRounds transport rnodeHilReadinessMaxReads (KissDecoder.new 256) RNodeHilReadiness.new

/-- The two commands are encoded into one buffer. -/
def probeRnodeReadinessIo (transport : Transport τ) : ProbeM τ RNodeHilReadiness := do
  let command := List.replicate 8 0
  let (len, command) ← ((BufferM.runOn (encodeCommand .detect) command).convert .command).lift
  ofIo (transport.writeAll (← (sliceTo command len).lift))
  let (len, command) ←
    ((BufferM.runOn (encodeCommand (.radioState .ask)) command).convert .command).lift
  ofIo (transport.writeAll (← (sliceTo command len).lift))
  ofIo transport.flush
  readRnodeReadiness transport

/-! ## What was read -/

/-- What one read returned. -/
abbrev ReadOutcome := Except IoErrorKind (List UInt8)

/-- The bytes of a read, none if it failed. -/
def ReadOutcome.bytes : ReadOutcome → List UInt8
  | .ok bytes => bytes
  | .error _ => []

/-- The reads from the port `start` on. -/
inductive ProbeReads (transport : Transport τ) (start : τ) : List ReadOutcome → τ → Prop
  | nil : ProbeReads transport start [] start
  | ok {outcomes : List ReadOutcome} {port after : τ}
      {bytes : { bytes : List UInt8 // bytes.length ≤ rnodeHilReadinessReadBufLen }}
      (h : ProbeReads transport start outcomes port)
      (hread : transport.read rnodeHilReadinessReadBufLen port = .ok bytes after) :
      ProbeReads transport start (outcomes ++ [.ok bytes.val]) after
  | error {outcomes : List ReadOutcome} {port after : τ} {kind : IoErrorKind}
      (h : ProbeReads transport start outcomes port)
      (hread : transport.read rnodeHilReadinessReadBufLen port = .error kind after) :
      ProbeReads transport start (outcomes ++ [.error kind]) after

/-- The error that an event stands for. -/
def RNodeEvent.failure : RNodeEvent → Option RNodeHilReadinessError
  | .error hardware => some (.deviceError hardware)
  | .firmwareVersion version =>
    if version.supported then none else some (.unsupportedFirmware version.major version.minor)
  | _ => none

/-- The error that a frame stands for. -/
def KissFrameRef.failure (frame : KissFrameRef) : Option RNodeHilReadinessError :=
  match parseCommandFrame frame with
  | .ok event => event.failure
  | .error error => some (.rnode error)

/-- The firmware version that an event reports. -/
def RNodeEvent.firmware : RNodeEvent → Option RNodeFirmwareVersion
  | .firmwareVersion version => some version
  | _ => none

/-- The radio state that an event reports. -/
def RNodeEvent.radio : RNodeEvent → Option RNodeRadioState
  | .configReport (.radioState state) => some state
  | _ => none

/-- What the events of a stream report: the last firmware version and the last radio state. -/
def reported (events : List RNodeEvent) (length : ℕ) : RNodeHilReadiness where
  ready := RNodeEvent.ready ∈ events
  firmwareVersion := (events.filterMap RNodeEvent.firmware).getLast?
  radioState := (events.filterMap RNodeEvent.radio).getLast?
  bytesRead := length

/-- The reads waited or brought bytes, and their stream is one of frames with harmless events. -/
structure Heard (outcomes : List ReadOutcome) (decoder : KissDecoder 256) (events : List RNodeEvent) :
    Prop where
  waits : ∀ kind, .error kind ∈ outcomes → kind = IoErrorKind.timedOut ∨ kind = .wouldBlock
  decoded : ∃ frames : List KissFrameRef,
    KissDecoder.next.Runs (KissDecoder.new 256) (outcomes.flatMap ReadOutcome.bytes)
      (frames.map .ok) decoder ∧ frames.map parseCommandFrame = events.map .ok
  harmless : ∀ event ∈ events, event.failure = none

/-- How a read ends the probe: the port fails, the stream is malformed, or a frame of the chunk is one that
the probe gives up on. -/
inductive Fails (decoder : KissDecoder 256) : ReadOutcome → RNodeHilReadinessError → Prop
  | io {kind : IoErrorKind} (h : ¬(kind = .timedOut ∨ kind = .wouldBlock)) :
      Fails decoder (.error kind) (.io kind)
  | kiss {taken rest : List UInt8} {frames : List KissFrameRef} {error : KissError}
      {after : KissDecoder 256}
      (h : KissDecoder.next.Runs decoder taken (frames.map .ok ++ [.error error]) after) :
      Fails decoder (.ok (taken ++ rest)) (.kiss error)
  | event {bytes : List UInt8} {frames : List KissFrameRef} {after : KissDecoder 256}
      {error : RNodeHilReadinessError}
      (h : KissDecoder.next.Runs decoder bytes (frames.map .ok) after)
      (hlast : (frames.filterMap KissFrameRef.failure).getLast? = some error) :
      Fails decoder (.ok bytes) error

/-- The last of the reads brought the first ready report. -/
def EndsReady (transport : Transport τ) (start : τ) (readiness : RNodeHilReadiness) (port : τ) : Prop :=
  ∃ before last decoder after events more,
    Heard before decoder events ∧ .ready ∉ events ∧
    Heard (before ++ [last]) after (events ++ more) ∧ .ready ∈ more ∧
    before.length < rnodeHilReadinessMaxReads ∧ ProbeReads transport start (before ++ [last]) port ∧
    readiness = reported (events ++ more) ((before ++ [last]).flatMap ReadOutcome.bytes).length

/-- No ready report came: the reads were used up, or the last of them failed. -/
def EndsFailed (transport : Transport τ) (start : τ) (error : RNodeHilReadinessError) (port : τ) :
    Prop :=
  ∃ before decoder events, Heard before decoder events ∧ .ready ∉ events ∧
    (error = .noReady ∧ before.length = rnodeHilReadinessMaxReads ∧
        ProbeReads transport start before port ∨
      ∃ last, Fails decoder last error ∧ before.length < rnodeHilReadinessMaxReads ∧
        ProbeReads transport start (before ++ [last]) port)

/-! ## One frame -/

/-- An event that the probe gives up on changes no report. -/
theorem applyReadinessEvent_eq_error {event : RNodeEvent} {error : RNodeHilReadinessError}
    (h : event.failure = some error) (readiness : RNodeHilReadiness) :
    applyReadinessEvent event readiness = .error error readiness := by
  cases event with
  | error hardware =>
    cases h
    rfl
  | firmwareVersion version =>
    obtain ⟨major, minor, supported⟩ := version
    cases supported <;> cases h
    rfl
  | _ => cases h

/-- A harmless event adds its report. -/
theorem applyReadinessEvent_eq_ok {event : RNodeEvent} (h : event.failure = none)
    (events : List RNodeEvent) (length : ℕ) :
    applyReadinessEvent event (reported events length) =
      .ok () (reported (events ++ [event]) length) := by
  have hreported : ∀ readiness : RNodeHilReadiness,
      readiness.ready = (decide (RNodeEvent.ready ∈ events ++ [event])) →
      readiness.firmwareVersion = ((events ++ [event]).filterMap RNodeEvent.firmware).getLast? →
      readiness.radioState = ((events ++ [event]).filterMap RNodeEvent.radio).getLast? →
      readiness.bytesRead = length → readiness = reported (events ++ [event]) length := by
    intro readiness hready hfirmware hradio hbytes
    obtain ⟨ready, firmwareVersion, radioState, bytesRead⟩ := readiness
    subst hready hfirmware hradio hbytes
    rfl
  have hother (hready : event ≠ .ready) (hfirmware : event.firmware = none)
      (hradio : event.radio = none) : reported events length = reported (events ++ [event]) length := by
    apply hreported
    · simp [reported, Ne.symm hready]
    · simp [reported, hfirmware]
    · simp [reported, hradio]
    · rfl
  cases event with
  | ready =>
    refine congrArg (EStateM.Result.ok ()) (hreported _ ?_ ?_ ?_ rfl)
    · simp
    · simp [reported, RNodeEvent.firmware]
    · simp [reported, RNodeEvent.radio]
  | firmwareVersion version =>
    obtain ⟨major, minor, supported⟩ := version
    cases supported with
    | false => cases h
    | true =>
      refine congrArg (EStateM.Result.ok ()) (hreported _ ?_ ?_ ?_ rfl)
      · simp [reported]
      · simp [RNodeEvent.firmware]
      · simp [reported, RNodeEvent.radio]
  | configReport report =>
    cases report with
    | radioState state =>
      refine congrArg (EStateM.Result.ok ()) (hreported _ ?_ ?_ ?_ rfl)
      · simp [reported]
      · simp [reported, RNodeEvent.firmware]
      · simp [RNodeEvent.radio]
    | _ => exact congrArg (EStateM.Result.ok ()) (hother (by simp) rfl rfl)
  | error error => cases h
  | _ => exact congrArg (EStateM.Result.ok ()) (hother (by simp) rfl rfl)

/-- The callback keeps the error of the last frame that has one. -/
theorem noteFrame_snd (captured : Captured) (frame : KissFrameRef) :
    (noteFrame captured frame).2 = frame.failure.or captured.2 := by
  unfold noteFrame KissFrameRef.failure
  cases parseCommandFrame frame with
  | error error => rfl
  | ok event =>
    cases h : event.failure with
    | some error =>
      simp only [applyReadinessEvent_eq_error h, h]
      rfl
    | none =>
      have happly : ∃ readiness, applyReadinessEvent event captured.1 = .ok () readiness := by
        cases event with
        | error hardware => cases h
        | firmwareVersion version =>
          obtain ⟨major, minor, supported⟩ := version
          cases supported with
          | false => cases h
          | true => exact ⟨_, rfl⟩
        | configReport report => cases report <;> exact ⟨_, rfl⟩
        | _ => exact ⟨_, rfl⟩
      obtain ⟨readiness, happly⟩ := happly
      simp only [happly, h]
      rfl

/-- The callback keeps the last failure. -/
theorem foldl_noteFrame_snd (frames : List KissFrameRef) (captured : Captured) :
    (frames.foldl noteFrame captured).2 =
      (frames.filterMap KissFrameRef.failure).getLast?.or captured.2 := by
  induction frames generalizing captured with
  | nil => rfl
  | cons frame frames ih =>
    rw [List.foldl_cons, ih, noteFrame_snd, ← Option.or_assoc, List.filterMap_cons]
    congr 1
    cases frame.failure with
    | none => rw [Option.or_none]
    | some error => rw [List.getLast?_cons, Option.or_some]

/-- Frames without an error are reported in order. -/
theorem foldl_noteFrame {frames : List KissFrameRef} {more : List RNodeEvent}
    (h : frames.map parseCommandFrame = more.map .ok) (hharmless : ∀ event ∈ more, event.failure = none)
    (events : List RNodeEvent) (length : ℕ) (error : Option RNodeHilReadinessError) :
    frames.foldl noteFrame (reported events length, error) = (reported (events ++ more) length, error) := by
  induction frames generalizing events more with
  | nil =>
    obtain rfl : more = [] := List.map_eq_nil_iff.mp h.symm
    rw [List.append_nil]
    rfl
  | cons frame frames ih =>
    cases more with
    | nil => simp at h
    | cons event more =>
      rw [List.map_cons, List.map_cons, List.cons.injEq] at h
      rw [List.forall_mem_cons] at hharmless
      have hframe : noteFrame (reported events length, error) frame =
          (reported (events ++ [event]) length, error) := by
        simp only [noteFrame, h.1, applyReadinessEvent_eq_ok hharmless.1]
      rw [List.foldl_cons, hframe, ih h.2 hharmless.2, List.append_assoc, List.singleton_append]

/-- If no frame has an error, all of them are harmless events. -/
theorem exists_events {frames : List KissFrameRef}
    (h : frames.filterMap KissFrameRef.failure = []) :
    ∃ events : List RNodeEvent, frames.map parseCommandFrame = events.map .ok ∧
      ∀ event ∈ events, event.failure = none := by
  induction frames with
  | nil => exact ⟨[], rfl, by simp⟩
  | cons frame frames ih =>
    rw [List.filterMap_eq_nil_iff, List.forall_mem_cons, ← List.filterMap_eq_nil_iff] at h
    obtain ⟨events, hevents, hharmless⟩ := ih h.2
    have hframe := h.1
    unfold KissFrameRef.failure at hframe
    cases hparse : parseCommandFrame frame with
    | error error =>
      rw [hparse] at hframe
      cases hframe
    | ok event =>
      rw [hparse] at hframe
      refine ⟨event :: events, ?_, List.forall_mem_cons.mpr ⟨hframe, hharmless⟩⟩
      rw [List.map_cons, List.map_cons, hparse, hevents]

/-! ## One read -/

namespace Heard

variable {outcomes : List ReadOutcome} {decoder : KissDecoder 256} {events : List RNodeEvent}

/-- Before the first read. -/
theorem nil : Heard [] (KissDecoder.new 256) [] where
  waits := by simp
  decoded := ⟨[], Mealy.Runs.nil _, rfl⟩
  harmless := by simp

/-- A read that waited brings nothing. -/
theorem wait (h : Heard outcomes decoder events) {kind : IoErrorKind}
    (hkind : kind = .timedOut ∨ kind = .wouldBlock) :
    Heard (outcomes ++ [.error kind]) decoder events where
  waits := by
    intro kind' hmem
    rw [List.mem_append, List.mem_singleton] at hmem
    obtain hold | hnew := hmem
    · exact h.waits kind' hold
    · cases hnew
      exact hkind
  decoded := by
    rw [List.flatMap_append, List.flatMap_singleton, ReadOutcome.bytes, List.append_nil]
    exact h.decoded
  harmless := h.harmless

/-- A chunk adds the events of its frames. -/
theorem chunk (h : Heard outcomes decoder events) {bytes : List UInt8} {frames : List KissFrameRef}
    {after : KissDecoder 256} {more : List RNodeEvent}
    (hruns : KissDecoder.next.Runs decoder bytes (frames.map .ok) after)
    (hparse : frames.map parseCommandFrame = more.map .ok)
    (hharmless : ∀ event ∈ more, event.failure = none) :
    Heard (outcomes ++ [.ok bytes]) after (events ++ more) where
  waits := by
    intro kind hmem
    rw [List.mem_append, List.mem_singleton] at hmem
    obtain hold | hnew := hmem
    · exact h.waits kind hold
    · cases hnew
  decoded := by
    obtain ⟨before, hbefore, hevents⟩ := h.decoded
    refine ⟨before ++ frames, ?_, ?_⟩
    · rw [List.flatMap_append, List.flatMap_singleton, List.map_append]
      exact hbefore.append hruns
    · rw [List.map_append, List.map_append, hevents, hparse]
  harmless := by
    intro event hmem
    rw [List.mem_append] at hmem
    exact hmem.elim (h.harmless event) (hharmless event)

/-- An empty read brings nothing. -/
theorem silence (h : Heard outcomes decoder events) : Heard (outcomes ++ [.ok []]) decoder events := by
  have hsilent : KissDecoder.next.Runs decoder [] (([] : List KissFrameRef).map Except.ok) decoder :=
    Mealy.Runs.nil decoder
  have hparse : ([] : List KissFrameRef).map parseCommandFrame = ([] : List RNodeEvent).map .ok := rfl
  have hsame := h.chunk hsilent hparse (by simp)
  rwa [List.append_nil] at hsame

end Heard

section Rounds

variable {transport : Transport τ} {port after : τ} {bytes : List UInt8}
  {hbound : bytes.length ≤ rnodeHilReadinessReadBufLen}
  (hread : transport.read rnodeHilReadinessReadBufLen port = .ok ⟨bytes, hbound⟩ after)
  (hbytes : bytes.length ≠ 0) {decoder last : KissDecoder 256} {frames : List KissFrameRef}

include hread hbytes

/-- A chunk of frames, one of which the probe gives up on: the last of these counts. -/
theorem readRounds_of_failure (hruns : KissDecoder.next.Runs decoder bytes (frames.map .ok) last)
    {error : RNodeHilReadinessError}
    (herror : (frames.filterMap KissFrameRef.failure).getLast? = some error) (rounds : ℕ)
    (readiness : RNodeHilReadiness) :
    readRounds transport (rounds + 1) decoder readiness port = .error (.error error) after := by
  have hpush := KissDecoder.pushBytes_accept hruns noteFrame
    ({ readiness with bytesRead := readiness.bytesRead + bytes.length }, none)
  have hcaptured := foldl_noteFrame_snd frames
    ({ readiness with bytesRead := readiness.bytesRead + bytes.length }, none)
  rw [herror, Option.some_or] at hcaptured
  generalize frames.foldl noteFrame _ = captured at hpush hcaptured
  obtain ⟨noted, kept⟩ := captured
  subst hcaptured
  simp only [readRounds, hread, if_neg hbytes, hpush]

/-- A chunk of frames with harmless events. -/
theorem readRounds_of_events (hruns : KissDecoder.next.Runs decoder bytes (frames.map .ok) last)
    {more : List RNodeEvent} (hparse : frames.map parseCommandFrame = more.map .ok)
    (hharmless : ∀ event ∈ more, event.failure = none) (rounds : ℕ) (events : List RNodeEvent)
    (length : ℕ) :
    readRounds transport (rounds + 1) decoder (reported events length) port =
      if RNodeEvent.ready ∈ events ++ more then
        .ok (reported (events ++ more) (length + bytes.length)) after
      else
        readRounds transport rounds last (reported (events ++ more) (length + bytes.length)) after := by
  have hpush := KissDecoder.pushBytes_accept hruns noteFrame
    ({ reported events length with bytesRead := (reported events length).bytesRead + bytes.length },
      none)
  have hcaptured : frames.foldl noteFrame ({ reported events length with
        bytesRead := (reported events length).bytesRead + bytes.length }, none) =
      (reported (events ++ more) (length + bytes.length), none) :=
    foldl_noteFrame hparse hharmless events (length + bytes.length) none
  have hready : (reported (events ++ more) (length + bytes.length)).ready =
      decide (RNodeEvent.ready ∈ events ++ more) := rfl
  rw [hcaptured] at hpush
  simp only [readRounds, hread, if_neg hbytes, hpush, hready, decide_eq_true_eq]

/-- A chunk that is malformed from some byte on. -/
theorem readRounds_of_malformed {error : KissError} {captured : KissDecoder 256 × Captured}
    {readiness : RNodeHilReadiness}
    (hpush : KissDecoder.pushBytes (KissDecoder.accept noteFrame) bytes
      (decoder, ({ readiness with bytesRead := readiness.bytesRead + bytes.length }, none)) =
        .error error captured) (rounds : ℕ) :
    readRounds transport (rounds + 1) decoder readiness port = .error (.error (.kiss error)) after := by
  simp only [readRounds, hread, if_neg hbytes, hpush]

end Rounds

/-- The rounds that are left end the probe in one of the two ways. -/
theorem ends_readRounds {transport : Transport τ} {start port : τ} {outcomes : List ReadOutcome}
    {decoder : KissDecoder 256} {events : List RNodeEvent}
    (hreads : ProbeReads transport start outcomes port)
    (hheard : Heard outcomes decoder events) (hquiet : .ready ∉ events) {rounds : ℕ}
    (hrounds : outcomes.length + rounds = rnodeHilReadinessMaxReads) :
    EndsWith (readRounds transport rounds decoder
        (reported events (outcomes.flatMap ReadOutcome.bytes).length)) port
      (EndsReady transport start) (EndsFailed transport start) := by
  induction rounds generalizing port outcomes decoder events with
  | zero =>
    exact EndsWith.of_error rfl
      ⟨outcomes, decoder, events, hheard, hquiet, .inl ⟨rfl, hrounds, hreads⟩⟩
  | succ rounds ih =>
    have hleft (last : ReadOutcome) :
        (outcomes ++ [last]).length + rounds = rnodeHilReadinessMaxReads := by
      rw [List.length_append, List.length_singleton]
      omega
    have hroom : outcomes.length < rnodeHilReadinessMaxReads := by omega
    have hfails {last : ReadOutcome} {error : RNodeHilReadinessError} {after : τ}
        (hlast : Fails decoder last error) (hread : ProbeReads transport start (outcomes ++ [last]) after) :
        EndsFailed transport start error after :=
      ⟨outcomes, decoder, events, hheard, hquiet, .inr ⟨last, hlast, hroom, hread⟩⟩
    cases hread : transport.read rnodeHilReadinessReadBufLen port with
    | error kind after =>
      by_cases hkind : kind = .timedOut ∨ kind = .wouldBlock
      · have hnext := ih (hreads.error hread) (hheard.wait hkind) hquiet (hleft _)
        rw [List.flatMap_append, List.flatMap_singleton, ReadOutcome.bytes, List.append_nil] at hnext
        unfold EndsWith readRounds
        simp only [hread, if_pos hkind]
        exact hnext
      · have hrun : readRounds transport (rounds + 1) decoder
            (reported events (outcomes.flatMap ReadOutcome.bytes).length) port =
              .error (.error (.io kind)) after := by
          simp only [readRounds, hread, if_neg hkind]
        exact EndsWith.of_error hrun (hfails (.io hkind) (hreads.error hread))
    | ok bytes after =>
      obtain ⟨bytes, hbound⟩ := bytes
      by_cases hempty : bytes.length = 0
      · obtain rfl : bytes = [] := List.length_eq_zero_iff.mp hempty
        have hnext := ih (hreads.ok hread) hheard.silence hquiet (hleft _)
        rw [List.flatMap_append, List.flatMap_singleton, ReadOutcome.bytes, List.append_nil] at hnext
        unfold EndsWith readRounds
        simp only [hread, if_pos hempty]
        exact hnext
      · obtain ⟨frames, last, hruns, -⟩ | ⟨taken, rest, frames, error, last, rfl, hruns, hpush⟩ :=
          KissDecoder.pushBytes_accept_cases noteFrame bytes decoder
            ({ reported events (outcomes.flatMap ReadOutcome.bytes).length with
              bytesRead := (outcomes.flatMap ReadOutcome.bytes).length + bytes.length }, none)
        · cases hlast : (frames.filterMap KissFrameRef.failure).getLast? with
          | some error =>
            exact EndsWith.of_error (readRounds_of_failure hread hempty hruns hlast rounds _)
              (hfails (.event hruns hlast) (hreads.ok hread))
          | none =>
            obtain ⟨more, hparse, hharmless⟩ := exists_events (List.getLast?_eq_none_iff.mp hlast)
            have hnext := hheard.chunk hruns hparse hharmless
            have hrun := readRounds_of_events hread hempty hruns hparse hharmless rounds events
              (outcomes.flatMap ReadOutcome.bytes).length
            have htotal : (outcomes.flatMap ReadOutcome.bytes).length + bytes.length =
                ((outcomes ++ [Except.ok bytes]).flatMap ReadOutcome.bytes).length := by
              rw [List.flatMap_append, List.flatMap_singleton, List.length_append]
              rfl
            rw [htotal] at hrun
            by_cases hready : RNodeEvent.ready ∈ events ++ more
            · rw [if_pos hready] at hrun
              have hmore := (List.mem_append.mp hready).resolve_left hquiet
              exact EndsWith.of_ok hrun ⟨outcomes, .ok bytes, decoder, last, events, more, hheard, hquiet,
                hnext, hmore, hroom, hreads.ok hread, rfl⟩
            · rw [if_neg hready] at hrun
              have hgoes := ih (hreads.ok hread) hnext hready (hleft _)
              unfold EndsWith
              rw [hrun]
              exact hgoes
        · exact EndsWith.of_error (readRounds_of_malformed hread hempty hpush rounds)
            (hfails (.kiss hruns) (hreads.ok hread))

/-! ## The whole probe -/

/-- What the probe writes: the two requests, neither of which makes the radio transmit. -/
def ask (transport : Transport τ) : ProbeM τ Unit := do
  ofIo (transport.writeAll RNodeCommand.detect.encoded)
  ofIo (transport.writeAll (RNodeCommand.radioState .ask).encoded)
  ofIo transport.flush

/-- A command that fits into the buffer is written from its front. -/
theorem encoded_slice {command : RNodeCommand} (h : command.Valid) {buffer : List UInt8}
    (hroom : command.encoded.length ≤ buffer.length) :
    ∃ rest, (BufferM.runOn (encodeCommand command) buffer).convert RNodeHilReadinessError.command =
        .ok (command.encoded.length, command.encoded ++ rest) ∧
      (command.encoded ++ rest).length = buffer.length ∧
      (sliceTo (command.encoded ++ rest) command.encoded.length : Outcome RNodeHilReadinessError _) =
        .ok command.encoded := by
  refine ⟨buffer.drop command.encoded.length, ?_, ?_, ?_⟩
  · rw [BufferM.runOn_eq_ok ((RNodeCommand.encodes_encoded h).writes buffer hroom)]
    rfl
  · rw [List.length_append, List.length_drop]
    omega
  · rw [sliceTo_eq_ok (by simp), List.take_left]

/-- The probe asks, and then it reads. Both commands fit the buffer they are encoded into. -/
theorem probeRnodeReadinessIo_eq (transport : Transport τ) :
    probeRnodeReadinessIo transport = ask transport >>= fun _ => readRnodeReadiness transport := by
  have hbuffer : RNodeCommand.detect.encoded.length ≤ (List.replicate 8 (0 : UInt8)).length := by decide
  obtain ⟨rest, hdetect, hlength, hslice⟩ := @encoded_slice .detect trivial _ hbuffer
  have hroom : (RNodeCommand.radioState .ask).encoded.length ≤
      (RNodeCommand.detect.encoded ++ rest).length := by
    rw [hlength]
    decide
  obtain ⟨rest', hask, -, hslice'⟩ := @encoded_slice (.radioState .ask) trivial _ hroom
  rw [probeRnodeReadinessIo, ask, bind_assoc, Outcome.lift_bind hdetect]
  dsimp only
  rw [Outcome.lift_bind hslice]
  refine congrArg (ofIo (transport.writeAll _) >>= ·) (funext fun _ => ?_)
  rw [bind_assoc, Outcome.lift_bind hask]
  dsimp only
  rw [Outcome.lift_bind hslice']

/-- A call of the port may return or fail. -/
theorem endsWith_ofIo {α : Type} (call : EStateM IoErrorKind τ α) (port : τ) :
    EndsWith (ofIo call) port (fun _ _ => True) (fun _ _ => True) := by
  unfold EndsWith ofIo
  cases call port <;> trivial

/-- The requests are written, or the port fails. -/
theorem endsWith_ask (transport : Transport τ) (start : τ) :
    EndsWith (ask transport) start (fun _ _ => True) (fun _ _ => True) :=
  (endsWith_ofIo _ start).bind fun _ port _ =>
    (endsWith_ofIo _ port).bind fun _ port _ => endsWith_ofIo _ port

/-- **The readiness probe.** It writes the two requests and then reads, at most 32 times, and it does not
panic, whatever the port does. It succeeds just with the read that brings the first ready report: all reads
before waited or brought bytes, these bytes are one stream of frames, none of them stands for a failure, and
what is returned is the last firmware version and the last radio state of that stream. It fails with what the
port refused, or with the first read that fails, is malformed or brings a failure, or when all 32 reads
passed without a ready report. -/
theorem probe_ends (transport : Transport τ) (start : τ) :
    EndsWith (probeRnodeReadinessIo transport) start
      (fun readiness port => ∃ asked, ask transport start = .ok () asked ∧
        EndsReady transport asked readiness port)
      (fun error port => ask transport start = .error (.error error) port ∨
        ∃ asked, ask transport start = .ok () asked ∧ EndsFailed transport asked error port) := by
  rw [probeRnodeReadinessIo_eq]
  have hends := endsWith_ask transport start
  unfold EndsWith at hends
  cases hask : ask transport start with
  | ok asked port =>
    have hread : EndsWith (readRnodeReadiness transport) port (EndsReady transport port)
        (EndsFailed transport port) :=
      ends_readRounds .nil Heard.nil (by simp) (Nat.zero_add _)
    unfold EndsWith
    rw [run_bind_of_ok hask]
    exact hread.mono (fun readiness after h => ⟨port, rfl, h⟩) (fun error after h => .inr ⟨port, rfl, h⟩)
  | error fault port =>
    rw [hask] at hends
    cases fault with
    | panic => exact hends.elim
    | error error => exact EndsWith.of_error (run_bind_of_error hask _) (.inl rfl)

/-- A port whose reads are known in advance. -/
structure QueuedPort where
  reads : List ReadOutcome
  written : List UInt8

/-- A read takes what is next in the queue, and times out when nothing is left. -/
def queuedTransport : Transport QueuedPort where
  read capacity := fun port =>
    match port.reads with
    | [] => .error .timedOut port
    | .error kind :: reads => .error kind { port with reads }
    | .ok bytes :: reads =>
      let rest := bytes.drop capacity
      .ok ⟨bytes.take capacity, by simp⟩
        { port with reads := if rest = [] then reads else .ok rest :: reads }
  writeAll bytes := modify fun port => { port with written := port.written ++ bytes }
  flush := return

/-- A firmware report, a radio report that is cut in two, and the ready report. -/
def queuedPort : QueuedPort :=
  ⟨[.error .timedOut, .ok [0xc0, 0x50, 0x01, 0x40, 0xc0, 0x06], .ok [0x01, 0xc0, 0x0f, 0x01, 0xc0]], []⟩

/-- The probe over the queue, evaluated. -/
theorem run_queuedPort : (probeRnodeReadinessIo queuedTransport).run' queuedPort =
    some ⟨true, some ⟨1, 64, true⟩, some .on, 11⟩ := by
  decide +kernel

/-- The probe of this port ends with the ready report and returns what was reported before it. -/
theorem probe_ends_queuedPort : ∃ asked port,
    probeRnodeReadinessIo queuedTransport queuedPort =
        .ok ⟨true, some ⟨1, 64, true⟩, some .on, 11⟩ port ∧
      ask queuedTransport queuedPort = .ok () asked ∧
      EndsReady queuedTransport asked ⟨true, some ⟨1, 64, true⟩, some .on, 11⟩ port := by
  have hready := run_queuedPort
  -- from here on any port will do that the probe ends so with
  generalize queuedPort = start at hready ⊢
  obtain ⟨port, hprobe, asked, hask, hends⟩ := (probe_ends queuedTransport start).of_run' hready
  exact ⟨asked, port, hprobe, hask, hends⟩

end Hyf
