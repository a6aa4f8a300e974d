import Hyf.Kiss.Resync
import Hyf.RNodeSerial.Polls

/-!
# The link as a queue of arrivals

The bytes that the port holds and the decoder's state together are a queue: the frames that reading on
would complete, and the places where reading would stop without one. The pending frame is its head.
A poll takes arrivals off this queue, and these lemmas say which, so that what a link does with a byte
stream can be followed without its bytes.
-/

namespace Hyf.RNodeSerial

/-- What reading on can come to: a complete frame, a decoder error, a failing call of `read`, or a call
that finds no byte. -/
inductive Arrival where
  | frame (frame : KissFrameRef)
  | garbled (error : KissError)
  | fault (error : RNodeSerialError)
  | gap
  deriving DecidableEq

def Arrival.ofReport : KissDecoder.Report → Arrival
  | .ok report => frame report
  | .error error => garbled error

/-- The decoder behind the port. -/
def receive {frameMax : ℕ} : Mealy (KissDecoder frameMax) ReadResult Arrival := fun decoder result =>
  match result with
  | .error error => (decoder, some (.fault error))
  | .ok (read, byte) =>
    if read = 0 then (decoder, some .gap)
    else if read > 1 then (decoder, some (.fault (.readBufferTooSmall 1 read)))
    else ((decoder.next byte).1, (decoder.next byte).2.map .ofReport)

def PendingFrame.frame {capacity : ℕ} (pending : PendingFrame capacity) : KissFrameRef :=
  ⟨pending.command, pending.payload⟩

namespace RNodeSerialLink

variable {frameMax : ℕ}

/-- What the link will take up, in order. -/
def arrivals (link : RNodeSerialLink frameMax) : List Arrival :=
  link.pending.toList.map (fun pending => .frame pending.frame) ++
    receive.outputs link.decoder link.io.reads

/-- The decoder once everything that the port holds was read. -/
def lastDecoder (link : RNodeSerialLink frameMax) : KissDecoder frameMax :=
  receive.final link.decoder link.io.reads

/-- The link after it read on. -/
def resumed (link : RNodeSerialLink frameMax) (reads : List ReadResult)
    (decoder : KissDecoder frameMax) (pending : Option (PendingFrame frameMax)) :
    RNodeSerialLink frameMax :=
  { link with io := { link.io with reads }, decoder, pending }

/-- A call that reads on stops at `arrival`, where the port holds `reads` and the decoder is in
`decoder`. -/
def Took (result : EStateM.Result RNodeSerialError (RNodeSerialLink frameMax) Bool)
    (link : RNodeSerialLink frameMax) (arrival : Arrival) (reads : List ReadResult)
    (decoder : KissDecoder frameMax) : Prop :=
  match arrival with
  | .frame frame => ∃ pending, pending.frame = frame ∧
      result = .ok true (link.resumed reads decoder (some pending))
  | .garbled error => result = .error (.kiss error) (link.resumed reads decoder none)
  | .fault error => result = .error error (link.resumed reads decoder none)
  | .gap => result = .ok false (link.resumed reads decoder none)

/-- A completed frame fits into the pending slot. -/
theorem length_payload_le {decoder decoder' : KissDecoder frameMax} {byte : UInt8}
    {frame : KissFrameRef} (h : decoder.next byte = (decoder', some (.ok frame))) :
    frame.payload.length ≤ frameMax := by
  have hlength := decoder.length_le
  have hbuffered (decoder : KissDecoder frameMax) (byte : UInt8) :
      (decoder.buffered byte).2 ≠ some (.ok frame) := by
    unfold KissDecoder.buffered
    split_ifs <;> simp
  have hreport : (decoder.next byte).2 = some (.ok frame) := by rw [h]
  unfold KissDecoder.next at hreport
  split_ifs at hreport
  · -- only a `FEND` completes a frame, out of the buffer
    unfold KissDecoder.openFrame at hreport
    split at hreport
    · cases hreport
    · rename_i command payload hbuffer
      cases hreport
      rw [hbuffer, List.length_cons] at hlength
      exact Nat.le_of_succ_le hlength
  all_goals first
    | exact absurd hreport (hbuffered _ _)
    | cases hreport

/-- The link as it reads on with nothing pending. -/
theorem resumed_none {link : RNodeSerialLink frameMax} (hpending : link.pending = none)
    (reads : List ReadResult) (decoder : KissDecoder frameMax) :
    link.resumed reads decoder none = { link with io := { link.io with reads }, decoder } := by
  rw [resumed, ← hpending]

/-- The callback of `read_until_pending` keeps a completed frame. -/
theorem capturePending_eq (nowMs : TimestampMs) {frame : KissFrameRef}
    (h : frame.payload.length ≤ frameMax) (captured : Option (PendingFrame frameMax)) :
    ∃ pending : PendingFrame frameMax, pending.frame = frame ∧
      capturePending nowMs frame captured = .ok () (some pending) := by
  refine ⟨⟨frame.command, frame.payload, nowMs, h⟩, rfl, ?_⟩
  rw [capturePending, PendingFrame.tryFromKissFrame, dif_neg (Nat.not_lt.mpr h)]

/-- One byte that is read and reports nothing. -/
theorem readLoop_quiet (nowMs : TimestampMs) {byte : UInt8} (reads : List ReadResult)
    {link : RNodeSerialLink frameMax} (hpending : link.pending = none)
    {decoder : KissDecoder frameMax} (hnext : link.decoder.next byte = (decoder, none)) :
    readLoop nowMs (.ok (1, byte) :: reads) link =
      readLoop nowMs reads (link.resumed reads decoder none) := by
  have hpush : KissDecoder.pushBytes (capturePending nowMs) [byte]
      (link.decoder, (none : Option (PendingFrame frameMax))) = .ok () (decoder, none) :=
    KissDecoder.pushBytes_cons_ok (by rw [hnext]; rfl) []
  rw [resumed_none hpending, readLoop, if_neg (by decide), if_neg (by decide), hpush]

/-- One byte that is read and reports a frame or an error. -/
theorem readLoop_report (nowMs : TimestampMs) {byte : UInt8} (reads : List ReadResult)
    {link : RNodeSerialLink frameMax} (hpending : link.pending = none)
    {decoder : KissDecoder frameMax} {report : KissDecoder.Report}
    (hnext : link.decoder.next byte = (decoder, some report)) :
    Took (readLoop nowMs (.ok (1, byte) :: reads) link) link (.ofReport report) reads decoder := by
  cases report with
  | error error =>
    have hpush : KissDecoder.pushBytes (capturePending nowMs) [byte]
        (link.decoder, (none : Option (PendingFrame frameMax))) = .error error (decoder, none) :=
      KissDecoder.pushBytes_cons_error (by rw [hnext]; rfl) []
    show readLoop _ _ _ = _
    rw [resumed_none hpending, readLoop, if_neg (by decide), if_neg (by decide), hpush]
  | ok frame =>
    obtain ⟨pending, hframe, hcapture⟩ := capturePending_eq nowMs (length_payload_le hnext) none
    have hpush : KissDecoder.pushBytes (capturePending nowMs) [byte]
        (link.decoder, (none : Option (PendingFrame frameMax))) = .ok () (decoder, some pending) :=
      KissDecoder.pushBytes_cons_ok (by rw [hnext, KissDecoder.settle, hcapture]) []
    refine ⟨pending, hframe, ?_⟩
    rw [readLoop, if_neg (by decide), if_neg (by decide), hpush]
    rfl

/-- **Reading on** goes to the first arrival, or through everything when there is none. -/
theorem readLoop_spec (nowMs : TimestampMs) (reads : List ReadResult)
    {link : RNodeSerialLink frameMax} (hpending : link.pending = none) :
    (receive.outputs link.decoder reads = [] ∧ readLoop nowMs reads link =
        .ok false (link.resumed [] (receive.final link.decoder reads) none)) ∨
      ∃ arrival rest reads' decoder, receive.outputs link.decoder reads = arrival :: rest ∧
        receive.outputs decoder reads' = rest ∧
        receive.final decoder reads' = receive.final link.decoder reads ∧
        Took (readLoop nowMs reads link) link arrival reads' decoder := by
  induction reads generalizing link with
  | nil =>
    refine .inl ⟨rfl, ?_⟩
    rw [resumed_none hpending]
    rfl
  | cons result reads ih =>
    -- the other results of `read` stop at once
    have hstop (arrival : Arrival) (hreceive : receive link.decoder result =
          (link.decoder, some arrival))
        (htook : Took (readLoop nowMs (result :: reads) link) link arrival reads link.decoder) :
        ∃ arrival rest reads' decoder,
          receive.outputs link.decoder (result :: reads) = arrival :: rest ∧
          receive.outputs decoder reads' = rest ∧
          receive.final decoder reads' = receive.final link.decoder (result :: reads) ∧
          Took (readLoop nowMs (result :: reads) link) link arrival reads' decoder := by
      refine ⟨arrival, receive.outputs link.decoder reads, reads, link.decoder, ?_, rfl, ?_, htook⟩
      · rw [Mealy.outputs_cons, hreceive]
        rfl
      · rw [Mealy.final_cons, hreceive]
    match result with
    | .error error =>
      refine .inr (hstop (.fault error) rfl ?_)
      show readLoop _ _ _ = _
      rw [resumed_none hpending]
      rfl
    | .ok (0, byte) =>
      refine .inr (hstop .gap rfl ?_)
      show readLoop _ _ _ = _
      rw [resumed_none hpending]
      rfl
    | .ok (read + 2, byte) =>
      refine .inr (hstop (.fault (.readBufferTooSmall 1 (read + 2))) ?_ ?_)
      · simp [receive]
      · show readLoop _ _ _ = _
        rw [resumed_none hpending, readLoop, if_neg (by omega), if_pos (by omega)]
    | .ok (1, byte) =>
      obtain ⟨decoder, report, hnext⟩ : ∃ decoder report, link.decoder.next byte = (decoder, report) :=
        ⟨_, _, rfl⟩
      have hreceive : receive link.decoder (.ok (1, byte)) = (decoder, report.map .ofReport) := by
        simp [receive, hnext]
      cases report with
      | none =>
        have hquiet := readLoop_quiet nowMs reads hpending hnext
        rw [Mealy.outputs_cons, Mealy.final_cons, hreceive, hquiet]
        exact @ih (link.resumed reads decoder none) rfl
      | some report =>
        have htook := readLoop_report nowMs reads hpending hnext
        refine .inr ⟨.ofReport report, receive.outputs decoder reads, reads, decoder, ?_, rfl, ?_, htook⟩
        · rw [Mealy.outputs_cons, hreceive]
          rfl
        · rw [Mealy.final_cons, hreceive]

/-! ## Taking up a frame -/

/-- The link read on, up to what is now in front of it. -/
structure Leaves (link link' : RNodeSerialLink frameMax) (rest : List Arrival) : Prop where
  resumed_eq : ∃ reads decoder pending, link' = link.resumed reads decoder pending
  arrivals_eq : link'.arrivals = rest
  lastDecoder_eq : link'.lastDecoder = link.lastDecoder

theorem arrivals_none {link : RNodeSerialLink frameMax} (h : link.pending = none) :
    link.arrivals = receive.outputs link.decoder link.io.reads := by
  rw [arrivals, h]
  rfl

theorem arrivals_some {link : RNodeSerialLink frameMax} {pending : PendingFrame frameMax}
    (h : link.pending = some pending) :
    link.arrivals = .frame pending.frame :: receive.outputs link.decoder link.io.reads := by
  rw [arrivals, h]
  rfl

variable {link : RNodeSerialLink frameMax} {arrival : Arrival} {rest : List Arrival}

/-- Nothing is there: everything was read. -/
theorem takeUp_nil (nowMs : TimestampMs) (h : link.arrivals = []) :
    ∃ link', takeUp nowMs link = .ok false link' ∧ link.Leaves link' [] := by
  cases hpending : link.pending with
  | some pending =>
    rw [arrivals_some hpending] at h
    cases h
  | none =>
    rw [arrivals_none hpending] at h
    rcases readLoop_spec nowMs link.io.reads hpending with ⟨-, hread⟩ | ⟨arrival, rest, _, _, hout, -⟩
    · refine ⟨_, ?_, ⟨[], _, none, rfl⟩, rfl, rfl⟩
      rw [takeUp, hpending]
      exact hread
    · rw [h] at hout
      cases hout

/-- The first arrival decides. -/
theorem takeUp_cons (nowMs : TimestampMs) (h : link.arrivals = arrival :: rest) :
    ∃ reads decoder, receive.outputs decoder reads = rest ∧
      receive.final decoder reads = link.lastDecoder ∧
      Took (takeUp nowMs link) link arrival reads decoder := by
  cases hpending : link.pending with
  | some pending =>
    rw [arrivals_some hpending] at h
    cases h
    refine ⟨link.io.reads, link.decoder, rfl, rfl, pending, rfl, ?_⟩
    have hself : link.resumed link.io.reads link.decoder (some pending) = link := by
      rw [resumed, ← hpending]
    rw [hself, takeUp, hpending]
  | none =>
    rw [arrivals_none hpending] at h
    rcases readLoop_spec nowMs link.io.reads hpending with
      ⟨hout, -⟩ | ⟨arrival', rest', reads, decoder, hout, hrest, hfinal, htook⟩
    · rw [h] at hout
      cases hout
    · rw [h] at hout
      cases hout
      refine ⟨reads, decoder, hrest, hfinal, ?_⟩
      rw [takeUp, hpending]
      exact htook

/-- A frame is taken up and stays in front. -/
theorem takeUp_frame (nowMs : TimestampMs) {frame : KissFrameRef}
    (h : link.arrivals = .frame frame :: rest) :
    ∃ link' pending, takeUp nowMs link = .ok true link' ∧ link.Leaves link' (.frame frame :: rest) ∧
      link'.pending = some pending ∧ pending.frame = frame := by
  obtain ⟨reads, decoder, hrest, hfinal, pending, rfl, htake⟩ := takeUp_cons nowMs h
  refine ⟨_, pending, htake, ⟨⟨reads, decoder, some pending, rfl⟩, ?_, hfinal⟩, rfl, rfl⟩
  rw [arrivals_some rfl, ← hrest]
  rfl

/-! ## Skipping reports -/

/-- The frame is a report that parses. -/
def IsReport (frame : KissFrameRef) : Prop :=
  frame.command ≠ kissCmdData ∧ ∃ event, parseCommandFrame frame = .ok event

/-- The frame is no data frame, and `parse_command_frame` rejects it. -/
def IsMalformed (frame : KissFrameRef) : Prop :=
  frame.command ≠ kissCmdData ∧ ∃ error, parseCommandFrame frame = .error error

/-- The link was polled, and what is now in front of it is `rest`. -/
structure Advanced (link link' : RNodeSerialLink frameMax) (rest : List Arrival) : Prop where
  polled : Polled link link'
  arrivals_eq : link'.arrivals = rest
  lastDecoder_eq : link'.lastDecoder = link.lastDecoder

theorem Leaves.advanced {link' : RNodeSerialLink frameMax} (h : link.Leaves link' rest) :
    link.Advanced link' rest := by
  refine ⟨?_, h.arrivals_eq, h.lastDecoder_eq⟩
  obtain ⟨reads, decoder, pending, rfl⟩ := h.resumed_eq
  exact ⟨rfl, rfl, rfl⟩

theorem Advanced.trans {link' link'' : RNodeSerialLink frameMax} {rest' : List Arrival}
    (h : link.Advanced link' rest') (h' : link'.Advanced link'' rest) : link.Advanced link'' rest :=
  ⟨h.polled.trans h'.polled, h'.arrivals_eq, h'.lastDecoder_eq.trans h.lastDecoder_eq⟩

/-- The link after it handed the pending frame over. -/
theorem advanced_cleared {pending : PendingFrame frameMax} {frame : KissFrameRef}
    (h : link.arrivals = .frame frame :: rest) (hpending : link.pending = some pending) :
    link.Advanced { link with pending := none } rest := by
  rw [arrivals_some hpending] at h
  cases h
  exact ⟨⟨rfl, rfl, rfl⟩, rfl, rfl⟩

theorem advanced_applied {pending : PendingFrame frameMax} {frame : KissFrameRef}
    (h : link.arrivals = .frame frame :: rest) (hpending : link.pending = some pending)
    (event : RNodeEvent) : link.Advanced (link.applied event) rest := by
  rw [arrivals_some hpending] at h
  cases h
  exact ⟨⟨rfl, rfl, rfl⟩, rfl, rfl⟩

/-- A report in front is applied, and the loop goes on behind it. -/
theorem nextDataFrame_report (nowMs : TimestampMs) {frame : KissFrameRef}
    (h : link.arrivals = .frame frame :: rest) (hreport : IsReport frame) :
    ∃ link', nextDataFrame nowMs link = nextDataFrame nowMs link' ∧ link.Advanced link' rest := by
  obtain ⟨hcommand, event, hparse⟩ := hreport
  obtain ⟨taken, pending, htake, hleaves, hpending, rfl⟩ := takeUp_frame nowMs h
  refine ⟨taken.applied event, nextDataFrame_command htake hpending hcommand hparse, ?_⟩
  exact hleaves.advanced.trans (advanced_applied hleaves.arrivals_eq hpending event)

/-- Reports in front are applied, one after the other. -/
theorem nextDataFrame_reports (nowMs : TimestampMs) {reports : List KissFrameRef}
    (hreports : ∀ frame ∈ reports, IsReport frame)
    (h : link.arrivals = reports.map .frame ++ rest) :
    ∃ link', nextDataFrame nowMs link = nextDataFrame nowMs link' ∧ link.Advanced link' rest := by
  induction reports generalizing link with
  | nil => exact ⟨link, rfl, Polled.refl link, h, rfl⟩
  | cons frame reports ih =>
    obtain ⟨first, hfirst, hadvanced⟩ :=
      nextDataFrame_report nowMs h (hreports frame List.mem_cons_self)
    obtain ⟨link', hnext, hrest⟩ :=
      ih (fun frame hframe => hreports frame (List.mem_cons_of_mem _ hframe)) hadvanced.arrivals_eq
    exact ⟨link', hfirst.trans hnext, hadvanced.trans hrest⟩

end RNodeSerialLink

end Hyf.RNodeSerial
