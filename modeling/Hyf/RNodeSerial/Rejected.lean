import Hyf.RNodeSerial.Stream

/-!
# Frames with bad contents

A poll that comes to a frame whose contents it rejects reports an error. For a data frame, an envelope
that does not decode or bytes that are no RNS packet, the frame is gone afterwards, and the polls go on
with what follows it. A report with a wrong payload length stays in the pending slot instead: every
later poll comes to it again and reports the same error.
-/

namespace Hyf.RNodeSerial

open Rns RNodeSerialLink

/-- The entry points that poll the link, the driver's among them. -/
inductive Poll (π : Type) where
  | event (nowMs : TimestampMs) (output : List UInt8)
  | gatewayFrame (nowMs : TimestampMs) (output : List UInt8)
  | withRnsParams (nowMs : TimestampMs) (output : List UInt8) (params : RnsWrapParams)
  | frame (nowMs : TimestampMs) (output : List UInt8)
  | driver (wrapParams : RnsWrapParamsProvider π) (provider : π) (nowMs : TimestampMs)
      (output : List UInt8)

namespace Poll

variable {frameMax : ℕ} {π : Type}

/-- What the poll returns, and the link afterwards. -/
def run (poll : Poll π) (link : RNodeSerialLink frameMax) :
    Except RNodeSerialError (Option RNodeSerialEvent) × RNodeSerialLink frameMax :=
  match poll with
  | event nowMs output =>
    ((pollEventAt nowMs output link).outcome, (pollEventAt nowMs output link).state)
  | gatewayFrame nowMs output =>
    ((pollGatewayFrameAt nowMs output link).outcome.map (·.map .frame),
      (pollGatewayFrameAt nowMs output link).state)
  | withRnsParams nowMs output params =>
    ((pollGatewayFrameWithRnsParamsAt nowMs output params link).outcome.map (·.map .frame),
      (pollGatewayFrameWithRnsParamsAt nowMs output params link).state)
  | frame nowMs output =>
    ((pollFrame nowMs output link).outcome.map (·.map .frame), (pollFrame nowMs output link).state)
  | driver wrapParams provider nowMs output =>
    ((RNodeRawRnsSerialDriver.pollFrame wrapParams nowMs output ⟨link, provider⟩).outcome.map
        (·.map .frame),
      (RNodeRawRnsSerialDriver.pollFrame wrapParams nowMs output ⟨link, provider⟩).state.link)

/-- What the parts of the polls keep, every poll keeps. -/
theorem kept_run {R : RNodeSerialLink frameMax → RNodeSerialLink frameMax → Prop}
    [IsPreorder (RNodeSerialLink frameMax) R] (h : KeptByDrains R) (poll : Poll π)
    (link : RNodeSerialLink frameMax) : R link (poll.run link).2 := by
  cases poll with
  | event nowMs output => exact (h.pollEventAt nowMs output).state_related link
  | gatewayFrame nowMs output => exact (h.pollGatewayFrameAt nowMs output).state_related link
  | withRnsParams nowMs output params =>
    exact (h.pollGatewayFrameWithRnsParamsAt nowMs output params).state_related link
  | frame nowMs output => exact (h.pollFrame nowMs output).state_related link
  | driver wrapParams provider nowMs output =>
    exact (h.driverPollFrame wrapParams nowMs output).state_related ⟨link, provider⟩

/-- Whatever the poll, it writes nothing. -/
theorem polled_run (poll : Poll π) (link : RNodeSerialLink frameMax) :
    RNodeSerialLink.Polled link (poll.run link).2 := kept_run keptByDrains_polled poll link

/-- The poll reads frames in the link's mode. -/
def Enabled (poll : Poll π) (config : RNodeSerialConfig) : Prop :=
  match poll with
  | gatewayFrame .. => config.dataMode = .hyfEnvelope
  | withRnsParams .. => config.dataMode = .rawRnsPacket
  | event .. | frame .. | driver .. => True

/-- The error of a result, if it is one. -/
def errorOf {ε α : Type} (convert : ε → RNodeSerialError) (result : Except ε α) :
    Option RNodeSerialError :=
  match result with
  | .ok _ => none
  | .error error => some (convert error)

theorem errorOf_eq_some {ε α : Type} {convert : ε → RNodeSerialError} {result : Except ε α}
    {error : RNodeSerialError} (h : errorOf convert result = some error) :
    ∃ cause, result = .error cause ∧ error = convert cause := by
  cases result with
  | ok a => cases h
  | error cause =>
    cases h
    exact ⟨cause, rfl, rfl⟩

/-- The error that the contents of a data frame cause in the poll, if any: the output is long enough
where it is checked first. -/
def dataRejection (poll : Poll π) (config : RNodeSerialConfig) (payload : List UInt8) :
    Option RNodeSerialError :=
  match poll with
  | event .. => none
  | gatewayFrame _ output | frame _ output =>
    if config.dataMode = .rawRnsPacket ∨ output.length < payload.length then none
    else errorOf .hyfWire (decodeEnvelope payload)
  | withRnsParams .. | driver .. => errorOf .rns (validateRnsPacket payload)

/-- The error that the contents of a frame cause in the poll, if any. -/
def rejection (poll : Poll π) (config : RNodeSerialConfig) (frame : KissFrameRef) :
    Option RNodeSerialError :=
  if frame.command = kissCmdData then poll.dataRejection config frame.payload
  else errorOf .rnode (parseCommandFrame frame)

/-- The poll comes to `frame` and no further: an event poll takes the first frame, the others skip the
reports before it. Behind it is `rest`. -/
def ComesTo (poll : Poll π) (link : RNodeSerialLink frameMax) (frame : KissFrameRef)
    (rest : List Arrival) : Prop :=
  poll.Enabled link.config ∧ match poll with
    | event .. => link.arrivals = .frame frame :: rest
    | _ => ∃ reports : List KissFrameRef, (∀ report ∈ reports, IsReport report) ∧
        link.arrivals = reports.map .frame ++ .frame frame :: rest

end Poll

/-- The event tells of the frame. -/
def Conveys (config : RNodeSerialConfig) (frame : KissFrameRef) (event : RNodeSerialEvent) : Prop :=
  if frame.command = kissCmdData then
    ∃ receivedAtMs, event = .frame ⟨config.linkId, receivedAtMs, frame.payload⟩
  else ∃ report, parseCommandFrame frame = .ok report ∧ event = .fromRnode report

/-- In front of the link is `rest`, and a poll with room for the first frame there, if that is a data
frame or a report, returns it and leaves what follows. -/
structure GoesOnWith {frameMax : ℕ} (link : RNodeSerialLink frameMax) (rest : List Arrival) : Prop where
  arrivals_eq : link.arrivals = rest
  poll_next : ∀ frame rest', rest = .frame frame :: rest' →
    frame.command = kissCmdData ∨ IsReport frame →
    ∀ nowMs output, frame.payload.length ≤ output.length →
      ∃ event link', pollEventAt nowMs output link = .ok (some event) link' ∧
        Conveys link.config frame event ∧ link'.arrivals = rest'

/-- The poll consumes a frame whose contents it rejects: it reports them, and goes on behind the
frame. -/
def ConsumesRejected {frameMax : ℕ} {π : Type} (poll : Poll π) (link : RNodeSerialLink frameMax) :
    Prop :=
  ∀ frame rest error, poll.ComesTo link frame rest → poll.rejection link.config frame = some error →
    ∃ link', poll.run link = (.error error, link') ∧ GoesOnWith link' rest

namespace RNodeSerialLink

variable {frameMax : ℕ} {link : RNodeSerialLink frameMax} {rest : List Arrival} {frame : KissFrameRef}

/-! ## Coming to a frame -/

/-- The loop stops at a data frame. -/
theorem nextDataFrame_atData (nowMs : TimestampMs) {reports : List KissFrameRef}
    (hreports : ∀ report ∈ reports, IsReport report)
    (h : link.arrivals = reports.map .frame ++ .frame frame :: rest)
    (hcommand : frame.command = kissCmdData) :
    ∃ link' pending, nextDataFrame nowMs link = .ok true link' ∧ link'.pending = some pending ∧
      pending.frame = frame ∧ link.Advanced link' (.frame frame :: rest) := by
  obtain ⟨behind, hnext, hadvanced⟩ := nextDataFrame_reports nowMs hreports h
  obtain ⟨link', pending, htake, hleaves, hpending, hframe⟩ :=
    takeUp_frame nowMs hadvanced.arrivals_eq
  have hdata : pending.command = kissCmdData := by
    rw [← hcommand, ← hframe]
    rfl
  exact ⟨link', pending, hnext.trans (nextDataFrame_data htake hpending hdata), hpending, hframe,
    hadvanced.trans hleaves.advanced⟩

/-- The loop fails at a malformed report, and keeps it. -/
theorem nextDataFrame_atMalformed (nowMs : TimestampMs) {reports : List KissFrameRef}
    (hreports : ∀ report ∈ reports, IsReport report)
    (h : link.arrivals = reports.map .frame ++ .frame frame :: rest)
    (hcommand : frame.command ≠ kissCmdData) {error : RNodeError}
    (hparse : parseCommandFrame frame = .error error) :
    ∃ link', nextDataFrame nowMs link = .error (.rnode error) link' ∧
      link.Advanced link' (.frame frame :: rest) := by
  obtain ⟨behind, hnext, hadvanced⟩ := nextDataFrame_reports nowMs hreports h
  obtain ⟨link', pending, htake, hleaves, hpending, rfl⟩ := takeUp_frame nowMs hadvanced.arrivals_eq
  exact ⟨link', hnext.trans (nextDataFrame_malformed htake hpending hcommand hparse),
    hadvanced.trans hleaves.advanced⟩

/-! ## The event poll -/

/-- An event poll hands the pending frame to one of the two drains. -/
theorem pollEventAt_taken {nowMs : TimestampMs} {output : List UInt8} {link' : RNodeSerialLink frameMax}
    {pending : PendingFrame frameMax} (htake : takeUp nowMs link = .ok true link')
    (hpending : link'.pending = some pending) :
    pollEventAt nowMs output link =
      if pending.command = kissCmdData then
        (drainPendingFrame output >>= fun frame => pure (frame.map RNodeSerialEvent.frame)) link'
      else drainPendingCommand link' := by
  unfold pollEventAt
  rw [ByteCodec.run_bind_of_ok htake]
  rw [if_neg (by decide), ByteCodec.run_get_bind, hpending]
  dsimp only
  by_cases hcommand : pending.command = kissCmdData
  · rw [if_pos hcommand, if_pos hcommand]
  · rw [if_neg hcommand, if_neg hcommand]

/-- A data frame that is pending is handed over when there is room for it. -/
theorem drainPendingFrame_ok {output : List UInt8} {pending : PendingFrame frameMax}
    (hpending : link.pending = some pending) (hcommand : pending.command = kissCmdData)
    (hroom : pending.payload.length ≤ output.length) :
    drainPendingFrame output link =
      .ok (some ⟨link.config.linkId, pending.receivedAtMs, pending.payload⟩)
        { link with pending := none } := by
  rw [drainPendingFrame, ByteCodec.run_get_bind, hpending]
  dsimp only
  rw [if_neg (not_not.mpr hcommand), if_neg (Nat.not_lt.mpr hroom)]
  rfl

/-- Without room for it a data frame stays pending. -/
theorem drainPendingFrame_short {output : List UInt8} {pending : PendingFrame frameMax}
    (hpending : link.pending = some pending) (hcommand : pending.command = kissCmdData)
    (hshort : output.length < pending.payload.length) :
    drainPendingFrame output link =
      .error (.readBufferTooSmall output.length pending.payload.length) link := by
  rw [drainPendingFrame, ByteCodec.run_get_bind, hpending]
  dsimp only
  rw [if_neg (not_not.mpr hcommand), if_pos hshort]
  rfl

/-- **An event poll** returns the frame in front, when it is a data frame with room for it or a report. -/
theorem pollEventAt_frame (nowMs : TimestampMs) {output : List UInt8}
    (h : link.arrivals = .frame frame :: rest) (hframe : frame.command = kissCmdData ∨ IsReport frame)
    (hroom : frame.payload.length ≤ output.length) :
    ∃ event link', pollEventAt nowMs output link = .ok (some event) link' ∧
      Conveys link.config frame event ∧ link'.arrivals = rest := by
  obtain ⟨taken, pending, htake, hleaves, hpending, rfl⟩ := takeUp_frame nowMs h
  have hconfig : taken.config = link.config := hleaves.advanced.polled.config_eq
  rw [pollEventAt_taken htake hpending]
  by_cases hcommand : pending.command = kissCmdData
  · have hdrain := drainPendingFrame_ok hpending hcommand hroom
    refine ⟨.frame ⟨taken.config.linkId, pending.receivedAtMs, pending.payload⟩, _, ?_, ?_,
      (advanced_cleared hleaves.arrivals_eq hpending).arrivals_eq⟩
    · rw [if_pos hcommand]
      rw [ByteCodec.run_bind_of_ok hdrain]
      rfl
    · rw [Conveys, if_pos (show pending.frame.command = _ from hcommand), ← hconfig]
      exact ⟨pending.receivedAtMs, rfl⟩
  · obtain ⟨-, event, hparse⟩ := hframe.resolve_left hcommand
    refine ⟨.fromRnode event, _, ?_, ?_, (advanced_applied hleaves.arrivals_eq hpending event).arrivals_eq⟩
    · rw [if_neg hcommand, drainPendingCommand_ok hpending hcommand hparse]
    · rw [Conveys, if_neg (show ¬pending.frame.command = _ from hcommand)]
      exact ⟨event, hparse, rfl⟩

theorem goesOnWith_of_arrivals (h : link.arrivals = rest) : GoesOnWith link rest := by
  refine ⟨h, ?_⟩
  intro frame rest' hrest hframe nowMs output hroom
  exact pollEventAt_frame nowMs (h.trans hrest) hframe hroom

/-! ## The drains of the gateway polls -/

/-- A data frame that decodes is handed over. -/
theorem drainPendingHyfFrame_ok {output : List UInt8} {pending : PendingFrame frameMax}
    (hpending : link.pending = some pending) (hcommand : pending.command = kissCmdData)
    (hroom : pending.payload.length ≤ output.length) {envelope : HyfEnvelopeRef}
    (hdecode : decodeEnvelope pending.payload = .ok envelope) :
    drainPendingHyfFrame output link =
      .ok (some ⟨link.config.linkId, pending.receivedAtMs, pending.payload⟩)
        { link with pending := none } := by
  rw [drainPendingHyfFrame, ByteCodec.run_get_bind, hpending]
  dsimp only
  rw [if_neg (not_not.mpr hcommand), if_neg (Nat.not_lt.mpr hroom), hdecode]
  rfl

/-- Without room for it a data frame stays where it is. -/
theorem drainPendingHyfFrame_short {output : List UInt8} {pending : PendingFrame frameMax}
    (hpending : link.pending = some pending) (hcommand : pending.command = kissCmdData)
    (hshort : output.length < pending.payload.length) :
    drainPendingHyfFrame output link =
      .error (.readBufferTooSmall output.length pending.payload.length) link := by
  rw [drainPendingHyfFrame, ByteCodec.run_get_bind, hpending]
  dsimp only
  rw [if_neg (not_not.mpr hcommand), if_pos hshort]
  rfl

/-- A data frame that does not decode is reported and cleared. -/
theorem drainPendingHyfFrame_error {output : List UInt8} {pending : PendingFrame frameMax}
    (hpending : link.pending = some pending) (hcommand : pending.command = kissCmdData)
    (hroom : pending.payload.length ≤ output.length) {error : HyfWireError}
    (hdecode : decodeEnvelope pending.payload = .error error) :
    drainPendingHyfFrame output link = .error (.hyfWire error) { link with pending := none } := by
  rw [drainPendingHyfFrame, ByteCodec.run_get_bind, hpending]
  dsimp only
  rw [if_neg (not_not.mpr hcommand), if_neg (Nat.not_lt.mpr hroom), hdecode]
  rfl

/-- Bytes that are no packet are reported and cleared. -/
theorem drainPendingRawRnsFrame_error (output : List UInt8) (params : RnsWrapParams)
    {pending : PendingFrame frameMax} (hpending : link.pending = some pending)
    (hcommand : pending.command = kissCmdData) {error : HyfLinkRnsError}
    (hvalidate : validateRnsPacket pending.payload = .error error) :
    drainPendingRawRnsFrame output params link = .error (.rns error) { link with pending := none } := by
  rw [drainPendingRawRnsFrame, ByteCodec.run_get_bind, hpending]
  dsimp only
  rw [if_neg (not_not.mpr hcommand), hvalidate]
  rfl

/-- A gateway poll drains the data frame that the loop stopped at. -/
theorem bind_nextDataFrame_true {α : Type} {nowMs : TimestampMs} {link' : RNodeSerialLink frameMax}
    (hnext : nextDataFrame nowMs link = .ok true link') (drain nothing : LinkM frameMax α) :
    ((nextDataFrame nowMs : LinkM frameMax Bool) >>= fun (pending : Bool) =>
      if pending then drain else nothing) link = drain link' := by
  rw [ByteCodec.run_bind_of_ok hnext]
  rfl

/-- A gateway poll fails where the loop fails. -/
theorem bind_nextDataFrame_error {α : Type} {nowMs : TimestampMs} {link' : RNodeSerialLink frameMax}
    {error : RNodeSerialError} (hnext : nextDataFrame nowMs link = .error error link')
    (drain nothing : LinkM frameMax α) :
    ((nextDataFrame nowMs : LinkM frameMax Bool) >>= fun (pending : Bool) =>
      if pending then drain else nothing) link = .error error link' := by
  rw [ByteCodec.run_bind_of_error hnext]

theorem pollGatewayFrameAt_eq (nowMs : TimestampMs) (output : List UInt8)
    (hmode : link.config.dataMode = .hyfEnvelope) :
    pollGatewayFrameAt nowMs output link = pollHyfGatewayFrame nowMs output link := by
  rw [pollGatewayFrameAt, ByteCodec.run_get_bind, if_neg (by rw [hmode]; decide)]

theorem pollGatewayFrameWithRnsParamsAt_eq (nowMs : TimestampMs) (output : List UInt8)
    (params : RnsWrapParams) (hmode : link.config.dataMode = .rawRnsPacket) :
    pollGatewayFrameWithRnsParamsAt nowMs output params link =
      pollRawRnsGatewayFrame nowMs output params link := by
  rw [pollGatewayFrameWithRnsParamsAt, ByteCodec.run_get_bind, if_neg (by rw [hmode]; decide)]

/-- With a data frame pending, the second loop of `poll_frame` has nothing to do. -/
theorem pollGatewayFrameAt_pending (nowMs : TimestampMs) (output : List UInt8)
    (hmode : link.config.dataMode = .hyfEnvelope) {pending : PendingFrame frameMax}
    (hpending : link.pending = some pending) (hcommand : pending.command = kissCmdData) :
    pollGatewayFrameAt nowMs output link = drainPendingHyfFrame output link := by
  have htake : takeUp nowMs link = .ok true link := by rw [takeUp, hpending]
  rw [pollGatewayFrameAt_eq nowMs output hmode]
  exact bind_nextDataFrame_true (nextDataFrame_data htake hpending hcommand) _ _

end RNodeSerialLink

/-- The driver's drain treats bytes that are no packet in the same way. -/
theorem RNodeRawRnsSerialDriver.drainPending_error {frameMax : ℕ} {π : Type}
    {link : RNodeSerialLink frameMax} (wrapParams : RnsWrapParamsProvider π) (provider : π)
    (output : List UInt8) {pending : PendingFrame frameMax} (hpending : link.pending = some pending)
    (hcommand : pending.command = kissCmdData) {error : HyfLinkRnsError}
    (hvalidate : validateRnsPacket pending.payload = .error error) :
    drainPendingRawRnsFrameWithProvider wrapParams output ⟨link, provider⟩ =
      .error (.rns error) ⟨{ link with pending := none }, provider⟩ := by
  rw [drainPendingRawRnsFrameWithProvider, ByteCodec.run_get_bind]
  dsimp only
  rw [hpending]
  dsimp only
  rw [if_neg (not_not.mpr hcommand), hvalidate]
  rfl

namespace Poll

variable {frameMax : ℕ} {π : Type} {link link' : RNodeSerialLink frameMax} {frame : KissFrameRef}
  {rest : List Arrival}

def nowMs : Poll π → TimestampMs
  | .event nowMs _ | .gatewayFrame nowMs _ | .withRnsParams nowMs _ _ | .frame nowMs _
  | .driver _ _ nowMs _ => nowMs

def IsGateway : Poll π → Prop
  | .event .. => False
  | _ => True

/-- A gateway poll fails where its loop fails. -/
theorem run_of_nextDataFrame_error {poll : Poll π} (hgateway : poll.IsGateway)
    (henabled : poll.Enabled link.config) {error : RNodeSerialError}
    (hnext : nextDataFrame poll.nowMs link = .error error link') :
    poll.run link = (.error error, link') := by
  cases poll with
  | event => exact hgateway.elim
  | gatewayFrame nowMs output =>
    have hrun : pollGatewayFrameAt nowMs output link = .error error link' := by
      rw [pollGatewayFrameAt_eq nowMs output henabled]
      exact bind_nextDataFrame_error hnext _ _
    rw [run, hrun]
    rfl
  | withRnsParams nowMs output params =>
    have hrun : pollGatewayFrameWithRnsParamsAt nowMs output params link = .error error link' := by
      rw [pollGatewayFrameWithRnsParamsAt_eq nowMs output params henabled]
      exact bind_nextDataFrame_error hnext _ _
    rw [run, hrun]
    rfl
  | frame nowMs output =>
    have hrun : pollFrame nowMs output link = .error error link' := bind_nextDataFrame_error hnext _ _
    rw [run, hrun]
    rfl
  | driver wrapParams provider nowMs output =>
    have hrun : RNodeRawRnsSerialDriver.pollFrame wrapParams nowMs output ⟨link, provider⟩ =
        .error error ⟨link', provider⟩ := by
      show EStateM.bind (RNodeRawRnsSerialDriver.onLink (nextDataFrame nowMs)) _ _ = _
      have hloop : nextDataFrame nowMs link = .error error link' := hnext
      simp only [EStateM.bind, RNodeRawRnsSerialDriver.onLink, hloop]
    rw [run, hrun]
    rfl

theorem ComesTo.reports {poll : Poll π} (hgateway : poll.IsGateway)
    (h : poll.ComesTo link frame rest) :
    ∃ reports : List KissFrameRef, (∀ report ∈ reports, IsReport report) ∧
      link.arrivals = reports.map .frame ++ .frame frame :: rest := by
  cases poll with
  | event => exact hgateway.elim
  | _ => exact h.2

/-- **The wedge**: a poll that comes to a malformed report fails, and has the report in front again. -/
theorem run_malformed {poll : Poll π} (h : poll.ComesTo link frame rest)
    (hmalformed : IsMalformed frame) :
    ∃ error link', poll.rejection link.config frame = some error ∧
      poll.run link = (.error error, link') ∧ link'.arrivals = .frame frame :: rest := by
  obtain ⟨hcommand, error, hparse⟩ := hmalformed
  have hrejection : poll.rejection link.config frame = some (.rnode error) := by
    rw [rejection, if_neg hcommand, hparse]
    rfl
  by_cases hgateway : poll.IsGateway
  · obtain ⟨reports, hreports, harrivals⟩ := h.reports hgateway
    obtain ⟨link', hnext, hadvanced⟩ :=
      nextDataFrame_atMalformed poll.nowMs hreports harrivals hcommand hparse
    exact ⟨_, link', hrejection, run_of_nextDataFrame_error hgateway h.1 hnext, hadvanced.arrivals_eq⟩
  · match poll, h with
    | .event nowMs output, h =>
      obtain ⟨taken, pending, htake, hleaves, hpending, rfl⟩ := takeUp_frame nowMs h.2
      have hrun : pollEventAt nowMs output link = .error (.rnode error) taken := by
        rw [pollEventAt_taken htake hpending, if_neg (show ¬pending.command = _ from hcommand)]
        exact drainPendingCommand_error hpending hcommand hparse
      refine ⟨_, taken, hrejection, ?_, hleaves.arrivals_eq⟩
      rw [run, hrun]
      rfl
    | .gatewayFrame .., _ | .withRnsParams .., _ | .frame .., _ | .driver .., _ =>
      exact absurd trivial hgateway

/-- What makes the envelope polls reject a data frame. -/
theorem hyfRejection {config : RNodeSerialConfig} {output payload : List UInt8}
    {error : RNodeSerialError} (h : (if config.dataMode = .rawRnsPacket ∨
      output.length < payload.length then none
      else errorOf .hyfWire (decodeEnvelope payload)) = some error) :
    config.dataMode = .hyfEnvelope ∧ payload.length ≤ output.length ∧
      ∃ decodeError, decodeEnvelope payload = .error decodeError ∧ error = .hyfWire decodeError := by
  split_ifs at h with hbad
  obtain ⟨hmode, hroom⟩ := not_or.mp hbad
  refine ⟨?_, Nat.le_of_not_lt hroom, errorOf_eq_some h⟩
  cases hdata : config.dataMode with
  | hyfEnvelope => rfl
  | rawRnsPacket => exact absurd hdata hmode

/-- A data frame that a poll rejects is consumed. -/
theorem run_rejectedData {poll : Poll π} (h : poll.ComesTo link frame rest)
    (hcommand : frame.command = kissCmdData) {error : RNodeSerialError}
    (hrejection : poll.dataRejection link.config frame.payload = some error) :
    ∃ link', poll.run link = (.error error, link') ∧ link'.arrivals = rest := by
  by_cases hgateway : poll.IsGateway
  · obtain ⟨reports, hreports, harrivals⟩ := h.reports hgateway
    obtain ⟨taken, pending, hnext, hpending, rfl, hadvanced⟩ :=
      nextDataFrame_atData poll.nowMs hreports harrivals hcommand
    have hconfig := hadvanced.polled.config_eq
    have hcleared := (advanced_cleared hadvanced.arrivals_eq hpending).arrivals_eq
    refine ⟨{ taken with pending := none }, ?_, hcleared⟩
    cases poll with
    | event => exact hgateway.elim
    | gatewayFrame nowMs output =>
      obtain ⟨hmode, hroom, decodeError, hdecode, rfl⟩ := hyfRejection hrejection
      have hrun : pollGatewayFrameAt nowMs output link =
          .error (.hyfWire decodeError) { taken with pending := none } := by
        rw [pollGatewayFrameAt_eq nowMs output hmode]
        exact (bind_nextDataFrame_true hnext _ _).trans
          (drainPendingHyfFrame_error hpending hcommand hroom hdecode)
      rw [run, hrun]
      rfl
    | withRnsParams nowMs output params =>
      obtain ⟨packetError, hvalidate, rfl⟩ := errorOf_eq_some hrejection
      have hrun : pollGatewayFrameWithRnsParamsAt nowMs output params link =
          .error (.rns packetError) { taken with pending := none } := by
        rw [pollGatewayFrameWithRnsParamsAt_eq nowMs output params h.1]
        exact (bind_nextDataFrame_true hnext _ _).trans
          (drainPendingRawRnsFrame_error output params hpending hcommand hvalidate)
      rw [run, hrun]
      rfl
    | frame nowMs output =>
      obtain ⟨hmode, hroom, decodeError, hdecode, rfl⟩ := hyfRejection hrejection
      have hrun : pollFrame nowMs output link =
          .error (.hyfWire decodeError) { taken with pending := none } := by
        have hpoll := pollGatewayFrameAt_pending nowMs output (hconfig ▸ hmode) hpending hcommand
        exact (bind_nextDataFrame_true hnext _ _).trans
          (hpoll.trans (drainPendingHyfFrame_error hpending hcommand hroom hdecode))
      rw [run, hrun]
      rfl
    | driver wrapParams provider nowMs output =>
      obtain ⟨packetError, hvalidate, rfl⟩ := errorOf_eq_some hrejection
      have hloop : nextDataFrame nowMs link = .ok true taken := hnext
      have hrun : RNodeRawRnsSerialDriver.pollFrame wrapParams nowMs output ⟨link, provider⟩ =
          .error (.rns packetError) ⟨{ taken with pending := none }, provider⟩ := by
        show EStateM.bind (RNodeRawRnsSerialDriver.onLink (nextDataFrame nowMs)) _ _ = _
        simp only [EStateM.bind, RNodeRawRnsSerialDriver.onLink, hloop]
        rw [if_pos trivial]
        exact RNodeRawRnsSerialDriver.drainPending_error wrapParams provider output hpending hcommand
          hvalidate
      rw [run, hrun]
      rfl
  · cases poll with
    | event => cases hrejection
    | _ => exact absurd trivial hgateway

end Poll

/-- **A poll consumes the frames it rejects exactly when it does not come to a malformed report.** -/
theorem consumesRejected_iff {frameMax : ℕ} {π : Type} (poll : Poll π)
    (link : RNodeSerialLink frameMax) :
    ConsumesRejected poll link ↔
      ∀ frame rest, poll.ComesTo link frame rest → ¬IsMalformed frame := by
  constructor
  · intro hconsumes frame rest hcomes hmalformed
    obtain ⟨error, link', hrejection, hrun, hkept⟩ := Poll.run_malformed hcomes hmalformed
    obtain ⟨link'', hrun', hgoes⟩ := hconsumes frame rest error hcomes hrejection
    -- the frame is still in front, not gone
    rw [hrun] at hrun'
    cases hrun'
    have hlen := congrArg List.length (hkept.symm.trans hgoes.arrivals_eq)
    simp at hlen
  · intro hgood frame rest error hcomes hrejection
    by_cases hcommand : frame.command = kissCmdData
    · rw [Poll.rejection, if_pos hcommand] at hrejection
      obtain ⟨link', hrun, harrivals⟩ := Poll.run_rejectedData hcomes hcommand hrejection
      exact ⟨link', hrun, goesOnWith_of_arrivals harrivals⟩
    · refine absurd ⟨hcommand, ?_⟩ (hgood frame rest hcomes)
      rw [Poll.rejection, if_neg hcommand] at hrejection
      obtain ⟨parseError, hparse, -⟩ := Poll.errorOf_eq_some hrejection
      exact ⟨parseError, hparse⟩

/-- A `Ready` report of two bytes, and a good one behind it. -/
def wedgedLink : RNodeSerialLink 16 where
  config := ⟨⟨fillBytes 16 1⟩, 8, true, .hyfEnvelope⟩
  io := ⟨[0xc0, 0x0f, 0x01, 0x02, 0xc0, 0x0f, 0xc0].map fun byte => .ok (1, byte), [], []⟩
  state := RNodeState.new true
  decoder := KissDecoder.new 16
  pending := none
  capacity := Nat.le_of_ble_eq_true rfl

/-- The malformed report is not consumed: the next poll reports it again, and the good report behind it
is never taken up. -/
theorem not_consumesRejected_wedgedLink :
    ¬ConsumesRejected (Poll.event 0 [] : Poll Unit) wedgedLink ∧
      (pollEventAt 0 [] wedgedLink).outcome = .error (.rnode (.invalidPayloadLength 0x0f 2 1)) ∧
      pollEventAt 9 [] (pollEventAt 0 [] wedgedLink).state =
        .error (.rnode (.invalidPayloadLength 0x0f 2 1)) (pollEventAt 0 [] wedgedLink).state := by
  have hcomes : (Poll.event 0 [] : Poll Unit).ComesTo wedgedLink ⟨0x0f, [0x01, 0x02]⟩
      [.frame ⟨0x0f, []⟩] := ⟨trivial, rfl⟩
  have hmalformed : IsMalformed ⟨0x0f, [0x01, 0x02]⟩ := ⟨by decide, _, rfl⟩
  refine ⟨?_, rfl, rfl⟩
  intro hconsumes
  obtain ⟨error, link', hrejection, hrun, hkept⟩ := Poll.run_malformed hcomes hmalformed
  obtain ⟨link'', hrun', hgoes⟩ := hconsumes _ _ error hcomes hrejection
  rw [hrun] at hrun'
  cases hrun'
  have hlen := congrArg List.length (hkept.symm.trans hgoes.arrivals_eq)
  simp at hlen

end Hyf.RNodeSerial
