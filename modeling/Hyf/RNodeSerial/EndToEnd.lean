import Hyf.RNodeSerial.Port
import Hyf.RNodeSerial.Rejected
import Hyf.Wire.EnvelopeTheorems
import Mathlib.Logic.Relation

/-!
# The link end to end

One link writes into a wire, another reads from it. Between the two stand the bytes on the wire, the
bytes at the reader's port, its decoder and its pending slot. Together they always hold exactly the
payloads that were sent and not yet received, in order: that is the invariant of every interleaving of
sends, arriving bytes and polls.
-/

namespace Hyf.RNodeSerial

open RNodeSerialLink

/-! ## The wire between two links -/

/-- Two links, how many of the bytes that the first has written have arrived at the second, the payloads
of the sends that succeeded, and the frames that were received. -/
structure LinkPair (sendMax receiveMax : ℕ) where
  sender : RNodeSerialLink sendMax
  receiver : RNodeSerialLink receiveMax
  arrived : ℕ
  sent : List (List UInt8)
  received : List (List UInt8)

namespace LinkPair

variable {sendMax receiveMax : ℕ}

/-- The receiver's port with one more byte. -/
def arrive (link : RNodeSerialLink receiveMax) (byte : UInt8) : RNodeSerialLink receiveMax :=
  { link with io := { link.io with reads := link.io.reads ++ [.ok (1, byte)] } }

/-- One step: a send, a poll of the sender over any incoming bytes of its own, the arrival of one byte,
or a poll of the receiver. -/
inductive Step : LinkPair sendMax receiveMax → LinkPair sendMax receiveMax → Prop
  | sendOk {pair : LinkPair sendMax receiveMax} {bytes : List UInt8} {sender}
      (h : sendGatewayBytes bytes pair.sender = .ok () sender) :
      Step pair { pair with sender, sent := pair.sent ++ [bytes] }
  | sendError {pair : LinkPair sendMax receiveMax} {bytes : List UInt8} {error sender}
      (h : sendGatewayBytes bytes pair.sender = .error error sender) :
      Step pair { pair with sender }
  | senderPort (pair : LinkPair sendMax receiveMax) (reads : List ReadResult) :
      Step pair { pair with
        sender := { pair.sender with io := { pair.sender.io with reads } } }
  | senderPoll {π : Type} (pair : LinkPair sendMax receiveMax) (poll : Poll π) :
      Step pair { pair with sender := (poll.run pair.sender).2 }
  | arrival {pair : LinkPair sendMax receiveMax} {byte : UInt8}
      (h : pair.sender.io.written[pair.arrived]? = some byte) :
      Step pair { pair with receiver := arrive pair.receiver byte, arrived := pair.arrived + 1 }
  | pollOk {pair : LinkPair sendMax receiveMax} {nowMs : TimestampMs} {output : List UInt8}
      {frame : Option LinkFrameRef} {receiver}
      (h : pollGatewayFrameAt nowMs output pair.receiver = .ok frame receiver) :
      Step pair { pair with
        receiver, received := pair.received ++ (frame.map LinkFrameRef.bytes).toList }
  | pollError {pair : LinkPair sendMax receiveMax} {nowMs : TimestampMs} {output : List UInt8}
      {error receiver} (h : pollGatewayFrameAt nowMs output pair.receiver = .error error receiver) :
      Step pair { pair with receiver }

/-- Two new links in envelope mode with the same mtu; no write fails, and nothing has arrived. -/
structure Initial (pair : LinkPair sendMax receiveMax) : Prop where
  sender_new : ∃ config io, RNodeSerialLink.new config io = .ok pair.sender ∧
    config.dataMode = .hyfEnvelope ∧ io.writes = [] ∧ io.written = []
  receiver_new : ∃ config io, RNodeSerialLink.new config io = .ok pair.receiver ∧
    config.dataMode = .hyfEnvelope ∧ io.reads = []
  mtu_eq : pair.sender.config.mtu = pair.receiver.config.mtu
  arrived_eq : pair.arrived = 0
  sent_eq : pair.sent = []
  received_eq : pair.received = []

/-- Any interleaving of the steps. -/
abbrev Run : LinkPair sendMax receiveMax → LinkPair sendMax receiveMax → Prop :=
  Relation.ReflTransGen Step

/-! ## What is under way -/

/-- The bytes on the wire, as the receiver's port will hand them over. -/
def wire (pair : LinkPair sendMax receiveMax) : List ReadResult :=
  (pair.sender.io.written.drop pair.arrived).map fun byte => .ok (1, byte)

/-- A payload in a data frame. -/
def dataFrame (payload : List UInt8) : Arrival := .frame ⟨kissCmdData, payload⟩

/-- The receiver and the wire hold the payloads that were sent and not yet received. -/
structure Underway (pair : LinkPair sendMax receiveMax) : Prop where
  sender_mode : pair.sender.config.dataMode = .hyfEnvelope
  receiver_mode : pair.receiver.config.dataMode = .hyfEnvelope
  mtu_eq : pair.sender.config.mtu = pair.receiver.config.mtu
  writes_eq : pair.sender.io.writes = []
  arrived_le : pair.arrived ≤ pair.sender.io.written.length
  holds : ∃ payloads : List (List UInt8), pair.sent = pair.received ++ payloads ∧
    (∀ payload ∈ payloads, payload.length ≤ pair.receiver.config.mtu ∧
      ∃ envelope, decodeEnvelope payload = .ok envelope) ∧
    pair.receiver.arrivals ++ receive.outputs pair.receiver.lastDecoder pair.wire =
      payloads.map dataFrame
  settled : (receive.final pair.receiver.lastDecoder pair.wire).Idle ∧
    (receive.final pair.receiver.lastDecoder pair.wire).openFrame = none

/-! ## Bytes at the port -/

/-- Bytes that are read one by one are decoded as a stream. -/
theorem receive_final_bytes (decoder : KissDecoder receiveMax) (bytes : List UInt8) :
    receive.final decoder (bytes.map fun byte => .ok (1, byte)) = KissDecoder.next.final decoder bytes := by
  induction bytes generalizing decoder with
  | nil => rfl
  | cons byte bytes ih => exact ih (decoder.next byte).1

theorem receive_outputs_bytes (decoder : KissDecoder receiveMax) (bytes : List UInt8) :
    receive.outputs decoder (bytes.map fun byte => .ok (1, byte)) =
      (KissDecoder.next.outputs decoder bytes).map Arrival.ofReport := by
  induction bytes generalizing decoder with
  | nil => rfl
  | cons byte bytes ih =>
    have hbyte : receive decoder (.ok (1, byte)) =
        ((decoder.next byte).1, (decoder.next byte).2.map .ofReport) := by simp [receive]
    rw [List.map_cons, Mealy.outputs_cons, hbyte, ih, Mealy.outputs_cons, List.map_append]
    cases (decoder.next byte).2 <;> rfl

/-- A frame on the wire, from a decoder with nothing open. -/
theorem receive_frameBytes {decoder : KissDecoder receiveMax} (hidle : decoder.Idle)
    (hopen : decoder.openFrame = none) {payload : List UInt8}
    (hfit : 1 + payload.length ≤ receiveMax) :
    receive.outputs decoder ((frameBytes kissCmdData payload).map fun byte => .ok (1, byte)) =
        [dataFrame payload] ∧
      receive.final decoder ((frameBytes kissCmdData payload).map fun byte => .ok (1, byte)) =
        KissDecoder.boundary receiveMax := by
  have hruns : KissDecoder.next.Runs decoder (frameBytes kissCmdData payload) _ _ :=
    KissDecoder.runs_frameBytes hidle (by decide) (by decide) hfit
  rw [receive_outputs_bytes, receive_final_bytes, hruns.outputs_eq, hruns.final_eq, hopen]
  exact ⟨rfl, rfl⟩

theorem arrivals_arrive (link : RNodeSerialLink receiveMax) (byte : UInt8) :
    (arrive link byte).arrivals =
      link.arrivals ++ receive.outputs link.lastDecoder [.ok (1, byte)] := by
  show _ ++ receive.outputs link.decoder (link.io.reads ++ [.ok (1, byte)]) = _
  rw [Mealy.outputs_append, ← List.append_assoc]
  rfl

theorem lastDecoder_arrive (link : RNodeSerialLink receiveMax) (byte : UInt8) :
    (arrive link byte).lastDecoder = receive.final link.lastDecoder [.ok (1, byte)] :=
  Mealy.final_append _ _ _ _

/-! ## The receiver's polls -/

variable {link : RNodeSerialLink receiveMax} {payload : List UInt8} {rest : List Arrival}

theorem pollGatewayFrameAt_empty (nowMs : TimestampMs) (output : List UInt8)
    (hmode : link.config.dataMode = .hyfEnvelope) (h : link.arrivals = []) :
    ∃ link', pollGatewayFrameAt nowMs output link = .ok none link' ∧ link.Advanced link' [] := by
  obtain ⟨link', htake, hleaves⟩ := takeUp_nil nowMs h
  refine ⟨link', ?_, hleaves.advanced⟩
  rw [pollGatewayFrameAt_eq nowMs output hmode]
  exact ByteCodec.run_bind_of_ok (nextDataFrame_none htake) _

/-- A payload in front that decodes is returned when there is room for it, and otherwise kept. -/
theorem pollGatewayFrameAt_dataFrame (nowMs : TimestampMs) (output : List UInt8)
    (hmode : link.config.dataMode = .hyfEnvelope) (h : link.arrivals = dataFrame payload :: rest)
    (hdecode : ∃ envelope, decodeEnvelope payload = .ok envelope) :
    (payload.length ≤ output.length → ∃ frame link',
        pollGatewayFrameAt nowMs output link = .ok (some frame) link' ∧ frame.bytes = payload ∧
          link.Advanced link' rest) ∧
      (output.length < payload.length → ∃ link',
        pollGatewayFrameAt nowMs output link =
            .error (.readBufferTooSmall output.length payload.length) link' ∧
          link.Advanced link' (dataFrame payload :: rest)) := by
  obtain ⟨envelope, hdecode⟩ := hdecode
  obtain ⟨taken, pending, hnext, hpending, hframe, hadvanced⟩ :=
    @nextDataFrame_atData _ link rest ⟨kissCmdData, payload⟩ nowMs [] (by simp) h rfl
  have hcommand : pending.command = kissCmdData := congrArg KissFrameRef.command hframe
  obtain rfl : pending.payload = payload := congrArg KissFrameRef.payload hframe
  -- the loop has taken the payload up, and the drain looks at it
  have hpoll : pollGatewayFrameAt nowMs output link = drainPendingHyfFrame output taken := by
    rw [pollGatewayFrameAt_eq nowMs output hmode]
    exact bind_nextDataFrame_true hnext _ _
  constructor
  · intro hroom
    exact ⟨_, _, hpoll.trans (drainPendingHyfFrame_ok hpending hcommand hroom hdecode), rfl,
      hadvanced.trans (advanced_cleared hadvanced.arrivals_eq hpending)⟩
  · intro hshort
    exact ⟨taken, hpoll.trans (drainPendingHyfFrame_short hpending hcommand hshort), hadvanced⟩

/-! ## The invariant -/

theorem Initial.underway {pair : LinkPair sendMax receiveMax} (h : pair.Initial) : pair.Underway := by
  obtain ⟨config, io, hsender, hmode, hwrites, hwritten⟩ := h.sender_new
  obtain ⟨config', io', hreceiver, hmode', hreads⟩ := h.receiver_new
  obtain ⟨hconfig, hio, -⟩ := new_eq_ok hsender
  obtain ⟨hconfig', hio', -, hdecoder, hpending⟩ := new_eq_ok hreceiver
  have hnothing : pair.wire = [] := by rw [wire, hio, hwritten, List.drop_nil, List.map_nil]
  have hlast : pair.receiver.lastDecoder = KissDecoder.new receiveMax := by
    rw [lastDecoder, hdecoder, hio', hreads, Mealy.final_nil]
  refine ⟨hconfig ▸ hmode, hconfig' ▸ hmode', h.mtu_eq, hio ▸ hwrites, ?_,
    ⟨[], ?_, by simp, ?_⟩, ?_⟩
  · rw [h.arrived_eq]
    exact Nat.zero_le _
  · rw [h.sent_eq, h.received_eq, List.append_nil]
  · rw [hnothing, arrivals_none hpending, hio', hreads]
    rfl
  · rw [hnothing, hlast]
    exact ⟨KissDecoder.idle_new, rfl⟩

/-- In envelope mode the payload is the bytes themselves, if they decode. -/
theorem payloadForSend_hyf {sender : RNodeSerialLink sendMax} {bytes payload : List UInt8}
    (hmode : sender.config.dataMode = .hyfEnvelope) (h : sender.payloadForSend bytes = .ok payload) :
    payload = bytes ∧ ∃ envelope, decodeEnvelope bytes = .ok envelope := by
  rw [payloadForSend, hmode] at h
  cases hdecode : decodeEnvelope bytes with
  | error error =>
    rw [hdecode] at h
    cases h
  | ok envelope =>
    rw [hdecode] at h
    cases h
    exact ⟨rfl, envelope, rfl⟩

/-- A send in envelope mode that succeeds has written the frame of its bytes. -/
theorem sendGatewayBytes_ok {sender sender' : RNodeSerialLink sendMax} {bytes : List UInt8}
    (hmode : sender.config.dataMode = .hyfEnvelope) (hwrites : sender.io.writes = [])
    (h : sendGatewayBytes bytes sender = .ok () sender') :
    sender'.config = sender.config ∧ sender'.io.writes = [] ∧
      sender'.io.written = sender.io.written ++ frameBytes kissCmdData bytes ∧
      bytes.length ≤ sender.config.mtu ∧ ∃ envelope, decodeEnvelope bytes = .ok envelope := by
  rcases sendGatewayBytes_cases sender bytes with
    ⟨error, hsend⟩ | ⟨payload, error, io, -, -, hsend⟩ | ⟨payload, io, hadmits, hwrite, hsend⟩
  · rw [hsend] at h
    cases h
  · rw [hsend] at h
    cases h
  · rw [hsend] at h
    cases h
    obtain ⟨rfl, hdecode⟩ := payloadForSend_hyf hmode hadmits.payload_eq
    obtain ⟨port, hwrote⟩ := wroteAll_of_writes hwrites (framePieces kissCmdData payload)
    rw [writeKissFrame_eq, hwrote.run_eq] at hwrite
    cases hwrite
    refine ⟨rfl, ?_, ?_, hadmits.length_le, hdecode⟩
    · show io.writes = []
      rw [hwrote.writes_eq, hwrites, List.drop_nil]
    · show io.written = _
      rw [hwrote.written_eq, flatten_framePieces]

/-- A send that fails while no write does was refused, and nothing has changed. -/
theorem sendGatewayBytes_error {sender sender' : RNodeSerialLink sendMax} {bytes : List UInt8}
    {error : RNodeSerialError} (hwrites : sender.io.writes = [])
    (h : sendGatewayBytes bytes sender = .error error sender') : sender' = sender := by
  rcases sendGatewayBytes_cases sender bytes with
    ⟨error, hsend⟩ | ⟨payload, error, io, -, hwrite, -⟩ | ⟨payload, io, -, -, hsend⟩
  · rw [hsend] at h
    cases h
    rfl
  · obtain ⟨port, hwrote⟩ := wroteAll_of_writes hwrites (framePieces kissCmdData payload)
    rw [writeKissFrame_eq, hwrote.run_eq] at hwrite
    cases hwrite
  · rw [hsend] at h
    cases h

/-- The sender's other calls leave its mode and what it writes alone. -/
theorem Underway.of_sender {pair : LinkPair sendMax receiveMax} (h : pair.Underway)
    {sender : RNodeSerialLink sendMax} (hconfig : sender.config = pair.sender.config)
    (hwrites : sender.io.writes = pair.sender.io.writes)
    (hwritten : sender.io.written = pair.sender.io.written) :
    ({ pair with sender } : LinkPair sendMax receiveMax).Underway := by
  have hwire : ({ pair with sender } : LinkPair sendMax receiveMax).wire = pair.wire := by
    rw [wire, wire, hwritten]
  refine ⟨hconfig ▸ h.sender_mode, h.receiver_mode, hconfig ▸ h.mtu_eq, hwrites ▸ h.writes_eq,
    hwritten ▸ h.arrived_le, ?_, ?_⟩
  · rw [hwire]
    exact h.holds
  · rw [hwire]
    exact h.settled

/-- A send that succeeds puts its payload last. -/
theorem Underway.sendOk {pair : LinkPair sendMax receiveMax} (h : pair.Underway)
    {bytes : List UInt8} {sender : RNodeSerialLink sendMax}
    (hsend : sendGatewayBytes bytes pair.sender = .ok () sender) :
    ({ pair with sender, sent := pair.sent ++ [bytes] } : LinkPair sendMax receiveMax).Underway := by
  obtain ⟨hconfig, hwrites, hwritten, hlen, hdecode⟩ :=
    sendGatewayBytes_ok h.sender_mode h.writes_eq hsend
  obtain ⟨payloads, hsent, hgood, harrivals⟩ := h.holds
  obtain ⟨hidle, hopen⟩ := h.settled
  have hwire : ({ pair with sender, sent := pair.sent ++ [bytes] } :
      LinkPair sendMax receiveMax).wire =
      pair.wire ++ (frameBytes kissCmdData bytes).map fun byte => .ok (1, byte) := by
    rw [wire, wire, hwritten, List.drop_append_of_le_length h.arrived_le, List.map_append]
  have hfit : 1 + bytes.length ≤ receiveMax := by
    have hcapacity := pair.receiver.capacity
    have hmtu := h.mtu_eq
    omega
  -- the frame of the new payload is decoded behind everything that is under way
  obtain ⟨hframe, hfinal⟩ := receive_frameBytes hidle hopen hfit
  refine ⟨hconfig ▸ h.sender_mode, h.receiver_mode, hconfig ▸ h.mtu_eq, hwrites, ?_,
    ⟨payloads ++ [bytes], ?_, ?_, ?_⟩, ?_⟩
  · show pair.arrived ≤ sender.io.written.length
    rw [hwritten, List.length_append]
    exact Nat.le_add_right_of_le h.arrived_le
  · show pair.sent ++ [bytes] = pair.received ++ (payloads ++ [bytes])
    rw [hsent, List.append_assoc]
  · intro payload hpayload
    rcases List.mem_append.mp hpayload with hold | hnew
    · exact hgood payload hold
    · obtain rfl := List.mem_singleton.mp hnew
      exact ⟨h.mtu_eq ▸ hlen, hdecode⟩
  · rw [hwire, Mealy.outputs_append, hframe, ← List.append_assoc, harrivals, List.map_append]
    rfl
  · rw [hwire, Mealy.final_append, hfinal]
    exact ⟨KissDecoder.idle_boundary, rfl⟩

/-- A byte that arrives moves from the wire to the receiver's port. -/
theorem Underway.arrival {pair : LinkPair sendMax receiveMax} (h : pair.Underway) {byte : UInt8}
    (hbyte : pair.sender.io.written[pair.arrived]? = some byte) :
    ({ pair with receiver := arrive pair.receiver byte, arrived := pair.arrived + 1 } :
      LinkPair sendMax receiveMax).Underway := by
  obtain ⟨hlt, hbyte⟩ := List.getElem?_eq_some_iff.mp hbyte
  have hwire : pair.wire = [.ok (1, byte)] ++ ({ pair with
      receiver := arrive pair.receiver byte, arrived := pair.arrived + 1 } :
        LinkPair sendMax receiveMax).wire := by
    rw [wire, wire, List.drop_eq_getElem_cons hlt, hbyte]
    rfl
  obtain ⟨payloads, hsent, hgood, harrivals⟩ := h.holds
  refine ⟨h.sender_mode, h.receiver_mode, h.mtu_eq, h.writes_eq, hlt, ⟨payloads, hsent, hgood, ?_⟩, ?_⟩
  · rw [hwire, Mealy.outputs_append, ← List.append_assoc] at harrivals
    rw [arrivals_arrive, lastDecoder_arrive]
    exact harrivals
  · have hsettled := h.settled
    rw [hwire, Mealy.final_append] at hsettled
    rw [lastDecoder_arrive]
    exact hsettled

/-- The receiver took what was in front of it, and what it handed over is received. -/
theorem Underway.of_receiver {pair : LinkPair sendMax receiveMax} (h : pair.Underway)
    {receiver : RNodeSerialLink receiveMax} {rest : List Arrival}
    (hadvanced : pair.receiver.Advanced receiver rest) {received payloads : List (List UInt8)}
    (hsent : pair.sent = received ++ payloads)
    (hgood : ∀ payload ∈ payloads, payload.length ≤ pair.receiver.config.mtu ∧
      ∃ envelope, decodeEnvelope payload = .ok envelope)
    (hrest : rest ++ receive.outputs pair.receiver.lastDecoder pair.wire = payloads.map dataFrame) :
    ({ pair with receiver, received } : LinkPair sendMax receiveMax).Underway := by
  have hconfig := hadvanced.polled.config_eq
  refine ⟨h.sender_mode, hconfig ▸ h.receiver_mode, hconfig ▸ h.mtu_eq, h.writes_eq, h.arrived_le,
    ⟨payloads, hsent, hconfig ▸ hgood, ?_⟩, ?_⟩
  · rw [hadvanced.arrivals_eq, hadvanced.lastDecoder_eq]
    exact hrest
  · rw [hadvanced.lastDecoder_eq]
    exact h.settled

/-- **What a poll of the receiver does**: it finds nothing, it returns the next payload, or it keeps
that payload because the output is too short. -/
theorem Underway.poll_cases {pair : LinkPair sendMax receiveMax} (h : pair.Underway)
    (nowMs : TimestampMs) (output : List UInt8) :
    (∃ receiver, pollGatewayFrameAt nowMs output pair.receiver = .ok none receiver ∧
        pair.receiver.arrivals = [] ∧
        ({ pair with receiver } : LinkPair sendMax receiveMax).Underway) ∨
      (∃ frame receiver, pollGatewayFrameAt nowMs output pair.receiver = .ok (some frame) receiver ∧
        ({ pair with receiver, received := pair.received ++ [frame.bytes] } :
          LinkPair sendMax receiveMax).Underway) ∨
      ∃ required receiver, pollGatewayFrameAt nowMs output pair.receiver =
          .error (.readBufferTooSmall output.length required) receiver ∧
        output.length < required ∧ required ≤ pair.receiver.config.mtu ∧
        ({ pair with receiver } : LinkPair sendMax receiveMax).Underway := by
  obtain ⟨payloads, hsent, hgood, harrivals⟩ := h.holds
  cases hfront : pair.receiver.arrivals with
  | nil =>
    obtain ⟨receiver, hpoll, hadvanced⟩ :=
      pollGatewayFrameAt_empty nowMs output h.receiver_mode hfront
    rw [hfront] at harrivals
    exact .inl ⟨receiver, hpoll, rfl, h.of_receiver hadvanced hsent hgood harrivals⟩
  | cons arrival rest =>
    rw [hfront] at harrivals
    -- the arrival in front is the first payload that is under way
    obtain ⟨payload, payloads', rfl⟩ : ∃ payload payloads', payloads = payload :: payloads' := by
      cases payloads with
      | nil => cases harrivals
      | cons payload payloads' => exact ⟨payload, payloads', rfl⟩
    rw [List.map_cons, List.cons_append] at harrivals
    obtain ⟨rfl, hrest⟩ := List.cons.inj harrivals
    obtain ⟨hlen, hdecode⟩ := hgood payload List.mem_cons_self
    obtain ⟨hroom, hshort⟩ := pollGatewayFrameAt_dataFrame nowMs output h.receiver_mode hfront hdecode
    rcases Nat.lt_or_ge output.length payload.length with hlt | hge
    · obtain ⟨receiver, hpoll, hadvanced⟩ := hshort hlt
      refine .inr (.inr ⟨_, receiver, hpoll, hlt, hlen, h.of_receiver hadvanced hsent hgood ?_⟩)
      rw [List.map_cons, List.cons_append, hrest]
    · obtain ⟨frame, receiver, hpoll, rfl, hadvanced⟩ := hroom hge
      refine .inr (.inl ⟨frame, receiver, hpoll, h.of_receiver hadvanced ?_ ?_ hrest⟩)
      · rw [hsent, List.append_assoc]
        rfl
      · exact fun payload hpayload => hgood payload (List.mem_cons_of_mem _ hpayload)

/-- Every step keeps the invariant. -/
theorem Step.underway {pair pair' : LinkPair sendMax receiveMax} (h : Step pair pair')
    (hunder : pair.Underway) : pair'.Underway := by
  cases h with
  | sendOk hsend => exact hunder.sendOk hsend
  | sendError hsend =>
    obtain rfl := sendGatewayBytes_error hunder.writes_eq hsend
    exact hunder
  | senderPort _ reads => exact hunder.of_sender rfl rfl rfl
  | senderPoll _ poll =>
    have hpolled := poll.polled_run pair.sender
    exact hunder.of_sender hpolled.config_eq hpolled.writes_eq hpolled.written_eq
  | arrival hbyte => exact hunder.arrival hbyte
  | @pollOk _ nowMs output _ _ hpoll =>
    rcases hunder.poll_cases nowMs output with
      ⟨receiver, hnone, -, hafter⟩ | ⟨frame, receiver, hframe, hafter⟩ | ⟨_, _, hshort, -⟩
    · rw [hnone] at hpoll
      cases hpoll
      rw [Option.map_none, Option.toList_none, List.append_nil]
      exact hafter
    · rw [hframe] at hpoll
      cases hpoll
      exact hafter
    · rw [hshort] at hpoll
      cases hpoll
  | @pollError _ nowMs output _ _ hpoll =>
    rcases hunder.poll_cases nowMs output with
      ⟨_, hnone, -⟩ | ⟨_, _, hframe, -⟩ | ⟨_, receiver, hshort, -, -, hafter⟩
    · rw [hnone] at hpoll
      cases hpoll
    · rw [hframe] at hpoll
      cases hpoll
    · rw [hshort] at hpoll
      cases hpoll
      exact hafter

theorem Run.underway {pair pair' : LinkPair sendMax receiveMax} (h : Run pair pair')
    (hunder : pair.Underway) : pair'.Underway := by
  induction h with
  | refl => exact hunder
  | tail _ hstep ih => exact hstep.underway ih

/-! ## Draining -/

/-- The payloads of what a sequence of polls returned. -/
def returned (frames : List (Option LinkFrameRef)) : List (List UInt8) :=
  frames.filterMap fun frame => frame.map LinkFrameRef.bytes

/-- Once every byte has arrived, each poll with enough room returns the next payload, until none is
left. -/
theorem Underway.polls {pair : LinkPair sendMax receiveMax} (h : pair.Underway)
    (hall : pair.arrived = pair.sender.io.written.length) (polls : List (TimestampMs × List UInt8))
    (hroom : ∀ poll ∈ polls, pair.receiver.config.mtu ≤ poll.2.length) :
    ∃ frames receiver, polls.mapM (fun poll => pollGatewayFrameAt poll.1 poll.2) pair.receiver =
        .ok frames receiver ∧
      pair.received ++ returned frames = pair.sent.take (pair.received.length + polls.length) := by
  have hwire : pair.wire = [] := by rw [wire, hall, List.drop_length, List.map_nil]
  induction polls generalizing pair with
  | nil =>
    obtain ⟨payloads, hsent, -⟩ := h.holds
    refine ⟨[], pair.receiver, rfl, ?_⟩
    rw [hsent, List.length_nil, Nat.add_zero, List.take_left]
    exact List.append_nil _
  | cons poll polls ih =>
    have hrest (receiver : RNodeSerialLink receiveMax) (first : Option LinkFrameRef)
        (hfirst : pollGatewayFrameAt poll.1 poll.2 pair.receiver = .ok first receiver)
        (frames : List (Option LinkFrameRef)) (receiver' : RNodeSerialLink receiveMax)
        (hrest : polls.mapM (fun poll => pollGatewayFrameAt poll.1 poll.2) receiver =
          .ok frames receiver') :
        (poll :: polls).mapM (fun poll => pollGatewayFrameAt poll.1 poll.2) pair.receiver =
          .ok (first :: frames) receiver' := by
      rw [List.mapM_cons]
      rw [ByteCodec.run_bind_of_ok hfirst]
      rw [ByteCodec.run_bind_of_ok hrest]
      rfl
    have hconfig (receiver : RNodeSerialLink receiveMax) (first : Option LinkFrameRef)
        (hfirst : pollGatewayFrameAt poll.1 poll.2 pair.receiver = .ok first receiver) :
        ∀ poll ∈ polls, receiver.config.mtu ≤ poll.2.length := by
      have hpolled := (keptByDrains_polled.pollGatewayFrameAt poll.1 poll.2).state_related pair.receiver
      rw [hfirst] at hpolled
      rw [show receiver.config = _ from hpolled.config_eq]
      exact fun poll hpoll => hroom poll (List.mem_cons_of_mem _ hpoll)
    rcases h.poll_cases poll.1 poll.2 with
      ⟨receiver, hpoll, hempty, hafter⟩ | ⟨frame, receiver, hpoll, hafter⟩ |
        ⟨required, _, -, hlt, hle, -⟩
    · obtain ⟨frames, receiver', hrun, hframes⟩ := ih hafter hall (hconfig _ _ hpoll) hwire
      refine ⟨none :: frames, receiver', hrest _ _ hpoll _ _ hrun, ?_⟩
      -- nothing is under way, so everything was received before
      obtain ⟨payloads, hsent, -, harrivals⟩ := h.holds
      rw [hempty, hwire] at harrivals
      obtain rfl : payloads = [] := List.map_eq_nil_iff.mp harrivals.symm
      rw [List.append_nil] at hsent
      have hframes : pair.received ++ returned frames =
          pair.sent.take (pair.received.length + polls.length) := hframes
      rw [hsent, List.take_of_length_le (Nat.le_add_right _ _)] at hframes ⊢
      exact hframes
    · obtain ⟨frames, receiver', hrun, hframes⟩ := ih hafter hall (hconfig _ _ hpoll) hwire
      refine ⟨some frame :: frames, receiver', hrest _ _ hpoll _ _ hrun, ?_⟩
      have hframes : pair.received ++ [frame.bytes] ++ returned frames =
          pair.sent.take ((pair.received ++ [frame.bytes]).length + polls.length) := hframes
      rw [List.append_assoc, List.length_append, List.length_singleton, Nat.add_assoc,
        Nat.add_comm 1] at hframes
      exact hframes
    · have henough := hroom poll List.mem_cons_self
      omega

/-! ## The whole way -/

/-- The pair when every byte that was written has arrived. -/
def allArrived (pair : LinkPair sendMax receiveMax) : LinkPair sendMax receiveMax :=
  { pair with
    receiver := (pair.sender.io.written.drop pair.arrived).foldl arrive pair.receiver
    arrived := pair.sender.io.written.length }

/-- The bytes that arrive at the port leave the configuration alone. -/
theorem config_foldl_arrive (bytes : List UInt8) (link : RNodeSerialLink receiveMax) :
    (bytes.foldl arrive link).config = link.config := by
  induction bytes generalizing link with
  | nil => rfl
  | cons byte bytes ih => exact ih (arrive link byte)

/-- What is on the wire can arrive, byte by byte. -/
theorem run_allArrived (pair : LinkPair sendMax receiveMax)
    (hle : pair.arrived ≤ pair.sender.io.written.length) : Run pair pair.allArrived := by
  rw [allArrived]
  -- induction on the bytes that are still on the wire
  generalize hbytes : pair.sender.io.written.drop pair.arrived = bytes
  induction bytes generalizing pair with
  | nil =>
    rw [← le_antisymm hle (List.drop_eq_nil_iff.mp hbytes)]
    exact .refl
  | cons byte bytes ih =>
    have hnext : pair.sender.io.written[pair.arrived]? = some byte := by
      rw [← List.head?_drop, hbytes, List.head?_cons]
    have hlt : pair.arrived < pair.sender.io.written.length :=
      (List.getElem?_eq_some_iff.mp hnext).1
    have hrest : pair.sender.io.written.drop (pair.arrived + 1) = bytes := by
      rw [← List.tail_drop, hbytes, List.tail_cons]
    exact .head (.arrival hnext) (ih
      { pair with receiver := arrive pair.receiver byte, arrived := pair.arrived + 1 } hlt hrest)

/-- What two links promise that are connected by a wire: payloads are received in the order they were
sent, each once and unaltered; a send that is refused writes nothing; a poll fails only on an output
that is too short; and once all bytes have arrived, as many polls as payloads are outstanding return all
of them. -/
structure EndToEnd (pair : LinkPair sendMax receiveMax) : Prop where
  received_prefix : pair.received <+: pair.sent
  refused : ∀ bytes error sender, sendGatewayBytes bytes pair.sender = .error error sender →
    sender = pair.sender
  poll_error : ∀ nowMs output error receiver,
    pollGatewayFrameAt nowMs output pair.receiver = .error error receiver →
      ∃ required, error = .readBufferTooSmall output.length required ∧ output.length < required
  polls : pair.arrived = pair.sender.io.written.length →
    ∀ polls : List (TimestampMs × List UInt8),
      (∀ poll ∈ polls, pair.receiver.config.mtu ≤ poll.2.length) →
      pair.sent.length - pair.received.length ≤ polls.length →
        ∃ frames receiver,
          polls.mapM (fun poll => pollGatewayFrameAt poll.1 poll.2) pair.receiver =
            .ok frames receiver ∧
          pair.received ++ returned frames = pair.sent

/-- **End to end**: two links in envelope mode with one mtu keep this promise in every interleaving of
sends, arriving bytes and polls. -/
theorem endToEnd_of_run {pair pair' : LinkPair sendMax receiveMax} (h : pair.Initial)
    (hrun : Run pair pair') : pair'.EndToEnd := by
  have hunder := Run.underway hrun h.underway
  obtain ⟨payloads, hsent, -⟩ := hunder.holds
  refine ⟨⟨payloads, hsent.symm⟩, ?_, ?_, ?_⟩
  · exact fun bytes error sender hsend => sendGatewayBytes_error hunder.writes_eq hsend
  · intro nowMs output error receiver hpoll
    rcases hunder.poll_cases nowMs output with
      ⟨_, hnone, -⟩ | ⟨_, _, hframe, -⟩ | ⟨required, _, hshort, hlt, -⟩
    · rw [hnone] at hpoll
      cases hpoll
    · rw [hframe] at hpoll
      cases hpoll
    · rw [hshort] at hpoll
      cases hpoll
      exact ⟨required, rfl, hlt⟩
  · intro hall polls hroom hmany
    obtain ⟨frames, receiver, hpolls, hframes⟩ := hunder.polls hall polls hroom
    refine ⟨frames, receiver, hpolls, hframes.trans (List.take_of_length_le ?_)⟩
    omega

/-- Two links with nothing sent yet. -/
def samplePair : LinkPair 128 128 :=
  let link : RNodeSerialLink 128 := {
    config := ⟨⟨fillBytes 16 1⟩, 120, false, .hyfEnvelope⟩
    io := ⟨[], [], []⟩
    state := RNodeState.new false
    decoder := KissDecoder.new 128
    pending := none
    capacity := by decide }
  ⟨link, link, 0, [], []⟩

theorem initial_samplePair : samplePair.Initial where
  sender_new := ⟨samplePair.sender.config, samplePair.sender.io, rfl, rfl, rfl, rfl⟩
  receiver_new := ⟨samplePair.receiver.config, samplePair.receiver.io, rfl, rfl, rfl⟩
  mtu_eq := rfl
  arrived_eq := rfl
  sent_eq := rfl
  received_eq := rfl

/-- The bytes of a small envelope. -/
def sampleBytes : List UInt8 := wireBytes (sampleEnvelope 7 (.community ⟨fillBytes 16 9⟩) 1)

/-- The pair after `sampleBytes` were sent. -/
def sampleSent : LinkPair 128 128 :=
  { samplePair with
    sender := samplePair.sender.sentLink ⟨[], [], frameBytes kissCmdData sampleBytes⟩
    sent := [sampleBytes] }

theorem sendGatewayBytes_sampleBytes :
    sendGatewayBytes sampleBytes samplePair.sender = .ok () sampleSent.sender := by
  have hpayload : samplePair.sender.payloadForSend sampleBytes = .ok sampleBytes := by
    show (do let _ ← (decodeEnvelope sampleBytes).mapError _; return sampleBytes) = _
    rw [sampleBytes, decodeEnvelope_wireBytes (validEnvelope_sampleEnvelope _ _ _)]
    rfl
  have hwrite : writeKissFrame kissCmdData sampleBytes samplePair.sender.io =
      .ok () ⟨[], [], frameBytes kissCmdData sampleBytes⟩ := by
    obtain ⟨⟨reads, writes, written⟩, hwrote⟩ :=
      @wroteAll_of_writes samplePair.sender.io rfl (framePieces kissCmdData sampleBytes)
    obtain rfl : reads = [] := hwrote.reads_eq
    obtain rfl : writes = [] := hwrote.writes_eq
    obtain rfl : written = frameBytes kissCmdData sampleBytes := by
      rw [← flatten_framePieces]
      exact hwrote.written_eq
    rw [writeKissFrame_eq, hwrote.run_eq]
  exact sendGatewayBytes_written ⟨hpayload, by decide, rfl⟩ hwrite

/-- The frame arrives as a whole, a poll with room returns its payload, and what is promised holds
from then on. -/
theorem endToEnd_sampleReceived : ∃ pair, Run samplePair pair ∧ pair.sent = [sampleBytes] ∧
    pair.received = [sampleBytes] ∧ pair.EndToEnd := by
  have hsent : Run samplePair sampleSent := .single (.sendOk sendGatewayBytes_sampleBytes)
  have harrived : Run samplePair sampleSent.allArrived :=
    hsent.trans (run_allArrived sampleSent (Nat.zero_le _))
  -- all bytes are there, so one poll returns the payload
  obtain ⟨frames, receiver, hpolls, hreceived⟩ :=
    (endToEnd_of_run initial_samplePair harrived).polls rfl [(5, List.replicate 120 0)]
      (by
        intro poll hpoll
        obtain rfl := List.mem_singleton.mp hpoll
        exact (congrArg RNodeSerialConfig.mtu (config_foldl_arrive _ _)).le) (by decide)
  rw [List.mapM_cons] at hpolls
  obtain ⟨frame, receiver', hpoll, hrest⟩ := ByteCodec.exists_of_run_bind_eq_ok hpolls
  cases hrest
  have hrun := harrived.tail (.pollOk hpoll)
  refine ⟨_, hrun, rfl, ?_, endToEnd_of_run initial_samplePair hrun⟩
  rw [← show _ = [sampleBytes] from hreceived]
  cases frame <;> rfl

end LinkPair

end Hyf.RNodeSerial
